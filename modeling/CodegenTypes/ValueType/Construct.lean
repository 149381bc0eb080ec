import CodegenTypes.ValueType.Basic

/-! Making value types, and going to and from IR types.  The result is canonical
whenever the table has the type, and then nothing is interned. -/

namespace CodegenTypes.ValueType

def ofIR (k : ContextId) (h : Handle) (s : Session) : Except Failure ValueType :=
  match MachineType.ofIR (s.context k) h with
  | .ok m => .ok (simple m)
  | .error (.notCanonical _) => .ok (extended ⟨k, h⟩)
  | .error e => .error (.rejected e)

/-- An extended type may be used with its own context only. -/
def checkOwner (v : ValueType) (k : ContextId) : Interning Unit :=
  match v with
  | simple _ => pure ()
  | extended x => do
    if x.owner = k then pure () else throw (.fault (.foreignType (← ask x.name)))

def toIR (v : ValueType) (k : ContextId) : Interning Handle :=
  match v with
  | simple m => within k m.toIR
  | extended x => do
    v.checkOwner k
    return x.handle

def integer (k : ContextId) (bits : UInt32) : Interning ValueType :=
  match MachineType.integer? bits with
  | some m => return simple m
  | none => do
    let h ← within k ((Context.integer bits).adaptExcept .type)
    return extended ⟨k, h⟩

def float (format : FloatFormat) : ValueType := simple (.ofScalar (.ofFormat format))

/-- The vector type that is interned when the table is not asked. -/
def internVector (k : ContextId) (element : ValueType) (lanes : Lanes) : Interning ValueType := do
  let e ← element.toIR k
  let h ← within k ((Context.vector e lanes).adaptExcept .type)
  return extended ⟨k, h⟩

def vector (k : ContextId) (element : ValueType) (lanes : Lanes) : Interning ValueType := do
  if ← ask element.isElement then
    match element.simple?.bind (MachineType.vector? · lanes) with
    | some m => return simple m
    | none => internVector k element lanes
  else throw (.rejected (.notElement (← ask element.name)))

end CodegenTypes.ValueType
