import CodegenTypes.MachineType.Lowering
import CodegenTypes.Session

/-! Value types: the entries of the table, and beyond it every structural type of a
context.  A question about an extended type is answered by the context that owns
it; one that this context cannot answer is a fault. -/

namespace CodegenTypes

structure ExtendedType where
  owner : ContextId
  handle : Handle
  deriving DecidableEq

inductive ValueType
  | simple (m : MachineType)
  | extended (x : ExtendedType)
  deriving DecidableEq

/-- The name of the value type of an IR type.  An element precedes its vectors. -/
def Context.valueTypeName (Γ : Context) (h : Handle) : Except Failure String :=
  match Γ.get h with
  | .error f => .error (.fault f)
  | .ok (.integer bits) => .ok ("i" ++ Decimal.text bits.toNat)
  | .ok (.vector element lanes) =>
    match MachineType.ofIR Γ element with
    | .ok m => .ok (lanes.spell m.name)
    | .error _ =>
      if element.index < h.index then (Γ.valueTypeName element).map lanes.spell
      else .error (.fault (.unknownHandle element))
  | .ok _ => .ok (Γ.display h)
termination_by h.index

namespace ExtendedType

def irType (x : ExtendedType) (s : Session) : Except Failure IRType :=
  ((s.context x.owner).get x.handle).mapError .fault

/-- The IR type of the element of a vector, and of any other type itself. -/
def scalarIRType (x : ExtendedType) (s : Session) : Except Failure IRType := do
  match ← x.irType s with
  | .vector element _ => ((s.context x.owner).get element).mapError .fault
  | t => return t

def name (x : ExtendedType) (s : Session) : Except Failure String :=
  (s.context x.owner).valueTypeName x.handle

end ExtendedType

namespace ValueType

/-- The value type of an interned type, canonical if the table has it. -/
def ofHandle (k : ContextId) (h : Handle) (s : Session) : ValueType :=
  match MachineType.ofIR (s.context k) h with
  | .ok m => .simple m
  | .error _ => .extended ⟨k, h⟩

def isSimple : ValueType → Bool
  | simple _ => true
  | extended _ => false

def isExtended : ValueType → Bool
  | simple _ => false
  | extended _ => true

def simple? : ValueType → Option MachineType
  | simple m => some m
  | extended _ => none

def isValid : ValueType → Bool
  | simple m => m.isValid
  | extended _ => true

def name (v : ValueType) (s : Session) : Except Failure String :=
  match v with
  | simple m => .ok m.name
  | extended x => x.name s

def isInteger (v : ValueType) (s : Session) : Except Failure Bool :=
  match v with
  | simple m => .ok m.isInteger
  | extended x => (x.scalarIRType s).map IRType.isInteger

def isFloat (v : ValueType) (s : Session) : Except Failure Bool :=
  match v with
  | simple m => .ok m.isFloat
  | extended x => (x.scalarIRType s).map IRType.isFloat

def isVector (v : ValueType) (s : Session) : Except Failure Bool :=
  match v with
  | simple m => .ok m.isVector
  | extended x => (x.irType s).map IRType.isVector

def isScalableVector (v : ValueType) (s : Session) : Except Failure Bool :=
  match v with
  | simple m => .ok m.isScalableVector
  | extended x => (x.irType s).map IRType.isScalableVector

def isFixedVector (v : ValueType) (s : Session) : Except Failure Bool := do
  if ← v.isVector s then return !(← v.isScalableVector s) else return false

def scalarType (v : ValueType) (s : Session) : Except Failure ValueType :=
  match v with
  | simple m => .ok (simple m.scalarType)
  | extended x => do
    match ← x.irType s with
    | .vector element _ => return ofHandle x.owner element s
    | _ => return v

def notVector (v : ValueType) (s : Session) : Except Failure α := do
  if v.isValid then throw (.rejected (.notVector (← v.name s)))
  else throw (.rejected .invalid)

def elementCount (v : ValueType) (s : Session) : Except Failure Lanes :=
  match v with
  | simple m => m.elementCount.mapError .rejected
  | extended x => do
    match (← x.irType s).lanes? with
    | some lanes => return lanes
    | none => v.notVector s

/-- The lanes of a vector.  Only a refusal counts as having none. -/
def lanes? (v : ValueType) (s : Session) : Except Failure (Option Lanes) :=
  match v.elementCount s with
  | .ok lanes => .ok (some lanes)
  | .error (.rejected _) => .ok none
  | .error (.fault f) => .error (.fault f)

def elementType (v : ValueType) (s : Session) : Except Failure ValueType := do
  if ← v.isVector s then v.scalarType s else v.notVector s

def numElements (v : ValueType) (s : Session) : Except Failure UInt32 :=
  (v.elementCount s).map Lanes.min

def scalarBits? (v : ValueType) (s : Session) : Except Failure (Option UInt32) :=
  match v with
  | simple m => .ok m.scalarBits?
  | extended x => (x.scalarIRType s).map IRType.scalarBits?

def size? (v : ValueType) (s : Session) : Except Failure (Option BitSize) := do
  match ← v.scalarBits? s with
  | none => return none
  | some bits =>
    match ← v.lanes? s with
    | some lanes => return some (.ofLanes bits lanes)
    | none => return some (.fixed bits.toUInt64)

def isElement (v : ValueType) (s : Session) : Except Failure Bool := do
  if ← v.isVector s then return false
  else if ← v.isInteger s then return true
  else v.isFloat s

end ValueType

end CodegenTypes
