import CodegenTypes.MachineType.Derived
import CodegenTypes.ValueType.Construct

/-! Types derived from a vector type.  The table answers first; the general
construction answers where it cannot, and would give the same answer everywhere. -/

namespace CodegenTypes.ValueType

def canonical? (derive : MachineType → Except ValueTypeError MachineType) : ValueType → Option ValueType
  | simple m => (derive m).toOption.map simple
  | extended _ => none

def widenGeneral (v : ValueType) (k : ContextId) : Interning ValueType := do
  let lanes ← ask v.elementCount
  match ← ask v.scalarBits? with
  | some bits =>
    if ← ask v.isInteger then
      let element ← integer k (bits * 2)
      vector k element lanes
    else throw (.rejected (.notIntegerVector (← ask v.name)))
  | none => throw (.rejected (.notIntegerVector (← ask v.name)))

def widen (v : ValueType) (k : ContextId) : Interning ValueType := do
  v.checkOwner k
  match v.canonical? MachineType.widen with
  | some r => return r
  | none => v.widenGeneral k

def halfGeneral (v : ValueType) (k : ContextId) : Interning ValueType := do
  let lanes ← ask v.elementCount
  match lanes.halve with
  | .ok lanes => vector k (← ask v.scalarType) lanes
  | .error e => throw (.rejected (.lanes e))

def half (v : ValueType) (k : ContextId) : Interning ValueType := do
  v.checkOwner k
  match v.canonical? MachineType.half with
  | some r => return r
  | none => v.halfGeneral k

def toIntegerGeneral (v : ValueType) (k : ContextId) : Interning ValueType := do
  let lanes ← ask v.elementCount
  if ← ask v.isInteger then return v
  match ← ask v.scalarBits? with
  | some bits =>
    if ← ask v.isFloat then
      let element ← integer k bits
      vector k element lanes
    else throw (.rejected (.noIntegerCounterpart (← ask v.name)))
  | none => throw (.rejected (.noIntegerCounterpart (← ask v.name)))

def toInteger (v : ValueType) (k : ContextId) : Interning ValueType := do
  v.checkOwner k
  match v.canonical? MachineType.toInteger with
  | some r => return r
  | none => v.toIntegerGeneral k

/-- Other lanes of the same element, which for a scalar is the scalar itself. -/
def withLanes (v : ValueType) (k : ContextId) (lanes : Lanes) : Interning ValueType := do
  v.checkOwner k
  if v.isValid then vector k (← ask v.scalarType) lanes
  else throw (.rejected .invalid)

def withElement (v : ValueType) (k : ContextId) (element : ValueType) : Interning ValueType := do
  v.checkOwner k
  let lanes ← ask v.elementCount
  vector k element lanes

def double (v : ValueType) (k : ContextId) : Interning ValueType := do
  let lanes ← ask v.elementCount
  match lanes.double with
  | .ok lanes => v.withLanes k lanes
  | .error e => throw (.rejected (.lanes e))

end CodegenTypes.ValueType
