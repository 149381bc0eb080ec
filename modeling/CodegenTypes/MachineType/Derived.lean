import CodegenTypes.MachineType.Basic

namespace CodegenTypes.MachineType

def lookupVector (kind : Scalar) (lanes : Lanes) : Except ValueTypeError MachineType :=
  match find? (.vector kind lanes) with
  | some m => .ok m
  | none => .error (.notCanonical (lanes.spell kind.name))

def widen (m : MachineType) : Except ValueTypeError MachineType := do
  let (kind, lanes) ← m.vectorParts
  if kind.isInteger then
    match kind.wider? with
    | some wider => lookupVector wider lanes
    | none => .error (.noWiderInteger m.name)
  else .error (.notIntegerVector m.name)

def half (m : MachineType) : Except ValueTypeError MachineType := do
  let (kind, lanes) ← m.vectorParts
  let lanes ← lanes.halve.mapError .lanes
  lookupVector kind lanes

def toInteger (m : MachineType) : Except ValueTypeError MachineType := do
  let (kind, lanes) ← m.vectorParts
  match kind.toInteger? with
  | some integer => lookupVector integer lanes
  | none => .error (.noIntegerCounterpart m.name)

def withLanes (m : MachineType) (lanes : Lanes) : Except ValueTypeError MachineType :=
  match m.kind? with
  | some kind => lookupVector kind lanes
  | none => .error .invalid

end CodegenTypes.MachineType
