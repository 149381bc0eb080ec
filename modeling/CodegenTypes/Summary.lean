import CodegenTypes.NumberClass
import CodegenTypes.Json.Descriptor
import CodegenTypes.ValueType.Basic

namespace CodegenTypes

structure Summary where
  name : String
  index : Option Nat
  extended : Bool
  scalar : String
  integer : Bool
  float : Bool
  vector : Bool
  scalable : Bool
  lanes : Option Lanes
  bits : Option UInt64
  deriving DecidableEq

namespace Summary

def of (v : ValueType) (s : Session) : Except Failure Summary := do
  return {
    name := ← v.name s
    index := v.simple?.map fun m => m.index.val
    extended := v.isExtended
    scalar := ← (← v.scalarType s).name s
    integer := ← v.isInteger s
    float := ← v.isFloat s
    vector := ← v.isVector s
    scalable := ← v.isScalableVector s
    lanes := ← v.lanes? s
    bits := (← v.size? s).map BitSize.minBits }

/-- Lanes and bits are left out when there are none, an index is null. -/
def toJson (r : Summary) : Json :=
  .object (
    [("name", .string r.name), ("index", .ofOption .number r.index), ("extended", .bool r.extended),
      ("scalar", .string r.scalar), ("integer", .bool r.integer), ("floating_point", .bool r.float),
      ("vector", .bool r.vector), ("scalable", .bool r.scalable)] ++
    (r.lanes.map fun c => ("lanes", c.toJson)).toList ++
    (r.bits.map fun n => ("bits", .number n.toNat)).toList)

def form (r : Summary) : String :=
  match r.index with
  | some i => "canonical #" ++ Decimal.text i
  | none => "extended"

def lines (r : Summary) : List String :=
  ["name:    " ++ r.name, "form:    " ++ r.form, "scalar:  " ++ r.scalar,
    "class:   " ++ (NumberClass.of r.integer r.float).name] ++
  (r.lanes.map fun c => "lanes:   " ++ c.display).toList ++
  (r.bits.map fun n =>
    "bits:    " ++ (if r.scalable then "vscale x " else "") ++ Decimal.text n.toNat).toList

def display (r : Summary) : String := String.join (r.lines.map (· ++ "\n"))

end Summary

end CodegenTypes
