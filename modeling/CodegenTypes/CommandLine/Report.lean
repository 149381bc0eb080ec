import CodegenTypes.CommandLine.Command
import CodegenTypes.Json.Writer
import CodegenTypes.Listing
import CodegenTypes.Summary
import CodegenTypes.ValueType.Name

namespace CodegenTypes.CommandLine

def document (pretty : Json → String) (v : Json) : String := pretty v ++ "\n"

def unit : ContextId := ⟨0⟩

structure RoundTrip where
  valueType : String
  irType : String
  roundTrip : String
  exact : Bool
  deriving DecidableEq

namespace RoundTrip

def of (v : ValueType) : Interning RoundTrip := do
  let h ← v.toIR unit
  let back ← ask (ValueType.ofIR unit h)
  return {
    valueType := ← ask v.name
    irType := ← ask fun s => .ok ((s.context unit).display h)
    roundTrip := ← ask back.name
    exact := back = v }

def toJson (r : RoundTrip) : Json :=
  .object [("value_type", .string r.valueType), ("ir_type", .string r.irType),
    ("round_trip", .string r.roundTrip), ("exact", .bool r.exact)]

def display (r : RoundTrip) : String :=
  "value type: " ++ r.valueType ++ "\nIR type:    " ++ r.irType ++ "\nround trip: " ++
    r.roundTrip ++ "\n"

end RoundTrip

structure Derived where
  op : Derivation
  source : Summary
  result : Summary
  deriving DecidableEq

namespace Derived

def of (op : Derivation) (v : ValueType) : Interning Derived := do
  let r ← op.apply unit v
  return { op := op, source := ← ask (Summary.of v), result := ← ask (Summary.of r) }

def toJson (r : Derived) : Json :=
  .object [("op", .string r.op.word), ("from", r.source.toJson), ("to", r.result.toJson)]

def display (r : Derived) : String := r.source.name ++ " -> " ++ r.result.name ++ "\n"

end Derived

namespace Command

def run (pretty : Json → String) (terminal : Bool) : Command → Interning String
  | list set json color => do
    if json then
      let rows ← set.types.mapM fun m => ask (Summary.of (.simple m))
      return document pretty (.array (rows.map Summary.toJson))
    else return Listing.table (.ofFlag (color.isEnabled terminal)) set.types
  | summary name json => do
    let v ← ValueType.parse unit name
    let r ← ask (Summary.of v)
    return if json then document pretty r.toJson else r.display
  | derive name op json => do
    let v ← ValueType.parse unit name
    let r ← Derived.of op v
    return if json then document pretty r.toJson else r.display
  | bridge name json => do
    let v ← ValueType.parse unit name
    let r ← RoundTrip.of v
    return if json then document pretty r.toJson else r.display

def output (terminal : Bool) (c : Command) (pretty : Json → String := Json.pretty) :
    Except Failure String :=
  match c.run pretty terminal .fresh with
  | .ok text _ => .ok text
  | .error e _ => .error e

end Command

end CodegenTypes.CommandLine
