import CodegenTypes.ValueType.Construct

/-! Reading value type names.  A name is an entry of the table, an integer of any
width, or a vector of either; a vector's element is never a vector, so a name
nests at most once. -/

namespace CodegenTypes

/-- What the letters of a text say, before anything is built. -/
inductive Spelling
  | canonical (m : MachineType)
  | integer (bits : UInt32)
  | vector (lanes : Lanes) (element : String)
  | unknown
  deriving DecidableEq

namespace Spelling

/-- Digits, then an element that does not itself start like a vector. -/
def ofLanes (scalable : Bool) (text : String) : Spelling :=
  let (digits, element) := Decimal.splitDigits text
  match Decimal.count? digits.toList, element.toList with
  | none, _ | some _, [] | some _, 'v' :: _ | some _, 'n' :: _ => .unknown
  | some min, _ => .vector ⟨min, scalable⟩ element

def ofChars : List Char → Spelling
  | 'i' :: digits =>
    match Decimal.count? digits with
    | some bits => .integer bits
    | none => .unknown
  | 'n' :: 'x' :: 'v' :: cs => ofLanes true (String.ofList cs)
  | 'v' :: cs => ofLanes false (String.ofList cs)
  | _ => .unknown

def ofString (text : String) : Spelling :=
  match MachineType.ofName? text with
  | some m => .canonical m
  | none => ofChars text.toList

end Spelling

namespace ValueType

def parseElement (k : ContextId) (text : String) : Interning ValueType :=
  match Spelling.ofString text with
  | .canonical m => return simple m
  | .integer bits => integer k bits
  | .vector _ _ | .unknown => throw (.rejected (.unknownName text))

def parse (k : ContextId) (text : String) : Interning ValueType :=
  match Spelling.ofString text with
  | .canonical m => return simple m
  | .integer bits => integer k bits
  | .vector lanes element => do
    let e ← parseElement k element
    vector k e lanes
  | .unknown => throw (.rejected (.unknownName text))

end ValueType

end CodegenTypes
