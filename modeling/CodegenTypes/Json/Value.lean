/-! JSON values.  Numbers are naturals, because nothing else is ever written, and
the fields of an object keep the order they are given in. -/

namespace CodegenTypes

inductive Json
  | null
  | bool (b : Bool)
  | number (n : Nat)
  | string (s : String)
  | array (items : List Json)
  | object (fields : List (String × Json))

namespace Json

def ofOption (encode : α → Json) : Option α → Json
  | some a => encode a
  | none => null

end Json

end CodegenTypes
