import CodegenTypes.Json.Value

namespace CodegenTypes.Json

inductive Leaf
  | null
  | bool (b : Bool)
  | integer (n : Int)
  | text (s : String)
  deriving DecidableEq

inductive Cell
  | word (n : Nat)
  | flag (b : Bool)
  deriving DecidableEq

def Cell.leaf : Cell → Leaf
  | word n => .integer n
  | flag b => .bool b

def Cell.toJson : Cell → Json
  | word n => .number n
  | flag b => .bool b

inductive FieldType
  | word32
  | word64
  | flag
  deriving DecidableEq

def FieldType.Holds : FieldType → Cell → Prop
  | word32, .word n => n < UInt32.size
  | word64, .word n => n < UInt64.size
  | flag, .flag _ => True
  | _, _ => False

instance : (t : FieldType) → (x : Cell) → Decidable (t.Holds x)
  | .word32, .word n => inferInstanceAs (Decidable (n < UInt32.size))
  | .word64, .word n => inferInstanceAs (Decidable (n < UInt64.size))
  | .flag, .flag _ => .isTrue trivial
  | .word32, .flag _ | .word64, .flag _ | .flag, .word _ => .isFalse id

structure Field where
  key : String
  type : FieldType

/-- A type with the fields that it is declared by, in their order. -/
structure Record (α : Type) where
  fields : List Field
  cells : α → List Cell
  ofCells? : List Cell → Option α
  nodup_keys : (fields.map Field.key).Nodup
  length_cells : ∀ a, (cells a).length = fields.length
  holds : ∀ a, ∀ p ∈ fields.zip (cells a), p.1.type.Holds p.2
  ofCells?_eq_some_iff : ∀ {xs a}, ofCells? xs = some a ↔ cells a = xs

namespace Record

variable {α : Type} (R : Record α)

def entries (a : α) : List (Field × Cell) := R.fields.zip (R.cells a)

def leaves (a : α) : List (String × Leaf) := (R.entries a).map fun p => (p.1.key, p.2.leaf)

def field? (name : String) : Option Field := R.fields.find? (·.key = name)

def toJson (a : α) : Json := .object ((R.entries a).map fun p => (p.1.key, p.2.toJson))

end Record

/-- What has been read of each field so far. -/
abbrev Slots := String → Option Cell

namespace Slots

def empty : Slots := fun _ => none

def set (s : Slots) (key : String) (x : Cell) : Slots :=
  fun name => if name = key then some x else s name

end Slots

end CodegenTypes.Json
