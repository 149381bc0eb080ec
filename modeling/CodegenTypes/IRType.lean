import CodegenTypes.FloatFormat
import CodegenTypes.Lanes

/-! Structural IR types.  A vector names its element by a handle, so a type means
something only beside the context that issued the handle. -/

namespace CodegenTypes

/-- The position of a type in its context. -/
structure Handle where
  index : Nat
  deriving DecidableEq

inductive IRType
  | void
  | label
  | metadata
  | token
  | integer (bits : UInt32)
  | float (format : FloatFormat)
  | vector (element : Handle) (lanes : Lanes)
  deriving DecidableEq

namespace IRType

def maxIntegerBits : UInt32 := 16777216

def isInteger : IRType → Bool
  | integer _ => true
  | _ => false

def isFloat : IRType → Bool
  | float _ => true
  | _ => false

def isElement (t : IRType) : Bool := t.isInteger || t.isFloat

def isVector : IRType → Bool
  | vector _ _ => true
  | _ => false

def isScalableVector : IRType → Bool
  | vector _ lanes => lanes.scalable
  | _ => false

def integerBits? : IRType → Option UInt32
  | integer bits => some bits
  | _ => none

def format? : IRType → Option FloatFormat
  | float format => some format
  | _ => none

def scalarBits? : IRType → Option UInt32
  | integer bits => some bits
  | float format => some format.bits
  | _ => none

def lanes? : IRType → Option Lanes
  | vector _ lanes => some lanes
  | _ => none

def element? : IRType → Option Handle
  | vector element _ => some element
  | _ => none

theorem isVector_eq (t : IRType) : t.isVector = t.lanes?.isSome := by cases t <;> rfl

theorem isScalableVector_eq (t : IRType) : t.isScalableVector = t.lanes?.any Lanes.scalable := by
  cases t <;> rfl

end IRType

end CodegenTypes
