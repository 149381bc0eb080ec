import CodegenTypes.Scalar

namespace CodegenTypes

inductive Shape
  | invalid
  | scalar (kind : Scalar)
  | vector (kind : Scalar) (lanes : Lanes)
  deriving DecidableEq

namespace Shape

def fixed (kind : Scalar) (min : UInt32) : Shape := vector kind ⟨min, false⟩

def scalable (kind : Scalar) (min : UInt32) : Shape := vector kind ⟨min, true⟩

def kind? : Shape → Option Scalar
  | invalid => none
  | scalar kind | vector kind _ => some kind

def lanes? : Shape → Option Lanes
  | vector _ lanes => some lanes
  | _ => none

def name : Shape → String
  | invalid => "invalid"
  | scalar kind => kind.name
  | vector kind lanes => lanes.spell kind.name

end Shape

end CodegenTypes
