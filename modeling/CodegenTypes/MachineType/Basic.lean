import CodegenTypes.BitSize
import CodegenTypes.Failure
import CodegenTypes.MachineType.Table

namespace CodegenTypes.MachineType

def isValid (m : MachineType) : Bool := m.shape ≠ .invalid

def kind? (m : MachineType) : Option Scalar := m.shape.kind?

def lanes? (m : MachineType) : Option Lanes := m.shape.lanes?

def isInteger (m : MachineType) : Bool := m.kind?.any Scalar.isInteger

def isFloat (m : MachineType) : Bool := m.kind?.any Scalar.isFloat

def isVector (m : MachineType) : Bool :=
  match m.shape with
  | .vector _ _ => true
  | _ => false

def isScalableVector (m : MachineType) : Bool :=
  match m.shape with
  | .vector _ lanes => lanes.scalable
  | _ => false

def isFixedVector (m : MachineType) : Bool :=
  match m.shape with
  | .vector _ lanes => lanes.isFixed
  | _ => false

def integer? (bits : UInt32) : Option MachineType := (Scalar.integer? bits).map ofScalar

def vector? (element : MachineType) (lanes : Lanes) : Option MachineType :=
  match element.shape with
  | .scalar kind => find? (.vector kind lanes)
  | _ => none

def scalarType (m : MachineType) : MachineType :=
  match m.shape with
  | .vector kind _ => ofScalar kind
  | _ => m

def vectorParts (m : MachineType) : Except ValueTypeError (Scalar × Lanes) :=
  match m.shape with
  | .vector kind lanes => .ok (kind, lanes)
  | .invalid => .error .invalid
  | .scalar _ => .error (.notVector m.name)

def elementType (m : MachineType) : Except ValueTypeError MachineType :=
  m.vectorParts.map fun (kind, _) => ofScalar kind

def elementCount (m : MachineType) : Except ValueTypeError Lanes := m.vectorParts.map (·.2)

def numElements (m : MachineType) : Except ValueTypeError UInt32 := m.elementCount.map Lanes.min

def scalarBits? (m : MachineType) : Option UInt32 := m.kind?.bind Scalar.bits?

def size? (m : MachineType) : Option BitSize :=
  match m.shape with
  | .invalid => none
  | .scalar kind => kind.bits?.map fun bits => .fixed bits.toUInt64
  | .vector kind lanes => kind.bits?.map (BitSize.ofLanes · lanes)

variable (m : MachineType)

theorem isVector_eq : m.isVector = m.lanes?.isSome := by
  rw [isVector, lanes?]
  cases m.shape <;> rfl

theorem isScalableVector_eq : m.isScalableVector = m.lanes?.any Lanes.scalable := by
  rw [isScalableVector, lanes?]
  cases m.shape <;> rfl

end CodegenTypes.MachineType
