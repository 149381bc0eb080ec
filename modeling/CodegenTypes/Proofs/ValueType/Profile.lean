import CodegenTypes.Proofs.ValueType.HasForm

namespace CodegenTypes

structure Profile where
  isValid : Bool
  isSimple : Bool
  simple? : Option MachineType
  isInteger : Except Failure Bool
  isFloat : Except Failure Bool
  isVector : Except Failure Bool
  isScalableVector : Except Failure Bool
  isFixedVector : Except Failure Bool
  elementCount : Except Failure Lanes
  numElements : Except Failure UInt32
  scalarBits? : Except Failure (Option UInt32)
  size? : Except Failure (Option BitSize)

def ValueType.profile (v : ValueType) (s : Session) : Profile where
  isValid := v.isValid
  isSimple := v.isSimple
  simple? := v.simple?
  isInteger := v.isInteger s
  isFloat := v.isFloat s
  isVector := v.isVector s
  isScalableVector := v.isScalableVector s
  isFixedVector := v.isFixedVector s
  elementCount := v.elementCount s
  numElements := v.numElements s
  scalarBits? := v.scalarBits? s
  size? := v.size? s

namespace Form

def size? (F : Form) : Option BitSize :=
  F.element?.map fun e =>
    match F.lanes? with
    | some lanes => .ofLanes e.bits lanes
    | none => .fixed e.bits.toUInt64

def profile (F : Form) : Profile where
  isValid := F.isValid
  isSimple := F.machine?.isSome
  simple? := F.machine?
  isInteger := .ok (F.element?.any Element.isInteger)
  isFloat := .ok (F.element?.any Element.isFloat)
  isVector := .ok F.lanes?.isSome
  isScalableVector := .ok (F.lanes?.any Lanes.scalable)
  isFixedVector := .ok (F.lanes?.any Lanes.isFixed)
  elementCount := F.elementCount.mapError .rejected
  numElements := (F.elementCount.mapError .rejected).map Lanes.min
  scalarBits? := .ok (F.element?.map Element.bits)
  size? := .ok F.size?

end Form

namespace ValueType.HasForm

variable {s t : Session} {k : ContextId} {v w : ValueType} {F : Form}

theorem simple? (hv : v.HasForm s F) : v.simple? = F.machine? := by
  cases hv with
  | simple m => exact (Form.machine?_form m).symm
  | extended hx he => exact he.symm

theorem isSimple (hv : v.HasForm s F) : v.isSimple = F.machine?.isSome := by
  rw [← hv.simple?]
  cases v <;> rfl

theorem size? (hs : s.WellFormed) (hv : v.HasForm s F) : v.size? s = .ok F.size? := by
  rw [ValueType.size?, hv.scalarBits?, hv.lanes? hs, Form.size?]
  cases F.element? with
  | none => rfl
  | some e => cases F.lanes? <;> rfl

theorem profile (hs : s.WellFormed) (hv : v.HasForm s F) : v.profile s = F.profile := by
  rw [ValueType.profile, Form.profile, hv.isValid, hv.isSimple, hv.simple?, hv.isInteger, hv.isFloat,
    hv.isVector, hv.isScalableVector, hv.isFixedVector, ValueType.numElements, hv.elementCount hs,
    hv.scalarBits?, hv.size? hs]

/-! Questions that are answered with a value type have the same answer at all later times. -/

theorem scalarType_mono (hle : s ≤ t) (ht : t.WellFormed) (hv : v.HasForm s F) :
    v.scalarType t = v.scalarType s := by
  obtain ⟨k, hk⟩ := v.exists_belongsTo
  obtain ⟨w, hw, hwF, hwk⟩ := hv.scalarType hk
  obtain ⟨u, hu, huF, huk⟩ := (hv.mono hle).scalarType hk
  rw [hw, hu, huF.value_unique ht (hwF.mono hle) huk hwk]

theorem elementType_mono (hle : s ≤ t) (hs : s.WellFormed) (ht : t.WellFormed)
    (hv : v.HasForm s F) : v.elementType t = v.elementType s := by
  rw [hv.elementType hs, (hv.mono hle).elementType ht, hv.scalarType_mono hle ht]

end ValueType.HasForm

end CodegenTypes
