import CodegenTypes.Proofs.Form.Basic

namespace CodegenTypes

variable {F G : Form} {m : MachineType} {k : Scalar} {e : Element} {c : Lanes}

namespace MachineType

theorem hasShape_form (m : MachineType) : m.form.HasShape m.shape :=
  Form.hasShape_of_shape? m.shape?_form

@[simp] theorem form_invalid : invalid.form = .invalid := by decide

theorem shape_eq_invalid_iff : m.shape = .invalid ↔ m = invalid := by
  constructor
  · intro h
    apply Classical.byContradiction
    intro hm
    have := find?_shape hm
    rw [h, show find? .invalid = none by decide +kernel] at this
    cases this
  · intro h
    rw [h]
    decide

theorem form_eq_invalid_iff : m.form = .invalid ↔ m = invalid := by
  rw [form_eq_iff, ← shape_eq_invalid_iff, Form.shape?, Option.some.injEq, eq_comm]

theorem form_ofScalar (h : k.element? = some e) : (ofScalar k).form = .number e := by
  rw [form_eq_iff, shape_ofScalar, Form.shape?, Scalar.kind?_eq_some_iff.mpr h, Option.map_some]

theorem form_ofScalar_mark (h : k.element? = none) : (ofScalar k).form = .mark k h := by
  rw [form_eq_iff, shape_ofScalar, Form.shape?]

end MachineType

namespace Form

theorem machine?_eq_some_iff : F.machine? = some m ↔ m.form = F := by
  constructor
  · intro h
    have key : F.shape?.bind MachineType.find? = some m → m.form = F := by
      intro h
      obtain ⟨sh, hsh, hm⟩ := Option.bind_eq_some_iff.mp h
      rw [MachineType.form_eq_iff, hsh, MachineType.shape_of_find? hm]
    cases F with
    | invalid => cases h; exact MachineType.form_invalid
    | mark => exact key h
    | number => exact key h
    | vector => exact key h
  · intro h
    by_cases hm : m = .invalid
    · rw [← h, hm, MachineType.form_invalid]
      rfl
    · have key : F.shape?.bind MachineType.find? = some m := by
        rw [MachineType.form_eq_iff.mp h, Option.bind_some, MachineType.find?_shape hm]
      cases F with
      | invalid => exact absurd (MachineType.form_eq_invalid_iff.mp h) hm
      | mark => exact key
      | number => exact key
      | vector => exact key

@[simp] theorem machine?_form (m : MachineType) : m.form.machine? = some m :=
  machine?_eq_some_iff.mpr rfl

theorem machine?_mark (h : k.element? = none) : (mark k h).machine? = some (.ofScalar k) :=
  machine?_eq_some_iff.mpr (MachineType.form_ofScalar_mark h)

theorem machine?_number (e : Element) : (number e).machine? = e.kind?.map .ofScalar := by
  cases h : e.kind? with
  | none => simp [machine?, shape?, h]
  | some k =>
    rw [Option.map_some, machine?_eq_some_iff]
    exact MachineType.form_ofScalar (Scalar.kind?_eq_some_iff.mp h)

theorem machine?_vector (h : c.fitsVector) :
    (vector e c h).machine? = e.kind?.bind fun k => MachineType.find? (.vector k c) := by
  cases hk : e.kind? <;> simp [machine?, shape?, hk]

end Form

namespace MachineType

theorem form_injective : Function.Injective form := by
  intro m n h
  have := congrArg Form.machine? h
  simpa using this

end MachineType

namespace Form.HasShape

variable {sh : Shape}

theorem name (h : F.HasShape sh) : F.name = sh.name := by
  cases h with
  | invalid => rfl
  | mark h => rfl
  | number h => exact (Scalar.name_of_element? h).symm
  | vector h hc => simp [Form.name, Shape.name, Scalar.name_of_element? h]

theorem lanes? (h : F.HasShape sh) : F.lanes? = sh.lanes? := by cases h <;> rfl

theorem element? (h : F.HasShape sh) : F.element? = sh.kind?.bind Scalar.element? := by
  cases h with
  | invalid => rfl
  | mark h => exact h.symm
  | number h => exact h.symm
  | vector h hc => exact h.symm

theorem isInteger (h : F.HasShape sh) :
    F.element?.any Element.isInteger = sh.kind?.any Scalar.isInteger := by
  rw [h.element?]
  cases sh.kind? with
  | none => rfl
  | some k => exact k.isInteger_eq.symm

theorem isFloat (h : F.HasShape sh) :
    F.element?.any Element.isFloat = sh.kind?.any Scalar.isFloat := by
  rw [h.element?]
  cases sh.kind? with
  | none => rfl
  | some k => exact k.isFloat_eq.symm

theorem bits? (h : F.HasShape sh) :
    F.element?.map Element.bits = sh.kind?.bind Scalar.bits? := by
  rw [h.element?]
  cases sh.kind? with
  | none => rfl
  | some k => exact k.bits?_eq.symm

end Form.HasShape

namespace MachineType

theorem name_form (m : MachineType) : m.form.name = m.name :=
  m.hasShape_form.name.trans m.name_eq.symm

theorem isValid_form (m : MachineType) : m.form.isValid = m.isValid := by
  simp [Form.isValid, isValid, form_eq_invalid_iff, shape_eq_invalid_iff]

theorem lanes?_form (m : MachineType) : m.form.lanes? = m.lanes? := m.hasShape_form.lanes?

theorem isInteger_form (m : MachineType) :
    m.form.element?.any Element.isInteger = m.isInteger := m.hasShape_form.isInteger

theorem isFloat_form (m : MachineType) :
    m.form.element?.any Element.isFloat = m.isFloat := m.hasShape_form.isFloat

theorem scalarBits?_form (m : MachineType) :
    m.form.element?.map Element.bits = m.scalarBits? := m.hasShape_form.bits?

theorem shape_eq_vector_iff :
    m.shape = .vector k c ↔ ∃ e hc, k.element? = some e ∧ m.form = .vector e c hc := by
  constructor
  · intro h
    have hm := m.hasShape_form
    rw [h] at hm
    generalize m.form = F at hm ⊢
    cases hm with
    | @vector k e c hk hc => exact ⟨e, hc, hk, rfl⟩
  · rintro ⟨e, hc, hk, hF⟩
    have hm := m.shape?_form
    rw [hF, Form.shape?, Scalar.kind?_eq_some_iff.mpr hk] at hm
    exact (Option.some.inj hm).symm

theorem find?_vector_of_not_fits (hc : ¬c.fitsVector) :
    (e.kind?.bind fun kind => find? (.vector kind c)) = none := by
  apply Option.eq_none_iff_forall_ne_some.mpr
  intro m hm
  obtain ⟨kind, -, hf⟩ := Option.bind_eq_some_iff.mp hm
  obtain ⟨-, hfit, -⟩ := shape_eq_vector_iff.mp (shape_of_find? hf)
  exact hc hfit

theorem form_scalarType (m : MachineType) : m.scalarType.form = m.form.scalar := by
  rw [scalarType]
  generalize hF : m.form = F
  have h := m.hasShape_form
  rw [hF] at h
  generalize m.shape = sh at h
  cases h with
  | invalid => exact hF
  | mark h => exact hF
  | number h => exact hF
  | vector h hc => exact form_ofScalar h

end MachineType

end CodegenTypes
