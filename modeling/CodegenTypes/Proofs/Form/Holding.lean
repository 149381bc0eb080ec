import CodegenTypes.MachineType.Lowering
import CodegenTypes.Proofs.Form.Entry
import CodegenTypes.ValueType.Basic

/-! Contexts hold forms.  A well-formed context holds a form under one handle, holds it
from now on when asked to, and lowers the handle to the entry of the form. -/

namespace CodegenTypes

theorem Element.isElement_irType (e : Element) : e.irType.isElement := by cases e <;> rfl

theorem Element.ofIRType?_irType (e : Element) : Scalar.ofIRType? e.irType = e.kind? := by
  cases e <;> rfl

def Form.noIRType : Form → ValueTypeError
  | invalid => .invalid
  | F => .noIRType F.name

namespace Context

inductive Holds (Γ : Context) (h : Handle) : Form → Prop
  | mark {k : Scalar} {t : IRType} (hk : k.element? = none) (ht : k.irType? = some t)
      (hh : Γ.get? h = some t) : Holds Γ h (.mark k hk)
  | number {e : Element} (hh : Γ.get? h = some e.irType) : Holds Γ h (.number e)
  | vector {j : Handle} {e : Element} {c : Lanes} (hc : c.fitsVector)
      (hj : Γ.get? j = some e.irType) (hh : Γ.get? h = some (.vector j c)) :
      Holds Γ h (.vector e c hc)

/-- Holds a form from now on, the element of a vector first. -/
def hold (Γ : Context) : Form → Option (Handle × Context)
  | .invalid => none
  | .mark k _ => k.irType?.map Γ.insert
  | .number e => some (Γ.insert e.irType)
  | .vector e c _ =>
    let (j, Δ) := Γ.insert e.irType
    some (Δ.insert (.vector j c))

variable {Γ Δ : Context} {h j : Handle} {F G : Form}

theorem hold_eq_none_iff :
    Γ.hold F = none ↔ F = .invalid ∨ ∃ k hk, F = .mark k hk ∧ k.irType? = none := by
  cases F with
  | invalid => simp [hold]
  | mark k hk => simp [hold, hk]
  | number e => simp [hold]
  | vector e c hc => simp [hold]

namespace Holds

theorem mono (hle : Γ ≤ Δ) (hF : Γ.Holds h F) : Δ.Holds h F := by
  cases hF with
  | mark hk ht hh => exact .mark hk ht (get?_mono hle hh)
  | number hh => exact .number (get?_mono hle hh)
  | vector hc hj hh => exact .vector hc (get?_mono hle hj) (get?_mono hle hh)

theorem vector_iff {e : Element} {c : Lanes} {hc : c.fitsVector} :
    Γ.Holds h (.vector e c hc) ↔ ∃ j, Γ.Holds j (.number e) ∧ Γ.get? h = some (.vector j c) := by
  constructor
  · intro hF
    cases hF with
    | vector _ hj hh => exact ⟨_, .number hj, hh⟩
  · rintro ⟨j, hj, hh⟩
    cases hj with
    | number hj => exact .vector hc hj hh

theorem exists_get? (hF : Γ.Holds h F) : ∃ t, Γ.get? h = some t := by
  cases hF with
  | mark _ _ hh => exact ⟨_, hh⟩
  | number hh => exact ⟨_, hh⟩
  | vector _ _ hh => exact ⟨_, hh⟩

theorem shape? (hF : Γ.Holds h F) :
    ∃ t, Γ.get? h = some t ∧ t ≠ .label ∧ Γ.shape? t = F.shape? := by
  cases hF with
  | @mark k t hk ht hh =>
    refine ⟨t, hh, ?_, ?_⟩
    · cases k <;> cases ht <;> simp
    · cases k <;> cases ht <;> rfl
  | @number e hh =>
    refine ⟨_, hh, ?_, ?_⟩
    · cases e <;> simp [Element.irType]
    · cases e <;> rfl
  | vector hc hj hh =>
    refine ⟨_, hh, by simp, ?_⟩
    rw [Context.shape?, hj, Option.bind_some, Element.ofIRType?_irType, Form.shape?]

theorem ofIR (hF : Γ.Holds h F) :
    MachineType.ofIR Γ h =
      match F.machine? with
      | some m => .ok m
      | none => .error (.notCanonical (Γ.display h)) := by
  obtain ⟨t, ht, hl, hs⟩ := hF.shape?
  have he : F.machine? = (Γ.shape? t).bind MachineType.find? := by
    rw [hs]
    cases hF <;> rfl
  rw [MachineType.ofIR, ht, he]
  cases t with
  | label => exact absurd rfl hl
  | _ => rfl

theorem valueTypeName (hΓ : Γ.WellFormed) (hF : Γ.Holds h F) (he : F.machine? = none) :
    Γ.valueTypeName h = .ok F.name := by
  cases hF with
  | mark hk ht hh => rw [Form.machine?_mark] at he; cases he
  | @number e hh =>
    cases e with
    | integer bits hb => rw [Context.valueTypeName, get, hh]; rfl
    | float f => rw [Form.machine?_number] at he; cases he
  | @vector j e c hc hj hh =>
    rw [Context.valueTypeName, get, hh]
    have hlt := (hΓ.vector h j c hh).2.1
    have hel : Γ.Holds j (.number e) := .number hj
    simp only [hel.ofIR]
    cases hn : (Form.number e).machine? with
    | some m =>
      have := m.name_form
      rw [Form.machine?_eq_some_iff.mp hn] at this
      simp [← this, Form.name]
    | none =>
      cases e with
      | integer bits hb =>
        simp only [if_pos hlt]
        rw [Context.valueTypeName, get, hj]
        rfl
      | float f => rw [Form.machine?_number] at hn; cases hn

end Holds

namespace WellFormed

theorem handle_unique (hΓ : Γ.WellFormed) (hh : Γ.Holds h F) (hj : Γ.Holds j F) : h = j := by
  cases hh with
  | mark hk ht hh =>
    cases hj with
    | mark _ ht' hj =>
      cases ht.symm.trans ht'
      exact hΓ.get?_inj hh hj
  | number hh =>
    cases hj with
    | number hj => exact hΓ.get?_inj hh hj
  | vector hc he hh =>
    cases hj with
    | vector _ he' hj =>
      cases hΓ.get?_inj he he'
      exact hΓ.get?_inj hh hj

theorem get?_element (hΓ : Γ.WellFormed) {t : IRType} (ht : Γ.get? h = some t)
    (hel : t.isElement) : ∃ e : Element, t = e.irType := by
  cases t with
  | integer bits => exact ⟨.integer bits (hΓ.width bits (mem_types_of_get? ht)), rfl⟩
  | float f => exact ⟨.float f, rfl⟩
  | _ => cases hel

theorem exists_holds_vector (hΓ : Γ.WellFormed) {c : Lanes} (hh : Γ.get? h = some (.vector j c)) :
    ∃ e hc, Γ.Holds h (.vector e c hc) := by
  obtain ⟨hc, -, u, hu, hel⟩ := hΓ.vector h j c hh
  obtain ⟨e, rfl⟩ := hΓ.get?_element hu hel
  exact ⟨e, Lanes.fitsVector_iff.mpr hc, .vector _ hu hh⟩

theorem exists_holds (hΓ : Γ.WellFormed) {t : IRType} (ht : Γ.get? h = some t)
    (hl : t ≠ .label) : ∃ F, Γ.Holds h F := by
  cases t with
  | void => exact ⟨_, .mark (k := .isVoid) rfl rfl ht⟩
  | label => exact absurd rfl hl
  | metadata => exact ⟨_, .mark (k := .metadata) rfl rfl ht⟩
  | token => exact ⟨_, .mark (k := .token) rfl rfl ht⟩
  | integer bits =>
    obtain ⟨e, he⟩ := hΓ.get?_element ht rfl
    exact ⟨_, .number (he ▸ ht)⟩
  | float f => exact ⟨_, .number (e := .float f) ht⟩
  | vector j c =>
    obtain ⟨e, hc, hF⟩ := hΓ.exists_holds_vector ht
    exact ⟨_, hF⟩

theorem hold_of_holds (hΓ : Γ.WellFormed) (hF : Γ.Holds h F) : Γ.hold F = some (h, Γ) := by
  cases hF with
  | mark hk ht hh => rw [hold, ht, Option.map_some, hΓ.insert_of_get? hh]
  | number hh => rw [hold, hΓ.insert_of_get? hh]
  | vector hc hj hh => simp only [hold, hΓ.insert_of_get? hj, hΓ.insert_of_get? hh]

theorem insert_element (hΓ : Γ.WellFormed) (e : Element) :
    (Γ.insert e.irType).2.WellFormed := by
  apply hΓ.insert
  cases e with
  | integer bits hb => exact check_integer_iff.mpr hb
  | float f => rfl

theorem check_vector {e : Element} {c : Lanes} (hc : c.fitsVector)
    (hj : Γ.get? j = some e.irType) : Γ.check (.vector j c) = .ok () :=
  check_vector_iff.mpr ⟨hc, _, hj, e.isElement_irType⟩

theorem hold (hΓ : Γ.WellFormed) (hF : Γ.hold F = some (h, Δ)) :
    Δ.WellFormed ∧ Γ ≤ Δ ∧ Δ.Holds h F := by
  cases F with
  | invalid => cases hF
  | mark k hk =>
    obtain ⟨t, ht, hi⟩ := Option.map_eq_some_iff.mp hF
    have hg := get?_insert Γ t
    have hw : (Γ.insert t).2.WellFormed := by
      apply hΓ.insert
      cases k <;> cases ht <;> rfl
    have hle := le_insert Γ t
    rw [hi] at hg hw hle
    exact ⟨hw, hle, .mark hk ht hg⟩
  | number e =>
    have hg := get?_insert Γ e.irType
    have hw := hΓ.insert_element e
    have hle := le_insert Γ e.irType
    rw [Option.some.inj hF] at hg hw hle
    exact ⟨hw, hle, .number hg⟩
  | vector e c hc =>
    have hg := get?_insert Γ e.irType
    have hw := hΓ.insert_element e
    have hle := le_insert Γ e.irType
    simp only [Context.hold] at hF
    generalize Γ.insert e.irType = p at hF hg hw hle
    obtain ⟨j, Γ'⟩ := p
    have hg' := get?_insert Γ' (.vector j c)
    have hw' := hw.insert (check_vector hc hg)
    have hle' := le_insert Γ' (.vector j c)
    simp only at hF hg' hw' hle'
    rw [Option.some.inj hF] at hg' hw' hle'
    exact ⟨hw', hle.trans hle', .vector hc (get?_mono hle' hg) hg'⟩

end WellFormed

theorem intern_of_check {t : IRType} (hc : Γ.check t = .ok ()) :
    Context.intern t Γ = .ok (Γ.insert t).1 (Γ.insert t).2 := by
  rw [intern, hc]

end Context

namespace MachineType

variable {Γ : Context} {name : String} {k : Scalar} {e : Element}

theorem internScalar_of_element? (hk : k.element? = some e) :
    internScalar name k Γ = .ok (Γ.insert e.irType).1 (Γ.insert e.irType).2 := by
  cases e with
  | integer bits hb =>
    have hs : internScalar name k =
        (Context.integer bits).adaptExcept fun _ => ValueTypeError.noIRType name := by
      cases k <;> cases hk <;> rfl
    have hi := Context.intern_of_check (Γ := Γ) (Context.check_integer_iff.mpr hb)
    rw [hs, EStateM.adaptExcept, Context.integer, hi]
    rfl
  | float f => cases k <;> cases hk <;> rfl

theorem internScalar_of_mark (hΓ : Γ.WellFormed) (hk : k.element? = none) :
    internScalar name k Γ =
      match k.irType?.map Γ.insert with
      | some (h, Δ) => .ok h Δ
      | none => .error (.noIRType name) Γ := by
  obtain ⟨hvoid, -, hmetadata, htoken⟩ := hΓ.get?_named
  cases k with
  | isVoid => rw [Scalar.irType?, Option.map_some, hΓ.insert_of_get? hvoid]; rfl
  | metadata => rw [Scalar.irType?, Option.map_some, hΓ.insert_of_get? hmetadata]; rfl
  | token => rw [Scalar.irType?, Option.map_some, hΓ.insert_of_get? htoken]; rfl
  | other | glue | untyped => rfl
  | _ => cases hk

theorem toIR_eq (hΓ : Γ.WellFormed) (m : MachineType) :
    m.toIR Γ =
      match Γ.hold m.form with
      | some (h, Δ) => .ok h Δ
      | none => .error m.form.noIRType Γ := by
  have hm := m.hasShape_form
  have hn := m.name_form
  rw [toIR]
  generalize m.form = F at hm hn ⊢
  generalize m.shape = sh at hm
  cases hm with
  | invalid => rfl
  | @mark k hk =>
    rw [← hn]
    exact internScalar_of_mark hΓ hk
  | @number k e hk =>
    exact internScalar_of_element? hk
  | @vector k e c hk hc =>
    have hg := Context.get?_insert Γ e.irType
    have hch := Context.WellFormed.check_vector hc hg
    have hi : internScalar m.name k Γ = _ := internScalar_of_element? hk
    have hv := Context.intern_of_check hch
    simp only [bind, EStateM.bind, hi, Context.vector, EStateM.adaptExcept, hv, Context.hold]

end MachineType

end CodegenTypes
