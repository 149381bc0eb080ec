import CodegenTypes.Proofs.Form.Growth
import CodegenTypes.Proofs.Form.IRText
import Mathlib.Data.Fintype.Card
import Mathlib.Data.Set.Basic

namespace CodegenTypes.Context

variable {Γ Δ : Context} {h j : Handle} {t : IRType} {ts : List IRType} {F G : Form}
  {D E : Option Form}

theorem Holds.get?_ne_label (hF : Γ.Holds h F) : Γ.get? h ≠ some .label := by
  obtain ⟨t, ht, hl, -⟩ := hF.shape?
  rw [ht]
  exact fun h => hl (Option.some.inj h)

theorem Holds.form_unique (hΓ : Γ.WellFormed) (hF : Γ.Holds h F) (hG : Γ.Holds h G) : F = G :=
  Form.eq_of_irText? (hF.irText? hΓ) (hG.irText? hΓ)

theorem mem_adjoin : t ∈ (Γ.adjoin ts).types ↔ t ∈ Γ.types ∨ t ∈ ts := by
  by_cases ht : t ∈ Γ.types <;> simp [adjoin, ht]

theorem exists_get?_of_mem (ht : t ∈ Γ.types) : ∃ h, Γ.get? h = some t := by
  obtain ⟨i, hi⟩ := List.mem_iff_getElem?.mp ht
  exact ⟨⟨i⟩, hi⟩

theorem holds_scalar (hl : F.leaf? = some t) (ht : Γ.get? h = some t) : Γ.Holds h F.scalar := by
  cases F with
  | invalid => cases hl
  | mark k hk => exact .mark hk hl ht
  | number e => cases hl; exact .number ht
  | vector e c hc => cases hl; exact .number ht

def forms (Γ : Context) : Set Form := {F | ∃ h, Γ.Holds h F}

theorem forms_mono (hle : Γ ≤ Δ) : Γ.forms ⊆ Δ.forms := by
  rintro F ⟨h, hF⟩
  exact ⟨h, hF.mono hle⟩

theorem WellFormed.holds_of_le (hΓ : Γ.WellFormed) (hΔ : Δ.WellFormed) (hle : Γ ≤ Δ)
    (ht : Γ.get? h = some t) (hG : Δ.Holds h G) : Γ.Holds h G := by
  have hl : t ≠ .label := by
    rintro rfl
    exact hG.get?_ne_label (get?_mono hle ht)
  obtain ⟨F, hF⟩ := hΓ.exists_holds ht hl
  rwa [hG.form_unique hΔ (hF.mono hle)]

theorem WellFormed.forms_hold (hΓ : Γ.WellFormed) (hF : Γ.hold F = some (h, Δ)) :
    Δ.forms = Γ.forms ∪ {F.scalar, F} := by
  obtain ⟨hΔ, hle, hh⟩ := hΓ.hold hF
  obtain ⟨t, u, hl, hu, -, hgrown⟩ := hold_eq_adjoin hF
  have hmem {w : IRType} : w ∈ Δ.types ↔ w ∈ Γ.types ∨ w ∈ [t, u] := by
    rw [hgrown]
    exact mem_adjoin
  apply Set.Subset.antisymm
  · rintro G ⟨i, hi⟩
    obtain ⟨w, hw⟩ := hi.exists_get?
    rcases hmem.mp (mem_types_of_get? hw) with hin | hnew
    · obtain ⟨j, hj⟩ := exists_get?_of_mem hin
      cases hΔ.get?_inj hw (get?_mono hle hj)
      exact .inl ⟨i, hΓ.holds_of_le hΔ hle hj hi⟩
    · -- the type is the element's, or the one that the form is held under
      rcases List.mem_pair.mp hnew with rfl | rfl
      · exact .inr (.inl (hi.form_unique hΔ (holds_scalar hl hw)))
      · cases hΔ.get?_inj hw hu
        exact .inr (.inr (hi.form_unique hΔ hh))
  · rintro G (hG | rfl | rfl)
    · exact forms_mono hle hG
    · obtain ⟨i, hi⟩ := exists_get?_of_mem (hmem.mpr (.inr (List.mem_cons_self ..)))
      exact ⟨i, holds_scalar hl hi⟩
    · exact ⟨h, hh⟩

/-- What a handle stands for: a form, or the label. -/
inductive Denotes (Γ : Context) (h : Handle) : Option Form → Prop
  | label (hh : Γ.get? h = some .label) : Denotes Γ h none
  | form {F : Form} (hF : Γ.Holds h F) : Denotes Γ h (some F)

namespace Denotes

theorem mono (hle : Γ ≤ Δ) (hD : Γ.Denotes h D) : Δ.Denotes h D := by
  cases hD with
  | label hh => exact .label (get?_mono hle hh)
  | form hF => exact .form (hF.mono hle)

theorem index_lt_size (hD : Γ.Denotes h D) : h.index < Γ.size := by
  rw [index_lt_size_iff]
  cases hD with
  | label hh => exact ⟨_, hh⟩
  | form hF => exact hF.exists_get?

theorem unique (hΓ : Γ.WellFormed) (hD : Γ.Denotes h D) (hE : Γ.Denotes h E) : D = E := by
  cases hD with
  | label hh =>
    cases hE with
    | label _ => rfl
    | form hF => exact absurd hh hF.get?_ne_label
  | form hF =>
    cases hE with
    | label hh => exact absurd hh hF.get?_ne_label
    | form hG => rw [hF.form_unique hΓ hG]

theorem handle_unique (hΓ : Γ.WellFormed) (hD : Γ.Denotes h D) (hE : Γ.Denotes j D) : h = j := by
  cases hD with
  | label hh =>
    cases hE with
    | label hj => exact hΓ.get?_inj hh hj
  | form hF =>
    cases hE with
    | form hG => exact hΓ.handle_unique hF hG

theorem display_eq (hΓ : Γ.WellFormed) (hΔ : Δ.WellFormed) (hD : Γ.Denotes h D)
    (hE : Δ.Denotes j D) : Γ.display h = Δ.display j := by
  cases hD with
  | label hh =>
    cases hE with
    | label hj => rw [display_of_get?_label hh, display_of_get?_label hj]
  | form hF =>
    cases hE with
    | form hG => exact hF.display_eq hΓ hΔ hG

end Denotes

def texts (Γ : Context) : Set String := {text | ∃ h, h.index < Γ.size ∧ Γ.display h = text}

namespace WellFormed

theorem exists_denotes (hΓ : Γ.WellFormed) (hh : h.index < Γ.size) : ∃ D, Γ.Denotes h D := by
  obtain ⟨t, ht⟩ := index_lt_size_iff.mp hh
  by_cases hl : t = .label
  · exact ⟨none, .label (hl ▸ ht)⟩
  · obtain ⟨F, hF⟩ := hΓ.exists_holds ht hl
    exact ⟨some F, .form hF⟩

variable (hΓ : Γ.WellFormed) (hΔ : Δ.WellFormed) (hle : Γ.forms ⊆ Δ.forms)
include hΓ hΔ hle

theorem exists_counterpart (hh : h.index < Γ.size) : ∃ D j, Γ.Denotes h D ∧ Δ.Denotes j D := by
  obtain ⟨D, hD⟩ := hΓ.exists_denotes hh
  refine ⟨D, ?_⟩
  cases hD with
  | label hh =>
    have hl : .label ∈ Context.reserved := by decide
    obtain ⟨j, hj⟩ := exists_get?_of_mem (hΔ.reserved.subset hl)
    exact ⟨j, .label hh, .label hj⟩
  | form hF =>
    obtain ⟨j, hj⟩ := hle ⟨h, hF⟩
    exact ⟨j, .form hF, .form hj⟩

theorem size_le : Γ.size ≤ Δ.size := by
  have hcounterpart (i : Fin Γ.size) :
      ∃ j : Fin Δ.size, ∃ D, Γ.Denotes ⟨i⟩ D ∧ Δ.Denotes ⟨j⟩ D := by
    obtain ⟨D, j, hD, hj⟩ := exists_counterpart hΓ hΔ hle (h := ⟨i⟩) i.isLt
    exact ⟨⟨j.index, hj.index_lt_size⟩, D, hD, hj⟩
  choose f D hD hf using hcounterpart
  -- two handles with one counterpart stand for the same, and nothing is held twice
  have hinj : Function.Injective f := by
    intro i i' hii
    have hDi := hf i
    rw [hii] at hDi
    have hii' := hD i'
    rw [(hf i').unique hΔ hDi] at hii'
    exact Fin.ext (Handle.mk.inj ((hD i).handle_unique hΓ hii'))
  simpa using Fintype.card_le_of_injective f hinj

theorem texts_subset : Γ.texts ⊆ Δ.texts := by
  rintro text ⟨h, hh, rfl⟩
  obtain ⟨D, j, hD, hj⟩ := exists_counterpart hΓ hΔ hle hh
  exact ⟨j, hj.index_lt_size, hj.display_eq hΔ hΓ hD⟩

end WellFormed

theorem WellFormed.eq_of_forms_eq (hΓ : Γ.WellFormed) (hΔ : Δ.WellFormed)
    (hforms : Γ.forms = Δ.forms) : Γ.size = Δ.size ∧ Γ.texts = Δ.texts := by
  have hle := hforms.subset
  have hge := hforms.symm.subset
  exact ⟨(hΓ.size_le hΔ hle).antisymm (hΔ.size_le hΓ hge),
    (hΓ.texts_subset hΔ hle).antisymm (hΔ.texts_subset hΓ hge)⟩

end CodegenTypes.Context
