import CodegenTypes.Proofs.Form.Held

namespace CodegenTypes

theorem Lanes.toList_display_ne (c : Lanes) (cs ds : List Char) :
    c.display.toList ++ cs ≠ 'u' :: ds := by
  rw [toList_display, List.append_assoc]
  cases c.scalable with
  | true => exact fun h => absurd (List.cons.inj h).1 (by decide)
  | false => exact Decimal.toDigits_append_ne (by decide)

theorem Form.irText?_cases {F : Form} {text : String} (h : F.irText? = some text) :
    (∃ ch cs, text.toList = ch :: cs ∧
      ch ∈ ['v', 't', 'm', 'i', 'h', 'b', 'f', 'd', 'x', 'p']) ∨
    ∃ c : Lanes, ∃ cs, text.toList = '<' :: (c.display.toList ++ cs) := by
  cases F with
  | invalid => cases h
  | mark k hk =>
    rcases Scalar.word?_cases h with ⟨-, rfl⟩ | ⟨-, rfl⟩ | ⟨-, rfl⟩ <;>
      exact .inl ⟨_, _, rfl, by decide⟩
  | number e =>
    cases h
    obtain ⟨ch, cs, htext, hch⟩ := e.exists_toList_irText
    exact .inl ⟨ch, cs, htext, List.mem_append_right ['v', 't', 'm'] hch⟩
  | vector e c hc =>
    cases h
    exact .inr ⟨c, _, toList_irText_vector c e⟩

namespace Context

variable {Γ Δ : Context} {h j : Handle} {t u : IRType} {c : Lanes} {D E : Option Form}
  {text : String}

theorem toList_unknownText (h : Handle) :
    (unknownText h).toList =
      '<' :: 'u' :: ("nknown type #".toList ++ (Nat.toDigits 10 h.index ++ ['>'])) := by
  change ("<unknown type #" ++ Decimal.text h.index ++ ">").toList = _
  rw [String.toList_append, String.toList_append, Decimal.toList_text]
  rfl

theorem unknownText_injective : Function.Injective unknownText := by
  intro h j hj
  have hl := congrArg String.toList hj
  rw [toList_unknownText, toList_unknownText] at hl
  have hdigits := List.append_cancel_right
    (List.append_cancel_left (List.cons.inj (List.cons.inj hl).2).2)
  cases h
  cases j
  rw [Handle.mk.injEq]
  exact Decimal.toDigits_injective hdigits

def textOf? : Option Form → Option String
  | none => some "label"
  | some F => F.irText?

theorem textOf?_inj (hD : textOf? D = some text) (hE : textOf? E = some text) : D = E := by
  have hlabel {F : Form} : F.irText? ≠ some "label" := by
    intro hF
    rcases Form.irText?_cases hF with ⟨ch, cs, hl, hch⟩ | ⟨c, cs, hl⟩
    · rw [← (List.cons.inj hl).1] at hch
      exact absurd hch (by decide)
    · exact absurd (List.cons.inj hl).1 (by decide)
  cases D with
  | none =>
    cases hD
    cases E with
    | none => rfl
    | some G => exact absurd hE hlabel
  | some F =>
    cases E with
    | none =>
      cases hE
      exact absurd hD hlabel
    | some G => rw [Form.eq_of_irText? hD hE]

theorem textOf?_ne_unknownText (D : Option Form) (h : Handle) :
    textOf? D ≠ some (unknownText h) := by
  intro hD
  have hh := toList_unknownText h
  cases D with
  | none =>
    rw [← Option.some.inj hD] at hh
    exact absurd (List.cons.inj hh).1 (by decide)
  | some F =>
    rcases Form.irText?_cases hD with ⟨ch, cs, hl, hch⟩ | ⟨c, cs, hl⟩
    · rw [hh] at hl
      rw [← (List.cons.inj hl).1] at hch
      exact absurd hch (by decide)
    · rw [hh] at hl
      exact c.toList_display_ne cs _ (List.cons.inj hl).2.symm

theorem Denotes.textOf? (hΓ : Γ.WellFormed) (hD : Γ.Denotes h D) :
    textOf? D = some (Γ.display h) := by
  cases hD with
  | label hh =>
    rw [display_of_get?_label hh]
    rfl
  | form hF => exact hF.irText? hΓ

theorem display_of_size_le (hh : Γ.size ≤ h.index) : Γ.display h = unknownText h :=
  display_of_get?_none (get?_eq_none_iff.mpr hh)

/-- Renders as long as `depth` levels are enough, without a look at the order of the handles. -/
def displayWithin (Γ : Context) : Nat → Handle → Option String
  | 0, _ => none
  | depth + 1, h =>
    match Γ.get? h with
    | none => some (unknownText h)
    | some .void => some "void"
    | some .label => some "label"
    | some .metadata => some "metadata"
    | some .token => some "token"
    | some (.integer bits) => some ("i" ++ Decimal.text bits.toNat)
    | some (.float format) => some format.name
    | some (.vector element lanes) => do
      let text ← Γ.displayWithin depth element
      return "<" ++ lanes.display ++ " x " ++ text ++ ">"

theorem displayWithin_of_element?_none (he : Γ.element? h = none) (depth : Nat) :
    Γ.displayWithin (depth + 1) h = some (Γ.display h) := by
  rw [displayWithin, display]
  rw [element?] at he
  cases ht : Γ.get? h with
  | none => rfl
  | some t =>
    rw [ht] at he
    cases t with
    | vector j c => cases he
    | _ => rfl

namespace WellFormed

variable (hΓ : Γ.WellFormed)
include hΓ

theorem element?_of_element? (he : Γ.element? h = some j) : Γ.element? j = none := by
  obtain ⟨t, ht, he⟩ := Option.bind_eq_some_iff.mp he
  cases t with
  | vector i c =>
    cases he
    obtain ⟨-, -, u, hu, hel⟩ := hΓ.vector h j c ht
    rw [element?, hu]
    cases u with
    | vector => cases hel
    | _ => rfl
  | _ => cases he

theorem displayWithin_eq (h : Handle) (depth : Nat) :
    Γ.displayWithin (depth + 2) h = some (Γ.display h) := by
  cases he : Γ.element? h with
  | none => exact displayWithin_of_element?_none he (depth + 1)
  | some j =>
    -- what fills the lanes is no vector, so its own level is the last
    have hj := displayWithin_of_element?_none (hΓ.element?_of_element? he) depth
    obtain ⟨t, ht, he⟩ := Option.bind_eq_some_iff.mp he
    cases t with
    | vector i c =>
      cases he
      rw [displayWithin, ht]
      simp only [hj]
      rw [hΓ.display_vector ht]
      rfl
    | _ => cases he

theorem display_eq_unknownText_iff :
    Γ.display h = unknownText j ↔ h = j ∧ Γ.size ≤ h.index := by
  constructor
  · intro htext
    by_cases hh : h.index < Γ.size
    · obtain ⟨D, hD⟩ := hΓ.exists_denotes hh
      exact absurd ((hD.textOf? hΓ).trans (congrArg some htext)) (textOf?_ne_unknownText D j)
    · have hh := Nat.le_of_not_lt hh
      rw [display_of_size_le hh] at htext
      exact ⟨unknownText_injective htext, hh⟩
  · rintro ⟨rfl, hh⟩
    exact display_of_size_le hh

/-- Known or not, every handle has a text of its own. -/
theorem display_injective : Function.Injective Γ.display := by
  intro h j htext
  -- what is known is told by its form, and what is not by its position
  by_cases hj : j.index < Γ.size
  · obtain ⟨E, hE⟩ := hΓ.exists_denotes hj
    by_cases hh : h.index < Γ.size
    · obtain ⟨D, hD⟩ := hΓ.exists_denotes hh
      have hDE := textOf?_inj (hD.textOf? hΓ) ((hE.textOf? hΓ).trans (congrArg some htext.symm))
      exact hD.handle_unique hΓ (hDE ▸ hE)
    · rw [display_of_size_le (Nat.le_of_not_lt hh)] at htext
      exact (hΓ.display_eq_unknownText_iff.mp htext.symm).1.symm
  · rw [display_of_size_le (Nat.le_of_not_lt hj)] at htext
    exact (hΓ.display_eq_unknownText_iff.mp htext).1

theorem display_eq_iff (ht : Γ.get? h = some t) (hu : Γ.get? j = some u) :
    Γ.display h = Γ.display j ↔ t = u := by
  rw [hΓ.display_injective.eq_iff]
  constructor
  · rintro rfl
    exact Option.some.inj (ht.symm.trans hu)
  · rintro rfl
    exact hΓ.get?_inj ht hu

theorem display_mono (hΔ : Δ.WellFormed) (hle : Γ ≤ Δ) (hh : h.index < Γ.size) :
    Δ.display h = Γ.display h := by
  obtain ⟨D, hD⟩ := hΓ.exists_denotes hh
  exact (hD.mono hle).display_eq hΔ hΓ hD

end WellFormed

end Context

end CodegenTypes
