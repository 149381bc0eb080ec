import CodegenTypes.Proofs.Form.Reading
import Mathlib.Algebra.Group.Nat.Defs

namespace CodegenTypes

theorem Scalar.element?_of_not_numeric {k : Scalar} (h : k.isNumeric = false) :
    k.element? = none := by
  cases k <;> first | rfl | cases h

namespace Grammar

/-- The text names a vector as far as its lanes go, and `rest` is left of it. -/
def Opens (t rest : String) : Prop :=
  ∃ letters ∈ ["v", "nxv"], ∃ m : Nat, 1 ≤ m ∧ m < 2 ^ 32 ∧
    t = letters ++ Decimal.text m ++ rest

inductive IsElement : String → Prop
  | integer {n : Nat} (h₁ : 1 ≤ n) (h₂ : n ≤ 2 ^ 24) : IsElement ("i" ++ Decimal.text n)
  | float {k : Scalar} (h : k.isFloat) : IsElement k.name

inductive IsName : String → Prop
  | scalar (k : Scalar) : IsName k.name
  | integer {n : Nat} (h₁ : 1 ≤ n) (h₂ : n ≤ 2 ^ 24) : IsName ("i" ++ Decimal.text n)
  | vector {t e : String} (ht : Opens t e) (he : IsElement e) : IsName t

/-- An integer of more bits than any has, alone or in a vector. -/
def TooWide (bits : UInt32) (t : String) : Prop :=
  2 ^ 24 < bits.toNat ∧
    (t = "i" ++ Decimal.text bits.toNat ∨ Opens t ("i" ++ Decimal.text bits.toNat))

def Misfilled (e t : String) : Prop := Opens t e ∧ ∃ k : Scalar, k.isNumeric = false ∧ e = k.name

/-- The digits of the lanes end before `rest`, which starts no vector itself. -/
def Headed (t rest : String) : Prop := Opens t rest ∧ Spelling.StartsElement rest

/-- The part of an unknown name that the error shows. -/
def Blamed (e t : String) : Prop := Headed t e ∨ e = t ∧ ∀ rest, ¬Headed t rest

inductive Refused (t : String) : ValueTypeError → Prop
  | tooWide {bits : UInt32} (h : TooWide bits t) : Refused t (.type (.widthOutOfRange bits))
  | misfilled {e : String} (h : Misfilled e t) : Refused t (.notElement e)
  | unknown {e : String} (hn : ¬IsName t) (hw : ∀ bits, ¬TooWide bits t)
      (hm : ∀ e, ¬Misfilled e t) (he : Blamed e t) : Refused t (.unknownName e)

variable {t e : String}

theorem opens_iff : Opens t e ↔ ∃ c : Lanes, c.fitsVector ∧ t = c.spell e := by
  constructor
  · rintro ⟨letters, hl, m, h₁, h₂, rfl⟩
    have hm : (UInt32.ofNat m).toNat = m := UInt32.toNat_ofNat_of_lt' h₂
    have hfit : ∀ b, (Lanes.mk (.ofNat m) b).fitsVector := by
      intro b
      rw [Lanes.fitsVector_iff, hm]
      exact h₁
    simp only [List.mem_cons, List.not_mem_nil, or_false] at hl
    obtain rfl | rfl := hl
    · exact ⟨⟨.ofNat m, false⟩, hfit false, by simp [Lanes.spell, hm]⟩
    · exact ⟨⟨.ofNat m, true⟩, hfit true, by simp [Lanes.spell, hm]⟩
  · rintro ⟨c, hc, rfl⟩
    refine ⟨if c.scalable then "nxv" else "v", ?_, c.min.toNat, Lanes.fitsVector_iff.mp hc,
      c.min.toNat_lt, rfl⟩
    split <;> simp

theorem headed_iff : Headed t e ↔ ∃ c, Spelling.ofChars t.toList = .vector c e := by
  simp only [Headed, opens_iff, Spelling.ofChars_eq_vector_iff]
  constructor
  · rintro ⟨⟨c, hc, ht⟩, he⟩
    exact ⟨c, hc, ht, he⟩
  · rintro ⟨c, hc, ht, he⟩
    exact ⟨⟨c, hc, ht⟩, he⟩

theorem exists_inRange {n : Nat} (h₁ : 1 ≤ n) (h₂ : n ≤ 2 ^ 24) :
    ∃ bits : UInt32, IRType.InRange bits ∧ bits.toNat = n := by
  have hn : (UInt32.ofNat n).toNat = n :=
    UInt32.toNat_ofNat_of_lt' (Nat.lt_of_le_of_lt h₂ (by decide))
  refine ⟨.ofNat n, ?_, hn⟩
  rw [IRType.InRange, hn]
  exact ⟨h₁, h₂⟩

theorem isElement_iff : IsElement t ↔ ∃ e : Element, e.name = t := by
  constructor
  · intro h
    cases h with
    | integer h₁ h₂ =>
      obtain ⟨bits, hb, rfl⟩ := exists_inRange h₁ h₂
      exact ⟨.integer bits hb, rfl⟩
    | @float k h =>
      rw [Scalar.isFloat_eq, Option.any_eq_true] at h
      obtain ⟨e, he, -⟩ := h
      exact ⟨e, (Scalar.name_of_element? he).symm⟩
  · rintro ⟨e, rfl⟩
    cases e with
    | integer bits hb => exact .integer hb.1 hb.2
    | float f =>
      have hf : (Scalar.ofFormat f).isFloat := by
        rw [Scalar.isFloat_eq_isSome_format?, Scalar.format?_ofFormat]
        rfl
      exact .float hf

theorem isElement_of_numeric {k : Scalar} (h : k.isNumeric) : IsElement k.name := by
  rw [Scalar.isNumeric, Scalar.isInteger_eq, Scalar.isFloat_eq] at h
  cases hk : k.element? with
  | none => rw [hk] at h; cases h
  | some e => exact isElement_iff.mpr ⟨e, (Scalar.name_of_element? hk).symm⟩

theorem isName_iff : IsName t ↔ ∃ F : Form, F ≠ .invalid ∧ F.name = t := by
  constructor
  · intro h
    cases h with
    | scalar k =>
      refine ⟨(MachineType.ofScalar k).form, ?_, ?_⟩
      · rw [ne_eq, MachineType.form_eq_invalid_iff, ← MachineType.shape_eq_invalid_iff,
          MachineType.shape_ofScalar]
        nofun
      · rw [MachineType.name_form, MachineType.name_eq, MachineType.shape_ofScalar, Shape.name]
    | integer h₁ h₂ =>
      obtain ⟨e, he⟩ := isElement_iff.mp (.integer h₁ h₂)
      exact ⟨.number e, by simp, he⟩
    | vector ht he =>
      obtain ⟨c, hc, rfl⟩ := opens_iff.mp ht
      obtain ⟨e, rfl⟩ := isElement_iff.mp he
      exact ⟨.vector e c hc, by simp, rfl⟩
  · rintro ⟨F, hF, rfl⟩
    cases F with
    | invalid => exact absurd rfl hF
    | mark k hk => exact .scalar k
    | number e =>
      cases e with
      | integer bits hb => exact .integer hb.1 hb.2
      | float f => exact .scalar (.ofFormat f)
    | vector e c hc => exact .vector (opens_iff.mpr ⟨c, hc, rfl⟩) (isElement_iff.mpr ⟨e, rfl⟩)

theorem isElement_or_tooWide {bits : UInt32}
    (h : Spelling.ofChars t.toList = .integer bits) : IsElement t ∨ TooWide bits t := by
  obtain ⟨h0, rfl⟩ := Spelling.ofChars_eq_integer_iff.mp h
  by_cases hw : 2 ^ 24 < bits.toNat
  · exact .inr ⟨hw, .inl rfl⟩
  · refine .inl (.integer (Decimal.toNat_pos h0) ?_)
    exact Nat.not_lt.mp hw

theorem IsElement.isName (h : IsElement t) : IsName t := by
  cases h with
  | integer h₁ h₂ => exact .integer h₁ h₂
  | float h => exact .scalar _

theorem startsElement_integer (n : Nat) : Spelling.StartsElement ("i" ++ Decimal.text n) :=
  ⟨'i', (Decimal.text n).toList, String.toList_append, by decide, by decide, by decide⟩

theorem startsElement_of_not_numeric {k : Scalar} (h : k.isNumeric = false) :
    Spelling.StartsElement k.name := by
  cases k
  case other => exact ⟨_, _, rfl, by decide, by decide, by decide⟩
  case glue => exact ⟨_, _, rfl, by decide, by decide, by decide⟩
  case isVoid => exact ⟨_, _, rfl, by decide, by decide, by decide⟩
  case untyped => exact ⟨_, _, rfl, by decide, by decide, by decide⟩
  case token => exact ⟨_, _, rfl, by decide, by decide, by decide⟩
  case metadata => exact ⟨_, _, rfl, by decide, by decide, by decide⟩
  all_goals cases h

end Grammar

namespace Spelling

theorem ofChars_ne_vector {t e : String} {c : Lanes} (ht : StartsElement t) :
    ofChars t.toList ≠ .vector c e := by
  intro h
  obtain ⟨ch, cs, hcs, -, hv, hn⟩ := ht
  obtain ⟨-, rfl, -⟩ := ofChars_eq_vector_iff.mp h
  rw [Lanes.toList_spell] at hcs
  cases hb : c.scalable with
  | true => rw [hb] at hcs; exact hn (List.cons.inj hcs).1.symm
  | false => rw [hb] at hcs; exact hv (List.cons.inj hcs).1.symm

theorem ofChars_of_ofString {t e : String} {c : Lanes} (h : ofString t = .vector c e) :
    ofChars t.toList = .vector c e := by
  rw [ofString] at h
  split at h
  · cases h
  · exact h

/-- How deep reading nests when an element is read like any text. -/
inductive Depth : String → Nat → Prop
  | flat {t : String} (h : ∀ c e, ofString t ≠ .vector c e) : Depth t 0
  | vector {t e : String} {c : Lanes} {d : Nat} (h : ofString t = .vector c e) (he : Depth e d) :
      Depth t (d + 1)

theorem ofString_element_ne_vector {t e : String} {c : Lanes} (h : ofString t = .vector c e) :
    ∀ d u, ofString e ≠ .vector d u := by
  intro d u hu
  obtain ⟨-, -, he⟩ := ofChars_eq_vector_iff.mp (ofChars_of_ofString h)
  exact ofChars_ne_vector he (ofChars_of_ofString hu)

theorem exists_depth (t : String) : ∃ d ≤ 1, Depth t d := by
  by_cases h : ∃ c e, ofString t = .vector c e
  · obtain ⟨c, e, h⟩ := h
    exact ⟨1, Nat.le_refl 1, .vector h (.flat (ofString_element_ne_vector h))⟩
  · push Not at h
    exact ⟨0, Nat.zero_le 1, .flat h⟩

end Spelling

namespace Form

variable {t e : String} {bits : UInt32} {c : Lanes} {m : MachineType} {F : Form}

theorem spelling_of_ofName? (hm : MachineType.ofName? t = some m) :
    m.form.spelling = Spelling.ofChars t.toList := by
  obtain ⟨-, rfl⟩ := MachineType.ofName?_eq_some_iff.mp hm
  rw [← ofChars_name, m.name_form]

/-! The table only anticipates what the letters spell. -/

theorem readElement_of_integer (h : Spelling.ofChars t.toList = .integer bits) :
    readElement t = integer bits := by
  rw [readElement, Spelling.ofString]
  cases hm : MachineType.ofName? t with
  | none => simp only [h]
  | some m =>
    obtain ⟨hb, hF⟩ := eq_of_spelling_eq_integer ((spelling_of_ofName? hm).trans h)
    simp only [hF, integer_of_inRange hb]

theorem read_of_integer (h : Spelling.ofChars t.toList = .integer bits) :
    read t = integer bits := by
  rw [read_eq_readElement, readElement_of_integer h]
  intro c e hv
  cases h.symm.trans (Spelling.ofChars_of_ofString hv)

theorem read_of_vector (h : Spelling.ofChars t.toList = .vector c e) :
    read t = readElement e >>= (·.lanesOf c) := by
  rw [read, Spelling.ofString]
  cases hm : MachineType.ofName? t with
  | none => simp only [h]
  | some m =>
    obtain ⟨el, hc, hF, rfl⟩ := eq_of_spelling_eq_vector ((spelling_of_ofName? hm).trans h)
    rw [readElement_name]
    simp only [hF]
    exact (lanesOf_number hc).symm

theorem scalar_or_unknown (h : Spelling.ofChars t.toList = .unknown) :
    (∃ k : Scalar, t = k.name) ∨ Spelling.ofString t = .unknown := by
  rw [Spelling.ofString]
  cases hm : MachineType.ofName? t with
  | none => exact .inr h
  | some m =>
    obtain ⟨hne, ht⟩ := MachineType.ofName?_eq_some_iff.mp hm
    rcases cases_of_spelling_eq_unknown ((spelling_of_ofName? hm).trans h) with hF | ⟨k, -, hk⟩
    · exact absurd (MachineType.form_eq_invalid_iff.mp hF) hne
    · exact .inl ⟨k, by rw [← hk, m.name_form, ht]⟩

theorem read_invalid : read "invalid" = .error (.unknownName "invalid") := by
  have hm : MachineType.ofName? "invalid" = none := by
    apply Option.eq_none_iff_forall_ne_some.mpr
    intro m hm
    obtain ⟨hne, hn⟩ := MachineType.ofName?_eq_some_iff.mp hm
    exact hne (MachineType.name_injective hn)
  rw [read, Spelling.ofString, hm]
  rfl

theorem ne_invalid_of_read (h : read t = .ok F) : F ≠ .invalid := by
  rintro rfl
  have ht : "invalid" = t := name_of_read h
  rw [← ht, read_invalid] at h
  cases h

theorem exists_read_iff : (∃ F, read t = .ok F) ↔ Grammar.IsName t := by
  rw [Grammar.isName_iff]
  constructor
  · rintro ⟨F, hF⟩
    exact ⟨F, ne_invalid_of_read hF, name_of_read hF⟩
  · rintro ⟨F, hF, rfl⟩
    exact ⟨F, read_name hF⟩

theorem integer_of_tooWide (h : 2 ^ 24 < bits.toNat) :
    integer bits = .error (.type (.widthOutOfRange bits)) :=
  dif_neg fun hb => Nat.not_le.mpr h hb.2

theorem read_of_tooWide (h : Grammar.TooWide bits t) :
    read t = .error (.type (.widthOutOfRange bits)) := by
  obtain ⟨hw, ht⟩ := h
  have hi : Spelling.ofChars ("i" ++ Decimal.text bits.toNat).toList = .integer bits := by
    refine Spelling.ofChars_eq_integer_iff.mpr ⟨?_, rfl⟩
    rintro rfl
    exact absurd hw (by decide)
  rcases ht with rfl | ht
  · rw [read_of_integer hi, integer_of_tooWide hw]
  · obtain ⟨c, hc⟩ := Grammar.headed_iff.mp ⟨ht, Grammar.startsElement_integer _⟩
    rw [read_of_vector hc, readElement_of_integer hi, integer_of_tooWide hw]
    rfl

theorem readElement_mark {k : Scalar} (hk : k.element? = none) :
    readElement k.name = .ok (.mark k hk) := by
  have hne : mark k hk ≠ .invalid := nofun
  have hs : Spelling.ofString k.name = .canonical (.ofScalar k) := by
    rw [show k.name = (mark k hk).name from rfl, ofString_name hne, machine?_mark]
  rw [readElement, hs, ← MachineType.form_ofScalar_mark hk]

theorem read_of_misfilled (h : Grammar.Misfilled e t) : read t = .error (.notElement e) := by
  obtain ⟨ht, k, hk, rfl⟩ := h
  obtain ⟨c, hc⟩ := Grammar.headed_iff.mp ⟨ht, Grammar.startsElement_of_not_numeric hk⟩
  rw [read_of_vector hc, readElement_mark (Scalar.element?_of_not_numeric hk)]
  rfl

theorem readElement_of_unknown (hs : Spelling.StartsElement e) (hn : ¬Grammar.IsElement e)
    (hw : ∀ bits, ¬Grammar.TooWide bits e)
    (hm : ∀ k : Scalar, k.isNumeric = false → e ≠ k.name) :
    readElement e = .error (.unknownName e) := by
  rcases Spelling.ofChars_cases e.toList with ⟨bits, h⟩ | ⟨c, u, h⟩ | h
  · rcases Grammar.isElement_or_tooWide h with he | he
    · exact absurd he hn
    · exact absurd he (hw bits)
  · exact absurd h (Spelling.ofChars_ne_vector hs)
  · rcases scalar_or_unknown h with ⟨k, rfl⟩ | hu
    · cases hk : k.isNumeric with
      | true => exact absurd (Grammar.isElement_of_numeric hk) hn
      | false => exact absurd rfl (hm k hk)
    · rw [readElement, hu]

theorem read_of_unknown (hn : ¬Grammar.IsName t) (hw : ∀ bits, ¬Grammar.TooWide bits t)
    (hm : ∀ e, ¬Grammar.Misfilled e t) (he : Grammar.Blamed e t) :
    read t = .error (.unknownName e) := by
  rcases he with he | ⟨rfl, hall⟩
  · obtain ⟨c, hc⟩ := Grammar.headed_iff.mp he
    have hr : readElement e = .error (.unknownName e) := by
      apply readElement_of_unknown he.2
      · exact fun h => hn (.vector he.1 h)
      · rintro bits ⟨hb, rfl | ho⟩
        · exact hw bits ⟨hb, .inr he.1⟩
        · obtain ⟨d, hd⟩ := Grammar.headed_iff.mp ⟨ho, Grammar.startsElement_integer _⟩
          exact Spelling.ofChars_ne_vector he.2 hd
      · exact fun k hk hek => hm e ⟨he.1, k, hk, hek⟩
    rw [read_of_vector hc, hr]
    rfl
  · rcases Spelling.ofChars_cases e.toList with ⟨bits, h⟩ | ⟨c, u, h⟩ | h
    · rcases Grammar.isElement_or_tooWide h with he | he
      · exact absurd he.isName hn
      · exact absurd he (hw bits)
    · exact absurd (Grammar.headed_iff.mpr ⟨c, h⟩) (hall u)
    · rcases scalar_or_unknown h with ⟨k, rfl⟩ | hu
      · exact absurd (.scalar k) hn
      · rw [read, hu]

theorem read_of_refused {r : ValueTypeError} (h : Grammar.Refused t r) : read t = .error r := by
  cases h with
  | tooWide h => exact read_of_tooWide h
  | misfilled h => exact read_of_misfilled h
  | unknown hn hw hm he => exact read_of_unknown hn hw hm he

theorem exists_blamed (t : String) : ∃ e, Grammar.Blamed e t := by
  by_cases h : ∃ e, Grammar.Headed t e
  · obtain ⟨e, he⟩ := h
    exact ⟨e, .inl he⟩
  · exact ⟨t, .inr ⟨rfl, fun e he => h ⟨e, he⟩⟩⟩

theorem exists_refused (hn : ¬Grammar.IsName t) : ∃ r, Grammar.Refused t r := by
  by_cases hw : ∃ bits, Grammar.TooWide bits t
  · obtain ⟨bits, hb⟩ := hw
    exact ⟨_, .tooWide hb⟩
  by_cases hm : ∃ e, Grammar.Misfilled e t
  · obtain ⟨e, he⟩ := hm
    exact ⟨_, .misfilled he⟩
  obtain ⟨e, he⟩ := exists_blamed t
  exact ⟨_, .unknown hn (fun bits hb => hw ⟨bits, hb⟩) (fun e he => hm ⟨e, he⟩) he⟩

theorem read_eq_error_iff {r : ValueTypeError} : read t = .error r ↔ Grammar.Refused t r := by
  constructor
  · intro h
    have hn : ¬Grammar.IsName t := by
      rw [← exists_read_iff]
      rintro ⟨F, hF⟩
      cases h.symm.trans hF
    obtain ⟨r', hr⟩ := exists_refused hn
    cases h.symm.trans (read_of_refused hr)
    exact hr
  · exact read_of_refused

end Form

end CodegenTypes
