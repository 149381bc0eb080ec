import CodegenTypes.Proofs.Decimal
import CodegenTypes.Proofs.Form.Entry
import CodegenTypes.ValueType.Name

namespace CodegenTypes

theorem IRType.InRange.ne_zero {bits : UInt32} (h : IRType.InRange bits) : bits ≠ 0 := by
  intro h0
  rw [h0] at h
  exact absurd h.1 (by decide)

theorem Lanes.min_ne_zero {c : Lanes} (h : c.fitsVector) : c.min ≠ 0 := by
  intro h0
  rw [Lanes.fitsVector_iff, h0] at h
  exact absurd h (by decide)

theorem Lanes.toList_spell (c : Lanes) (element : String) :
    (c.spell element).toList =
      (if c.scalable then ['n', 'x', 'v'] else ['v']) ++ Nat.toDigits 10 c.min.toNat ++
        element.toList := by
  rw [spell, String.toList_append, String.toList_append, Decimal.toList_text]
  cases c.scalable <;> rfl

/-- A scalar's name neither goes on with a count before it nor starts a vector. -/
theorem Scalar.exists_toList_name (k : Scalar) :
    ∃ ch cs, k.name.toList = ch :: cs ∧ ch.isDigit = false ∧ ch ≠ 'v' ∧ ch ≠ 'n' := by
  cases k <;> exact ⟨_, _, rfl, by decide, by decide, by decide⟩

theorem Element.exists_toList_name (e : Element) :
    ∃ ch cs, e.name.toList = ch :: cs ∧ ch.isDigit = false ∧ ch ≠ 'v' ∧ ch ≠ 'n' := by
  cases e with
  | integer bits hb =>
    exact ⟨'i', Nat.toDigits 10 bits.toNat, by simp [name], by decide, by decide, by decide⟩
  | float f => exact (Scalar.ofFormat f).exists_toList_name

namespace Spelling

theorem ofLanes_append {n : UInt32} (hn : n ≠ 0) (b : Bool) {e : String} {ch : Char}
    {cs : List Char} (he : e.toList = ch :: cs) (hd : ch.isDigit = false) (hv : ch ≠ 'v')
    (hx : ch ≠ 'n') : ofLanes b (Decimal.text n.toNat ++ e) = .vector ⟨n, b⟩ e := by
  have hhead := Decimal.isDigit_head?_of_cons he hd
  rw [ofLanes, Decimal.splitDigits_of_splits (Decimal.splits_text_append hhead)]
  simp [Decimal.count?_toDigits hn, he, hv, hx]

theorem ofChars_spell_eq (c : Lanes) (e : String) :
    ofChars (c.spell e).toList = ofLanes c.scalable (Decimal.text c.min.toNat ++ e) := by
  have h : Decimal.text c.min.toNat ++ e =
      String.ofList (Nat.toDigits 10 c.min.toNat ++ e.toList) := by
    rw [String.ofList_append, ← Decimal.toList_text, String.ofList_toList, String.ofList_toList]
  rw [Lanes.toList_spell, h]
  cases c.scalable with
  | true => rfl
  | false => rfl

theorem ofChars_spell {c : Lanes} (hc : c.fitsVector) (e : Element) :
    ofChars (c.spell e.name).toList = .vector c e.name := by
  obtain ⟨ch, cs, he, hd, hv, hx⟩ := e.exists_toList_name
  rw [ofChars_spell_eq, ofLanes_append (Lanes.min_ne_zero hc) c.scalable he hd hv hx]

end Spelling

namespace Form

def spelling : Form → Spelling
  | number (.integer bits _) => .integer bits
  | vector element lanes _ => .vector lanes element.name
  | _ => .unknown

theorem ofChars_name (F : Form) : Spelling.ofChars F.name.toList = F.spelling := by
  cases F with
  | invalid => rfl
  | mark k hk => cases k <;> cases hk <;> rfl
  | number e =>
    cases e with
    | integer bits hb =>
      have : (Element.integer bits hb).name.toList = 'i' :: Nat.toDigits 10 bits.toNat := by
        simp [Element.name]
      rw [name, this, Spelling.ofChars, Decimal.count?_toDigits hb.ne_zero, spelling]
    | float f => cases f <;> rfl
  | vector e c hc => exact Spelling.ofChars_spell hc e

end Form

theorem Scalar.name_injective : Function.Injective Scalar.name := by
  have key : ∀ k : Scalar, all.find? (·.name = k.name) = some k := by
    intro k
    cases k <;> decide
  intro j k h
  have := key j
  rw [h, key k] at this
  exact (Option.some.inj this).symm

theorem Scalar.name_ne_invalid (k : Scalar) : k.name ≠ "invalid" := by cases k <;> decide

theorem Form.shape?_injective {F G : Form} {sh : Shape} (hF : F.shape? = some sh)
    (hG : G.shape? = some sh) : F = G := by
  rw [← Shape.form?_eq_some_iff] at hF hG
  exact Option.some.inj (hF.symm.trans hG)

theorem Form.spelling_ne_canonical (F : Form) (m : MachineType) : F.spelling ≠ .canonical m := by
  intro h
  cases F with
  | number e => cases e <;> cases h
  | _ => cases h

theorem Form.eq_of_spelling_eq_integer {F : Form} {bits : UInt32}
    (h : F.spelling = .integer bits) : ∃ hb, F = .number (.integer bits hb) := by
  cases F with
  | number e =>
    cases e with
    | integer bits hb => cases h; exact ⟨hb, rfl⟩
    | float f => cases h
  | _ => cases h

theorem Form.eq_of_spelling_eq_vector {F : Form} {c : Lanes} {t : String}
    (h : F.spelling = .vector c t) : ∃ e hc, F = .vector e c hc ∧ e.name = t := by
  cases F with
  | vector e c hc => cases h; exact ⟨e, hc, rfl, rfl⟩
  | number e => cases e <;> cases h
  | _ => cases h

theorem Form.cases_of_spelling_eq_unknown {F : Form} (h : F.spelling = .unknown) :
    F = .invalid ∨ ∃ k, F.shape? = some (.scalar k) ∧ F.name = k.name := by
  cases F with
  | invalid => exact .inl rfl
  | mark k hk => exact .inr ⟨k, rfl, rfl⟩
  | number e =>
    cases e with
    | integer bits hb => cases h
    | float f => exact .inr ⟨.ofFormat f, rfl, rfl⟩
  | vector e c hc => cases h

theorem Element.name_injective : Function.Injective Element.name := by
  intro d e h
  have hs : (Form.number d).spelling = (Form.number e).spelling := by
    rw [← Form.ofChars_name, ← Form.ofChars_name, Form.name, Form.name, h]
  cases d with
  | integer bits hb =>
    cases e with
    | integer bits' hb' => cases hs; rfl
    | float f => cases hs
  | float f =>
    cases e with
    | integer bits hb => cases hs
    | float g =>
      have hk := congrArg Scalar.element? (Scalar.name_injective h)
      cases f <;> cases g <;> cases hk <;> rfl

theorem Form.name_injective : Function.Injective Form.name := by
  intro F G h
  have hs : F.spelling = G.spelling := by
    rw [← ofChars_name, ← ofChars_name, h]
  cases hG : G.spelling with
  | canonical m => exact absurd hG (spelling_ne_canonical G m)
  | integer bits =>
    obtain ⟨hb, rfl⟩ := eq_of_spelling_eq_integer hG
    obtain ⟨hb', rfl⟩ := eq_of_spelling_eq_integer (hs.trans hG)
    rfl
  | vector c t =>
    obtain ⟨e, hc, rfl, he⟩ := eq_of_spelling_eq_vector hG
    obtain ⟨d, hc', rfl, hd⟩ := eq_of_spelling_eq_vector (hs.trans hG)
    rw [Element.name_injective (hd.trans he.symm)]
  | unknown =>
    rcases cases_of_spelling_eq_unknown (hs.trans hG) with rfl | ⟨j, hj, hFj⟩
    · rcases cases_of_spelling_eq_unknown hG with rfl | ⟨k, hk, hGk⟩
      · rfl
      · exact absurd (hGk.symm.trans h.symm) k.name_ne_invalid
    · rcases cases_of_spelling_eq_unknown hG with rfl | ⟨k, hk, hGk⟩
      · exact absurd (hFj.symm.trans h) j.name_ne_invalid
      · rw [Scalar.name_injective (hFj.symm.trans (h.trans hGk))] at hj
        exact shape?_injective hj hk

namespace MachineType

theorem name_injective : Function.Injective name := by
  intro m n h
  apply form_injective
  apply Form.name_injective
  rw [name_form, name_form, h]

theorem ofName?_eq_some_iff {t : String} {m : MachineType} :
    ofName? t = some m ↔ m ≠ invalid ∧ m.name = t := by
  constructor
  · intro h
    exact ⟨mem_all_iff.mp (List.mem_of_find?_eq_some h), by simpa using List.find?_some h⟩
  · intro ⟨hm, ht⟩
    have hs : (ofName? t).isSome :=
      List.find?_isSome.mpr ⟨m, mem_all_iff.mpr hm, decide_eq_true ht⟩
    obtain ⟨n, hn⟩ := Option.isSome_iff_exists.mp hs
    have hnt : n.name = t := by simpa using List.find?_some hn
    rw [hn, name_injective (hnt.trans ht.symm)]

end MachineType

theorem Form.ofName?_name {F : Form} (hF : F ≠ invalid) :
    MachineType.ofName? F.name = F.machine? := by
  cases h : F.machine? with
  | some m =>
    have hm := machine?_eq_some_iff.mp h
    rw [MachineType.ofName?_eq_some_iff]
    refine ⟨?_, by rw [← hm, MachineType.name_form]⟩
    intro h0
    rw [h0, MachineType.form_invalid] at hm
    exact hF hm.symm
  | none =>
    apply Option.eq_none_iff_forall_ne_some.mpr
    intro m hm
    have hn := (MachineType.ofName?_eq_some_iff.mp hm).2
    rw [← MachineType.name_form] at hn
    rw [← name_injective hn, machine?_form] at h
    cases h

theorem Form.ofString_name {F : Form} (hF : F ≠ invalid) :
    Spelling.ofString F.name =
      match F.machine? with
      | some m => .canonical m
      | none => F.spelling := by
  rw [Spelling.ofString, ofName?_name hF]
  cases F.machine? with
  | some m => rfl
  | none => exact ofChars_name F

end CodegenTypes
