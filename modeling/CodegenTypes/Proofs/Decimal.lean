import CodegenTypes.Decimal

namespace CodegenTypes.Decimal

@[simp] theorem toList_text (n : Nat) : (text n).toList = Nat.toDigits 10 n := Nat.toList_repr

theorem digitChar_toNat_sub {c : Char} (h : c.isDigit) : (c.toNat - 48).digitChar = c := by
  simp only [Char.isDigit, Bool.and_eq_true, decide_eq_true_eq, UInt32.le_iff_toNat_le] at h
  have h₀ : 48 ≤ c.toNat := h.1
  have h₉ : c.toNat ≤ 57 := h.2
  apply Char.toNat_inj.mp
  rw [Nat.toNat_digitChar_of_lt_ten (by omega)]
  omega

theorem toNat_sub_lt {c : Char} (h : c.isDigit) : c.toNat - 48 < 10 := by
  simp only [Char.isDigit, Bool.and_eq_true, decide_eq_true_eq, UInt32.le_iff_toNat_le] at h
  have : c.toNat ≤ 57 := h.2
  omega

theorem toDigits_ofDigitChars {cs : List Char} (h : ∀ c ∈ cs, c.isDigit) {n : Nat} (hn : 0 < n) :
    Nat.toDigits 10 (Nat.ofDigitChars 10 cs n) = Nat.toDigits 10 n ++ cs := by
  induction cs generalizing n with
  | nil => simp
  | cons c cs ih =>
    have hc : c.isDigit := h c List.mem_cons_self
    have hd : c.toNat - 48 < 10 := toNat_sub_lt hc
    rw [Nat.ofDigitChars_cons]
    change Nat.toDigits 10 (Nat.ofDigitChars 10 cs (10 * n + (c.toNat - 48))) = _
    rw [ih (fun d hd => h d (List.mem_cons_of_mem c hd)) (by omega),
      ← Nat.toDigits_append_toDigits (by decide) hn hd, Nat.toDigits_of_lt_base hd,
      digitChar_toNat_sub hc, List.append_assoc, List.singleton_append]

theorem toDigits_ofDigitChars_cons {c : Char} {cs : List Char} (h : ∀ d ∈ c :: cs, d.isDigit)
    (h₀ : c ≠ '0') : Nat.toDigits 10 (Nat.ofDigitChars 10 (c :: cs) 0) = c :: cs := by
  have hc : c.isDigit := h c List.mem_cons_self
  have hd : c.toNat - 48 < 10 := toNat_sub_lt hc
  have hpos : 0 < c.toNat - 48 := by
    apply Nat.pos_of_ne_zero
    intro hz
    apply h₀
    rw [← digitChar_toNat_sub hc, hz]
    rfl
  rw [Nat.ofDigitChars_cons]
  change Nat.toDigits 10 (Nat.ofDigitChars 10 cs (10 * 0 + (c.toNat - 48))) = _
  rw [Nat.mul_zero, Nat.zero_add,
    toDigits_ofDigitChars (fun d hd => h d (List.mem_cons_of_mem c hd)) hpos,
    Nat.toDigits_of_lt_base hd, digitChar_toNat_sub hc, List.singleton_append]

theorem head_toDigits_ne_zero {n : Nat} (hn : 0 < n) : (Nat.toDigits 10 n).head? ≠ some '0' := by
  induction n using Nat.strongRecOn with
  | ind n ih =>
    rw [Nat.toDigits_eq_if (by decide)]
    split
    · simp only [List.head?_cons, ne_eq, Option.some.injEq, Nat.digitChar_eq_zero]
      omega
    · have := ih (n / 10) (by omega) (by omega)
      rw [List.head?_append]
      cases h : (Nat.toDigits 10 (n / 10)).head? with
      | none => exact absurd (List.head?_eq_none_iff.mp h) Nat.toDigits_ne_nil
      | some c => rwa [h] at this

theorem word?_eq_some_iff {n : Nat} {w : UInt32} : word? n = some w ↔ w.toNat = n := by
  unfold word?
  split
  · next h =>
    rw [Option.some.injEq]
    constructor
    · rintro rfl
      simp
    · rintro rfl
      simp
  · next h =>
    simp only [reduceCtorEq, false_iff]
    rintro rfl
    exact h w.toNat_lt

theorem word?_eq_none_iff {n : Nat} : word? n = none ↔ UInt32.size ≤ n := by
  unfold word?
  split
  · next h => simpa using h
  · next h => simpa using h

theorem le_ofDigitChars (cs : List Char) (n : Nat) : n ≤ Nat.ofDigitChars 10 cs n := by
  induction cs generalizing n with
  | nil => exact Nat.le_refl n
  | cons c cs ih =>
    rw [Nat.ofDigitChars_cons]
    exact Nat.le_trans (by omega) (ih _)

/-- Digits only make a number larger, so one that does not fit on the way never fits. -/
theorem extend?_eq (n : UInt32) (cs : List Char) :
    extend? n cs = word? (Nat.ofDigitChars 10 cs n.toNat) := by
  induction cs generalizing n with
  | nil => exact (word?_eq_some_iff.mpr rfl).symm
  | cons c cs ih =>
    rw [extend?, Nat.ofDigitChars_cons]
    change _ = word? (Nat.ofDigitChars 10 cs (10 * n.toNat + (c.toNat - 48)))
    cases h : word? (10 * n.toNat + (c.toNat - 48)) with
    | none =>
      have hle := Nat.le_trans (word?_eq_none_iff.mp h) (le_ofDigitChars cs _)
      exact (word?_eq_none_iff.mpr hle).symm
    | some m => rw [Option.bind_some, ih, word?_eq_some_iff.mp h]

theorem toNat_pos {n : UInt32} (hn : n ≠ 0) : 0 < n.toNat :=
  UInt32.lt_iff_toNat_lt.mp (UInt32.pos_iff_ne_zero.mpr hn)

theorem count?_eq_some_iff {cs : List Char} {n : UInt32} :
    count? cs = some n ↔ n ≠ 0 ∧ (text n.toNat).toList = cs := by
  rw [toList_text]
  constructor
  · intro h
    unfold count? at h
    split at h
    · cases h
    · cases h
    · next hnil hzero =>
      split at h
      · next hall =>
        rw [List.all_eq_true] at hall
        obtain _ | ⟨c, ds⟩ := cs
        · exact absurd rfl hnil
        have hc : c ≠ '0' := fun h0 => hzero ds (by rw [h0])
        have hread := toDigits_ofDigitChars_cons hall hc
        rw [extend?_eq, word?_eq_some_iff] at h
        change n.toNat = Nat.ofDigitChars 10 (c :: ds) 0 at h
        rw [← h] at hread
        refine ⟨?_, hread⟩
        rintro rfl
        exact hc (List.cons.inj hread).1.symm
      · cases h
  · rintro ⟨hn, rfl⟩
    have hpos : 0 < n.toNat := toNat_pos hn
    unfold count?
    split
    · next h => exact absurd h Nat.toDigits_ne_nil
    · next h => exact absurd (by rw [h]; rfl) (head_toDigits_ne_zero hpos)
    · rw [if_pos (List.all_eq_true.mpr fun c hc =>
        Nat.isDigit_of_mem_toDigits (by decide) (by decide) hc), extend?_eq, UInt32.toNat_zero,
        Nat.ofDigitChars_ten_toDigits]
      exact word?_eq_some_iff.mpr rfl

@[simp] theorem count?_toDigits {n : UInt32} (hn : n ≠ 0) :
    count? (Nat.toDigits 10 n.toNat) = some n :=
  count?_eq_some_iff.mpr ⟨hn, toList_text _⟩

theorem isDigit_head?_of_cons {t : String} {c : Char} {cs : List Char} (ht : t.toList = c :: cs)
    (hc : c.isDigit = false) : ∀ d ∈ t.toList.head?, d.isDigit = false := by
  rw [ht]
  rintro _ ⟨⟩
  exact hc

section Split

variable {n : Nat} {cs : List Char} (hcs : ∀ c ∈ cs.head?, c.isDigit = false)
include hcs

theorem takeWhile_toDigits_append :
    (Nat.toDigits 10 n ++ cs).takeWhile Char.isDigit = Nat.toDigits 10 n := by
  rw [List.takeWhile_append_of_pos fun c hc =>
    Nat.isDigit_of_mem_toDigits (by decide) (by decide) hc]
  cases cs with
  | nil => simp
  | cons c cs => simp [hcs c rfl]

theorem dropWhile_toDigits_append :
    (Nat.toDigits 10 n ++ cs).dropWhile Char.isDigit = cs := by
  rw [List.dropWhile_append_of_pos fun c hc =>
    Nat.isDigit_of_mem_toDigits (by decide) (by decide) hc]
  cases cs with
  | nil => simp
  | cons c cs => simp [hcs c rfl]

end Split

theorem toDigits_injective : Function.Injective (Nat.toDigits 10) := by
  intro m n h
  have := congrArg (Nat.ofDigitChars 10 · 0) h
  simpa only [Nat.ofDigitChars_ten_toDigits] using this

theorem toDigits_append_inj {m n : Nat} {cs ds : List Char}
    (hcs : ∀ c ∈ cs.head?, c.isDigit = false) (hds : ∀ c ∈ ds.head?, c.isDigit = false)
    (h : Nat.toDigits 10 m ++ cs = Nat.toDigits 10 n ++ ds) : m = n ∧ cs = ds := by
  have ht := congrArg (List.takeWhile Char.isDigit) h
  have hd := congrArg (List.dropWhile Char.isDigit) h
  rw [takeWhile_toDigits_append hcs, takeWhile_toDigits_append hds] at ht
  rw [dropWhile_toDigits_append hcs, dropWhile_toDigits_append hds] at hd
  exact ⟨toDigits_injective ht, hd⟩

theorem exists_toDigits_cons (n : Nat) : ∃ d ds, Nat.toDigits 10 n = d :: ds ∧ d.isDigit := by
  obtain ⟨d, ds, h⟩ := List.exists_cons_of_ne_nil (Nat.toDigits_ne_nil (b := 10) (n := n))
  exact ⟨d, ds, h, Nat.isDigit_of_mem_toDigits (by decide) (by decide) (h ▸ List.mem_cons_self)⟩

theorem toDigits_append_ne {n : Nat} {c : Char} {cs ds : List Char} (hc : c.isDigit = false) :
    Nat.toDigits 10 n ++ cs ≠ c :: ds := by
  intro h
  obtain ⟨d, es, hd, hdigit⟩ := exists_toDigits_cons n
  rw [hd] at h
  rw [(List.cons.inj h).1, hc] at hdigit
  cases hdigit

/-! In front of other text a count ends where its digits end, whether these are counted as
bytes or as characters. -/

theorem splits_digitsEnd (text : String) :
    (digitsEnd text).Splits (String.ofList (text.toList.takeWhile Char.isDigit))
      (String.ofList (text.toList.dropWhile Char.isDigit)) where
  eq_append := by
    rw [← String.ofList_append, List.takeWhile_append_dropWhile, String.ofList_toList]
  offset_eq_rawEndPos := String.Pos.Raw.ext (digitBytes_eq text)

theorem splitDigits_of_splits {t digits rest : String} (h : (digitsEnd t).Splits digits rest) :
    splitDigits t = (digits, rest) := by
  obtain ⟨hd, hr⟩ := (digitsEnd t).splits.eq h
  rw [splitDigits, hd, hr]

theorem splitDigits_eq (text : String) :
    splitDigits text = (String.ofList (text.toList.takeWhile Char.isDigit),
      String.ofList (text.toList.dropWhile Char.isDigit)) :=
  splitDigits_of_splits (splits_digitsEnd text)

theorem splits_text_append {n : Nat} {e : String} (he : ∀ c ∈ e.toList.head?, c.isDigit = false) :
    (digitsEnd (text n ++ e)).Splits (text n) e := by
  have h := splits_digitsEnd (text n ++ e)
  rw [String.toList_append, toList_text, takeWhile_toDigits_append he,
    dropWhile_toDigits_append he, String.ofList_toList, ← toList_text, String.ofList_toList] at h
  exact h

theorem map_toNat_count?_eq_some_iff {s : String} {n : Nat} :
    (count? s.toList).map UInt32.toNat = some n ↔ 1 ≤ n ∧ n ≤ 4294967295 ∧ s = text n := by
  rw [Option.map_eq_some_iff]
  constructor
  · rintro ⟨w, hw, rfl⟩
    obtain ⟨hw0, hs⟩ := count?_eq_some_iff.mp hw
    have hlt := w.toNat_lt
    exact ⟨toNat_pos hw0, by omega, (String.toList_inj.mp hs).symm⟩
  · rintro ⟨hpos, hle, rfl⟩
    have hlt : n < UInt32.size := Nat.lt_succ_of_le hle
    have hn : (UInt32.ofNatLT n hlt).toNat = n := UInt32.toNat_ofNatLT
    refine ⟨_, count?_eq_some_iff.mpr ⟨fun h0 => ?_, by rw [hn]⟩, hn⟩
    rw [h0, UInt32.toNat_zero] at hn
    omega

/-- Only its own text is read as a count.  Whatever letters follow it, the digits that are
scanned are those of the count, and the text is cut between two characters. -/
theorem counts_canonical :
    (∀ (s : String) (n : Nat), (count? s.toList).map UInt32.toNat = some n ↔
      1 ≤ n ∧ n ≤ 4294967295 ∧ s = text n) ∧
    ∀ (n : Nat) (e : String), (∀ c ∈ e.toList.head?, c.isDigit = false) →
      String.Pos.Raw.IsValid (text n ++ e) ⟨digitBytes (text n ++ e)⟩ ∧
      digitBytes (text n ++ e) = (text n).utf8ByteSize ∧
      splitDigits (text n ++ e) = (text n, e) := by
  refine ⟨fun s n => map_toNat_count?_eq_some_iff, fun n e he => ?_⟩
  have hsplits := splits_text_append (n := n) he
  exact ⟨isValid_digitBytes _, congrArg String.Pos.Raw.byteIdx hsplits.offset_eq_rawEndPos,
    splitDigits_of_splits hsplits⟩

theorem counts_canonical_sample :
    (∀ c ∈ "é8".toList.head?, c.isDigit = false) ∧
      splitDigits (text 4294967295 ++ "é8") = (text 4294967295, "é8") := by
  have hletter : ∀ c ∈ "é8".toList.head?, c.isDigit = false := by simp
  exact ⟨hletter, (counts_canonical.2 4294967295 "é8" hletter).2.2⟩

end CodegenTypes.Decimal
