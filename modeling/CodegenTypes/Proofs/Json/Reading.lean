import CodegenTypes.Json.Reader
import CodegenTypes.Proofs.Except
import CodegenTypes.Proofs.Json.Text

namespace CodegenTypes.Json

variable {b cs rest u v w s : List Char} {c : Char} {m n : Nat} {strict : Bool}

theorem Read.mapValue_eq_ok_iff {α β : Type} {f : α → β} {r : Read α} {y : β} :
    Read.mapValue f r = .ok (y, rest) ↔ ∃ x, r = .ok (x, rest) ∧ f x = y := by
  cases r with
  | error e => simp [mapValue, Except.map]
  | ok p =>
    obtain ⟨x, cs⟩ := p
    simp only [mapValue, Except.map, Prod.map, id, Except.ok.injEq, Prod.mk.injEq]
    constructor
    · rintro ⟨h, rfl⟩
      exact ⟨x, ⟨rfl, rfl⟩, h⟩
    · rintro ⟨_, ⟨rfl, rfl⟩, h⟩
      exact ⟨h, rfl⟩

/-! Blanks and literals. -/

theorem skipBlank_append (hb : Blank b) (cs : List Char) : skipBlank (b ++ cs) = skipBlank cs := by
  rw [skipBlank, skipBlank, List.dropWhile_append_of_pos hb]

theorem skipBlank_cons (hc : isBlank c = false) (cs : List Char) : skipBlank (c :: cs) = c :: cs :=
  List.dropWhile_cons_of_neg (by rw [hc]; exact Bool.false_ne_true)

theorem skipBlank_append_cons (hb : Blank b) (hc : isBlank c = false) (cs : List Char) :
    skipBlank (b ++ c :: cs) = c :: cs := by
  rw [skipBlank_append hb, skipBlank_cons hc]

theorem literal_append (w rest : List Char) : literal w (w ++ rest) = .ok rest := by
  induction w with
  | nil => rw [List.nil_append, literal]
  | cons c w ih => rw [List.cons_append, literal, if_pos rfl, ih]

theorem colon_append (hb : Blank b) (rest : List Char) : colon (b ++ ':' :: rest) = .ok rest := by
  rw [colon, skipBlank_append_cons hb (by decide)]
  rfl

theorem atEnd_blank (hb : Blank b) : atEnd b = .ok () := by
  have h : skipBlank b = [] := by simpa [skipBlank] using skipBlank_append hb []
  rw [atEnd, h]
  rfl

/-! Strings. -/

theorem codeUnit_append (h : HexWord n u) (rest : List Char) :
    codeUnit (u ++ rest) = .ok (n, rest) := by
  obtain ⟨ha, hb, hc, hd, rfl⟩ := h
  simp only [List.cons_append, List.nil_append, codeUnit, ha, hb, hc, hd]

theorem lowSurrogate_append (h : HexWord n u) (hn : isLowSurrogate n) (rest : List Char) :
    lowSurrogate ('\\' :: 'u' :: (u ++ rest)) = .ok (n, rest) := by
  simp only [lowSurrogate, codeUnit_append h, hn, if_true]

theorem escape_point (h : HexWord n u) (hhigh : isHighSurrogate n = false)
    (hlow : isLowSurrogate n = false) (rest : List Char) :
    escape strict ('u' :: (u ++ rest)) = .ok (Char.ofNat n, rest) := by
  simp only [escape, codePoint, codeUnit_append h, hhigh, hlow, Bool.and_false]
  rfl

theorem escape_pair (hu : HexWord m u) (hv : HexWord n v) (hm : isHighSurrogate m)
    (hn : isLowSurrogate n) (rest : List Char) :
    escape true ('u' :: (u ++ '\\' :: 'u' :: (v ++ rest))) =
      .ok (Char.ofNat (0x10000 + (m - 0xD800) * 0x400 + (n - 0xDC00)), rest) := by
  have hlow : isLowSurrogate m = false := by
    simp only [isHighSurrogate, Bool.and_eq_true, decide_eq_true_eq] at hm
    simp only [isLowSurrogate, Bool.and_eq_false_iff, decide_eq_false_iff_not]
    omega
  simp only [escape, codePoint, codeUnit_append hu, hm, hlow, lowSurrogate_append hv hn,
    Bool.and_false, Bool.true_and, if_true]
  rfl

theorem escape_half (h : HexWord n u) (rest : List Char) :
    escape false ('u' :: (u ++ rest)) = .ok (Char.ofNat n, rest) := by
  simp only [escape, codePoint, codeUnit_append h, Bool.false_and]
  rfl

theorem escape_escaped {e : Char} (he : escaped? e = some c) (rest : List Char) :
    escape strict (e :: rest) = .ok (c, rest) := by
  have hu : e ≠ 'u' := by
    rintro rfl
    cases he
  rw [escape, he]
  intro h
  exact hu h

theorem readString_quote (strict : Bool) (rest : List Char) :
    readString strict ('"' :: rest) = .ok ([], rest) := by
  rw [readString, if_pos rfl]

theorem readString_plain (hq : c ≠ '"') (he : c ≠ '\\') (hc : 0x20 ≤ c.toNat)
    (h : readString strict cs = .ok (s, rest)) :
    readString strict (c :: cs) = .ok (c :: s, rest) := by
  rw [readString, if_neg hq, if_neg he, if_neg (Nat.not_lt.mpr hc), h]
  rfl

theorem readString_escape {ds : List Char} (he : escape strict cs = .ok (c, ds))
    (h : readString strict ds = .ok (s, rest)) :
    readString strict ('\\' :: cs) = .ok (c :: s, rest) := by
  rw [readString, if_neg (by decide), if_pos rfl]
  split
  · next d es hd =>
    cases he.symm.trans hd
    rw [h]
    rfl
  · next e hd => cases he.symm.trans hd

theorem exists_readString (h : Spells w s) (strict : Bool) (rest : List Char) :
    ∃ t, readString strict (w ++ '"' :: rest) = .ok (t, rest) ∧ (strict → t = s) := by
  induction h with
  | nil => exact ⟨[], readString_quote strict rest, fun _ => rfl⟩
  | @plain c w s hq he hc _ ih =>
    obtain ⟨t, ht, hst⟩ := ih
    exact ⟨c :: t, readString_plain hq he hc ht, fun hs => congrArg _ (hst hs)⟩
  | @escaped e c w s he _ ih =>
    obtain ⟨t, ht, hst⟩ := ih
    exact ⟨c :: t, readString_escape (escape_escaped he _) ht, fun hs => congrArg _ (hst hs)⟩
  | @point n u w s hu hhigh hlow _ ih =>
    obtain ⟨t, ht, hst⟩ := ih
    refine ⟨_, ?_, fun hs => congrArg (Char.ofNat n :: ·) (hst hs)⟩
    rw [List.cons_append, List.cons_append, List.append_assoc]
    exact readString_escape (escape_point hu hhigh hlow _) ht
  | @pair m n u v w s hu hv hm hn _ ih =>
    obtain ⟨t, ht, hst⟩ := ih
    simp only [List.cons_append, List.append_assoc]
    -- The halves are one character for a strict reader and two for any other.
    cases strict with
    | true =>
      exact ⟨_, readString_escape (escape_pair hu hv hm hn _) ht, fun hs => congrArg _ (hst hs)⟩
    | false =>
      have hlow := readString_escape (escape_half hv _) ht
      exact ⟨_, readString_escape (escape_half hu _) hlow, nofun⟩

theorem readString_of_spells (h : Spells w s) (rest : List Char) :
    readString true (w ++ '"' :: rest) = .ok (s, rest) := by
  obtain ⟨t, ht, hst⟩ := exists_readString h true rest
  rw [ht, hst rfl]

/-! Numbers. -/

/-- Nothing that a number could go on with. -/
def Stops (cs : List Char) : Prop :=
  ∀ c ∈ cs.head?, c.isDigit = false ∧ c ≠ '.' ∧ c ≠ 'e' ∧ c ≠ 'E'

theorem digits_toDigits (e : ReadError) (n : Nat) (hr : Stops rest) :
    digits e (Nat.toDigits 10 n ++ rest) = .ok (Nat.toDigits 10 n, rest) := by
  have hd : ∀ c ∈ rest.head?, c.isDigit = false := fun c hc => (hr c hc).1
  rw [digits, Decimal.takeWhile_toDigits_append hd, Decimal.dropWhile_toDigits_append hd]
  split
  · next h => exact absurd h Nat.toDigits_ne_nil
  · next d ds h => rw [h]

theorem toDigits_ne_zero_cons (n : Nat) (c : Char) (cs : List Char) :
    Nat.toDigits 10 n ≠ '0' :: c :: cs := by
  intro h
  cases n with
  | zero => cases h
  | succ n => exact Decimal.head_toDigits_ne_zero n.succ_pos (by rw [h]; rfl)

theorem wholePart_toDigits (e : ReadError) (n : Nat) (hr : Stops rest) :
    wholePart e (Nat.toDigits 10 n ++ rest) = .ok (Nat.toDigits 10 n, rest) := by
  rw [wholePart, digits_toDigits e n hr]
  split
  · next h =>
    simp only [Except.ok.injEq, Prod.mk.injEq] at h
    exact absurd h.1 (toDigits_ne_zero_cons n _ _)
  · rfl

theorem fractionPart_of_stops (e : ReadError) (hr : Stops rest) :
    fractionPart e rest = .ok (none, rest) := by
  unfold fractionPart
  split
  · exact absurd rfl (hr _ rfl).2.1
  · rfl

theorem exponentPart_of_stops (e : ReadError) (hr : Stops rest) :
    exponentPart e rest = .ok (none, rest) := by
  unfold exponentPart
  split
  · rfl
  · rw [if_neg]
    rintro (rfl | rfl)
    · exact (hr _ rfl).2.2.1 rfl
    · exact (hr _ rfl).2.2.2 rfl

theorem numeral_toDigits (e : ReadError) (n : Nat) (hr : Stops rest) :
    numeral e (Nat.toDigits 10 n ++ rest) = .ok (⟨Nat.toDigits 10 n, none, none⟩, rest) := by
  simp only [numeral, wholePart_toDigits e n hr, fractionPart_of_stops e hr,
    exponentPart_of_stops e hr, bind, Except.bind, pure, Except.pure]

theorem natural?_toDigits (n : Nat) :
    (Numeral.mk (Nat.toDigits 10 n) none none).natural? =
      if n ≤ Numeral.maxWord then some n else none := by
  rw [Numeral.natural?, Nat.ofDigitChars_ten_toDigits]
  rfl

theorem keepDigits_eq {ds : List Char} (h : Nat.ofDigitChars 10 ds m ≤ Numeral.maxWord) :
    Numeral.keepDigits m ds = (Nat.ofDigitChars 10 ds m, []) := by
  induction ds generalizing m with
  | nil => rfl
  | cons d ds ih =>
    rw [Nat.ofDigitChars_cons] at h ⊢
    have hm : m * 10 + (d.toNat - 48) = 10 * m + (d.toNat - '0'.toNat) := by
      rw [Nat.mul_comm]
      rfl
    have hle : 10 * m + (d.toNat - '0'.toNat) ≤ Numeral.maxWord := by
      refine Nat.le_trans ?_ h
      rw [Nat.ofDigitChars_eq_ofDigitChars_zero]
      exact Nat.le_trans (Nat.le_mul_of_pos_left _ (Nat.pow_pos (by decide))) (Nat.le_add_right _ _)
    simp only [Numeral.keepDigits, hm, hle, if_true]
    exact ih h

theorem isFinite_toDigits (h : n ≤ Numeral.maxWord) :
    (Numeral.mk (Nat.toDigits 10 n) none none).isFinite := by
  have hkeep : Numeral.keepDigits 0 (Nat.toDigits 10 n) = (n, []) := by
    rw [keepDigits_eq] <;> rw [Nat.ofDigitChars_ten_toDigits]
    exact h
  simp [Numeral.isFinite, hkeep, Numeral.keepDigits]

theorem readNumber_eq_ok_iff {x : Option Nat} :
    readNumber cs = .ok (x, rest) ↔
      ∃ q, numeral .endOfText (sign cs).2 = .ok (q, rest) ∧ q.isFinite ∧
        (if (sign cs).1 then none else q.natural?) = x := by
  rw [readNumber, except_bind_eq_ok_iff]
  constructor
  · rintro ⟨⟨q, rest'⟩, hq, h⟩
    cases hfinite : q.isFinite with
    | true =>
      simp only [hfinite, if_true] at h
      cases h
      exact ⟨q, hq, hfinite, rfl⟩
    | false =>
      simp only [hfinite, Bool.false_eq_true, if_false] at h
      cases h
  · rintro ⟨q, hq, hfinite, rfl⟩
    refine ⟨⟨q, rest⟩, hq, ?_⟩
    simp only [hfinite, if_true]
    rfl

theorem ne_of_isDigit {d : Char} (hc : c.isDigit) (hd : d.isDigit = false) : c ≠ d := by
  rintro rfl
  rw [hc] at hd
  cases hd

theorem isBlank_of_isDigit (h : c.isDigit) : isBlank c = false := by
  simp [isBlank, ne_of_isDigit h]

theorem sign_toDigits (n : Nat) (rest : List Char) :
    sign (Nat.toDigits 10 n ++ rest) = (false, Nat.toDigits 10 n ++ rest) := by
  unfold sign
  split
  · next h => exact absurd h (Decimal.toDigits_append_ne (by decide))
  · rfl

theorem readNumber_natural {k : Nat} (hr : Stops rest) :
    readNumber (Nat.toDigits 10 n ++ rest) = .ok (some k, cs) ↔
      n = k ∧ n ≤ Numeral.maxWord ∧ rest = cs := by
  simp only [readNumber_eq_ok_iff, sign_toDigits, numeral_toDigits _ n hr, Except.ok.injEq,
    Prod.mk.injEq, Bool.false_eq_true, if_false]
  constructor
  · rintro ⟨q, ⟨rfl, rfl⟩, -, hq⟩
    rw [natural?_toDigits] at hq
    split at hq
    · next hn => exact ⟨Option.some.inj hq, hn, rfl⟩
    · cases hq
  · rintro ⟨rfl, hn, rfl⟩
    refine ⟨_, ⟨rfl, rfl⟩, isFinite_toDigits hn, ?_⟩
    rw [natural?_toDigits, if_pos hn]

theorem readNumber_negative {k : Nat} : readNumber ('-' :: cs) ≠ .ok (some k, rest) := by
  intro h
  obtain ⟨q, -, -, hq⟩ := readNumber_eq_ok_iff.mp h
  cases hq

theorem skipNumber_natural (n : Nat) (hr : Stops rest) :
    skipNumber (Nat.toDigits 10 n ++ rest) = .ok rest := by
  rw [skipNumber, sign_toDigits, numeral_toDigits _ n hr]
  rfl

theorem skipNumber_negative (n : Nat) (hr : Stops rest) :
    skipNumber ('-' :: (Nat.toDigits 10 n ++ rest)) = .ok rest := by
  rw [skipNumber, sign, numeral_toDigits _ n hr]
  rfl

/-! Values. -/

section Value

variable {leaf : Leaf} {limit : Nat}

theorem exists_cons_of_leafText (hv : LeafText leaf v) :
    ∃ c w, v = c :: w ∧ isBlank c = false ∧ c ≠ ']' := by
  cases hv with
  | natural n =>
    obtain ⟨d, ds, h, hd⟩ := Decimal.exists_toDigits_cons n
    exact ⟨d, ds, h, isBlank_of_isDigit hd, ne_of_isDigit hd rfl⟩
  | null | true | false | negative | text => exact ⟨_, _, rfl, rfl, by decide⟩

theorem skipBlank_leaf (hb : Blank b) (hv : LeafText leaf v) (rest : List Char) :
    skipBlank (b ++ (v ++ rest)) = v ++ rest := by
  obtain ⟨c, w, rfl, hc, -⟩ := exists_cons_of_leafText hv
  exact skipBlank_append_cons hb hc _

theorem readNat_number (h : skipBlank cs = c :: w) (hc : startsNumber c) :
    readNat limit cs = .ok (n, rest) ↔ readNumber (c :: w) = .ok (some n, rest) ∧ n ≤ limit := by
  simp only [readNat, h, hc, if_true]
  split
  · next hx =>
    rw [hx]
    split <;> grind
  · next hx => simp [hx]
  · next hx => simp [hx]

theorem readNat_eq_error (h : skipBlank cs = c :: w) (hc : startsNumber c = false) :
    readNat limit cs = .error (wrongKind c w) := by
  simp only [readNat, h, hc, Bool.false_eq_true, if_false]

/-- Where a number is wanted no other value is taken, and no number beyond the limit. -/
theorem readNat_leaf (hlimit : limit ≤ Numeral.maxWord) (hv : LeafText leaf v) (hr : Stops rest)
    (h : skipBlank cs = v ++ rest) {ds : List Char} :
    readNat limit cs = .ok (n, ds) ↔ leaf = .integer n ∧ n ≤ limit ∧ rest = ds := by
  cases hv with
  | natural m =>
    obtain ⟨d, es, hd, hdigit⟩ := Decimal.exists_toDigits_cons m
    have hstart : startsNumber d := by simp [startsNumber, hdigit]
    rw [hd, List.cons_append] at h
    rw [readNat_number h hstart, ← List.cons_append, ← hd, readNumber_natural hr,
      Leaf.integer.injEq, Int.natCast_inj]
    constructor
    · rintro ⟨⟨rfl, -, rfl⟩, hn⟩
      exact ⟨rfl, hn, rfl⟩
    · rintro ⟨rfl, hn, rfl⟩
      exact ⟨⟨rfl, Nat.le_trans hn hlimit, rfl⟩, hn⟩
  | negative m =>
    rw [List.cons_append] at h
    rw [readNat_number h rfl]
    constructor
    · rintro ⟨hn, -⟩
      exact absurd hn readNumber_negative
    · rintro ⟨hn, -⟩
      cases hn
  | null | true | false | text =>
    rw [readNat_eq_error h (by decide)]
    simp

theorem readBool_leaf (hv : LeafText leaf v) (h : skipBlank cs = v ++ rest) {x : Bool}
    {ds : List Char} : readBool cs = .ok (x, ds) ↔ leaf = .bool x ∧ rest = ds := by
  unfold readBool
  cases hv with
  | true =>
    replace h : skipBlank cs = 't' :: (['r', 'u', 'e'] ++ rest) := h
    simp only [h, literal_append, if_true, Except.map, Except.ok.injEq, Prod.mk.injEq,
      Leaf.bool.injEq]
  | false =>
    replace h : skipBlank cs = 'f' :: (['a', 'l', 's', 'e'] ++ rest) := h
    have hc : 'f' ≠ 't' := by decide
    simp only [h, hc, literal_append, if_true, if_false, Except.map, Except.ok.injEq,
      Prod.mk.injEq, Leaf.bool.injEq]
  | natural n =>
    obtain ⟨d, es, hd, hdigit⟩ := Decimal.exists_toDigits_cons n
    simp [h, hd, ne_of_isDigit hdigit]
  | null | negative | text => simp [h]

theorem skipHead_leaf (hb : Blank b) (hv : LeafText leaf v) (hr : Stops rest) :
    skipHead (b ++ (v ++ rest)) = .ok (none, rest) := by
  rw [skipHead, skipBlank_leaf hb hv]
  cases hv with
  | null =>
    change (literal ['u', 'l', 'l'] (['u', 'l', 'l'] ++ rest)).map _ = _
    rw [literal_append]
    rfl
  | true =>
    change (literal ['r', 'u', 'e'] (['r', 'u', 'e'] ++ rest)).map _ = _
    rw [literal_append]
    rfl
  | false =>
    change (literal ['a', 'l', 's', 'e'] (['a', 'l', 's', 'e'] ++ rest)).map _ = _
    rw [literal_append]
    rfl
  | natural n =>
    have h := skipNumber_natural n hr
    obtain ⟨d, es, hd, hdigit⟩ := Decimal.exists_toDigits_cons n
    rw [hd, List.cons_append] at h ⊢
    simp [h, ne_of_isDigit hdigit, startsNumber, hdigit, Except.map]
  | negative n =>
    change (skipNumber ('-' :: (Nat.toDigits 10 (n + 1) ++ rest))).map _ = _
    rw [skipNumber_negative (n + 1) hr]
    rfl
  | text hs =>
    obtain ⟨t, ht, -⟩ := exists_readString hs false rest
    simp [ht, Except.map]

theorem skipValue_leaf (hb : Blank b) (hv : LeafText leaf v) (hr : Stops rest) :
    skipValue (b ++ (v ++ rest)) = .ok rest := by
  rw [skipValue, skipHead_leaf hb hv hr]
  change skipFrames rest.length [] false rest = _
  rw [skipFrames]

end Value

end CodegenTypes.Json
