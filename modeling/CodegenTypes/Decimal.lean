/-! Decimal texts of positive counts.  A count has no sign and no leading zero,
so every count that fits in a word has exactly one text.  Where a count stands in
front of other text, it ends where the digits end. -/

namespace CodegenTypes.Decimal

def text (n : Nat) : String := Nat.repr n

def word? (n : Nat) : Option UInt32 :=
  if h : n < UInt32.size then some (UInt32.ofNatLT n h) else none

def extend? (n : UInt32) : List Char → Option UInt32
  | [] => some n
  | d :: ds => (word? (10 * n.toNat + (d.toNat - 48))).bind fun m => extend? m ds

def count? : List Char → Option UInt32
  | [] => none
  | '0' :: _ => none
  | cs => if cs.all Char.isDigit then extend? 0 cs else none

def isDigitByte (b : UInt8) : Bool := 48 ≤ b && b ≤ 57

/-- How many bytes of a text come before the first that is no digit. -/
def digitBytes (text : String) : Nat :=
  (text.toByteArray.data.toList.takeWhile isDigitByte).length

theorem utf8EncodeChar_of_isDigit {c : Char} (h : c.isDigit) :
    ∃ b, String.utf8EncodeChar c = [b] ∧ isDigitByte b := by
  simp only [Char.isDigit, Bool.and_eq_true, decide_eq_true_eq, UInt32.le_iff_toNat_le] at h
  have h₀ : 48 ≤ c.toNat := h.1
  have h₉ : c.toNat ≤ 57 := h.2
  refine ⟨.ofNat c.toNat, if_pos (Nat.le_trans h₉ (by decide)), ?_⟩
  simp [isDigitByte, UInt8.le_iff_toNat_le]
  omega

/-- No other character starts with the byte of a digit. -/
theorem utf8EncodeChar_of_not_isDigit {c : Char} (h : c.isDigit = false) :
    ∃ b bs, String.utf8EncodeChar c = b :: bs ∧ isDigitByte b = false := by
  simp only [Char.isDigit, Bool.and_eq_false_iff, decide_eq_false_iff_not,
    UInt32.le_iff_toNat_le] at h
  have h' : ¬48 ≤ c.val.toNat ∨ ¬c.val.toNat ≤ 57 := h
  fun_cases String.utf8EncodeChar c with
  | case1 | case2 | case3 | case4 =>
    refine ⟨_, _, rfl, ?_⟩
    simp [isDigitByte, UInt8.le_iff_toNat_le]
    omega

theorem takeWhile_isDigitByte (cs : List Char) :
    (cs.flatMap String.utf8EncodeChar).takeWhile isDigitByte =
      (cs.takeWhile Char.isDigit).flatMap String.utf8EncodeChar := by
  induction cs with
  | nil => rfl
  | cons c cs ih =>
    cases hc : c.isDigit with
    | true =>
      obtain ⟨b, hb, hd⟩ := utf8EncodeChar_of_isDigit hc
      simp [hb, hd, hc, ih]
    | false =>
      obtain ⟨b, bs, hb, hd⟩ := utf8EncodeChar_of_not_isDigit hc
      simp [hb, hd, hc]

theorem digitBytes_eq (text : String) :
    digitBytes text = (String.ofList (text.toList.takeWhile Char.isDigit)).utf8ByteSize := by
  rw [digitBytes, ← String.utf8Encode_toList, List.utf8Encode, List.toList_data_toByteArray,
    takeWhile_isDigitByte]
  change _ = (String.ofList _).toByteArray.size
  simp [String.toByteArray_ofList, List.utf8Encode]

theorem isValid_digitBytes (text : String) : String.Pos.Raw.IsValid text ⟨digitBytes text⟩ := by
  rw [digitBytes_eq, String.Pos.Raw.isValid_iff_exists_append]
  refine ⟨_, String.ofList (text.toList.dropWhile Char.isDigit), ?_, rfl⟩
  rw [← String.ofList_append, List.takeWhile_append_dropWhile, String.ofList_toList]

def digitsEnd (text : String) : text.Pos := ⟨⟨digitBytes text⟩, isValid_digitBytes text⟩

def splitDigits (text : String) : String × String :=
  ((text.sliceTo (digitsEnd text)).copy, (text.sliceFrom (digitsEnd text)).copy)

end CodegenTypes.Decimal
