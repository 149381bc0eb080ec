import CodegenTypes.Proofs.Form.Name

namespace CodegenTypes

variable {k : Scalar} {n : UInt32}

theorem toList_integerName (n : UInt32) :
    ("i" ++ Decimal.text n.toNat).toList = 'i' :: Nat.toDigits 10 n.toNat := by
  rw [String.toList_append, Decimal.toList_text]
  rfl

namespace Scalar

theorem isDigit_head?_name (k : Scalar) : ∀ ch ∈ k.name.toList.head?, ch.isDigit = false := by
  obtain ⟨ch, cs, hk, hd, -, -⟩ := k.exists_toList_name
  exact Decimal.isDigit_head?_of_cons hk hd

theorem name_eq_integer_iff : k.name = "i" ++ Decimal.text n.toNat ↔ integer? n = some k := by
  constructor
  · intro h
    have hl : k.name.toList = 'i' :: Nat.toDigits 10 n.toNat := by rw [h, toList_integerName]
    have hi : k.name.toList.head? = some 'i' := by rw [hl, List.head?_cons]
    have hd : k.name.toList.tail.all Char.isDigit := by
      rw [hl, List.tail_cons, List.all_eq_true]
      exact fun c hc => Nat.isDigit_of_mem_toDigits (by decide) (by decide) hc
    have hn : Nat.ofDigitChars 10 k.name.toList.tail 0 = n.toNat := by
      rw [hl, List.tail_cons, Nat.ofDigitChars_ten_toDigits]
    apply integer?_eq_some_iff.mpr
    cases k with
    | i1 | i8 | i16 | i32 | i64 | i128 => exact ⟨rfl, congrArg some (UInt32.toNat_inj.mp hn)⟩
    | isVoid => cases hd
    | _ => cases hi
  · intro h
    obtain ⟨hi, hb⟩ := integer?_eq_some_iff.mp h
    cases k <;> cases hi <;> cases hb <;> rfl

end Scalar

namespace Lanes

variable {c d : Lanes} {s t : String}

theorem spell_inj (hs : ∀ ch ∈ s.toList.head?, ch.isDigit = false)
    (ht : ∀ ch ∈ t.toList.head?, ch.isDigit = false) (h : c.spell s = d.spell t) : c = d ∧ s = t := by
  have hl := congrArg String.toList h
  rw [toList_spell, toList_spell] at hl
  have hflag : c.scalable = d.scalable := by
    cases hc : c.scalable <;> cases hd : d.scalable <;> simp [hc, hd] at hl ⊢
  rw [hflag, List.append_assoc, List.append_assoc] at hl
  obtain ⟨hmin, helement⟩ := Decimal.toDigits_append_inj hs ht (List.append_cancel_left hl)
  refine ⟨?_, String.toList_inj.mp helement⟩
  cases c
  cases d
  congr
  exact UInt32.toNat_inj.mp hmin

theorem spell_ne {ch : Char} {cs : List Char} (ht : t.toList = ch :: cs) (hv : ch ≠ 'v')
    (hn : ch ≠ 'n') (c : Lanes) (s : String) : c.spell s ≠ t := by
  intro h
  rw [← h, toList_spell] at ht
  cases hc : c.scalable with
  | true =>
    rw [hc] at ht
    exact hn (List.cons.inj ht).1.symm
  | false =>
    rw [hc] at ht
    exact hv (List.cons.inj ht).1.symm

theorem spell_ne_name (c : Lanes) (s : String) (k : Scalar) : c.spell s ≠ k.name := by
  obtain ⟨ch, cs, hk, -, hv, hn⟩ := k.exists_toList_name
  exact spell_ne hk hv hn c s

theorem spell_ne_invalid (c : Lanes) (s : String) : c.spell s ≠ "invalid" :=
  spell_ne rfl (by decide) (by decide) c s

end Lanes

theorem Shape.name_injective : Function.Injective Shape.name := by
  intro a b h
  cases a with
  | invalid =>
    cases b with
    | invalid => rfl
    | scalar k => exact absurd h.symm k.name_ne_invalid
    | vector k d => exact absurd h.symm (d.spell_ne_invalid k.name)
  | scalar j =>
    cases b with
    | invalid => exact absurd h j.name_ne_invalid
    | scalar k => rw [Scalar.name_injective h]
    | vector k d => exact absurd h.symm (d.spell_ne_name k.name j)
  | vector j c =>
    cases b with
    | invalid => exact absurd h (c.spell_ne_invalid j.name)
    | scalar k => exact absurd h (c.spell_ne_name j.name k)
    | vector k d =>
      obtain ⟨hlanes, hname⟩ :=
        Lanes.spell_inj j.isDigit_head?_name k.isDigit_head?_name h
      rw [hlanes, Scalar.name_injective hname]

namespace MachineType

variable {m : MachineType} {sh : Shape}

theorem isValid_iff : m.isValid ↔ m ≠ invalid := by
  rw [isValid, decide_eq_true_iff, ne_eq, shape_eq_invalid_iff]

theorem find?_eq_some_iff : find? sh = some m ↔ m ≠ invalid ∧ m.shape = sh := by
  constructor
  · intro h
    exact ⟨mem_all_iff.mp (List.mem_of_find?_eq_some h), shape_of_find? h⟩
  · rintro ⟨hm, rfl⟩
    exact find?_shape hm

theorem ne_invalid_of_shape (h : m.shape = sh) (hsh : sh ≠ .invalid) : m ≠ invalid := by
  rwa [ne_eq, ← shape_eq_invalid_iff, h]

theorem find?_vector_eq_some_iff {c : Lanes} :
    find? (.vector k c) = some m ↔ m.shape = .vector k c ∧ m.name = c.spell k.name := by
  rw [find?_eq_some_iff]
  constructor
  · rintro ⟨-, h⟩
    exact ⟨h, by rw [name_eq, h, Shape.name]⟩
  · rintro ⟨h, -⟩
    exact ⟨ne_invalid_of_shape h (by simp), h⟩

theorem ofScalar_eq_iff : ofScalar k = m ↔ m.shape = .scalar k := by
  constructor
  · rintro rfl
    exact shape_ofScalar k
  · intro h
    have hm := find?_eq_some_iff.mpr ⟨ne_invalid_of_shape h (by simp), h⟩
    exact Option.get_of_eq_some _ hm

theorem ofName?_name (sh : Shape) : ofName? sh.name = find? sh := by
  ext m
  rw [ofName?_eq_some_iff, find?_eq_some_iff, name_eq, Shape.name_injective.eq_iff]

theorem integer?_eq_ofName? (n : UInt32) :
    integer? n = ofName? ("i" ++ Decimal.text n.toNat) := by
  ext m
  rw [integer?, Option.map_eq_some_iff, ofName?_eq_some_iff, name_eq]
  constructor
  · rintro ⟨k, hk, hm⟩
    have hsh := ofScalar_eq_iff.mp hm
    refine ⟨ne_invalid_of_shape hsh (by simp), ?_⟩
    rw [hsh, Shape.name, Scalar.name_eq_integer_iff.mpr hk]
  · rintro ⟨hm, hname⟩
    cases hsh : m.shape with
    | invalid => exact absurd (shape_eq_invalid_iff.mp hsh) hm
    | scalar k =>
      rw [hsh] at hname
      exact ⟨k, Scalar.name_eq_integer_iff.mp hname, ofScalar_eq_iff.mpr hsh⟩
    | vector k c =>
      rw [hsh] at hname
      exact absurd hname (c.spell_ne (toList_integerName n) (by decide) (by decide) k.name)

/-- Both ways into the table find the same entries.  Each entry is found by its structure, and by
the spelling of its structure. -/
theorem lookups_agree :
    (∀ kind lanes, find? (.vector kind lanes) = ofName? (lanes.spell kind.name) ∧
      ∀ m, find? (.vector kind lanes) = some m ↔
        m.shape = .vector kind lanes ∧ m.name = lanes.spell kind.name) ∧
    (∀ bits : UInt32, integer? bits = ofName? ("i" ++ Decimal.text bits.toNat)) ∧
    ∀ text m, ofName? text = some m ↔ m.isValid ∧ m.shape.name = text := by
  refine ⟨fun kind lanes => ⟨?_, fun m => find?_vector_eq_some_iff⟩, integer?_eq_ofName?, ?_⟩
  · exact (ofName?_name (.vector kind lanes)).symm
  · intro text m
    rw [ofName?_eq_some_iff, isValid_iff, name_eq]

end MachineType

end CodegenTypes
