import CodegenTypes.Json.Descriptor
import CodegenTypes.Json.Skip
import CodegenTypes.Json.Writer
import CodegenTypes.Proofs.Decimal

/-! The texts of an object or an array whose values have no parts.  Blanks may stand between any
two words, and a character of a string may be escaped in any way that there is. -/

namespace CodegenTypes.Json

def Blank (cs : List Char) : Prop := ∀ c ∈ cs, isBlank c

inductive HexWord (n : Nat) : List Char → Prop
  | intro {a b c d : Char} {i j k l : Nat} (ha : hexDigit? a = some i) (hb : hexDigit? b = some j)
      (hc : hexDigit? c = some k) (hd : hexDigit? d = some l)
      (hn : ((i * 16 + j) * 16 + k) * 16 + l = n) : HexWord n [a, b, c, d]

/-- The characters between the quotes of a string, and the characters that they stand for.  Beyond
the first 65536 a character is escaped in two halves. -/
inductive Spells : List Char → List Char → Prop
  | nil : Spells [] []
  | plain {c : Char} {w s : List Char} (hq : c ≠ '"') (he : c ≠ '\\') (hc : 0x20 ≤ c.toNat)
      (h : Spells w s) : Spells (c :: w) (c :: s)
  | escaped {e c : Char} {w s : List Char} (he : escaped? e = some c) (h : Spells w s) :
      Spells ('\\' :: e :: w) (c :: s)
  | point {n : Nat} {u w s : List Char} (hu : HexWord n u) (hhigh : isHighSurrogate n = false)
      (hlow : isLowSurrogate n = false) (h : Spells w s) :
      Spells ('\\' :: 'u' :: (u ++ w)) (Char.ofNat n :: s)
  | pair {m n : Nat} {u v w s : List Char} (hu : HexWord m u) (hv : HexWord n v)
      (hhigh : isHighSurrogate m) (hlow : isLowSurrogate n) (h : Spells w s) :
      Spells ('\\' :: 'u' :: (u ++ '\\' :: 'u' :: (v ++ w)))
        (Char.ofNat (0x10000 + (m - 0xD800) * 0x400 + (n - 0xDC00)) :: s)

inductive LeafText : Leaf → List Char → Prop
  | null : LeafText .null ['n', 'u', 'l', 'l']
  | true : LeafText (.bool true) ['t', 'r', 'u', 'e']
  | false : LeafText (.bool false) ['f', 'a', 'l', 's', 'e']
  | natural (n : Nat) : LeafText (.integer n) (Nat.toDigits 10 n)
  | negative (n : Nat) : LeafText (.integer (.negSucc n)) ('-' :: Nat.toDigits 10 (n + 1))
  | text {s : String} {w : List Char} (h : Spells w s.toList) :
      LeafText (.text s) ('"' :: (w ++ ['"']))

/-- What stands before a part: a comma unless it is the first, and blanks. -/
inductive Gap : Bool → List Char → Prop
  | first {b : List Char} (hb : Blank b) : Gap true b
  | next {b c : List Char} (hb : Blank b) (hc : Blank c) : Gap false (b ++ ',' :: c)

/-- The rest of an object from a field on, with the bracket that closes it. -/
inductive FieldsText : Bool → List (String × Leaf) → List Char → Prop
  | close {first : Bool} {b : List Char} (hb : Blank b) : FieldsText first [] (b ++ ['\x7d'])
  | field {first : Bool} {key : String} {leaf : Leaf} {fields : List (String × Leaf)}
      {g w b c v cs : List Char} (hg : Gap first g) (hw : Spells w key.toList) (hb : Blank b)
      (hc : Blank c) (hv : LeafText leaf v) (h : FieldsText false fields cs) :
      FieldsText first ((key, leaf) :: fields)
        (g ++ '"' :: (w ++ '"' :: (b ++ ':' :: (c ++ (v ++ cs)))))

inductive ItemsText : Bool → List Leaf → List Char → Prop
  | close {first : Bool} {b : List Char} (hb : Blank b) : ItemsText first [] (b ++ [']'])
  | item {first : Bool} {leaf : Leaf} {items : List Leaf} {g v cs : List Char} (hg : Gap first g)
      (hv : LeafText leaf v) (h : ItemsText false items cs) :
      ItemsText first (leaf :: items) (g ++ (v ++ cs))

inductive ObjectText (fields : List (String × Leaf)) : String → Prop
  | intro {text : String} {b cs c : List Char} (hb : Blank b) (h : FieldsText true fields cs)
      (hc : Blank c) (ht : text.toList = b ++ '\x7b' :: (cs ++ c)) : ObjectText fields text

inductive ArrayText (items : List Leaf) : String → Prop
  | intro {text : String} {b cs c : List Char} (hb : Blank b) (h : ItemsText true items cs)
      (hc : Blank c) (ht : text.toList = b ++ '[' :: (cs ++ c)) : ArrayText items text

/-! Everything has a text, as the writer shows. -/

theorem blank_nil : Blank [] := fun _ h => absurd h List.not_mem_nil

theorem spells_append {w w' s s' : List Char} (h : Spells w s) (h' : Spells w' s') :
    Spells (w ++ w') (s ++ s') := by
  induction h with
  | nil => exact h'
  | plain hq he hc _ ih => exact .plain hq he hc ih
  | escaped he _ ih => exact .escaped he ih
  | point hu hhigh hlow _ ih =>
    simpa only [List.cons_append, List.append_assoc] using Spells.point hu hhigh hlow ih
  | pair hu hv hhigh hlow _ ih =>
    simpa only [List.cons_append, List.append_assoc] using Spells.pair hu hv hhigh hlow ih

theorem hexDigit?_digitChar {n : Nat} (hn : n < 16) : hexDigit? n.digitChar = some n := by
  have key : ∀ i : Fin 16, hexDigit? (Nat.digitChar i) = some i.val := by decide
  exact key ⟨n, hn⟩

theorem hexWord_toNat {c : Char} (hc : c.toNat < 0x20) :
    HexWord c.toNat ['0', '0', Nat.digitChar (c.toNat / 16), Nat.digitChar (c.toNat % 16)] :=
  .intro (i := 0) (j := 0) rfl rfl (hexDigit?_digitChar (by omega)) (hexDigit?_digitChar (by omega))
    (by omega)

theorem spells_escapeChar (c : Char) : Spells (escapeChar c) [c] := by
  unfold escapeChar
  iterate 7
    split
    · next h =>
      subst h
      exact .escaped rfl .nil
  split
  · next hc =>
    have h := Spells.point (hexWord_toNat hc) (by simp [isHighSurrogate]; omega)
      (by simp [isLowSurrogate]; omega) .nil
    rwa [Char.ofNat_toNat] at h
  · next hq he _ _ _ _ _ hc => exact .plain hq he (by omega) .nil

theorem spells_escape (s : List Char) : Spells (s.flatMap escapeChar) s := by
  induction s with
  | nil => exact .nil
  | cons c s ih => exact spells_append (spells_escapeChar c) ih

theorem exists_leafText (leaf : Leaf) : ∃ v, LeafText leaf v := by
  cases leaf with
  | null => exact ⟨_, .null⟩
  | bool b =>
    cases b with
    | true => exact ⟨_, .true⟩
    | false => exact ⟨_, .false⟩
  | integer n =>
    cases n with
    | ofNat n => exact ⟨_, .natural n⟩
    | negSucc n => exact ⟨_, .negative n⟩
  | text s => exact ⟨_, .text (spells_escape s.toList)⟩

theorem exists_gap (first : Bool) : ∃ g, Gap first g := by
  cases first with
  | true => exact ⟨[], .first blank_nil⟩
  | false => exact ⟨_, .next blank_nil blank_nil⟩

theorem exists_fieldsText (first : Bool) (fields : List (String × Leaf)) :
    ∃ cs, FieldsText first fields cs := by
  induction fields generalizing first with
  | nil => exact ⟨_, .close blank_nil⟩
  | cons field fields ih =>
    obtain ⟨key, leaf⟩ := field
    obtain ⟨g, hg⟩ := exists_gap first
    obtain ⟨v, hv⟩ := exists_leafText leaf
    obtain ⟨cs, hcs⟩ := ih false
    exact ⟨_, .field hg (spells_escape key.toList) blank_nil blank_nil hv hcs⟩

theorem exists_itemsText (first : Bool) (items : List Leaf) : ∃ cs, ItemsText first items cs := by
  induction items generalizing first with
  | nil => exact ⟨_, .close blank_nil⟩
  | cons leaf items ih =>
    obtain ⟨g, hg⟩ := exists_gap first
    obtain ⟨v, hv⟩ := exists_leafText leaf
    obtain ⟨cs, hcs⟩ := ih false
    exact ⟨_, .item hg hv hcs⟩

theorem exists_objectText (fields : List (String × Leaf)) : ∃ text, ObjectText fields text := by
  obtain ⟨cs, h⟩ := exists_fieldsText true fields
  exact ⟨String.ofList _, .intro (b := []) (c := []) blank_nil h blank_nil String.toList_ofList⟩

theorem exists_arrayText (items : List Leaf) : ∃ text, ArrayText items text := by
  obtain ⟨cs, h⟩ := exists_itemsText true items
  exact ⟨String.ofList _, .intro (b := []) (c := []) blank_nil h blank_nil String.toList_ofList⟩

theorem toList_quote (s : String) :
    (quote s).toList = '"' :: (s.toList.flatMap escapeChar ++ ['"']) := by
  simp [quote]

theorem leafText_write_cell (l : Layout) (depth : Nat) (x : Cell) :
    LeafText x.leaf (write l depth x.toJson).toList := by
  cases x with
  | word n =>
    rw [Cell.toJson, write, Decimal.toList_text]
    exact .natural n
  | flag b =>
    rw [Cell.toJson, write]
    cases b with
    | true => exact .true
    | false => exact .false

theorem fieldsText_writeFields (depth : Nat) (ps : List (Field × Cell)) :
    FieldsText false (ps.map fun p => (p.1.key, p.2.leaf))
      ((writeFields .compact depth (ps.map fun p => (p.1.key, p.2.toJson))).toList ++
        ['\x7d']) := by
  induction ps with
  | nil => exact .close blank_nil
  | cons p ps ih =>
    have h := FieldsText.field (.next blank_nil blank_nil) (spells_escape p.1.key.toList) blank_nil
      blank_nil (leafText_write_cell .compact depth p.2) ih
    simpa [writeFields, writeField, toList_quote, Layout.compact] using h

theorem objectText_compact {α : Type} (R : Record α) (a : α) :
    ObjectText (R.leaves a) (R.toJson a).compact := by
  rw [Record.leaves, Record.toJson, compact]
  cases R.entries a with
  | nil => exact .intro blank_nil (.close blank_nil) blank_nil (by simp [write])
  | cons p ps =>
    have h := FieldsText.field (.first blank_nil) (spells_escape p.1.key.toList) blank_nil blank_nil
      (leafText_write_cell .compact 1 p.2) (fieldsText_writeFields 1 ps)
    refine .intro blank_nil h blank_nil ?_
    simp [write, writeField, toList_quote, Layout.compact]

end CodegenTypes.Json
