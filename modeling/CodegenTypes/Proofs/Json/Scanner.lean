import CodegenTypes.Proofs.Json.Codec
import CodegenTypes.Proofs.Json.Reading

namespace CodegenTypes.Json

variable {b c cs g rest tail v w : List Char} {first : Bool}
  {fields : List (String × Leaf)} {leaves : List Leaf} {leaf : Leaf}

/-! What follows a value never goes on with it. -/

theorem stops_blank_append {x : Char} (hb : Blank b) (hx : Stops (x :: cs)) :
    Stops (b ++ x :: cs) := by
  cases b with
  | nil => exact hx
  | cons y b =>
    rintro z ⟨⟩
    have hy : isBlank y := hb y List.mem_cons_self
    simp only [isBlank, Bool.or_eq_true, decide_eq_true_eq] at hy
    obtain ((rfl | rfl) | rfl) | rfl := hy <;> decide

theorem stops_cons {x : Char} (hx : x = ',' ∨ x = ']' ∨ x = '\x7d') : Stops (x :: cs) := by
  rintro z ⟨⟩
  obtain rfl | rfl | rfl := hx <;> decide

theorem Gap.stops (hg : Gap false g) (rest : List Char) : Stops (g ++ rest) := by
  cases hg with
  | next hb _ =>
    rw [List.append_assoc]
    exact stops_blank_append hb (stops_cons (by decide))

theorem FieldsText.stops (h : FieldsText false fields cs) (rest : List Char) :
    Stops (cs ++ rest) := by
  cases h with
  | close hb =>
    rw [List.append_assoc]
    exact stops_blank_append hb (stops_cons (by decide))
  | field hg =>
    rw [List.append_assoc]
    exact hg.stops _

theorem ItemsText.stops (h : ItemsText false leaves cs) (rest : List Char) :
    Stops (cs ++ rest) := by
  cases h with
  | close hb =>
    rw [List.append_assoc]
    exact stops_blank_append hb (stops_cons (by decide))
  | item hg =>
    rw [List.append_assoc]
    exact hg.stops _

theorem FieldsText.length_lt (h : FieldsText first fields cs) : fields.length < cs.length := by
  induction h with
  | close => simp
  | field _ _ _ _ _ _ ih =>
    simp only [List.length_cons, List.length_append]
    omega

/-! What the reader steps over to the next part. -/

theorem nextKey_close (hb : Blank b) (rest : List Char) :
    nextKey first (b ++ '\x7d' :: rest) = .ok (none, rest) := by
  rw [nextKey, skipBlank_append_cons hb (by decide)]
  rfl

theorem nextKey_gap {key : String} (hg : Gap first g) (hw : Spells w key.toList)
    (rest : List Char) :
    nextKey first (g ++ '"' :: (w ++ '"' :: rest)) = .ok (some key, rest) := by
  have h : nextKey.key (w ++ '"' :: rest) = .ok (some key, rest) := by
    rw [nextKey.key, readString_of_spells hw]
    simp [Except.map]
  cases hg with
  | first hb =>
    rw [nextKey, skipBlank_append_cons hb (by decide)]
    exact h
  | next hb hc =>
    rw [nextKey, List.append_assoc, List.cons_append,
      skipBlank_append_cons hb (by decide)]
    simp only [skipBlank_append_cons hc (show isBlank '"' = false by decide)]
    exact h

theorem nextItem_close (hb : Blank b) (rest : List Char) :
    nextItem first (b ++ ']' :: rest) = .error .mismatch := by
  rw [nextItem, skipBlank_append_cons hb (by decide)]
  rfl

theorem nextItem_gap (hg : Gap first g) (hv : LeafText leaf v) (rest : List Char) :
    nextItem first (g ++ (v ++ rest)) = .ok (v ++ rest) := by
  obtain ⟨d, w, rfl, hd, hclose⟩ := exists_cons_of_leafText hv
  rw [nextItem, List.cons_append]
  cases hg with
  | first hb =>
    rw [skipBlank_append_cons hb hd]
    simp only [hclose, if_true, if_false]
  | next hb hc =>
    rw [List.append_assoc, List.cons_append, skipBlank_append_cons hb (by decide)]
    simp only [skipBlank_append_cons hc hd]
    split <;> simp_all

theorem lastItem_close (hb : Blank b) (rest : List Char) :
    lastItem (b ++ ']' :: rest) = .ok rest := by
  rw [lastItem, skipBlank_append_cons hb (by decide)]
  rfl

theorem lastItem_gap (hg : Gap first g) (hv : LeafText leaf v) (rest : List Char) :
    lastItem (g ++ (v ++ rest)) = .error .malformed := by
  obtain ⟨d, w, rfl, hd, hclose⟩ := exists_cons_of_leafText hv
  rw [lastItem]
  cases hg with
  | first hb =>
    rw [List.cons_append, skipBlank_append_cons hb hd]
    split <;> simp_all
  | next hb hc =>
    rw [List.append_assoc, List.cons_append, skipBlank_append_cons hb (by decide)]
    rfl

/-! Fields and items by themselves. -/

theorem readCell_leaf {t : FieldType} (hv : LeafText leaf v) (hr : Stops rest)
    (h : skipBlank cs = v ++ rest) {x : Cell} {ds : List Char} :
    readCell t cs = .ok (x, ds) ↔ t.Takes leaf x ∧ rest = ds := by
  have hword (limit : Nat) (hlimit : limit ≤ Numeral.maxWord) :
      Read.mapValue .word (readNat limit cs) = .ok (x, ds) ↔
        ∃ n : Nat, n ≤ limit ∧ leaf = .integer n ∧ Cell.word n = x ∧ rest = ds := by
    simp only [Read.mapValue_eq_ok_iff, readNat_leaf hlimit hv hr h]
    grind
  cases t with
  | word32 =>
    rw [readCell, hword _ (by decide)]
    cases x <;> grind [FieldType.Takes, FieldType.Holds, Cell.leaf]
  | word64 =>
    rw [readCell, hword _ (by decide)]
    cases x <;> grind [FieldType.Takes, FieldType.Holds, Cell.leaf]
  | flag =>
    rw [readCell, Read.mapValue_eq_ok_iff]
    simp only [readBool_leaf hv h]
    cases x <;> grind [FieldType.Takes, FieldType.Holds, Cell.leaf]

def Cell.ofLeaf? : Leaf → Option Cell
  | .integer (.ofNat n) => some (.word n)
  | .bool b => some (.flag b)
  | _ => none

theorem Cell.ofLeaf?_eq_some_iff {x : Cell} : ofLeaf? leaf = some x ↔ x.leaf = leaf := by
  constructor
  · intro h
    unfold ofLeaf? at h
    split at h <;> cases h <;> rfl
  · rintro rfl
    cases x <;> rfl

def FieldType.take (t : FieldType) (leaf : Leaf) : Except ReadError Cell :=
  match Cell.ofLeaf? leaf with
  | some x => if t.Holds x then .ok x else .error .mismatch
  | none => .error .mismatch

theorem FieldType.take_eq_ok_iff {t : FieldType} {x : Cell} :
    t.take leaf = .ok x ↔ t.Takes leaf x := by
  rw [take, Takes, ← Cell.ofLeaf?_eq_some_iff]
  cases Cell.ofLeaf? leaf with
  | none => simp
  | some y =>
    split <;> grind

def takeItems : List Field → List Leaf → Except ReadError (List Cell)
  | [], [] => .ok []
  | f :: fields, leaf :: leaves => do
    let x ← f.type.take leaf
    return x :: (← takeItems fields leaves)
  | _, _ => .error .mismatch

theorem takeItems_cons {f : Field} {fields : List Field} {xs : List Cell} :
    takeItems (f :: fields) (leaf :: leaves) = .ok xs ↔
      ∃ x, f.type.Takes leaf x ∧ ∃ ys, takeItems fields leaves = .ok ys ∧ x :: ys = xs := by
  simp only [takeItems, except_bind_eq_ok_iff, FieldType.take_eq_ok_iff, pure, Except.pure,
    Except.ok.injEq]

namespace Record

variable {α : Type} {R : Record α} {a : α}

theorem field?_of_mem {f : Field} (hf : f ∈ R.fields) : R.field? f.key = some f := by
  have hnodup := R.nodup_keys
  rw [field?]
  generalize R.fields = fields at hf hnodup
  induction fields with
  | nil => cases hf
  | cons g fields ih =>
    rw [List.map_cons, List.nodup_cons] at hnodup
    obtain rfl | hf := List.mem_cons.mp hf
    · simp
    · have hkey : g.key ≠ f.key := fun hkey => hnodup.1 (List.mem_map.mpr ⟨f, hf, hkey.symm⟩)
      simp [hkey, ih hf hnodup.2]

theorem field?_eq_none {key : String} (hkey : key ∉ R.keys) : R.field? key = none := by
  rw [field?, List.find?_eq_none]
  intro f hf h
  exact hkey (List.mem_map.mpr ⟨f, hf, of_decide_eq_true h⟩)

theorem ofCells_eq_ok_iff {xs : List Cell} : R.ofCells xs = .ok a ↔ R.cells a = xs := by
  rw [← R.ofCells?_eq_some_iff, ofCells]
  cases R.ofCells? xs <;> simp

theorem mapM_eq_some_iff {fields : List Field} {s : Slots} {xs : List Cell}
    (hlength : xs.length = fields.length) :
    (fields.mapM fun f => s f.key) = some xs ↔ ∀ p ∈ fields.zip xs, s p.1.key = some p.2 := by
  induction fields generalizing xs with
  | nil =>
    cases xs with
    | nil => simp
    | cons x xs => cases hlength
  | cons f fields ih =>
    cases xs with
    | nil => cases hlength
    | cons x xs =>
      rw [List.zip_cons_cons, List.forall_mem_cons, ← ih (Nat.succ.inj hlength)]
      simp [Option.bind_eq_some_iff]

theorem ofSlots_eq_ok_iff {s : Slots} :
    R.ofSlots s = .ok a ↔ ∀ p ∈ R.entries a, s p.1.key = some p.2 := by
  rw [entries, ← mapM_eq_some_iff (R.length_cells a), ofSlots]
  cases R.fields.mapM fun f => s f.key with
  | none => simp
  | some xs =>
    rw [Option.elim_some, ofCells_eq_ok_iff, Option.some.injEq]
    exact eq_comm

def takeEntry (R : Record α) (s : Slots) (key : String) (leaf : Leaf) : Except ReadError Slots :=
  match R.field? key with
  | none => .ok s
  | some f => if (s key).isSome then .error .mismatch else (f.type.take leaf).map (s.set key)

section Entry

variable {key : String} {f : Field} {s s' : Slots}

theorem takeEntry_skip (h : R.field? key = none) : R.takeEntry s key leaf = .ok s := by
  rw [takeEntry, h]

theorem takeEntry_twice {x : Cell} (hf : R.field? key = some f) (hs : s key = some x) :
    R.takeEntry s key leaf = .error .mismatch := by
  simp only [takeEntry, hf, hs, Option.isSome_some, if_true]

theorem takeEntry_eq_ok_iff (hf : R.field? key = some f) (hs : s key = none) :
    R.takeEntry s key leaf = .ok s' ↔ ∃ x, f.type.Takes leaf x ∧ s.set key x = s' := by
  simp only [takeEntry, hf, hs, Option.isSome_none, Bool.false_eq_true, if_false,
    ← FieldType.take_eq_ok_iff]
  cases f.type.take leaf <;> simp [Except.map]

end Entry

end Record

/-- The running reader and writer. -/
def Codec.scanner : Codec where
  Error := ReadError
  write R a := (R.toJson a).compact
  read R := R.read
  entry R := R.takeEntry
  build R := R.ofSlots
  items := takeItems

theorem Codec.scanner_read {α : Type} (R : Record α) (text : String) :
    scanner.read R text = R.read text := rfl

theorem Codec.scanner_write {α : Type} (R : Record α) (a : α) :
    scanner.write R a = (R.toJson a).compact := rfl

theorem then_atEnd_eq_ok_iff {α : Type} {a : α} {r : Except ReadError (α × List Char)} :
    (do let p ← r; atEnd p.2; pure p.1) = Except.ok a ↔
      ∃ rest, r = .ok (a, rest) ∧ atEnd rest = .ok () := by
  simp only [except_bind_eq_ok_iff]
  constructor
  · rintro ⟨⟨b, rest⟩, hr, ⟨⟩, hend, h⟩
    cases h
    exact ⟨rest, hr, hend⟩
  · rintro ⟨rest, hr, hend⟩
    exact ⟨_, hr, (), hend, rfl⟩

theorem exists_atEnd_iff (hc : Blank c) {P : Prop} :
    (∃ rest, (P ∧ c = rest) ∧ atEnd rest = .ok ()) ↔ P := by
  constructor
  · rintro ⟨rest, ⟨h, -⟩, -⟩
    exact h
  · intro h
    exact ⟨c, ⟨h, rfl⟩, atEnd_blank hc⟩

namespace Record

variable {α : Type} {R : Record α} {a : α} {s : Slots} {fuel : Nat}

/-! Objects. -/

theorem readKeys_end (h : nextKey first cs = .ok (none, tail)) :
    R.readKeys (fuel + 1) first s cs = .ok (a, rest) ↔ R.ofSlots s = .ok a ∧ tail = rest := by
  rw [readKeys, h, except_ok_bind]
  simp only [except_bind_eq_ok_iff, pure, Except.pure, Except.ok.injEq, Prod.mk.injEq]
  constructor
  · rintro ⟨b, hb, rfl, rfl⟩
    exact ⟨hb, rfl⟩
  · rintro ⟨ha, rfl⟩
    exact ⟨a, ha, rfl, rfl⟩

theorem readKeys_skip {key : String} (h : nextKey first cs = .ok (some key, tail))
    (hkey : R.field? key = none) :
    R.readKeys (fuel + 1) first s cs =
      colon tail >>= fun ds => skipValue ds >>= fun es => R.readKeys fuel false s es := by
  rw [readKeys, h, except_ok_bind]
  simp only [hkey]

theorem readKeys_field {key : String} (h : nextKey first cs = .ok (some key, tail)) {f : Field}
    (hf : R.field? key = some f) :
    R.readKeys (fuel + 1) first s cs =
      if (s key).isSome then .error .mismatch
      else colon tail >>= fun ds => readCell f.type ds >>= fun (x, es) =>
        R.readKeys fuel false (s.set key x) es := by
  rw [readKeys, h, except_ok_bind]
  simp only [hf]
  split <;> rfl

theorem readKeys_fields (h : FieldsText first fields cs) (hfuel : fields.length < fuel) :
    R.readKeys fuel first s (cs ++ tail) = .ok (a, rest) ↔
      Codec.scanner.readFields R s fields = .ok a ∧ tail = rest := by
  -- One field of the text is one round of the reader.
  induction h generalizing fuel s with
  | close hb =>
    obtain _ | fuel := fuel
    · cases hfuel
    rw [List.append_assoc, List.singleton_append, readKeys_end (nextKey_close hb tail)]
    rfl
  | @field first key leaf fields g w b c v cs hg hw hb hc hv h ih =>
    obtain _ | fuel := fuel
    · cases hfuel
    have hlen : fields.length < fuel := Nat.lt_of_succ_lt_succ hfuel
    have hskip := skipBlank_leaf hc hv (cs ++ tail)
    have hr := h.stops tail
    have hkey := nextKey_gap hg hw (b ++ ':' :: (c ++ (v ++ (cs ++ tail))))
    simp only [List.append_assoc, List.cons_append]
    rw [Codec.readFields_cons_eq_ok_iff]
    change _ ↔ (∃ s', R.takeEntry s key leaf = .ok s' ∧ _) ∧ _
    cases hf : R.field? key with
    | none =>
      rw [readKeys_skip hkey hf, colon_append hb, except_ok_bind, skipValue_leaf hc hv hr,
        except_ok_bind]
      simp only [takeEntry_skip hf, Except.ok.injEq, exists_eq_left']
      exact ih hlen
    | some f =>
      rw [readKeys_field hkey hf, colon_append hb, except_ok_bind]
      cases hs : s key with
      | some x => simp [takeEntry_twice hf hs]
      | none =>
        simp only [Option.isSome_none, Bool.false_eq_true, if_false, except_bind_eq_ok_iff,
          takeEntry_eq_ok_iff hf hs]
        constructor
        · rintro ⟨⟨x, es⟩, hx, hrest⟩
          obtain ⟨htakes, rfl⟩ := (readCell_leaf hv hr hskip).mp hx
          obtain ⟨hfields, htail⟩ := (ih hlen).mp hrest
          exact ⟨⟨_, ⟨x, htakes, rfl⟩, hfields⟩, htail⟩
        · rintro ⟨⟨_, ⟨x, htakes, rfl⟩, hfields⟩, htail⟩
          exact ⟨(x, _), (readCell_leaf hv hr hskip).mpr ⟨htakes, rfl⟩,
            (ih hlen).mpr ⟨hfields, htail⟩⟩

theorem read_brace {text : String} (h : skipBlank text.toList = '\x7b' :: cs) :
    R.read text = .ok a ↔
      ∃ rest, R.readKeys cs.length true .empty cs = .ok (a, rest) ∧ atEnd rest = .ok () := by
  simp only [read, h]
  exact then_atEnd_eq_ok_iff

theorem read_bracket {text : String} (h : skipBlank text.toList = '[' :: cs) :
    R.read text = .ok a ↔ ∃ rest, R.readArray cs = .ok (a, rest) ∧ atEnd rest = .ok () := by
  simp only [read, h]
  exact then_atEnd_eq_ok_iff

theorem read_objectText {text : String} (h : ObjectText fields text) :
    R.read text = .ok a ↔ Codec.scanner.readFields R .empty fields = .ok a := by
  obtain @⟨b, cs, c, hb, h, hc, ht⟩ := h
  have hskip : skipBlank text.toList = '\x7b' :: (cs ++ c) := by
    rw [ht, skipBlank_append_cons hb (by decide)]
  have hfuel : fields.length < (cs ++ c).length := by
    rw [List.length_append]
    exact Nat.lt_add_right _ h.length_lt
  simp only [read_brace hskip, readKeys_fields h hfuel]
  exact exists_atEnd_iff hc

/-! Arrays. -/

theorem readItems_items {fields : List Field} {xs : List Cell} (h : ItemsText first leaves cs) :
    readItems first fields (cs ++ tail) = .ok (xs, rest) ↔
      takeItems fields leaves = .ok xs ∧ tail = rest := by
  induction fields generalizing first leaves cs xs with
  | nil =>
    cases h with
    | close hb =>
      rw [List.append_assoc, readItems, List.singleton_append, lastItem_close hb]
      simp [takeItems, Except.map]
    | item hg hv h =>
      rw [List.append_assoc, List.append_assoc, readItems, lastItem_gap hg hv]
      simp [takeItems, Except.map]
  | cons f fields ih =>
    cases h with
    | close hb =>
      rw [List.append_assoc, readItems, List.singleton_append, nextItem_close hb]
      simp [takeItems, bind, Except.bind]
    | @item _ leaf leaves g v cs hg hv h =>
      have hskip := skipBlank_leaf blank_nil hv (cs ++ tail)
      have hr := h.stops tail
      rw [List.append_assoc, List.append_assoc, readItems, nextItem_gap hg hv, except_ok_bind,
        takeItems_cons]
      simp only [except_bind_eq_ok_iff, pure, Except.pure, Except.ok.injEq, Prod.mk.injEq]
      constructor
      · rintro ⟨⟨x, es⟩, hx, ⟨ys, fs⟩, hys, rfl, rfl⟩
        obtain ⟨htakes, rfl⟩ := (readCell_leaf hv hr hskip).mp hx
        obtain ⟨hitems, htail⟩ := (ih h).mp hys
        exact ⟨⟨x, htakes, ys, hitems, rfl⟩, htail⟩
      · rintro ⟨⟨x, htakes, ys, hitems, rfl⟩, htail⟩
        exact ⟨(x, _), (readCell_leaf hv hr hskip).mpr ⟨htakes, rfl⟩, (ys, _),
          (ih h).mpr ⟨hitems, htail⟩, rfl, rfl⟩

theorem readArray_eq_ok_iff :
    R.readArray cs = .ok (a, rest) ↔ readItems true R.fields cs = .ok (R.cells a, rest) := by
  simp only [readArray, except_bind_eq_ok_iff, ofCells_eq_ok_iff, pure, Except.pure,
    Except.ok.injEq, Prod.mk.injEq]
  constructor
  · rintro ⟨⟨_, _⟩, h, _, rfl, rfl, rfl⟩
    exact h
  · intro h
    exact ⟨_, h, a, rfl, rfl, rfl⟩

theorem read_arrayText {text : String} (h : ArrayText leaves text) :
    R.read text = .ok a ↔ takeItems R.fields leaves = .ok (R.cells a) := by
  obtain @⟨b, cs, c, hb, h, hc, ht⟩ := h
  have hskip : skipBlank text.toList = '[' :: (cs ++ c) := by
    rw [ht, skipBlank_append_cons hb (by decide)]
  simp only [read_bracket hskip, readArray_eq_ok_iff, readItems_items h]
  exact exists_atEnd_iff hc

end Record

theorem Codec.scanner_lawful : scanner.Lawful where
  write_text R a := objectText_compact R a
  read_object h := Record.read_objectText h
  read_array h := Record.read_arrayText h
  entry_unknown hkey _ _ := Record.takeEntry_skip (Record.field?_eq_none hkey)
  entry_known hf _ _ hs _ := Record.takeEntry_eq_ok_iff (Record.field?_of_mem hf) hs
  entry_twice hkey _ _ hs _ := by
    obtain ⟨f, hf, rfl⟩ := List.mem_map.mp hkey
    exact ⟨_, Record.takeEntry_twice (Record.field?_of_mem hf) hs⟩
  build_eq_ok_iff := Record.ofSlots_eq_ok_iff
  items_nil := rfl
  items_extra _ _ := ⟨_, rfl⟩
  items_missing _ _ := ⟨_, rfl⟩
  items_cons := takeItems_cons

end CodegenTypes.Json
