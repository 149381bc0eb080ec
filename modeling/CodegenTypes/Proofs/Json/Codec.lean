import CodegenTypes.Proofs.Except
import CodegenTypes.Proofs.Json.Text

/-! A record is read from an object field by field, and from an array item by item.  What is assumed
of a reader and a writer is what they do with one field or one item; what a whole text is read as
follows from it. -/

namespace CodegenTypes.Json

def valuesOf (name : String) (fields : List (String × Leaf)) : List Leaf :=
  (fields.filter (·.1 = name)).map (·.2)

@[simp] theorem valuesOf_nil (name : String) : valuesOf name [] = [] := rfl

@[simp] theorem valuesOf_cons_self (name : String) (leaf : Leaf) (fields : List (String × Leaf)) :
    valuesOf name ((name, leaf) :: fields) = leaf :: valuesOf name fields := by
  simp [valuesOf]

theorem valuesOf_cons_of_ne {name key : String} (h : key ≠ name) (leaf : Leaf)
    (fields : List (String × Leaf)) :
    valuesOf name ((key, leaf) :: fields) = valuesOf name fields := by
  simp [valuesOf, h]

theorem mem_valuesOf {name : String} {leaf : Leaf} {fields : List (String × Leaf)}
    (h : (name, leaf) ∈ fields) : leaf ∈ valuesOf name fields :=
  List.mem_map.mpr ⟨(name, leaf), List.mem_filter.mpr ⟨h, decide_eq_true rfl⟩, rfl⟩

theorem valuesOf_eq_singleton {name : String} {leaf : Leaf} {fields : List (String × Leaf)}
    (hnodup : (fields.map (·.1)).Nodup) (h : (name, leaf) ∈ fields) :
    valuesOf name fields = [leaf] := by
  induction fields with
  | nil => cases h
  | cons field fields ih =>
    rw [List.map_cons, List.nodup_cons] at hnodup
    obtain rfl | h := List.mem_cons.mp h
    · have hnone : valuesOf name fields = [] := by
        rw [valuesOf, List.filter_eq_nil_iff.mpr, List.map_nil]
        rintro other hother hkey
        exact hnodup.1 (List.mem_map.mpr ⟨other, hother, of_decide_eq_true hkey⟩)
      rw [valuesOf_cons_self, hnone]
    · have hne : field.1 ≠ name := fun hkey => hnodup.1 (List.mem_map.mpr ⟨_, h, hkey.symm⟩)
      rw [valuesOf_cons_of_ne hne, ih hnodup.2 h]

theorem Cell.leaf_injective : Function.Injective Cell.leaf := by
  intro x y h
  cases x <;> cases y <;> cases h <;> rfl

def FieldType.Takes (t : FieldType) (leaf : Leaf) (x : Cell) : Prop := t.Holds x ∧ x.leaf = leaf

namespace Record

variable {α : Type} (R : Record α)

def keys : List String := R.fields.map Field.key

variable {R} {a : α}

theorem mem_keys_of_mem_entries {p : Field × Cell} (h : p ∈ R.entries a) : p.1.key ∈ R.keys :=
  List.mem_map_of_mem (List.of_mem_zip h).1

theorem exists_mem_entries {f : Field} (a : α) (hf : f ∈ R.fields) : ∃ x, (f, x) ∈ R.entries a := by
  obtain ⟨i, hi, rfl⟩ := List.mem_iff_getElem.mp hf
  have hcells : i < (R.cells a).length := by rwa [R.length_cells]
  exact ⟨(R.cells a)[i], List.mem_iff_getElem.mpr
    ⟨i, by rw [entries, List.length_zip]; omega, List.getElem_zip⟩⟩

theorem map_fst_leaves (a : α) : (R.leaves a).map (·.1) = R.keys := by
  rw [keys, ← List.map_fst_zip (Nat.le_of_eq (R.length_cells a).symm), leaves, List.map_map,
    List.map_map]
  rfl

theorem valuesOf_leaves {p : Field × Cell} (h : p ∈ R.entries a) :
    valuesOf p.1.key (R.leaves a) = [p.2.leaf] :=
  valuesOf_eq_singleton (R.map_fst_leaves a ▸ R.nodup_keys) (List.mem_map.mpr ⟨p, h, rfl⟩)

end Record

/-- A reader and a writer of records, with what the reader makes of a field, of the fields that it
has read, and of the items of an array. -/
structure Codec where
  Error : Type
  write {α : Type} (R : Record α) (a : α) : String
  read {α : Type} (R : Record α) (text : String) : Except Error α
  entry {α : Type} (R : Record α) (s : Slots) (key : String) (leaf : Leaf) : Except Error Slots
  build {α : Type} (R : Record α) (s : Slots) : Except Error α
  items (fields : List Field) (leaves : List Leaf) : Except Error (List Cell)

namespace Codec

variable (C : Codec)

def readFields {α : Type} (R : Record α) (s : Slots) (fields : List (String × Leaf)) :
    Except C.Error α :=
  fields.foldlM (fun s p => C.entry R s p.1 p.2) s >>= C.build R

variable {C} in
theorem readFields_cons_eq_ok_iff {α : Type} {R : Record α} {a : α} {s : Slots} {key : String}
    {leaf : Leaf} {fields : List (String × Leaf)} :
    C.readFields R s ((key, leaf) :: fields) = .ok a ↔
      ∃ s', C.entry R s key leaf = .ok s' ∧ C.readFields R s' fields = .ok a := by
  rw [readFields, List.foldlM_cons, bind_assoc, except_bind_eq_ok_iff]
  rfl

structure Lawful : Prop where
  /-- The fields are written in the order of their declaration. -/
  write_text {α : Type} (R : Record α) (a : α) : ObjectText (R.leaves a) (C.write R a)
  /-- Blanks and the way that characters are escaped do not matter. -/
  read_object {α : Type} {R : Record α} {fields : List (String × Leaf)} {text : String}
    (h : ObjectText fields text) {a : α} :
    C.read R text = .ok a ↔ C.readFields R .empty fields = .ok a
  read_array {α : Type} {R : Record α} {leaves : List Leaf} {text : String}
    (h : ArrayText leaves text) {a : α} :
    C.read R text = .ok a ↔ C.items R.fields leaves = .ok (R.cells a)
  /-- What is not declared is passed over. -/
  entry_unknown {α : Type} {R : Record α} {key : String} (hkey : key ∉ R.keys) (s : Slots)
    (leaf : Leaf) : C.entry R s key leaf = .ok s
  /-- A word is taken up to its width, and nothing is converted. -/
  entry_known {α : Type} {R : Record α} {f : Field} (hf : f ∈ R.fields) {s s' : Slots}
    (hs : s f.key = none) {leaf : Leaf} :
    C.entry R s f.key leaf = .ok s' ↔ ∃ x, f.type.Takes leaf x ∧ s.set f.key x = s'
  /-- No field may come twice. -/
  entry_twice {α : Type} {R : Record α} {key : String} (hkey : key ∈ R.keys) {s : Slots} {x : Cell}
    (hs : s key = some x) (leaf : Leaf) : ∃ e, C.entry R s key leaf = .error e
  /-- No field may be missing. -/
  build_eq_ok_iff {α : Type} {R : Record α} {s : Slots} {a : α} :
    C.build R s = .ok a ↔ ∀ p ∈ R.entries a, s p.1.key = some p.2
  /-- The items of an array are the fields by position, neither more nor fewer. -/
  items_nil : C.items [] [] = .ok []
  items_extra (leaf : Leaf) (leaves : List Leaf) : ∃ e, C.items [] (leaf :: leaves) = .error e
  items_missing (f : Field) (fields : List Field) : ∃ e, C.items (f :: fields) [] = .error e
  items_cons {f : Field} {fields : List Field} {leaf : Leaf} {leaves : List Leaf} {xs : List Cell} :
    C.items (f :: fields) (leaf :: leaves) = .ok xs ↔
      ∃ x, f.type.Takes leaf x ∧ ∃ ys, C.items fields leaves = .ok ys ∧ x :: ys = xs

end Codec

/-- What has been read of a field, and what is still to come. -/
def gathered (s : Slots) (fields : List (String × Leaf)) (name : String) : List Leaf :=
  (s name).toList.map Cell.leaf ++ valuesOf name fields

section Gathered

variable {s : Slots} {fields : List (String × Leaf)} {name key : String} {x : Cell} {leaf : Leaf}

theorem gathered_nil_eq_iff : gathered s [] name = [x.leaf] ↔ s name = some x := by
  rw [gathered, valuesOf_nil, List.append_nil]
  cases s name with
  | none => simp
  | some y => simp [Cell.leaf_injective.eq_iff]

theorem gathered_empty : gathered .empty fields name = valuesOf name fields := rfl

theorem gathered_cons_of_ne (h : key ≠ name) :
    gathered s ((key, leaf) :: fields) name = gathered s fields name := by
  rw [gathered, valuesOf_cons_of_ne h, gathered]

theorem gathered_cons_ne_singleton {y : Leaf} (hs : s key = some x) :
    gathered s ((key, leaf) :: fields) key ≠ [y] := by
  rw [gathered, valuesOf_cons_self, hs]
  simp

theorem gathered_cons_self (hs : s key = none) :
    gathered s ((key, leaf) :: fields) key = leaf :: valuesOf key fields := by
  rw [gathered, valuesOf_cons_self, hs]
  rfl

theorem gathered_set (hs : s key = none) :
    gathered (s.set key x) fields name = gathered s ((key, x.leaf) :: fields) name := by
  by_cases h : key = name
  · subst h
    rw [gathered_cons_self hs, gathered, Slots.set, if_pos rfl]
    rfl
  · rw [gathered_cons_of_ne h, gathered, Slots.set, if_neg (Ne.symm h), gathered]

end Gathered

namespace Codec.Lawful

variable {C : Codec} (hC : C.Lawful) {α : Type} {R : Record α} {a : α}
include hC

theorem readFields_eq_ok_iff {s : Slots} {fields : List (String × Leaf)} :
    C.readFields R s fields = .ok a ↔
      ∀ p ∈ R.entries a, gathered s fields p.1.key = [p.2.leaf] := by
  induction fields generalizing s with
  | nil =>
    simp only [gathered_nil_eq_iff]
    exact hC.build_eq_ok_iff
  | cons field fields ih =>
    obtain ⟨key, leaf⟩ := field
    rw [readFields_cons_eq_ok_iff]
    by_cases hkey : key ∈ R.keys
    · obtain ⟨f, hf, rfl⟩ := List.mem_map.mp hkey
      obtain ⟨x, hx⟩ := R.exists_mem_entries a hf
      cases hs : s f.key with
      | some y =>
        obtain ⟨e, he⟩ := hC.entry_twice hkey hs leaf
        constructor
        · rintro ⟨s', hs', -⟩
          cases he.symm.trans hs'
        · intro h
          exact absurd (h _ hx) (gathered_cons_ne_singleton hs)
      | none =>
        constructor
        · rintro ⟨s', hs', hrest⟩
          obtain ⟨y, ⟨-, rfl⟩, rfl⟩ := (hC.entry_known hf hs).mp hs'
          intro p hp
          rw [← gathered_set hs]
          exact ih.mp hrest p hp
        · intro h
          have hleaf := h _ hx
          rw [gathered_cons_self hs] at hleaf
          obtain ⟨rfl, -⟩ := List.cons.inj hleaf
          refine ⟨_, (hC.entry_known hf hs).mpr ⟨x, ⟨R.holds a _ hx, rfl⟩, rfl⟩, ih.mpr ?_⟩
          intro p hp
          rw [gathered_set hs]
          exact h p hp
    · simp only [hC.entry_unknown hkey, Except.ok.injEq, exists_eq_left', ih]
      refine forall₂_congr fun p hp => ?_
      have hne : key ≠ p.1.key := by
        rintro rfl
        exact hkey (Record.mem_keys_of_mem_entries hp)
      rw [gathered_cons_of_ne hne]

theorem items_eq_ok_iff {fields : List Field} {leaves : List Leaf} {xs : List Cell} :
    C.items fields leaves = .ok xs ↔
      xs.length = fields.length ∧ (∀ p ∈ fields.zip xs, p.1.type.Holds p.2) ∧
        xs.map Cell.leaf = leaves := by
  induction fields generalizing leaves xs with
  | nil =>
    cases leaves with
    | nil => simp [hC.items_nil, eq_comm (a := [])]
    | cons leaf leaves =>
      obtain ⟨e, he⟩ := hC.items_extra leaf leaves
      rw [he]
      simp +contextual
  | cons f fields ih =>
    cases leaves with
    | nil =>
      obtain ⟨e, he⟩ := hC.items_missing f fields
      rw [he]
      constructor
      · intro h
        cases h
      · rintro ⟨hlength, -, hnil⟩
        rw [List.map_eq_nil_iff.mp hnil] at hlength
        cases hlength
    | cons leaf leaves =>
      rw [hC.items_cons]
      constructor
      · rintro ⟨x, ⟨hx, rfl⟩, ys, hys, rfl⟩
        obtain ⟨hlength, hholds, rfl⟩ := ih.mp hys
        exact ⟨congrArg (· + 1) hlength, List.forall_mem_cons.mpr ⟨hx, hholds⟩, rfl⟩
      · rintro ⟨hlength, hholds, hleaves⟩
        cases xs with
        | nil => cases hlength
        | cons x ys =>
          obtain ⟨rfl, rfl⟩ := List.cons.inj hleaves
          obtain ⟨hx, hholds⟩ := List.forall_mem_cons.mp hholds
          exact ⟨x, ⟨hx, rfl⟩, ys, ih.mpr ⟨Nat.succ.inj hlength, hholds, rfl⟩, rfl⟩

theorem read_objectText {fields : List (String × Leaf)} {text : String}
    (h : ObjectText fields text) :
    C.read R text = .ok a ↔ ∀ p ∈ R.entries a, valuesOf p.1.key fields = [p.2.leaf] := by
  rw [hC.read_object h, hC.readFields_eq_ok_iff]
  simp only [gathered_empty]

theorem read_arrayText {leaves : List Leaf} {text : String} (h : ArrayText leaves text) :
    C.read R text = .ok a ↔ leaves = (R.cells a).map Cell.leaf := by
  rw [hC.read_array h, hC.items_eq_ok_iff]
  exact ⟨fun h => h.2.2.symm, fun h => ⟨R.length_cells a, R.holds a, h.symm⟩⟩

theorem read_write (R : Record α) (a : α) : C.read R (C.write R a) = .ok a :=
  (hC.read_objectText (hC.write_text R a)).mpr fun _ hp => Record.valuesOf_leaves hp

end Codec.Lawful

end CodegenTypes.Json
