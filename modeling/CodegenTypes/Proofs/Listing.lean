import CodegenTypes.Proofs.Listing.Row
import Mathlib.Data.List.Forall2

namespace CodegenTypes

namespace Listing

/-! Lines are told apart, and the entry of a line by its index. -/

def lines (p : Palette) (types : List MachineType) : List String :=
  types.map fun m => line p 3 (nameWidth types) m

theorem table_eq (p : Palette) (types : List MachineType) :
    table p types = String.join ((lines p types).map (· ++ "\n")) := by
  rw [table, indexWidth_eq, lines, List.map_map]
  rfl

theorem rows_lines (types : List MachineType) :
    List.Forall₂ (Row (5 + nameWidth types) (12 + nameWidth types)) types (lines .off types) := by
  rw [lines, List.forall₂_map_right_iff, List.forall₂_same]
  intro m hm
  exact row_line (le_widest (List.mem_map_of_mem hm))

theorem append_newline_inj {cs ds xs ys : List Char} (hc : '\n' ∉ cs) (hd : '\n' ∉ ds)
    (h : cs ++ '\n' :: xs = ds ++ '\n' :: ys) : cs = ds ∧ xs = ys := by
  have key : ∀ {l zs : List Char}, '\n' ∉ l →
      (l ++ '\n' :: zs).takeWhile (· ≠ '\n') = l := by
    intro l zs hl
    rw [List.takeWhile_append_of_pos fun c hcl => decide_eq_true (ne_of_mem_of_not_mem hcl hl)]
    simp
  have heq := congrArg (List.takeWhile (· ≠ '\n')) h
  rw [key hc, key hd] at heq
  subst heq
  exact ⟨rfl, (List.cons.inj (List.append_cancel_left h)).2⟩

theorem join_lines_inj {ls ms : List String} (hl : ∀ l ∈ ls, '\n' ∉ l.toList)
    (hm : ∀ l ∈ ms, '\n' ∉ l.toList)
    (h : String.join (ls.map (· ++ "\n")) = String.join (ms.map (· ++ "\n"))) : ls = ms := by
  have toList_join : ∀ l : String, ∀ ls : List String,
      (String.join ((l :: ls).map (· ++ "\n"))).toList =
        l.toList ++ '\n' :: (String.join (ls.map (· ++ "\n"))).toList := by
    intro l ls
    simp [String.toList_join, String.toList_append]
  induction ls generalizing ms with
  | nil =>
    cases ms with
    | nil => rfl
    | cons m ms =>
      have := congrArg String.toList h
      rw [toList_join] at this
      simp at this
  | cons l ls ih =>
    cases ms with
    | nil =>
      have := congrArg String.toList h
      rw [toList_join] at this
      simp at this
    | cons m ms =>
      have := congrArg String.toList h
      rw [toList_join, toList_join] at this
      obtain ⟨hhead, htail⟩ := append_newline_inj (hl l List.mem_cons_self)
        (hm m List.mem_cons_self) this
      rw [String.toList_inj.mp hhead, ih (fun l hl' => hl l (List.mem_cons_of_mem _ hl'))
        (fun l hm' => hm l (List.mem_cons_of_mem _ hm')) (String.toList_inj.mp htail)]

def indexOf (l : String) : Nat := Nat.ofDigitChars 10 (l.toList.take 3) 0

theorem indexOf_line (names : Nat) (m : MachineType) : indexOf (line .off 3 names m) = m.index := by
  have htake : (line .off 3 names m).toList.take 3 = (threeDigits m.index).toList := by
    rw [line_off, String.toList_append]
    exact List.take_left' (by rw [String.length_toList, length_threeDigits])
  rw [indexOf, htake, ← padLeft_text (index_lt m), toList_padLeft_text, Nat.ofDigitChars_append,
    Nat.ofDigitChars_replicate_zero, Nat.mul_zero, Nat.ofDigitChars_ten_toDigits]

theorem table_injective : Function.Injective (table .off) := by
  intro ts us h
  rw [table_eq, table_eq] at h
  have hlines : ∀ types, ∀ l ∈ lines .off types, '\n' ∉ l.toList := by
    intro types l hl
    obtain ⟨m, -, rfl⟩ := List.mem_map.mp hl
    exact (legible_line _ m).notMem_newline
  have hmap := congrArg (List.map indexOf) (join_lines_inj (hlines ts) (hlines us) h)
  rw [lines, lines, List.map_map, List.map_map] at hmap
  simp only [Function.comp_def, indexOf_line] at hmap
  have hinj : Function.Injective fun m : MachineType => m.index.val := by
    intro m n hmn
    cases m
    cases n
    exact congrArg MachineType.mk (Fin.ext hmn)
  exact List.map_injective_iff.mpr hinj hmap

/-! Colours.  They are deleted from a text by reading it once, from left to right. -/

/-- The text without the words.  `skip` is how much is left of the word that is being deleted. -/
def deleteWords (words : List (List Char)) : Nat → List Char → List Char
  | _, [] => []
  | skip + 1, _ :: cs => deleteWords words skip cs
  | 0, c :: cs =>
    match words.find? fun w => !w.isEmpty && w.isPrefixOf (c :: cs) with
    | some w => deleteWords words (w.length - 1) cs
    | none => c :: deleteWords words 0 cs

end Listing

namespace Palette

def sequences (p : Palette) : List (List Char) :=
  [p.name.toList, p.scalable.toList, p.dim.toList, p.reset.toList]

def erase (p : Palette) (text : String) : String :=
  String.ofList (Listing.deleteWords p.sequences 0 text.toList)

/-- Without its colours a text that starts with `s` starts with `t`. -/
def Shows (s t : String) : Prop :=
  ∀ rest, Listing.deleteWords on.sequences 0 (s.toList ++ rest) =
    t.toList ++ Listing.deleteWords on.sequences 0 rest

namespace Shows

variable {s s' t t' : String}

theorem append (h : Shows s t) (h' : Shows s' t') : Shows (s ++ s') (t ++ t') := by
  intro rest
  rw [String.toList_append, String.toList_append, List.append_assoc, h, h', List.append_assoc]

theorem of_ne_escape (h : ∀ c ∈ s.toList, c ≠ '\x1b') : Shows s s := by
  intro rest
  generalize s.toList = cs at h
  induction cs with
  | nil => rfl
  | cons c cs ih =>
    have hc : '\x1b' ≠ c := (h c List.mem_cons_self).symm
    have hnone : (on.sequences.find? fun w => !w.isEmpty && w.isPrefixOf (c :: (cs ++ rest))) =
        none := by
      simp [sequences, on, hc]
    rw [List.cons_append, Listing.deleteWords, hnone]
    exact congrArg (c :: ·) (ih fun d hd => h d (List.mem_cons_of_mem c hd))

theorem of_legible (h : Legible s.toList) : Shows s s := of_ne_escape h.ne_escape

theorem name : Shows on.name "" := fun _ => rfl

theorem scalable : Shows on.scalable "" := fun _ => rfl

theorem dim : Shows on.dim "" := fun _ => rfl

theorem reset : Shows on.reset "" := fun _ => rfl

theorem join {α : Type} {f g : α → String} (h : ∀ a, Shows (f a) (g a)) (as : List α) :
    Shows (String.join (as.map f)) (String.join (as.map g)) := by
  induction as with
  | nil => exact fun _ => rfl
  | cons a as ih =>
    rw [List.map_cons, List.map_cons, String.join_cons, String.join_cons]
    exact (h a).append ih

theorem erase_eq (h : Shows s t) : on.erase s = t := by
  have := h []
  rw [List.append_nil, Listing.deleteWords, List.append_nil] at this
  rw [erase, this, String.ofList_toList]

end Shows

end Palette

namespace Listing

open Palette (Shows)

theorem shows_classCells (m : MachineType) : Shows (classCells .on m) (classCells .off m) := by
  have hclass := legible_numberClass_name m.numberClass
  cases h : m.lanes? with
  | none =>
    rw [classCells_of_lanes?_none _ h, classCells_of_lanes?_none _ h]
    exact .of_legible hclass
  | some c =>
    have hdisplay : Shows c.display c.display := .of_legible c.legible_display
    have hlanes : Shows (lanesCell .on c) (lanesCell .off c) := by
      rw [lanesCell_off]
      cases hc : c.scalable with
      | true =>
        rw [lanesCell_scalable .on hc, if_neg (by simp [Palette.on])]
        simpa using (Shows.scalable.append hdisplay).append .reset
      | false => rwa [lanesCell_fixed .on hc]
    simp only [classCells, h]
    exact ((Shows.of_legible (legible_padRight hclass 5)).append (.of_legible (by decide))).append
      hlanes

theorem shows_line (names : Nat) (m : MachineType) :
    Shows (line .on 3 names m) (line .off 3 names m) := by
  rw [line_eq (by simp [Palette.on, isSpace]), line_eq (by simp [Palette.off])]
  have hindex := legible_threeDigits (index_lt m)
  rw [← padLeft_text (index_lt m)] at hindex
  have hname := legible_padRight m.legible_name names
  have hgap : Shows "  " "  " := .of_legible (by decide)
  have indexCells := (Shows.dim.append (.of_legible hindex)).append .reset
  have nameCells := ((indexCells.append hgap).append .name).append (.of_legible hname)
  exact ((nameCells.append .reset).append hgap).append (shows_classCells m)

theorem shows_table (types : List MachineType) : Shows (table .on types) (table .off types) := by
  rw [table, table, indexWidth_eq]
  exact .join (fun m => (shows_line _ m).append (.of_ne_escape (by simp))) types

/-- The entries of a listing have a line each, in their order and in common columns, and can be
told from it.  Without its colours it is the plain listing. -/
theorem table_faithful (types : List MachineType) :
    (∃ ls classAt lanesAt, table .off types = String.join (ls.map (· ++ "\n")) ∧
      List.Forall₂ (Row classAt lanesAt) types ls) ∧
    (∀ us, table .off us = table .off types → us = types) ∧
    Palette.on.erase (table .on types) = table .off types :=
  ⟨⟨lines .off types, _, _, table_eq .off types, rows_lines types⟩,
    fun _ h => table_injective h, (shows_table types).erase_eq⟩

end Listing

end CodegenTypes
