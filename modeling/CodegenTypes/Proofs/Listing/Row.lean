import CodegenTypes.Listing
import CodegenTypes.Proofs.Form.IRText

namespace CodegenTypes

def Legible (cs : List Char) : Prop := ∀ c ∈ cs, c = ' ' ∨ c.isAlphanum

instance (cs : List Char) : Decidable (Legible cs) :=
  List.decidableBAll _ cs

namespace Legible

variable {cs ds : List Char}

theorem append (hc : Legible cs) (hd : Legible ds) : Legible (cs ++ ds) := by
  intro c h
  rcases List.mem_append.mp h with h | h
  · exact hc c h
  · exact hd c h

theorem blanks (n : Nat) : Legible (List.replicate n ' ') := fun _ h =>
  .inl (List.eq_of_mem_replicate h)

theorem toDigits (n : Nat) : Legible (Nat.toDigits 10 n) := by
  intro c h
  right
  rw [Char.isAlphanum, Nat.isDigit_of_mem_toDigits (by decide) (by decide) h, Bool.or_true]

theorem notMem_newline (h : Legible cs) : '\n' ∉ cs := by
  intro hn
  rcases h _ hn with h | h
  · cases h
  · exact absurd h (by decide)

theorem ne_escape (h : Legible cs) : ∀ c ∈ cs, c ≠ '\x1b' := by
  rintro c hc rfl
  rcases h _ hc with h | h
  · cases h
  · exact absurd h (by decide)

end Legible

theorem Scalar.legible_name (k : Scalar) : Legible k.name.toList := by cases k <;> decide

theorem MachineType.legible_name (m : MachineType) : Legible m.name.toList := by
  rw [name_eq]
  cases m.shape with
  | invalid => decide
  | scalar k => exact k.legible_name
  | vector k c =>
    rw [Shape.name, Lanes.toList_spell]
    refine .append (.append ?_ (.toDigits _)) k.legible_name
    cases c.scalable <;> decide

theorem Lanes.legible_display (c : Lanes) : Legible c.display.toList := by
  rw [toList_display]
  refine .append ?_ (.toDigits _)
  cases c.scalable <;> decide

namespace Listing

variable {m : MachineType} {types : List MachineType} {names : Nat}

/-! Widths.  No index has more than three digits. -/

theorem le_widest {widths : List Nat} {w : Nat} (h : w ∈ widths) : w ≤ widest widths := by
  induction widths with
  | nil => cases h
  | cons v widths ih =>
    rcases List.mem_cons.mp h with rfl | h
    · exact Nat.le_max_left ..
    · exact Nat.le_trans (ih h) (Nat.le_max_right ..)

theorem widest_le {widths : List Nat} {b : Nat} (h : ∀ w ∈ widths, w ≤ b) : widest widths ≤ b := by
  induction widths with
  | nil => exact Nat.zero_le b
  | cons v widths ih =>
    exact Nat.max_le.mpr ⟨h v List.mem_cons_self, ih fun w hw => h w (List.mem_cons_of_mem v hw)⟩

theorem indexWidth_eq (types : List MachineType) : indexWidth types = 3 := by
  have hle : widest (types.map fun m => m.index.val) ≤ 144 := by
    apply widest_le
    intro w hw
    obtain ⟨m, -, rfl⟩ := List.mem_map.mp hw
    exact Nat.le_of_lt_succ m.index.isLt
  have hlen : (Decimal.text (widest (types.map fun m => m.index.val))).length ≤ 3 := by
    rw [← String.length_toList, Decimal.toList_text,
      Nat.length_toDigits_le_iff (by decide) (by decide)]
    omega
  exact Nat.max_eq_left hlen

def threeDigits (n : Nat) : String :=
  String.ofList [Nat.digitChar (n / 100), Nat.digitChar (n / 10 % 10), Nat.digitChar (n % 10)]

theorem toList_padLeft_text (c : Char) (width n : Nat) :
    (padLeft c width (Decimal.text n)).toList =
      List.replicate (width - (Nat.toDigits 10 n).length) c ++ Nat.toDigits 10 n := by
  rw [padLeft, ← String.length_toList, Decimal.toList_text, String.toList_append,
    String.toList_ofList, Decimal.toList_text]

theorem toList_padLeft_succ (width n : Nat) :
    (padLeft '0' (width + 2) (Decimal.text n)).toList =
      (padLeft '0' (width + 1) (Decimal.text (n / 10))).toList ++ [Nat.digitChar (n % 10)] := by
  rw [toList_padLeft_text, toList_padLeft_text, List.append_assoc]
  by_cases h : n < 10
  · rw [Nat.div_eq_of_lt h, Nat.mod_eq_of_lt h, Nat.toDigits_of_lt_base h, Nat.toDigits_zero]
    change List.replicate (width + 1) '0' ++ _ = List.replicate width '0' ++ (['0'] ++ _)
    rw [List.replicate_succ', List.append_assoc]
  · have hn : Nat.toDigits 10 n = Nat.toDigits 10 (n / 10) ++ [Nat.digitChar (n % 10)] := by
      rw [Nat.toDigits_eq_if (by decide), if_neg h]
    rw [hn, List.length_append, List.length_singleton]
    congr 2
    omega

theorem padLeft_text {n : Nat} (hn : n < 1000) :
    padLeft '0' 3 (Decimal.text n) = threeDigits n := by
  have h₁ : n / 10 / 10 < 10 := by omega
  rw [← String.toList_inj, toList_padLeft_succ, toList_padLeft_succ, toList_padLeft_text,
    Nat.toDigits_of_lt_base h₁, Nat.div_div_eq_div_mul, threeDigits, String.toList_ofList]
  rfl

theorem length_padRight {width : Nat} {s : String} (h : s.length ≤ width) :
    (padRight width s).length = width := by
  rw [padRight, String.length_append, String.length_ofList, List.length_replicate]
  omega

theorem legible_padRight {s : String} (h : Legible s.toList) (width : Nat) :
    Legible (padRight width s).toList := by
  rw [padRight, String.toList_append, String.toList_ofList]
  exact h.append (.blanks _)

@[simp] theorem length_threeDigits (n : Nat) : (threeDigits n).length = 3 := by
  rw [threeDigits, String.length_ofList]
  rfl

theorem index_lt (m : MachineType) : m.index.val < 1000 := Nat.lt_trans m.index.isLt (by decide)

theorem legible_threeDigits {n : Nat} (hn : n < 1000) : Legible (threeDigits n).toList := by
  rw [← padLeft_text hn, toList_padLeft_text]
  refine .append (fun c hc => ?_) (.toDigits n)
  rw [List.eq_of_mem_replicate hc]
  decide

/-! Columns.  A line without colours is its columns one after the other. -/

/-- The word stands in the line from the offset on. -/
def At (l : String) (offset : Nat) (word : String) : Prop :=
  ∃ before after, l = before ++ (word ++ after) ∧ before.length = offset

/-- What a listing says of an entry, in columns that other lines may share. -/
structure Row (classAt lanesAt : Nat) (m : MachineType) (l : String) : Prop where
  newline : '\n' ∉ l.toList
  /-- So it ends in no blank. -/
  last : ∃ c, l.toList.getLast? = some c ∧ c.isAlphanum
  index : At l 0 (threeDigits m.index ++ "  ")
  name : At l 5 m.name
  numberClass : At l classAt ("  " ++ m.numberClass.name)
  lanes : ∀ c, m.lanes? = some c → At l lanesAt ("  " ++ c.display)

/-! Trimming.  It takes the padding off a class that nothing follows, and nothing else. -/

theorem trimEnd_append_blanks (s : String) (n : Nat) :
    trimEnd (s ++ String.ofList (List.replicate n ' ')) = trimEnd s := by
  have hblanks : ∀ c ∈ List.replicate n ' ', isSpace c := by
    intro c hc
    rw [List.eq_of_mem_replicate hc]
    decide
  rw [trimEnd, trimEnd, String.toList_append, String.toList_ofList, List.reverse_append,
    List.reverse_replicate, List.dropWhile_append_of_pos hblanks]

theorem trimEnd_of_last {s : String} (h : ∃ c, s.toList.getLast? = some c ∧ isSpace c = false) :
    trimEnd s = s := by
  obtain ⟨c, hc, hspace⟩ := h
  obtain ⟨cs, hcs⟩ := List.getLast?_eq_some_iff.mp hc
  rw [trimEnd, hcs, List.reverse_append, List.reverse_singleton, List.singleton_append,
    List.dropWhile_cons_of_neg (by simp [hspace]), List.reverse_cons, List.reverse_reverse, ← hcs,
    String.ofList_toList]

theorem isSpace_of_isAlphanum {c : Char} (h : c.isAlphanum) : isSpace c = false := by
  delta Char.isAlphanum Char.isAlpha Char.isUpper Char.isLower Char.isDigit at h
  simp only [Bool.or_eq_true, Bool.and_eq_true, decide_eq_true_eq, ge_iff_le,
    UInt32.le_iff_toNat_le, UInt32.reduceToNat, Char.reduceVal] at h
  simp only [isSpace, Bool.or_eq_false_iff, Bool.and_eq_false_iff, decide_eq_false_iff_not,
    Char.toNat]
  omega

theorem exists_last_append {P : Char → Prop} {xs ys : List Char}
    (h : ∃ c, ys.getLast? = some c ∧ P c) : ∃ c, (xs ++ ys).getLast? = some c ∧ P c := by
  obtain ⟨c, hc, hP⟩ := h
  exact ⟨c, by rw [List.getLast?_append, hc, Option.some_or], hP⟩

theorem exists_last_toDigits (n : Nat) :
    ∃ c, (Nat.toDigits 10 n).getLast? = some c ∧ c.isAlphanum := by
  refine ⟨_, List.getLast?_eq_some_getLast Nat.toDigits_ne_nil, ?_⟩
  have hd := Nat.isDigit_of_mem_toDigits (b := 10) (n := n) (by decide) (by decide)
    (List.getLast_mem Nat.toDigits_ne_nil)
  rw [Char.isAlphanum, hd, Bool.or_true]

theorem exists_last_display (c : Lanes) :
    ∃ x, c.display.toList.getLast? = some x ∧ x.isAlphanum := by
  rw [c.toList_display]
  exact exists_last_append (exists_last_toDigits _)

theorem exists_last_numberClass (c : NumberClass) :
    ∃ x, c.name.toList.getLast? = some x ∧ x.isAlphanum := by
  cases c <;> exact ⟨_, rfl, by decide⟩

theorem lanesCell_fixed {c : Lanes} (p : Palette) (hc : c.scalable = false) :
    lanesCell p c = c.display := by
  simp [lanesCell, hc]

theorem lanesCell_scalable {c : Lanes} (p : Palette) (hc : c.scalable) :
    lanesCell p c = p.scalable ++ c.display ++ (if p.scalable.isEmpty then "" else p.reset) := by
  simp [lanesCell, hc]

theorem lanesCell_off (c : Lanes) : lanesCell .off c = c.display := by
  cases hc : c.scalable with
  | false => exact lanesCell_fixed .off hc
  | true =>
    rw [lanesCell_scalable .off hc]
    simp [Palette.off]

/-- The last column as it is when the line has been trimmed. -/
def classCells (p : Palette) (m : MachineType) : String :=
  match m.lanes? with
  | some c => padRight 5 m.numberClass.name ++ "  " ++ lanesCell p c
  | none => m.numberClass.name

section Trim

variable {p : Palette} (hp : ∀ c ∈ p.reset.toList.getLast?, isSpace c = false)
include hp

theorem exists_last_lanesCell (c : Lanes) :
    ∃ x, (lanesCell p c).toList.getLast? = some x ∧ isSpace x = false := by
  obtain ⟨x, hx, hxa⟩ := exists_last_display c
  have hdisplay : ∃ x, c.display.toList.getLast? = some x ∧ isSpace x = false :=
    ⟨x, hx, isSpace_of_isAlphanum hxa⟩
  cases hc : c.scalable with
  | false => rwa [lanesCell_fixed p hc]
  | true =>
    rw [lanesCell_scalable p hc, String.append_assoc, String.toList_append]
    apply exists_last_append
    split
    · rwa [String.append_empty]
    · cases hr : p.reset.toList.getLast? with
      | none =>
        rwa [String.toList_eq_nil_iff.mp (List.getLast?_eq_none_iff.mp hr), String.append_empty]
      | some y =>
        rw [String.toList_append]
        exact exists_last_append ⟨y, hr, hp y hr⟩

theorem line_eq (indices names : Nat) (m : MachineType) :
    line p indices names m =
      p.dim ++ padLeft '0' indices (Decimal.text m.index) ++ p.reset ++ "  " ++
        p.name ++ padRight names m.name ++ p.reset ++ "  " ++ classCells p m := by
  rw [line, lanesCells, classCells]
  generalize p.dim ++ padLeft '0' indices (Decimal.text m.index) ++ p.reset ++ "  " ++
    p.name ++ padRight names m.name ++ p.reset ++ "  " = front
  cases m.lanes? with
  | some c =>
    simp only [String.append_assoc]
    apply trimEnd_of_last
    simp only [String.toList_append]
    exact exists_last_append (exists_last_append (exists_last_append (exists_last_lanesCell hp c)))
  | none =>
    rw [padRight, String.append_empty, ← String.append_assoc, trimEnd_append_blanks]
    apply trimEnd_of_last
    obtain ⟨x, hx, hxa⟩ := exists_last_numberClass m.numberClass
    rw [String.toList_append]
    exact exists_last_append ⟨x, hx, isSpace_of_isAlphanum hxa⟩

end Trim

theorem line_off (names : Nat) (m : MachineType) :
    line .off 3 names m =
      threeDigits m.index ++ ("  " ++ (padRight names m.name ++ ("  " ++ classCells .off m))) := by
  rw [line_eq (by simp [Palette.off]), padLeft_text (index_lt m)]
  simp [Palette.off, String.append_assoc]

theorem classCells_off_of_lanes? {c : Lanes} (h : m.lanes? = some c) :
    classCells .off m = padRight 5 m.numberClass.name ++ ("  " ++ c.display) := by
  simp only [classCells, h, lanesCell_off, String.append_assoc]

theorem classCells_of_lanes?_none (p : Palette) (h : m.lanes? = none) :
    classCells p m = m.numberClass.name := by
  rw [classCells, h]

theorem exists_classCells (p : Palette) (m : MachineType) :
    ∃ rest, classCells p m = m.numberClass.name ++ rest := by
  cases h : m.lanes? with
  | none => exact ⟨"", by rw [classCells_of_lanes?_none p h, String.append_empty]⟩
  | some c => exact ⟨_, by simp only [classCells, h, padRight, String.append_assoc]; rfl⟩

theorem length_numberClass_name (c : NumberClass) : c.name.length ≤ 5 := by cases c <;> decide

theorem legible_numberClass_name (c : NumberClass) : Legible c.name.toList := by
  cases c <;> decide

theorem legible_classCells (m : MachineType) : Legible (classCells .off m).toList := by
  cases h : m.lanes? with
  | none =>
    rw [classCells_of_lanes?_none _ h]
    exact legible_numberClass_name _
  | some c =>
    rw [classCells_off_of_lanes? h, String.toList_append, String.toList_append]
    exact (legible_padRight (legible_numberClass_name _) 5).append
      (.append (by decide) c.legible_display)

theorem legible_line (names : Nat) (m : MachineType) : Legible (line .off 3 names m).toList := by
  rw [line_off]
  simp only [String.toList_append]
  exact (legible_threeDigits (index_lt m)).append (.append (by decide)
    (.append (legible_padRight m.legible_name names)
      (.append (by decide) (legible_classCells m))))

theorem exists_last_classCells (m : MachineType) :
    ∃ c, (classCells .off m).toList.getLast? = some c ∧ c.isAlphanum := by
  cases h : m.lanes? with
  | none =>
    rw [classCells_of_lanes?_none _ h]
    exact exists_last_numberClass _
  | some c =>
    rw [classCells_off_of_lanes? h]
    simp only [String.toList_append]
    exact exists_last_append (exists_last_append (exists_last_display c))

theorem row_line (h : m.name.length ≤ names) :
    Row (5 + names) (12 + names) m (line .off 3 names m) where
  newline := (legible_line names m).notMem_newline
  last := by
    rw [line_off]
    simp only [String.toList_append]
    exact exists_last_append (exists_last_append (exists_last_append (exists_last_append
      (exists_last_classCells m))))
  index := ⟨"", _, by rw [line_off, String.empty_append, String.append_assoc], rfl⟩
  name := by
    refine ⟨threeDigits m.index ++ "  ",
      String.ofList (List.replicate (names - m.name.length) ' ') ++ ("  " ++ classCells .off m),
      ?_, ?_⟩
    · rw [line_off, padRight]
      simp only [String.append_assoc]
    · rw [String.length_append, length_threeDigits]
      rfl
  numberClass := by
    obtain ⟨rest, hrest⟩ := exists_classCells .off m
    refine ⟨threeDigits m.index ++ ("  " ++ padRight names m.name), rest, ?_, ?_⟩
    · rw [line_off, hrest]
      simp only [String.append_assoc]
    · rw [String.length_append, String.length_append, length_threeDigits, length_padRight h]
      change 3 + (2 + names) = 5 + names
      omega
  lanes := by
    intro c hc
    refine ⟨threeDigits m.index ++ ("  " ++ (padRight names m.name ++ ("  " ++
      padRight 5 m.numberClass.name))), "", ?_, ?_⟩
    · rw [line_off, classCells_off_of_lanes? hc, String.append_empty]
      simp only [String.append_assoc]
    · simp only [String.length_append, length_threeDigits, length_padRight h,
        length_padRight (length_numberClass_name _)]
      change 3 + (2 + (names + (2 + 5))) = 12 + names
      omega

end Listing

end CodegenTypes
