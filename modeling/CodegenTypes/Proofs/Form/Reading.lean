import CodegenTypes.Proofs.Form.Derived
import CodegenTypes.Proofs.Form.Name

namespace CodegenTypes

namespace Spelling

/-- A vector's element goes on where the digits end, and starts no vector itself. -/
def StartsElement (rest : String) : Prop :=
  ∃ ch cs, rest.toList = ch :: cs ∧ ch.isDigit = false ∧ ch ≠ 'v' ∧ ch ≠ 'n'

variable {t e : String} {n : UInt32} {c : Lanes}

theorem ofLanes_eq_vector_iff {b : Bool} :
    ofLanes b t = .vector c e ↔
      c.scalable = b ∧ c.fitsVector ∧ t = Decimal.text c.min.toNat ++ e ∧ StartsElement e := by
  constructor
  · fun_cases ofLanes b t with
    | case5 digits element hsplit n hn hnil hv hx =>
      intro h
      cases h
      obtain ⟨hn0, hd⟩ := Decimal.count?_eq_some_iff.mp hn
      obtain ⟨ch, ds, hds⟩ := List.exists_cons_of_ne_nil hnil
      rw [Decimal.splitDigits_eq] at hsplit
      obtain ⟨rfl, rfl⟩ := Prod.mk.inj hsplit
      refine ⟨rfl, ?_, ?_, ch, ds, hds, ?_, ?_, ?_⟩
      · rw [Lanes.fitsVector_iff]
        exact Decimal.toNat_pos hn0
      · rw [String.toList_inj.mp hd, ← String.ofList_append, List.takeWhile_append_dropWhile,
          String.ofList_toList]
      · have hhead := List.head?_dropWhile_not Char.isDigit t.toList
        rw [String.toList_ofList] at hds
        simpa only [hds, List.head?_cons] using hhead
      · rintro rfl
        exact hv ds hds
      · rintro rfl
        exact hx ds hds
    | _ => nofun
  · rintro ⟨rfl, hc, rfl, ch, cs, he, hd, hv, hn⟩
    exact ofLanes_append (Lanes.min_ne_zero hc) c.scalable he hd hv hn

theorem ofLanes_cases (b : Bool) (t : String) :
    (∃ c e, ofLanes b t = .vector c e) ∨ ofLanes b t = .unknown := by
  fun_cases ofLanes b t with
  | case5 => exact .inl ⟨_, _, rfl⟩
  | _ => exact .inr rfl

theorem ofChars_eq_integer_iff :
    ofChars t.toList = .integer n ↔ n ≠ 0 ∧ t = "i" ++ Decimal.text n.toNat := by
  have ht : t = "i" ++ Decimal.text n.toNat ↔ t.toList = 'i' :: (Decimal.text n.toNat).toList := by
    rw [← String.toList_inj, String.toList_append]
    rfl
  have hl : ∀ b rest, ofLanes b rest ≠ .integer n := by
    intro b rest h
    rcases ofLanes_cases b rest with ⟨c, e, hv⟩ | hu
    · cases hv.symm.trans h
    · cases hu.symm.trans h
  rw [ht]
  generalize t.toList = cs
  constructor
  · fun_cases ofChars cs with
    | case1 digits bits hn =>
      intro h
      cases h
      obtain ⟨hn0, hd⟩ := Decimal.count?_eq_some_iff.mp hn
      exact ⟨hn0, by rw [hd]⟩
    | case3 cs => exact fun h => absurd h (hl true (String.ofList cs))
    | case4 cs => exact fun h => absurd h (hl false (String.ofList cs))
    | _ => nofun
  · rintro ⟨hn, rfl⟩
    rw [ofChars, Decimal.count?_eq_some_iff.mpr ⟨hn, rfl⟩]

theorem ofChars_eq_vector_iff :
    ofChars t.toList = .vector c e ↔ c.fitsVector ∧ t = c.spell e ∧ StartsElement e := by
  constructor
  · rw [← String.toList_inj, Lanes.toList_spell]
    generalize t.toList = cs
    fun_cases ofChars cs with
    | case3 cs | case4 cs =>
      intro h
      obtain ⟨hb, hc, hcs, he⟩ := ofLanes_eq_vector_iff.mp h
      rw [← String.toList_inj, String.toList_append, String.toList_ofList,
        Decimal.toList_text] at hcs
      exact ⟨hc, by rw [hb, hcs]; rfl, he⟩
    | _ => nofun
  · rintro ⟨hc, rfl, he⟩
    rw [ofChars_spell_eq]
    exact ofLanes_eq_vector_iff.mpr ⟨rfl, hc, rfl, he⟩

theorem ofChars_cases (cs : List Char) :
    (∃ n, ofChars cs = .integer n) ∨ (∃ c e, ofChars cs = .vector c e) ∨ ofChars cs = .unknown := by
  fun_cases ofChars cs with
  | case1 => exact .inl ⟨_, rfl⟩
  | case3 cs => exact .inr (ofLanes_cases true (String.ofList cs))
  | case4 cs => exact .inr (ofLanes_cases false (String.ofList cs))
  | _ => exact .inr (.inr rfl)

theorem ofString_cases (t : String) :
    (∃ m, ofString t = .canonical m ∧ m ≠ .invalid ∧ m.name = t) ∨
      (∃ bits, ofString t = .integer bits ∧ t = "i" ++ Decimal.text bits.toNat) ∨
      (∃ c element, ofString t = .vector c element ∧ c.fitsVector ∧ t = c.spell element) ∨
      ofString t = .unknown := by
  rw [ofString]
  split
  · next m hm => exact .inl ⟨m, rfl, MachineType.ofName?_eq_some_iff.mp hm⟩
  · rcases ofChars_cases t.toList with ⟨bits, h⟩ | ⟨c, element, h⟩ | h
    · exact .inr (.inl ⟨bits, h, (ofChars_eq_integer_iff.mp h).2⟩)
    · obtain ⟨hc, ht, -⟩ := ofChars_eq_vector_iff.mp h
      exact .inr (.inr (.inl ⟨c, element, h, hc, ht⟩))
    · exact .inr (.inr (.inr h))

end Spelling

namespace Form

def readElement (text : String) : Except ValueTypeError Form :=
  match Spelling.ofString text with
  | .canonical m => .ok m.form
  | .integer bits => integer bits
  | .vector _ _ | .unknown => .error (.unknownName text)

def read (text : String) : Except ValueTypeError Form :=
  match Spelling.ofString text with
  | .canonical m => .ok m.form
  | .integer bits => integer bits
  | .vector lanes element => do
    let F ← readElement element
    F.lanesOf lanes
  | .unknown => .error (.unknownName text)

variable {F : Form} {t : String}

theorem integer_of_inRange {bits : UInt32} (hb : IRType.InRange bits) :
    integer bits = .ok (.number (.integer bits hb)) := dif_pos hb

theorem readElement_name (e : Element) : readElement e.name = .ok (.number e) := by
  have hs := ofString_name (show Form.number e ≠ .invalid from nofun)
  rw [readElement, show e.name = (Form.number e).name from rfl, hs]
  cases hm : (Form.number e).machine? with
  | some m => rw [← machine?_eq_some_iff.mp hm]
  | none =>
    cases e with
    | integer bits hb => exact integer_of_inRange hb
    | float f => rw [machine?_number] at hm; cases hm

theorem read_name (hF : F ≠ .invalid) : read F.name = .ok F := by
  rw [read, ofString_name hF]
  cases hm : F.machine? with
  | some m => rw [← machine?_eq_some_iff.mp hm]
  | none =>
    cases F with
    | invalid => exact absurd rfl hF
    | mark k hk => rw [machine?_mark] at hm; cases hm
    | number e =>
      cases e with
      | integer bits hb => exact integer_of_inRange hb
      | float f => rw [machine?_number] at hm; cases hm
    | vector e c hc =>
      change (readElement e.name >>= fun F => F.lanesOf c) = _
      rw [readElement_name]
      exact lanesOf_number hc

theorem name_of_integer {bits : UInt32} (h : integer bits = .ok F) :
    F.name = "i" ++ Decimal.text bits.toNat := by
  rw [integer] at h
  split at h
  · cases h; rfl
  · cases h

theorem name_of_lanesOf {G : Form} {c : Lanes} (h : F.lanesOf c = .ok G) :
    G.name = c.spell F.name := by
  cases F with
  | number e =>
    rw [lanesOf] at h
    split at h
    · cases h; rfl
    · cases h
  | _ => cases h

theorem name_of_readElement (h : readElement t = .ok F) : F.name = t := by
  rw [readElement] at h
  rcases Spelling.ofString_cases t with
    ⟨m, hs, -, hm⟩ | ⟨bits, hs, ht⟩ | ⟨c, element, hs, -, -⟩ | hs
  · rw [hs] at h
    cases h
    rw [m.name_form, hm]
  · rw [hs] at h
    rw [name_of_integer h, ht]
  · rw [hs] at h
    cases h
  · rw [hs] at h
    cases h

theorem read_eq_readElement (h : ∀ c element, Spelling.ofString t ≠ .vector c element) :
    read t = readElement t := by
  rw [read, readElement]
  cases hs : Spelling.ofString t with
  | vector c element => exact absurd hs (h c element)
  | _ => rfl

theorem name_of_read (h : read t = .ok F) : F.name = t := by
  by_cases hv : ∃ c element, Spelling.ofString t = .vector c element
  · obtain ⟨c, element, hs⟩ := hv
    have ht : t = c.spell element := by
      rcases Spelling.ofString_cases t with ⟨m, hm, -⟩ | ⟨bits, hb, -⟩ | ⟨d, e, hd, -, ht⟩ | hu
      · cases hs.symm.trans hm
      · cases hs.symm.trans hb
      · cases hs.symm.trans hd
        exact ht
      · cases hs.symm.trans hu
    rw [read, hs] at h
    change (readElement element >>= fun G => G.lanesOf c) = _ at h
    cases he : readElement element with
    | error e => rw [he] at h; cases h
    | ok G =>
      rw [he] at h
      rw [name_of_lanesOf h, name_of_readElement he, ht]
  · push Not at hv
    rw [read_eq_readElement hv] at h
    exact name_of_readElement h

end Form

end CodegenTypes
