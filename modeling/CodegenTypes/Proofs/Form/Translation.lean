import CodegenTypes.Proofs.Form.Grammar
import CodegenTypes.Proofs.Form.IRText

namespace CodegenTypes.Grammar

def floatWords : List (String × String) :=
  [("f16", "half"), ("bf16", "bfloat"), ("f32", "float"), ("f64", "double"), ("f80", "x86_fp80"),
    ("f128", "fp128"), ("ppcf128", "ppc_fp128")]

def markWords : List (String × String) :=
  [("isvoid", "void"), ("token", "token"), ("metadata", "metadata")]

inductive TranslatesElement : String → String → Prop
  | integer {n : Nat} (h₁ : 1 ≤ n) (h₂ : n ≤ 2 ^ 24) :
      TranslatesElement ("i" ++ Decimal.text n) ("i" ++ Decimal.text n)
  | float {t ir : String} (h : (t, ir) ∈ floatWords) : TranslatesElement t ir

inductive Translates : String → String → Prop
  | element {t ir : String} (h : TranslatesElement t ir) : Translates t ir
  | mark {t ir : String} (h : (t, ir) ∈ markWords) : Translates t ir
  | fixed {m : Nat} {e ir : String} (h₁ : 1 ≤ m) (h₂ : m < 2 ^ 32) (he : TranslatesElement e ir) :
      Translates ("v" ++ Decimal.text m ++ e) ("<" ++ Decimal.text m ++ " x " ++ ir ++ ">")
  | scalable {m : Nat} {e ir : String} (h₁ : 1 ≤ m) (h₂ : m < 2 ^ 32)
      (he : TranslatesElement e ir) :
      Translates ("nxv" ++ Decimal.text m ++ e)
        ("<vscale x " ++ Decimal.text m ++ " x " ++ ir ++ ">")

variable {t u ir ir' : String}

theorem mem_floatWords_iff :
    (t, ir) ∈ floatWords ↔ ∃ f : FloatFormat, (Scalar.ofFormat f).name = t ∧ f.name = ir := by
  constructor
  · intro h
    simp only [floatWords, List.mem_cons, Prod.mk.injEq, List.not_mem_nil, or_false] at h
    rcases h with ⟨rfl, rfl⟩ | ⟨rfl, rfl⟩ | ⟨rfl, rfl⟩ | ⟨rfl, rfl⟩ | ⟨rfl, rfl⟩ | ⟨rfl, rfl⟩ |
      ⟨rfl, rfl⟩
    · exact ⟨.half, rfl, rfl⟩
    · exact ⟨.bfloat, rfl, rfl⟩
    · exact ⟨.single, rfl, rfl⟩
    · exact ⟨.double, rfl, rfl⟩
    · exact ⟨.x87, rfl, rfl⟩
    · exact ⟨.quad, rfl, rfl⟩
    · exact ⟨.doublePair, rfl, rfl⟩
  · rintro ⟨f, rfl, rfl⟩
    cases f <;> decide

theorem mem_markWords_iff :
    (t, ir) ∈ markWords ↔ ∃ k : Scalar, k.element? = none ∧ k.name = t ∧ k.word? = some ir := by
  constructor
  · intro h
    simp only [markWords, List.mem_cons, Prod.mk.injEq, List.not_mem_nil, or_false] at h
    obtain ⟨rfl, rfl⟩ | ⟨rfl, rfl⟩ | ⟨rfl, rfl⟩ := h
    · exact ⟨.isVoid, rfl, rfl, rfl⟩
    · exact ⟨.token, rfl, rfl, rfl⟩
    · exact ⟨.metadata, rfl, rfl, rfl⟩
  · rintro ⟨k, -, rfl, h⟩
    rcases Scalar.word?_cases h with ⟨rfl, rfl⟩ | ⟨rfl, rfl⟩ | ⟨rfl, rfl⟩ <;> decide

theorem translatesElement_iff :
    TranslatesElement t ir ↔ ∃ e : Element, e.name = t ∧ e.irText = ir := by
  constructor
  · intro h
    cases h with
    | integer h₁ h₂ =>
      obtain ⟨bits, hb, rfl⟩ := exists_inRange h₁ h₂
      exact ⟨.integer bits hb, rfl, rfl⟩
    | float h =>
      obtain ⟨f, rfl, rfl⟩ := mem_floatWords_iff.mp h
      exact ⟨.float f, rfl, rfl⟩
  · rintro ⟨e, rfl, rfl⟩
    cases e with
    | integer bits hb => exact .integer hb.1 hb.2
    | float f => exact .float (mem_floatWords_iff.mpr ⟨f, rfl, rfl⟩)

theorem append_vscale (text : String) :
    "<" ++ ("vscale x " ++ text) = "<vscale x " ++ text := by
  rw [← String.append_assoc]
  rfl

theorem exists_form_of_lanes {e : Element} {m : Nat} (h₁ : 1 ≤ m) (h₂ : m < 2 ^ 32) (b : Bool) :
    ∃ F : Form, F.name = (if b then "nxv" else "v") ++ Decimal.text m ++ e.name ∧
      F.irText? = some ("<" ++ ((if b then "vscale x " else "") ++ Decimal.text m) ++ " x " ++
        e.irText ++ ">") := by
  have hm : (UInt32.ofNat m).toNat = m := UInt32.toNat_ofNat_of_lt' h₂
  have hc : (Lanes.mk (.ofNat m) b).fitsVector := by
    rw [Lanes.fitsVector_iff, hm]
    exact h₁
  refine ⟨.vector e ⟨.ofNat m, b⟩ hc, ?_, ?_⟩
  · rw [Form.name, Lanes.spell, hm]
  · rw [Form.irText?, Lanes.display, hm]

theorem translates_vector {c : Lanes} (hc : c.fitsVector) (e : Element) :
    Translates (c.spell e.name) ("<" ++ c.display ++ " x " ++ e.irText ++ ">") := by
  have h₁ := Lanes.fitsVector_iff.mp hc
  have he : TranslatesElement e.name e.irText := translatesElement_iff.mpr ⟨e, rfl, rfl⟩
  obtain ⟨m, b⟩ := c
  cases b with
  | false => simpa [Lanes.spell, Lanes.display] using Translates.fixed h₁ m.toNat_lt he
  | true =>
    rw [Lanes.display, if_pos rfl, append_vscale]
    exact .scalable h₁ m.toNat_lt he

theorem translates_iff :
    Translates t ir ↔ ∃ F : Form, F.name = t ∧ F.irText? = some ir := by
  constructor
  · intro h
    cases h with
    | element h =>
      obtain ⟨e, rfl, rfl⟩ := translatesElement_iff.mp h
      exact ⟨.number e, rfl, rfl⟩
    | mark h =>
      obtain ⟨k, hk, rfl, hw⟩ := mem_markWords_iff.mp h
      exact ⟨.mark k hk, rfl, hw⟩
    | fixed h₁ h₂ he =>
      obtain ⟨e, rfl, rfl⟩ := translatesElement_iff.mp he
      obtain ⟨F, hn, ht⟩ := exists_form_of_lanes (e := e) h₁ h₂ false
      exact ⟨F, hn, by simpa using ht⟩
    | scalable h₁ h₂ he =>
      obtain ⟨e, rfl, rfl⟩ := translatesElement_iff.mp he
      obtain ⟨F, hn, ht⟩ := exists_form_of_lanes (e := e) h₁ h₂ true
      exact ⟨F, hn, by rwa [if_pos rfl, append_vscale] at ht⟩
  · rintro ⟨F, rfl, ht⟩
    cases F with
    | invalid => cases ht
    | mark k hk => exact .mark (mem_markWords_iff.mpr ⟨k, hk, rfl, ht⟩)
    | number e =>
      cases ht
      exact .element (translatesElement_iff.mpr ⟨e, rfl, rfl⟩)
    | vector e c hc =>
      cases ht
      exact translates_vector hc e

theorem Translates.functional (h : Translates t ir) (h' : Translates t ir') : ir = ir' := by
  obtain ⟨F, rfl, hF⟩ := translates_iff.mp h
  obtain ⟨G, hn, hG⟩ := translates_iff.mp h'
  rw [Form.name_injective hn, hF] at hG
  exact Option.some.inj hG

theorem Translates.injective (h : Translates t ir) (h' : Translates u ir) : t = u := by
  obtain ⟨F, rfl, hF⟩ := translates_iff.mp h
  obtain ⟨G, rfl, hG⟩ := translates_iff.mp h'
  rw [Form.eq_of_irText? hF hG]

end CodegenTypes.Grammar
