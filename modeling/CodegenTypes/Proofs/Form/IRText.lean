import CodegenTypes.Proofs.Form.Holding
import CodegenTypes.Proofs.Form.Name

namespace CodegenTypes

def Element.irText : Element → String
  | integer bits _ => "i" ++ Decimal.text bits.toNat
  | float format => format.name

def Scalar.word? : Scalar → Option String
  | isVoid => some "void"
  | token => some "token"
  | metadata => some "metadata"
  | _ => none

def Form.irText? : Form → Option String
  | invalid => none
  | mark kind _ => kind.word?
  | number element => some element.irText
  | vector element lanes _ => some ("<" ++ lanes.display ++ " x " ++ element.irText ++ ">")

namespace Context

variable {Γ Δ : Context} {h j : Handle} {F : Form} {e : Element}

theorem display_element (hh : Γ.get? h = some e.irType) : Γ.display h = e.irText := by
  rw [display, hh]
  cases e <;> rfl

theorem WellFormed.display_vector (hΓ : Γ.WellFormed) {c : Lanes}
    (hh : Γ.get? h = some (.vector j c)) :
    Γ.display h = "<" ++ c.display ++ " x " ++ Γ.display j ++ ">" := by
  rw [display, hh]
  simp only [if_pos (hΓ.vector h j c hh).2.1]

theorem Holds.irText? (hΓ : Γ.WellFormed) (hF : Γ.Holds h F) : F.irText? = some (Γ.display h) := by
  cases hF with
  | @mark k t hk ht hh =>
    rw [display, hh]
    cases k <;> cases hk <;> cases ht <;> rfl
  | number hh => rw [Form.irText?, display_element hh]
  | vector hc hj hh => rw [Form.irText?, hΓ.display_vector hh, display_element hj]

theorem Holds.display_eq (hΓ : Γ.WellFormed) (hΔ : Δ.WellFormed) (hh : Γ.Holds h F)
    (hj : Δ.Holds j F) : Γ.display h = Δ.display j :=
  Option.some.inj ((hh.irText? hΓ).symm.trans (hj.irText? hΔ))

theorem irText?_eq_none_iff : F.irText? = none ↔ Γ.hold F = none := by
  cases F with
  | invalid => simp [Form.irText?, hold]
  | mark k hk =>
    rw [Form.irText?, hold, Option.map_eq_none_iff]
    cases k <;> cases hk <;> decide
  | number e => simp [Form.irText?, hold]
  | vector e c hc => simp [Form.irText?, hold]

end Context

theorem Scalar.word?_cases {k : Scalar} {t : String} (h : k.word? = some t) :
    k = isVoid ∧ t = "void" ∨ k = token ∧ t = "token" ∨ k = metadata ∧ t = "metadata" := by
  cases k <;> cases h <;> simp

theorem FloatFormat.exists_toList_name (f : FloatFormat) :
    ∃ ch cs, f.name.toList = ch :: cs ∧ ch ∈ ['h', 'b', 'f', 'd', 'x', 'p'] := by
  cases f <;> exact ⟨_, _, rfl, by decide⟩

theorem FloatFormat.name_injective : Function.Injective name := by
  intro f g h
  cases f <;> cases g <;> first | rfl | exact absurd h (by decide)

namespace Element

variable {d e : Element}

theorem toList_irText_integer {bits : UInt32} {hb : IRType.InRange bits} :
    (integer bits hb).irText.toList = 'i' :: Nat.toDigits 10 bits.toNat := by
  rw [irText, String.toList_append, Decimal.toList_text]
  rfl

theorem exists_toList_irText (e : Element) :
    ∃ ch cs, e.irText.toList = ch :: cs ∧ ch ∈ ['i', 'h', 'b', 'f', 'd', 'x', 'p'] := by
  cases e with
  | integer bits hb => exact ⟨'i', _, toList_irText_integer, by decide⟩
  | float f =>
    obtain ⟨ch, cs, hf, hch⟩ := f.exists_toList_name
    exact ⟨ch, cs, hf, List.mem_cons_of_mem _ hch⟩

theorem irText_integer_ne_float {bits : UInt32} {hb : IRType.InRange bits} {f : FloatFormat} :
    (integer bits hb).irText ≠ (float f).irText := by
  intro h
  obtain ⟨ch, cs, hf, hch⟩ := f.exists_toList_name
  have hi := congrArg String.toList h
  rw [toList_irText_integer, irText, hf] at hi
  rw [← (List.cons.inj hi).1] at hch
  exact absurd hch (by decide)

theorem irText_injective : Function.Injective irText := by
  intro d e h
  cases d with
  | integer bits hb =>
    cases e with
    | integer bits' hb' =>
      have hi := congrArg String.toList h
      rw [toList_irText_integer, toList_irText_integer] at hi
      have hn := UInt32.toNat_inj.mp (Decimal.toDigits_injective (List.cons.inj hi).2)
      subst hn
      rfl
    | float f => exact absurd h irText_integer_ne_float
  | float f =>
    cases e with
    | integer bits hb => exact absurd h.symm irText_integer_ne_float
    | float g => rw [FloatFormat.name_injective h]

end Element

theorem Lanes.toList_display (c : Lanes) :
    c.display.toList =
      (if c.scalable then "vscale x ".toList else []) ++ Nat.toDigits 10 c.min.toNat := by
  rw [display, String.toList_append, Decimal.toList_text]
  cases c.scalable <;> rfl

theorem Lanes.display_append_inj {c d : Lanes} {cs ds : List Char}
    (h : c.display.toList ++ ' ' :: cs = d.display.toList ++ ' ' :: ds) : c = d ∧ cs = ds := by
  rw [toList_display, toList_display, List.append_assoc, List.append_assoc] at h
  obtain ⟨m, b⟩ := c
  obtain ⟨n, a⟩ := d
  have hblank (ds : List Char) : ∀ c ∈ (' ' :: ds).head?, c.isDigit = false := by
    rintro c ⟨⟩
    rfl
  have hdigits (h : Nat.toDigits 10 m.toNat ++ ' ' :: cs = Nat.toDigits 10 n.toNat ++ ' ' :: ds) :
      m = n ∧ cs = ds := by
    obtain ⟨hn, hr⟩ := Decimal.toDigits_append_inj (hblank cs) (hblank ds) h
    exact ⟨UInt32.toNat_inj.mp hn, (List.cons.inj hr).2⟩
  cases b with
  | true =>
    cases a with
    | true =>
      obtain ⟨rfl, hr⟩ := hdigits (List.append_cancel_left h)
      exact ⟨rfl, hr⟩
    | false => exact absurd h.symm (Decimal.toDigits_append_ne (by decide))
  | false =>
    cases a with
    | true => exact absurd h (Decimal.toDigits_append_ne (by decide))
    | false =>
      obtain ⟨rfl, hr⟩ := hdigits h
      exact ⟨rfl, hr⟩

namespace Form

variable {F G : Form} {t : String} {e : Element} {c : Lanes}

theorem toList_irText_vector (c : Lanes) (e : Element) :
    ("<" ++ c.display ++ " x " ++ e.irText ++ ">").toList =
      '<' :: (c.display.toList ++ ' ' :: 'x' :: ' ' :: (e.irText.toList ++ ['>'])) := by
  simp

theorem irText_ne_vector {d : Element} :
    d.irText ≠ "<" ++ c.display ++ " x " ++ e.irText ++ ">" := by
  intro h
  obtain ⟨ch, cs, hd, hch⟩ := d.exists_toList_irText
  have hl := congrArg String.toList h
  rw [toList_irText_vector, hd] at hl
  rw [(List.cons.inj hl).1] at hch
  exact absurd hch (by decide)

theorem word_ne_element {k : Scalar} (h : k.word? = some t) : t ≠ e.irText := by
  intro he
  obtain ⟨ch, cs, hd, hch⟩ := e.exists_toList_irText
  rw [← he] at hd
  rcases Scalar.word?_cases h with ⟨-, rfl⟩ | ⟨-, rfl⟩ | ⟨-, rfl⟩ <;>
    · rw [← (List.cons.inj hd).1] at hch
      exact absurd hch (by decide)

theorem word_ne_vector {k : Scalar} (h : k.word? = some t) :
    t ≠ "<" ++ c.display ++ " x " ++ e.irText ++ ">" := by
  intro he
  have hl := congrArg String.toList he
  rw [toList_irText_vector] at hl
  rcases Scalar.word?_cases h with ⟨-, rfl⟩ | ⟨-, rfl⟩ | ⟨-, rfl⟩ <;>
    exact absurd (List.cons.inj hl).1 (by decide)

theorem vector_irText_inj {d : Lanes} {e' : Element}
    (h : "<" ++ c.display ++ " x " ++ e.irText ++ ">" =
      "<" ++ d.display ++ " x " ++ e'.irText ++ ">") : c = d ∧ e = e' := by
  have hl := congrArg String.toList h
  rw [toList_irText_vector, toList_irText_vector] at hl
  obtain ⟨rfl, hr⟩ := Lanes.display_append_inj (List.cons.inj hl).2
  have he : e.irText.toList = e'.irText.toList := by simpa using hr
  exact ⟨rfl, Element.irText_injective (String.toList_inj.mp he)⟩

theorem eq_of_irText? (hF : F.irText? = some t) (hG : G.irText? = some t) : F = G := by
  cases F with
  | invalid => cases hF
  | mark k hk =>
    cases G with
    | invalid => cases hG
    | mark k' hk' =>
      have hkk : k = k' := by
        rcases Scalar.word?_cases hF with ⟨rfl, rfl⟩ | ⟨rfl, rfl⟩ | ⟨rfl, rfl⟩ <;>
          rcases Scalar.word?_cases hG with ⟨rfl, h⟩ | ⟨rfl, h⟩ | ⟨rfl, h⟩ <;>
          first | rfl | exact absurd h (by decide)
      subst hkk
      rfl
    | number e => exact absurd (Option.some.inj hG).symm (word_ne_element hF)
    | vector e c hc => exact absurd (Option.some.inj hG).symm (word_ne_vector hF)
  | number d =>
    cases hF
    cases G with
    | invalid => cases hG
    | mark k hk => exact absurd rfl (word_ne_element hG)
    | number e => rw [Element.irText_injective (Option.some.inj hG)]
    | vector e c hc => exact absurd (Option.some.inj hG).symm irText_ne_vector
  | vector d c hc =>
    cases hF
    cases G with
    | invalid => cases hG
    | mark k hk => exact absurd rfl (word_ne_vector hG)
    | number e => exact absurd (Option.some.inj hG) irText_ne_vector
    | vector e c' hc' =>
      obtain ⟨rfl, rfl⟩ := vector_irText_inj (Option.some.inj hG)
      rfl

end Form

end CodegenTypes
