import CodegenTypes.Proofs.Form.Grammar
import CodegenTypes.Proofs.History.Sound

namespace CodegenTypes

theorem ValueType.parse_of_vector {k : ContextId} {text element : String} {c : Lanes}
    (h : Spelling.ofString text = .vector c element) :
    parse k text = parse k element >>= fun w => vector k w c := by
  have he : parse k element = parseElement k element := by
    rw [parse, parseElement]
    cases hs : Spelling.ofString element with
    | vector d u => exact absurd hs (Spelling.ofString_element_ne_vector h d u)
    | _ => rfl
  rw [he, parse, h]

namespace History

variable {H : History}

/-- Exactly the names of the grammar are read.  Any other text is refused for the reason that
the grammar gives, and no name is read more than one level deep. -/
theorem Reachable.reading_grammar (hH : H.Reachable) (k : ContextId) (text : String) :
    ((∃ v s, ValueType.parse k text H.session = .ok v s) ↔ Grammar.IsName text) ∧
    (∀ f, (∃ s, ValueType.parse k text H.session = .error f s) ↔
      ∃ e, Grammar.Refused text e ∧ f = .rejected e) ∧
    (∃ d ≤ 1, Spelling.Depth text d) ∧
    ∀ c element, Spelling.ofString text = .vector c element →
      ValueType.parse k text = ValueType.parse k element >>= fun w => ValueType.vector k w c := by
  have hs := hH.sound.session
  refine ⟨?_, ?_, Spelling.exists_depth text, fun c element => ValueType.parse_of_vector⟩
  · rw [ValueType.parse_eq hs, Form.exists_settle_iff hs, Form.exists_read_iff]
  · intro f
    rw [ValueType.parse_eq hs, Form.settle_eq_error_iff hs]
    simp only [Form.read_eq_error_iff]

theorem reading_grammar_sample :
    sample.Reachable ∧
      (∃ v s, ValueType.parse ⟨0⟩ "nxv4294967295i16777216" sample.session = .ok v s) ∧
      (∃ s, ValueType.parse ⟨0⟩ "v3i16777217" sample.session =
        .error (.rejected (.type (.widthOutOfRange 16777217))) s) ∧
      ∃ s, ValueType.parse ⟨0⟩ "v3isvoid" sample.session =
        .error (.rejected (.notElement "isvoid")) s := by
  have hlanes : Grammar.Opens "nxv4294967295i16777216" "i16777216" :=
    ⟨"nxv", by decide, 4294967295, by decide, by decide, by decide +kernel⟩
  have helement : Grammar.IsElement "i16777216" :=
    .integer (n := 16777216) (by decide) (by decide)
  have hwide : Grammar.TooWide 16777217 "v3i16777217" :=
    ⟨by decide, .inr ⟨"v", by decide, 3, by decide, by decide, by decide +kernel⟩⟩
  have hvoid : Grammar.Misfilled "isvoid" "v3isvoid" :=
    ⟨⟨"v", by decide, 3, by decide, by decide, by decide +kernel⟩, .isVoid, rfl, rfl⟩
  refine ⟨reachable_sample, ?_, ?_, ?_⟩
  · exact (reachable_sample.reading_grammar ⟨0⟩ _).1.mpr (.vector hlanes helement)
  · exact ((reachable_sample.reading_grammar ⟨0⟩ _).2.1 _).mpr ⟨_, .tooWide hwide, rfl⟩
  · exact ((reachable_sample.reading_grammar ⟨0⟩ _).2.1 _).mpr ⟨_, .misfilled hvoid, rfl⟩

end History

end CodegenTypes
