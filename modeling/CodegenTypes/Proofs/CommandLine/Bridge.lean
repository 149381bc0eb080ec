import CodegenTypes.Proofs.CommandLine.Report
import CodegenTypes.Proofs.Form.Translation

namespace CodegenTypes

theorem Scalar.mem_placeholder_names_iff {k : Scalar} (hk : k.element? = none) :
    k.name ∈ ["other", "glue", "untyped"] ↔ k.word? = none := by
  cases k <;> cases hk <;> decide

namespace Form

variable {name : String}

theorem exists_placeholder (h : name ∈ ["other", "glue", "untyped"]) :
    ∃ k : Scalar, k.element? = none ∧ k.name = name := by
  simp only [List.mem_cons, List.not_mem_nil, or_false] at h
  obtain rfl | rfl | rfl := h
  · exact ⟨.other, rfl, rfl⟩
  · exact ⟨.glue, rfl, rfl⟩
  · exact ⟨.untyped, rfl, rfl⟩

/-- The placeholders are the names that are read and have no IR type. -/
theorem mem_placeholders_iff_read :
    name ∈ ["other", "glue", "untyped"] ↔ ∃ F, read name = .ok F ∧ F.irText? = none := by
  constructor
  · intro h
    obtain ⟨k, hk, rfl⟩ := exists_placeholder h
    have hname : read (mark k hk).name = .ok (mark k hk) := read_name nofun
    exact ⟨mark k hk, hname, (Scalar.mem_placeholder_names_iff hk).mp h⟩
  · rintro ⟨F, hF, ht⟩
    rw [← name_of_read hF]
    cases F with
    | invalid => exact absurd rfl (ne_invalid_of_read hF)
    | mark k hk => exact (Scalar.mem_placeholder_names_iff hk).mpr ht
    | number e => cases ht
    | vector e c hc => cases ht

theorem translates_iff_read {ir : String} :
    Grammar.Translates name ir ↔ ∃ F, read name = .ok F ∧ F.irText? = some ir := by
  rw [Grammar.translates_iff]
  constructor
  · rintro ⟨F, rfl, ht⟩
    refine ⟨F, read_name ?_, ht⟩
    rintro rfl
    cases ht
  · rintro ⟨F, hF, ht⟩
    exact ⟨F, name_of_read hF, ht⟩

end Form

namespace Report

open CommandLine

theorem bridge_cases (pretty : Json → String) (terminal : Bool) (name : String) (json : Bool) :
    (∃ e, Form.read name = .error e ∧
      (Command.bridge name json).output terminal pretty = .error (.rejected e)) ∨
    (∃ F, Form.read name = .ok F ∧ F.irText? = none ∧
      (Command.bridge name json).output terminal pretty = .error (.rejected (.noIRType name))) ∨
    ∃ F ir, Form.read name = .ok F ∧ F.irText? = some ir ∧
      (Command.bridge name json).output terminal pretty =
        .ok (if json then document pretty (RoundTrip.toJson ⟨name, ir, name, true⟩)
          else RoundTrip.display ⟨name, ir, name, true⟩) := by
  rw [output_bridge]
  cases hF : Form.read name with
  | error e => exact .inl ⟨e, rfl, rfl⟩
  | ok F =>
    right
    have hname := Form.name_of_read hF
    change (∃ G, _ ∧ _ ∧ Except.mapError _ (F.roundTrip >>= _) = _) ∨
      ∃ G ir, _ ∧ _ ∧ Except.mapError _ (F.roundTrip >>= _) = _
    rw [Form.roundTrip]
    cases ht : F.irText? with
    | none =>
      have hn : F.noIRType = .noIRType name := by
        rw [← hname]
        cases F with
        | invalid => exact absurd rfl (Form.ne_invalid_of_read hF)
        | _ => rfl
      refine .inl ⟨F, rfl, ht, ?_⟩
      rw [hn]
      rfl
    | some ir =>
      refine .inr ⟨F, ir, rfl, ht, ?_⟩
      rw [hname]
      rfl

example : (Command.bridge "nxv3bf16" false).output false =
    .ok "value type: nxv3bf16\nIR type:    <vscale x 3 x bfloat>\nround trip: nxv3bf16\n" := by
  decide +kernel

end Report

end CodegenTypes
