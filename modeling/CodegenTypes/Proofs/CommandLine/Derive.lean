import CodegenTypes.Proofs.CommandLine.Report

/-! Commands agree through the names that they print, although each works in a context of its
own.  What one command prints is a name for the next. -/

namespace CodegenTypes

namespace Report

open CommandLine

variable {pretty : Json → String} {terminal : Bool} {name : String} {F G : Form} {op : Derivation}

theorem output_summary_of_read (hF : Form.read name = .ok F) (json : Bool) :
    (Command.summary name json).output terminal pretty =
      .ok (if json then document pretty F.summary.toJson else F.summary.display) := by
  rw [output_summary, hF]
  rfl

theorem output_derive_of_read (hF : Form.read name = .ok F) (hG : F.derive op = .ok G)
    (json : Bool) :
    (Command.derive name op json).output terminal pretty =
      .ok (if json then document pretty (Derived.toJson ⟨op, F.summary, G.summary⟩)
        else name ++ " -> " ++ G.name ++ "\n") := by
  rw [output_derive, hF, ← Form.name_of_read hF]
  change Except.mapError _ (F.derived op >>= _) = _
  rw [Form.derived, hG]
  rfl

theorem exists_forms_of_output_derive {json : Bool} {out : String}
    (h : (Command.derive name op json).output terminal pretty = .ok out) :
    ∃ F G, Form.read name = .ok F ∧ F.derive op = .ok G := by
  rw [output_derive] at h
  cases hF : Form.read name with
  | error e => rw [hF] at h; cases h
  | ok F =>
    rw [hF] at h
    change Except.mapError _ (F.derived op >>= _) = _ at h
    rw [Form.derived] at h
    cases hG : F.derive op with
    | error e => rw [hG] at h; cases h
    | ok G => exact ⟨F, G, rfl, hG⟩

theorem exists_output_bridge (hF : Form.read name = .ok F) (ht : F.irText? ≠ none) (json : Bool) :
    ∃ out, (Command.bridge name json).output terminal pretty = .ok out := by
  obtain ⟨text, ht⟩ := Option.ne_none_iff_exists'.mp ht
  rw [output_bridge, hF]
  change ∃ out, Except.mapError _ (F.roundTrip >>= _) = .ok out
  rw [Form.roundTrip, ht]
  exact ⟨_, rfl⟩

/-- The derivation prints `result`, a name for all commands, and the commands say of it what
the derivation says. -/
structure Derives (pretty : Json → String) (terminal : Bool) (name : String) (op : Derivation)
    (result : String) : Prop where
  text : (Command.derive name op false).output terminal pretty =
    .ok (name ++ " -> " ++ result ++ "\n")
  isName : ∃ v s, ValueType.parse unit result .fresh = .ok v s
  shown : ∃ source target : Summary,
    (Command.derive name op true).output terminal pretty =
      .ok (document pretty (.object [("op", .string op.word), ("from", source.toJson),
        ("to", target.toJson)])) ∧
    (Command.summary name true).output terminal pretty = .ok (document pretty source.toJson) ∧
    (Command.summary result true).output terminal pretty = .ok (document pretty target.toJson)
  bridged : ∀ json, ∃ out, (Command.bridge result json).output terminal pretty = .ok out
  derived : ∃ next, (Command.derive result .toInteger false).output terminal pretty =
    .ok (result ++ " -> " ++ next ++ "\n")

theorem derives_of_read (hF : Form.read name = .ok F) (hG : F.derive op = .ok G) :
    Form.read G.name = .ok G ∧ Derives pretty terminal name op G.name := by
  obtain ⟨e, c, hc, rfl⟩ := Form.exists_vector_of_derive hG
  have hread : Form.read (Form.vector e c hc).name = .ok (.vector e c hc) := Form.read_name nofun
  obtain ⟨H, hH⟩ : ∃ H, (Form.vector e c hc).derive .toInteger = .ok H :=
    Form.exists_toInteger_vector e hc
  refine ⟨hread, {
    text := output_derive_of_read hF hG false
    isName := ?_
    shown := ⟨F.summary, _, output_derive_of_read hF hG true, output_summary_of_read hF true,
      output_summary_of_read hread true⟩
    bridged := exists_output_bridge hread nofun
    derived := ⟨H.name, output_derive_of_read hread hH false⟩ }⟩
  rw [ValueType.parse_eq Session.wellFormed_fresh, Form.exists_settle_iff Session.wellFormed_fresh]
  exact ⟨_, hread⟩

/-- A derivation that succeeds prints the name of its result.  The names of halves and doubles
lead back, and an integer vector stays what it is. -/
theorem derive_agrees {json : Bool} {out : String}
    (h : (Command.derive name op json).output terminal pretty = .ok out) :
    ∃ result, Derives pretty terminal name op result ∧
      (op = .double → (Command.derive result .half false).output terminal pretty =
        .ok (result ++ " -> " ++ name ++ "\n")) ∧
      (op = .half → (Command.derive result .double false).output terminal pretty =
        .ok (result ++ " -> " ++ name ++ "\n")) ∧
      (op = .toInteger → (Command.derive result .toInteger false).output terminal pretty =
        .ok (result ++ " -> " ++ result ++ "\n")) := by
  obtain ⟨F, G, hF, hG⟩ := exists_forms_of_output_derive h
  obtain ⟨hread, hderives⟩ := derives_of_read hF hG
  have hname : F.name = name := Form.name_of_read hF
  refine ⟨G.name, hderives, ?_, ?_, ?_⟩
  · rintro rfl
    have hback : G.derive .half = .ok F := Form.half_eq_ok_iff_double.mpr hG
    rw [output_derive_of_read hread hback, hname]
    rfl
  · rintro rfl
    have hback : G.derive .double = .ok F := Form.half_eq_ok_iff_double.mp hG
    rw [output_derive_of_read hread hback, hname]
    rfl
  · rintro rfl
    have hback : G.derive .toInteger = .ok G := Form.toInteger_of_toInteger hG
    rw [output_derive_of_read hread hback]
    rfl

theorem derive_agrees_sample :
    (Command.derive "v6i17" .half false).output false = .ok "v6i17 -> v3i17\n" ∧
      ∃ result, Derives Json.pretty false "v6i17" .half result ∧
        (Command.derive result .double false).output false =
          .ok (result ++ " -> " ++ "v6i17" ++ "\n") := by
  have h : (Command.derive "v6i17" .half false).output false = .ok "v6i17 -> v3i17\n" := by
    decide +kernel
  obtain ⟨result, hderives, -, hdouble, -⟩ := derive_agrees h
  exact ⟨h, result, hderives, hdouble rfl⟩

end Report

end CodegenTypes
