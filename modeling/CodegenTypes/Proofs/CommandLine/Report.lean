import CodegenTypes.CommandLine.Report
import CodegenTypes.Proofs.CommandLine.Derivation
import CodegenTypes.Proofs.Form.IRText
import CodegenTypes.Proofs.ValueType.Lowering
import CodegenTypes.Proofs.ValueType.Reading
import CodegenTypes.Proofs.ValueType.Summary

namespace CodegenTypes

namespace Form

open CommandLine

def derived (op : Derivation) (F : Form) : Except ValueTypeError Derived := do
  let G ← F.derive op
  return { op := op, source := F.summary, result := G.summary }

def roundTrip (F : Form) : Except ValueTypeError RoundTrip :=
  match F.irText? with
  | some text => .ok { valueType := F.name, irType := text, roundTrip := F.name, exact := true }
  | none => .error F.noIRType

end Form

section Outcome

variable {α : Type} {s : Session} {k : ContextId} {next : ValueType → Interning α}

theorem Form.outcome_settle_bind (hs : s.WellFormed) {r : Except ValueTypeError Form}
    {answer : Form → Except ValueTypeError α}
    (hn : ∀ F v t, t.WellFormed → s ≤ t → v.HasForm t F → v.BelongsTo k →
      (next v).outcome t = (answer F).mapError .rejected) :
    (settle k r >>= next).outcome s = (r >>= answer).mapError .rejected := by
  cases r with
  | error e => rfl
  | ok F =>
    obtain ⟨v, t, hv, ht, hle, hF, hk⟩ := exists_settle hs k F
    rw [Interning.outcome_bind_of_ok hv]
    exact hn F v t ht hle hF hk

theorem ValueType.outcome_parse_bind {name : String} {answer : Form → Except ValueTypeError α}
    (hn : ∀ F v t, t.WellFormed → v.HasForm t F → v.BelongsTo k →
      (next v).outcome t = (answer F).mapError .rejected) :
    (parse k name >>= next).outcome .fresh = (Form.read name >>= answer).mapError .rejected := by
  have hparse := parse_eq Session.wellFormed_fresh k name
  rw [← Form.outcome_settle_bind Session.wellFormed_fresh fun F v t ht _ => hn F v t ht]
  rw [Interning.outcome, Interning.outcome, bind_of_eq hparse]

end Outcome

namespace Report

open CommandLine

variable {s : Session} {v : ValueType} {F : Form} {op : Derivation}

theorem outcome_derived (hs : s.WellFormed) (hv : v.HasForm s F) (hk : v.BelongsTo unit) :
    (Derived.of op v).outcome s = (F.derived op).mapError .rejected := by
  have hderive : Derived.of op v s = _ := bind_of_eq (ValueType.derive_eq hs hv hk op)
  rw [Interning.outcome, hderive]
  apply Form.outcome_settle_bind hs
  intro G r t ht hle hG _
  rw [Interning.outcome_bind_of_ok (ask_of_ok ((hv.mono hle).summary ht)),
    Interning.outcome_bind_of_ok (ask_of_ok (hG.summary ht))]
  rfl

theorem outcome_roundTrip (hs : s.WellFormed) (hv : v.HasForm s F) (hk : v.BelongsTo unit) :
    (RoundTrip.of v).outcome s = F.roundTrip.mapError .rejected := by
  have htoIR := ValueType.toIR_eq hs hv hk
  rw [Form.roundTrip]
  cases hF : F.irText? with
  | none =>
    have hnone : (s.context unit).hold F = none := Context.irText?_eq_none_iff.mp hF
    rw [Form.materialize, hnone] at htoIR
    exact Interning.outcome_bind_of_error htoIR
  | some text =>
    have hne : (s.context unit).hold F ≠ none := by
      simp [← Context.irText?_eq_none_iff, hF]
    obtain ⟨h, t, hm⟩ := Form.exists_materialize hne
    obtain ⟨ht, hle, hh⟩ := Form.materialize_ok hs hm
    have hback := ValueType.ofIR_of_hasForm ht (hv.mono hle) hk hh
    have hname := (hv.mono hle).name ht
    have hshown : (fun s => .ok ((s.context unit).display h) : Session → Except Failure String) t =
        .ok text := congrArg Except.ok (Option.some.inj ((hh.irText? (ht unit)).symm.trans hF))
    rw [RoundTrip.of, Interning.outcome_bind_of_ok (htoIR.trans hm),
      Interning.outcome_bind_of_ok (ask_of_ok hback),
      Interning.outcome_bind_of_ok (ask_of_ok hname),
      Interning.outcome_bind_of_ok (ask_of_ok hshown),
      Interning.outcome_bind_of_ok (ask_of_ok hname), decide_eq_true rfl]
    rfl

section Output

variable (pretty : Json → String) (terminal : Bool) (name : String) (json : Bool)

theorem output_eq_outcome (c : Command) :
    c.output terminal pretty = (c.run pretty terminal).outcome .fresh := by
  cases h : c.run pretty terminal .fresh <;> simp [Command.output, Interning.outcome, h]

theorem output_summary :
    (Command.summary name json).output terminal pretty =
      (do
        let F ← Form.read name
        return if json then document pretty F.summary.toJson else F.summary.display
        : Except ValueTypeError String).mapError .rejected := by
  rw [output_eq_outcome]
  apply ValueType.outcome_parse_bind
  intro F v t ht hF _
  rw [Interning.outcome_bind_of_ok (ask_of_ok (hF.summary ht))]
  rfl

theorem output_derive (op : Derivation) :
    (Command.derive name op json).output terminal pretty =
      (do
        let F ← Form.read name
        let r ← F.derived op
        return if json then document pretty r.toJson else r.display
        : Except ValueTypeError String).mapError .rejected := by
  rw [output_eq_outcome]
  apply ValueType.outcome_parse_bind
  intro F v t ht hF hk
  rw [Interning.outcome_bind_pure, outcome_derived ht hF hk]
  cases F.derived op <;> rfl

theorem output_bridge :
    (Command.bridge name json).output terminal pretty =
      (do
        let F ← Form.read name
        let r ← F.roundTrip
        return if json then document pretty r.toJson else r.display
        : Except ValueTypeError String).mapError .rejected := by
  rw [output_eq_outcome]
  apply ValueType.outcome_parse_bind
  intro F v t ht hF hk
  rw [Interning.outcome_bind_pure, outcome_roundTrip ht hF hk]
  cases F.roundTrip <;> rfl

theorem mapM_summary (hs : s.WellFormed) (types : List MachineType) :
    types.mapM (fun m => ask (Summary.of (.simple m))) s =
      .ok (types.map fun m => m.form.summary) s := by
  induction types with
  | nil => rfl
  | cons m types ih =>
    have hm : Summary.of (.simple m) s = .ok m.form.summary :=
      (ValueType.HasForm.simple m).summary hs
    rw [List.mapM_cons, bind_of_ok (ask_of_ok hm), bind_of_ok ih]
    rfl

theorem output_list (set : TableSet) (color : ColorChoice) :
    (Command.list set json color).output terminal pretty =
      .ok (if json then document pretty (.array (set.types.map fun m => m.form.summary.toJson))
        else Listing.table (.ofFlag (color.isEnabled terminal)) set.types) := by
  rw [output_eq_outcome]
  cases json with
  | true =>
    refine (Interning.outcome_bind_of_ok (mapM_summary Session.wellFormed_fresh _)).trans ?_
    rw [List.map_map]
    rfl
  | false => rfl

/-- Whatever the words of a command are, it prints or it reports an error. -/
theorem output_ne_fault (c : Command) (f : Fault) :
    c.output terminal pretty ≠ .error (.fault f) := by
  cases c with
  | list set json color => simp [output_list]
  | summary name json => rw [output_summary]; exact mapError_rejected_ne_fault _ f
  | derive name op json => rw [output_derive]; exact mapError_rejected_ne_fault _ f
  | bridge name json => rw [output_bridge]; exact mapError_rejected_ne_fault _ f

end Output

end Report

end CodegenTypes
