import CodegenTypes.Proofs.History.Sound
import CodegenTypes.Proofs.ValueType.VectorOp

namespace CodegenTypes.History

variable {H : History}

/-- The table derives an entry exactly where the value types derive it.  Where the table lacks
a vector of numbers, the value types make one of the name that the table's error gives.  The
general construction would do everywhere. -/
theorem Reachable.table_anticipates (hH : H.Reachable) (k : ContextId) (m : MachineType)
    (op : VectorOp) :
    (∀ r, op.onMachine m = .ok r ↔ ∃ s, op.run (.simple m) k H.session = .ok (.simple r) s) ∧
    (∀ name, op.onMachine m = .error (.notCanonical name) → m.kind?.any Scalar.isNumeric →
      (∀ c, op = .withLanes c → c.fitsVector) →
      ∃ x s, op.run (.simple m) k H.session = .ok (.extended x) s ∧
        (ValueType.extended x).name s = .ok name) ∧
    op.runGeneral (.simple m) k H.session = op.run (.simple m) k H.session := by
  have hs := hH.sound.session
  have hm : (ValueType.simple m).HasForm H.session m.form := .simple m
  have hrun := VectorOp.run_eq hs hm (k := k) trivial op
  refine ⟨fun r => ?_, fun name he hn hc => ?_, ?_⟩
  · rw [hrun, Form.settle_eq_simple_iff hs]
    exact VectorOp.onMachine_ok_iff
  · have hanswer := VectorOp.answer hn hc
    rw [he] at hanswer
    rw [hrun]
    generalize op.onForm m.form = r at hanswer
    cases hanswer with
    | missing hF => exact Form.settle_beyond_table hs k hF
    | refused he _ => exact absurd rfl (he name)
  · rw [hrun, VectorOp.runGeneral_eq hs hm trivial]

theorem table_anticipates_sample :
    sample.Reachable ∧
      ∃ m, MachineType.ofName? "v3i32" = some m ∧
        m.widen = .error (.notCanonical "v3i64") ∧
        (∃ x s, (ValueType.simple m).widen ⟨0⟩ sample.session = .ok (.extended x) s ∧
          (ValueType.extended x).name s = .ok "v3i64") ∧
        (ValueType.simple m).widenGeneral ⟨0⟩ sample.session =
          (ValueType.simple m).widen ⟨0⟩ sample.session := by
  have hname : MachineType.ofName? "v3i32" = some ⟨50⟩ := by decide +kernel
  have hwiden : (⟨50⟩ : MachineType).widen = .error (.notCanonical "v3i64") := by decide +kernel
  obtain ⟨-, hbeyond, hgeneral⟩ := reachable_sample.table_anticipates ⟨0⟩ ⟨50⟩ .widen
  exact ⟨reachable_sample, ⟨50⟩, hname, hwiden, hbeyond _ hwiden (by decide +kernel) nofun, hgeneral⟩

end CodegenTypes.History
