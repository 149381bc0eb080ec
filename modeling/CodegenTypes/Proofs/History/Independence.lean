import CodegenTypes.Proofs.History.Sound
import CodegenTypes.Proofs.Job
import CodegenTypes.Proofs.ValueType.Concur
import CodegenTypes.Proofs.ValueType.Profile
import CodegenTypes.Proofs.ValueType.Reading
import CodegenTypes.Proofs.ValueType.VectorOp

/-! Histories do not show.  Value types with one name, from any two contexts of any two
histories, cannot be told apart by what clients are answered, and neither can the order in
which jobs were run. -/

namespace CodegenTypes.History

variable {H H₁ H₂ : History} {k₁ k₂ : ContextId} {v₁ v₂ : ValueType}

/-- A value type of each history, at home in the context, and one name for both. -/
structure Namesakes (H₁ : History) (k₁ : ContextId) (v₁ : ValueType) (H₂ : History)
    (k₂ : ContextId) (v₂ : ValueType) : Prop where
  issued₁ : H₁.Issued v₁
  belongs₁ : v₁.BelongsTo k₁
  issued₂ : H₂.Issued v₂
  belongs₂ : v₂.BelongsTo k₂
  name : v₁.name H₁.session = v₂.name H₂.session

theorem Namesakes.exists_form (hv : Namesakes H₁ k₁ v₁ H₂ k₂ v₂) (h₁ : H₁.Sound) (h₂ : H₂.Sound) :
    ∃ F, v₁.HasForm H₁.session F ∧ v₂.HasForm H₂.session F := by
  obtain ⟨F, hF₁⟩ := h₁.exists_hasForm hv.issued₁
  obtain ⟨G, hG₂⟩ := h₂.exists_hasForm hv.issued₂
  exact ⟨F, hF₁, hF₁.of_name_eq h₁.session h₂.session hG₂ hv.name⟩

/-- Every question and every derivation ends alike on namesakes, and every text reads alike. -/
theorem Reachable.history_independence (h₁ : H₁.Reachable) (h₂ : H₂.Reachable)
    (k₁ k₂ : ContextId) :
    (∀ v₁ v₂, Namesakes H₁ k₁ v₁ H₂ k₂ v₂ →
      v₁.profile H₁.session = v₂.profile H₂.session ∧
      (∃ w₁ w₂, v₁.scalarType H₁.session = .ok w₁ ∧ v₂.scalarType H₂.session = .ok w₂ ∧
        w₁.SameName H₁.session w₂ H₂.session) ∧
      Concur ValueType.SameName (ask v₁.elementType H₁.session) (ask v₂.elementType H₂.session) ∧
      Concur (Handle.SameText k₁ k₂) (v₁.toIR k₁ H₁.session) (v₂.toIR k₂ H₂.session) ∧
      (∀ op : VectorOp,
        Concur ValueType.SameName (op.run v₁ k₁ H₁.session) (op.run v₂ k₂ H₂.session)) ∧
      ∀ e₁ e₂, Namesakes H₁ k₁ e₁ H₂ k₂ e₂ →
        Concur ValueType.SameName (v₁.withElement k₁ e₁ H₁.session)
          (v₂.withElement k₂ e₂ H₂.session)) ∧
    ∀ text, Concur ValueType.SameName (ValueType.parse k₁ text H₁.session)
      (ValueType.parse k₂ text H₂.session) := by
  have hs₁ := h₁.sound.session
  have hs₂ := h₂.sound.session
  refine ⟨fun v₁ v₂ hv => ?_, fun text => ?_⟩
  · obtain ⟨F, hF₁, hF₂⟩ := hv.exists_form h₁.sound h₂.sound
    refine ⟨?profile, ValueType.scalarType_concur hs₁ hs₂ hF₁ hF₂,
      ValueType.elementType_concur hs₁ hs₂ hF₁ hF₂,
      ValueType.toIR_concur hs₁ hs₂ hF₁ hF₂ hv.belongs₁ hv.belongs₂,
      fun op => ?op, fun e₁ e₂ he => ?element⟩
    case profile => rw [hF₁.profile hs₁, hF₂.profile hs₂]
    case op =>
      rw [op.run_eq hs₁ hF₁ hv.belongs₁, op.run_eq hs₂ hF₂ hv.belongs₂]
      exact Form.settle_concur hs₁ hs₂ k₁ k₂ _
    case element =>
      obtain ⟨G, hG₁, hG₂⟩ := he.exists_form h₁.sound h₂.sound
      rw [ValueType.withElement_eq hs₁ hF₁ hv.belongs₁ hG₁ he.belongs₁,
        ValueType.withElement_eq hs₂ hF₂ hv.belongs₂ hG₂ he.belongs₂]
      exact Form.settle_concur hs₁ hs₂ k₁ k₂ _
  · rw [ValueType.parse_eq hs₁, ValueType.parse_eq hs₂]
    exact Form.settle_concur hs₁ hs₂ k₁ k₂ _

def detour : History :=
  start.perform ⟨0⟩ (.parse "v5i24")
    |>.perform ⟨0⟩ (.parse "v3i17")

theorem reachable_detour : detour.Reachable := by
  have start : Reachable start := Relation.ReflTransGen.refl
  exact (start.perform ⟨0⟩ (.parse "v5i24") nofun).perform ⟨0⟩ (.parse "v3i17") nofun

theorem history_independence_sample :
    sample.Reachable ∧ detour.Reachable ∧
      Namesakes sample ⟨0⟩ (.extended ⟨⟨0⟩, ⟨18⟩⟩) detour ⟨0⟩ (.extended ⟨⟨0⟩, ⟨20⟩⟩) ∧
      (ValueType.extended ⟨⟨0⟩, ⟨18⟩⟩).profile sample.session =
        (ValueType.extended ⟨⟨0⟩, ⟨20⟩⟩).profile detour.session ∧
      Concur ValueType.SameName
        ((ValueType.extended ⟨⟨0⟩, ⟨18⟩⟩).withElement ⟨0⟩ (.extended ⟨⟨0⟩, ⟨18⟩⟩) sample.session)
        ((ValueType.extended ⟨⟨0⟩, ⟨20⟩⟩).withElement ⟨0⟩ (.extended ⟨⟨0⟩, ⟨20⟩⟩) detour.session) := by
  have hv : Namesakes sample ⟨0⟩ (.extended ⟨⟨0⟩, ⟨18⟩⟩) detour ⟨0⟩ (.extended ⟨⟨0⟩, ⟨20⟩⟩) := {
    issued₁ := by simp [Issued, answers_sample]
    belongs₁ := rfl
    issued₂ := by decide +kernel
    belongs₂ := rfl
    name := by decide +kernel }
  obtain ⟨hprofile, -, -, -, -, helement⟩ :=
    (reachable_sample.history_independence reachable_detour ⟨0⟩ ⟨0⟩).1 _ _ hv
  exact ⟨reachable_sample, reachable_detour, hv, hprofile, helement _ _ hv⟩

/-- Every job ends as it would alone in a fresh session.  What a list of jobs leaves behind
depends on neither order nor repetition, but for the handles. -/
theorem Reachable.order_independence (hH : H.Reachable) (k : ContextId) {js js' : List Job}
    (hjs : ∀ j, j ∈ js ↔ j ∈ js') :
    ∃ s s', Job.runAll k js H.session = (js.map fun j => (j.outcome k .fresh).1, s) ∧
      Job.runAll k js' H.session = (js'.map fun j => (j.outcome k .fresh).1, s') ∧
      (s.context k).size = (s'.context k).size ∧ (s.context k).texts = (s'.context k).texts := by
  have halone : (fun j : Job => (j.outcome k .fresh).1) = (Job.verdict ·.form) := by
    funext j
    obtain ⟨s, hs, -⟩ := Job.outcome_eq Session.wellFormed_fresh k j
    rw [hs]
  rw [halone]
  exact Job.exists_runAll hH.sound.session k hjs

def sampleJobs : List Job := [⟨"v6i17", [.widen, .half]⟩, ⟨"v3i34", [.half]⟩]

theorem order_independence_sample :
    start.Reachable ∧ (∀ j, j ∈ sampleJobs ↔ j ∈ sampleJobs.reverse ++ sampleJobs) ∧
      sampleJobs.map (fun j => (j.outcome ⟨0⟩ .fresh).1) =
        [.ok "v3i34", .error (.rejected (.lanes (.inexact ⟨3, false⟩ 2)))] ∧
      ∃ s s', Job.runAll ⟨0⟩ sampleJobs start.session =
          (sampleJobs.map fun j => (j.outcome ⟨0⟩ .fresh).1, s) ∧
        Job.runAll ⟨0⟩ (sampleJobs.reverse ++ sampleJobs) start.session =
          ((sampleJobs.reverse ++ sampleJobs).map fun j => (j.outcome ⟨0⟩ .fresh).1, s') ∧
        (s.context ⟨0⟩).size = (s'.context ⟨0⟩).size ∧
        (s.context ⟨0⟩).texts = (s'.context ⟨0⟩).texts := by
  have hstart : start.Reachable := Relation.ReflTransGen.refl
  have hjs : ∀ j, j ∈ sampleJobs ↔ j ∈ sampleJobs.reverse ++ sampleJobs := by simp
  exact ⟨hstart, hjs, by decide +kernel, hstart.order_independence ⟨0⟩ hjs⟩

end CodegenTypes.History
