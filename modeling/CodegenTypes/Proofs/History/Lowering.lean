import CodegenTypes.Proofs.History.Sound

namespace CodegenTypes.History

variable {H : History}

/-- A handle is unknown, or the label's, or lowers to a value type that raises to the same
handle.  A value type at hand raises to a handle that lowers to it, but for the invalid
entry and the placeholders.  Refusals change nothing. -/
theorem Reachable.lowering_roundTrip (hH : H.Reachable) (k : ContextId) :
    (∀ h : Handle,
      (ValueType.ofIR k h H.session = .error (.rejected (.type (.unknownHandle h))) ↔
        (H.session.context k).size ≤ h.index) ∧
      (ValueType.ofIR k h H.session = .error (.rejected (.noValueType "label")) ↔ h = .label) ∧
      (h.index < (H.session.context k).size → h ≠ .label →
        ∃ v, ValueType.ofIR k h H.session = .ok v ∧ v.toIR k H.session = .ok h H.session)) ∧
    (∀ v, H.Issued v → v.BelongsTo k → v ≠ .simple .invalid →
      (∀ kind ∈ Scalar.placeholders, v ≠ .simple (.ofScalar kind)) →
      ∃ h t, v.toIR k H.session = .ok h t ∧ ValueType.ofIR k h t = .ok v) ∧
    (ValueType.simple .invalid).toIR k H.session = .error (.rejected .invalid) H.session ∧
    (∀ kind ∈ Scalar.placeholders, (ValueType.simple (.ofScalar kind)).toIR k H.session =
      .error (.rejected (.noIRType kind.name)) H.session) := by
  have hs := hH.sound.session
  refine ⟨fun h => ⟨?_, ?_, ?_⟩, ?_, ?_, ?_⟩
  · exact ValueType.ofIR_eq_unknownHandle_iff hs
  · exact ValueType.ofIR_eq_noValueType_iff hs
  · exact ValueType.exists_ofIR hs
  · intro v hv hk
    obtain ⟨F, hF⟩ := hH.sound.exists_hasForm hv
    exact ValueType.exists_toIR hs hF hk
  · exact ValueType.toIR_invalid hs k
  · intro kind hkind
    exact ValueType.toIR_placeholder hs k hkind

theorem lowering_sample :
    sample.Reachable ∧
      (∃ v, ValueType.ofIR ⟨0⟩ ⟨18⟩ sample.session = .ok v ∧
        v.toIR ⟨0⟩ sample.session = .ok ⟨18⟩ sample.session) ∧
      ∃ h t, (ValueType.extended ⟨⟨1⟩, ⟨17⟩⟩).toIR ⟨1⟩ sample.session = .ok h t ∧
        ValueType.ofIR ⟨1⟩ h t = .ok (.extended ⟨⟨1⟩, ⟨17⟩⟩) := by
  refine ⟨reachable_sample, ?_, ?_⟩
  · have hlt : 18 < (sample.session.context ⟨0⟩).size := by decide +kernel
    exact ((reachable_sample.lowering_roundTrip ⟨0⟩).1 ⟨18⟩).2.2 hlt (by decide)
  · have hv : sample.Issued (.extended ⟨⟨1⟩, ⟨17⟩⟩) := by simp [Issued, answers_sample]
    exact (reachable_sample.lowering_roundTrip ⟨1⟩).2.1 _ hv rfl (by simp) (by simp)

/-- Lowering and raising carry the lanes of a vector over, and the element to the element. -/
theorem Reachable.lowering_elementwise (hH : H.Reachable) (k : ContextId) :
    (∀ h t, (H.session.context k).get? h = some t → t.isVector →
      ∃ v, ValueType.ofIR k h H.session = .ok v ∧ v.Mirrors k h H.session) ∧
    ∀ v, H.Issued v → v.BelongsTo k → v.isVector H.session = .ok true →
      ∃ h s, v.toIR k H.session = .ok h s ∧ v.Mirrors k h s := by
  have hs := hH.sound.session
  refine ⟨?_, ?_⟩
  · intro h t
    exact ValueType.exists_ofIR_mirrors hs
  · intro v hv
    obtain ⟨F, hF⟩ := hH.sound.exists_hasForm hv
    exact ValueType.exists_toIR_mirrors hs hF

theorem lowering_elementwise_sample :
    sample.Reachable ∧
      (∃ v, ValueType.ofIR ⟨0⟩ ⟨18⟩ sample.session = .ok v ∧ v.Mirrors ⟨0⟩ ⟨18⟩ sample.session) ∧
      sample.Issued (.extended ⟨⟨1⟩, ⟨17⟩⟩) ∧
      ∃ h s, (ValueType.extended ⟨⟨1⟩, ⟨17⟩⟩).toIR ⟨1⟩ sample.session = .ok h s ∧
        (ValueType.extended ⟨⟨1⟩, ⟨17⟩⟩).Mirrors ⟨1⟩ h s := by
  have hv : sample.Issued (.extended ⟨⟨1⟩, ⟨17⟩⟩) := by simp [Issued, answers_sample]
  refine ⟨reachable_sample, ?_, hv, ?_⟩
  · have ht : (sample.session.context ⟨0⟩).get? ⟨18⟩ = some (.vector ⟨17⟩ ⟨3, false⟩) := by
      decide +kernel
    exact (reachable_sample.lowering_elementwise ⟨0⟩).1 _ _ ht rfl
  · have hvec : (ValueType.extended ⟨⟨1⟩, ⟨17⟩⟩).isVector sample.session = .ok true := by
      decide +kernel
    exact (reachable_sample.lowering_elementwise ⟨1⟩).2 _ hv rfl hvec

end CodegenTypes.History
