import CodegenTypes.Proofs.History.Sound
import CodegenTypes.Proofs.ValueType.Canonical

namespace CodegenTypes.History

variable {H : History}

/-- Extended types stay beyond the table, so value types of one context are equal exactly
when they have the same name. -/
theorem Reachable.canonical_priority (hH : H.Reachable) :
    (∀ x, H.Issued (.extended x) → ∀ H', H.Later H' →
      (∃ text, MachineType.ofIR (H'.session.context x.owner) x.handle =
        .error (.notCanonical text)) ∧
      (H'.session.context x.owner).BeyondTable x.handle) ∧
    ∀ k v w, H.Issued v → H.Issued w → v.BelongsTo k → w.BelongsTo k →
      (∃ text, v.name H.session = .ok text) ∧
      (v = w ↔ v.name H.session = w.name H.session) := by
  have hs := hH.sound.session
  constructor
  · intro x hx H' hlater
    obtain ⟨F, hF⟩ := hH.sound.exists_hasForm hx
    cases hF with
    | extended hold hm =>
      have hold' := hold.mono ((hH.sound.later hlater).2.1 x.owner)
      exact ⟨⟨_, hold'.ofIR_of_machine?_none hm⟩, hold'.beyondTable hm⟩
  · intro k v w hv hw hvk hwk
    obtain ⟨F, hF⟩ := hH.sound.exists_hasForm hv
    obtain ⟨G, hG⟩ := hH.sound.exists_hasForm hw
    exact ⟨⟨_, hF.name hs⟩, hF.eq_iff_name_eq hs hG hvk hwk⟩

theorem canonical_priority_sample :
    sample.Issued (.extended ⟨⟨0⟩, ⟨18⟩⟩) ∧ sample.Issued (.extended ⟨⟨0⟩, ⟨20⟩⟩) ∧
      ((sample.perform ⟨0⟩ (.parse "i99")).session.context ⟨0⟩).BeyondTable ⟨18⟩ ∧
      (ValueType.extended ⟨⟨0⟩, ⟨18⟩⟩).name sample.session ≠
        (ValueType.extended ⟨⟨0⟩, ⟨20⟩⟩).name sample.session := by
  have hv : sample.Issued (.extended ⟨⟨0⟩, ⟨18⟩⟩) := by simp [Issued, answers_sample]
  have hw : sample.Issued (.extended ⟨⟨0⟩, ⟨20⟩⟩) := by simp [Issued, answers_sample]
  have hlater : sample.Later (sample.perform ⟨0⟩ (.parse "i99")) :=
    .single (.perform ⟨0⟩ (.parse "i99") (by decide))
  have hsample := reachable_sample.canonical_priority
  have hbeyond : ∀ H', sample.Later H' → (H'.session.context ⟨0⟩).BeyondTable ⟨18⟩ :=
    fun H' h => (hsample.1 _ hv H' h).2
  refine ⟨hv, hw, hbeyond _ hlater, fun hname => ?_⟩
  have heq := (hsample.2 ⟨0⟩ _ _ hv hw rfl rfl).2.mpr hname
  cases heq

end CodegenTypes.History
