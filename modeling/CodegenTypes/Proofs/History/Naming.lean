import CodegenTypes.Proofs.History.Sound

namespace CodegenTypes.History

variable {H : History}

/-- The name of a valid value type at hand reads as the value type, and nothing is interned.
Whatever a text reads as, in the context that it leaves, has the text for a name. -/
theorem Reachable.naming_roundTrip (hH : H.Reachable) (k : ContextId) :
    (∀ v, H.Issued v → v.BelongsTo k → v.isValid →
      ∃ text, v.name H.session = .ok text ∧
        ValueType.parse k text H.session = .ok v H.session) ∧
    ∀ text v s, ValueType.parse k text H.session = .ok v s → v.name s = .ok text := by
  have hs := hH.sound.session
  constructor
  · intro v hv hk hi
    obtain ⟨F, hF⟩ := hH.sound.exists_hasForm hv
    exact ⟨F.name, hF.name hs, hF.parse_name hs hk hi⟩
  · intro text v s h
    exact ValueType.name_of_parse hs h

theorem naming_sample :
    sample.Issued (.extended ⟨⟨0⟩, ⟨18⟩⟩) ∧
      ValueType.parse ⟨0⟩ "v3i17" sample.session =
        .ok (.extended ⟨⟨0⟩, ⟨18⟩⟩) sample.session ∧
      (ValueType.extended ⟨⟨0⟩, ⟨18⟩⟩).name sample.session = .ok "v3i17" := by
  have hv : sample.Issued (.extended ⟨⟨0⟩, ⟨18⟩⟩) := by simp [Issued, answers_sample]
  have hname : (ValueType.extended ⟨⟨0⟩, ⟨18⟩⟩).name sample.session = .ok "v3i17" := by
    decide +kernel
  obtain ⟨text, htext, hparse⟩ := (reachable_sample.naming_roundTrip ⟨0⟩).1 _ hv rfl rfl
  cases hname.symm.trans htext
  exact ⟨hv, hparse, (reachable_sample.naming_roundTrip ⟨0⟩).2 _ _ _ hparse⟩

end CodegenTypes.History
