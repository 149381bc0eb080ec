import CodegenTypes.Proofs.History.Ends

namespace CodegenTypes.History

structure Sound (H : History) : Prop where
  session : H.session.WellFormed
  answers : ∀ a ∈ H.answers, a.Meaningful H.session

variable {H H' : History} {v : ValueType}

theorem Sound.start : start.Sound where
  session := Session.wellFormed_fresh
  answers := by
    intro a ha
    cases ha

theorem Sound.exists_hasForm (hH : H.Sound) (hv : H.Issued v) : ∃ F, v.HasForm H.session F := by
  cases v with
  | simple m => exact ⟨m.form, .simple m⟩
  | extended x => exact hH.answers _ hv

theorem Sound.step (hH : H.Sound) (h : H.Step H') : H'.Sound ∧ H ≤ H' := by
  cases h with
  | perform k r hr =>
    have he := Request.ends_run hH.session k r fun v hv => hH.exists_hasForm (hr v hv)
    rw [perform]
    generalize r.run k H.session = result at he
    cases he with
    | error e => exact ⟨hH, le_rfl⟩
    | @ok a t ht hle ha =>
      refine ⟨⟨ht, ?_⟩, hle, List.suffix_cons a H.answers⟩
      intro b hb
      cases hb with
      | head => exact ha
      | tail _ hb => exact (hH.answers b hb).mono hle

theorem Sound.later (hH : H.Sound) (h : H.Later H') : H'.Sound ∧ H ≤ H' := by
  induction h with
  | refl => exact ⟨hH, le_rfl⟩
  | tail _ hstep ih =>
    obtain ⟨hs, hle⟩ := ih.1.step hstep
    exact ⟨hs, ih.2.trans hle⟩

theorem Reachable.sound (hH : H.Reachable) : H.Sound := (Sound.start.later hH).1

/-- The contexts of a session are well formed at all times. -/
theorem Reachable.wellFormed_context (hH : H.Reachable) (k : ContextId) :
    (H.session.context k).WellFormed := hH.sound.session k

theorem wellFormed_sample :
    sample.Reachable ∧ (sample.session.context ⟨0⟩).types =
        Context.reserved ++ [.integer 17, .vector ⟨17⟩ ⟨3, false⟩, .integer 34,
          .vector ⟨19⟩ ⟨3, false⟩] ∧
      (sample.session.context ⟨0⟩).WellFormed :=
  ⟨reachable_sample, by decide +kernel, reachable_sample.wellFormed_context ⟨0⟩⟩

end CodegenTypes.History
