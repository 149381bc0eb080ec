import CodegenTypes.Proofs.History.Faults
import CodegenTypes.Proofs.History.Stability

/-! Handles are positions, and nothing more.  A context refuses a handle that it has not issued
while it is too short for the position, and afterwards takes the handle for its own. -/

namespace CodegenTypes

/-- The context `k` knows nothing of `h`, and says so wherever it is asked. -/
structure Session.Refuses (s : Session) (k : ContextId) (h : Handle) : Prop where
  get? : (s.context k).get? h = none
  get : (s.context k).get h = .error (.unknownHandle h)
  vector : ∀ c, (Request.internVector h c).run k s =
    .error (.rejected (.type (.unknownHandle h))) s
  ofIR : ValueType.ofIR k h s = .error (.rejected (.type (.unknownHandle h)))

/-- The context `k` works with `h` as the handle of `t`, and finds nothing strange in it. -/
structure Session.Takes (s : Session) (k : ContextId) (h : Handle) (t : IRType) : Prop where
  get? : (s.context k).get? h = some t
  get : (s.context k).get h = .ok t
  vector : t.isElement → ∀ c, c.fitsVector →
    ∃ j s', (Request.internVector h c).run k s = .ok (.handle k j) s' ∧
      (s'.context k).get? j = some (.vector h c)
  known : ∀ c s', (Request.internVector h c).run k s ≠
    .error (.rejected (.type (.unknownHandle h))) s'
  ofIR : ∃ v, ValueType.ofIR k h s = .ok v ∧ v.toIR k s = .ok h s

theorem Request.run_intern_of_error {s : Session} {k : ContextId} {t : IRType} {e : TypeError}
    (hc : (s.context k).check t = .error e) :
    (intern t).run k s = .error (.rejected (.type e)) s :=
  map_eq_error_iff.mpr (ValueType.within_intern_of_error hc)

theorem Context.check_vector_ne_unknown {Γ : Context} {h : Handle} {t : IRType} {c : Lanes}
    (ht : Γ.get? h = some t) : Γ.check (.vector h c) ≠ .error (.unknownHandle h) := by
  rw [check, ht]
  by_cases hel : t.isElement
  · by_cases hc : c.fitsVector <;> simp [hel, hc]
  · simp [hel]

namespace Session.WellFormed

variable {s : Session} {k : ContextId} {h : Handle} {t : IRType}

theorem refuses (hs : s.WellFormed) (hh : (s.context k).size ≤ h.index) : s.Refuses k h := by
  have hnone := Context.get?_eq_none_iff.mpr hh
  refine ⟨hnone, Context.get_eq_error_iff.mpr ⟨hh, rfl⟩, fun c => ?_, ?_⟩
  · apply Request.run_intern_of_error
    rw [Context.check, hnone]
  · exact (ValueType.ofIR_eq_unknownHandle_iff hs).mpr hh

theorem refuses_iff (hs : s.WellFormed) : s.Refuses k h ↔ (s.context k).size ≤ h.index :=
  ⟨fun hr => Context.get?_eq_none_iff.mp hr.get?, hs.refuses⟩

theorem takes (hs : s.WellFormed) (ht : (s.context k).get? h = some t)
    (hh : Context.reserved.length ≤ h.index) : s.Takes k h t := by
  have hlt := Context.index_lt_size_iff.mpr ⟨t, ht⟩
  refine ⟨ht, Context.get_eq_ok_iff.mpr ht, fun hel c hc => ?_, fun c s' he => ?_, ?_⟩
  · have hrun := Request.run_intern_of_check (k := k)
      (Context.check_vector_iff.mpr ⟨hc, t, ht, hel⟩)
    exact ⟨_, _, hrun, (Request.get?_of_run_intern hs hrun).2.2⟩
  · cases hc : (s.context k).check (.vector h c) with
    | ok _ => cases (Request.run_intern_of_check hc).symm.trans he
    | error e =>
      cases (Request.run_intern_of_error hc).symm.trans he
      exact Context.check_vector_ne_unknown ht hc
  · refine ValueType.exists_ofIR hs hlt ?_
    rintro rfl
    revert hh
    decide

end Session.WellFormed

namespace History

variable {H : History} {a : ContextId} {h : Handle}

/-- A handle from elsewhere is refused while the context is too short for its position, and never
once it is not.  The type that the context then has at the position need not be the one that the
handle was issued for, and both stay what they are. -/
theorem Reachable.handle_elsewhere (hH : H.Reachable) (ha : .handle a h ∈ H.answers)
    (hh : Context.reserved.length ≤ h.index) (b : ContextId) :
    (H.session.Refuses b h ↔ (H.session.context b).size ≤ h.index) ∧
    (∃ t, ∀ H', H.Later H' → H'.session.Takes a h t) ∧
    (∀ u, (H.session.context b).get? h = some u → ∀ H', H.Later H' → H'.session.Takes b h u) ∧
    ∀ u, (H.session.context b).size = h.index → (H.session.context b).check u = .ok () →
      (H.session.context b).find? u = none → (H.perform b (.intern u)).session.Takes b h u := by
  have hs := hH.sound.session
  have hkeeps : ∀ k t, (H.session.context k).get? h = some t →
      ∀ H', H.Later H' → H'.session.Takes k h t := by
    intro k t ht H' hlater
    obtain ⟨hH', hle, -⟩ := hH.sound.later hlater
    exact hH'.session.takes (Context.get?_mono (hle k) ht) hh
  refine ⟨hs.refuses_iff, ?_, hkeeps b, fun u hsize hc hf => ?_⟩
  · obtain ⟨t, ht⟩ := hH.sound.answers _ ha
    exact ⟨t, hkeeps a t ht⟩
  · have hrun := Request.run_intern_of_check hc
    have hend : ((H.session.context b).insert u).1 = h := by
      rw [Context.insert, hf, hsize]
    apply (hH.perform b (.intern u) (List.forall_mem_nil _)).sound.session.takes ?_ hh
    rw [session_perform hrun, Session.context_set_self, ← hend]
    exact Context.get?_insert _ u

/-- Two contexts that have each interned one odd width, at the same position. -/
def twins : History :=
  start.perform ⟨0⟩ (.internInteger 17) |>.perform ⟨1⟩ (.internInteger 19)

theorem answers_twins : twins.answers = [.handle ⟨1⟩ ⟨17⟩, .handle ⟨0⟩ ⟨17⟩] := rfl

theorem reachable_twins : twins.Reachable := by
  have start : Reachable start := Relation.ReflTransGen.refl
  have first := start.perform ⟨0⟩ (.internInteger 17) nofun
  exact first.perform ⟨1⟩ (.internInteger 19) nofun

/-- The handle of `i17` is refused by a third context, until that has a type of its own there. -/
theorem handle_elsewhere_twins :
    twins.Reachable ∧ .handle ⟨0⟩ ⟨17⟩ ∈ twins.answers ∧
      (∃ t, twins.session.Takes ⟨0⟩ ⟨17⟩ t) ∧ twins.session.Refuses ⟨2⟩ ⟨17⟩ ∧
      (twins.perform ⟨2⟩ (.intern (.integer 21))).session.Takes ⟨2⟩ ⟨17⟩ (.integer 21) := by
  have ha : .handle ⟨0⟩ ⟨17⟩ ∈ twins.answers := by simp [answers_twins]
  obtain ⟨hrefuses, ⟨t, ht⟩, -, hnext⟩ := reachable_twins.handle_elsewhere ha (by decide) ⟨2⟩
  exact ⟨reachable_twins, ha, ⟨t, ht _ .refl⟩, hrefuses.mpr (by decide), hnext _ rfl rfl rfl⟩

/-- Between the twins the handle of `i17` is not refused, and stands for `i19`. -/
theorem handle_mistaken_twins :
    twins.Reachable ∧ .handle ⟨0⟩ ⟨17⟩ ∈ twins.answers ∧ Context.reserved.length ≤ 17 ∧
      twins.session.Takes ⟨0⟩ ⟨17⟩ (.integer 17) ∧ twins.session.Takes ⟨1⟩ ⟨17⟩ (.integer 19) ∧
      ¬twins.session.Refuses ⟨1⟩ ⟨17⟩ := by
  have hs := reachable_twins.sound.session
  have htaken : twins.session.Takes ⟨1⟩ ⟨17⟩ (.integer 19) :=
    hs.takes rfl (by decide)
  refine ⟨reachable_twins, by simp [answers_twins], by decide, ?_, htaken, fun hr => ?_⟩
  · exact hs.takes rfl (by decide)
  · cases hr.get?.symm.trans htaken.get?

end History

end CodegenTypes
