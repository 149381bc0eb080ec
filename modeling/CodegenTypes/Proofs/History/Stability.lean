import CodegenTypes.Proofs.History.Sound
import CodegenTypes.Proofs.ValueType.Profile

namespace CodegenTypes

namespace Context

variable {Γ : Context} {t : IRType}

theorem intern_of_find? {h : Handle} (hc : Γ.check t = .ok ()) (hf : Γ.find? t = some h) :
    intern t Γ = .ok h Γ := by
  rw [intern_of_check hc, insert, hf]

theorem intern_of_find?_none (hc : Γ.check t = .ok ()) (hf : Γ.find? t = none) :
    intern t Γ = .ok ⟨Γ.size⟩ ⟨Γ.types ++ [t]⟩ := by
  rw [intern_of_check hc, insert, hf]

end Context

theorem Request.run_intern_of_check {s : Session} {k : ContextId} {t : IRType}
    (hc : (s.context k).check t = .ok ()) :
    (intern t).run k s =
      .ok (.handle k ((s.context k).insert t).1) (s.set k ((s.context k).insert t).2) := by
  change EStateM.map (Answer.handle k) _ s = _
  rw [EStateM.map, ValueType.within_intern_of_check hc]

theorem Request.get?_of_run_intern {s s' : Session} {k : ContextId} {t : IRType} {h : Handle}
    (hs : s.WellFormed) (hr : (intern t).run k s = .ok (.handle k h) s') :
    s'.WellFormed ∧ s ≤ s' ∧ (s'.context k).get? h = some t := by
  have he : Ends (fun a s' => ∃ h, a = .handle k h ∧ (s'.context k).get? h = some t) s
      ((intern t).run k s) :=
    (Ends.within_intern hs k t).map fun ht => ⟨_, rfl, ht⟩
  rw [hr] at he
  cases he with
  | ok hs' hle ha =>
    obtain ⟨j, hj, ht⟩ := ha
    cases hj
    exact ⟨hs', hle, ht⟩

namespace History

variable {H H' : History} {k : ContextId}

theorem session_perform {r : Request} {a : Answer} {s : Session}
    (hr : r.run k H.session = .ok a s) : (H.perform k r).session = s := by
  rw [perform, hr]

theorem Reachable.handle_eq_iff (hH : H.Reachable) {t u : IRType} {h j : Handle} {s s' : Session}
    (ht : (Request.intern t).run k H.session = .ok (.handle k h) s)
    (hlater : (H.perform k (.intern t)).Later H')
    (hu : (Request.intern u).run k H'.session = .ok (.handle k j) s') : h = j ↔ t = u := by
  have hp : (H.perform k (.intern t)).Sound := (hH.perform k (.intern t) nofun).sound
  obtain ⟨hsound, hle, -⟩ := hp.later hlater
  obtain ⟨-, -, hh⟩ := Request.get?_of_run_intern hH.sound.session ht
  obtain ⟨hs', hle', hj⟩ := Request.get?_of_run_intern hsound.session hu
  rw [session_perform ht] at hle
  have hh' : (s'.context k).get? h = some t := Context.get?_mono (hle.trans hle' k) hh
  constructor
  · rintro rfl
    exact Option.some.inj (hh'.symm.trans hj)
  · rintro rfl
    exact (hs' k).get?_inj hh' hj

/-- Contexts grow at the end, so handles and value types keep their meaning.  Looking up,
resolving and interning are three views of one correspondence, at any two times. -/
theorem Reachable.handles_stable (hH : H.Reachable) (k : ContextId) :
    (∀ H', H.Later H' →
      (H.session.context k).types <+: (H'.session.context k).types ∧
      (∀ h t, (H.session.context k).get? h = some t → (H'.session.context k).get? h = some t) ∧
      (∀ h, .handle k h ∈ H.answers → ∃ t, (H.session.context k).get? h = some t) ∧
      ∀ v, H.Issued v → v.BelongsTo k →
        (∃ text, v.name H.session = .ok text ∧ v.name H'.session = .ok text) ∧
        v.profile H'.session = v.profile H.session ∧
        v.scalarType H'.session = v.scalarType H.session ∧
        v.elementType H'.session = v.elementType H.session) ∧
    (∀ t h, (H.session.context k).find? t = some h ↔ (H.session.context k).get? h = some t) ∧
    (∀ t, (H.session.context k).check t = .ok () →
      (∀ h, (H.session.context k).find? t = some h →
        Context.intern t (H.session.context k) = .ok h (H.session.context k)) ∧
      ((H.session.context k).find? t = none →
        Context.intern t (H.session.context k) =
          .ok ⟨(H.session.context k).size⟩ ⟨(H.session.context k).types ++ [t]⟩)) ∧
    ∀ t h s, (Request.intern t).run k H.session = .ok (.handle k h) s →
      ∀ H', (H.perform k (.intern t)).Later H' →
        ∀ u j s', (Request.intern u).run k H'.session = .ok (.handle k j) s' →
          (h = j ↔ t = u) := by
  have hs := hH.sound.session
  refine ⟨?_, fun t h => (hs k).find?_eq_some_iff, fun t hc => ⟨fun h hf => ?_, fun hf => ?_⟩, ?_⟩
  · intro H' hlater
    obtain ⟨hH', hle, -⟩ := hH.sound.later hlater
    refine ⟨hle k, fun h t => Context.get?_mono (hle k), fun h => hH.sound.answers (.handle k h), ?_⟩
    intro v hv hk
    obtain ⟨F, hF⟩ := hH.sound.exists_hasForm hv
    refine ⟨⟨F.name, hF.name hs, (hF.mono hle).name hH'.session⟩, ?_, ?_, ?_⟩
    · rw [hF.profile hs, (hF.mono hle).profile hH'.session]
    · exact hF.scalarType_mono hle hH'.session
    · exact hF.elementType_mono hle hs hH'.session
  · exact Context.intern_of_find? hc hf
  · exact Context.intern_of_find?_none hc hf
  · intro t h s ht H' hlater u j s' hu
    exact hH.handle_eq_iff ht hlater hu

theorem handles_stable_sample :
    sample.Reachable ∧ sample.Issued (.extended ⟨⟨0⟩, ⟨18⟩⟩) ∧
      (ValueType.extended ⟨⟨0⟩, ⟨18⟩⟩).profile (sample.perform ⟨0⟩ (.parse "i99")).session =
        (ValueType.extended ⟨⟨0⟩, ⟨18⟩⟩).profile sample.session ∧
      ((⟨17⟩ : Handle) = ⟨21⟩ ↔ IRType.integer 17 = .integer 21) := by
  have hv : sample.Issued (.extended ⟨⟨0⟩, ⟨18⟩⟩) := by simp [Issued, answers_sample]
  have hlater : sample.Later (sample.perform ⟨0⟩ (.parse "i99")) :=
    .single (.perform ⟨0⟩ (.parse "i99") nofun)
  have hstable := reachable_sample.handles_stable ⟨0⟩
  have hold := Request.run_intern_of_check (k := ⟨0⟩)
    (show (sample.session.context ⟨0⟩).check (.integer 17) = .ok () by decide +kernel)
  have hnew := Request.run_intern_of_check (k := ⟨0⟩)
    (show ((sample.perform ⟨0⟩ (.intern (.integer 17))).session.context ⟨0⟩).check
      (.integer 21) = .ok () by decide +kernel)
  have h17 : ((sample.session.context ⟨0⟩).insert (.integer 17)).1 = ⟨17⟩ := by decide +kernel
  have h21 : (((sample.perform ⟨0⟩ (.intern (.integer 17))).session.context ⟨0⟩).insert
      (.integer 21)).1 = ⟨21⟩ := by decide +kernel
  rw [h17] at hold
  rw [h21] at hnew
  refine ⟨reachable_sample, hv, ?_, ?_⟩
  · exact ((hstable.1 _ hlater).2.2.2 _ hv rfl).2.1
  · exact hstable.2.2.2 _ _ _ hold _ .refl _ _ _ hnew

end History

end CodegenTypes
