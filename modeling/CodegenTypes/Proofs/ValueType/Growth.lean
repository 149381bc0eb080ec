import CodegenTypes.Proofs.Form.Growth
import CodegenTypes.Proofs.ValueType.Settled

namespace CodegenTypes

def ValueType.HasIRType (v : ValueType) (k : ContextId) (s : Session) (t : IRType) : Prop :=
  ∃ h, v.toIR k s = .ok h s ∧ (s.context k).get? h = some t

inductive Grown (k : ContextId) (s : Session) : ValueType → Session → Prop
  | simple (m : MachineType) : Grown k s (.simple m) s
  | extended {h : Handle} {e : ValueType} {t u : IRType} {r : Session}
      (he : (ValueType.extended ⟨k, h⟩).scalarType r = .ok e) (ht : e.HasIRType k r t)
      (hu : (ValueType.extended ⟨k, h⟩).HasIRType k r u)
      (hr : r = s.set k ((s.context k).adjoin [t, u])) :
      Grown k s (.extended ⟨k, h⟩) r

variable {s r : Session} {k : ContextId} {v : ValueType} {F : Form} {h : Handle} {t : IRType}

theorem ValueType.HasForm.hasIRType (hs : s.WellFormed) (hv : v.HasForm s F) (hk : v.BelongsTo k)
    (hF : (s.context k).Holds h F) (ht : (s.context k).get? h = some t) : v.HasIRType k s t :=
  ⟨h, (ValueType.toIR_eq hs hv hk).trans (Form.materialize_of_holds hs hF), ht⟩

namespace Form

theorem exists_number_of_machine?_none (hm : F.machine? = none) :
    ∃ e, F.scalar = .number e ∧ F.leaf? = some e.irType := by
  cases F with
  | invalid => cases hm
  | mark k hk => rw [machine?_mark] at hm; cases hm
  | number e => exact ⟨e, rfl, rfl⟩
  | vector e c hc => exact ⟨e, rfl, rfl⟩

theorem grown_of_materialize (hs : s.WellFormed) (hm : F.machine? = none)
    (hh : F.materialize k s = .ok h r) : Grown k s (.extended ⟨k, h⟩) r := by
  obtain ⟨hr, -, hF⟩ := materialize_ok hs hh
  have hx : (ValueType.extended ⟨k, h⟩).HasForm r F := .extended hF hm
  obtain ⟨d, hscalar, hleaf⟩ := exists_number_of_machine?_none hm
  obtain ⟨e, he, heF, hek⟩ := hx.scalarType (k := k) rfl
  rw [hscalar] at heF
  obtain ⟨j, hj, hej⟩ := heF.exists_toIR hr hek
  obtain ⟨Γ, hΓ, rfl⟩ := materialize_eq_ok_iff.mp hh
  obtain ⟨t, u, ht, hu, -, rfl⟩ := Context.hold_eq_adjoin hΓ
  cases hleaf.symm.trans ht
  rw [← Session.context_set_self s k (Context.adjoin _ _)] at hu
  exact .extended he ⟨j, hej, hj⟩ (hx.hasIRType hr rfl hF hu) rfl

theorem grown_of_realize (hs : s.WellFormed) (hv : F.realize k s = .ok v r) : Grown k s v r := by
  rcases realize_ok hv with ⟨m, -, rfl, rfl⟩ | ⟨hm, h, hh, rfl⟩
  · exact .simple m
  · exact grown_of_materialize hs hm hh

theorem materialize_of_machine? (hs : s.WellFormed) {m : MachineType} (hm : F.machine? = some m)
    (hh : F.materialize k s = .ok h r) :
    ∃ u, (r.context k).get? h = some u ∧
      (r = s ∨ u.isVector ∧ r = s.set k ((s.context k).adjoin [u])) := by
  obtain ⟨Γ, hΓ, rfl⟩ := materialize_eq_ok_iff.mp hh
  obtain ⟨u, hu, hgrown⟩ := (hs k).hold_of_machine? hm hΓ
  rw [Session.context_set_self]
  refine ⟨u, hu, ?_⟩
  rcases hgrown with rfl | ⟨hv, rfl⟩
  · exact .inl (Session.set_context s k)
  · exact .inr ⟨hv, rfl⟩

end Form

theorem Settled.grown (hs : s.WellFormed) (h : Settled k s (.ok v r)) : Grown k s v r := by
  cases h with
  | realized hF => exact Form.grown_of_realize hs hF

end CodegenTypes
