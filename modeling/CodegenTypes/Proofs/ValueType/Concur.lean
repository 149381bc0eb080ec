import CodegenTypes.Proofs.Form.Held
import CodegenTypes.Proofs.ValueType.Settle

/-! Two runs concur when neither shows where it ran: both answer, and the answers read the
same, or both fail with one error.  What settles on the same form concurs in any two
sessions. -/

namespace CodegenTypes

inductive Concur {α : Type} (R : α → Session → α → Session → Prop) :
    EStateM.Result Failure Session α → EStateM.Result Failure Session α → Prop
  | ok {a b : α} {s t : Session} (h : R a s b t) : Concur R (.ok a s) (.ok b t)
  | error (e : Failure) {s t : Session} : Concur R (.error e s) (.error e t)

def ValueType.SameName (v : ValueType) (s : Session) (w : ValueType) (t : Session) : Prop :=
  ∃ name, v.name s = .ok name ∧ w.name t = .ok name

def Handle.SameText (j k : ContextId) (h : Handle) (s : Session) (i : Handle) (t : Session) : Prop :=
  (s.context j).display h = (t.context k).display i

variable {s t : Session} {j k : ContextId} {v w : ValueType} {F : Form}

theorem Form.materialize_concur (hs : s.WellFormed) (ht : t.WellFormed) (j k : ContextId)
    (F : Form) : Concur (Handle.SameText j k) (F.materialize j s) (F.materialize k t) := by
  by_cases hF : (s.context j).hold F = none
  · have hF' : (t.context k).hold F = none :=
      Context.hold_eq_none_iff.mpr (Context.hold_eq_none_iff.mp hF)
    rw [materialize, materialize, hF, hF']
    exact .error _
  · have hF' : (t.context k).hold F ≠ none := fun h =>
      hF (Context.hold_eq_none_iff.mpr (Context.hold_eq_none_iff.mp h))
    obtain ⟨h, s', hh⟩ := exists_materialize hF
    obtain ⟨i, t', hi⟩ := exists_materialize hF'
    obtain ⟨hs', -, hsh⟩ := materialize_ok hs hh
    obtain ⟨ht', -, hti⟩ := materialize_ok ht hi
    rw [hh, hi]
    exact .ok (hsh.display_eq (hs' j) (ht' k) hti)

namespace ValueType

theorem HasForm.sameName (hs : s.WellFormed) (ht : t.WellFormed) (hv : v.HasForm s F)
    (hw : w.HasForm t F) : v.SameName s w t := ⟨F.name, hv.name hs, hw.name ht⟩

theorem HasForm.of_name_eq (hs : s.WellFormed) (ht : t.WellFormed) {G : Form} (hv : v.HasForm s F)
    (hw : w.HasForm t G) (h : v.name s = w.name t) : w.HasForm t F := by
  rw [hv.name hs, hw.name ht] at h
  rw [Form.name_injective (Except.ok.inj h)]
  exact hw

end ValueType

theorem Form.settle_concur (hs : s.WellFormed) (ht : t.WellFormed) (j k : ContextId)
    (r : Except ValueTypeError Form) :
    Concur ValueType.SameName (settle j r s) (settle k r t) := by
  cases r with
  | error e => exact .error _
  | ok F =>
    obtain ⟨v, s', hv, hs', -, hvF, -⟩ := exists_settle hs j F
    obtain ⟨w, t', hw, ht', -, hwF, -⟩ := exists_settle ht k F
    rw [hv, hw]
    exact .ok (hvF.sameName hs' ht' hwF)

namespace ValueType

section Questions

variable (hs : s.WellFormed) (ht : t.WellFormed) (hv : v.HasForm s F) (hw : w.HasForm t F)
include hs ht hv hw

theorem scalarType_concur :
    ∃ a b, v.scalarType s = .ok a ∧ w.scalarType t = .ok b ∧ a.SameName s b t := by
  obtain ⟨j, hj⟩ := v.exists_belongsTo
  obtain ⟨k, hk⟩ := w.exists_belongsTo
  obtain ⟨a, ha, haF, -⟩ := hv.scalarType hj
  obtain ⟨b, hb, hbF, -⟩ := hw.scalarType hk
  exact ⟨a, b, ha, hb, haF.sameName hs ht hbF⟩

theorem elementType_concur :
    Concur SameName (ask v.elementType s) (ask w.elementType t) := by
  have hv' := hv.elementType hs
  have hw' := hw.elementType ht
  split at hv'
  · next hl =>
    rw [if_pos hl] at hw'
    obtain ⟨a, b, ha, hb, hab⟩ := scalarType_concur hs ht hv hw
    rw [ask_of_ok (hv'.trans ha), ask_of_ok (hw'.trans hb)]
    exact .ok hab
  · next hl =>
    rw [if_neg hl] at hw'
    rw [ask_of_error hv', ask_of_error hw']
    exact .error _

theorem toIR_concur (hj : v.BelongsTo j) (hk : w.BelongsTo k) :
    Concur (Handle.SameText j k) (v.toIR j s) (w.toIR k t) := by
  rw [toIR_eq hs hv hj, toIR_eq ht hw hk]
  exact Form.materialize_concur hs ht j k F

end Questions

end ValueType

end CodegenTypes
