import CodegenTypes.Proofs.History.Basic
import CodegenTypes.Proofs.ValueType.Lowering
import CodegenTypes.Proofs.ValueType.Settled

namespace CodegenTypes

abbrev Handle.Meaningful (k : ContextId) (h : Handle) (s : Session) : Prop :=
  ∃ t, (s.context k).get? h = some t

abbrev ValueType.Meaningful (v : ValueType) (s : Session) : Prop := ∃ F, v.HasForm s F

def Answer.Meaningful : Answer → Session → Prop
  | handle k h => h.Meaningful k
  | valueType v => v.Meaningful

theorem Answer.Meaningful.mono {s t : Session} {a : Answer} (hle : s ≤ t) (ha : a.Meaningful s) :
    a.Meaningful t := by
  cases a with
  | handle k h =>
    obtain ⟨u, hu⟩ := ha
    exact ⟨u, Context.get?_mono (hle k) hu⟩
  | valueType v =>
    obtain ⟨F, hF⟩ := ha
    exact ⟨F, hF.mono hle⟩

/-- How a run in the session `s` ends, with `P` for its answer. -/
inductive Ends {α : Type} (P : α → Session → Prop) (s : Session) :
    EStateM.Result Failure Session α → Prop
  | ok {a : α} {t : Session} (ht : t.WellFormed) (hle : s ≤ t) (ha : P a t) : Ends P s (.ok a t)
  | error (e : Failure) : Ends P s (.error e s)

namespace Ends

variable {α β : Type} {P : α → Session → Prop} {s : Session} {k : ContextId}

theorem map {f : α → β} {Q : β → Session → Prop} {run : Interning α} (h : Ends P s (run s))
    (hf : ∀ {a t}, P a t → Q (f a) t) : Ends Q s ((f <$> run) s) := by
  change Ends Q s (EStateM.map f run s)
  rw [EStateM.map]
  generalize run s = r at h
  cases h with
  | ok ht hle ha => exact .ok ht hle (hf ha)
  | error e => exact .error e

theorem mono {Q : α → Session → Prop} {r : EStateM.Result Failure Session α} (h : Ends P s r)
    (hQ : ∀ {a t}, P a t → Q a t) : Ends Q s r := by
  cases h with
  | ok ht hle ha => exact .ok ht hle (hQ ha)
  | error e => exact .error e

theorem of_ask (hs : s.WellFormed) {question : Session → Except Failure α}
    (h : ∀ a, question s = .ok a → P a s) : Ends P s (ask question s) := by
  rw [ask]
  cases hq : question s with
  | ok a => exact .ok hs le_rfl (h a hq)
  | error e => exact .error e

theorem within_intern (hs : s.WellFormed) (k : ContextId) (t : IRType) :
    Ends (fun h s' => (s'.context k).get? h = some t) s
      (within k ((Context.intern t).adaptExcept .type) s) := by
  cases hc : (s.context k).check t with
  | ok u =>
    rw [ValueType.within_intern_of_check hc]
    refine .ok (hs.set ((hs k).insert hc)) (Session.le_set (Context.le_insert _ t)) ?_
    rw [Session.context_set_self]
    exact Context.get?_insert _ t
  | error e =>
    rw [ValueType.within_intern_of_error hc]
    exact .error _

theorem materialize (hs : s.WellFormed) (k : ContextId) (F : Form) :
    Ends (fun h t => (t.context k).Holds h F) s (F.materialize k s) := by
  cases hm : F.materialize k s with
  | ok h t =>
    obtain ⟨ht, hle, hh⟩ := Form.materialize_ok hs hm
    exact .ok ht hle hh
  | error e t =>
    rw [Form.materialize] at hm
    split at hm
    · cases hm
    · cases hm
      exact .error _

end Ends

theorem Settled.ends {s : Session} {k : ContextId} {r : EStateM.Result Failure Session ValueType}
    (hs : s.WellFormed) (h : Settled k s r) : Ends ValueType.Meaningful s r := by
  cases h with
  | @realized F v t hF =>
    obtain ⟨G, -, ht, hle, hv, -⟩ := Form.settle_ok (r := .ok F) hs hF
    exact .ok ht hle ⟨G, hv⟩
  | failed e => exact .error e

namespace ValueType

variable {s : Session} {k : ContextId} {v : ValueType} {F : Form}

theorem ends_scalarType (hs : s.WellFormed) (hv : v.HasForm s F) :
    Ends ValueType.Meaningful s (ask v.scalarType s) := by
  obtain ⟨k, hk⟩ := v.exists_belongsTo
  obtain ⟨w, hw, hF, -⟩ := hv.scalarType hk
  rw [ask_of_ok hw]
  exact .ok hs le_rfl ⟨_, hF⟩

theorem ends_elementType (hs : s.WellFormed) (hv : v.HasForm s F) :
    Ends ValueType.Meaningful s (ask v.elementType s) := by
  have he := hv.elementType hs
  split at he
  · rw [ask, he]
    exact ends_scalarType hs hv
  · rw [ask_of_error he]
    exact .error _

theorem ends_toIR (hs : s.WellFormed) (hv : v.HasForm s F) :
    Ends (Handle.Meaningful k) s (v.toIR k s) := by
  by_cases hk : v.BelongsTo k
  · rw [toIR_eq hs hv hk]
    exact (Ends.materialize hs k F).mono fun h => h.exists_get?
  · cases v with
    | simple m => exact absurd trivial hk
    | extended x =>
      rw [toIR, bind_of_error (checkOwner_of_not_belongsTo hs hv hk)]
      exact .error _

end ValueType

namespace Request

variable {s : Session} {k : ContextId}

theorem ends_handle {run : Interning Handle}
    (h : Ends (Handle.Meaningful k) s (run s)) :
    Ends Answer.Meaningful s ((Answer.handle k <$> run) s) := h.map id

theorem ends_valueType {run : Interning ValueType}
    (h : Ends ValueType.Meaningful s (run s)) :
    Ends Answer.Meaningful s ((Answer.valueType <$> run) s) := h.map id

theorem ends_intern (hs : s.WellFormed) (k : ContextId) (t : IRType) :
    Ends Answer.Meaningful s ((intern t).run k s) :=
  ends_handle ((Ends.within_intern hs k t).mono fun h => ⟨t, h⟩)

theorem ends_ofIR (hs : s.WellFormed) (k : ContextId) (h : Handle) :
    Ends Answer.Meaningful s ((ofIR h).run k s) := by
  apply ends_valueType
  apply Ends.of_ask hs
  intro v hv
  rcases ValueType.ofIR_cases hs k h with ⟨-, he⟩ | ⟨-, he⟩ | ⟨F, hF, he⟩
  · cases he.symm.trans hv
  · cases he.symm.trans hv
  · cases he.symm.trans hv
    exact ⟨F, ValueType.hasForm_ofHandle hF⟩

def Makes : Request → Prop
  | integer _ | vector _ _ | parse _ | widen _ | half _ | toInteger _ | double _ | withLanes _ _
  | withElement _ _ => True
  | intern _ | internInteger _ | internFloat _ | internVector _ _ | materialize _ | ofIR _
  | toIR _ | float _ | scalarType _ | elementType _ => False

theorem guarded_of_makes (hs : s.WellFormed) (k : ContextId) {r : Request} (hm : r.Makes)
    (hr : ∀ v ∈ r.operands, v.Meaningful s) :
    ∃ run : Interning ValueType, r.run k = Answer.valueType <$> run ∧
      Guarded (Realizes k s) k r.operands s (run s) := by
  cases r with
  | integer bits => exact ⟨_, rfl, .integer hs k bits⟩
  | parse text => exact ⟨_, rfl, .parse hs k text⟩
  | vector v c =>
    obtain ⟨F, hF⟩ := hr v (by simp [operands])
    exact ⟨_, rfl, .vector hs hF c⟩
  | widen v =>
    obtain ⟨F, hF⟩ := hr v (by simp [operands])
    exact ⟨_, rfl, .widen hs hF⟩
  | half v =>
    obtain ⟨F, hF⟩ := hr v (by simp [operands])
    exact ⟨_, rfl, .half hs hF⟩
  | toInteger v =>
    obtain ⟨F, hF⟩ := hr v (by simp [operands])
    exact ⟨_, rfl, .toInteger hs hF⟩
  | double v =>
    obtain ⟨F, hF⟩ := hr v (by simp [operands])
    exact ⟨_, rfl, .double hs hF⟩
  | withLanes v c =>
    obtain ⟨F, hF⟩ := hr v (by simp [operands])
    exact ⟨_, rfl, .withLanes hs hF c⟩
  | withElement v w =>
    obtain ⟨F, hF⟩ := hr v (by simp [operands])
    obtain ⟨G, hG⟩ := hr w (by simp [operands])
    exact ⟨_, rfl, .withElement hs hF hG⟩
  | _ => exact hm.elim

theorem settled_of_makes (hs : s.WellFormed) (k : ContextId) {r : Request} (hm : r.Makes)
    (hr : ∀ v ∈ r.operands, v.Meaningful s) :
    ∃ run : Interning ValueType, r.run k = Answer.valueType <$> run ∧ Settled k s (run s) := by
  obtain ⟨run, hrun, hguarded⟩ := guarded_of_makes hs k hm hr
  exact ⟨run, hrun, hguarded.settled⟩

theorem ends_run (hs : s.WellFormed) (k : ContextId) (r : Request)
    (hr : ∀ v ∈ r.operands, v.Meaningful s) :
    Ends Answer.Meaningful s (r.run k s) := by
  by_cases hm : r.Makes
  · obtain ⟨run, hrun, hsettled⟩ := settled_of_makes hs k hm hr
    rw [hrun]
    exact ends_valueType (hsettled.ends hs)
  · cases r with
    | intern t => exact ends_intern hs k t
    | internInteger bits => exact ends_intern hs k (.integer bits)
    | internFloat format => exact ends_intern hs k (.float format)
    | internVector j c => exact ends_intern hs k (.vector j c)
    | materialize m => exact ends_handle (ValueType.ends_toIR hs (.simple m))
    | ofIR h => exact ends_ofIR hs k h
    | toIR v =>
      obtain ⟨F, hF⟩ := hr v (by simp [operands])
      exact ends_handle (ValueType.ends_toIR hs hF)
    | float format => exact .ok hs le_rfl ⟨_, .simple _⟩
    | scalarType v =>
      obtain ⟨F, hF⟩ := hr v (by simp [operands])
      exact ends_valueType (ValueType.ends_scalarType hs hF)
    | elementType v =>
      obtain ⟨F, hF⟩ := hr v (by simp [operands])
      exact ends_valueType (ValueType.ends_elementType hs hF)
    | _ => exact absurd trivial hm

end Request

end CodegenTypes
