import CodegenTypes.Proofs.ValueType.Derived
import CodegenTypes.Proofs.ValueType.Reading

namespace CodegenTypes

inductive Settled (k : ContextId) (s : Session) : EStateM.Result Failure Session ValueType → Prop
  | realized {F : Form} {v : ValueType} {t : Session} (h : F.realize k s = .ok v t) :
      Settled k s (.ok v t)
  | failed (e : Failure) : Settled k s (.error e s)

/-- How a run in the context `k` ends that works on the value types `vs`.  There is an answer
only if all of them are at home, and a fault is the first that is not. -/
inductive Guarded {α : Type} (P : α → Session → Prop) (k : ContextId) (vs : List ValueType)
    (s : Session) : EStateM.Result Failure Session α → Prop
  | ok {a : α} {t : Session} (hvs : ∀ v ∈ vs, v.BelongsTo k) (ha : P a t) :
      Guarded P k vs s (.ok a t)
  | rejected (e : ValueTypeError) : Guarded P k vs s (.error (.rejected e) s)
  | foreign {v : ValueType} {name : String} (hv : v ∈ vs) (hk : ¬v.BelongsTo k)
      (hname : v.name s = .ok name) : Guarded P k vs s (.error (.fault (.foreignType name)) s)

abbrev Realizes (k : ContextId) (s : Session) (v : ValueType) (t : Session) : Prop :=
  ∃ F : Form, F.realize k s = .ok v t

namespace Guarded

section Run

variable {α β : Type} {P : α → Session → Prop} {s : Session} {k : ContextId} {v : ValueType}
  {vs : List ValueType} {F : Form}

theorem settled {r : EStateM.Result Failure Session ValueType}
    (h : Guarded (Realizes k s) k vs s r) : Settled k s r := by
  cases h with
  | ok hvs ha =>
    obtain ⟨F, hF⟩ := ha
    exact .realized hF
  | rejected e => exact .failed _
  | foreign hv hk hname => exact .failed _

theorem map {f : α → β} {Q : β → Session → Prop} {run : Interning α}
    (h : Guarded P k vs s (run s)) (hf : ∀ {a t}, P a t → Q (f a) t) :
    Guarded Q k vs s ((f <$> run) s) := by
  change Guarded Q k vs s (EStateM.map f run s)
  rw [EStateM.map]
  generalize run s = r at h
  cases h with
  | ok hvs ha => exact .ok hvs (hf ha)
  | rejected e => exact .rejected e
  | foreign hv hk hname => exact .foreign hv hk hname

theorem cons {r : EStateM.Result Failure Session α} (hk : v.BelongsTo k)
    (h : Guarded P k vs s r) : Guarded P k (v :: vs) s r := by
  cases h with
  | ok hvs ha => exact .ok (List.forall_mem_cons.mpr ⟨hk, hvs⟩) ha
  | rejected e => exact .rejected e
  | foreign hv hk hname => exact .foreign (List.mem_cons_of_mem _ hv) hk hname

theorem checkOwner {next : Interning α} (hs : s.WellFormed) (hv : v.HasForm s F) (hmem : v ∈ vs)
    (hn : v.BelongsTo k → Guarded P k vs s (next s)) :
    Guarded P k vs s ((v.checkOwner k >>= fun _ => next) s) := by
  by_cases hk : v.BelongsTo k
  · rw [bind_of_ok (ValueType.checkOwner_of_belongsTo hk)]
    exact hn hk
  · rw [bind_of_error (ValueType.checkOwner_of_not_belongsTo hs hv hk)]
    exact .foreign hmem hk (hv.name hs)

theorem elementCount {next : Lanes → Interning α} (hs : s.WellFormed) (hv : v.HasForm s F)
    (hn : ∀ c, Guarded P k vs s (next c s)) :
    Guarded P k vs s ((ask v.elementCount >>= next) s) := by
  have hc := hv.elementCount hs
  cases hF : F.elementCount with
  | ok c =>
    rw [hF] at hc
    rw [bind_of_ok (ask_of_ok hc)]
    exact hn c
  | error e =>
    rw [hF] at hc
    rw [bind_of_error (ask_of_error hc)]
    exact .rejected e

end Run

variable {s : Session} {k : ContextId} {v w : ValueType} {vs : List ValueType} {F G : Form}

theorem settle (hs : s.WellFormed) (hvs : ∀ v ∈ vs, v.BelongsTo k)
    (r : Except ValueTypeError Form) : Guarded (Realizes k s) k vs s (Form.settle k r s) := by
  cases r with
  | ok F =>
    obtain ⟨v, t, hv, -⟩ := Form.exists_settle hs k F
    rw [hv]
    exact .ok hvs ⟨F, hv⟩
  | error e => exact .rejected e

theorem of_checkOwner {run next : Interning ValueType} {r : Except ValueTypeError Form}
    (hs : s.WellFormed) (hv : v.HasForm s F) (hrun : run = v.checkOwner k >>= fun _ => next)
    (hr : v.BelongsTo k → run s = Form.settle k r s) :
    Guarded (Realizes k s) k [v] s (run s) := by
  rw [hrun] at hr ⊢
  apply checkOwner hs hv (List.mem_singleton_self v)
  intro hk
  have hnext : (v.checkOwner k >>= fun _ => next) s = next s :=
    bind_of_ok (ValueType.checkOwner_of_belongsTo hk)
  rw [← hnext, hr hk]
  exact settle hs (List.forall_mem_singleton.mpr hk) r

theorem integer (hs : s.WellFormed) (k : ContextId) (bits : UInt32) :
    Guarded (Realizes k s) k [] s (ValueType.integer k bits s) := by
  rw [ValueType.integer_eq]
  exact settle hs (List.forall_mem_nil _) _

theorem parse (hs : s.WellFormed) (k : ContextId) (text : String) :
    Guarded (Realizes k s) k [] s (ValueType.parse k text s) := by
  rw [ValueType.parse_eq hs]
  exact settle hs (List.forall_mem_nil _) _

section Operand

variable (hs : s.WellFormed) (hv : v.HasForm s F)
include hs hv

theorem vector (c : Lanes) : Guarded (Realizes k s) k [v] s (ValueType.vector k v c s) := by
  by_cases hk : v.BelongsTo k
  · rw [ValueType.vector_eq hs hv hk]
    exact settle hs (List.forall_mem_singleton.mpr hk) _
  · rw [ValueType.vector_of_not_belongsTo hs hv hk]
    cases F.isNumber with
    | true => exact .foreign (List.mem_singleton_self v) hk (hv.name hs)
    | false => exact .rejected _

theorem widen : Guarded (Realizes k s) k [v] s (v.widen k s) :=
  of_checkOwner hs hv rfl (ValueType.widen_eq hs hv)

theorem half : Guarded (Realizes k s) k [v] s (v.half k s) :=
  of_checkOwner hs hv rfl (ValueType.half_eq hs hv)

theorem toInteger : Guarded (Realizes k s) k [v] s (v.toInteger k s) :=
  of_checkOwner hs hv rfl (ValueType.toInteger_eq hs hv)

theorem withLanes (c : Lanes) : Guarded (Realizes k s) k [v] s (v.withLanes k c s) :=
  of_checkOwner hs hv rfl fun hk => ValueType.withLanes_eq hs hv hk c

theorem double : Guarded (Realizes k s) k [v] s (v.double k s) := by
  -- the lanes are asked for before the owner is checked
  apply elementCount hs hv
  intro c
  cases c.double with
  | error e => exact .rejected _
  | ok d => exact withLanes hs hv d

theorem withElement (hw : w.HasForm s G) :
    Guarded (Realizes k s) k [v, w] s (v.withElement k w s) := by
  apply checkOwner hs hv (List.mem_cons_self ..)
  intro hk
  apply elementCount hs hv
  intro c
  exact cons hk (vector hs hw c)

end Operand

end Guarded

end CodegenTypes
