import CodegenTypes.Proofs.History.Growth

namespace CodegenTypes

def Answer.BelongsTo (k : ContextId) : Answer → Prop
  | handle j _ => j = k
  | valueType v => v.BelongsTo k

/-- The requests that are put to a value type and to no context. -/
def Request.Projects : Request → Prop
  | scalarType _ | elementType _ => True
  | _ => False

theorem Request.asks_of_projects {r : Request} (h : r.Projects) : r.Asks := by
  cases r <;> first | exact h | exact h.elim

variable {s t : Session} {k : ContextId}

theorem Form.belongsTo_of_realize {F : Form} {v : ValueType} (h : F.realize k s = .ok v t) :
    v.BelongsTo k ∧ s.AgreeOff k t := by
  rcases realize_ok h with ⟨m, -, rfl, rfl⟩ | ⟨-, j, hj, rfl⟩
  · exact ⟨trivial, .refl k _⟩
  · obtain ⟨Γ, -, rfl⟩ := materialize_eq_ok_iff.mp hj
    exact ⟨rfl, Session.agreeOff_set s k Γ⟩

/-- The run answers with what its context knows, and leaves the others alone. -/
abbrev Confined (k : ContextId) (s : Session) (a : Answer) (t : Session) : Prop :=
  a.BelongsTo k ∧ s.AgreeOff k t

namespace Request

theorem confined_valueType {run : Interning ValueType} {vs : List ValueType}
    (h : Guarded (Realizes k s) k vs s (run s)) :
    Guarded (Confined k s) k vs s ((Answer.valueType <$> run) s) := by
  apply h.map
  rintro v t ⟨F, hF⟩
  exact Form.belongsTo_of_realize hF

theorem confined_handle {run : Interning Handle} {vs : List ValueType}
    (h : Guarded (fun _ t => s.AgreeOff k t) k vs s (run s)) :
    Guarded (Confined k s) k vs s ((Answer.handle k <$> run) s) := h.map fun ht => ⟨rfl, ht⟩

theorem confined_intern (k : ContextId) (u : IRType) :
    Guarded (Confined k s) k [] s ((intern u).run k s) := by
  apply confined_handle
  cases hc : (s.context k).check u with
  | ok _ =>
    rw [ValueType.within_intern_of_check hc]
    exact .ok (List.forall_mem_nil _) (Session.agreeOff_set s k _)
  | error e =>
    rw [ValueType.within_intern_of_error hc]
    exact .rejected _

theorem confined_toIR {v : ValueType} {F : Form} {vs : List ValueType} (hs : s.WellFormed)
    (hv : v.HasForm s F) (hk : v.BelongsTo k) (hvs : ∀ w ∈ vs, w.BelongsTo k) :
    Guarded (Confined k s) k vs s ((Answer.handle k <$> v.toIR k) s) := by
  apply confined_handle
  rw [ValueType.toIR_eq hs hv hk, Form.materialize]
  cases (s.context k).hold F with
  | some p => exact .ok hvs (Session.agreeOff_set s k _)
  | none => exact .rejected _

theorem confined_toIR_operand {v : ValueType} {F : Form} (hs : s.WellFormed)
    (hv : v.HasForm s F) : Guarded (Confined k s) k [v] s ((toIR v).run k s) := by
  by_cases hk : v.BelongsTo k
  · exact confined_toIR hs hv hk (List.forall_mem_singleton.mpr hk)
  · apply confined_handle
    cases v with
    | simple m => exact absurd trivial hk
    | extended x =>
      rw [ValueType.toIR, bind_of_error (ValueType.checkOwner_of_not_belongsTo hs hv hk)]
      exact .foreign (List.mem_singleton_self _) hk (hv.name hs)

theorem confined_ofIR (hs : s.WellFormed) (k : ContextId) (h : Handle) :
    Guarded (Confined k s) k [] s ((ofIR h).run k s) := by
  have hask : Guarded (fun v t => v.BelongsTo k ∧ t = s) k [] s (ask (ValueType.ofIR k h) s) := by
    rcases ValueType.ofIR_cases hs k h with ⟨-, he⟩ | ⟨-, he⟩ | ⟨F, -, hv⟩
    · rw [ask_of_error he]
      exact .rejected _
    · rw [ask_of_error he]
      exact .rejected _
    · rw [ask_of_ok hv]
      exact .ok (List.forall_mem_nil _) ⟨ValueType.belongsTo_ofHandle, rfl⟩
  apply hask.map
  rintro v t ⟨hv, rfl⟩
  exact ⟨hv, .refl k t⟩

theorem confined_run (hs : s.WellFormed) (k : ContextId) {r : Request} (hp : ¬r.Projects)
    (hr : ∀ v ∈ r.operands, v.Meaningful s) :
    Guarded (Confined k s) k r.operands s (r.run k s) := by
  by_cases hm : r.Makes
  · obtain ⟨run, hrun, hguarded⟩ := guarded_of_makes hs k hm hr
    rw [hrun]
    exact confined_valueType hguarded
  · cases r with
    | intern u => exact confined_intern k u
    | internInteger bits => exact confined_intern k (.integer bits)
    | internFloat format => exact confined_intern k (.float format)
    | internVector j c => exact confined_intern k (.vector j c)
    | materialize m => exact confined_toIR hs (.simple m) trivial (List.forall_mem_nil _)
    | ofIR h => exact confined_ofIR hs k h
    | toIR v =>
      obtain ⟨F, hF⟩ := hr v (by simp [operands])
      exact confined_toIR_operand hs hF
    | float format => exact .ok (List.forall_mem_nil _) ⟨trivial, .refl k s⟩
    | scalarType v => exact absurd trivial hp
    | elementType v => exact absurd trivial hp
    | _ => exact absurd trivial hm

inductive Refusal (k : ContextId) (r : Request) (s : Session) : Failure → Prop
  | rejected (e : ValueTypeError) : Refusal k r s (.rejected e)
  | foreign {v : ValueType} {name : String} (hv : v ∈ r.operands) (hk : ¬v.BelongsTo k)
      (hname : v.name s = .ok name) : Refusal k r s (.fault (.foreignType name))

theorem run_cases {r : Request} (hs : s.WellFormed) (k : ContextId) (hp : ¬r.Projects)
    (hr : ∀ v ∈ r.operands, v.Meaningful s) :
    (∃ a t, r.run k s = .ok a t ∧ (∀ v ∈ r.operands, v.BelongsTo k) ∧ Confined k s a t) ∨
      ∃ e, r.run k s = .error e s ∧ r.Refusal k s e := by
  have hc := confined_run hs k hp hr
  generalize r.run k s = result at hc ⊢
  cases hc with
  | ok hvs ha => exact .inl ⟨_, _, rfl, hvs, ha⟩
  | rejected e => exact .inr ⟨_, rfl, .rejected e⟩
  | foreign hv hk hname => exact .inr ⟨_, rfl, .foreign hv hk hname⟩

theorem belongsTo_of_projects {j : ContextId} {r : Request} {a : Answer} (hs : s.WellFormed)
    (hp : r.Projects) (hr : ∀ v ∈ r.operands, v.Meaningful s) (hj : ∀ v ∈ r.operands, v.BelongsTo j)
    (ha : r.run k s = .ok a t) : a.BelongsTo j := by
  cases r with
  | scalarType v =>
    obtain ⟨F, hF⟩ := hr v (by simp [operands])
    obtain ⟨w, hw, -, hwj⟩ := hF.scalarType (hj v (by simp [operands]))
    obtain ⟨u, hu, rfl⟩ := map_eq_ok_iff.mp ha
    cases (ask_of_ok hw).symm.trans hu
    exact hwj
  | elementType v =>
    obtain ⟨F, hF⟩ := hr v (by simp [operands])
    obtain ⟨w, hw, -, hwj⟩ := hF.scalarType (hj v (by simp [operands]))
    obtain ⟨u, hu, rfl⟩ := map_eq_ok_iff.mp ha
    have he := hF.elementType hs
    split at he
    · cases (ask_of_ok (he.trans hw)).symm.trans hu
      exact hwj
    · cases (ask_of_error he).symm.trans hu
  | _ => exact hp.elim

end Request

namespace History

variable {H : History}

/-- A value type of another context is refused, wherever it stands among the operands, and
nothing is changed.  A request that answers does so with what its own context knows, and leaves
all other contexts as they were. -/
theorem Reachable.contexts_apart (hH : H.Reachable) (k : ContextId) :
    (∀ (x : ExtendedType) (r : Request), x.owner ≠ k → .extended x ∈ r.operands → ¬r.Projects →
      (∀ v ∈ r.operands, H.Issued v) →
      ∃ e, r.Refusal k H.session e ∧ r.run k H.session = .error e H.session) ∧
    (∀ (r : Request) (a : Answer) (s : Session), ¬r.Projects → (∀ v ∈ r.operands, H.Issued v) →
      r.run k H.session = .ok a s →
      a.BelongsTo k ∧ a.Meaningful s ∧ H.session.AgreeOff k s) ∧
    ∀ (r : Request) (a : Answer) (s : Session) (j : ContextId), r.Projects →
      (∀ v ∈ r.operands, H.Issued v) → (∀ v ∈ r.operands, v.BelongsTo j) →
      r.run k H.session = .ok a s → a.BelongsTo j ∧ s = H.session := by
  have hs := hH.sound.session
  refine ⟨?_, ?_, ?_⟩
  · intro x r hx hmem hp hr
    have hm := fun v hv => hH.sound.exists_hasForm (hr v hv)
    rcases Request.run_cases hs k hp hm with ⟨a, t, -, hvs, -⟩ | ⟨e, he, hrefusal⟩
    · exact absurd (hvs _ hmem) hx
    · exact ⟨e, hrefusal, he⟩
  · intro r a s hp hr ha
    have hm := fun v hv => hH.sound.exists_hasForm (hr v hv)
    have he := Request.ends_run hs k r hm
    rcases Request.run_cases hs k hp hm with ⟨b, t, hb, -, hc⟩ | ⟨e, hrun, -⟩
    · cases ha.symm.trans hb
      rw [ha] at he
      cases he with
      | ok ht hle hmeaningful => exact ⟨hc.1, hmeaningful, hc.2⟩
    · cases ha.symm.trans hrun
  · intro r a s j hp hr hj ha
    have hm := fun v hv => hH.sound.exists_hasForm (hr v hv)
    have hu := Request.unchanged_of_asks hs k (Request.asks_of_projects hp) hm
    rw [ha] at hu
    exact ⟨Request.belongsTo_of_projects hs hp hm hj ha, hu⟩

theorem contexts_apart_sample :
    sample.Reachable ∧ sample.Issued (.extended ⟨⟨1⟩, ⟨17⟩⟩) ∧
      (∃ m e, MachineType.ofName? "v4i32" = some m ∧
        (Request.withElement (.simple m) (.extended ⟨⟨1⟩, ⟨17⟩⟩)).run ⟨0⟩ sample.session =
          .error e sample.session) ∧
      ∃ s, (Request.parse "v5i99").run ⟨0⟩ sample.session =
          .ok (.valueType (.extended ⟨⟨0⟩, ⟨22⟩⟩)) s ∧ sample.session.AgreeOff ⟨0⟩ s := by
  have hv : sample.Issued (.extended ⟨⟨1⟩, ⟨17⟩⟩) := by simp [Issued, answers_sample]
  have hm : MachineType.ofName? "v4i32" = some ⟨51⟩ := by decide +kernel
  obtain ⟨s, hs⟩ := Interning.answer?_eq_some_iff.mp
    (show Interning.answer? ((Request.parse "v5i99").run ⟨0⟩) sample.session =
      some (.valueType (.extended ⟨⟨0⟩, ⟨22⟩⟩)) by decide +kernel)
  have apart := reachable_sample.contexts_apart ⟨0⟩
  obtain ⟨e, -, he⟩ := apart.1 ⟨⟨1⟩, ⟨17⟩⟩
    (.withElement (.simple ⟨51⟩) (.extended ⟨⟨1⟩, ⟨17⟩⟩)) (by decide) (by simp [Request.operands])
    id (by simpa [Request.operands, Issued] using hv)
  obtain ⟨-, -, hoff⟩ := apart.2.1 (.parse "v5i99") _ s id (by simp [Request.operands]) hs
  exact ⟨reachable_sample, hv, ⟨⟨51⟩, e, hm, he⟩, s, hs, hoff⟩

end History

end CodegenTypes
