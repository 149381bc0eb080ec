import CodegenTypes.Proofs.History.Sound
import CodegenTypes.Proofs.ValueType.Growth
import CodegenTypes.Summary

/-! What requests do to contexts.  A request that fails has done nothing, however far it got,
and a request that answers has interned no more than its answer takes. -/

namespace CodegenTypes

def Unchanged {α : Type} (s : Session) : EStateM.Result Failure Session α → Prop
  | .ok _ t | .error _ t => t = s

/-- What can be asked of a value type, of a handle and of a context, by the type of the answer. -/
inductive Query : Type → Type
  | name (v : ValueType) : Query String
  | isInteger (v : ValueType) : Query Bool
  | isFloat (v : ValueType) : Query Bool
  | isVector (v : ValueType) : Query Bool
  | isScalableVector (v : ValueType) : Query Bool
  | isFixedVector (v : ValueType) : Query Bool
  | scalarType (v : ValueType) : Query ValueType
  | elementType (v : ValueType) : Query ValueType
  | elementCount (v : ValueType) : Query Lanes
  | numElements (v : ValueType) : Query UInt32
  | scalarBits (v : ValueType) : Query (Option UInt32)
  | size (v : ValueType) : Query (Option BitSize)
  | summary (v : ValueType) : Query Summary
  | irType (x : ExtendedType) : Query IRType
  | valueType (h : Handle) : Query ValueType
  | entry (h : Handle) : Query MachineType
  | type (h : Handle) : Query IRType
  | element (h : Handle) : Query (Option Handle)
  | lanes (h : Handle) : Query (Option Lanes)
  | display (h : Handle) : Query String
  | handle (t : IRType) : Query (Option Handle)
  | types : Query (List (Handle × IRType))
  | count : Query Nat

def Query.answer {α : Type} (k : ContextId) : Query α → Session → Except Failure α
  | name v, s => v.name s
  | isInteger v, s => v.isInteger s
  | isFloat v, s => v.isFloat s
  | isVector v, s => v.isVector s
  | isScalableVector v, s => v.isScalableVector s
  | isFixedVector v, s => v.isFixedVector s
  | scalarType v, s => v.scalarType s
  | elementType v, s => v.elementType s
  | elementCount v, s => v.elementCount s
  | numElements v, s => v.numElements s
  | scalarBits v, s => v.scalarBits? s
  | size v, s => v.size? s
  | summary v, s => Summary.of v s
  | irType x, s => x.irType s
  | valueType h, s => ValueType.ofIR k h s
  | entry h, s => (MachineType.ofIR (s.context k) h).mapError .rejected
  | type h, s => ((s.context k).get h).mapError .fault
  | element h, s => .ok ((s.context k).element? h)
  | lanes h, s => .ok ((s.context k).lanes? h)
  | display h, s => .ok ((s.context k).display h)
  | handle t, s => .ok ((s.context k).find? t)
  | types, s => .ok (s.context k).entries
  | count, s => .ok (s.context k).size

def Request.Asks : Request → Prop
  | ofIR _ | scalarType _ | elementType _ | toIR (.extended _) => True
  | _ => False

section Unchanged

variable {α β : Type} {s : Session} {k : ContextId}

theorem unchanged_ask (question : Session → Except Failure α) : Unchanged s (ask question s) := by
  cases hq : question s with
  | ok a => rw [ask_of_ok hq]; rfl
  | error e => rw [ask_of_error hq]; rfl

theorem Unchanged.map {run : Interning α} (h : Unchanged s (run s)) (f : α → β) :
    Unchanged s ((f <$> run) s) := by
  change Unchanged s (EStateM.map f run s)
  rw [EStateM.map]
  generalize run s = r at h ⊢
  cases r <;> exact h

theorem ValueType.unchanged_toIR {x : ExtendedType} {F : Form} (hs : s.WellFormed)
    (hx : (extended x).HasForm s F) (k : ContextId) : Unchanged s ((extended x).toIR k s) := by
  by_cases hk : (extended x).BelongsTo k
  · rw [toIR, bind_of_ok (checkOwner_of_belongsTo hk)]
    rfl
  · rw [toIR, bind_of_error (checkOwner_of_not_belongsTo hs hx hk)]
    rfl

theorem Request.unchanged_of_asks (hs : s.WellFormed) (k : ContextId) {r : Request} (ha : r.Asks)
    (hr : ∀ v ∈ r.operands, v.Meaningful s) : Unchanged s (r.run k s) := by
  cases r with
  | ofIR h => exact (unchanged_ask _).map _
  | scalarType v => exact (unchanged_ask _).map _
  | elementType v => exact (unchanged_ask _).map _
  | toIR v =>
    cases v with
    | simple m => exact ha.elim
    | extended x =>
      obtain ⟨F, hF⟩ := hr (.extended x) (by simp [operands])
      exact (ValueType.unchanged_toIR hs hF k).map _
  | _ => exact ha.elim

end Unchanged

namespace History

variable {H : History}

/-- Whatever is refused, by an error or by a fault, leaves every context as it was.  No element
is left behind by a vector that could not be made. -/
theorem Reachable.failure_atomic (hH : H.Reachable) {k : ContextId} {r : Request} {e : Failure}
    {s : Session} (hr : ∀ v ∈ r.operands, H.Issued v) (he : r.run k H.session = .error e s) :
    s = H.session := by
  have hends := Request.ends_run hH.sound.session k r fun v hv => hH.sound.exists_hasForm (hr v hv)
  rw [he] at hends
  cases hends
  rfl

theorem failure_atomic_sample :
    sample.Reachable ∧
      (∃ s, (Request.parse "v3isvoid").run ⟨0⟩ sample.session =
          .error (.rejected (.notElement "isvoid")) s ∧ s = sample.session) ∧
      sample.Issued (.extended ⟨⟨1⟩, ⟨17⟩⟩) ∧
      ∃ s, (Request.widen (.extended ⟨⟨1⟩, ⟨17⟩⟩)).run ⟨0⟩ sample.session =
          .error (.fault (.foreignType "nxv5f32")) s ∧ s = sample.session := by
  have hv : sample.Issued (.extended ⟨⟨1⟩, ⟨17⟩⟩) := by simp [Issued, answers_sample]
  obtain ⟨s, hs⟩ := Interning.failure?_eq_some_iff.mp
    (show Interning.failure? ((Request.parse "v3isvoid").run ⟨0⟩) sample.session =
      some (.rejected (.notElement "isvoid")) by decide +kernel)
  obtain ⟨t, ht⟩ := Interning.failure?_eq_some_iff.mp
    (show Interning.failure? ((Request.widen (.extended ⟨⟨1⟩, ⟨17⟩⟩)).run ⟨0⟩) sample.session =
      some (.fault (.foreignType "nxv5f32")) by decide +kernel)
  refine ⟨reachable_sample, ⟨s, hs, ?_⟩, hv, t, ht, ?_⟩
  · exact reachable_sample.failure_atomic (by simp [Request.operands]) hs
  · exact reachable_sample.failure_atomic (by simpa [Request.operands] using hv) ht

/-- An entry of the table costs nothing, and an extended type only its own IR type and its
element's, where the context lacked them.  Questions cost nothing, and materializing an entry
at most the vector that is answered with. -/
theorem Reachable.interning_minimal (hH : H.Reachable) (k : ContextId) :
    (∀ (r : Request) (v : ValueType) (s : Session), r.Makes → (∀ w ∈ r.operands, H.Issued w) →
      r.run k H.session = .ok (.valueType v) s → Grown k H.session v s) ∧
    (∀ {α : Type} (q : Query α), Unchanged H.session (ask (q.answer k) H.session)) ∧
    (∀ r : Request, r.Asks → (∀ w ∈ r.operands, H.Issued w) →
      Unchanged H.session (r.run k H.session)) ∧
    ∀ (m : MachineType) (h : Handle) (s : Session),
      (Request.materialize m).run k H.session = .ok (.handle k h) s →
      ∃ u, (s.context k).get? h = some u ∧
        (s = H.session ∨
          u.isVector ∧ s = H.session.set k ((H.session.context k).adjoin [u])) := by
  have hs := hH.sound.session
  refine ⟨?_, fun q => unchanged_ask (q.answer k), ?_, ?_⟩
  · intro r v s hm hr hv
    obtain ⟨run, hrun, hsettled⟩ :=
      Request.settled_of_makes hs k hm fun w hw => hH.sound.exists_hasForm (hr w hw)
    rw [hrun] at hv
    obtain ⟨a, ha, hav⟩ := map_eq_ok_iff.mp hv
    cases hav
    rw [ha] at hsettled
    exact hsettled.grown hs
  · intro r ha hr
    exact Request.unchanged_of_asks hs k ha fun w hw => hH.sound.exists_hasForm (hr w hw)
  · intro m h s hv
    obtain ⟨a, ha, hah⟩ := map_eq_ok_iff.mp hv
    cases hah
    have hm : (ValueType.simple m).toIR k H.session = .ok h s := ha
    rw [ValueType.toIR_eq hs (.simple m) trivial] at hm
    exact Form.materialize_of_machine? hs (Form.machine?_form m) hm

theorem interning_minimal_sample :
    sample.Reachable ∧
      (∃ s, (Request.parse "v5i99").run ⟨0⟩ sample.session =
          .ok (.valueType (.extended ⟨⟨0⟩, ⟨22⟩⟩)) s ∧
        Grown ⟨0⟩ sample.session (.extended ⟨⟨0⟩, ⟨22⟩⟩) s) ∧
      (∃ m s, MachineType.ofName? "v4i32" = some m ∧
        (Request.materialize m).run ⟨0⟩ sample.session = .ok (.handle ⟨0⟩ ⟨21⟩) s ∧
        ∃ u, (s.context ⟨0⟩).get? ⟨21⟩ = some u ∧
          (s = sample.session ∨
            u.isVector ∧ s = sample.session.set ⟨0⟩ ((sample.session.context ⟨0⟩).adjoin [u]))) ∧
      sample.Issued (.extended ⟨⟨0⟩, ⟨18⟩⟩) ∧
      Unchanged sample.session
        ((Request.toIR (.extended ⟨⟨0⟩, ⟨18⟩⟩)).run ⟨0⟩ sample.session) := by
  have hv : sample.Issued (.extended ⟨⟨0⟩, ⟨18⟩⟩) := by simp [Issued, answers_sample]
  obtain ⟨s, hs⟩ := Interning.answer?_eq_some_iff.mp
    (show Interning.answer? ((Request.parse "v5i99").run ⟨0⟩) sample.session =
      some (.valueType (.extended ⟨⟨0⟩, ⟨22⟩⟩)) by decide +kernel)
  have hm : MachineType.ofName? "v4i32" = some ⟨51⟩ := by decide +kernel
  obtain ⟨t, ht⟩ := Interning.answer?_eq_some_iff.mp
    (show Interning.answer? ((Request.materialize ⟨51⟩).run ⟨0⟩) sample.session =
      some (.handle ⟨0⟩ ⟨21⟩) by decide +kernel)
  refine ⟨reachable_sample, ⟨s, hs, ?_⟩, ⟨⟨51⟩, t, hm, ht, ?_⟩, hv, ?_⟩
  · exact (reachable_sample.interning_minimal ⟨0⟩).1 (.parse "v5i99") _ _ trivial
      (by simp [Request.operands]) hs
  · exact (reachable_sample.interning_minimal ⟨0⟩).2.2.2 _ _ _ ht
  · exact (reachable_sample.interning_minimal ⟨0⟩).2.2.1 (.toIR _) trivial
      (by simpa [Request.operands] using hv)

end History

end CodegenTypes
