import CodegenTypes.Proofs.CommandLine.Derivation
import CodegenTypes.Proofs.Form.Held
import CodegenTypes.Proofs.ValueType.Reading

/-! Jobs read a text and derive from it, one step after the other, until a step is refused.
The outcome of a job and the forms that it leaves behind are settled by the job alone. -/

namespace CodegenTypes

structure Job where
  text : String
  steps : List CommandLine.Derivation
  deriving DecidableEq

namespace Job

def run (k : ContextId) (j : Job) : Interning ValueType := do
  let v ← ValueType.parse k j.text
  j.steps.foldlM (fun v op => op.apply k v) v

/-- What the client is told: the name of the result, or why there is none. -/
def told : EStateM.Result Failure Session ValueType → Except Failure String × Session
  | .ok v t => (v.name t, t)
  | .error e t => (.error e, t)

def outcome (k : ContextId) (j : Job) : StateM Session (Except Failure String) := fun s =>
  told (j.run k s)

def runAll (k : ContextId) (js : List Job) : StateM Session (List (Except Failure String)) :=
  js.mapM (outcome k)

end Job

variable {s t : Session} {k : ContextId} {v : ValueType} {F : Form}

namespace Form

/-- The forms that a context has to hold before the form has a value. -/
def needs (F : Form) : Set Form := {G | F.machine? = none ∧ (G = F.scalar ∨ G = F)}

theorem needs_of_machine?_none (hm : F.machine? = none) : F.needs = {F.scalar, F} := by
  ext G
  simp [needs, hm]

theorem needs_of_machine? {m : MachineType} (hm : F.machine? = some m) : F.needs = ∅ := by
  simp [needs, hm]

theorem forms_of_realize (hs : s.WellFormed) (hv : F.realize k s = .ok v t) :
    (t.context k).forms = (s.context k).forms ∪ F.needs := by
  rcases realize_ok hv with ⟨m, hm, -, rfl⟩ | ⟨hm, h, hh, -⟩
  · rw [needs_of_machine? hm, Set.union_empty]
  · obtain ⟨Γ, hΓ, rfl⟩ := materialize_eq_ok_iff.mp hh
    rw [Session.context_set_self, (hs k).forms_hold hΓ, needs_of_machine?_none hm]

end Form

/-- In the session `t`, the context `k` holds the forms `N` on top of those it held in `s`. -/
structure Gains (k : ContextId) (N : Set Form) (s t : Session) : Prop where
  wellFormed : t.WellFormed
  forms : (t.context k).forms = (s.context k).forms ∪ N

namespace Gains

variable {M N : Set Form} {u : Session}

theorem refl (hs : s.WellFormed) : Gains k ∅ s s := ⟨hs, (Set.union_empty _).symm⟩

theorem trans (hst : Gains k M s t) (htu : Gains k N t u) : Gains k (M ∪ N) s u :=
  ⟨htu.wellFormed, by rw [htu.forms, hst.forms, Set.union_assoc]⟩

theorem of_realize (hs : s.WellFormed) (hv : F.realize k s = .ok v t) : Gains k F.needs s t := by
  obtain ⟨-, -, ht, -⟩ := Form.settle_ok (r := .ok F) hs hv
  exact ⟨ht, Form.forms_of_realize hs hv⟩

end Gains

namespace Job

def deriveAll (ops : List CommandLine.Derivation) (r : Except ValueTypeError Form) :
    Except ValueTypeError Form :=
  r >>= ops.foldlM Form.derive

/-- The forms that are needed on the way, up to the first step that is refused. -/
def needsAlong : List CommandLine.Derivation → Except ValueTypeError Form → Set Form
  | _, .error _ => ∅
  | [], .ok F => F.needs
  | op :: ops, .ok F => F.needs ∪ needsAlong ops (F.derive op)

def verdict (r : Except ValueTypeError Form) : Except Failure String :=
  (r.map Form.name).mapError .rejected

theorem told_steps (ops : List CommandLine.Derivation) (r : Except ValueTypeError Form)
    (hs : s.WellFormed) :
    ∃ t, told ((Form.settle k r >>= ops.foldlM fun v op => op.apply k v) s) =
        (verdict (deriveAll ops r), t) ∧ Gains k (needsAlong ops r) s t := by
  induction ops generalizing r s with
  | nil =>
    cases r with
    | error e => exact ⟨s, rfl, .refl hs⟩
    | ok F =>
      obtain ⟨v, t, hv, ht, -, hF, -⟩ := Form.exists_settle hs k F
      refine ⟨t, ?_, .of_realize hs hv⟩
      rw [bind_of_ok hv]
      change (v.name t, t) = _
      rw [hF.name ht]
      rfl
  | cons op ops ih =>
    cases r with
    | error e => exact ⟨s, rfl, .refl hs⟩
    | ok F =>
      obtain ⟨v, t, hv, ht, -, hF, hk⟩ := Form.exists_settle hs k F
      -- the step runs where its operand was realized, and settles there as anywhere
      obtain ⟨u, hu, hgains⟩ := ih (F.derive op) ht
      refine ⟨u, ?_, (Gains.of_realize hs hv).trans hgains⟩
      rw [bind_of_ok hv, List.foldlM_cons, bind_of_eq (ValueType.derive_eq ht hF hk op)]
      exact hu

def form (j : Job) : Except ValueTypeError Form := deriveAll j.steps (Form.read j.text)

def needs (j : Job) : Set Form := needsAlong j.steps (Form.read j.text)

theorem outcome_eq (hs : s.WellFormed) (k : ContextId) (j : Job) :
    ∃ t, j.outcome k s = (verdict j.form, t) ∧ Gains k j.needs s t := by
  obtain ⟨t, ht, hgains⟩ := told_steps j.steps (Form.read j.text) hs
  refine ⟨t, ?_, hgains⟩
  rw [← bind_of_eq (ValueType.parse_eq hs k j.text)] at ht
  exact ht

def needsOf (js : List Job) : Set Form := {F | ∃ j ∈ js, F ∈ j.needs}

theorem needsOf_nil : needsOf [] = ∅ := by simp [needsOf]

theorem needsOf_cons (j : Job) (js : List Job) : needsOf (j :: js) = j.needs ∪ needsOf js := by
  ext F
  simp [needsOf]

theorem runAll_cons (k : ContextId) (j : Job) (js : List Job) (s : Session) :
    runAll k (j :: js) s =
      let (o, t) := j.outcome k s
      let (os, u) := runAll k js t
      (o :: os, u) := by
  rw [runAll, List.mapM_cons]
  rfl

theorem runAll_eq (hs : s.WellFormed) (k : ContextId) (js : List Job) :
    ∃ t, runAll k js s = (js.map (verdict ·.form), t) ∧ Gains k (needsOf js) s t := by
  induction js generalizing s with
  | nil =>
    rw [needsOf_nil]
    exact ⟨s, rfl, .refl hs⟩
  | cons j js ih =>
    obtain ⟨t, ht, hst⟩ := outcome_eq hs k j
    obtain ⟨u, hu, htu⟩ := ih hst.wellFormed
    refine ⟨u, ?_, ?_⟩
    · simp only [runAll_cons, ht, hu]
      rfl
    · rw [needsOf_cons]
      exact hst.trans htu

/-- Lists of the same jobs leave contexts behind that differ in their numbering only. -/
theorem exists_runAll (hs : s.WellFormed) (k : ContextId) {js js' : List Job}
    (hjs : ∀ j, j ∈ js ↔ j ∈ js') :
    ∃ t t', runAll k js s = (js.map (verdict ·.form), t) ∧
      runAll k js' s = (js'.map (verdict ·.form), t') ∧
      (t.context k).size = (t'.context k).size ∧ (t.context k).texts = (t'.context k).texts := by
  obtain ⟨t, ht, hst⟩ := runAll_eq hs k js
  obtain ⟨t', ht', hst'⟩ := runAll_eq hs k js'
  have hneeds : needsOf js = needsOf js' := by
    ext F
    simp only [needsOf, hjs]
  refine ⟨t, t', ht, ht', (hst.wellFormed k).eq_of_forms_eq (hst'.wellFormed k) ?_⟩
  rw [hst.forms, hst'.forms, hneeds]

end Job

end CodegenTypes
