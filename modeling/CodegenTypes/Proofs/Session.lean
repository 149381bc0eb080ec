import CodegenTypes.Proofs.Context.WellFormed
import CodegenTypes.Session

namespace CodegenTypes

namespace Session

instance : Preorder Session where
  le s t := ∀ k, s.context k ≤ t.context k
  le_refl _ _ := le_rfl
  le_trans _ _ _ hst htu k := (hst k).trans (htu k)

def WellFormed (s : Session) : Prop := ∀ k, (s.context k).WellFormed

variable {s t : Session} {k : ContextId} {Γ : Context}

theorem wellFormed_fresh : Session.fresh.WellFormed := fun _ => .fresh

theorem WellFormed.set (hs : s.WellFormed) (hΓ : Γ.WellFormed) : (s.set k Γ).WellFormed := by
  intro j
  by_cases hj : j = k
  · rw [hj, context_set_self]
    exact hΓ
  · rw [context_set_of_ne s Γ hj]
    exact hs j

theorem set_set (s : Session) (k : ContextId) (Γ Δ : Context) :
    (s.set k Γ).set k Δ = s.set k Δ := by
  simp only [set]
  congr 1
  funext j
  split <;> rfl

theorem le_set (hΓ : s.context k ≤ Γ) : s ≤ s.set k Γ := by
  intro j
  by_cases hj : j = k
  · rw [hj, context_set_self]
    exact hΓ
  · rw [context_set_of_ne s Γ hj]

def AgreeOff (k : ContextId) (s t : Session) : Prop := ∀ j, j ≠ k → t.context j = s.context j

theorem AgreeOff.refl (k : ContextId) (s : Session) : AgreeOff k s s := fun _ _ => rfl

theorem agreeOff_set (s : Session) (k : ContextId) (Γ : Context) : AgreeOff k s (s.set k Γ) :=
  fun _ hj => context_set_of_ne s Γ hj

end Session

section Run

variable {α β : Type} {a : α} {e : Failure} {s t : Session} {k : ContextId}

theorem bind_of_ok {run : Interning α} {next : α → Interning β} (h : run s = .ok a t) :
    (run >>= next) s = next a t := by
  simp [bind, EStateM.bind, h]

theorem bind_of_error {run : Interning α} {next : α → Interning β} (h : run s = .error e t) :
    (run >>= next) s = .error e t := by
  simp [bind, EStateM.bind, h]

theorem bind_of_eq {run run' : Interning α} {next : α → Interning β} (h : run s = run' s) :
    (run >>= next) s = (run' >>= next) s := by
  simp [bind, EStateM.bind, h]

theorem map_eq_ok_iff {f : α → β} {run : Interning α} {b : β} :
    (f <$> run) s = .ok b t ↔ ∃ a, run s = .ok a t ∧ f a = b := by
  change EStateM.map f run s = .ok b t ↔ _
  rw [EStateM.map]
  cases run s <;> simp [and_comm]

theorem map_eq_error_iff {f : α → β} {run : Interning α} :
    (f <$> run) s = .error e t ↔ run s = .error e t := by
  change EStateM.map f run s = .error e t ↔ _
  rw [EStateM.map]
  cases run s <;> simp

theorem ask_of_ok {question : Session → Except Failure α} (h : question s = .ok a) :
    ask question s = .ok a s := by
  rw [ask, h]

theorem ask_of_error {question : Session → Except Failure α} (h : question s = .error e) :
    ask question s = .error e s := by
  rw [ask, h]

theorem ask_eq_error_iff {question : Session → Except Failure α} :
    ask question s = .error e t ↔ question s = .error e ∧ t = s := by
  rw [ask]
  cases question s <;> simp [eq_comm]

theorem within_of_ok {run : EStateM ValueTypeError Context α} {Γ : Context}
    (h : run (s.context k) = .ok a Γ) : within k run s = .ok a (s.set k Γ) := by
  rw [within, h]

theorem within_of_error {run : EStateM ValueTypeError Context α} {e : ValueTypeError}
    (h : run (s.context k) = .error e (s.context k)) :
    within k run s = .error (.rejected e) s := by
  rw [within, h]
  simp

end Run

theorem mapError_rejected_ne_fault {α : Type} (r : Except ValueTypeError α) (f : Fault) :
    r.mapError Failure.rejected ≠ .error (.fault f) := by
  cases r <;> simp [Except.mapError]

namespace Interning

variable {α : Type} {run : Interning α} {s : Session}

def answer? (run : Interning α) (s : Session) : Option α :=
  match run s with
  | .ok a _ => some a
  | .error _ _ => none

def failure? (run : Interning α) (s : Session) : Option Failure :=
  match run s with
  | .ok _ _ => none
  | .error e _ => some e

theorem answer?_eq_some_iff {a : α} : answer? run s = some a ↔ ∃ t, run s = .ok a t := by
  rw [answer?]
  cases run s <;> simp

theorem failure?_eq_some_iff {e : Failure} : failure? run s = some e ↔ ∃ t, run s = .error e t := by
  rw [failure?]
  cases run s <;> simp

def outcome (run : Interning α) (s : Session) : Except Failure α :=
  match run s with
  | .ok a _ => .ok a
  | .error e _ => .error e

theorem outcome_of_ok {a : α} {t : Session} (h : run s = .ok a t) : outcome run s = .ok a := by
  rw [outcome, h]

theorem outcome_of_error {e : Failure} {t : Session} (h : run s = .error e t) :
    outcome run s = .error e := by
  rw [outcome, h]

section Bind

variable {β : Type} {next : α → Interning β}

theorem outcome_bind_of_ok {a : α} {t : Session} (h : run s = .ok a t) :
    outcome (run >>= next) s = outcome (next a) t := by
  rw [outcome, bind_of_ok h, outcome]

theorem outcome_bind_of_error {e : Failure} {t : Session} (h : run s = .error e t) :
    outcome (run >>= next) s = .error e :=
  outcome_of_error (bind_of_error h)

theorem outcome_bind_pure (run : Interning α) (f : α → β) (s : Session) :
    outcome (run >>= fun a => pure (f a)) s = (outcome run s).map f := by
  cases h : run s with
  | ok a t => rw [outcome_bind_of_ok h, outcome_of_ok h]; rfl
  | error e t => rw [outcome_bind_of_error h, outcome_of_error h]; rfl

end Bind

end Interning

end CodegenTypes
