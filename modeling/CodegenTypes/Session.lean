import CodegenTypes.Failure

/-! A session holds any number of contexts, each under its own name.  A request that
interns runs in one of them; what a failing request has done stays visible. -/

namespace CodegenTypes

structure ContextId where
  index : Nat
  deriving DecidableEq

structure Session where
  context : ContextId → Context

abbrev Interning := EStateM Failure Session

namespace Session

def fresh : Session := ⟨fun _ => .fresh⟩

def set (s : Session) (k : ContextId) (Γ : Context) : Session :=
  ⟨fun j => if j = k then Γ else s.context j⟩

@[simp] theorem context_set_self (s : Session) (k : ContextId) (Γ : Context) :
    (s.set k Γ).context k = Γ := if_pos rfl

theorem context_set_of_ne (s : Session) (Γ : Context) {j k : ContextId} (h : j ≠ k) :
    (s.set k Γ).context j = s.context j := if_neg h

@[simp] theorem set_context (s : Session) (k : ContextId) : s.set k (s.context k) = s := by
  simp only [set]
  congr 1
  funext j
  split <;> simp_all

end Session

def ask (question : Session → Except Failure α) : Interning α := fun s =>
  match question s with
  | .ok a => .ok a s
  | .error e => .error e s

def within (k : ContextId) (run : EStateM ValueTypeError Context α) : Interning α := fun s =>
  match run (s.context k) with
  | .ok a Γ => .ok a (s.set k Γ)
  | .error e Γ => .error (.rejected e) (s.set k Γ)

end CodegenTypes
