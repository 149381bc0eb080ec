import CodegenTypes.Context.Intern

/-! Faults: requests that break a precondition which the caller has to keep.  They
are told apart from errors, which report a property of well-made arguments. -/

namespace CodegenTypes

inductive Fault
  | lanes (e : LaneError)
  | unknownHandle (h : Handle)
  | foreignType (name : String)
  deriving DecidableEq

def Fault.message : Fault → String
  | .lanes e => "ElementCount: " ++ e.message
  | .unknownHandle h =>
    "TypeContext: type id " ++ Decimal.text h.index ++
      " not found (handles must come from the context that resolves them)"
  | .foreignType name =>
    "Evt: extended type `" ++ name ++ "` used with a TypeContext that did not intern it"

namespace Lanes

/-- Scaling where the caller vouches for the factor. -/
def mul (c : Lanes) (factor : UInt32) : Except Fault Lanes := (c.scale factor).mapError .lanes

def div (c : Lanes) (divisor : UInt32) : Except Fault Lanes := (c.divide divisor).mapError .lanes

end Lanes

def Context.get (Γ : Context) (h : Handle) : Except Fault IRType :=
  match Γ.get? h with
  | some t => .ok t
  | none => .error (.unknownHandle h)

end CodegenTypes
