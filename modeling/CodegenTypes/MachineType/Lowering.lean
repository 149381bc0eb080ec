import CodegenTypes.MachineType.Basic

namespace CodegenTypes

def Context.shape? (Γ : Context) : IRType → Option Shape
  | .vector element lanes =>
    ((Γ.get? element).bind Scalar.ofIRType?).map fun kind => .vector kind lanes
  | t => (Scalar.ofIRType? t).map .scalar

namespace MachineType

def ofIR (Γ : Context) (h : Handle) : Except ValueTypeError MachineType :=
  match Γ.get? h with
  | none => .error (.type (.unknownHandle h))
  | some .label => .error (.noValueType (Γ.display h))
  | some t =>
    match (Γ.shape? t).bind find? with
    | some m => .ok m
    | none => .error (.notCanonical (Γ.display h))

/-- Three leaves are known by their handles, which are the same in every context. -/
def internScalar (name : String) (kind : Scalar) : EStateM ValueTypeError Context Handle :=
  match kind with
  | .isVoid => return .void
  | .token => return .token
  | .metadata => return .metadata
  | .other | .glue | .untyped => throw (.noIRType name)
  | kind =>
    match kind.format? with
    | some format => Context.float format
    | none =>
      match kind.bits? with
      | some bits => (Context.integer bits).adaptExcept fun _ => .noIRType name
      | none => throw (.noIRType name)

def toIR (m : MachineType) : EStateM ValueTypeError Context Handle :=
  match m.shape with
  | .invalid => throw .invalid
  | .scalar kind => internScalar m.name kind
  | .vector kind lanes => do
    let element ← internScalar m.name kind
    (Context.vector element lanes).adaptExcept .type

end MachineType

end CodegenTypes
