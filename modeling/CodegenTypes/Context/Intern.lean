import CodegenTypes.Context.Display

namespace CodegenTypes

def TypeError.message : TypeError → String
  | .widthOutOfRange bits =>
    "integer width " ++ Decimal.text bits.toNat ++ " is out of range (1..=" ++
      Decimal.text IRType.maxIntegerBits.toNat ++ ")"
  | .notElement type => "`" ++ type ++ "` is not a valid vector element type"
  | .noLanes => "vector types need at least one lane"
  | .unknownHandle h => "type id " ++ Decimal.text h.index ++ " does not belong to this context"

namespace Context

def check (Γ : Context) : IRType → Except TypeError Unit
  | .integer bits =>
    if bits = 0 ∨ IRType.maxIntegerBits < bits then .error (.widthOutOfRange bits) else .ok ()
  | .vector element lanes =>
    match Γ.get? element with
    | none => .error (.unknownHandle element)
    | some t =>
      if !t.isElement then .error (.notElement (Γ.display element))
      else if !lanes.fitsVector then .error .noLanes
      else .ok ()
  | _ => .ok ()

def intern (t : IRType) : EStateM TypeError Context Handle := fun Γ =>
  match Γ.check t with
  | .error e => .error e Γ
  | .ok () => let (h, Δ) := Γ.insert t; .ok h Δ

def integer (bits : UInt32) : EStateM TypeError Context Handle := intern (.integer bits)

/-- There is nothing to check about a format. -/
def float (format : FloatFormat) : EStateM ε Context Handle := fun Γ =>
  let (h, Δ) := Γ.insert (.float format)
  .ok h Δ

def vector (element : Handle) (lanes : Lanes) : EStateM TypeError Context Handle :=
  intern (.vector element lanes)

end Context

end CodegenTypes
