import CodegenTypes.Proofs.Session
import CodegenTypes.ValueType.Derived
import CodegenTypes.ValueType.Name
import Mathlib.Data.List.Infix
import Mathlib.Logic.Relation

/-! Histories: what clients have made of a session, one request at a time.  Handles
may be forged; extended types have to be answers to earlier requests. -/

namespace CodegenTypes

inductive Request
  | intern (t : IRType)
  | internInteger (bits : UInt32)
  | internFloat (format : FloatFormat)
  | internVector (element : Handle) (lanes : Lanes)
  | materialize (m : MachineType)
  | ofIR (h : Handle)
  | toIR (v : ValueType)
  | integer (bits : UInt32)
  | float (format : FloatFormat)
  | vector (element : ValueType) (lanes : Lanes)
  | parse (text : String)
  | scalarType (v : ValueType)
  | elementType (v : ValueType)
  | widen (v : ValueType)
  | half (v : ValueType)
  | toInteger (v : ValueType)
  | double (v : ValueType)
  | withLanes (v : ValueType) (lanes : Lanes)
  | withElement (v : ValueType) (element : ValueType)
  deriving DecidableEq

inductive Answer
  | handle (k : ContextId) (h : Handle)
  | valueType (v : ValueType)
  deriving DecidableEq

namespace Request

/-- The value types that the client must have before it can ask. -/
def operands : Request → List ValueType
  | toIR v | vector v _ | scalarType v | elementType v | widen v | half v | toInteger v
  | double v | withLanes v _ => [v]
  | withElement v w => [v, w]
  | intern _ | internInteger _ | internFloat _ | internVector _ _ | materialize _ | ofIR _
  | integer _ | float _ | parse _ => []

def run (k : ContextId) : Request → Interning Answer
  | intern t => .handle k <$> within k ((Context.intern t).adaptExcept .type)
  | internInteger bits => .handle k <$> within k ((Context.integer bits).adaptExcept .type)
  | internFloat format => .handle k <$> within k ((Context.float format).adaptExcept .type)
  | internVector j lanes => .handle k <$> within k ((Context.vector j lanes).adaptExcept .type)
  | materialize m => .handle k <$> within k m.toIR
  | ofIR h => .valueType <$> ask (ValueType.ofIR k h)
  | toIR v => .handle k <$> v.toIR k
  | integer bits => .valueType <$> ValueType.integer k bits
  | float format => pure (.valueType (ValueType.float format))
  | vector v lanes => .valueType <$> ValueType.vector k v lanes
  | parse text => .valueType <$> ValueType.parse k text
  | scalarType v => .valueType <$> ask v.scalarType
  | elementType v => .valueType <$> ask v.elementType
  | widen v => .valueType <$> v.widen k
  | half v => .valueType <$> v.half k
  | toInteger v => .valueType <$> v.toInteger k
  | double v => .valueType <$> v.double k
  | withLanes v lanes => .valueType <$> v.withLanes k lanes
  | withElement v w => .valueType <$> v.withElement k w

end Request

/-- A session, and all that it has answered. -/
structure History where
  session : Session
  answers : List Answer

namespace History

def start : History := ⟨.fresh, []⟩

/-- Every client has the entries of the table at hand. -/
def Issued (H : History) : ValueType → Prop
  | .simple _ => True
  | .extended x => .valueType (.extended x) ∈ H.answers

instance (H : History) (v : ValueType) : Decidable (H.Issued v) :=
  match v with
  | .simple _ => .isTrue trivial
  | .extended _ => inferInstanceAs (Decidable (_ ∈ _))

/-- Asks in the context `k`.  What a failing request has done stays done. -/
def perform (H : History) (k : ContextId) (r : Request) : History :=
  match r.run k H.session with
  | .ok a s => ⟨s, a :: H.answers⟩
  | .error _ s => ⟨s, H.answers⟩

inductive Step (H : History) : History → Prop
  | perform (k : ContextId) (r : Request) (hr : ∀ v ∈ r.operands, H.Issued v) :
      Step H (H.perform k r)

/-- `H'` is `H` after any number of requests, in any contexts. -/
def Later (H H' : History) : Prop := Relation.ReflTransGen Step H H'

def Reachable (H : History) : Prop := start.Later H

theorem Reachable.perform {H : History} (hH : H.Reachable) (k : ContextId) (r : Request)
    (hr : ∀ v ∈ r.operands, H.Issued v) : (H.perform k r).Reachable :=
  Relation.ReflTransGen.tail hH (.perform k r hr)

/-- Three requests that add to a context, of which one derives from another's answer, and
two that are refused. -/
def sample : History :=
  start.perform ⟨0⟩ (.parse "v3i17")
    |>.perform ⟨0⟩ (.widen (.extended ⟨⟨0⟩, ⟨18⟩⟩))
    |>.perform ⟨0⟩ (.internVector ⟨99⟩ ⟨3, true⟩)
    |>.perform ⟨1⟩ (.withLanes (.simple (.ofScalar .f32)) ⟨5, true⟩)
    |>.perform ⟨1⟩ (.vector (.extended ⟨⟨0⟩, ⟨18⟩⟩) ⟨2, false⟩)

theorem answers_sample :
    sample.answers =
      [.valueType (.extended ⟨⟨1⟩, ⟨17⟩⟩), .valueType (.extended ⟨⟨0⟩, ⟨20⟩⟩),
        .valueType (.extended ⟨⟨0⟩, ⟨18⟩⟩)] := by
  decide +kernel

theorem reachable_sample : sample.Reachable := by
  have start : Reachable start := Relation.ReflTransGen.refl
  have parsed := start.perform ⟨0⟩ (.parse "v3i17") (by decide +kernel)
  have widened := parsed.perform ⟨0⟩ (.widen (.extended ⟨⟨0⟩, ⟨18⟩⟩)) (by decide +kernel)
  have forged := widened.perform ⟨0⟩ (.internVector ⟨99⟩ ⟨3, true⟩) (by decide +kernel)
  have scaled := forged.perform ⟨1⟩ (.withLanes (.simple (.ofScalar .f32)) ⟨5, true⟩)
    (by decide +kernel)
  exact scaled.perform ⟨1⟩ (.vector (.extended ⟨⟨0⟩, ⟨18⟩⟩) ⟨2, false⟩) (by decide +kernel)

instance : Preorder History where
  le H H' := H.session ≤ H'.session ∧ H.answers <:+ H'.answers
  le_refl _ := ⟨le_rfl, List.suffix_rfl⟩
  le_trans _ _ _ hH hH' := ⟨hH.1.trans hH'.1, hH.2.trans hH'.2⟩

end History

end CodegenTypes
