import CodegenTypes.CommandLine.Command
import CodegenTypes.Proofs.Form.Inverse
import CodegenTypes.Proofs.ValueType.Derived

namespace CodegenTypes

def Form.derive (F : Form) : CommandLine.Derivation → Except ValueTypeError Form
  | .widen => F.widen
  | .half => F.half
  | .toInteger => F.toInteger
  | .double => F.double

theorem Form.exists_vector_of_derive {F G : Form} {op : CommandLine.Derivation}
    (h : F.derive op = .ok G) : ∃ e c hc, G = .vector e c hc := by
  cases op with
  | widen =>
    obtain ⟨bits, hb, hw, c, hc, -, rfl⟩ := widen_eq_ok_iff.mp h
    exact ⟨_, c, hc, rfl⟩
  | half =>
    obtain ⟨e, c, hc, d, hd, -, -, rfl⟩ := half_eq_ok_iff.mp h
    exact ⟨e, d, hd, rfl⟩
  | toInteger =>
    obtain ⟨e, hb, c, hc, -, rfl⟩ := toInteger_eq_ok_iff.mp h
    exact ⟨_, c, hc, rfl⟩
  | double =>
    obtain ⟨e, c, hc, d, hd, -, -, rfl⟩ := double_eq_ok_iff.mp h
    exact ⟨e, d, hd, rfl⟩

theorem ValueType.derive_eq {s : Session} {k : ContextId} {v : ValueType} {F : Form}
    (hs : s.WellFormed) (hv : v.HasForm s F) (hk : v.BelongsTo k)
    (op : CommandLine.Derivation) : op.apply k v s = Form.settle k (F.derive op) s := by
  cases op with
  | widen => exact widen_eq hs hv hk
  | half => exact half_eq hs hv hk
  | toInteger => exact toInteger_eq hs hv hk
  | double => exact double_eq hs hv hk

end CodegenTypes
