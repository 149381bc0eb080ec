import CodegenTypes.Proofs.Form.Name
import CodegenTypes.Proofs.ValueType.HasForm

namespace CodegenTypes

inductive Context.BeyondTable (Γ : Context) (h : Handle) : Prop
  | integer {bits : UInt32} (hh : Γ.get? h = some (.integer bits))
      (hk : ∀ k : Scalar, k.irType? ≠ some (.integer bits))
  | vector {j : Handle} {t : IRType} {c : Lanes} (hh : Γ.get? h = some (.vector j c))
      (hj : Γ.get? j = some t) (ht : t.isElement)
      (hm : ∀ (k : Scalar) (m : MachineType), k.irType? = some t → m.shape ≠ .vector k c)

namespace Context.Holds

variable {Γ : Context} {h : Handle} {F : Form}

theorem ofIR_of_machine?_none (hF : Γ.Holds h F) (he : F.machine? = none) :
    MachineType.ofIR Γ h = .error (.notCanonical (Γ.display h)) := by
  rw [hF.ofIR, he]

theorem beyondTable (hF : Γ.Holds h F) (he : F.machine? = none) : Γ.BeyondTable h := by
  have hkind : ∀ {e : Element} {k : Scalar}, k.irType? = some e.irType → e.kind? = some k := by
    intro e k hk
    rw [← Element.ofIRType?_irType]
    exact Scalar.ofIRType?_of_irType? hk
  cases hF with
  | mark hk ht hh => rw [Form.machine?_mark] at he; cases he
  | @number e hh =>
    rw [Form.machine?_number, Option.map_eq_none_iff] at he
    cases e with
    | float f => cases he
    | integer bits hb =>
      apply BeyondTable.integer hh
      intro k hk
      cases he.symm.trans (hkind (e := .integer bits hb) hk)
  | @vector j e c hc hj hh =>
    apply BeyondTable.vector hh hj e.isElement_irType
    intro k m hk hm
    have hne : m ≠ .invalid := by
      rintro rfl
      cases hm
    have hf := MachineType.find?_shape hne
    rw [Form.machine?_vector, hkind hk, Option.bind_some, ← hm, hf] at he
    cases he

end Context.Holds

namespace ValueType.HasForm

variable {s : Session} {k : ContextId} {v w : ValueType} {F G : Form}

theorem eq_iff_name_eq (hs : s.WellFormed) (hv : v.HasForm s F) (hw : w.HasForm s G)
    (hvk : v.BelongsTo k) (hwk : w.BelongsTo k) : v = w ↔ v.name s = w.name s := by
  constructor
  · rintro rfl
    rfl
  · intro h
    rw [hv.name hs, hw.name hs] at h
    have hFG : F = G := Form.name_injective (Except.ok.inj h)
    exact hv.value_unique hs (hFG ▸ hw) hvk hwk

end ValueType.HasForm

end CodegenTypes
