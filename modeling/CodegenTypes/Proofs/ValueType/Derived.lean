import CodegenTypes.Proofs.ValueType.Settle
import CodegenTypes.ValueType.Derived

namespace CodegenTypes.ValueType

variable {s : Session} {k : ContextId} {v w : ValueType} {F G : Form}

theorem canonical?_eq {derive : MachineType → Except ValueTypeError MachineType}
    {deriveForm : Form → Except ValueTypeError Form}
    (hd : ∀ m, TableAnswer (derive m) (deriveForm m.form)) (hv : v.HasForm s F)
    {r : ValueType} (hr : v.canonical? derive = some r) :
    Form.settle k (deriveForm F) s = .ok r s := by
  cases hv with
  | simple m =>
    obtain ⟨n, hn, rfl⟩ := Option.map_eq_some_iff.mp hr
    cases hm : derive m with
    | error e => rw [hm] at hn; cases hn
    | ok n' =>
      rw [hm] at hn
      cases hn
      rw [(hd m).ok_iff.mp hm]
      exact Form.realize_of_machine? (Form.machine?_form n)
  | extended hx he => cases hr

theorem settle_of_general {derive : MachineType → Except ValueTypeError MachineType}
    {deriveForm : Form → Except ValueTypeError Form} {general : Interning ValueType}
    (hd : ∀ m, TableAnswer (derive m) (deriveForm m.form)) (hv : v.HasForm s F)
    (hk : v.BelongsTo k) (hg : general s = Form.settle k (deriveForm F) s) :
    (do
      v.checkOwner k
      match v.canonical? derive with
      | some r => return r
      | none => general : Interning ValueType) s = Form.settle k (deriveForm F) s := by
  rw [bind_of_ok (checkOwner_of_belongsTo hk)]
  cases hr : v.canonical? derive with
  | some r => exact (canonical?_eq hd hv hr).symm
  | none => exact hg

section General

variable (hs : s.WellFormed) (hv : v.HasForm s F)
include hs hv

theorem elementCount_bind {next : Lanes → Interning ValueType}
    {nextForm : Lanes → Except ValueTypeError Form}
    (hn : ∀ e c hc, F = .vector e c hc → next c s = Form.settle k (nextForm c) s) :
    (ask v.elementCount >>= next) s = Form.settle k (F.elementCount >>= nextForm) s := by
  have hc := hv.elementCount hs
  cases F with
  | vector e c hfit =>
    rw [bind_of_ok (ask_of_ok hc)]
    exact hn e c hfit rfl
  | _ => exact bind_of_error (ask_of_error hc)

omit hv in
theorem integer_bind_vector {c : Lanes} (hc : c.fitsVector) (bits : UInt32) :
    (integer k bits >>= fun w => vector k w c) s =
      Form.settle k (Form.integer bits >>= (·.lanesOf c)) s := by
  have hr : ∀ F, Form.integer bits = .ok F → F.machine? = none → ∃ e, F = .number e := by
    intro F hF _
    exact Form.eq_number_of_integer hF
  rw [← settle_bind_vector hs hc hr]
  exact bind_of_eq (integer_eq k bits s)

theorem widenGeneral_eq : v.widenGeneral k s = Form.settle k F.widen s := by
  apply elementCount_bind hs hv
  intro e c hc hF
  subst hF
  rw [bind_of_ok (ask_of_ok hv.scalarBits?)]
  simp only [Form.element?, Option.map_some]
  rw [bind_of_ok (ask_of_ok hv.isInteger)]
  cases e with
  | integer bits hb => exact integer_bind_vector hs hc (bits * 2)
  | float f => exact bind_of_ok (ask_of_ok (hv.name hs))

theorem halfGeneral_eq (hk : v.BelongsTo k) : v.halfGeneral k s = Form.settle k F.half s := by
  apply elementCount_bind hs hv
  intro e c hc hF
  cases hh : c.halve with
  | error e => rfl
  | ok d =>
    obtain ⟨w, hw, hwF, hwk⟩ := hv.scalarType hk
    simp only [bind_of_ok (ask_of_ok hw)]
    exact vector_eq hs hwF hwk d

theorem toIntegerGeneral_eq (hk : v.BelongsTo k) :
    v.toIntegerGeneral k s = Form.settle k F.toInteger s := by
  apply elementCount_bind hs hv
  intro e c hc hF
  subst hF
  rw [bind_of_ok (ask_of_ok hv.isInteger)]
  cases e with
  | integer bits hb => exact (Form.realize_of_hasForm hs hv hk).symm
  | float f =>
    change (ask v.scalarBits? >>= _) s = _
    rw [bind_of_ok (ask_of_ok hv.scalarBits?)]
    change (ask v.isFloat >>= _) s = _
    rw [bind_of_ok (ask_of_ok hv.isFloat)]
    exact integer_bind_vector hs hc f.bits

variable (hk : v.BelongsTo k)
include hk

theorem widen_eq : v.widen k s = Form.settle k F.widen s :=
  settle_of_general MachineType.widen_answer hv hk (widenGeneral_eq hs hv)

theorem half_eq : v.half k s = Form.settle k F.half s :=
  settle_of_general MachineType.half_answer hv hk (halfGeneral_eq hs hv hk)

theorem toInteger_eq : v.toInteger k s = Form.settle k F.toInteger s :=
  settle_of_general MachineType.toInteger_answer hv hk (toIntegerGeneral_eq hs hv hk)

theorem withLanes_eq (c : Lanes) : v.withLanes k c s = Form.settle k (F.withLanes c) s := by
  rw [withLanes, bind_of_ok (checkOwner_of_belongsTo hk), hv.isValid, Form.withLanes]
  split
  · obtain ⟨w, hw, hwF, hwk⟩ := hv.scalarType hk
    rw [bind_of_ok (ask_of_ok hw)]
    exact vector_eq hs hwF hwk c
  · rfl

theorem withElement_eq (hw : w.HasForm s G) (hwk : w.BelongsTo k) :
    v.withElement k w s = Form.settle k (F.withElement G) s := by
  rw [withElement, bind_of_ok (checkOwner_of_belongsTo hk)]
  apply elementCount_bind hs hv
  intro e c hc hF
  exact vector_eq hs hw hwk c

theorem double_eq : v.double k s = Form.settle k F.double s := by
  apply elementCount_bind hs hv
  intro e c hc hF
  cases hd : c.double with
  | error e => rfl
  | ok d => exact withLanes_eq hs hv hk d

end General

end CodegenTypes.ValueType
