import CodegenTypes.Proofs.ValueType.Derived

namespace CodegenTypes

inductive VectorOp
  | widen
  | half
  | toInteger
  | withLanes (lanes : Lanes)
  deriving DecidableEq

namespace VectorOp

def onMachine : VectorOp → MachineType → Except ValueTypeError MachineType
  | widen, m => m.widen
  | half, m => m.half
  | toInteger, m => m.toInteger
  | withLanes lanes, m => m.withLanes lanes

def onForm : VectorOp → Form → Except ValueTypeError Form
  | widen, F => F.widen
  | half, F => F.half
  | toInteger, F => F.toInteger
  | withLanes lanes, F => F.withLanes lanes

def run : VectorOp → ValueType → ContextId → Interning ValueType
  | widen, v => v.widen
  | half, v => v.half
  | toInteger, v => v.toInteger
  | withLanes lanes, v => (v.withLanes · lanes)

/-- The general construction alone.  Replacing lanes has never asked the table for more than
the vector that it makes. -/
def runGeneral : VectorOp → ValueType → ContextId → Interning ValueType
  | widen, v => v.widenGeneral
  | half, v => v.halfGeneral
  | toInteger, v => v.toIntegerGeneral
  | withLanes lanes, v => (v.withLanes · lanes)

variable {op : VectorOp} {m r : MachineType} {s : Session} {k : ContextId} {v : ValueType} {F : Form}

theorem onMachine_ok_iff : op.onMachine m = .ok r ↔ op.onForm m.form = .ok r.form := by
  cases op with
  | widen => exact m.widen_answer.ok_iff
  | half => exact m.half_answer.ok_iff
  | toInteger => exact m.toInteger_answer.ok_iff
  | withLanes c => exact MachineType.withLanes_ok_iff

theorem answer (hn : m.kind?.any Scalar.isNumeric) (hc : ∀ c, op = withLanes c → c.fitsVector) :
    TableAnswer (op.onMachine m) (op.onForm m.form) := by
  cases op with
  | widen => exact m.widen_answer
  | half => exact m.half_answer
  | toInteger => exact m.toInteger_answer
  | withLanes c => exact MachineType.withLanes_answer hn (hc c rfl)

section Run

variable (hs : s.WellFormed) (hv : v.HasForm s F) (hk : v.BelongsTo k)
include hs hv hk

theorem run_eq (op : VectorOp) : op.run v k s = Form.settle k (op.onForm F) s := by
  cases op with
  | widen => exact ValueType.widen_eq hs hv hk
  | half => exact ValueType.half_eq hs hv hk
  | toInteger => exact ValueType.toInteger_eq hs hv hk
  | withLanes c => exact ValueType.withLanes_eq hs hv hk c

theorem runGeneral_eq (op : VectorOp) : op.runGeneral v k s = Form.settle k (op.onForm F) s := by
  cases op with
  | widen => exact ValueType.widenGeneral_eq hs hv
  | half => exact ValueType.halfGeneral_eq hs hv hk
  | toInteger => exact ValueType.toIntegerGeneral_eq hs hv hk
  | withLanes c => exact ValueType.withLanes_eq hs hv hk c

end Run

end VectorOp

namespace Form

variable {s : Session} {k : ContextId} {F : Form}

theorem settle_eq_simple_iff (hs : s.WellFormed) {r : Except ValueTypeError Form}
    {m : MachineType} : (∃ t, settle k r s = .ok (.simple m) t) ↔ r = .ok m.form := by
  constructor
  · rintro ⟨t, h⟩
    obtain ⟨F, rfl, -, -, hF, -⟩ := settle_ok hs h
    rw [machine?_eq_some_iff.mp (ValueType.hasForm_simple_iff.mp hF)]
  · rintro rfl
    exact ⟨s, realize_of_machine? (machine?_form m)⟩

theorem settle_beyond_table (hs : s.WellFormed) (k : ContextId) (hF : F.machine? = none) :
    ∃ x t, settle k (.ok F) s = .ok (.extended x) t ∧
      (ValueType.extended x).name t = .ok F.name := by
  obtain ⟨v, t, hv, ht, -, hvF, -⟩ := exists_settle hs k F
  cases v with
  | simple m => cases hF.symm.trans (ValueType.hasForm_simple_iff.mp hvF)
  | extended x => exact ⟨x, t, hv, hvF.name ht⟩

end Form

end CodegenTypes
