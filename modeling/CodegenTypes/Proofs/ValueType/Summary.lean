import CodegenTypes.Proofs.ValueType.Profile
import CodegenTypes.Summary

namespace CodegenTypes

namespace Summary

/-- A type without lanes counts as one. -/
def laneCount (r : Summary) : Nat := r.lanes.elim 1 fun c => c.min.toNat

structure Consistent (r : Summary) : Prop where
  extended : r.extended ↔ r.index = none
  vector : r.vector ↔ r.lanes.isSome
  scalable : r.scalable ↔ ∃ c, r.lanes = some c ∧ c.scalable
  numeric : ¬(r.integer ∧ r.float)
  bits : r.bits.isSome ↔ r.integer ∨ r.float
  name : r.name =
    match r.lanes with
    | none => r.scalar
    | some c => (if c.scalable then "nxv" else "v") ++ Decimal.text c.min.toNat ++ r.scalar

end Summary

def Form.summary (F : Form) : Summary where
  name := F.name
  index := F.machine?.map fun m => m.index.val
  extended := F.machine?.isNone
  scalar := F.scalar.name
  integer := F.element?.any Element.isInteger
  float := F.element?.any Element.isFloat
  vector := F.lanes?.isSome
  scalable := F.lanes?.any Lanes.scalable
  lanes := F.lanes?
  bits := F.size?.map BitSize.minBits

theorem Form.consistent_summary (F : Form) : F.summary.Consistent where
  extended := by simp [summary]
  vector := Iff.rfl
  scalable := by simp [summary, Option.any_eq_true]
  numeric := by
    cases h : F.element? with
    | none => simp [summary, h]
    | some e => cases e <;> simp [summary, h, Element.isInteger, Element.isFloat]
  bits := by
    cases h : F.element? with
    | none => simp [summary, size?, h]
    | some e => cases e <;> simp [summary, size?, h, Element.isInteger, Element.isFloat]
  name := by cases F <;> rfl

namespace ValueType.HasForm

variable {s : Session} {k : ContextId} {v : ValueType} {F : Form}

theorem isExtended (hv : v.HasForm s F) : v.isExtended = F.machine?.isNone := by
  rw [← hv.simple?]
  cases v <;> rfl

theorem summary (hs : s.WellFormed) (hv : v.HasForm s F) : Summary.of v s = .ok F.summary := by
  obtain ⟨k, hk⟩ := v.exists_belongsTo
  obtain ⟨w, hw, hwF, -⟩ := hv.scalarType hk
  rw [Summary.of, hv.name hs, hw, hv.isInteger, hv.isFloat, hv.isVector, hv.isScalableVector,
    hv.lanes? hs, hv.size? hs, hv.simple?, hv.isExtended]
  change (do let scalar ← w.name s; _) = _
  rw [hwF.name hs]
  rfl

end ValueType.HasForm

end CodegenTypes
