import CodegenTypes.Proofs.History.Sizes
import CodegenTypes.Proofs.ValueType.Reading
import CodegenTypes.Proofs.ValueType.Summary

namespace CodegenTypes

namespace Form

variable {F : Form}

theorem scalar_ne_invalid (hF : F ≠ .invalid) : F.scalar ≠ .invalid := by
  cases F with
  | invalid => exact absurd rfl hF
  | _ => exact Form.noConfusion

@[simp] theorem scalar_scalar (F : Form) : F.scalar.scalar = F.scalar := by cases F <;> rfl

theorem exists_bits_of_summary {n : UInt64} (hn : F.summary.bits = some n) :
    ∃ d, F.scalar = .number d ∧ n.toNat = F.summary.laneCount * d.bits.toNat := by
  obtain ⟨z, hz, rfl⟩ := Option.map_eq_some_iff.mp hn
  cases F with
  | number d =>
    cases hz
    refine ⟨d, rfl, ?_⟩
    change d.bits.toUInt64.toNat = 1 * d.bits.toNat
    rw [UInt32.toNat_toUInt64, Nat.one_mul]
  | vector d c hc =>
    cases hz
    refine ⟨d, rfl, ?_⟩
    change (BitSize.ofLanes d.bits c).minBits.toNat = c.min.toNat * d.bits.toNat
    rw [BitSize.toNat_minBits_ofLanes, Nat.mul_comm]
  | _ => cases hz

end Form

namespace ValueType.HasForm

variable {s : Session} {k : ContextId} {v : ValueType} {F : Form}

theorem exists_width_of_summary (hs : s.WellFormed) (hv : v.HasForm s F) (hk : v.BelongsTo k)
    {n : UInt64} (hn : F.summary.bits = some n) :
    ∃ (e : ValueType) (w : Nat), e.name s = .ok F.summary.scalar ∧ e.HasWidth k s w ∧
      n.toNat = F.summary.laneCount * w := by
  obtain ⟨e, -, heF, hek⟩ := hv.scalarType hk
  obtain ⟨d, hd, hbits⟩ := Form.exists_bits_of_summary hn
  exact ⟨e, d.bits.toNat, heF.name hs, heF.hasWidth hs hek (by rw [Form.scalar_scalar, hd]), hbits⟩

theorem exists_parse_scalar (hs : s.WellFormed) (hv : v.HasForm s F) (hk : v.BelongsTo k)
    (hi : v.isValid) : ∃ e, v.scalarType s = .ok e ∧ parse k F.summary.scalar s = .ok e s := by
  obtain ⟨e, he, heF, hek⟩ := hv.scalarType hk
  refine ⟨e, he, heF.parse_name hs hek ?_⟩
  rw [hv.isValid] at hi
  rw [heF.isValid]
  exact decide_eq_true (Form.scalar_ne_invalid (of_decide_eq_true hi))

end ValueType.HasForm

namespace History

variable {H : History} {k : ContextId} {v : ValueType}

/-- The parts of a summary agree.  Its bits are the width of the type that it names as the scalar,
as often as there are lanes, and that name reads as the scalar type. -/
theorem Reachable.summary_consistent (hH : H.Reachable) (hv : H.Issued v) (hk : v.BelongsTo k) :
    ∃ r, Summary.of v H.session = .ok r ∧ r.Consistent ∧
      (∀ n, r.bits = some n → ∃ (e : ValueType) (w : Nat), e.name H.session = .ok r.scalar ∧
        e.HasWidth k H.session w ∧ n.toNat = r.laneCount * w) ∧
      (v.isValid → ∃ e, v.scalarType H.session = .ok e ∧
        ValueType.parse k r.scalar H.session = .ok e H.session) := by
  have hs := hH.sound.session
  obtain ⟨F, hF⟩ := hH.sound.exists_hasForm hv
  exact ⟨F.summary, hF.summary hs, F.consistent_summary,
    fun n => hF.exists_width_of_summary hs hk, hF.exists_parse_scalar hs hk⟩

theorem summary_consistent_sample :
    sample.Reachable ∧ sample.Issued (.extended ⟨⟨0⟩, ⟨18⟩⟩) ∧
      (∃ r e, Summary.of (.extended ⟨⟨0⟩, ⟨18⟩⟩) sample.session = .ok r ∧ r.Consistent ∧
        r.name = "v3i17" ∧ r.scalar = "i17" ∧ r.bits = some 51 ∧ r.laneCount = 3 ∧
        (ValueType.extended ⟨⟨0⟩, ⟨18⟩⟩).scalarType sample.session = .ok e ∧
        ValueType.parse ⟨0⟩ "i17" sample.session = .ok e sample.session) ∧
      ∃ r, Summary.of (.simple .invalid) sample.session = .ok r ∧ r.Consistent ∧
        r.bits = none := by
  have hs := reachable_sample.sound.session
  obtain ⟨r, hr, hconsistent, -, hscalar⟩ :=
    reachable_sample.summary_consistent issued_v3i17_sample (k := ⟨0⟩) rfl
  obtain ⟨q, hq, hinvalid, -⟩ := reachable_sample.summary_consistent (v := .simple .invalid)
    (k := ⟨0⟩) trivial trivial
  cases (hasForm_v3i17_sample.summary hs).symm.trans hr
  cases ((ValueType.HasForm.simple .invalid).summary hs).symm.trans hq
  obtain ⟨e, he, hparse⟩ := hscalar rfl
  refine ⟨reachable_sample, issued_v3i17_sample,
    ⟨_, e, hr, hconsistent, ?_, ?_, ?_, rfl, he, hparse⟩, _, hq, hinvalid, ?_⟩
  · decide
  · decide
  · decide
  · decide

end History

end CodegenTypes
