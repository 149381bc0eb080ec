import CodegenTypes.Proofs.History.Vectors
import CodegenTypes.Proofs.ValueType.Size

namespace CodegenTypes.History

variable {H : History} {k : ContextId} {v : ValueType}

/-- What is no number and no vector has no size.  All other sizes are exact, and half, double or
keep their bits with the vectors. -/
theorem Reachable.size_exact (hH : H.Reachable) (hv : H.Issued v) (hk : v.BelongsTo k) :
    (v.size? H.session = .ok none ↔
      v.isInteger H.session = .ok false ∧ v.isFloat H.session = .ok false) ∧
    (v.IsNumber H.session → ∃ bits,
      v.size? H.session = .ok (some (.fixed bits)) ∧ v.HasWidth k H.session bits.toNat) ∧
    (v.isVector H.session = .ok true → ∃ c w z,
      v.elementCount H.session = .ok c ∧ v.HasWidth k H.session w ∧
        v.size? H.session = .ok (some z) ∧ z.minBits.toNat = c.min.toNat * w ∧
        v.isScalableVector H.session = .ok z.scalable) ∧
    (∀ m, v = .simple m → v.size? H.session = .ok m.size?) ∧
    (∀ r s, v.half k H.session = .ok r s → v.SizeRatio H.session r s 2 1) ∧
    (∀ r s, v.double k H.session = .ok r s → v.SizeRatio H.session r s 1 2) ∧
    (∀ r s, v.widen k H.session = .ok r s → v.SizeRatio H.session r s 1 2) ∧
    ∀ r s, v.toInteger k H.session = .ok r s → v.SizeRatio H.session r s 1 1 := by
  have hs := hH.sound.session
  obtain ⟨F, hF⟩ := hH.sound.exists_hasForm hv
  refine ⟨hF.size?_eq_none_iff hs, ValueType.exists_fixed_size hs hF hk,
    ValueType.exists_size_of_isVector hs hF hk, ?_, fun r s => ?_, fun r s => ?_, fun r s => ?_,
    fun r s => ?_⟩
  · rintro m rfl
    exact ValueType.size?_simple hs m
  · exact ValueType.sizeRatio_of_half hs hF hk
  · exact ValueType.sizeRatio_of_double hs hF hk
  · exact ValueType.sizeRatio_of_widen hs hF hk
  · exact ValueType.sizeRatio_of_toInteger hs hF hk

theorem size_exact_sample :
    sample.Reachable ∧ sample.Issued (.extended ⟨⟨0⟩, ⟨18⟩⟩) ∧
      (∃ c w z, (ValueType.extended ⟨⟨0⟩, ⟨18⟩⟩).elementCount sample.session = .ok c ∧
        (ValueType.extended ⟨⟨0⟩, ⟨18⟩⟩).HasWidth ⟨0⟩ sample.session w ∧
        (ValueType.extended ⟨⟨0⟩, ⟨18⟩⟩).size? sample.session = .ok (some z) ∧
        z.minBits.toNat = c.min.toNat * w) ∧
      (∃ r s, (ValueType.extended ⟨⟨0⟩, ⟨18⟩⟩).widen ⟨0⟩ sample.session = .ok r s ∧
        (ValueType.extended ⟨⟨0⟩, ⟨18⟩⟩).SizeRatio sample.session r s 1 2) ∧
      (∃ bits, (ValueType.simple (.ofScalar .f80)).size? sample.session =
        .ok (some (.fixed bits))) ∧
      (ValueType.simple .invalid).size? sample.session = .ok none := by
  have hs := reachable_sample.sound.session
  have hF := hasForm_v3i17_sample
  obtain ⟨-, -, hvector, -, -, -, hwiden, -⟩ :=
    reachable_sample.size_exact issued_v3i17_sample (k := ⟨0⟩) rfl
  obtain ⟨-, hscalar, -⟩ := reachable_sample.size_exact (v := .simple (.ofScalar .f80)) (k := ⟨0⟩)
    trivial trivial
  obtain ⟨hnone, -⟩ := reachable_sample.size_exact (v := .simple .invalid) (k := ⟨0⟩) trivial
    trivial
  obtain ⟨c, w, z, hc, hw, hz, hexact, -⟩ := hvector hF.isVector
  obtain ⟨bits, hbits, -⟩ := hscalar ((ValueType.hasForm_ofScalar rfl).isNumber_iff.mpr rfl)
  obtain ⟨r, s, h⟩ := (ValueType.exists_widen_iff hs hF (k := ⟨0⟩) rfl).mpr
    ⟨_, _, (hF.integerLanes_iff hs).mpr ⟨17, by decide, rfl, rfl, rfl⟩, by decide⟩
  exact ⟨reachable_sample, issued_v3i17_sample, ⟨c, w, z, hc, hw, hz, hexact⟩,
    ⟨r, s, h, hwiden r s h⟩, ⟨bits, hbits⟩, hnone.mpr ⟨rfl, rfl⟩⟩

end CodegenTypes.History
