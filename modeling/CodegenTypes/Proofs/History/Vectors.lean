import CodegenTypes.Proofs.History.Sound
import CodegenTypes.Proofs.ValueType.Vectors

namespace CodegenTypes.History

variable {H : History} {k : ContextId} {v : ValueType}

theorem get?_sample :
    (sample.session.context ⟨0⟩).get? ⟨17⟩ = some (.integer 17) ∧
      (sample.session.context ⟨0⟩).get? ⟨18⟩ = some (.vector ⟨17⟩ ⟨3, false⟩) ∧
      (sample.session.context ⟨1⟩).get? ⟨9⟩ = some (.float .single) ∧
      (sample.session.context ⟨1⟩).get? ⟨17⟩ = some (.vector ⟨9⟩ ⟨5, true⟩) ∧
      (Form.vector (.float .single) ⟨5, true⟩ rfl).machine? = none := by
  decide +kernel

theorem issued_v3i17_sample : sample.Issued (.extended ⟨⟨0⟩, ⟨18⟩⟩) := by
  simp [Issued, answers_sample]

theorem hasForm_v3i17_sample :
    (ValueType.extended ⟨⟨0⟩, ⟨18⟩⟩).HasForm sample.session
      (.vector (.integer 17 (by decide)) ⟨3, false⟩ rfl) := by
  obtain ⟨hj, hh, -⟩ := get?_sample
  exact ValueType.hasForm_of_get? rfl hj hh rfl

theorem hasForm_nxv5f32_sample :
    (ValueType.extended ⟨⟨1⟩, ⟨17⟩⟩).HasForm sample.session
      (.vector (.float .single) ⟨5, true⟩ rfl) := by
  obtain ⟨-, -, hj, hh, he⟩ := get?_sample
  exact ValueType.hasForm_of_get? rfl hj hh he

/-- Numbers, and nothing else, fill lanes.  A vector gives back the number and the lanes that it
was made of, and these make it again. -/
theorem Reachable.vector_projections (hH : H.Reachable) (k : ContextId) :
    (∀ e, H.Issued e → e.BelongsTo k → ∀ c,
      ((∃ v s, ValueType.vector k e c H.session = .ok v s) ↔
        e.IsNumber H.session ∧ 1 ≤ c.min.toNat) ∧
      (∀ f, (∃ s, ValueType.vector k e c H.session = .error f s) ↔
        ∃ r, e.VectorRefused c H.session r ∧ f = .rejected r) ∧
      ∀ v s, ValueType.vector k e c H.session = .ok v s → v.BelongsTo k ∧ v.IsVectorOf e c s) ∧
    ∀ v, H.Issued v → v.BelongsTo k → v.isVector H.session = .ok true →
      ∃ e c, v.scalarType H.session = .ok e ∧ v.elementCount H.session = .ok c ∧
        ValueType.vector k e c H.session = .ok v H.session := by
  have hs := hH.sound.session
  constructor
  · intro e he hk c
    obtain ⟨F, hF⟩ := hH.sound.exists_hasForm he
    refine ⟨ValueType.exists_vector_iff hs hF hk, fun f => ?_, fun v s h => ?_⟩
    · exact ValueType.vector_eq_error_iff hs hF hk
    · exact ValueType.isVectorOf_of_vector hs hF hk h
  · intro v hv hk hvec
    obtain ⟨F, hF⟩ := hH.sound.exists_hasForm hv
    exact ValueType.exists_vector_eq_self hs hF hk hvec

theorem vector_projections_sample :
    sample.Reachable ∧
      (∃ v s, ValueType.vector ⟨0⟩ (.simple (.ofScalar .i32)) ⟨7, true⟩ sample.session = .ok v s ∧
        v.IsVectorOf (.simple (.ofScalar .i32)) ⟨7, true⟩ s) ∧
      (∃ s, ValueType.vector ⟨0⟩ (.simple (.ofScalar .i32)) ⟨0, true⟩ sample.session =
        .error (.rejected (.type .noLanes)) s) ∧
      sample.Issued (.extended ⟨⟨0⟩, ⟨18⟩⟩) ∧
      ∃ e c, (ValueType.extended ⟨⟨0⟩, ⟨18⟩⟩).elementCount sample.session = .ok c ∧
        ValueType.vector ⟨0⟩ e c sample.session =
          .ok (.extended ⟨⟨0⟩, ⟨18⟩⟩) sample.session := by
  have hv : sample.Issued (.extended ⟨⟨0⟩, ⟨18⟩⟩) := by simp [Issued, answers_sample]
  obtain ⟨hmake, htake⟩ := reachable_sample.vector_projections ⟨0⟩
  have hnumber : (ValueType.simple (.ofScalar .i32)).IsNumber sample.session :=
    (ValueType.hasForm_ofScalar rfl).isNumber_iff.mpr rfl
  have hseven := hmake (.simple (.ofScalar .i32)) trivial trivial ⟨7, true⟩
  have hnone := hmake (.simple (.ofScalar .i32)) trivial trivial ⟨0, true⟩
  obtain ⟨v, s, h⟩ := hseven.1.mpr ⟨hnumber, by decide⟩
  obtain ⟨e, c, -, hc, hself⟩ := htake _ hv rfl hasForm_v3i17_sample.isVector
  exact ⟨reachable_sample, ⟨v, s, h, (hseven.2.2 v s h).2⟩,
    (hnone.2.1 _).mpr ⟨_, .noLanes hnumber rfl, rfl⟩, hv, e, c, hc, hself⟩

/-- Integer lanes are widened up to the widest integer.  What cannot be widened is refused for
what it is, the table is never the reason, and no doubled width wraps. -/
theorem Reachable.widen_exact (hH : H.Reachable) (hv : H.Issued v) (hk : v.BelongsTo k) :
    ((∃ r s, v.widen k H.session = .ok r s) ↔
      ∃ c n, v.IntegerLanes c n H.session ∧ 2 * n ≤ 16777216) ∧
    (∀ r s, v.widen k H.session = .ok r s →
      r.BelongsTo k ∧ ∃ c n, v.IntegerLanes c n H.session ∧ r.IntegerLanes c (2 * n) s) ∧
    (∀ f, (∃ s, v.widen k H.session = .error f s) ↔
      ∃ e, v.WidenRefused H.session e ∧ f = .rejected e) ∧
    (∀ f s, v.widen k H.session = .error f s → ∀ name,
      f ≠ .rejected (.noWiderInteger name) ∧ f ≠ .rejected (.notCanonical name)) ∧
    ∀ bits, v.scalarBits? H.session = .ok (some bits) → (bits * 2).toNat = 2 * bits.toNat := by
  have hs := hH.sound.session
  obtain ⟨F, hF⟩ := hH.sound.exists_hasForm hv
  have herror := fun f => ValueType.widen_eq_error_iff (f := f) hs hF hk
  refine ⟨ValueType.exists_widen_iff hs hF hk, fun r s h => ?_, herror, fun f s h name => ?_,
    fun bits hbits => ?_⟩
  · exact ValueType.integerLanes_of_widen hs hF hk h
  · obtain ⟨e, he, rfl⟩ := (herror f).mp ⟨s, h⟩
    simpa using he.ne name
  · exact (hF.inRange_of_scalarBits? hbits).toNat_double

theorem widen_exact_sample :
    sample.Reachable ∧ sample.Issued (.extended ⟨⟨0⟩, ⟨18⟩⟩) ∧
      (ValueType.extended ⟨⟨0⟩, ⟨18⟩⟩).IntegerLanes ⟨3, false⟩ 17 sample.session ∧
      (∃ r s, (ValueType.extended ⟨⟨0⟩, ⟨18⟩⟩).widen ⟨0⟩ sample.session = .ok r s ∧
        ∃ c n, (ValueType.extended ⟨⟨0⟩, ⟨18⟩⟩).IntegerLanes c n sample.session ∧
          r.IntegerLanes c (2 * n) s) ∧
      sample.Issued (.extended ⟨⟨1⟩, ⟨17⟩⟩) ∧
      ∃ s, (ValueType.extended ⟨⟨1⟩, ⟨17⟩⟩).widen ⟨1⟩ sample.session =
        .error (.rejected (.notIntegerVector "nxv5f32")) s := by
  have hv : sample.Issued (.extended ⟨⟨0⟩, ⟨18⟩⟩) := by simp [Issued, answers_sample]
  have hw : sample.Issued (.extended ⟨⟨1⟩, ⟨17⟩⟩) := by simp [Issued, answers_sample]
  have hs := reachable_sample.sound.session
  have hlanes : (ValueType.extended ⟨⟨0⟩, ⟨18⟩⟩).IntegerLanes ⟨3, false⟩ 17 sample.session :=
    (hasForm_v3i17_sample.integerLanes_iff hs).mpr ⟨17, by decide, rfl, rfl, rfl⟩
  have hwiden := reachable_sample.widen_exact hv (k := ⟨0⟩) rfl
  have hfloat := reachable_sample.widen_exact hw (k := ⟨1⟩) rfl
  obtain ⟨r, s, h⟩ := hwiden.1.mpr ⟨_, _, hlanes, by decide⟩
  have hrefused : (ValueType.extended ⟨⟨1⟩, ⟨17⟩⟩).WidenRefused sample.session
      (.notIntegerVector "nxv5f32") :=
    .float hasForm_nxv5f32_sample.isVector hasForm_nxv5f32_sample.isFloat
      (hasForm_nxv5f32_sample.name hs)
  exact ⟨reachable_sample, hv, hlanes, ⟨r, s, h, (hwiden.2.1 r s h).2⟩, hw,
    (hfloat.2.2.1 _).mpr ⟨_, hrefused, rfl⟩⟩

/-- Every vector, and nothing else, reads as integers of the same width in the same lanes. -/
theorem Reachable.toInteger_exact (hH : H.Reachable) (hv : H.Issued v) (hk : v.BelongsTo k) :
    ((∃ r s, v.toInteger k H.session = .ok r s) ↔ v.isVector H.session = .ok true) ∧
    (∀ f, (∃ s, v.toInteger k H.session = .error f s) ↔
      ∃ e, v.Laneless H.session e ∧ f = .rejected e) ∧
    (∀ f s, v.toInteger k H.session = .error f s → ∀ name,
      f ≠ .rejected (.noIntegerCounterpart name) ∧ f ≠ .rejected (.notCanonical name)) ∧
    (v.isVector H.session = .ok true → v.isInteger H.session = .ok true →
      v.toInteger k H.session = .ok v H.session) ∧
    ∀ r s, v.toInteger k H.session = .ok r s →
      r.BelongsTo k ∧ (∃ c n, v.HasLanes c n H.session ∧ r.IntegerLanes c n s) ∧
        r.toInteger k s = .ok r s := by
  have hs := hH.sound.session
  obtain ⟨F, hF⟩ := hH.sound.exists_hasForm hv
  have herror := fun f => ValueType.toInteger_eq_error_iff (f := f) hs hF hk
  refine ⟨ValueType.exists_toInteger_iff hs hF hk, herror, fun f s h name => ?_,
    ValueType.toInteger_of_isInteger hs hF hk, fun r s h => ?_⟩
  · obtain ⟨e, he, rfl⟩ := (herror f).mp ⟨s, h⟩
    obtain ⟨hcounterpart, -, hcanonical⟩ := he.ne name
    simp [hcounterpart, hcanonical]
  · obtain ⟨hrk, hlanes⟩ := ValueType.integerLanes_of_toInteger hs hF hk h
    exact ⟨hrk, hlanes, ValueType.toInteger_of_toInteger hs hF hk h⟩

theorem toInteger_exact_sample :
    sample.Reachable ∧ sample.Issued (.extended ⟨⟨1⟩, ⟨17⟩⟩) ∧
      (∃ r s, (ValueType.extended ⟨⟨1⟩, ⟨17⟩⟩).toInteger ⟨1⟩ sample.session = .ok r s ∧
        (∃ c n, (ValueType.extended ⟨⟨1⟩, ⟨17⟩⟩).HasLanes c n sample.session ∧
          r.IntegerLanes c n s) ∧
        r.toInteger ⟨1⟩ s = .ok r s) ∧
      sample.Issued (.extended ⟨⟨0⟩, ⟨18⟩⟩) ∧
      (ValueType.extended ⟨⟨0⟩, ⟨18⟩⟩).toInteger ⟨0⟩ sample.session =
        .ok (.extended ⟨⟨0⟩, ⟨18⟩⟩) sample.session ∧
      ∃ s, (ValueType.simple (.ofScalar .f80)).toInteger ⟨0⟩ sample.session =
        .error (.rejected (.notVector "f80")) s := by
  have hv : sample.Issued (.extended ⟨⟨1⟩, ⟨17⟩⟩) := by simp [Issued, answers_sample]
  have hw : sample.Issued (.extended ⟨⟨0⟩, ⟨18⟩⟩) := by simp [Issued, answers_sample]
  have hfloat := reachable_sample.toInteger_exact hv (k := ⟨1⟩) rfl
  have hinteger := reachable_sample.toInteger_exact hw (k := ⟨0⟩) rfl
  have hscalar := reachable_sample.toInteger_exact (v := .simple (.ofScalar .f80)) (k := ⟨0⟩)
    trivial trivial
  obtain ⟨r, s, h⟩ := hfloat.1.mpr hasForm_nxv5f32_sample.isVector
  have hlaneless : (ValueType.simple (.ofScalar .f80)).Laneless sample.session (.notVector "f80") :=
    ((ValueType.hasForm_ofScalar rfl).laneless_iff reachable_sample.sound.session).mpr ⟨rfl, rfl⟩
  exact ⟨reachable_sample, hv, ⟨r, s, h, (hfloat.2.2.2.2 r s h).2⟩, hw,
    hinteger.2.2.2.1 hasForm_v3i17_sample.isVector hasForm_v3i17_sample.isInteger,
    (hscalar.2.1 _).mpr ⟨_, hlaneless, rfl⟩⟩

end CodegenTypes.History
