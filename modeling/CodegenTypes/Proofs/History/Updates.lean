import CodegenTypes.Proofs.History.Vectors
import CodegenTypes.Proofs.ValueType.Recount
import CodegenTypes.Proofs.ValueType.Update

namespace CodegenTypes.History

variable {H : History} {k : ContextId} {v : ValueType}

/-- Even counts of lanes can be halved, and counts below half of their range doubled.  The element
stays, and so does the flag.  Either derivation takes the other back to the very value that it
started from, whether that is an entry of the table or not. -/
theorem Reachable.half_double_inverse (hH : H.Reachable) (hv : H.Issued v) (hk : v.BelongsTo k) :
    ((∃ r s, v.half k H.session = .ok r s) ↔
      ∃ c w, v.HasLanes c w H.session ∧ c.min.toNat % 2 = 0) ∧
    (∀ r s, v.half k H.session = .ok r s → r.BelongsTo k ∧ ∃ e c d,
      v.IsVectorOf e c H.session ∧ r.IsVectorOf e d s ∧
        d.scalable = c.scalable ∧ d.min.toNat * 2 = c.min.toNat) ∧
    (∀ f, (∃ s, v.half k H.session = .error f s) ↔
      ∃ e, v.LanesRefused (fun c => c.min.toNat % 2 = 1) (fun c => .inexact c 2) H.session e ∧
        f = .rejected e) ∧
    ((∃ r s, v.double k H.session = .ok r s) ↔
      ∃ c w, v.HasLanes c w H.session ∧ 2 * c.min.toNat < 4294967296) ∧
    (∀ r s, v.double k H.session = .ok r s → r.BelongsTo k ∧ ∃ e c d,
      v.IsVectorOf e c H.session ∧ r.IsVectorOf e d s ∧
        d.scalable = c.scalable ∧ d.min.toNat = c.min.toNat * 2) ∧
    (∀ f, (∃ s, v.double k H.session = .error f s) ↔
      ∃ e, v.LanesRefused (fun c => 4294967296 ≤ 2 * c.min.toNat) (fun c => .overflow c.min 2)
        H.session e ∧ f = .rejected e) ∧
    (∀ r s, v.double k H.session = .ok r s → r.half k s = .ok v s) ∧
    ∀ r s, v.half k H.session = .ok r s → r.double k s = .ok v s := by
  have hs := hH.sound.session
  obtain ⟨F, hF⟩ := hH.sound.exists_hasForm hv
  refine ⟨ValueType.exists_half_iff hs hF hk, fun r s h => ?_, fun f => ?_,
    ValueType.exists_double_iff hs hF hk, fun r s h => ?_, fun f => ?_, fun r s h => ?_,
    fun r s h => ?_⟩
  · exact ValueType.isVectorOf_of_half hs hF hk h
  · exact ValueType.half_eq_error_iff hs hF hk
  · exact ValueType.isVectorOf_of_double hs hF hk h
  · exact ValueType.double_eq_error_iff hs hF hk
  · exact ValueType.half_of_double hs hF hk h
  · exact ValueType.double_of_half hs hF hk h

theorem hasLanes_v3i17_sample :
    (ValueType.extended ⟨⟨0⟩, ⟨18⟩⟩).HasLanes ⟨3, false⟩ 17 sample.session :=
  (hasForm_v3i17_sample.hasLanes_iff reachable_sample.sound.session).mpr ⟨_, rfl, rfl, rfl⟩

theorem half_double_inverse_sample :
    sample.Reachable ∧ sample.Issued (.extended ⟨⟨0⟩, ⟨18⟩⟩) ∧
      (∃ s, (ValueType.extended ⟨⟨0⟩, ⟨18⟩⟩).half ⟨0⟩ sample.session =
        .error (.rejected (.lanes (.inexact ⟨3, false⟩ 2))) s) ∧
      (∃ r s, (ValueType.extended ⟨⟨0⟩, ⟨18⟩⟩).double ⟨0⟩ sample.session = .ok r s ∧
        r.half ⟨0⟩ s = .ok (.extended ⟨⟨0⟩, ⟨18⟩⟩) s) ∧
      ∃ s, (ValueType.simple (.ofScalar .f80)).double ⟨0⟩ sample.session =
        .error (.rejected (.notVector "f80")) s := by
  have hs := reachable_sample.sound.session
  obtain ⟨-, -, hhalf, hdouble, -, -, hback, -⟩ :=
    reachable_sample.half_double_inverse issued_v3i17_sample (k := ⟨0⟩) rfl
  obtain ⟨-, -, -, -, -, hscalar, -⟩ := reachable_sample.half_double_inverse
    (v := .simple (.ofScalar .f80)) (k := ⟨0⟩) trivial trivial
  obtain ⟨r, s, h⟩ := hdouble.mpr ⟨_, _, hasLanes_v3i17_sample, by decide⟩
  have hlaneless : (ValueType.simple (.ofScalar .f80)).Laneless sample.session (.notVector "f80") :=
    ((ValueType.hasForm_ofScalar rfl).laneless_iff hs).mpr ⟨rfl, rfl⟩
  exact ⟨reachable_sample, issued_v3i17_sample,
    (hhalf _).mpr ⟨_, .unfit hasLanes_v3i17_sample rfl, rfl⟩, ⟨r, s, h, hback r s h⟩,
    (hscalar _).mpr ⟨_, .laneless hlaneless, rfl⟩⟩

/-- Lanes and elements are replaced in either order, with the same success and the same result.  To
put back what is there changes nothing, and what is replaced once more is forgotten. -/
theorem Reachable.updates_independent (hH : H.Reachable) (hv : H.Issued v) (hk : v.BelongsTo k)
    (hvec : v.isVector H.session = .ok true) :
    (∀ (L : LaneUpdate) (E : ElementUpdate), (∀ e ∈ E.operands, H.Issued e ∧ e.BelongsTo k) →
      Interchangeable (E.run k v >>= L.run k) (L.run k v >>= E.run k) H.session) ∧
    (∃ c, v.elementCount H.session = .ok c ∧ v.withLanes k c H.session = .ok v H.session) ∧
    (∃ e, v.scalarType H.session = .ok e ∧ v.withElement k e H.session = .ok v H.session) ∧
    (∀ c, (∃ w s, v.withLanes k c H.session = .ok w s) → ∀ d,
      Interchangeable (v.withLanes k c >>= (·.withLanes k d)) (v.withLanes k d) H.session) ∧
    ∀ e, H.Issued e → e.BelongsTo k → (∃ w s, v.withElement k e H.session = .ok w s) →
      ∀ e', H.Issued e' → e'.BelongsTo k →
        Interchangeable (v.withElement k e >>= (·.withElement k e')) (v.withElement k e')
          H.session := by
  have hs := hH.sound.session
  obtain ⟨F, hF⟩ := hH.sound.exists_hasForm hv
  obtain ⟨e, c, he, hc, -⟩ := ValueType.exists_vector_eq_self hs hF hk hvec
  refine ⟨fun L E hE => ?_, ⟨c, hc, ?_⟩, ⟨e, he, ?_⟩, fun c h d => ?_,
    fun e he hek h e' he' hek' => ?_⟩
  · refine ValueType.interchangeable_updates hs hF hk hvec L fun e he => ?_
    exact ⟨hH.sound.exists_hasForm (hE e he).1, (hE e he).2⟩
  · exact ValueType.withLanes_self hs hF hk hc
  · exact ValueType.withElement_self hs hF hk hvec he
  · exact ValueType.withLanes_withLanes hs hF hk h d
  · obtain ⟨A, hA⟩ := hH.sound.exists_hasForm he
    obtain ⟨B, hB⟩ := hH.sound.exists_hasForm he'
    exact ValueType.withElement_withElement hs hF hk hA hek hB hek' h

theorem updates_independent_sample :
    sample.Reachable ∧ sample.Issued (.extended ⟨⟨0⟩, ⟨18⟩⟩) ∧
      (ValueType.extended ⟨⟨0⟩, ⟨18⟩⟩).isVector sample.session = .ok true ∧
      (∃ r s t, ((ValueType.extended ⟨⟨0⟩, ⟨18⟩⟩).widen ⟨0⟩ >>= (·.double ⟨0⟩)) sample.session =
          .ok r s ∧
        ((ValueType.extended ⟨⟨0⟩, ⟨18⟩⟩).double ⟨0⟩ >>= (·.widen ⟨0⟩)) s = .ok r t) ∧
      (∃ w s, (ValueType.extended ⟨⟨0⟩, ⟨18⟩⟩).withLanes ⟨0⟩ ⟨5, true⟩ sample.session = .ok w s) ∧
      Interchangeable
        ((ValueType.extended ⟨⟨0⟩, ⟨18⟩⟩).withLanes ⟨0⟩ ⟨5, true⟩ >>= (·.withLanes ⟨0⟩ ⟨7, false⟩))
        ((ValueType.extended ⟨⟨0⟩, ⟨18⟩⟩).withLanes ⟨0⟩ ⟨7, false⟩) sample.session := by
  have hs := reachable_sample.sound.session
  have hF := hasForm_v3i17_sample
  obtain ⟨hcomm, -, -, hlanes, -⟩ :=
    reachable_sample.updates_independent issued_v3i17_sample (k := ⟨0⟩) rfl hF.isVector
  have hwiden := (ValueType.follows_widen ⟨0⟩ sample.session).bind
    (ValueType.follows_double ⟨0⟩ sample.session) hF rfl
  have hfive := (ValueType.follows_withLanes ⟨0⟩ sample.session ⟨5, true⟩).yields hF rfl
  obtain ⟨r, s, h⟩ := (hwiden.exists_ok_iff hs).mpr ⟨_, rfl⟩
  obtain ⟨t, ht⟩ := (hcomm .double .widen (List.forall_mem_nil _)).onward r s h
  have h5 := (hfive.exists_ok_iff hs).mpr ⟨_, rfl⟩
  exact ⟨reachable_sample, issued_v3i17_sample, hF.isVector, ⟨r, s, t, h, ht⟩, h5,
    hlanes ⟨5, true⟩ h5 ⟨7, false⟩⟩

end CodegenTypes.History
