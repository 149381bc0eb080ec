import CodegenTypes.Proofs.ValueType.Vectors

namespace CodegenTypes

namespace ValueType

/-- How a value type is refused whose lanes are to be counted anew.  It has none, or those that it
has do not fit, and then they are to blame. -/
inductive LanesRefused (v : ValueType) (unfit : Lanes → Prop) (blame : Lanes → LaneError)
    (s : Session) : ValueTypeError → Prop
  | laneless {e : ValueTypeError} (h : v.Laneless s e) : LanesRefused v unfit blame s e
  | unfit {c : Lanes} {w : Nat} (h : v.HasLanes c w s) (hc : unfit c) :
      LanesRefused v unfit blame s (.lanes (blame c))

variable {s t : Session} {k : ContextId} {v r : ValueType} {F G : Form} {e : ValueTypeError}
  {f : Failure} {count : Lanes → Except LaneError Lanes} {unfit : Lanes → Prop}
  {blame : Lanes → LaneError}

theorem HasForm.lanesRefused_iff (hs : s.WellFormed) (hv : v.HasForm s F) :
    v.LanesRefused unfit blame s e ↔
      (F.lanes? = none ∧ e = F.notVector) ∨
        ∃ d c hc, F = .vector d c hc ∧ unfit c ∧ e = .lanes (blame c) := by
  rw [← hv.laneless_iff hs]
  constructor
  · intro h
    cases h with
    | laneless h => exact .inl h
    | unfit h hc =>
      obtain ⟨d, hfit, rfl, -⟩ := (hv.hasLanes_iff hs).mp h
      exact .inr ⟨d, _, hfit, rfl, hc, rfl⟩
  · rintro (h | ⟨d, c, hfit, rfl, hc, rfl⟩)
    · exact .laneless h
    · exact .unfit ((hv.hasLanes_iff hs).mpr ⟨d, hfit, rfl, rfl⟩) hc

section Recount

variable (hs : s.WellFormed) (hv : v.HasForm s F) (hk : v.BelongsTo k)
include hs hv

theorem exists_recount_iff (hr : Lanes.Recounts count unfit blame) :
    (∃ r t, Form.settle k (F.recount count) s = .ok r t) ↔
      ∃ c w, v.HasLanes c w s ∧ ¬unfit c := by
  rw [Form.exists_settle_iff hs]
  simp only [Form.recount_eq_ok_iff, hv.hasLanes_iff hs, ← hr.exists_ok_iff]
  constructor
  · rintro ⟨G, e, c, hc, d, hd, hcount, hF, -⟩
    exact ⟨c, _, ⟨e, hc, hF, rfl⟩, d, hcount⟩
  · rintro ⟨c, w, ⟨e, hc, hF, -⟩, d, hcount⟩
    exact ⟨_, e, c, hc, d, hr.fits hcount hc, hcount, hF, rfl⟩

theorem recount_eq_error_iff (hr : Lanes.Recounts count unfit blame) :
    (∃ t, Form.settle k (F.recount count) s = .error f t) ↔
      ∃ e, v.LanesRefused unfit blame s e ∧ f = .rejected e := by
  rw [Form.settle_eq_error_iff hs]
  simp only [Form.recount_eq_error_iff hr, hv.lanesRefused_iff hs]

include hk

theorem isVectorOf_of_recount (h : Form.settle k (F.recount count) s = .ok r t) :
    r.BelongsTo k ∧
      ∃ e c d, count c = .ok d ∧ v.IsVectorOf e c s ∧ r.IsVectorOf e d t := by
  obtain ⟨G, hG, ht, hle, hrG, hrk⟩ := Form.settle_ok hs h
  obtain ⟨d, c, hc, c', hc', hcount, rfl, rfl⟩ := Form.recount_eq_ok_iff.mp hG
  obtain ⟨w, -, hw, hwk⟩ := hv.scalarType hk
  exact ⟨hrk, w, c, c', hcount, hv.isVectorOf hs hk hw hwk,
    hrG.isVectorOf ht hrk (hw.mono hle) hwk⟩

theorem exists_half_iff :
    (∃ r t, v.half k s = .ok r t) ↔ ∃ c w, v.HasLanes c w s ∧ c.min.toNat % 2 = 0 := by
  rw [half_eq hs hv hk, Form.half_eq_recount, exists_recount_iff hs hv Lanes.halve_recounts]
  simp only [Nat.mod_two_not_eq_one]

theorem exists_double_iff :
    (∃ r t, v.double k s = .ok r t) ↔ ∃ c w, v.HasLanes c w s ∧ 2 * c.min.toNat < 4294967296 := by
  rw [double_eq hs hv hk, Form.double_eq_recount, exists_recount_iff hs hv Lanes.double_recounts]
  simp only [Nat.not_le]

theorem half_eq_error_iff :
    (∃ t, v.half k s = .error f t) ↔
      ∃ e, v.LanesRefused (fun c => c.min.toNat % 2 = 1) (fun c => .inexact c 2) s e ∧
        f = .rejected e := by
  rw [half_eq hs hv hk, Form.half_eq_recount, recount_eq_error_iff hs hv Lanes.halve_recounts]

theorem double_eq_error_iff :
    (∃ t, v.double k s = .error f t) ↔
      ∃ e, v.LanesRefused (fun c => 4294967296 ≤ 2 * c.min.toNat) (fun c => .overflow c.min 2) s e ∧
        f = .rejected e := by
  rw [double_eq hs hv hk, Form.double_eq_recount, recount_eq_error_iff hs hv Lanes.double_recounts]

theorem isVectorOf_of_half (h : v.half k s = .ok r t) :
    r.BelongsTo k ∧ ∃ e c d, v.IsVectorOf e c s ∧ r.IsVectorOf e d t ∧
      d.scalable = c.scalable ∧ d.min.toNat * 2 = c.min.toNat := by
  rw [half_eq hs hv hk, Form.half_eq_recount] at h
  obtain ⟨hrk, e, c, d, hcount, hve, hre⟩ := isVectorOf_of_recount hs hv hk h
  exact ⟨hrk, e, c, d, hve, hre, (Lanes.divide_eq_ok_iff.mp hcount).2⟩

theorem isVectorOf_of_double (h : v.double k s = .ok r t) :
    r.BelongsTo k ∧ ∃ e c d, v.IsVectorOf e c s ∧ r.IsVectorOf e d t ∧
      d.scalable = c.scalable ∧ d.min.toNat = c.min.toNat * 2 := by
  rw [double_eq hs hv hk, Form.double_eq_recount] at h
  obtain ⟨hrk, e, c, d, hcount, hve, hre⟩ := isVectorOf_of_recount hs hv hk h
  exact ⟨hrk, e, c, d, hve, hre, (Lanes.scale_eq_ok_iff.mp hcount).2⟩

theorem half_of_double (h : v.double k s = .ok r t) : r.half k t = .ok v t := by
  rw [double_eq hs hv hk] at h
  obtain ⟨G, hG, ht, hle, hrG, hrk⟩ := Form.settle_ok hs h
  rw [half_eq ht hrG hrk, Form.half_eq_ok_iff_double.mpr hG]
  exact Form.realize_of_hasForm ht (hv.mono hle) hk

theorem double_of_half (h : v.half k s = .ok r t) : r.double k t = .ok v t := by
  rw [half_eq hs hv hk] at h
  obtain ⟨G, hG, ht, hle, hrG, hrk⟩ := Form.settle_ok hs h
  rw [double_eq ht hrG hrk, Form.half_eq_ok_iff_double.mp hG]
  exact Form.realize_of_hasForm ht (hv.mono hle) hk

end Recount

end ValueType

end CodegenTypes
