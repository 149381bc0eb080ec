import CodegenTypes.Proofs.Form.Inverse

namespace CodegenTypes

namespace Lanes

/-- Counting anew is refused for the lanes that `unfit` tells, with the error that `blame` finds,
and leaves a lane where there was one. -/
structure Recounts (count : Lanes → Except LaneError Lanes) (unfit : Lanes → Prop)
    (blame : Lanes → LaneError) : Prop where
  error_iff : ∀ {c e}, count c = .error e ↔ unfit c ∧ e = blame c
  fits : ∀ {c d}, count c = .ok d → c.fitsVector → d.fitsVector

theorem Recounts.exists_ok_iff {count : Lanes → Except LaneError Lanes} {unfit : Lanes → Prop}
    {blame : Lanes → LaneError} (h : Recounts count unfit blame) {c : Lanes} :
    (∃ d, count c = .ok d) ↔ ¬unfit c := by
  rw [except_exists_ok_iff]
  simp only [ne_eq, h.error_iff]
  constructor
  · intro hc hu
    exact hc (blame c) ⟨hu, rfl⟩
  · rintro hc e ⟨hu, -⟩
    exact hc hu

theorem halve_recounts : Recounts halve (fun c => c.min.toNat % 2 = 1) (fun c => .inexact c 2) where
  error_iff {c e} := by
    have h2 : (2 : UInt32) ≠ 0 := by decide
    rw [halve, divide_eq_error_iff]
    simp [h2]
  fits := fitsVector_of_halve

theorem double_recounts :
    Recounts double (fun c => 4294967296 ≤ 2 * c.min.toNat) (fun c => .overflow c.min 2) where
  error_iff {c e} := by
    have h2 : (2 : UInt32) ≠ 0 := by decide
    rw [double, scale_eq_error_iff]
    simp [h2, UInt32.size, Nat.mul_comm]
  fits {c d} h hc := by
    have := (scale_eq_ok_iff.mp h).2.2
    rw [fitsVector_iff] at hc ⊢
    rw [this]
    exact Nat.mul_pos hc (by decide)

end Lanes

namespace Form

variable {F : Form} {c : Lanes} {e : ValueTypeError} {bits : UInt32}

theorem notVector_of_ne (h : F ≠ .invalid) : F.notVector = .notVector F.name := by
  cases F with
  | invalid => exact absurd rfl h
  | _ => rfl

theorem elementCount_eq_error_iff :
    F.elementCount = .error e ↔ F.lanes? = none ∧ e = F.notVector := by
  rw [elementCount]
  cases F.lanes? <;> simp [eq_comm]

theorem elementCount_bind_eq_error_iff {next : Lanes → Except ValueTypeError Form} :
    (F.elementCount >>= next) = .error e ↔
      (F.lanes? = none ∧ e = F.notVector) ∨
        ∃ d c hc, F = .vector d c hc ∧ next c = .error e := by
  rw [except_bind_eq_error_iff, elementCount_eq_error_iff]
  simp only [elementCount_eq_ok_iff]
  constructor
  · rintro (h | ⟨c, ⟨d, hc, hF⟩, h⟩)
    · exact .inl h
    · exact .inr ⟨d, c, hc, hF, h⟩
  · rintro (h | ⟨d, c, hc, hF, h⟩)
    · exact .inl h
    · exact .inr ⟨c, ⟨d, hc, hF⟩, h⟩

theorem lanesOf_eq_error_iff :
    F.lanesOf c = .error e ↔
      (F.isNumber = false ∧ e = .notElement F.name) ∨
        F.isNumber = true ∧ c.fitsVector = false ∧ e = .type .noLanes := by
  cases F with
  | number d =>
    rw [lanesOf]
    split
    · next hc => simp [isNumber, hc]
    · next hc => simp [isNumber, hc, eq_comm]
  | _ => simp [lanesOf, isNumber, eq_comm (b := e)]

theorem integer_eq_error_iff :
    integer bits = .error e ↔ ¬IRType.InRange bits ∧ e = .type (.widthOutOfRange bits) := by
  rw [integer]
  split
  · next hb => simp [hb]
  · next hb => simp [hb, eq_comm]

theorem integer_bind_lanesOf_eq_error_iff (hc : c.fitsVector) :
    (integer bits >>= (·.lanesOf c)) = .error e ↔
      ¬IRType.InRange bits ∧ e = .type (.widthOutOfRange bits) := by
  rw [except_bind_eq_error_iff, integer_eq_error_iff]
  constructor
  · rintro (h | ⟨F, hF, h⟩)
    · exact h
    · obtain ⟨d, rfl⟩ := eq_number_of_integer hF
      rw [lanesOf_number hc] at h
      cases h
  · exact .inl

theorem recount_eq_error_iff {count : Lanes → Except LaneError Lanes} {unfit : Lanes → Prop}
    {blame : Lanes → LaneError} (h : Lanes.Recounts count unfit blame) :
    F.recount count = .error e ↔
      (F.lanes? = none ∧ e = F.notVector) ∨
        ∃ d c hc, F = .vector d c hc ∧ unfit c ∧ e = .lanes (blame c) := by
  rw [recount, elementCount_bind_eq_error_iff]
  apply or_congr_right
  constructor
  · rintro ⟨d, c, hc, rfl, he⟩
    cases hn : count c with
    | ok c' =>
      rw [hn] at he
      change (number d).lanesOf c' = .error e at he
      rw [lanesOf_number (h.fits hn hc)] at he
      cases he
    | error f =>
      rw [hn] at he
      cases he
      obtain ⟨hu, rfl⟩ := h.error_iff.mp hn
      exact ⟨d, c, hc, rfl, hu, rfl⟩
  · rintro ⟨d, c, hc, rfl, hu, rfl⟩
    refine ⟨d, c, hc, rfl, ?_⟩
    rw [h.error_iff.mpr ⟨hu, rfl⟩]

theorem widen_eq_error_iff :
    F.widen = .error e ↔
      (F.lanes? = none ∧ e = F.notVector) ∨
      (∃ f c hc, F = .vector (.float f) c hc ∧ e = .notIntegerVector F.name) ∨
      ∃ bits hb c hc, F = .vector (.integer bits hb) c hc ∧
        ¬IRType.InRange (bits * 2) ∧ e = .type (.widthOutOfRange (bits * 2)) := by
  rw [widen, elementCount_bind_eq_error_iff]
  apply or_congr_right
  constructor
  · rintro ⟨d, c, hc, rfl, h⟩
    cases d with
    | integer bits hb =>
      exact .inr ⟨bits, hb, c, hc, rfl, (integer_bind_lanesOf_eq_error_iff hc).mp h⟩
    | float f =>
      cases h
      exact .inl ⟨f, c, hc, rfl, rfl⟩
  · rintro (⟨f, c, hc, rfl, rfl⟩ | ⟨bits, hb, c, hc, rfl, h⟩)
    · exact ⟨.float f, c, hc, rfl, rfl⟩
    · exact ⟨.integer bits hb, c, hc, rfl, (integer_bind_lanesOf_eq_error_iff hc).mpr h⟩

theorem toInteger_eq_error_iff : F.toInteger = .error e ↔ F.lanes? = none ∧ e = F.notVector := by
  rw [toInteger, elementCount_bind_eq_error_iff]
  constructor
  · rintro (h | ⟨d, c, hc, rfl, h⟩)
    · exact h
    · cases d with
      | integer bits hb => cases h
      | float f =>
        have := (integer_bind_lanesOf_eq_error_iff hc).mp h
        exact absurd (Element.float f).inRange_bits this.1
  · exact .inl

end Form

end CodegenTypes
