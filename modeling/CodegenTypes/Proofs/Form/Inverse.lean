import CodegenTypes.Proofs.Except
import CodegenTypes.Proofs.Form.Derived

namespace CodegenTypes

theorem Lanes.halve_eq_ok_iff {c d : Lanes} : c.halve = .ok d ↔ d.double = .ok c := by
  rw [halve, double, divide_eq_ok_iff, scale_eq_ok_iff, eq_comm (a := d.scalable),
    eq_comm (b := c.min.toNat)]

namespace Form

variable {F G : Form} {c : Lanes}

theorem elementCount_eq_ok_iff :
    F.elementCount = .ok c ↔ ∃ e hc, F = .vector e c hc := by
  cases F with
  | vector e d hd =>
    change Except.ok d = .ok c ↔ _
    rw [Except.ok.injEq]
    constructor
    · rintro rfl
      exact ⟨e, hd, rfl⟩
    · rintro ⟨e', hc, h⟩
      cases h
      rfl
  | _ =>
    constructor
    · nofun
    · rintro ⟨e, hc, h⟩
      cases h

theorem lanesOf_eq_ok_iff :
    F.lanesOf c = .ok G ↔ ∃ e hc, F = .number e ∧ G = .vector e c hc := by
  cases F with
  | number e =>
    rw [lanesOf]
    split
    · next hc => simp [hc, eq_comm]
    · next hc => simp [hc]
  | _ => simp [lanesOf]

theorem elementCount_bind_eq_ok_iff {next : Lanes → Except ValueTypeError Form} :
    (F.elementCount >>= next) = .ok G ↔ ∃ e c hc, F = .vector e c hc ∧ next c = .ok G := by
  simp only [except_bind_eq_ok_iff, elementCount_eq_ok_iff]
  constructor
  · rintro ⟨c, ⟨e, hc, hF⟩, h⟩
    exact ⟨e, c, hc, hF, h⟩
  · rintro ⟨e, c, hc, hF, h⟩
    exact ⟨c, ⟨e, hc, hF⟩, h⟩

/-- The same element in other lanes, as `count` counts them. -/
def recount (count : Lanes → Except LaneError Lanes) (F : Form) : Except ValueTypeError Form := do
  let lanes ← F.elementCount
  match count lanes with
  | .ok lanes => F.scalar.lanesOf lanes
  | .error e => .error (.lanes e)

theorem half_eq_recount (F : Form) : F.half = F.recount Lanes.halve := rfl

theorem double_eq_recount (F : Form) : F.double = F.recount Lanes.double := by cases F <;> rfl

theorem recount_eq_ok_iff {count : Lanes → Except LaneError Lanes} :
    F.recount count = .ok G ↔
      ∃ e c hc d hd, count c = .ok d ∧ F = .vector e c hc ∧ G = .vector e d hd := by
  rw [recount, elementCount_bind_eq_ok_iff]
  constructor
  · rintro ⟨e, c, hc, rfl, h⟩
    cases hd : count c with
    | error _ => rw [hd] at h; cases h
    | ok d =>
      rw [hd] at h
      obtain ⟨e', hfit, he, rfl⟩ := lanesOf_eq_ok_iff.mp h
      cases he
      exact ⟨e, c, hc, d, hfit, hd, rfl, rfl⟩
  · rintro ⟨e, c, hc, d, hd, hh, rfl, rfl⟩
    refine ⟨e, c, hc, rfl, ?_⟩
    rw [hh]
    exact lanesOf_number hd

theorem half_eq_ok_iff :
    F.half = .ok G ↔
      ∃ e c hc d hd, c.halve = .ok d ∧ F = .vector e c hc ∧ G = .vector e d hd :=
  recount_eq_ok_iff

theorem double_eq_ok_iff :
    F.double = .ok G ↔
      ∃ e c hc d hd, c.double = .ok d ∧ F = .vector e c hc ∧ G = .vector e d hd := by
  rw [double_eq_recount, recount_eq_ok_iff]

theorem half_eq_ok_iff_double : F.half = .ok G ↔ G.double = .ok F := by
  rw [half_eq_ok_iff, double_eq_ok_iff]
  constructor
  · rintro ⟨e, c, hc, d, hd, h, rfl, rfl⟩
    exact ⟨e, d, hd, c, hc, Lanes.halve_eq_ok_iff.mp h, rfl, rfl⟩
  · rintro ⟨e, c, hc, d, hd, h, rfl, rfl⟩
    exact ⟨e, d, hd, c, hc, Lanes.halve_eq_ok_iff.mpr h, rfl, rfl⟩

theorem integer_bind_lanesOf_eq_ok_iff {bits : UInt32} :
    (integer bits >>= (·.lanesOf c)) = .ok G ↔ ∃ hb hc, G = .vector (.integer bits hb) c hc := by
  rw [except_bind_eq_ok_iff]
  constructor
  · rintro ⟨F, hF, h⟩
    rw [integer] at hF
    split at hF
    · next hb =>
      cases hF
      obtain ⟨e, hc, he, rfl⟩ := lanesOf_eq_ok_iff.mp h
      cases he
      exact ⟨hb, hc, rfl⟩
    · cases hF
  · rintro ⟨hb, hc, rfl⟩
    exact ⟨.number (.integer bits hb), dif_pos hb, lanesOf_number hc⟩

theorem widen_eq_ok_iff :
    F.widen = .ok G ↔
      ∃ bits hb hw c hc, F = .vector (.integer bits hb) c hc ∧
        G = .vector (.integer (bits * 2) hw) c hc := by
  rw [widen, elementCount_bind_eq_ok_iff]
  constructor
  · rintro ⟨e, c, hc, rfl, h⟩
    cases e with
    | integer bits hb =>
      obtain ⟨hw, -, rfl⟩ := integer_bind_lanesOf_eq_ok_iff.mp h
      exact ⟨bits, hb, hw, c, hc, rfl, rfl⟩
    | float f => cases h
  · rintro ⟨bits, hb, hw, c, hc, rfl, rfl⟩
    exact ⟨.integer bits hb, c, hc, rfl, integer_bind_lanesOf_eq_ok_iff.mpr ⟨hw, hc, rfl⟩⟩

theorem toInteger_eq_ok_iff :
    F.toInteger = .ok G ↔
      ∃ e hb c hc, F = .vector e c hc ∧ G = .vector (.integer e.bits hb) c hc := by
  rw [toInteger, elementCount_bind_eq_ok_iff]
  constructor
  · rintro ⟨e, c, hc, rfl, h⟩
    cases e with
    | integer bits hb =>
      cases h
      exact ⟨.integer bits hb, hb, c, hc, rfl, rfl⟩
    | float f =>
      obtain ⟨hb, -, rfl⟩ := integer_bind_lanesOf_eq_ok_iff.mp h
      exact ⟨.float f, hb, c, hc, rfl, rfl⟩
  · rintro ⟨e, hb, c, hc, rfl, rfl⟩
    refine ⟨e, c, hc, rfl, ?_⟩
    cases e with
    | integer bits hb' => rfl
    | float f => exact integer_bind_lanesOf_eq_ok_iff.mpr ⟨hb, hc, rfl⟩

theorem withElement_eq_ok_iff {A : Form} :
    F.withElement A = .ok G ↔
      ∃ e c hc d, F = .vector e c hc ∧ A = .number d ∧ G = .vector d c hc := by
  rw [withElement, elementCount_bind_eq_ok_iff]
  simp only [lanesOf_eq_ok_iff]
  constructor
  · rintro ⟨e, c, hc, hF, d, _, hA, hG⟩
    exact ⟨e, c, hc, d, hF, hA, hG⟩
  · rintro ⟨e, c, hc, d, hF, hA, hG⟩
    exact ⟨e, c, hc, hF, d, hc, hA, hG⟩

theorem toInteger_of_toInteger (h : F.toInteger = .ok G) : G.toInteger = .ok G := by
  obtain ⟨e, hb, c, hc, -, rfl⟩ := toInteger_eq_ok_iff.mp h
  exact toInteger_eq_ok_iff.mpr ⟨.integer e.bits hb, hb, c, hc, rfl, rfl⟩

theorem exists_toInteger_vector (e : Element) {c : Lanes} (hc : c.fitsVector) :
    ∃ G, (vector e c hc).toInteger = .ok G :=
  ⟨_, toInteger_eq_ok_iff.mpr ⟨e, e.inRange_bits, c, hc, rfl, rfl⟩⟩

end Form

end CodegenTypes
