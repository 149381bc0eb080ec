import CodegenTypes.Decimal

/-! Lane descriptors.  A fixed vector has exactly `min` lanes; a scalable one has
`min` times a positive multiplier that only the hardware knows.  The flag is part
of the identity, and arithmetic on the count is exact or refused. -/

namespace CodegenTypes

structure Lanes where
  min : UInt32
  scalable : Bool
  deriving DecidableEq

inductive LaneError
  | zeroFactor
  | overflow (min factor : UInt32)
  | inexact (lanes : Lanes) (divisor : UInt32)
  deriving DecidableEq

namespace Lanes

def isFixed (c : Lanes) : Bool := !c.scalable

def isZero (c : Lanes) : Bool := c.min == 0

def fitsVector (c : Lanes) : Bool := 1 ≤ c.min

def fixed? (c : Lanes) : Option UInt32 := if c.scalable then none else some c.min

def display (c : Lanes) : String :=
  (if c.scalable then "vscale x " else "") ++ Decimal.text c.min.toNat

def spell (c : Lanes) (element : String) : String :=
  (if c.scalable then "nxv" else "v") ++ Decimal.text c.min.toNat ++ element

def scale (c : Lanes) (factor : UInt32) : Except LaneError Lanes :=
  if factor = 0 then .error .zeroFactor
  else if c.min.toNat * factor.toNat < UInt32.size then .ok { c with min := c.min * factor }
  else .error (.overflow c.min factor)

/-- Only exact divisions succeed: rounding would drop lanes. -/
def divide (c : Lanes) (divisor : UInt32) : Except LaneError Lanes :=
  if divisor = 0 then .error .zeroFactor
  else if c.min % divisor = 0 then .ok { c with min := c.min / divisor }
  else .error (.inexact c divisor)

def double (c : Lanes) : Except LaneError Lanes := c.scale 2

def halve (c : Lanes) : Except LaneError Lanes := c.divide 2

theorem scale_eq_ok_iff {c d : Lanes} {factor : UInt32} :
    c.scale factor = .ok d ↔
      factor ≠ 0 ∧ d.scalable = c.scalable ∧ d.min.toNat = c.min.toNat * factor.toNat := by
  have hd := d.min.toNat_lt
  unfold scale
  split
  · simp_all
  · next h0 =>
    split
    · next h =>
      have hw : (c.min * factor).toNat = c.min.toNat * factor.toNat := by
        rw [UInt32.toNat_mul, Nat.mod_eq_of_lt h]
      rw [← hw, UInt32.toNat_inj]
      cases d
      simp only [Except.ok.injEq, mk.injEq, ne_eq, h0, not_false_eq_true, true_and]
      grind
    · next h =>
      simp only [UInt32.size] at h
      simp only [reduceCtorEq, false_iff, not_and]
      omega

theorem scale_eq_error_iff {c : Lanes} {factor : UInt32} {e : LaneError} :
    c.scale factor = .error e ↔
      factor = 0 ∧ e = .zeroFactor ∨
        factor ≠ 0 ∧ UInt32.size ≤ c.min.toNat * factor.toNat ∧ e = .overflow c.min factor := by
  unfold scale
  split
  · next h => simp [h, eq_comm]
  · next h =>
    split
    · next hlt => simp [h, Nat.not_le.mpr hlt]
    · next hge => simp [h, Nat.not_lt.mp hge, eq_comm]

theorem divide_eq_ok_iff {c d : Lanes} {divisor : UInt32} :
    c.divide divisor = .ok d ↔
      divisor ≠ 0 ∧ d.scalable = c.scalable ∧ d.min.toNat * divisor.toNat = c.min.toNat := by
  obtain ⟨n, b⟩ := c
  obtain ⟨m, a⟩ := d
  unfold divide
  split
  · simp_all
  · next h0 =>
    have hd : 0 < divisor.toNat := by
      have : divisor.toNat ≠ 0 := fun h => h0 (UInt32.toNat_inj.mp (by simpa using h))
      omega
    split
    · next h =>
      have hr : n.toNat % divisor.toNat = 0 := by simpa using congrArg UInt32.toNat h
      simp only [Except.ok.injEq, mk.injEq, ← UInt32.toNat_inj, UInt32.toNat_div]
      constructor
      · rintro ⟨h1, rfl⟩
        exact ⟨h0, rfl, by rw [← h1, Nat.div_mul_cancel (Nat.dvd_of_mod_eq_zero hr)]⟩
      · rintro ⟨-, rfl, h1⟩
        exact ⟨by rw [← h1, Nat.mul_div_cancel _ hd], rfl⟩
    · next h =>
      simp only [reduceCtorEq, false_iff, not_and]
      rintro - - h1
      apply h
      rw [← UInt32.toNat_inj, UInt32.toNat_mod, ← h1]
      simp

theorem divide_eq_error_iff {c : Lanes} {divisor : UInt32} {e : LaneError} :
    c.divide divisor = .error e ↔
      divisor = 0 ∧ e = .zeroFactor ∨
        divisor ≠ 0 ∧ c.min.toNat % divisor.toNat ≠ 0 ∧ e = .inexact c divisor := by
  have hmod : c.min % divisor = 0 ↔ c.min.toNat % divisor.toNat = 0 := by
    rw [← UInt32.toNat_inj, UInt32.toNat_mod, UInt32.toNat_zero]
  unfold divide
  split
  · next h => simp [h, eq_comm]
  · next h =>
    split
    · next hz => simp [h, hmod.mp hz]
    · next hz => simp [h, mt hmod.mpr hz, eq_comm]

end Lanes

def LaneError.message : LaneError → String
  | .zeroFactor => "lane count factor must be positive"
  | .overflow min factor =>
    "lane count " ++ Decimal.text min.toNat ++ " overflows when scaled by " ++ Decimal.text factor.toNat
  | .inexact lanes divisor =>
    lanes.display ++ " lanes cannot be divided evenly by " ++ Decimal.text divisor.toNat

end CodegenTypes
