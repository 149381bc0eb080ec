import CodegenTypes.Fault
import CodegenTypes.Proofs.Except
import Mathlib.Algebra.Group.Nat.Defs

/-! Runs of lane arithmetic.  A step that is refused leaves the lanes as they are, so a run keeps
one exact equation between the lanes that it starts with and those that it ends with. -/

namespace CodegenTypes

inductive LaneStep
  | scale (factor : UInt32)
  | divide (divisor : UInt32)
  | double
  | halve

namespace LaneStep

def apply (c : Lanes) : LaneStep → Except LaneError Lanes
  | scale factor => c.scale factor
  | divide divisor => c.divide divisor
  | double => c.double
  | halve => c.halve

def argument : LaneStep → UInt32
  | scale n | divide n => n
  | double | halve => 2

def multiplies : LaneStep → Bool
  | scale _ | double => true
  | divide _ | halve => false

def opposite : LaneStep → LaneStep
  | scale n => divide n
  | divide n => scale n
  | double => halve
  | halve => double

/-- Why a step is refused.  A zero is refused before anything is computed. -/
inductive Refused (c : Lanes) (step : LaneStep) : LaneError → Prop
  | zero (h : step.argument = 0) : Refused c step .zeroFactor
  | overflow (h₀ : step.argument ≠ 0) (hm : step.multiplies)
      (h : 4294967296 ≤ c.min.toNat * step.argument.toNat) :
      Refused c step (.overflow c.min step.argument)
  | inexact (h₀ : step.argument ≠ 0) (hm : step.multiplies = false)
      (h : ¬step.argument.toNat ∣ c.min.toNat) : Refused c step (.inexact c step.argument)

def factors (steps : List LaneStep) : List Nat :=
  (steps.filter multiplies).map fun step => step.argument.toNat

def divisors (steps : List LaneStep) : List Nat :=
  (steps.filter fun step => !step.multiplies).map fun step => step.argument.toNat

variable {c d : Lanes} {step : LaneStep} {steps : List LaneStep}

theorem apply_of_multiplies (hm : step.multiplies) : step.apply c = c.scale step.argument := by
  cases step with
  | scale | double => rfl
  | divide | halve => cases hm

theorem apply_of_divides (hm : step.multiplies = false) :
    step.apply c = c.divide step.argument := by
  cases step with
  | scale | double => cases hm
  | divide | halve => rfl

@[simp] theorem argument_opposite (step : LaneStep) : step.opposite.argument = step.argument := by
  cases step <;> rfl

@[simp] theorem multiplies_opposite (step : LaneStep) :
    step.opposite.multiplies = !step.multiplies := by
  cases step <;> rfl

theorem apply_eq_error_iff {e : LaneError} : step.apply c = .error e ↔ step.Refused c e := by
  cases hm : step.multiplies with
  | true =>
    rw [apply_of_multiplies hm, Lanes.scale_eq_error_iff]
    constructor
    · rintro (⟨h, rfl⟩ | ⟨h₀, h, rfl⟩)
      · exact .zero h
      · exact .overflow h₀ hm h
    · rintro (⟨h⟩ | ⟨h₀, -, h⟩ | ⟨-, hm', -⟩)
      · exact .inl ⟨h, rfl⟩
      · exact .inr ⟨h₀, h, rfl⟩
      · rw [hm] at hm'
        cases hm'
  | false =>
    rw [apply_of_divides hm, Lanes.divide_eq_error_iff]
    constructor
    · rintro (⟨h, rfl⟩ | ⟨h₀, h, rfl⟩)
      · exact .zero h
      · exact .inexact h₀ hm fun hd => h (Nat.mod_eq_zero_of_dvd hd)
    · rintro (⟨h⟩ | ⟨-, hm', -⟩ | ⟨h₀, -, h⟩)
      · exact .inl ⟨h, rfl⟩
      · rw [hm] at hm'
        cases hm'
      · exact .inr ⟨h₀, fun hd => h (Nat.dvd_of_mod_eq_zero hd), rfl⟩

end LaneStep

namespace Lanes

variable {c d : Lanes} {step : LaneStep} {n : UInt32}

theorem scale_eq_ok_iff_divide : c.scale n = .ok d ↔ d.divide n = .ok c := by
  rw [scale_eq_ok_iff, divide_eq_ok_iff]
  constructor
  · rintro ⟨hn, hs, hmin⟩
    exact ⟨hn, hs.symm, hmin.symm⟩
  · rintro ⟨hn, hs, hmin⟩
    exact ⟨hn, hs.symm, hmin.symm⟩

theorem apply_eq_ok_iff_opposite : step.apply c = .ok d ↔ step.opposite.apply d = .ok c := by
  cases hm : step.multiplies with
  | true =>
    rw [LaneStep.apply_of_multiplies hm, LaneStep.apply_of_divides (by simp [hm]),
      LaneStep.argument_opposite, scale_eq_ok_iff_divide]
  | false =>
    rw [LaneStep.apply_of_divides hm, LaneStep.apply_of_multiplies (by simp [hm]),
      LaneStep.argument_opposite, scale_eq_ok_iff_divide]

def run (c : Lanes) : List LaneStep → Lanes
  | [] => c
  | step :: steps =>
    match step.apply c with
    | .ok d => d.run steps
    | .error _ => c.run steps

def accepted (c : Lanes) : List LaneStep → List LaneStep
  | [] => []
  | step :: steps =>
    match step.apply c with
    | .ok d => step :: d.accepted steps
    | .error _ => c.accepted steps

/-- `d` comes from `c` by the factors and the divisors of `steps`, and nothing is lost. -/
structure Balanced (c : Lanes) (steps : List LaneStep) (d : Lanes) : Prop where
  scalable : d.scalable = c.scalable
  min : d.min.toNat * (LaneStep.divisors steps).prod = c.min.toNat * (LaneStep.factors steps).prod

namespace Balanced

variable {steps : List LaneStep} {b : Lanes}

theorem refl (c : Lanes) : Balanced c [] c := ⟨rfl, rfl⟩

theorem cons (h : step.apply c = .ok b) (hb : Balanced b steps d) :
    Balanced c (step :: steps) d := by
  cases hm : step.multiplies with
  | true =>
    obtain ⟨-, hs, hmin⟩ := scale_eq_ok_iff.mp (LaneStep.apply_of_multiplies hm ▸ h)
    refine ⟨hb.scalable.trans hs, ?_⟩
    have hd : LaneStep.divisors (step :: steps) = LaneStep.divisors steps := by
      simp [LaneStep.divisors, hm]
    have hf : LaneStep.factors (step :: steps) = step.argument.toNat :: LaneStep.factors steps := by
      simp [LaneStep.factors, hm]
    calc
      d.min.toNat * (LaneStep.divisors (step :: steps)).prod
      _ = b.min.toNat * (LaneStep.factors steps).prod := by rw [hd, hb.min]
      _ = c.min.toNat * step.argument.toNat * (LaneStep.factors steps).prod := by rw [hmin]
      _ = c.min.toNat * (LaneStep.factors (step :: steps)).prod := by
        rw [hf, List.prod_cons, Nat.mul_assoc]
  | false =>
    obtain ⟨-, hs, hmin⟩ := divide_eq_ok_iff.mp (LaneStep.apply_of_divides hm ▸ h)
    refine ⟨hb.scalable.trans hs, ?_⟩
    have hd : LaneStep.divisors (step :: steps) =
        step.argument.toNat :: LaneStep.divisors steps := by
      simp [LaneStep.divisors, hm]
    have hf : LaneStep.factors (step :: steps) = LaneStep.factors steps := by
      simp [LaneStep.factors, hm]
    calc
      d.min.toNat * (LaneStep.divisors (step :: steps)).prod
      _ = step.argument.toNat * (d.min.toNat * (LaneStep.divisors steps).prod) := by
        rw [hd, List.prod_cons, Nat.mul_left_comm]
      _ = b.min.toNat * step.argument.toNat * (LaneStep.factors steps).prod := by
        rw [hb.min, Nat.mul_left_comm, Nat.mul_assoc]
      _ = c.min.toNat * (LaneStep.factors (step :: steps)).prod := by rw [hmin, hf]

end Balanced

theorem balanced_run (c : Lanes) (steps : List LaneStep) :
    c.Balanced (c.accepted steps) (c.run steps) := by
  induction steps generalizing c with
  | nil => exact .refl c
  | cons step steps ih =>
    rw [accepted, run]
    cases h : step.apply c with
    | ok d => exact .cons h (ih d)
    | error e => exact ih c

/-- Over any run the count of lanes is exact, whatever is refused on the way.  A step is refused
for the reasons given and for no other, the opposite step undoes it, and the unchecked operations
fault where the checked ones refuse. -/
theorem run_exact (c : Lanes) (steps : List LaneStep) :
    ((c.run steps).scalable = c.scalable ∧
      (c.run steps).min.toNat * (LaneStep.divisors (c.accepted steps)).prod =
        c.min.toNat * (LaneStep.factors (c.accepted steps)).prod) ∧
    (∀ (step : LaneStep) e, step.apply c = .error e ↔ step.Refused c e) ∧
    (∀ (step : LaneStep) d, step.apply c = .ok d ↔ step.opposite.apply d = .ok c) ∧
    ∀ n, (∀ d, c.mul n = .ok d ↔ c.scale n = .ok d) ∧
      (∀ f, c.mul n = .error f ↔ ∃ e, c.scale n = .error e ∧ f = .lanes e) ∧
      (∀ d, c.div n = .ok d ↔ c.divide n = .ok d) ∧
      ∀ f, c.div n = .error f ↔ ∃ e, c.divide n = .error e ∧ f = .lanes e := by
  have hrun := balanced_run c steps
  refine ⟨⟨hrun.scalable, hrun.min⟩, fun step e => LaneStep.apply_eq_error_iff,
    fun step d => apply_eq_ok_iff_opposite, fun n => ?_⟩
  exact ⟨fun d => except_mapError_eq_ok_iff, fun f => except_mapError_eq_error_iff,
    fun d => except_mapError_eq_ok_iff, fun f => except_mapError_eq_error_iff⟩

example : (⟨3, true⟩ : Lanes).run [.double, .divide 4, .scale 5, .divide 3] = ⟨10, true⟩ := by
  decide

end Lanes

end CodegenTypes
