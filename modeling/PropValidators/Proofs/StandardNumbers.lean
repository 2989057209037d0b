import Mathlib.Algebra.Order.Field.Power
import Mathlib.Tactic.Linarith
import Mathlib.Tactic.Positivity
import Mathlib.Tactic.Ring
import PropValidators.Proofs.Numbers

/-!
# Numbers in standard form

A finite binary64 number has one standard form.  In this form the exponents come first in the
order of the magnitudes, so that numbers which are worth the same are one number, but for the two
zeros.
-/

namespace PropValidators

namespace Binary64

/-- A significand and an exponent are those of a number in standard form: the significand is below
`2 ^ 53`, and at least `2 ^ 52` unless the exponent is the least one. -/
structure StandardForm (significand : Nat) (exponent : Int) : Prop where
  significand_lt : significand < 2 * hidden
  least_le : leastExponent ≤ exponent
  le_greatest : exponent ≤ greatestExponent
  full : hidden ≤ significand ∨ exponent = leastExponent

/-- A number is in standard form, if it is finite. -/
def Standard : Binary64 → Prop
  | .finite _ significand exponent => StandardForm significand exponent
  | _ => True

/-- What a finite number is worth without its sign. -/
def magnitude (significand : Nat) (exponent : Int) : ℚ :=
  significand * 2 ^ exponent

section Magnitude

variable {s t : Nat} {e f : Int}

theorem magnitude_nonneg (s : Nat) (e : Int) : 0 ≤ magnitude s e := by
  rw [magnitude]
  positivity

private theorem ratio_eq_magnitude (negative : Bool) (s : Nat) (e : Int) :
    ratio negative s e = if negative then -magnitude s e else magnitude s e := by
  cases negative <;> simp [ratio, signed, magnitude]

@[simp]
theorem magnitude_eq_zero_iff : magnitude s e = 0 ↔ s = 0 := by
  have nonzero : (2 : ℚ) ^ e ≠ 0 := zpow_ne_zero _ two_ne_zero
  rw [magnitude, mul_eq_zero, or_iff_left nonzero, Nat.cast_eq_zero]

/-- A significand of full precision is behind every exponent but the least one. -/
theorem StandardForm.hidden_le (form : StandardForm t f) (lt : leastExponent < f) : hidden ≤ t := by
  rcases form.full with full | least
  · exact full
  · omega

/-- A number with a greater exponent is greater. -/
theorem magnitude_lt_of_exponent_lt (left : StandardForm s e) (right : StandardForm t f)
    (lt : e < f) : magnitude s e < magnitude t f := by
  have full : hidden ≤ t := right.hidden_le (Int.lt_of_le_of_lt left.least_le lt)
  have powers : 2 * (2 : ℚ) ^ e ≤ (2 : ℚ) ^ f := by
    rw [← zpow_one_add₀ two_ne_zero]
    exact zpow_le_zpow_right₀ one_le_two (by omega)
  have below : (s : ℚ) < 2 * hidden := by exact_mod_cast left.significand_lt
  have above : (hidden : ℚ) ≤ t := by exact_mod_cast full
  have positive : (0 : ℚ) < 2 ^ e := by positivity
  calc magnitude s e
      < 2 * hidden * 2 ^ e := mul_lt_mul_of_pos_right below positive
    _ = hidden * (2 * 2 ^ e) := by ring
    _ ≤ t * 2 ^ f := mul_le_mul above powers (by positivity) (by positivity)

/-- Numbers in standard form are told by their magnitudes. -/
theorem StandardForm.eq_of_magnitude_eq (left : StandardForm s e) (right : StandardForm t f)
    (eq : magnitude s e = magnitude t f) : s = t ∧ e = f := by
  rcases Int.lt_trichotomy e f with lt | rfl | gt
  · exact absurd eq (magnitude_lt_of_exponent_lt left right lt).ne
  · have nonzero : (2 : ℚ) ^ e ≠ 0 := zpow_ne_zero _ two_ne_zero
    rw [magnitude, magnitude, mul_left_inj' nonzero, Nat.cast_inj] at eq
    exact ⟨eq, rfl⟩
  · exact absurd eq (magnitude_lt_of_exponent_lt right left gt).ne'

end Magnitude

theorem StandardForm.exponent_of_zero {e : Int} (form : StandardForm 0 e) : e = leastExponent := by
  rcases form.full with full | least
  · exact absurd full (by decide)
  · exact least

/-- Equal numbers are one number, or the two zeros. -/
theorem eq_or_zero_of_equals {x y : Binary64} (left : x.Standard) (right : y.Standard)
    (equal : x.equals y = true) :
    x = y ∨ ∃ negative, x = zero negative ∧ y = zero (!negative) := by
  have worths := (Number.equals_iff (a := .float x) (b := .float y)).mp equal
  rcases x with _ | _ | ⟨a, s, e⟩ <;> rcases y with _ | _ | ⟨b, t, f⟩
  case finite.finite =>
    have ratios : ratio a s e = ratio b t f := Sum.inl.inj worths.1
    rw [ratio_eq_magnitude, ratio_eq_magnitude] at ratios
    have nonneg := magnitude_nonneg s e
    have nonneg' := magnitude_nonneg t f
    by_cases signs : a = b
    · subst signs
      have same : magnitude s e = magnitude t f := by
        cases a
        · exact ratios
        · exact neg_inj.mp ratios
      obtain ⟨rfl, rfl⟩ := StandardForm.eq_of_magnitude_eq left right same
      exact .inl rfl
    · obtain rfl : b = !a := by revert signs; cases a <;> cases b <;> decide
      -- One of the two is not above zero, and the other is not below.
      have zeros : magnitude s e = 0 ∧ magnitude t f = 0 := by
        cases a <;> simp at ratios <;> constructor <;> linarith
      rw [magnitude_eq_zero_iff, magnitude_eq_zero_iff] at zeros
      obtain ⟨rfl, rfl⟩ := zeros
      rw [StandardForm.exponent_of_zero left, StandardForm.exponent_of_zero right]
      exact .inr ⟨a, rfl, rfl⟩
  all_goals
    simp only [Number.worth, Sum.inr.injEq, reduceCtorEq, false_and] at worths
  all_goals
    exact .inl worths.1

/-- A power is a natural one over a natural one. -/
theorem zpow_mul_pow_toNat {b : ℚ} (nonzero : b ≠ 0) (z : Int) :
    b ^ z * b ^ (-z).toNat = b ^ z.toNat := by
  rw [← zpow_natCast, ← zpow_natCast, ← zpow_add₀ nonzero]
  congr 1
  omega

/-- A quotient is rounded to its integer part or to the next integer. -/
theorem roundDiv_eq_or (num den : Nat) :
    roundDiv num den = num / den ∨ roundDiv num den = num / den + 1 := by
  rw [roundDiv]
  split_ifs <;> simp

end Binary64

end PropValidators
