import Mathlib.Algebra.Field.Rat
import Mathlib.Algebra.GroupWithZero.Basic
import Mathlib.Algebra.Ring.Int.Defs
import Mathlib.Tactic.Push
import Mathlib.Tactic.NormNum
import PropValidators.Number.Basic

/-!
# Equality of numbers

Numbers of the two kinds are compared by what they are worth: finite numbers by their values, which
are rational, and other numbers by what they are.  So it makes no difference in which order two
numbers are compared, and whatever a number equals, equal numbers equal.

A value that is not a number may differ from itself, so equality is not taken to be reflexive.
-/

namespace PropValidators

@[simp]
theorem Origin.same_iff {a b : Origin} : a.same b = true ↔ a = b ∧ a ≠ .computed := by
  cases a <;> cases b <;> simp [Origin.same]

/-- What a finite binary64 number is worth. -/
def Binary64.ratio (negative : Bool) (significand : Nat) (exponent : Int) : ℚ :=
  signed negative significand * (2 : ℚ) ^ exponent

/-- What a number is compared by: the value of a finite number, and any other number itself. -/
def Number.worth : Number → ℚ ⊕ Binary64
  | .int n => .inl n
  | .float (.finite negative significand exponent) =>
      .inl (Binary64.ratio negative significand exponent)
  | .float x => .inr x

namespace Binary64

private theorem pow_toNat_sub {exponent common : Int} (le : common ≤ exponent) :
    (2 : ℚ) ^ exponent = (2 : ℚ) ^ (exponent - common).toNat * (2 : ℚ) ^ common := by
  rw [← zpow_natCast, Int.toNat_of_nonneg (Int.sub_nonneg_of_le le), ← zpow_add₀ two_ne_zero,
    Int.sub_add_cancel]

/-- Finite numbers are equal if they are so over the lesser power of two. -/
theorem ratio_eq_iff {a b : Bool} {s t : Nat} {e f : Int} :
    ratio a s e = ratio b t f ↔
      signed a s * 2 ^ (e - min e f).toNat = signed b t * 2 ^ (f - min e f).toNat := by
  have nonzero : (2 : ℚ) ^ min e f ≠ 0 := zpow_ne_zero _ two_ne_zero
  rw [ratio, ratio, pow_toNat_sub (Int.min_le_left e f), pow_toNat_sub (Int.min_le_right e f),
    ← mul_assoc, ← mul_assoc, mul_left_inj' nonzero]
  exact_mod_cast Iff.rfl

private theorem ratio_eq_intCast_iff {a : Bool} {s : Nat} {e n : Int} :
    ratio a s e = n ↔ signed a s * 2 ^ e.toNat = n * 2 ^ (-e).toNat := by
  have nonzero : (2 : ℚ) ^ (-e).toNat ≠ 0 := pow_ne_zero _ two_ne_zero
  have split : (2 : ℚ) ^ e * (2 : ℚ) ^ (-e).toNat = (2 : ℚ) ^ e.toNat := by
    rw [← zpow_natCast, ← zpow_natCast, ← zpow_add₀ two_ne_zero]
    congr 1
    omega
  rw [← mul_left_inj' nonzero, ratio, mul_assoc, split]
  exact_mod_cast Iff.rfl

end Binary64

namespace Number

/-- Numbers are equal if they are worth the same, unless that is a value that differs from
itself. -/
theorem equals_iff {a b : Number} :
    a.equals b = true ↔ a.worth = b.worth ∧ a.worth ≠ .inr (.nan .computed) := by
  rcases a with m | _ | _ | ⟨a, s, e⟩ <;> rcases b with n | _ | _ | ⟨b, t, f⟩
  case float.nan.float.nan => simp [equals, Binary64.equals, worth]
  case float.infinite.float.infinite => simp [equals, Binary64.equals, worth]
  case int.int => simp [equals, worth]
  case int.float.finite =>
    simp [equals, Binary64.equalsInt, worth, eq_comm (a := (m : ℚ)), Binary64.ratio_eq_intCast_iff]
  case float.finite.int =>
    simp [equals, Binary64.equalsInt, worth, Binary64.ratio_eq_intCast_iff]
  case float.finite.float.finite =>
    simp [equals, Binary64.equals, worth, Binary64.ratio_eq_iff]
  all_goals simp [equals, Binary64.equals, Binary64.equalsInt, worth]

theorem equals_comm (a b : Number) : a.equals b = b.equals a := by
  rw [Bool.eq_iff_iff, equals_iff, equals_iff]
  constructor
  · rintro ⟨same, known⟩
    exact ⟨same.symm, same ▸ known⟩
  · rintro ⟨same, known⟩
    exact ⟨same.symm, same ▸ known⟩

/-- Whatever a number equals, equal numbers equal. -/
theorem equals_congr {a b : Number} (equal : a.equals b = true) (c : Number) :
    a.equals c = b.equals c := by
  rw [Bool.eq_iff_iff, equals_iff, equals_iff, (equals_iff.mp equal).1]

end Number

end PropValidators
