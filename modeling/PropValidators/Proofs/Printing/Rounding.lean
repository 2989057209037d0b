import PropValidators.Proofs.StandardNumbers

/-!
# Shortest decimals round back

The decimal that is written for a number lies among the reals that round to the number, since one
with seventeen digits is always fine enough to lie there.  No real rounds to two numbers in
standard form, so that two numbers with the same decimal are one.

The ends of the reals that round to a number are a multiple of a quarter of its last place away
from it: two quarters, but only one below a power of two, where the numbers lie twice as dense.
-/

namespace PropValidators

namespace Binary64

/-- How many quarters of the last place are rounded up to a number. -/
def quartersBelow (significand : Nat) (exponent : Int) : Nat :=
  if significand = hidden ∧ leastExponent < exponent then 1 else 2

/-- The lower end of the reals that round to a number. -/
def lowEnd (significand : Nat) (exponent : Int) : ℚ :=
  (4 * significand - quartersBelow significand exponent) * 2 ^ (exponent - 2)

/-- The upper end of the reals that round to a number. -/
def highEnd (significand : Nat) (exponent : Int) : ℚ :=
  (4 * significand + 2) * 2 ^ (exponent - 2)

/-- A real rounds to a number.  The ends do so if the significand is even. -/
def RoundsTo (r : ℚ) (significand : Nat) (exponent : Int) : Prop :=
  if significand % 2 = 0 then lowEnd significand exponent ≤ r ∧ r ≤ highEnd significand exponent
  else lowEnd significand exponent < r ∧ r < highEnd significand exponent

section RoundsTo

variable {r : ℚ} {s t : Nat} {e f : Int}

private theorem one_le_quartersBelow (s : Nat) (e : Int) : 1 ≤ quartersBelow s e := by
  rw [quartersBelow]
  split <;> omega

theorem quartersBelow_le (s : Nat) (e : Int) : quartersBelow s e ≤ 2 := by
  rw [quartersBelow]
  split <;> omega

theorem magnitude_eq_quarters (s : Nat) (e : Int) :
    magnitude s e = 4 * s * 2 ^ (e - 2) := by
  have split : (2 : ℚ) ^ e = 4 * 2 ^ (e - 2) := by
    rw [show (4 : ℚ) = 2 ^ (2 : Int) by norm_num, ← zpow_add₀ two_ne_zero]
    congr 1
    omega
  rw [magnitude, split]
  ring

private theorem lowEnd_lt_magnitude (s : Nat) (e : Int) : lowEnd s e < magnitude s e := by
  have below : (1 : ℚ) ≤ quartersBelow s e := by exact_mod_cast one_le_quartersBelow s e
  rw [lowEnd, magnitude_eq_quarters]
  exact mul_lt_mul_of_pos_right (by linarith) (by positivity)

private theorem magnitude_lt_highEnd (s : Nat) (e : Int) : magnitude s e < highEnd s e := by
  rw [highEnd, magnitude_eq_quarters]
  exact mul_lt_mul_of_pos_right (by linarith) (by positivity)

theorem RoundsTo.of_between (low : lowEnd s e < r) (high : r < highEnd s e) : RoundsTo r s e := by
  rw [RoundsTo]
  split
  · exact ⟨low.le, high.le⟩
  · exact ⟨low, high⟩

theorem RoundsTo.between (rounds : RoundsTo r s e) : lowEnd s e ≤ r ∧ r ≤ highEnd s e := by
  rw [RoundsTo] at rounds
  split at rounds
  · exact rounds
  · exact ⟨rounds.1.le, rounds.2.le⟩

/-- Where an end rounds to a number, the significand is even. -/
theorem RoundsTo.even_of_end (rounds : RoundsTo r s e) (atEnd : r = lowEnd s e ∨ r = highEnd s e) :
    s % 2 = 0 := by
  rw [RoundsTo] at rounds
  split at rounds
  · assumption
  · rcases atEnd with rfl | rfl
    · exact absurd rounds.1 (lt_irrefl _)
    · exact absurd rounds.2 (lt_irrefl _)

/-- Reals that round to a number are not greater than those that round to the next significand. -/
theorem highEnd_le_lowEnd_of_significand (lt : s < t) :
    highEnd s e ≤ lowEnd t e ∧ (highEnd s e = lowEnd t e → t = s + 1) := by
  have positive : (0 : ℚ) < 2 ^ (e - 2) := by positivity
  have below : (quartersBelow t e : ℚ) ≤ 2 := by exact_mod_cast quartersBelow_le t e
  have next : (s : ℚ) + 1 ≤ t := by exact_mod_cast lt
  rw [highEnd, lowEnd]
  constructor
  · exact mul_le_mul_of_nonneg_right (by linarith) positive.le
  · intro meet
    have quarters := mul_right_cancel₀ positive.ne' meet
    have le : (t : ℚ) ≤ s + 1 := by linarith
    exact_mod_cast le_antisymm le next

/-- A real that rounds to a number with all digits is at most one quarter less than the least of
these numbers. -/
theorem le_lowEnd_of_full (full : hidden ≤ t) (notLeast : leastExponent < f) :
    (4 * hidden - 1 : ℚ) * 2 ^ (f - 2) ≤ lowEnd t f := by
  have large : 1 ≤ hidden := by decide
  have below := quartersBelow_le t f
  have quarters : 4 * hidden - 1 ≤ 4 * t - quartersBelow t f := by
    rw [quartersBelow]
    split
    · omega
    · rename_i notPower
      have ne : t ≠ hidden := fun eq => notPower ⟨eq, notLeast⟩
      omega
  have cast : ((4 * hidden - 1 : ℕ) : ℚ) ≤ ((4 * t - quartersBelow t f : ℕ) : ℚ) := by
    exact_mod_cast quarters
  rw [Nat.cast_sub (by omega), Nat.cast_sub (by omega), Nat.cast_mul, Nat.cast_mul,
    Nat.cast_ofNat, Nat.cast_one] at cast
  exact mul_le_mul_of_nonneg_right cast (by positivity)

/-- Reals that round to a number are not greater than those that round to one with a greater
exponent. -/
theorem highEnd_le_lowEnd_of_exponent (left : StandardForm s e) (right : StandardForm t f)
    (lt : e < f) :
    highEnd s e ≤ lowEnd t f ∧ (highEnd s e = lowEnd t f → s = 2 * hidden - 1) := by
  have notLeast : leastExponent < f := Int.lt_of_le_of_lt left.least_le lt
  have unit : (0 : ℚ) < 2 ^ (e - 2) := by positivity
  have powers : 2 * (2 : ℚ) ^ (e - 2) ≤ 2 ^ (f - 2) := by
    rw [← zpow_one_add₀ two_ne_zero]
    exact zpow_le_zpow_right₀ one_le_two (by omega)
  have largeCast : (0 : ℚ) ≤ 4 * hidden - 1 := by norm_num [hidden]
  have least : (8 * hidden - 2 : ℚ) * 2 ^ (e - 2) ≤ lowEnd t f := by
    calc (8 * hidden - 2 : ℚ) * 2 ^ (e - 2)
        = (4 * hidden - 1) * (2 * 2 ^ (e - 2)) := by ring
      _ ≤ (4 * hidden - 1) * 2 ^ (f - 2) := mul_le_mul_of_nonneg_left powers largeCast
      _ ≤ lowEnd t f := le_lowEnd_of_full (right.hidden_le notLeast) notLeast
  have last : (s : ℚ) + 1 ≤ 2 * hidden := by exact_mod_cast left.significand_lt
  have greatest : highEnd s e ≤ (8 * hidden - 2) * 2 ^ (e - 2) :=
    mul_le_mul_of_nonneg_right (by linarith) unit.le
  refine ⟨greatest.trans least, fun meet => ?_⟩
  have quartersEq : (4 * s + 2 : ℚ) = 8 * hidden - 2 := by
    refine mul_right_cancel₀ unit.ne' (le_antisymm greatest ?_)
    rw [← highEnd, meet]
    exact least
  have whole : (s : ℚ) + 1 = 2 * hidden := by linarith
  have wholeNat : s + 1 = 2 * hidden := by exact_mod_cast whole
  omega

/-- No real rounds to a number and to a greater one. -/
theorem RoundsTo.not_both (left : RoundsTo r s e) (right : RoundsTo r t f)
    (apart : highEnd s e ≤ lowEnd t f) (odd : highEnd s e = lowEnd t f → s % 2 + t % 2 ≠ 0) :
    False := by
  have meet : r = highEnd s e ∧ r = lowEnd t f :=
    ⟨le_antisymm left.between.2 (apart.trans right.between.1),
      le_antisymm (left.between.2.trans apart) right.between.1⟩
  have sEven := left.even_of_end (.inr meet.1)
  have tEven := right.even_of_end (.inl meet.2)
  exact odd (meet.1.symm.trans meet.2) (by omega)

theorem RoundsTo.not_both_of_exponent_lt (left : RoundsTo r s e) (right : RoundsTo r t f)
    (leftForm : StandardForm s e) (rightForm : StandardForm t f) (lt : e < f) : False := by
  obtain ⟨apart, last⟩ := highEnd_le_lowEnd_of_exponent leftForm rightForm lt
  refine left.not_both right apart fun meet => ?_
  rw [last meet]
  have odd : (2 * hidden - 1) % 2 = 1 := by decide
  omega

theorem RoundsTo.not_both_of_significand_lt (left : RoundsTo r s e) (right : RoundsTo r t e)
    (lt : s < t) : False := by
  obtain ⟨apart, next⟩ := highEnd_le_lowEnd_of_significand (e := e) lt
  refine left.not_both right apart fun meet => ?_
  rw [next meet]
  omega

/-- A real rounds to one number in standard form at most. -/
theorem RoundsTo.unique (left : RoundsTo r s e) (right : RoundsTo r t f)
    (leftForm : StandardForm s e) (rightForm : StandardForm t f) : s = t ∧ e = f := by
  rcases Int.lt_trichotomy e f with lt | rfl | gt
  · exact (left.not_both_of_exponent_lt right leftForm rightForm lt).elim
  · rcases Nat.lt_trichotomy s t with lt | rfl | gt
    · exact (left.not_both_of_significand_lt right lt).elim
    · exact ⟨rfl, rfl⟩
    · exact (right.not_both_of_significand_lt left gt).elim
  · exact (right.not_both_of_exponent_lt left rightForm leftForm gt).elim

end RoundsTo

section Decimals

variable {s k n : Nat} {e u : Int} {num den : Nat}

/-- What a decimal and a number of quarters of the last place are worth is compared over a common
denominator. -/
theorem over_common (n k : Nat) (e u : Int) :
    ∃ common : ℚ, 0 < common ∧
      (n : ℚ) * 2 ^ (e - 2) * common =
        (n * Nat.pow 2 (e - 2).toNat * Nat.pow 10 (-u).toNat : ℕ) ∧
      (k : ℚ) * 10 ^ u * common = (k * Nat.pow 10 u.toNat * Nat.pow 2 (2 - e).toNat : ℕ) := by
  have two := zpow_mul_pow_toNat (b := 2) two_ne_zero (e - 2)
  have ten := zpow_mul_pow_toNat (b := 10) (by norm_num) u
  rw [neg_sub] at two
  refine ⟨2 ^ (2 - e).toNat * 10 ^ (-u).toNat, by positivity, ?_, ?_⟩
  · push_cast [Nat.pow_eq, ← two]
    ring
  · push_cast [Nat.pow_eq, ← ten]
    ring

theorem quarters_le_iff :
    (n : ℚ) * 2 ^ (e - 2) ≤ k * 10 ^ u ↔
      n * Nat.pow 2 (e - 2).toNat * Nat.pow 10 (-u).toNat ≤
        k * Nat.pow 10 u.toNat * Nat.pow 2 (2 - e).toNat := by
  obtain ⟨common, positive, quarters, decimal⟩ := over_common n k e u
  rw [← mul_le_mul_iff_of_pos_right positive, quarters, decimal, Nat.cast_le]

theorem le_quarters_iff :
    (k : ℚ) * 10 ^ u ≤ n * 2 ^ (e - 2) ↔
      k * Nat.pow 10 u.toNat * Nat.pow 2 (2 - e).toNat ≤
        n * Nat.pow 2 (e - 2).toNat * Nat.pow 10 (-u).toNat := by
  obtain ⟨common, positive, quarters, decimal⟩ := over_common n k e u
  rw [← mul_le_mul_iff_of_pos_right positive, quarters, decimal, Nat.cast_le]

theorem quarters_lt_iff :
    (n : ℚ) * 2 ^ (e - 2) < k * 10 ^ u ↔
      n * Nat.pow 2 (e - 2).toNat * Nat.pow 10 (-u).toNat <
        k * Nat.pow 10 u.toNat * Nat.pow 2 (2 - e).toNat := by
  rw [← not_le, ← not_le, le_quarters_iff]

private theorem lt_quarters_iff :
    (k : ℚ) * 10 ^ u < n * 2 ^ (e - 2) ↔
      k * Nat.pow 10 u.toNat * Nat.pow 2 (2 - e).toNat <
        n * Nat.pow 2 (e - 2).toNat * Nat.pow 10 (-u).toNat := by
  rw [← not_le, ← not_le, quarters_le_iff]

theorem Interval.contains_iff {i : Interval} :
    i.contains k u = true ↔
      let point := k * Nat.pow 10 u.toNat * i.den
      let unit := Nat.pow 10 (-u).toNat
      if i.closed = true then i.low * unit ≤ point ∧ point ≤ i.high * unit
      else i.low * unit < point ∧ point < i.high * unit := by
  rw [contains]
  split <;> rw [Bool.and_eq_true, decide_eq_true_eq, decide_eq_true_eq]

/-- A decimal lies in the interval of a number if and only if it rounds to the number. -/
theorem contains_interval_iff (positive : 0 < s) :
    (interval s e).contains k u = true ↔ RoundsTo (k * 10 ^ u) s e := by
  have lowEq : lowEnd s e = ((4 * s - quartersBelow s e : ℕ) : ℚ) * 2 ^ (e - 2) := by
    have := quartersBelow_le s e
    rw [lowEnd, Nat.cast_sub (by omega)]
    push_cast
    rfl
  have highEq : highEnd s e = ((4 * s + 2 : ℕ) : ℚ) * 2 ^ (e - 2) := by
    rw [highEnd]
    push_cast
    rfl
  have closedEq : (interval s e).closed = true ↔ s % 2 = 0 := beq_iff_eq
  rw [RoundsTo, lowEq, highEq, Interval.contains_iff, quarters_le_iff, le_quarters_iff,
    quarters_lt_iff, lt_quarters_iff]
  by_cases even : s % 2 = 0
  · rw [if_pos even]
    exact iff_of_eq (if_pos (closedEq.mpr even))
  · rw [if_neg even]
    exact iff_of_eq (if_neg (mt closedEq.mp even))

/-- A neighbour on a grid lies in the interval. -/
theorem contains_of_neighbour? {i : Interval} (found : i.neighbour? u = some k) :
    i.contains k u = true := by
  rw [Interval.neighbour?] at found
  split at found
  · rename_i below above
    rcases roundDiv_eq_or (i.value * Nat.pow 10 (-u).toNat) (i.den * Nat.pow 10 u.toNat) with
      eq | eq
    · rw [eq] at found
      exact Option.some_inj.mp found ▸ below
    · rw [eq] at found
      exact Option.some_inj.mp found ▸ above
  · rename_i below _
    exact Option.some_inj.mp found ▸ below
  · rename_i _ above
    exact Option.some_inj.mp found ▸ above
  · cases found

/-- A grid that is finer than the interval is long has a neighbour in it. -/
theorem exists_neighbour? (positive : 0 < s) (fine : (10 : ℚ) ^ u < highEnd s e - lowEnd s e) :
    ∃ k, (interval s e).neighbour? u = some k := by
  have pos10 : (0 : ℚ) < 10 ^ u := by positivity
  have denPositive : 0 < (interval s e).den * Nat.pow 10 u.toNat := by
    rw [interval]
    exact Nat.mul_pos (Nat.pow_pos two_pos) (Nat.pow_pos (by decide))
  have valueEq : magnitude s e = ((4 * s : ℕ) : ℚ) * 2 ^ (e - 2) := by
    rw [magnitude_eq_quarters]
    push_cast
    rfl
  set below := (interval s e).value * Nat.pow 10 (-u).toNat /
    ((interval s e).den * Nat.pow 10 u.toNat) with belowEq
  have le : (below : ℚ) * 10 ^ u ≤ magnitude s e := by
    rw [valueEq, le_quarters_iff, mul_assoc, mul_comm (Nat.pow 10 _)]
    exact Nat.div_mul_le_self _ _
  have lt : magnitude s e < ((below + 1 : ℕ) : ℚ) * 10 ^ u := by
    rw [valueEq, quarters_lt_iff, mul_assoc (below + 1), mul_comm (Nat.pow 10 u.toNat)]
    exact Nat.lt_mul_of_div_lt (Nat.lt_succ_self _) denPositive
  have length : ((below + 1 : ℕ) : ℚ) * 10 ^ u = below * 10 ^ u + 10 ^ u := by
    push_cast
    ring
  have low := lowEnd_lt_magnitude s e
  have high := magnitude_lt_highEnd s e
  have one : (interval s e).contains below u = true ∨
      (interval s e).contains (below + 1) u = true := by
    rw [contains_interval_iff positive, contains_interval_iff positive]
    by_cases inside : lowEnd s e < below * 10 ^ u
    · exact .inl (.of_between inside (le.trans_lt high))
    · exact .inr (.of_between (low.trans lt) (by linarith))
  rw [Interval.neighbour?, ← belowEq]
  split <;> simp_all

/-- A number is less than the power of ten with as many zeros as it has digits, and not less than
the power before. -/
theorem decimalLength_bounds (n : Nat) :
    n < 10 ^ decimalLength n ∧ (0 < n → 10 ^ (decimalLength n - 1) ≤ n) := by
  have some : 0 < decimalLength n := Nat.length_toDigits_pos
  constructor
  · exact (Nat.length_toDigits_le_iff (by decide) some).mp le_rfl
  · intro positive
    by_cases single : decimalLength n - 1 = 0
    · rw [single]
      exact positive
    · by_contra less
      have shorter := (Nat.length_toDigits_le_iff (by decide) (by omega)).mpr (not_le.mp less)
      rw [decimalLength] at single shorter
      omega

/-- The power of ten at the first digit of a quotient is not greater than the quotient. -/
theorem pow_decimalExponent_le (numPositive : 0 < num) (denPositive : 0 < den) :
    (10 : ℚ) ^ decimalExponent num den * den ≤ num := by
  have den0 : (0 : ℚ) < den := by exact_mod_cast denPositive
  rw [decimalExponent]
  split
  · rename_i le
    have quotient : 0 < num / den := Nat.div_pos le denPositive
    have some : 0 < decimalLength (num / den) := Nat.length_toDigits_pos
    rw [← Nat.cast_pred some, zpow_natCast]
    have bound : 10 ^ (decimalLength (num / den) - 1) * den ≤ num :=
      (Nat.mul_le_mul_right den ((decimalLength_bounds _).2 quotient)).trans
        (Nat.div_mul_le_self num den)
    exact_mod_cast bound
  · rename_i lt
    have bound := (decimalLength_bounds ((den + num - 1) / num - 1)).1
    rw [zpow_neg, zpow_natCast, inv_mul_le_iff₀ (by positivity)]
    set power := 10 ^ decimalLength ((den + num - 1) / num - 1) with powerEq
    have rounded : den ≤ power * num := by
      have upper : den + num - 1 < ((den + num - 1) / num + 1) * num :=
        Nat.lt_mul_of_div_lt (Nat.lt_succ_self _) numPositive
      have step : ((den + num - 1) / num) * num ≤ power * num :=
        Nat.mul_le_mul_right num (by omega)
      rw [Nat.add_mul, Nat.one_mul] at upper
      omega
    exact_mod_cast rounded

/-- Zeros at the end of the digits of a decimal may go into the exponent. -/
theorem stripZeros_worth (bound digits : Nat) (exponent : Int) :
    ((stripZeros bound digits exponent).1 : ℚ) * 10 ^ (stripZeros bound digits exponent).2 =
      digits * 10 ^ exponent := by
  fun_induction stripZeros bound digits exponent with
  | case1 => rfl
  | case2 bound digits exponent zero ih =>
      rw [ih, zpow_add_one₀ (by norm_num)]
      have whole : digits / 10 * 10 = digits := Nat.div_mul_cancel (Nat.dvd_of_mod_eq_zero zero)
      have wholeCast : ((digits / 10 : ℕ) : ℚ) * 10 = digits := by exact_mod_cast whole
      rw [← wholeCast]
      ring
  | case3 => rfl

/-- The power of ten at the first digit of a number is not greater than the number. -/
theorem pow_decimalExponent_le_magnitude (positive : 0 < s) :
    (10 : ℚ) ^ decimalExponent (interval s e).value (interval s e).den ≤ magnitude s e := by
  have denPositive : 0 < (interval s e).den := Nat.pow_pos two_pos
  have valuePositive : 0 < (interval s e).value :=
    Nat.mul_pos (by omega) (Nat.pow_pos two_pos)
  have den0 : (0 : ℚ) < (interval s e).den := by exact_mod_cast denPositive
  have two := zpow_mul_pow_toNat (b := 2) two_ne_zero (e - 2)
  rw [neg_sub] at two
  have worth : magnitude s e * (interval s e).den = (interval s e).value := by
    rw [magnitude_eq_quarters]
    simp only [interval]
    push_cast [Nat.pow_eq]
    rw [mul_assoc (4 * (s : ℚ)), two]
  refine le_of_mul_le_mul_right ?_ den0
  rw [worth]
  exact pow_decimalExponent_le valuePositive denPositive

/-- Seventeen digits are enough: the grid with so many of them is finer than the reals that round
to a number are far apart. -/
theorem grid_fine (form : StandardForm s e) (positive : 0 < s) :
    (10 : ℚ) ^ (decimalExponent (interval s e).value (interval s e).den - 16) <
      highEnd s e - lowEnd s e := by
  have grid : ∀ leading : Int, (10 : ℚ) ^ (leading - 16) = 10 ^ leading / 10 ^ 16 := by
    intro leading
    rw [zpow_sub₀ (by norm_num)]
    norm_num
  have width : highEnd s e - lowEnd s e = (2 + quartersBelow s e) * 2 ^ (e - 2) := by
    rw [highEnd, lowEnd]
    ring
  have bound : (4 * s : ℚ) < (2 + quartersBelow s e) * 10 ^ 16 := by
    have significand := form.significand_lt
    have nat : 4 * s < (2 + quartersBelow s e) * 10 ^ 16 := by
      rw [quartersBelow]
      rw [hidden] at significand ⊢
      norm_num at significand ⊢
      split <;> omega
    exact_mod_cast nat
  rw [grid, width, div_lt_iff₀ (by norm_num)]
  calc (10 : ℚ) ^ decimalExponent (interval s e).value (interval s e).den
      ≤ magnitude s e := pow_decimalExponent_le_magnitude positive
    _ = 4 * s * 2 ^ (e - 2) := magnitude_eq_quarters s e
    _ < (2 + quartersBelow s e) * 10 ^ 16 * 2 ^ (e - 2) :=
        mul_lt_mul_of_pos_right bound (by positivity)
    _ = (2 + quartersBelow s e) * 2 ^ (e - 2) * 10 ^ 16 := by ring

/-- The shortest decimal of a number rounds to the number. -/
theorem roundsTo_shortest (form : StandardForm s e) (positive : 0 < s) :
    RoundsTo ((shortest s e).1 * 10 ^ (shortest s e).2) s e := by
  obtain ⟨last, lastFound⟩ := exists_neighbour? positive (grid_fine form positive)
  let pick (fewer : Nat) : Option (Nat × Int) :=
    let unit := decimalExponent (interval s e).value (interval s e).den - (fewer : Int)
    ((interval s e).neighbour? unit).map fun digits => stripZeros 18 digits unit
  have foundOne : ((List.range 17).findSome? pick).isSome = true := by
    rw [List.findSome?_isSome_iff]
    refine ⟨16, by decide, ?_⟩
    rw [Option.isSome_map]
    exact Option.isSome_of_eq_some lastFound
  obtain ⟨decimal, found⟩ := Option.isSome_iff_exists.mp foundOne
  obtain ⟨fewer, -, here⟩ := List.exists_of_findSome?_eq_some found
  obtain ⟨digits, neighbour, rfl⟩ := Option.map_eq_some_iff.mp here
  have shortestEq : shortest s e = ((List.range 17).findSome? pick).getD
      ((interval s e).value / (interval s e).den, 0) := rfl
  rw [shortestEq, found, Option.getD_some, stripZeros_worth]
  exact (contains_interval_iff positive).mp (contains_of_neighbour? neighbour)

/-- Numbers with decimals that are worth the same are one number. -/
theorem eq_of_shortest_worth {t : Nat} {f : Int} (left : StandardForm s e)
    (right : StandardForm t f) (leftPositive : 0 < s) (rightPositive : 0 < t)
    (worth : ((shortest s e).1 : ℚ) * 10 ^ (shortest s e).2 =
      (shortest t f).1 * 10 ^ (shortest t f).2) : s = t ∧ e = f := by
  have leftRounds := roundsTo_shortest left leftPositive
  have rightRounds := roundsTo_shortest right rightPositive
  rw [worth] at leftRounds
  exact leftRounds.unique rightRounds left right

end Decimals

end Binary64

end PropValidators
