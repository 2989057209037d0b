/-!
# Binary64 numbers

Floating point numbers of the IEEE 754 format binary64, as values: a finite
number is a sign, a significand and a power of two.  The values built here are
in the standard form: the significand is below `2^53`, and at least `2^52`
unless the exponent is the least one, `-1074`.  All arithmetic is exact
arithmetic on natural numbers followed by one rounding to the nearest value,
ties to the even significand.

A value that is not a number equals no number.  To find such a value again it is told
apart from others like it by its origin.
-/

namespace PropValidators

/-- Where a value that is not a number comes from. -/
inductive Origin where
  /-- The word for such a value in JSON text.  All of these are one value. -/
  | word
  /-- The text of a literal, by the place of the literal. -/
  | literal (place : List Nat)
  /-- A computation.  Every computation makes a value of its own, so that a value with
  this origin is not the same as any other. -/
  | computed
  /-- A computation whose outcome is bound to a type parameter: the number of scopes
  opened inside that of the parameter, and the place of the value in what is bound. -/
  | bound (scopes : Nat) (place : List Nat)
deriving DecidableEq, Repr

/-- Whether values of two origins are one value. -/
def Origin.same : Origin → Origin → Bool
  | .computed, .computed => false
  | a, b => a == b

/-- A binary64 number. -/
inductive Binary64 where
  /-- Not a number. -/
  | nan (origin : Origin)
  /-- One of the two infinities. -/
  | infinite (negative : Bool)
  /-- The number `± significand * 2 ^ exponent`. -/
  | finite (negative : Bool) (significand : Nat) (exponent : Int)
deriving DecidableEq, Repr

namespace Binary64

/-- The least exponent of a finite number. -/
def leastExponent : Int := -1074

/-- The greatest exponent of a finite number. -/
def greatestExponent : Int := 971

/-- The number of significands with the least exponent below the first number
of full precision. -/
def hidden : Nat := Nat.pow 2 52

/-- Zero, with a sign. -/
def zero (negative : Bool) : Binary64 :=
  .finite negative 0 leastExponent

/-- Divide, rounding to the nearest natural number and a tie to the even one. -/
def roundDiv (num den : Nat) : Nat :=
  let quotient := num / den
  let twice := 2 * (num % den)
  if twice < den then quotient
  else if den < twice then quotient + 1
  else if quotient % 2 = 0 then quotient else quotient + 1

/-- The fraction `num / (den * 2 ^ exponent)` as numerator and denominator. -/
def scaled (num den : Nat) (exponent : Int) : Nat × Nat :=
  (num * Nat.pow 2 (-exponent).toNat, den * Nat.pow 2 exponent.toNat)

/-- The exponent at which the quotient `num / den` has a significand of full
precision, but not less than the least one. -/
def exponentFor (num den : Nat) : Int :=
  let guess := max ((num.log2 : Int) - den.log2 - 53) leastExponent
  let (n, d) := scaled num den guess
  if 2 * hidden ≤ n / d then guess + 1 else guess

/-- The number nearest to the quotient of two natural numbers. -/
def ofRatio (negative : Bool) (num den : Nat) : Binary64 :=
  if num = 0 then zero negative
  else
    let exponent := exponentFor num den
    let (n, d) := scaled num den exponent
    let rounded := roundDiv n d
    let (significand, exponent) :=
      if rounded = 2 * hidden then (hidden, exponent + 1) else (rounded, exponent)
    if greatestExponent < exponent then .infinite negative
    else .finite negative significand exponent

/-- The number nearest to an integer multiple of a power of two. -/
def ofScaled (value : Int) (exponent : Int) : Binary64 :=
  ofRatio (value < 0) (value.natAbs * Nat.pow 2 exponent.toNat) (Nat.pow 2 (-exponent).toNat)

/-- The number of decimal digits of a natural number. -/
def decimalLength (n : Nat) : Nat :=
  (Nat.toDigits 10 n).length

/-- The number nearest to `± digits * 10 ^ exponent`.  Far outside the range of
finite numbers the answer is given without computing the power. -/
def ofDecimal (negative : Bool) (digits : Nat) (exponent : Int) : Binary64 :=
  let magnitude := exponent + decimalLength digits
  if digits = 0 ∨ magnitude < -400 then zero negative
  else if 400 < magnitude then .infinite negative
  else ofRatio negative (digits * Nat.pow 10 exponent.toNat) (Nat.pow 10 (-exponent).toNat)

/-- The opposite number; the sign of zero changes too. -/
def neg : Binary64 → Binary64
  | .nan _ => .nan .computed
  | .infinite negative => .infinite !negative
  | .finite negative significand exponent => .finite (!negative) significand exponent

/-- The signed significand of a finite number. -/
def signed (negative : Bool) (significand : Nat) : Int :=
  if negative then -(significand : Int) else significand

/-- The number one greater, rounded. -/
def succ : Binary64 → Binary64
  | .nan _ => .nan .computed
  | .infinite negative => .infinite negative
  | .finite negative significand exponent =>
      let common := min exponent 0
      ofScaled
        (signed negative significand * Int.pow 2 (exponent - common).toNat +
          Int.pow 2 (-common).toNat)
        common

/-- The integer part of a finite number, rounded toward zero. -/
def truncate? : Binary64 → Option Int
  | .nan _ => none
  | .infinite _ => none
  | .finite negative significand exponent =>
      some (signed negative (significand * Nat.pow 2 exponent.toNat / Nat.pow 2 (-exponent).toNat))

/-- The least integer that is not below a finite number. -/
def ceiling? : Binary64 → Option Int
  | .nan _ => none
  | .infinite _ => none
  | .finite negative significand exponent =>
      let whole := signed negative significand * Int.pow 2 exponent.toNat
      some (-(-whole / Int.pow 2 (-exponent).toNat))

/-- Whether a number equals an integer. -/
def equalsInt (value : Int) : Binary64 → Bool
  | .nan _ => false
  | .infinite _ => false
  | .finite negative significand exponent =>
      signed negative significand * Int.pow 2 exponent.toNat ==
        value * Int.pow 2 (-exponent).toNat

/-- Whether two values are equal as numbers, as the two zeros are, or one and the same
value that is not a number. -/
def equals : Binary64 → Binary64 → Bool
  | .nan a, .nan b => a.same b
  | .infinite a, .infinite b => a == b
  | .finite a s e, .finite b t f =>
      let common := min e f
      signed a s * Int.pow 2 (e - common).toNat == signed b t * Int.pow 2 (f - common).toNat
  | _, _ => false

/-- The integer that a number equals, if it is a whole number. -/
def whole? (x : Binary64) : Option Int :=
  match x.truncate? with
  | some value => if x.equalsInt value then some value else none
  | none => none

end Binary64

end PropValidators
