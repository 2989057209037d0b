import PropValidators.Number.Binary64

/-!
# Shortest decimals

The decimal of fewest digits that reads back as a given binary64 number.  A
decimal reads back as the number when it lies in the interval of reals that
round to it; the ends belong to the interval exactly when the significand is
even.  For `1, 2, …, 17` digits the two neighbours of the number on the decimal
grid with that many digits are tried.  The first grid with a neighbour in the
interval wins, and of two such neighbours the nearer one.
-/

namespace PropValidators

namespace Binary64

/-- A positive number with the interval of reals that round to it, over the
common denominator `den`. -/
structure Interval where
  low : Nat
  value : Nat
  high : Nat
  den : Nat
  /-- Whether the ends belong to the interval. -/
  closed : Bool

/-- The rounding interval of `significand * 2 ^ exponent`.  Below a power of two
the numbers lie twice as dense. -/
def interval (significand : Nat) (exponent : Int) : Interval :=
  let up := Nat.pow 2 (exponent - 2).toNat
  let below := if significand = hidden ∧ leastExponent < exponent then 1 else 2
  { low := (4 * significand - below) * up
    value := 4 * significand * up
    high := (4 * significand + 2) * up
    den := Nat.pow 2 (2 - exponent).toNat
    closed := significand % 2 == 0 }

/-- Whether `digits * 10 ^ exponent` lies in the interval. -/
def Interval.contains (i : Interval) (digits : Nat) (exponent : Int) : Bool :=
  let point := digits * Nat.pow 10 exponent.toNat * i.den
  let unit := Nat.pow 10 (-exponent).toNat
  if i.closed then i.low * unit ≤ point && point ≤ i.high * unit
  else i.low * unit < point && point < i.high * unit

/-- The exponent `e` with `10 ^ e ≤ num / den < 10 ^ (e + 1)`, for a positive
quotient. -/
def decimalExponent (num den : Nat) : Int :=
  if den ≤ num then (decimalLength (num / den) : Int) - 1
  else -(decimalLength ((den + num - 1) / num - 1) : Int)

/-- The neighbour on the grid of the multiples of `10 ^ exponent` that reads
back, if there is one. -/
def Interval.neighbour? (i : Interval) (exponent : Int) : Option Nat :=
  let num := i.value * Nat.pow 10 (-exponent).toNat
  let den := i.den * Nat.pow 10 exponent.toNat
  let below := num / den
  match i.contains below exponent, i.contains (below + 1) exponent with
  | true, true => some (roundDiv num den)
  | true, false => some below
  | false, true => some (below + 1)
  | false, false => none

/-- Move the trailing zeros of the digits into the exponent.  The first argument
bounds the number of zeros. -/
def stripZeros : Nat → Nat → Int → Nat × Int
  | 0, digits, exponent => (digits, exponent)
  | bound + 1, digits, exponent =>
      if digits % 10 = 0 then stripZeros bound (digits / 10) (exponent + 1)
      else (digits, exponent)

/-- The shortest decimal of a positive number, as digits without trailing zeros
and a power of ten. -/
def shortest (significand : Nat) (exponent : Int) : Nat × Int :=
  let i := interval significand exponent
  let leading := decimalExponent i.value i.den
  let found := (List.range 17).findSome? fun (fewer : Nat) =>
    let unit := leading - (fewer : Int)
    (i.neighbour? unit).map fun digits => stripZeros 18 digits unit
  found.getD (i.value / i.den, 0)

end Binary64

end PropValidators
