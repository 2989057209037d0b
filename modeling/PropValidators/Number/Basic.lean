import PropValidators.Number.Shortest

/-!
# Numbers

A number is an integer of any size or a binary64 number, and the two stay apart:
`1` and `1.0` are different numbers with the same numeric value.  Two texts are
written for a number.  The plain text keeps the kind apart (`1.0` has a point)
and reads back exactly; the source text is the one used in generated code, where
a whole number has neither point nor exponent.
-/

namespace PropValidators

/-- An integer or a binary64 number. -/
inductive Number where
  | int (value : Int)
  | float (value : Binary64)
deriving DecidableEq, Repr

/-- How the shortest decimal of a binary64 number is laid out. -/
structure DecimalLayout where
  /-- The least decimal exponent written without an exponent part. -/
  positionalFrom : Int
  /-- The first decimal exponent written with an exponent part again. -/
  positionalBelow : Int
  /-- The least number of digits in the exponent part. -/
  exponentDigits : Nat

namespace Number

/-- Numbers from `0.0001` up to `10^16` are written positionally, and an exponent
has at least two digits. -/
def layout : DecimalLayout := ⟨-4, 16, 2⟩

/-- Decimal digits of a natural number. -/
def digitsText (n : Nat) : String :=
  String.ofList (Nat.toDigits 10 n)

/-- Decimal text of an integer. -/
def intText (n : Int) : String :=
  if n < 0 then "-" ++ digitsText n.natAbs else digitsText n.natAbs

end Number

/-- Lay out `digits * 10 ^ exponent`, with a point in every positional text. -/
def DecimalLayout.text (layout : DecimalLayout) (digits : Nat) (exponent : Int) : String :=
  let ds := Nat.toDigits 10 digits
  let leading := exponent + ds.length - 1
  let zeros (n : Nat) : String := String.ofList (List.replicate n '0')
  if leading < layout.positionalFrom ∨ layout.positionalBelow ≤ leading then
    let tail := if ds.length ≤ 1 then "" else "." ++ String.ofList (ds.drop 1)
    let size := Nat.toDigits 10 leading.natAbs
    let padded := zeros (layout.exponentDigits - size.length) ++ String.ofList size
    String.ofList (ds.take 1) ++ tail ++ (if leading < 0 then "e-" else "e+") ++ padded
  else if leading < 0 then
    "0." ++ zeros (leading.natAbs - 1) ++ String.ofList ds
  else
    let before := leading.toNat + 1
    if ds.length ≤ before then
      String.ofList ds ++ zeros (before - ds.length) ++ ".0"
    else String.ofList (ds.take before) ++ "." ++ String.ofList (ds.drop before)

namespace Binary64

/-- Text with the fewest digits that read back. -/
def text : Binary64 → String
  | .nan _ => "nan"
  | .infinite negative => if negative then "-inf" else "inf"
  | .finite negative significand exponent =>
      let unsigned :=
        if significand = 0 then "0.0"
        else
          let (digits, power) := shortest significand exponent
          Number.layout.text digits power
      if negative then "-" ++ unsigned else unsigned

end Binary64

namespace Number

/-- The plain text. -/
def text : Number → String
  | .int value => intText value
  | .float value => value.text

/-- The text in generated code: a whole number is written as an integer. -/
def sourceText : Number → String
  | .int value => intText value
  | .float value =>
      match value.whole? with
      | some n => intText n
      | none => value.text

/-- Equality as numbers, across the two kinds. -/
def equals : Number → Number → Bool
  | .int a, .int b => a == b
  | .int a, .float b => b.equalsInt a
  | .float a, .int b => a.equalsInt b
  | .float a, .float b => a.equals b

/-- The opposite number, of the same kind. -/
def neg : Number → Number
  | .int value => .int (-value)
  | .float value => .float value.neg

/-- The number one greater, of the same kind. -/
def succ : Number → Number
  | .int value => .int (value + 1)
  | .float value => .float value.succ

/-- The value of the literal at a place: one that is not a number comes from there. -/
def located (place : List Nat) : Number → Number
  | .float (.nan _) => .float (.nan (.literal place))
  | value => value

end Number

end PropValidators
