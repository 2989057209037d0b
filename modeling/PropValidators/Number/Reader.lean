import PropValidators.Number.Basic
import PropValidators.Text.Blank
import PropValidators.Text.Digit

/-!
# Reading numbers from text

Three grammars for numbers.

* `integer?` is the one of settings and command-line values: blanks around, a
  sign, decimal digits of any script, and single underscores between digits.
* `literal?` is the one of numeric literals given as text: an integer with ASCII
  digits, which may carry a fraction of zeros, or else a decimal with an optional
  point and exponent, or the name of an infinity or of a value that is not a number.
* `jsonNumber?` is the number grammar of JSON, where a point or an exponent makes
  the number a binary64 number.

No integer is read from a text with more digits than `longestInteger`, and none with more
digits is written.
-/

namespace PropValidators.Number

/-- The number of digits of the longest integer that is read from a text or written as
one. -/
def longestInteger : Nat := 4300

/-- The message about an integer with too many digits; a remark may tell their number. -/
def digitLimitMessage (remark : String) : String :=
  "Exceeds the limit (" ++ digitsText longestInteger ++
    " digits) for integer string conversion" ++ remark ++
    "; use sys.set_int_max_str_digits() to increase the limit"

/-- The message about a text with an integer of too many digits. -/
def overlongMessage (digits : Nat) : String :=
  digitLimitMessage (": value has " ++ digitsText digits ++ " digits")

/-- The message about an integer with too many digits for a text. -/
def unwritableMessage : String :=
  digitLimitMessage ""

/-- The least natural number with too many digits. -/
def firstUnwritable : Nat := Nat.pow 10 longestInteger

/-- Whether a number is an integer with too many digits for a text. -/
def isUnwritable : Number → Bool
  | .int n => firstUnwritable ≤ n.natAbs
  | .float _ => false

/-- Read digits with single underscores between them.  `ready` tells that a
digit has just been read, so that the number may end or an underscore follow. -/
def groupedDigits (digit? : Char → Option Nat) : Nat → Bool → List Char → Option Nat
  | total, ready, [] => if ready then some total else none
  | total, ready, c :: cs =>
      if c = '_' then
        if ready then groupedDigits digit? total false cs else none
      else
        match digit? c with
        | some d => groupedDigits digit? (10 * total + d) true cs
        | none => none

/-- Split off a sign: whether it is a minus, and the rest. -/
def splitSign : List Char → Bool × List Char
  | '-' :: cs => (true, cs)
  | '+' :: cs => (false, cs)
  | cs => (false, cs)

/-- Split off a minus sign: whether there is one, and the rest. -/
def splitMinus : List Char → Bool × List Char
  | '-' :: cs => (true, cs)
  | cs => (false, cs)

/-- A signed integer. -/
def withSign (negative : Bool) (n : Nat) : Int :=
  if negative then -(n : Int) else n

/-- The integer a setting or a command-line value stands for.  Only its digits count
towards its length. -/
def integer? (s : String) : Option Int :=
  let (negative, digits) := splitSign (Text.trim Text.isSpace s.toList)
  if longestInteger < (digits.filter (· ≠ '_')).length then none
  else (groupedDigits Text.decimalDigit? 0 false digits).map (withSign negative)

/-- The value of a run of ASCII digits, none for any other character. -/
def digits? (cs : List Char) : Option Nat :=
  cs.foldl (fun total c => do return 10 * (← total) + (← Text.asciiDigit? c)) (some 0)

/-- Whether digits are a whole part as JSON writes it, without a leading zero. -/
def isPlainWhole : List Char → Bool
  | [] => false
  | [_] => true
  | c :: _ => c != '0'

/-- The integer that JSON writes in this way: a minus sign or nothing, and digits
without a leading zero. -/
def plainInteger? (cs : List Char) : Option Int :=
  let (negative, digits) := splitMinus cs
  if isPlainWhole digits then (digits? digits).map (withSign negative) else none

/-- Remove single underscores between other characters. -/
def dropUnderscores? (cs : List Char) : Option (List Char) :=
  if cs.head? = some '_' ∨ cs.getLast? = some '_' then none
  else if (cs.zip (cs.drop 1)).any fun pair => pair.1 == '_' && pair.2 == '_' then none
  else some (cs.filter (· ≠ '_'))

/-- What follows a run of zeros and underscores, of which the last character is given.
The number may go on with a digit or a minus sign; before a point and at the end the
last character stays. -/
def afterZeros (last : Char) : List Char → Option (List Char)
  | [] => some [last]
  | c :: cs =>
      if c = '0' ∨ c = '_' then afterZeros c cs
      else if c = '-' ∨ c.isDigit then some (c :: cs)
      else if c = '.' then some (last :: c :: cs)
      else none

/-- Drop leading zeros, and underscores after them. -/
def dropZeros? : List Char → Option (List Char)
  | [] => none
  | c :: cs =>
      if c = '0' then afterZeros c cs
      else if c.isDigit then some (c :: cs)
      else none

/-- Drop a fraction that consists of zeros only. -/
def dropZeroFraction (cs : List Char) : List Char :=
  let whole := cs.takeWhile (· ≠ '.')
  match cs.dropWhile (· ≠ '.') with
  | _ :: fraction =>
      if !fraction.isEmpty && fraction.all (· == '0') then whole else cs
  | [] => cs

/-- The text of a numeric literal reduced to the form of JSON.  What follows the leading
zeros has a minus sign of its own if none stands before them. -/
def plainLiteral? (cs : List Char) : Option (List Char) := do
  let (negative, unsigned) := splitSign (Text.trim Text.isSpace cs)
  let digits := dropZeroFraction (← dropZeros? unsigned)
  let plain := (dropUnderscores? digits).getD digits
  return if negative then '-' :: plain else plain

/-- The integer that the text of a numeric literal stands for.  Only its digits count
towards its length. -/
def literalInteger? (cs : List Char) : Option Int := do
  let plain ← plainLiteral? cs
  if longestInteger < (plain.filter (· ≠ '-')).length then none else plainInteger? plain

/-- Whether a text starts, as JSON writes integers, with one of too many digits. -/
def startsOverlong (cs : List Char) : Bool :=
  let digits := (splitMinus cs).2.takeWhile Char.isDigit
  digits.head? != some '0' && longestInteger < digits.length

/-- A decimal as read: sign, digits of both parts, and exponent. -/
structure Decimal where
  negative : Bool
  whole : List Char
  fraction : List Char
  exponent : Int

/-- The binary64 number nearest to a decimal. -/
def Decimal.toBinary64? (d : Decimal) : Option Binary64 :=
  (digits? (d.whole ++ d.fraction)).map fun digits =>
    Binary64.ofDecimal d.negative digits (d.exponent - d.fraction.length)

/-- Read the exponent part: a mark, a sign and at least one digit, or nothing at
all. -/
def exponent? : List Char → Option Int
  | [] => some 0
  | mark :: rest =>
      if mark = 'e' ∨ mark = 'E' then
        let (negative, digits) := splitSign rest
        if digits.isEmpty then none else (digits? digits).map (withSign negative)
      else none

/-- Read an unsigned decimal: digits, a point with digits, and an exponent part.
Whether a point was written is told apart from an empty fraction. -/
def splitDecimal (cs : List Char) : List Char × Option (List Char) × List Char :=
  let whole := cs.takeWhile Char.isDigit
  match cs.dropWhile Char.isDigit with
  | '.' :: rest => (whole, some (rest.takeWhile Char.isDigit), rest.dropWhile Char.isDigit)
  | rest => (whole, none, rest)

/-- Read a decimal with digits on at least one side of the point. -/
def decimal? (cs : List Char) : Option Binary64 :=
  let (negative, unsigned) := splitSign cs
  let (whole, fraction, rest) := splitDecimal unsigned
  let fraction := fraction.getD []
  if whole.isEmpty && fraction.isEmpty then none
  else do
    let exponent ← exponent? rest
    Decimal.toBinary64? ⟨negative, whole, fraction, exponent⟩

/-- The names of the numbers that are not finite, in any case. -/
def namedNumber? (cs : List Char) : Option Binary64 :=
  let (negative, name) := splitSign cs
  let name := String.ofList (name.map Char.toLower)
  if name = "inf" ∨ name = "infinity" then some (.infinite negative)
  else if name = "nan" then some (.nan .computed)
  else none

/-- The binary64 number that the text of a numeric literal stands for. -/
def literalDecimal? (cs : List Char) : Option Binary64 :=
  let trimmed := Text.trim Text.isSpace cs
  (decimal? trimmed <|> namedNumber? trimmed) <|>
    ((dropUnderscores? cs).bind fun plain => decimal? plain <|> namedNumber? plain)

/-- The number that the text of a numeric literal stands for, an integer if it
can be one. -/
def literal? (s : String) : Option Number :=
  match literalInteger? s.toList with
  | some n => some (.int n)
  | none => (literalDecimal? s.toList).map .float

/-- Read a JSON number. -/
def jsonNumber? (cs : List Char) : Option Number :=
  let (negative, unsigned) := splitMinus cs
  let (whole, fraction, rest) := splitDecimal unsigned
  if !isPlainWhole whole || fraction = some [] then none
  else
    match fraction, rest with
    | none, [] => (digits? whole).map fun n => .int (withSign negative n)
    | _, _ => do
        let exponent ← exponent? rest
        let value ← Decimal.toBinary64? ⟨negative, whole, fraction.getD [], exponent⟩
        return .float value

end PropValidators.Number
