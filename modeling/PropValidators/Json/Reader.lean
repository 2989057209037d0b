import PropValidators.Assoc
import PropValidators.Json.Basic
import PropValidators.Number.Reader

/-!
# Reading JSON text

The text is cut into tokens, and the tokens are read by an automaton whose
stack holds the arrays and objects that are still open.  An object key that is
repeated keeps its first position and takes the last value.  Besides the JSON
grammar the names `NaN`, `Infinity` and `-Infinity` are numbers.  An integer may be
too long to be read; what makes a text unreadable is what stands first in it, and an
integer stands before what cannot follow it.
-/

namespace PropValidators.Json

/-- A token of JSON text. -/
inductive Token where
  | leftBrace
  | rightBrace
  | leftBracket
  | rightBracket
  | comma
  | colon
  | string (value : String)
  /-- A number or one of the constant words. -/
  | scalar (value : Json)
  /-- An integer with too many digits. -/
  | overlong (digits : Nat)
  /-- Something that is no token.  Nothing after it is cut into tokens. -/
  | invalid

/-- The value of a hexadecimal digit. -/
def hexDigit? (c : Char) : Option Nat :=
  if c.isDigit then some (c.toNat - '0'.toNat)
  else if 'a' ≤ c ∧ c ≤ 'f' then some (c.toNat - 'a'.toNat + 10)
  else if 'A' ≤ c ∧ c ≤ 'F' then some (c.toNat - 'A'.toNat + 10)
  else none

/-- The UTF-16 unit written by four hexadecimal digits. -/
def unit? (a b c d : Char) : Option Nat := do
  let high := (← hexDigit? a) * 16 + (← hexDigit? b)
  let low := (← hexDigit? c) * 16 + (← hexDigit? d)
  return high * 256 + low

/-- The character of a one-letter escape. -/
def escaped? (c : Char) : Option Char :=
  match c with
  | '"' => some '"'
  | '\\' => some '\\'
  | '/' => some '/'
  | 'b' => some (Char.ofNat 0x08)
  | 'f' => some (Char.ofNat 0x0C)
  | 'n' => some '\n'
  | 'r' => some '\r'
  | 't' => some '\t'
  | _ => none

/-- Whether a UTF-16 unit is the first of a surrogate pair. -/
def isHighSurrogate (unit : Nat) : Bool :=
  0xD800 ≤ unit && unit < 0xDC00

/-- Whether a UTF-16 unit is the second of a surrogate pair. -/
def isLowSurrogate (unit : Nat) : Bool :=
  0xDC00 ≤ unit && unit < 0xE000

/-- The character of a surrogate pair. -/
def pairChar (high low : Nat) : Char :=
  Char.ofNat (0x10000 + (high - 0xD800) * 0x400 + (low - 0xDC00))

/-- The character of a single unit; a surrogate alone becomes the replacement
character. -/
def unitChar (unit : Nat) : Char :=
  if isHighSurrogate unit || isLowSurrogate unit then Char.ofNat 0xFFFD else Char.ofNat unit

/-- Read the rest of a string up to its closing quote.  A high surrogate that was
read last waits in `pending` for its partner. -/
def scanString : List Char → Option Nat → List Char → Option (String × List Char)
  | [], _, _ => none
  | '"' :: rest, pending, acc =>
      let acc := (pending.map unitChar).toList ++ acc
      some (String.ofList acc.reverse, rest)
  | '\\' :: 'u' :: a :: b :: c :: d :: rest, pending, acc =>
      match unit? a b c d with
      | none => none
      | some unit =>
          match pending with
          | some high =>
              if isLowSurrogate unit then scanString rest none (pairChar high unit :: acc)
              else if isHighSurrogate unit then scanString rest (some unit) (unitChar high :: acc)
              else scanString rest none (unitChar unit :: unitChar high :: acc)
          | none =>
              if isHighSurrogate unit then scanString rest (some unit) acc
              else scanString rest none (unitChar unit :: acc)
  | '\\' :: e :: rest, pending, acc =>
      match escaped? e with
      | none => none
      | some c => scanString rest none (c :: ((pending.map unitChar).toList ++ acc))
  | c :: rest, pending, acc =>
      if c.toNat < 0x20 then none
      else scanString rest none (c :: ((pending.map unitChar).toList ++ acc))

/-- What follows a string is shorter than the text from its first character. -/
theorem scanString_length {cs : List Char} {pending : Option Nat} {acc : List Char}
    {s : String} {rest : List Char} (hscan : scanString cs pending acc = some (s, rest)) :
    rest.length < cs.length := by
  fun_induction scanString cs pending acc with
  | case1 => simp at hscan
  | case2 =>
      simp only [Option.some.injEq, Prod.mk.injEq] at hscan
      obtain ⟨-, rfl⟩ := hscan
      simp
  | _ =>
      first
      | simp at hscan
      | (rename_i ih; have := ih hscan; simp only [List.length_cons]; omega)

/-- Whether a character may occur in a number. -/
def isNumberChar (c : Char) : Bool :=
  c.isDigit || c == '+' || c == '-' || c == '.' || c == 'e' || c == 'E'

/-- The value of a constant word. -/
def word? (cs : List Char) : Option Json :=
  match String.ofList cs with
  | "null" => some .null
  | "true" => some (.bool true)
  | "false" => some (.bool false)
  | "NaN" => some (.number (.float (.nan .word)))
  | "Infinity" => some (.number (.float (.infinite false)))
  | "-Infinity" => some (.number (.float (.infinite true)))
  | _ => none

/-- Whether what follows digits goes on with a fraction or an exponent. -/
def startsFraction : List Char → Bool
  | '.' :: c :: _ => c.isDigit
  | mark :: sign :: rest =>
      (mark == 'e' || mark == 'E') &&
        (sign.isDigit || ((sign == '+' || sign == '-') && rest.head?.any Char.isDigit))
  | _ => false

/-- The number of digits of the integer that a text starts with; none if it starts with
something else. -/
def leadingDigits (cs : List Char) : Nat :=
  let unsigned := (Number.splitMinus cs).2
  let digits := unsigned.takeWhile Char.isDigit
  if digits.head? = some '0' || startsFraction (unsigned.dropWhile Char.isDigit) then 0
  else digits.length

/-- The token of a number. -/
def numberToken (cs : List Char) : Token :=
  let digits := leadingDigits cs
  if Number.longestInteger < digits then .overlong digits
  else
    match Number.jsonNumber? cs with
    | none => .invalid
    | some n => .scalar (.number n)

/-- Cut JSON text into tokens. -/
def tokens (cs : List Char) : List Token :=
  match cs with
  | [] => []
  | c :: rest =>
      if c = ' ' ∨ c = '\n' ∨ c = '\r' ∨ c = '\t' then tokens rest
      else if c = '\x7b' then .leftBrace :: tokens rest
      else if c = '\x7d' then .rightBrace :: tokens rest
      else if c = '[' then .leftBracket :: tokens rest
      else if c = ']' then .rightBracket :: tokens rest
      else if c = ',' then .comma :: tokens rest
      else if c = ':' then .colon :: tokens rest
      else if c = '"' then
        match _h : scanString rest none [] with
        | none => [.invalid]
        | some (s, after) => .string s :: tokens after
      else if c.isAlpha ∨ (c = '-' ∧ rest.head? = some 'I') then
        match word? (c :: rest.takeWhile Char.isAlpha) with
        | none => [.invalid]
        | some value => .scalar value :: tokens (rest.dropWhile Char.isAlpha)
      else
        numberToken (c :: rest.takeWhile isNumberChar) :: tokens (rest.dropWhile isNumberChar)
termination_by cs.length
decreasing_by
  all_goals simp only [List.length_cons]
  all_goals
    first
    | omega
    | (have hshorter := scanString_length _h; omega)
    | (have hshorter := (@List.dropWhile_suffix _ rest Char.isAlpha).length_le; omega)
    | (have hshorter := (@List.dropWhile_suffix _ rest isNumberChar).length_le; omega)

/-- An array or object that is still open, with what it holds so far. -/
inductive Open where
  /-- Items in reverse order. -/
  | array (items : List Json)
  /-- Members, and the key whose value is being read. -/
  | object (members : List (String × Json)) (key : String)

/-- What the automaton expects next. -/
inductive Expect where
  /-- A value. -/
  | value
  /-- A value, or the end of the array just opened. -/
  | firstItem
  /-- A key. -/
  | key (members : List (String × Json))
  /-- A key, or the end of the object just opened. -/
  | firstKey
  /-- The colon after a key. -/
  | colon (members : List (String × Json)) (key : String)
  /-- A comma or the end of the innermost open array or object, after a value. -/
  | separator (value : Json)

/-- The automaton between two tokens: the open containers, innermost first. -/
structure State where
  stack : List Open
  expect : Expect

/-- The state after the first token of a value. -/
def State.value? (state : State) (token : Token) : Option State :=
  match token with
  | .leftBrace => some ⟨state.stack, .firstKey⟩
  | .leftBracket => some ⟨.array [] :: state.stack, .firstItem⟩
  | .string s => some ⟨state.stack, .separator (.string s)⟩
  | .scalar v => some ⟨state.stack, .separator v⟩
  | _ => none

/-- One token read. -/
def State.step? (state : State) (token : Token) : Option State :=
  match state.expect, token with
  | .value, _ => state.value? token
  | .firstItem, .rightBracket => some ⟨state.stack.drop 1, .separator (.array [])⟩
  | .firstItem, _ => state.value? token
  | .key members, .string key => some ⟨state.stack, .colon members key⟩
  | .firstKey, .string key => some ⟨state.stack, .colon [] key⟩
  | .firstKey, .rightBrace => some ⟨state.stack, .separator (.object [])⟩
  | .colon members key, .colon => some ⟨.object members key :: state.stack, .value⟩
  | .separator v, .comma =>
      match state.stack with
      | .array items :: rest => some ⟨.array (v :: items) :: rest, .value⟩
      | .object members key :: rest => some ⟨rest, .key (Assoc.put key v members)⟩
      | [] => none
  | .separator v, .rightBracket =>
      match state.stack with
      | .array items :: rest => some ⟨rest, .separator (.array (v :: items).reverse)⟩
      | _ => none
  | .separator v, .rightBrace =>
      match state.stack with
      | .object members key :: rest =>
          some ⟨rest, .separator (.object (Assoc.put key v members))⟩
      | _ => none
  | _, _ => none

/-- Why a text could not be read. -/
inductive ReadError where
  /-- The text is no JSON. -/
  | malformed
  /-- The text holds an integer with too many digits. -/
  | overlong (digits : Nat)
deriving DecidableEq, Repr

/-- One token read, or what is wrong with it. -/
def State.step (state : State) (token : Token) : Except ReadError State :=
  match state.step? token with
  | some next => .ok next
  | none =>
      match state.expect, token with
      | .value, .overlong digits => .error (.overlong digits)
      | .firstItem, .overlong digits => .error (.overlong digits)
      | _, _ => .error .malformed

/-- The value that a sequence of tokens writes. -/
def ofTokens (tokens : List Token) : Except ReadError Json := do
  match ← tokens.foldlM State.step ⟨[], .value⟩ with
  | ⟨[], .separator value⟩ => return value
  | _ => throw .malformed

/-- The value that a text writes. -/
def ofText (text : String) : Except ReadError Json :=
  ofTokens (tokens text.toList)

end PropValidators.Json
