import PropValidators.Text.Printable

/-!
# Quoted text

Two ways of quoting a string.  The double-quoted form is that of JSON and of
string literals in generated code; it can be kept to ASCII, in which case every
other character is written as one or two UTF-16 units.  The displayed form is
the one of log messages and listings: single quotes by preference, and escapes
only for characters that do not print.
-/

namespace PropValidators.Text

/-- The hexadecimal digits of a number, padded with zeros to a width. -/
def hex (width n : Nat) : List Char :=
  let digits := Nat.toDigits 16 n
  List.replicate (width - digits.length) '0' ++ digits

/-- Which characters the double-quoted form may hold unescaped. -/
inductive Charset where
  | ascii
  | unicode
deriving DecidableEq

/-- The UTF-16 units of a character. -/
def utf16Units (c : Char) : List Nat :=
  if c.toNat < 0x10000 then [c.toNat]
  else [0xD800 + (c.toNat - 0x10000) / 0x400, 0xDC00 + (c.toNat - 0x10000) % 0x400]

/-- A character as a sequence of `\u` escapes. -/
def unitEscapes (c : Char) : List Char :=
  (utf16Units c).flatMap fun unit => '\\' :: 'u' :: hex 4 unit

/-- One character of a double-quoted string. -/
def doubleQuotedChar (charset : Charset) (c : Char) : List Char :=
  if c = '"' then ['\\', '"']
  else if c = '\\' then ['\\', '\\']
  else if c = '\n' then ['\\', 'n']
  else if c = '\r' then ['\\', 'r']
  else if c = '\t' then ['\\', 't']
  else if c.toNat = 0x0C then ['\\', 'f']
  else if c.toNat = 0x08 then ['\\', 'b']
  else if c.toNat < 0x20 then unitEscapes c
  else if charset = .ascii ∧ 0x7F ≤ c.toNat then unitEscapes c
  else [c]

/-- The double-quoted form of a string. -/
def doubleQuoted (charset : Charset) (s : String) : String :=
  String.ofList ('"' :: s.toList.flatMap (doubleQuotedChar charset) ++ ['"'])

/-- One character of the displayed form between the given quotes. -/
def displayedChar (quote c : Char) : List Char :=
  if c = quote ∨ c = '\\' then ['\\', c]
  else if c = '\n' then ['\\', 'n']
  else if c = '\r' then ['\\', 'r']
  else if c = '\t' then ['\\', 't']
  else if isPrintable c then [c]
  else if c.toNat < 0x100 then '\\' :: 'x' :: hex 2 c.toNat
  else if c.toNat < 0x10000 then '\\' :: 'u' :: hex 4 c.toNat
  else '\\' :: 'U' :: hex 8 c.toNat

/-- The displayed form of a string.  Double quotes are used only around text
that holds a single quote and no double quote. -/
def displayed (s : String) : String :=
  let cs := s.toList
  let quote := if cs.contains '\'' && !cs.contains '"' then '"' else '\''
  String.ofList (quote :: cs.flatMap (displayedChar quote) ++ [quote])

/-- The displayed form of a list of strings. -/
def displayedList (items : List String) : String :=
  "[" ++ ", ".intercalate (items.map displayed) ++ "]"

end PropValidators.Text
