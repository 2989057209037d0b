/-!
# Blank characters

Two classes of blanks are used.  `isSpace` is the `White_Space` property of
Unicode.  `isBlank` adds the four information separators U+001C to U+001F,
which delimit text in the same way; source lines are trimmed with it.
-/

namespace PropValidators.Text

/-- The characters with the Unicode property `White_Space`. -/
def isSpace (c : Char) : Bool :=
  let n := c.toNat
  (9 ≤ n && n ≤ 13) || n == 0x20 || n == 0x85 || n == 0xA0 || n == 0x1680 ||
    (0x2000 ≤ n && n ≤ 0x200A) || n == 0x2028 || n == 0x2029 || n == 0x202F ||
    n == 0x205F || n == 0x3000

/-- White space and the information separators. -/
def isBlank (c : Char) : Bool :=
  isSpace c || (0x1C ≤ c.toNat && c.toNat ≤ 0x1F)

/-- Drop the characters of a class from the front. -/
def trimLeft (blank : Char → Bool) (cs : List Char) : List Char :=
  cs.dropWhile blank

/-- Drop the characters of a class from both ends. -/
def trim (blank : Char → Bool) (cs : List Char) : List Char :=
  ((cs.dropWhile blank).reverse.dropWhile blank).reverse

end PropValidators.Text
