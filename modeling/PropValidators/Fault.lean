import PropValidators.Number.Reader
import PropValidators.Text.Quoted

/-!
# Faults

Why a computation on a syntax tree had to stop.  A tree that has only been read gives
rise to few of them; the others are met in a tree after nodes were put where texts,
numbers or lists were, and in what is asked of it.

A value that is put to a use which its kind does not allow makes a fault of its own kind
for every use, and so every use has its message.
-/

namespace PropValidators

/-- A use that only some kinds of values allow. -/
inductive Use where
  /-- To go through the items. -/
  | iterated
  /-- To count the items. -/
  | measured
  /-- To take the item at a position. -/
  | indexed
  /-- To set the item at a position. -/
  | assigned
  /-- To stand as a key. -/
  | keyed
  /-- To be one of the texts that are joined, with its position. -/
  | joined (position : Nat)
  /-- To be written as a quoted text. -/
  | quoted
  /-- To be compared with the form of a name. -/
  | matched
  /-- To give the integer part. -/
  | truncated
  /-- To change the sign. -/
  | negated
  /-- To be compared with a depth. -/
  | compared
  /-- To be the value of a literal. -/
  | literal
deriving DecidableEq, Repr

/-- The message about a value of a kind that does not allow a use. -/
def Use.message (found : String) : Use → String
  | .iterated => "'" ++ found ++ "' object is not iterable"
  | .measured => "object of type '" ++ found ++ "' has no len()"
  | .indexed => "'" ++ found ++ "' object is not subscriptable"
  | .assigned => "'" ++ found ++ "' object does not support item assignment"
  | .keyed => "unhashable type: '" ++ found ++ "'"
  | .joined position =>
      "sequence item " ++ Number.digitsText position ++ ": expected str instance, " ++ found ++
        " found"
  | .quoted => "Object of type " ++ found ++ " is not JSON serializable"
  | .matched => "expected string or bytes-like object, got '" ++ found ++ "'"
  | .truncated =>
      "int() argument must be a string, a bytes-like object or a real number, not '" ++ found ++
        "'"
  | .negated => "bad operand type for unary -: '" ++ found ++ "'"
  | .compared => "'>=' not supported between instances of 'int' and '" ++ found ++ "'"
  | .literal => "Cannot build a literal from " ++ found

/-- Why a computation had to stop. -/
inductive Fault where
  /-- Something that is no node stands where a type or an expression must be. -/
  | notANode
  /-- Something lacks what is asked for: members, arguments, or properties. -/
  | absent (field : String)
  /-- An empty value where a path must be. -/
  | noPath
  /-- A value of the named kind does not allow a use. -/
  | misused (use : Use) (found : String)
  /-- There is nothing at a position in a list. -/
  | outOfRange
  /-- There is no character at a position in a text. -/
  | outOfText
  /-- No item can be set at a position in a list. -/
  | unassignable
  /-- There is nothing under a key, which is given as it is displayed. -/
  | noKey (key : String)
  /-- A way into a tree leads to no node. -/
  | noPlace
  /-- A depth limit that is infinite. -/
  | infiniteLimit
  /-- A depth limit that is not a number. -/
  | undefinedLimit
  /-- A text with an integer of too many digits. -/
  | overlongInteger (digits : Nat)
  /-- An integer with too many digits for a text. -/
  | unwritableInteger
  /-- The character zero in a path. -/
  | zeroInPath
deriving DecidableEq, Repr

/-- The text of a fault; a value that lacks something has none. -/
def Fault.message? : Fault → Option String
  | .notANode | .absent _ | .noPath => none
  | .misused use found => some (use.message found)
  | .outOfRange => some "list index out of range"
  | .outOfText => some "string index out of range"
  | .unassignable => some "list assignment index out of range"
  | .noKey key => some key
  | .noPlace => some ""
  | .infiniteLimit => some "cannot convert float infinity to integer"
  | .undefinedLimit => some "cannot convert float NaN to integer"
  | .overlongInteger digits => some (Number.overlongMessage digits)
  | .unwritableInteger => some Number.unwritableMessage
  | .zeroInPath => some "embedded null byte"

/-- The fault of writing a number that is an integer with too many digits. -/
def Number.writingFault? (n : Number) : Option Fault :=
  if n.isUnwritable then some .unwritableInteger else none

/-- The text of a number, if it can be written. -/
def Number.written (n : Number) : Except Fault String :=
  match n.writingFault? with
  | some fault => .error fault
  | none => .ok n.text

@[simp]
theorem Number.writingFault?_eq_none_iff {n : Number} :
    n.writingFault? = none ↔ n.isUnwritable = false := by
  simp [writingFault?]

@[simp]
theorem Number.writingFault?_eq_some_iff {n : Number} {fault : Fault} :
    n.writingFault? = some fault ↔ fault = .unwritableInteger ∧ n.isUnwritable = true := by
  rw [writingFault?]
  cases n.isUnwritable <;> simp [eq_comm]

end PropValidators
