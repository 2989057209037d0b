import PropValidators.Json.Basic

/-!
# Literal values

The values that a literal type or an enum member can have.  Two notions of
equality are in use.  `equals` compares values as numbers where they are numbers,
and counts a truth value as zero or one; `same` asks in addition that the kinds
agree, so that `1`, `1.0` and `true` are three values.
-/

namespace PropValidators

/-- A literal value. -/
inductive Literal where
  | text (value : String)
  | number (value : Number)
  | truth (value : Bool)
deriving DecidableEq, Repr

namespace Literal

/-- The numeric value of a number or a truth value. -/
def number? : Literal → Option Number
  | .text _ => none
  | .number n => some n
  | .truth b => some (.int (if b then 1 else 0))

/-- Equality of values, across kinds. -/
def equals (a b : Literal) : Bool :=
  match a, b with
  | .text s, .text t => s == t
  | _, _ =>
      match a.number?, b.number? with
      | some m, some n => m.equals n
      | _, _ => false

/-- Equality of values of one kind.  Integers and binary64 numbers are different
kinds. -/
def same : Literal → Literal → Bool
  | .text s, .text t => s == t
  | .truth a, .truth b => a == b
  | .number (.int a), .number (.int b) => a == b
  | .number (.float a), .number (.float b) => a.equals b
  | _, _ => false

/-- The property name that a value stands for. -/
def propertyName : Literal → String
  | .text s => s
  | .number n => n.text
  | .truth b => if b then "True" else "False"

/-- Whether a value is an integer with too many digits for a text. -/
def isUnwritable : Literal → Bool
  | .number n => n.isUnwritable
  | _ => false

/-- A value as JSON. -/
def toJson : Literal → Json
  | .text s => .string s
  | .number n => .number n
  | .truth b => .bool b

end Literal

end PropValidators
