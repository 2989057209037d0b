import PropValidators.Types.Expr

/-!
# Referenced type names

The names of the types that a type expression refers to: its own name for a
reference together with those in its arguments, and the names of the operands of
unions and intersections.  Object types and everything else contribute nothing.
-/

namespace PropValidators

/-- A list with a name added at the end, unless it is empty or there already. -/
def addName (names : List String) (name : Option String) : List String :=
  match name with
  | none => names
  | some name => if name = "" ∨ name ∈ names then names else names ++ [name]

namespace TypeExpr

mutual

/-- The names collected so far, with those that a type refers to. -/
def collectNames (names : List String) : TypeExpr → List String
  | .reference name arguments => collectNamesOf (addName names name) arguments
  | .union types => collectNamesOf names types
  | .intersection types => collectNamesOf names types
  | .parenthesized type => collectNames names type
  | _ => names
termination_by structural type => type

/-- The names collected so far, with those that some types refer to. -/
def collectNamesOf (names : List String) : List TypeExpr → List String
  | [] => names
  | type :: types => collectNamesOf (collectNames names type) types
termination_by structural types => types

end

/-- The names that a type refers to, in order and each once.  One annotation wrapper
is looked through. -/
def referencedNames : TypeExpr → List String
  | .annotated type => collectNames [] type
  | type => collectNames [] type

end TypeExpr

end PropValidators
