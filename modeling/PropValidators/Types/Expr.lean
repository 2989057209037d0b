import PropValidators.Fault
import PropValidators.Shape

/-!
# Type expressions

What a type node says, free of syntax: the forms of types that have a meaning here,
with everything else put together as `untold`.  Member lists, heritage clauses and
enum members are kept likewise, and a declaration is an interface, an alias or an
enum.
-/

namespace PropValidators

mutual

/-- A type as written. -/
inductive TypeExpr where
  /-- A keyword or global type of a run-time kind. -/
  | primitive (kind : PrimitiveKind)
  /-- One of the types `null`, `undefined` and `void`. -/
  | nullish
  /-- A function or constructor type. -/
  | function
  | literal (value : Literal)
  /-- The type of a template string. -/
  | template
  /-- A reference with its type arguments; it may lack a readable name. -/
  | reference (name : Option String) (arguments : List TypeExpr)
  /-- An object type. -/
  | object (members : List TypeMember)
  | array (element : TypeExpr)
  | tuple (elements : List TypeExpr)
  | union (alternatives : List TypeExpr)
  | intersection (operands : List TypeExpr)
  | parenthesized (inner : TypeExpr)
  /-- A type inside the wrapper that stands before annotations.  One wrapper at a
  time is looked through. -/
  | annotated (inner : TypeExpr)
  | keyof (target : TypeExpr)
  /-- A type under any other operator, which has no bearing on its shape. -/
  | modified (inner : TypeExpr)
  /-- A type that tells nothing about its values. -/
  | untold
  /-- Something that cannot be resolved, with the fault of trying to. -/
  | malformed (fault : Fault)

/-- A member of an interface or an object type that has a plain name. -/
inductive TypeMember where
  | property (name : String) (type : TypeExpr) (optional : Bool)
  | method (name : String) (optional : Bool)
  /-- Something that makes no member, with the fault of trying to. -/
  | malformed (fault : Fault)

end

instance : Inhabited TypeExpr := ⟨.untold⟩

/-- What an interface extends: a name and type arguments. -/
structure Heritage where
  name : String
  arguments : List TypeExpr

/-- The value of an enum member. -/
inductive EnumValue where
  /-- No initializer. -/
  | implicit
  | literal (value : Literal)
  /-- An initializer that is no literal. -/
  | computed

/-- A type declaration. -/
inductive Declaration where
  | interface (parameters : List String) (heritage : List Heritage) (members : List TypeMember)
  | alias (parameters : List String) (body : TypeExpr)
  | enumeration (members : List EnumValue)

namespace Declaration

/-- Whether a declaration is an interface. -/
def isInterface : Declaration → Bool
  | .interface _ _ _ => true
  | _ => false

end Declaration

namespace TypeExpr

/-- Whether a type is one of `null`, `undefined` and `void`. -/
def isNullish : TypeExpr → Bool
  | .nullish => true
  | _ => false

end TypeExpr

end PropValidators
