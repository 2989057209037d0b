import PropValidators.Ast.Display
import PropValidators.Fault

/-!
# Names in syntax trees

Reading names off nodes: the dotted name of an identifier or a qualified name, the
plain name of a property key, the names of type parameters and the type arguments
at a node.  Type arguments are found under either of the two keys in use for them.

In a tree that has been changed a node may stand in the place of a name.  It is no name,
and it cannot be a key either: what keeps things by their names stops there.
-/

namespace PropValidators.Ast

/-- Whether a character may start an identifier. -/
def isIdentifierStart (c : Char) : Bool :=
  c.isAlpha || c == '_' || c == '$'

/-- Whether a character may stand in an identifier. -/
def isIdentifierPart (c : Char) : Bool :=
  c.isAlphanum || c == '_' || c == '$'

/-- Drop one final line break. -/
def dropFinalNewline (cs : List Char) : List Char :=
  if cs.getLast? = some '\n' then cs.dropLast else cs

/-- Whether a text is written as a bare identifier: ASCII letters, digits,
underscores and dollar signs, not starting with a digit.  A final line break is
disregarded. -/
def isIdentifierName (name : String) : Bool :=
  match dropFinalNewline name.toList with
  | [] => false
  | c :: cs => isIdentifierStart c && cs.all isIdentifierPart

namespace Node

/-- The node in the place of the name of an identifier. -/
def misnamed? (n : Node) : Option Node :=
  if n.kind = .identifier then n.child? "name" else none

/-- The dotted name of an identifier or a qualified name.  A qualified name with an
empty part has no name.  A node in the place of a part is written as text. -/
def entityName? (n : Node) : Option String :=
  match n.kind with
  | .identifier => n.text? "name"
  | .qualifiedName =>
      match _hleft : n.child? "left", _hright : n.child? "right" with
      | some left, some right =>
          match left.entityName? <|> left.misnamed?.map inText,
              right.entityName? <|> right.misnamed?.map inText with
          | some l, some r => if l = "" ∨ r = "" then none else some (l ++ "." ++ r)
          | _, _ => none
      | _, _ => none
  | _ => none
termination_by n
decreasing_by
  · exact sizeOf_child? _hleft
  · exact sizeOf_child? _hright

/-- The dotted name of a node, or the text of what stands in its place. -/
def entityText? (n : Node) : Option String :=
  n.entityName? <|> n.misnamed?.map inText

/-- The plain name that a node gives as a property key: that of an identifier or
of a string literal. -/
def plainKey? (n : Node) : Option String :=
  match n.kind with
  | .identifier => n.text? "name"
  | .stringLiteral => n.text? "value"
  | _ => none

/-- The node in the place of the plain name that a property key would give. -/
def miskeyed? (n : Node) : Option Node :=
  match n.kind with
  | .identifier => n.child? "name"
  | .stringLiteral => n.child? "value"
  | _ => none

/-- The plain name of a property key; a computed key has none. -/
def keyName? (key : Node) (computed : Bool) : Option String :=
  if computed then none else key.plainKey?

/-- The plain name of a property, member or signature with a `key` field. -/
def propertyName? (n : Node) : Option String :=
  (n.child? "key").bind fun key => key.keyName? (n.flag "computed")

/-- The value that holds the type arguments of a node: for a class those of its
superclass. -/
def typeArgumentsValue? (n : Node) : Option Value :=
  if n.kind = .classDeclaration then
    n.attribute? "super_type_parameters" <|> n.attribute? "superTypeArguments"
  else n.attribute? "type_parameters" <|> n.attribute? "typeArguments"

/-- The type arguments written at a node.  They are nodes, unless something else was put
in the place of their list. -/
def typeArguments (n : Node) : List Value :=
  match n.typeArgumentsValue? with
  | some (.node list) => if list.kind = .typeArguments then list.items "params" else []
  | _ => []

/-- The type parameters that a declaration introduces. -/
def typeParameters (declaration : Node) : List Node :=
  match declaration.attribute? "type_parameters" with
  | some (.node list) =>
      if list.kind = .typeParameters then
        (list.children "params").filter fun p => p.kind = .typeParameter
      else []
  | _ => []

/-- The name of a type parameter. -/
def parameterName (parameter : Node) : String :=
  match parameter.get? "name" with
  | some (.node name) => name.entityName?.getD ""
  | some value => value.text?.getD ""
  | none => ""

/-- The names of the type parameters that a declaration introduces. -/
def typeParameterNames (declaration : Node) : List String :=
  declaration.typeParameters.map parameterName

/-- The fault of keeping something by what stands in the place of a name, if that is a
node. -/
def keyFault? (misplaced : Option Node) : Option Fault :=
  misplaced.map fun m => .misused .keyed m.kind.modelName

/-- The fault of keeping something by the dotted name of a node. -/
def entityFault? (n : Node) : Option Fault :=
  keyFault? n.misnamed?

/-- The fault of keeping a property, member or signature by its plain name. -/
def propertyFault? (n : Node) : Option Fault :=
  if n.flag "computed" then none else keyFault? ((n.child? "key").bind miskeyed?)

/-- The fault of binding the type parameters of a declaration by their names. -/
def typeParameterFault? (declaration : Node) : Option Fault :=
  declaration.typeParameters.findSome? fun parameter =>
    (parameter.child? "name").bind entityFault?

/-- The fault of looking up a keyword type by its type, or any other node whose meaning is
told by its type alone. -/
def typeFault? (n : Node) : Option Fault :=
  keyFault? (n.child? "type")

/-- A type annotation without its wrapper. -/
def unwrapped (n : Node) : Node :=
  if n.kind = .annotatedType then (n.child? "typeAnnotation").getD n else n

/-- A type argument is smaller than the node. -/
theorem sizeOf_typeArguments {n argument : Node} {value : Value}
    (hvalue : value ∈ n.typeArguments) (hnode : value.node? = some argument) :
    sizeOf argument < sizeOf n := by
  unfold typeArguments at hvalue
  split at hvalue
  · rename_i list hheld
    split at hvalue
    · have hargument := sizeOf_item hvalue hnode
      have hlist : sizeOf (Value.node list) < sizeOf n := by
        unfold typeArgumentsValue? at hheld
        split at hheld <;>
          · simp only [Option.orElse_eq_orElse, Option.orElse_eq_or,
              Option.or_eq_some_iff] at hheld
            rcases hheld with hheld | ⟨-, hheld⟩ <;> exact sizeOf_attribute? hheld
      simp only [Value.node.sizeOf_spec] at hlist
      omega
    · simp at hvalue
  · simp at hvalue

end Node

end PropValidators.Ast
