import PropValidators.Ast.Names
import PropValidators.Fault
import PropValidators.Literal

/-!
# Building syntax nodes

Nodes for expressions, TypeScript types, declarations, classes and modules.  A
property name becomes a bare identifier where its text allows that, and a string
literal otherwise.
-/

namespace PropValidators.Ast

/-- An identifier. -/
def identifier (name : String) : Node :=
  .ofDeclared "Identifier" [("name", .text name)]

/-- A string literal. -/
def stringLiteral (value : String) : Node :=
  .ofDeclared "StringLiteral" [("value", .text value)]

/-- A numeric literal. -/
def numericLiteral (value : Number) : Node :=
  .ofDeclared "NumericLiteral" [("value", .data (.number value))]

/-- A Boolean literal. -/
def booleanLiteral (value : Bool) : Node :=
  .ofDeclared "BooleanLiteral" [("value", .flag value)]

/-- The literal `null`. -/
def nullLiteral : Node :=
  .ofDeclared "NullLiteral" []

/-- The literal with a value. -/
def literal : Literal → Node
  | .text s => stringLiteral s
  | .number n => numericLiteral n
  | .truth b => booleanLiteral b

/-- The literal for a JSON constant; a container has none. -/
def constant? : Json → Except Fault Node
  | .null => .ok nullLiteral
  | .bool b => .ok (booleanLiteral b)
  | .number n => .ok (numericLiteral n)
  | .string s => .ok (stringLiteral s)
  | container => .error (.misused .literal container.kindName)

/-- The member access `object.name`. -/
def member (object : Node) (name : String) : Node :=
  .ofDeclared "MemberExpression"
    [("object", .node object), ("property", .node (identifier name)), ("computed", .flag false)]

/-- The call `callee(arguments)`. -/
def call (callee : Node) (arguments : List Node) : Node :=
  .ofDeclared "CallExpression" [("callee", .node callee), ("arguments", .nodes arguments)]

/-- An array literal with nodes and holes. -/
def arrayOf (elements : List Value) : Node :=
  .ofDeclared "ArrayExpression" [("elements", .list elements)]

/-- An array literal. -/
def array (elements : List Node) : Node :=
  .ofDeclared "ArrayExpression" [("elements", .nodes elements)]

/-- The key of a property: a bare identifier if the name can be written so, and a
string literal otherwise. -/
def propertyKey (name : String) : Node :=
  if isIdentifierName name then identifier name else stringLiteral name

/-- A property of an object literal, with its key. -/
def propertyOf (key value : Node) : Node :=
  .ofDeclared "ObjectProperty"
    [("key", .node key), ("value", .node value), ("computed", .flag false),
      ("shorthand", .flag false)]

/-- The property `name: value` of an object literal. -/
def property (name : String) (value : Node) : Node :=
  propertyOf (propertyKey name) value

/-- An object literal with the given properties. -/
def objectOf (properties : List Node) : Node :=
  .ofDeclared "ObjectExpression" [("properties", .nodes properties)]

/-- An object literal from names and values. -/
def object (entries : List (String × Node)) : Node :=
  objectOf (entries.map fun entry => property entry.1 entry.2)

/-- The class member `static name = value`, or one without a value. -/
def staticMember (name : String) (value : Value) : Node :=
  .ofDeclared "ClassProperty"
    [("key", .node (identifier name)), ("value", value), ("static", .flag true),
      ("computed", .flag false)]

/-- The class member `static name = value`. -/
def staticProperty (name : String) (value : Node) : Node :=
  staticMember name (.node value)

/-- The assignment `left = right`. -/
def assign (left right : Node) : Node :=
  .ofDeclared "AssignmentExpression"
    [("operator", .text "="), ("left", .node left), ("right", .node right)]

/-- An expression as a statement. -/
def statement (expression : Node) : Node :=
  .ofDeclared "ExpressionStatement" [("expression", .node expression)]

/-- A list of type arguments. -/
def typeArgumentList (arguments : List Node) : Node :=
  .ofDeclared "TSTypeParameterInstantiation" [("params", .nodes arguments)]

/-- The call `callee<argument>(arguments)`. -/
def genericCall (callee : String) (typeArgument : Node) (arguments : List Node) : Node :=
  .ofDeclared "CallExpression"
    [("callee", .node (identifier callee)), ("arguments", .nodes arguments),
      ("typeParameters", .node (typeArgumentList [typeArgument]))]

mutual

/-- The expression that writes a JSON value. -/
def ofJson : Json → Node
  | .null => nullLiteral
  | .bool b => booleanLiteral b
  | .number n => numericLiteral n
  | .string s => stringLiteral s
  | .array items => array (ofItems items)
  | .object members => objectOf (ofMembers members)
termination_by structural json => json

/-- The expressions that write the items of an array. -/
def ofItems : List Json → List Node
  | [] => []
  | item :: items => ofJson item :: ofItems items
termination_by structural items => items

/-- The properties that write the members of an object. -/
def ofMembers : List (String × Json) → List Node
  | [] => []
  | (name, value) :: members => property name (ofJson value) :: ofMembers members
termination_by structural members => members

end

/-- Names of keyword types and the types of their nodes. -/
def keywords : List (String × String) :=
  [("any", "TSAnyKeyword"), ("bigint", "TSBigIntKeyword"), ("boolean", "TSBooleanKeyword"),
    ("never", "TSNeverKeyword"), ("null", "TSNullKeyword"), ("number", "TSNumberKeyword"),
    ("object", "TSObjectKeyword"), ("string", "TSStringKeyword"), ("symbol", "TSSymbolKeyword"),
    ("undefined", "TSUndefinedKeyword"), ("unknown", "TSUnknownKeyword"),
    ("void", "TSVoidKeyword")]

/-- The keyword type with a name, if there is one. -/
def keyword? (name : String) : Except Fault Node :=
  match keywords.lookup name with
  | some type => .ok ⟨type, []⟩
  | none => .error (.noKey (Text.displayed name))

/-- A node that may be absent. -/
private def orNull (n : Option Node) : Value :=
  match n with
  | some n => .node n
  | none => .null

/-- A type reference, generic if there are arguments. -/
def reference (name : String) (arguments : List Node) : Node :=
  .ofDeclared "TSTypeReference"
    [("typeName", .node (identifier name)),
      ("typeParameters",
        orNull (if arguments.isEmpty then none else some (typeArgumentList arguments)))]

/-- A union type. -/
def union (types : List Node) : Node :=
  .ofDeclared "TSUnionType" [("types", .nodes types)]

/-- An intersection type. -/
def intersection (types : List Node) : Node :=
  .ofDeclared "TSIntersectionType" [("types", .nodes types)]

/-- An array type. -/
def arrayType (element : Node) : Node :=
  .ofDeclared "TSArrayType" [("elementType", .node element)]

/-- A literal type around a literal node. -/
def literalType (value : Node) : Node :=
  .ofDeclared "TSLiteralType" [("literal", .node value)]

/-- A type as an annotation. -/
def annotatedBy (type : Node) : Node :=
  .ofDeclared "TSTypeAnnotation" [("typeAnnotation", .node type)]

/-- A property signature, with its key. -/
def propertySignatureOf (key type : Node) (optional : Bool) : Node :=
  .ofDeclared "TSPropertySignature"
    [("key", .node key), ("typeAnnotation", .node (annotatedBy type)),
      ("optional", .flag optional)]

/-- A property signature. -/
def propertySignature (name : String) (type : Node) (optional : Bool) : Node :=
  propertySignatureOf (propertyKey name) type optional

/-- An object type. -/
def typeLiteral (members : List Node) : Node :=
  .ofDeclared "TSTypeLiteral" [("members", .nodes members)]

/-- A type parameter.  Its name is a text or a node. -/
def typeParameter (name : Value) : Node :=
  .ofDeclared "TSTypeParameter" [("name", name)]

/-- The type parameters with the given names; none if there are no names. -/
def typeParameterList? (names : List Value) : Option Node :=
  if names.isEmpty then none
  else some (.ofDeclared "TSTypeParameterDeclaration"
    [("params", .nodes (names.map typeParameter))])

/-- An interface declaration. -/
def interfaceDeclaration (name : String) (members : List Node) (parents : List String)
    (parameters : List Value) : Node :=
  let heritage : Value :=
    if parents.isEmpty then .null
    else .nodes (parents.map fun parent =>
      .ofDeclared "TSExpressionWithTypeArguments" [("expression", .node (identifier parent))])
  .ofDeclared "TSInterfaceDeclaration"
    [("id", .node (identifier name)), ("typeParameters", orNull (typeParameterList? parameters)),
      ("extends", heritage),
      ("body", .node (.ofDeclared "TSInterfaceBody" [("body", .nodes members)]))]

/-- A type alias. -/
def typeAlias (name : String) (type : Node) (parameters : List Value) : Node :=
  .ofDeclared "TSTypeAliasDeclaration"
    [("id", .node (identifier name)), ("typeParameters", orNull (typeParameterList? parameters)),
      ("typeAnnotation", .node type)]

/-- An enum member; without a value it has no initializer. -/
def enumMember (name : String) (value : Option Node) : Node :=
  .ofDeclared "TSEnumMember" [("id", .node (identifier name)), ("initializer", orNull value)]

/-- An enum declaration from names and values of members. -/
def enumDeclaration (name : String) (members : List (String × Option Node)) : Node :=
  .ofDeclared "TSEnumDeclaration"
    [("id", .node (identifier name)),
      ("members", .nodes (members.map fun m => enumMember m.1 m.2))]

/-- The class `class name extends superclass<propsType> { body }`. -/
def classDeclaration (name : String) (propsType : Option Node) (body : List Node)
    (superclass : String) : Node :=
  .ofDeclared "ClassDeclaration"
    [("id", .node (identifier name)), ("superClass", .node (identifier superclass)),
      ("superTypeParameters", orNull (propsType.map fun type => typeArgumentList [type])),
      ("body", .node (.ofDeclared "ClassBody" [("body", .nodes body)]))]

/-- A module. -/
def program (statements : List Node) : Node :=
  .ofDeclared "Program" [("body", .nodes statements)]

end PropValidators.Ast
