import PropValidators.Ast.Builder
import PropValidators.Proofs.Syntax.Reading

/-!
# Modules as they are written

What a parser writes for the trees that `PropValidators.Ast.Builder` builds.  Each JSON value stands
under the name of the tree that is read from it.  Whether one of them has the same key twice comes
down to the values it is put together from.
-/

namespace PropValidators

/-- A node with its fields. -/
@[simp]
def nodeJson (type : String) (fields : List (String × Json)) : Json :=
  .object (("type", .string type) :: fields)

/-- An identifier. -/
@[simp]
def identifierJson (name : String) : Json :=
  nodeJson "Identifier" [("name", .string name)]

/-- A string literal. -/
@[simp]
def stringLiteralJson (value : String) : Json :=
  nodeJson "StringLiteral" [("value", .string value)]

/-- A numeric literal. -/
@[simp]
def numericLiteralJson (value : Int) : Json :=
  nodeJson "NumericLiteral" [("value", .number (.int value))]

/-- A Boolean literal. -/
@[simp]
def booleanLiteralJson (value : Bool) : Json :=
  nodeJson "BooleanLiteral" [("value", .bool value)]

/-- The literal `null`. -/
@[simp]
def nullLiteralJson : Json :=
  nodeJson "NullLiteral" []

/-- The member access `object.name`. -/
@[simp]
def memberJson (object : Json) (name : String) : Json :=
  nodeJson "MemberExpression"
    [("object", object), ("property", identifierJson name), ("computed", .bool false)]

/-- A property of an object literal. -/
@[simp]
def propertyOfJson (key value : Json) : Json :=
  nodeJson "ObjectProperty"
    [("key", key), ("value", value), ("computed", .bool false), ("shorthand", .bool false)]

/-- An object literal. -/
@[simp]
def objectOfJson (properties : List Json) : Json :=
  nodeJson "ObjectExpression" [("properties", .array properties)]

/-- The assignment `left = right`. -/
@[simp]
def assignJson (left right : Json) : Json :=
  nodeJson "AssignmentExpression" [("operator", .string "="), ("left", left), ("right", right)]

/-- An expression as a statement. -/
@[simp]
def statementJson (expression : Json) : Json :=
  nodeJson "ExpressionStatement" [("expression", expression)]

/-- A list of type arguments. -/
@[simp]
def typeArgumentListJson (arguments : List Json) : Json :=
  nodeJson "TSTypeParameterInstantiation" [("params", .array arguments)]

/-- The call `callee<argument>(arguments)`. -/
@[simp]
def genericCallJson (callee : String) (typeArgument : Json) (arguments : List Json) : Json :=
  nodeJson "CallExpression" [("callee", identifierJson callee), ("arguments", .array arguments),
    ("typeParameters", typeArgumentListJson [typeArgument])]

/-- A type reference without arguments. -/
@[simp]
def referenceJson (name : String) : Json :=
  nodeJson "TSTypeReference" [("typeName", identifierJson name), ("typeParameters", .null)]

/-- A type reference with arguments. -/
@[simp]
def genericReferenceJson (name : String) (arguments : List Json) : Json :=
  nodeJson "TSTypeReference"
    [("typeName", identifierJson name), ("typeParameters", typeArgumentListJson arguments)]

/-- An intersection type. -/
@[simp]
def intersectionJson (types : List Json) : Json :=
  nodeJson "TSIntersectionType" [("types", .array types)]

/-- The signature of a property that is a text. -/
@[simp]
def textSignatureJson (name : String) : Json :=
  nodeJson "TSPropertySignature" [("key", identifierJson name),
    ("typeAnnotation", nodeJson "TSTypeAnnotation"
      [("typeAnnotation", nodeJson "TSStringKeyword" [])]),
    ("optional", .bool false)]

/-- An object type. -/
@[simp]
def typeLiteralJson (members : List Json) : Json :=
  nodeJson "TSTypeLiteral" [("members", .array members)]

/-- A type alias without parameters. -/
@[simp]
def typeAliasJson (name : String) (type : Json) : Json :=
  nodeJson "TSTypeAliasDeclaration"
    [("id", identifierJson name), ("typeParameters", .null), ("typeAnnotation", type)]

/-- An enum member, with its initializer if there is one. -/
@[simp]
def enumMemberJson (name : String) (initializer : Json) : Json :=
  nodeJson "TSEnumMember" [("id", identifierJson name), ("initializer", initializer)]

/-- An enum declaration. -/
@[simp]
def enumDeclarationJson (name : String) (members : List Json) : Json :=
  nodeJson "TSEnumDeclaration" [("id", identifierJson name), ("members", .array members)]

/-- The class `class name extends Component<propsType> { body }`. -/
@[simp]
def classDeclarationJson (name : String) (propsType : Json) (body : List Json) : Json :=
  nodeJson "ClassDeclaration" [("id", identifierJson name),
    ("superClass", identifierJson "Component"),
    ("superTypeParameters", typeArgumentListJson [propsType]),
    ("body", nodeJson "ClassBody" [("body", .array body)])]

/-- A module. -/
@[simp]
def programJson (statements : List Json) : Json :=
  nodeJson "Program" [("body", .array statements)]

end PropValidators
