/-!
# Kinds of syntax nodes

A module is a tree of nodes as the Babel parser writes it.  Every node names its
type; the types the library reads and writes have a kind of their own, and all
others share the kind `unmodelled`.  Several types may share a kind: all keyword
types do, class expressions are class declarations, and both spellings of a
heritage clause are one kind.

Every kind declares its fields besides the type: the key of each in the tree, its label,
and what it may hold.  The label is the name under which a position in the tree is
reported; it separates words with underscores where the key uses capitals.  A node
may have further fields, which are reported by their keys.
-/

namespace PropValidators.Ast

/-- The kinds of nodes. -/
inductive Kind where
  | file
  | program
  | exportNamedDeclaration
  | exportDefaultDeclaration
  | classDeclaration
  | classBody
  | classProperty
  | identifier
  | stringLiteral
  | numericLiteral
  | booleanLiteral
  | nullLiteral
  | objectExpression
  | objectProperty
  | objectMethod
  | spreadElement
  | memberExpression
  | callExpression
  | arrayExpression
  | assignmentExpression
  | expressionStatement
  | keywordType
  | annotatedType
  | typeArguments
  | typeParameters
  | typeParameter
  | typeReference
  | qualifiedName
  | unionType
  | intersectionType
  | typeLiteral
  | propertySignature
  | methodSignature
  | arrayType
  | tupleType
  | literalType
  | parenthesizedType
  | typeOperator
  | heritageClause
  | interfaceDeclaration
  | interfaceBody
  | typeAlias
  | enumDeclaration
  | enumMember
  | unmodelled
deriving DecidableEq, Repr

/-- What a declared field may hold. -/
inductive FieldType where
  /-- A node. -/
  | node
  /-- A node or null; may be absent. -/
  | optionalNode
  /-- A list of nodes; may be absent. -/
  | nodes
  /-- A list of nodes or null; may be absent. -/
  | optionalNodes
  /-- A list of nodes with holes; may be absent. -/
  | elements
  /-- A string. -/
  | text
  /-- A string; may be absent, which means the given one. -/
  | optionalText (default : String)
  /-- A truth value. -/
  | flag
  /-- A truth value; may be absent, which means false. -/
  | optionalFlag
  /-- A number. -/
  | number
  /-- A string or a node. -/
  | name
  /-- A node of a fixed kind, whose type may be left out. -/
  | body (kind : Kind)
deriving DecidableEq, Repr

/-- Whether a node without the field is malformed. -/
def FieldType.required : FieldType → Bool
  | .node | .text | .flag | .number | .name | .body _ => true
  | .optionalNode | .nodes | .optionalNodes | .elements | .optionalText _ | .optionalFlag =>
      false

/-- A declared field of a kind. -/
structure FieldSpec where
  /-- The key in the tree. -/
  key : String
  /-- The name under which positions are reported. -/
  label : String
  type : FieldType
deriving DecidableEq, Repr

/-- The name of a field in a node.  The two forms never mean the same field, whatever
their keys are. -/
inductive FieldName where
  /-- A field that the kind declares. -/
  | declared (key : String)
  /-- A field that the kind does not know. -/
  | unknown (key : String)
deriving DecidableEq, Repr

/-- The key under which a field is written. -/
def FieldName.key : FieldName → String
  | .declared key => key
  | .unknown key => key

namespace Kind

/-- The name of a kind, which is also the type of its nodes unless the kind has
several types. -/
def tag : Kind → String
  | .file => "File"
  | .program => "Program"
  | .exportNamedDeclaration => "ExportNamedDeclaration"
  | .exportDefaultDeclaration => "ExportDefaultDeclaration"
  | .classDeclaration => "ClassDeclaration"
  | .classBody => "ClassBody"
  | .classProperty => "ClassProperty"
  | .identifier => "Identifier"
  | .stringLiteral => "StringLiteral"
  | .numericLiteral => "NumericLiteral"
  | .booleanLiteral => "BooleanLiteral"
  | .nullLiteral => "NullLiteral"
  | .objectExpression => "ObjectExpression"
  | .objectProperty => "ObjectProperty"
  | .objectMethod => "ObjectMethod"
  | .spreadElement => "SpreadElement"
  | .memberExpression => "MemberExpression"
  | .callExpression => "CallExpression"
  | .arrayExpression => "ArrayExpression"
  | .assignmentExpression => "AssignmentExpression"
  | .expressionStatement => "ExpressionStatement"
  | .keywordType => "TSKeyword"
  | .annotatedType => "TSTypeAnnotation"
  | .typeArguments => "TSTypeParameterInstantiation"
  | .typeParameters => "TSTypeParameterDeclaration"
  | .typeParameter => "TSTypeParameter"
  | .typeReference => "TSTypeReference"
  | .qualifiedName => "TSQualifiedName"
  | .unionType => "TSUnionType"
  | .intersectionType => "TSIntersectionType"
  | .typeLiteral => "TSTypeLiteral"
  | .propertySignature => "TSPropertySignature"
  | .methodSignature => "TSMethodSignature"
  | .arrayType => "TSArrayType"
  | .tupleType => "TSTupleType"
  | .literalType => "TSLiteralType"
  | .parenthesizedType => "TSParenthesizedType"
  | .typeOperator => "TSTypeOperator"
  | .heritageClause => "TSExpressionWithTypeArguments"
  | .interfaceDeclaration => "TSInterfaceDeclaration"
  | .interfaceBody => "TSInterfaceBody"
  | .typeAlias => "TSTypeAliasDeclaration"
  | .enumDeclaration => "TSEnumDeclaration"
  | .enumMember => "TSEnumMember"
  | .unmodelled => "Opaque"

/-- The name of the model of a kind, as reported when a tree is listed. -/
def modelName (kind : Kind) : String :=
  if kind = .unmodelled then "OpaqueNode" else kind.tag

/-- All kinds. -/
def all : List Kind :=
  [.file, .program, .exportNamedDeclaration, .exportDefaultDeclaration, .classDeclaration,
    .classBody, .classProperty, .identifier, .stringLiteral, .numericLiteral, .booleanLiteral,
    .nullLiteral, .objectExpression, .objectProperty, .objectMethod, .spreadElement,
    .memberExpression, .callExpression, .arrayExpression, .assignmentExpression,
    .expressionStatement, .keywordType, .annotatedType, .typeArguments, .typeParameters,
    .typeParameter, .typeReference, .qualifiedName, .unionType, .intersectionType, .typeLiteral,
    .propertySignature, .methodSignature, .arrayType, .tupleType, .literalType,
    .parenthesizedType, .typeOperator, .heritageClause, .interfaceDeclaration, .interfaceBody,
    .typeAlias, .enumDeclaration, .enumMember, .unmodelled]

/-- The keyword types of TypeScript. -/
def keywordTypes : List String :=
  ["TSAnyKeyword", "TSBigIntKeyword", "TSBooleanKeyword", "TSIntrinsicKeyword",
    "TSNeverKeyword", "TSNullKeyword", "TSNumberKeyword", "TSObjectKeyword",
    "TSStringKeyword", "TSSymbolKeyword", "TSUndefinedKeyword", "TSUnknownKeyword",
    "TSVoidKeyword"]

/-- The kind of the nodes of a type. -/
def ofType (type : String) : Kind :=
  if keywordTypes.contains type then .keywordType
  else if type = "ClassExpression" then .classDeclaration
  else if type = "TSInterfaceHeritage" then .heritageClause
  else (all.find? fun kind => kind.tag == type).getD .unmodelled

/-- A field whose label is its key. -/
private def plain (key : String) (type : FieldType) : FieldSpec := ⟨key, key, type⟩

/-- The declared fields of a kind besides the type, in order. -/
def fields : Kind → List FieldSpec
  | .file => [plain "program" .node]
  | .program => [plain "body" .nodes]
  | .exportNamedDeclaration => [plain "declaration" .optionalNode]
  | .exportDefaultDeclaration => [plain "declaration" .node]
  | .classDeclaration =>
      [plain "id" .optionalNode, ⟨"superClass", "super_class", .optionalNode⟩,
        ⟨"superTypeParameters", "super_type_parameters", .optionalNode⟩,
        plain "body" (.body .classBody)]
  | .classBody => [plain "body" .nodes]
  | .classProperty =>
      [plain "key" .node, plain "value" .optionalNode,
        plain "static" .optionalFlag, plain "computed" .optionalFlag]
  | .identifier => [plain "name" .text]
  | .stringLiteral => [plain "value" .text]
  | .numericLiteral => [plain "value" .number]
  | .booleanLiteral => [plain "value" .flag]
  | .nullLiteral => []
  | .objectExpression => [plain "properties" .nodes]
  | .objectProperty =>
      [plain "key" .node, plain "value" .node,
        plain "computed" .optionalFlag, plain "shorthand" .optionalFlag]
  | .objectMethod =>
      [plain "kind" (.optionalText "method"), plain "key" .node,
        plain "computed" .optionalFlag]
  | .spreadElement => [plain "argument" .node]
  | .memberExpression =>
      [plain "object" .node, plain "property" .node,
        plain "computed" .optionalFlag]
  | .callExpression =>
      [plain "callee" .node, plain "arguments" .nodes,
        ⟨"typeParameters", "type_parameters", .optionalNode⟩]
  | .arrayExpression => [plain "elements" .elements]
  | .assignmentExpression =>
      [plain "operator" (.optionalText "="), plain "left" .node,
        plain "right" .node]
  | .expressionStatement => [plain "expression" .node]
  | .keywordType => []
  | .annotatedType => [⟨"typeAnnotation", "type_annotation", .node⟩]
  | .typeArguments => [plain "params" .nodes]
  | .typeParameters => [plain "params" .nodes]
  | .typeParameter => [plain "name" .name]
  | .typeReference =>
      [⟨"typeName", "type_name", .node⟩, ⟨"typeParameters", "type_parameters", .optionalNode⟩]
  | .qualifiedName => [plain "left" .node, plain "right" .node]
  | .unionType => [plain "types" .nodes]
  | .intersectionType => [plain "types" .nodes]
  | .typeLiteral => [plain "members" .nodes]
  | .propertySignature =>
      [plain "key" .node, ⟨"typeAnnotation", "type_annotation", .optionalNode⟩,
        plain "optional" .optionalFlag, plain "computed" .optionalFlag]
  | .methodSignature =>
      [plain "key" .node, plain "optional" .optionalFlag,
        plain "computed" .optionalFlag]
  | .arrayType => [⟨"elementType", "element_type", .node⟩]
  | .tupleType => [⟨"elementTypes", "element_types", .nodes⟩]
  | .literalType => [plain "literal" .node]
  | .parenthesizedType => [⟨"typeAnnotation", "type_annotation", .node⟩]
  | .typeOperator => [plain "operator" .text, ⟨"typeAnnotation", "type_annotation", .node⟩]
  | .heritageClause =>
      [plain "expression" .node, ⟨"typeParameters", "type_parameters", .optionalNode⟩]
  | .interfaceDeclaration =>
      [plain "id" .node, ⟨"typeParameters", "type_parameters", .optionalNode⟩,
        plain "extends" .optionalNodes, plain "body" (.body .interfaceBody)]
  | .interfaceBody => [plain "body" .nodes]
  | .typeAlias =>
      [plain "id" .node, ⟨"typeParameters", "type_parameters", .optionalNode⟩,
        ⟨"typeAnnotation", "type_annotation", .node⟩]
  | .enumDeclaration => [plain "id" .node, plain "members" .nodes]
  | .enumMember => [plain "id" .node, plain "initializer" .optionalNode]
  | .unmodelled => []

/-- The declared field with a key. -/
def specOfKey? (kind : Kind) (key : String) : Option FieldSpec :=
  kind.fields.find? fun spec => spec.key == key

/-- The declared field with a label. -/
def specOfLabel? (kind : Kind) (label : String) : Option FieldSpec :=
  kind.fields.find? fun spec => spec.label == label

/-- The name under which a field is reported: the label of a declared field, and the
key of an unknown one. -/
def labelOf (kind : Kind) : FieldName → String
  | .declared key => ((kind.specOfKey? key).map FieldSpec.label).getD key
  | .unknown key => key

/-- The field that a reported name stands for: the type, the declared field with that
label, or else an unknown one. -/
def nameOf (kind : Kind) (label : String) : FieldName :=
  if label = "type" then .declared "type"
  else
    match kind.specOfLabel? label with
    | some spec => .declared spec.key
    | none => .unknown label

/-- Every kind is that of the type with its name. -/
@[simp]
theorem ofType_tag (kind : Kind) : ofType kind.tag = kind := by
  cases kind <;> decide

end Kind

end PropValidators.Ast
