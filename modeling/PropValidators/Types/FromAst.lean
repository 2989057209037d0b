import PropValidators.Ast.Members
import PropValidators.Ast.Place
import PropValidators.Ast.Names
import PropValidators.Types.Expr

/-!
# Reading types off syntax nodes

The type expression of a node, and the declaration that an interface, alias or enum
node makes.  Nodes of every kind have a type expression; those that are no types
say nothing.

In a tree that has been changed a node may stand where a text, a number or a list was.
What cannot be read from it is `malformed`, and stands where it is met when the type is
resolved.
-/

namespace PropValidators

open Ast

/-- The types of nodes that stand for a run-time kind. -/
def primitiveTypes : List (String × PrimitiveKind) :=
  [("TSStringKeyword", .string), ("TSNumberKeyword", .number), ("TSBooleanKeyword", .boolean),
    ("TSSymbolKeyword", .symbol), ("TSObjectKeyword", .object)]

/-- The types of nodes that admit no value but null and undefined. -/
def nullishTypes : List String :=
  ["TSNullKeyword", "TSUndefinedKeyword", "TSVoidKeyword"]

/-- The type expression of a keyword type. -/
def TypeExpr.ofKeyword (type : String) : TypeExpr :=
  match primitiveTypes.lookup type with
  | some kind => .primitive kind
  | none => if nullishTypes.contains type then .nullish else .untold

/-- The numeric literal after a minus sign. -/
def negated? (n : Node) : Option Node :=
  if n.kind = .unmodelled ∧ n.hasType "UnaryExpression" ∧
      (n.attribute? "operator").bind Value.text? = some "-" then
    ((n.attribute? "argument").bind Value.node?).filter fun argument =>
      argument.kind = .numericLiteral
  else none

/-- The value of a literal node, or of a minus sign before a numeric literal. -/
def literalValue? (n : Node) : Option Literal :=
  match n.kind with
  | .stringLiteral => (n.text? "value").map .text
  | .numericLiteral => (n.number? "value").map .number
  | .booleanLiteral => some (.truth (n.flag "value"))
  | _ => (negated? n).bind fun argument => (argument.number? "value").map fun x => .number x.neg

/-- The node in the place of the value of a literal node. -/
def misvalued? (n : Node) : Option Node :=
  match n.kind with
  | .stringLiteral | .numericLiteral | .booleanLiteral => n.child? "value"
  | _ => none

/-- The fault of changing the sign of a node in the place of the value of a numeric
literal. -/
def negationFault? (n : Node) : Option Fault :=
  ((negated? n).bind misvalued?).map fun m => .misused .negated m.kind.modelName

/-- The type expression of the node in a literal type. -/
def TypeExpr.ofLiteral (n : Node) : TypeExpr :=
  match negationFault? n, misvalued? n, literalValue? n with
  | some fault, _, _ => .malformed fault
  | none, some m, _ => .malformed (.misused .literal m.kind.modelName)
  | none, none, some value => .literal value
  | none, none, none =>
      if n.hasType "TemplateLiteral" ∨ n.hasType "TSTemplateLiteralType" then .template
      else .untold

/-- The node in the place of the value of the literal in a literal type. -/
def misvaluedLiteral? (n : Node) : Option Node :=
  if n.kind = .literalType then (n.child? "literal").bind misvalued? else none

/-- The field in which an unmodelled wrapper of a tuple element holds its type. -/
def tupleWrapper? (n : Node) : Option String :=
  if n.kind ≠ .unmodelled then none
  else if n.hasType "TSNamedTupleMember" then some "elementType"
  else if n.hasType "TSOptionalType" then some "typeAnnotation"
  else none

/-- The fault of telling which alternatives of a union admit no value but null and
undefined. -/
def unionFault? (n : Node) : Option Fault :=
  (((n.children "types").filter fun type => type.kind == .keywordType).findSome?
    Node.typeFault?) <|>
  (n.child? "types").map fun m => .misused .measured m.kind.modelName

/-- The fault of telling the values of alternatives apart, one of which is a literal type
without a value. -/
def alternativesFault? (alternatives : List Value) : Option Fault :=
  Node.keyFault? (alternatives.findSome? fun type => type.node?.bind misvaluedLiteral?)

/-- The fault of keeping a field by the name of the member that declares it. -/
def memberFault? (n : Node) : Option Fault :=
  if n.kind = .propertySignature ∨ n.kind = .methodSignature then n.propertyFault? else none

/-- The name of a member; a node in its place leaves it empty. -/
def memberName? (n : Node) : Option String :=
  n.propertyName? <|> n.propertyFault?.map fun _ => ""

mutual

/-- The type expression of a node. -/
def TypeExpr.ofNode (n : Node) : TypeExpr :=
  match n.kind with
  | .annotatedType => .annotated (TypeExpr.ofChild n "typeAnnotation")
  | .keywordType => (n.typeFault?.map .malformed).getD (TypeExpr.ofKeyword n.type)
  | .typeReference =>
      match (n.child? "typeName").bind Node.entityFault? with
      | some fault => .malformed fault
      | none =>
          .reference ((n.child? "typeName").bind Node.entityName?)
            (n.typeArguments.attach.map fun ⟨argument, _⟩ =>
              match _h : argument.node? with
              | some argument => TypeExpr.ofNode argument
              | none => .malformed .notANode)
  | .typeLiteral =>
      .object
        (((n.children "members").attach.filterMap fun ⟨member, _⟩ => TypeMember.ofNode? member) ++
          ((n.children "members").findSome? memberFault?).toList.map .malformed)
  | .arrayType => .array (TypeExpr.ofChild n "elementType")
  | .tupleType => .tuple (TypeExpr.ofElements n)
  | .unionType =>
      match unionFault? n with
      | some fault => .malformed fault
      | none => .union (TypeExpr.ofAlternatives n)
  | .intersectionType =>
      .intersection ((n.items "types").attach.map fun ⟨type, _⟩ =>
        match _h : type.node? with
        | some type => TypeExpr.ofNode type
        | none => .malformed .notANode)
  | .literalType =>
      match n.child? "literal" with
      | some value => TypeExpr.ofLiteral value
      | none => .untold
  | .parenthesizedType => .parenthesized (TypeExpr.ofChild n "typeAnnotation")
  | .typeOperator =>
      if n.text? "operator" = some "keyof" then .keyof (TypeExpr.ofChild n "typeAnnotation")
      else .modified (TypeExpr.ofChild n "typeAnnotation")
  | _ =>
      match n.typeFault? with
      | some fault => .malformed fault
      | none =>
          if n.type = "TSFunctionType" ∨ n.type = "TSConstructorType" then .function else .untold
termination_by (sizeOf n, 2)
decreasing_by
  all_goals
    first
    | exact Prod.Lex.right _ (by omega)
    | exact Prod.Lex.left _ _ (Node.sizeOf_typeArguments (by assumption) _h)
    | exact Prod.Lex.left _ _ (Node.sizeOf_item (by assumption) _h)
    | exact Prod.Lex.left _ _ (Node.sizeOf_children (by assumption))

/-- The type expression of the node in a field; a field without a node says
nothing. -/
def TypeExpr.ofChild (n : Node) (key : String) : TypeExpr :=
  match _h : n.child? key with
  | some child => TypeExpr.ofNode child
  | none => .untold
termination_by (sizeOf n, 1)
decreasing_by
  exact Prod.Lex.left _ _ (Node.sizeOf_child? _h)

/-- The type expressions of the alternatives of a union.  Their values are told apart when
all of them are known. -/
def TypeExpr.ofAlternatives (n : Node) : List TypeExpr :=
  ((n.items "types").attach.filterMap fun ⟨type, _⟩ =>
    match _h : type.node? with
    | some type => if (misvaluedLiteral? type).isSome then none else some (TypeExpr.ofNode type)
    | none => some (.malformed .notANode)) ++
  (alternativesFault? (n.items "types")).toList.map .malformed
termination_by (sizeOf n, 1)
decreasing_by
  exact Prod.Lex.left _ _ (Node.sizeOf_item (by assumption) _h)

/-- The type expressions of the elements of a tuple, which are told apart likewise. -/
def TypeExpr.ofElements (n : Node) : List TypeExpr :=
  ((n.items "elementTypes").attach.filterMap fun ⟨element, _⟩ =>
    match _h : element.node? with
    | some element =>
        if (misvaluedLiteral? element).isSome then none else some (TypeExpr.ofElement element)
    | none => some (.malformed .notANode)) ++
  (alternativesFault? (n.items "elementTypes")).toList.map .malformed
termination_by (sizeOf n, 1)
decreasing_by
  exact Prod.Lex.left _ _ (Node.sizeOf_item (by assumption) _h)

/-- The type expression of a tuple element, without its label and its mark as
optional. -/
def TypeExpr.ofElement (n : Node) : TypeExpr :=
  match tupleWrapper? n with
  | none => TypeExpr.ofNode n
  | some key =>
      match _h : n.attribute? key with
      | none => .untold
      | some (.node element) => TypeExpr.ofNode element
      | some _ => .malformed .notANode
termination_by (sizeOf n, 3)
decreasing_by
  · exact Prod.Lex.right _ (by omega)
  · have := Node.sizeOf_attribute? _h
    simp only [Value.node.sizeOf_spec] at this
    exact Prod.Lex.left _ _ (by omega)

/-- The member that a node declares in an interface or object type, if it has a
plain name. -/
def TypeMember.ofNode? (n : Node) : Option TypeMember :=
  match n.kind with
  | .propertySignature =>
      (memberName? n).map fun name =>
        .property name (TypeExpr.ofChild n "typeAnnotation") (n.flag "optional")
  | .methodSignature => (memberName? n).map fun name => .method name (n.flag "optional")
  | _ => none
termination_by (sizeOf n, 2)
decreasing_by
  exact Prod.Lex.right _ (by omega)

end

/-- The type expression of something that stands where a type must be. -/
def TypeExpr.ofValue (value : Value) : TypeExpr :=
  (value.node?.map TypeExpr.ofNode).getD (.malformed .notANode)

/-- The members that nodes declare.  The fields they make are kept by their names when all of
them are known. -/
def TypeMember.ofNodes (nodes : List Node) : List TypeMember :=
  nodes.filterMap TypeMember.ofNode? ++ (nodes.findSome? memberFault?).toList.map .malformed

/-- The members that the body of an interface declares. -/
def TypeMember.ofBody (n : Node) : List TypeMember :=
  match n.members with
  | .ok nodes => TypeMember.ofNodes nodes
  | .error fault => [.malformed fault]

/-- What a heritage clause names, if it has a readable name.  The type arguments are resolved
before the name is looked up. -/
def Heritage.ofNode? (n : Node) : Option Heritage :=
  match (n.attribute? "expression").bind Value.node? with
  | none => none
  | some expression =>
      let arguments := n.typeArguments.map TypeExpr.ofValue
      match expression.entityFault?, expression.entityName? with
      | some fault, _ => some ⟨"", arguments ++ [.malformed fault]⟩
      | none, none => none
      | none, some name => if name = "" then none else some ⟨name, arguments⟩

/-- The value that an enum member has. -/
def EnumValue.ofValue (member : Value) : EnumValue :=
  match (member.node?).bind fun n => n.attribute? "initializer" with
  | none => .implicit
  | some (.node initializer) =>
      match literalValue? initializer with
      | some value => .literal value
      | none => .computed
  | some _ => .computed

/-- The fault of listing the values of enum members.  The values are told apart when all of
them are known, unless one is not.  `misplaced` is the first node met in the place of a
value. -/
def enumFault? (misplaced : Option Node) : List Value → Option Fault
  | [] => Node.keyFault? misplaced
  | member :: members =>
      match (member.node?).bind fun n => n.attribute? "initializer" with
      | none => enumFault? misplaced members
      | some (.node initializer) =>
          match negationFault? initializer, misvalued? initializer, literalValue? initializer with
          | some fault, _, _ => some fault
          | none, some m, _ => enumFault? (misplaced <|> some m) members
          | none, none, some (.truth _) => none
          | none, none, some _ => enumFault? misplaced members
          | none, none, none => none
      | some _ => none

/-- Whether a node declares a type. -/
def isDeclaration (n : Node) : Bool :=
  n.kind == .interfaceDeclaration || n.kind == .typeAlias || n.kind == .enumDeclaration

/-- The declaration that a node makes.  A node that declares no type is read as an
enum without members, and one that cannot be resolved as an alias of what cannot. -/
def Declaration.ofNode (n : Node) : Declaration :=
  match n.kind with
  | .interfaceDeclaration =>
      match n.typeParameterFault? with
      | some fault => .interface [] [] [.malformed fault]
      | none =>
          .interface n.typeParameterNames
            ((n.children "extends").filterMap Heritage.ofNode?) (TypeMember.ofBody n)
  | .typeAlias =>
      match n.typeParameterFault? with
      | some fault => .alias [] (.malformed fault)
      | none => .alias n.typeParameterNames (TypeExpr.ofChild n "typeAnnotation")
  | _ =>
      match enumFault? none (n.items "members") with
      | some fault => .alias [] (.malformed fault)
      | none => .enumeration ((n.items "members").map EnumValue.ofValue)

/-- The name under which a declaration is known, if it has one. -/
def declaredName? (n : Node) : Option String :=
  (n.child? "id").bind Node.entityName?

/-- The fault of registering declarations by their names. -/
def registrationFault? (declarations : List Node) : Option Fault :=
  declarations.findSome? fun n => (n.child? "id").bind Node.entityFault?

end PropValidators
