import PropValidators.Proofs.Patching.Fresh
import PropValidators.Proofs.Syntax.Documents
import PropValidators.Proofs.Syntax.Expressions
import PropValidators.Proofs.Types.FromOutline
import PropValidators.Types.Resolve

/-!
# Types that are built

What the nodes for types are read as that `PropValidators.Ast.Builder` builds, each from what its
parts are read as.
-/

namespace PropValidators

open Ast

variable {key type : Node} {members types : List Node}

theorem fresh_reference (name : String) : Fresh (reference name []) :=
  fresh_ofDeclared [("typeName", .node), ("typeParameters", .optionalNode)] (by decide)
    (.cons ⟨rfl, (fresh_identifier name).freshIn⟩ (.cons ⟨rfl, freshIn_optionalNull⟩ .nil))

theorem fresh_typeLiteral (fresh : ∀ member ∈ members, Fresh member) :
    Fresh (typeLiteral members) :=
  fresh_ofDeclared [("members", .nodes)] (by decide) (.cons ⟨rfl, freshIn_nodes fresh⟩ .nil)

theorem fresh_intersection (fresh : ∀ type ∈ types, Fresh type) : Fresh (intersection types) :=
  fresh_ofDeclared [("types", .nodes)] (by decide) (.cons ⟨rfl, freshIn_nodes fresh⟩ .nil)

theorem fresh_annotatedBy (fresh : Fresh type) : Fresh (annotatedBy type) :=
  fresh_ofDeclared [("typeAnnotation", .node)] (by decide) (.cons ⟨rfl, fresh.freshIn⟩ .nil)

theorem fresh_propertySignatureOf (keyFresh : Fresh key) (typeFresh : Fresh type) :
    Fresh (propertySignatureOf key type false) :=
  fresh_ofDeclared
    [("key", .node), ("typeAnnotation", .optionalNode), ("optional", .optionalFlag)] (by decide)
    (.cons ⟨rfl, keyFresh.freshIn⟩
      (.cons ⟨rfl, (fresh_annotatedBy typeFresh).freshIn_optional⟩
        (.cons ⟨rfl, freshIn_optionalFlag false⟩ .nil)))

@[simp]
theorem children_typeLiteral (members : List Node) :
    (typeLiteral members).children "members" = members :=
  filterMap_node?_map_node members

@[simp]
theorem children_intersection (types : List Node) : (intersection types).children "types" = types :=
  filterMap_node?_map_node types

@[simp]
theorem entityName?_identifier (name : String) : (identifier name).entityName? = some name := by
  rw [Node.entityName?.eq_def]
  rfl

@[simp]
theorem entityText?_identifier (name : String) : (identifier name).entityText? = some name := by
  simp [Node.entityText?]

@[simp]
theorem ofNode_reference (name : String) :
    TypeExpr.ofNode (reference name []) = .reference (some name) [] := by
  rw [ofNode_of_sound (fresh_reference name).1]
  change TypeExpr.reference (identifier name).entityName? [] = _
  rw [entityName?_identifier]

theorem ofNode_typeLiteral (fresh : ∀ member ∈ members, Fresh member) :
    TypeExpr.ofNode (typeLiteral members) =
      .object (members.filterMap TypeMember.ofNode?) := by
  rw [ofNode_of_sound (fresh_typeLiteral fresh).1]
  change TypeExpr.object (((typeLiteral members).children "members").filterMap _) = _
  rw [children_typeLiteral]

theorem ofNode_intersection (fresh : ∀ type ∈ types, Fresh type) :
    TypeExpr.ofNode (intersection types) = .intersection (types.map TypeExpr.ofNode) := by
  rw [ofNode_of_sound (fresh_intersection fresh).1]
  change TypeExpr.intersection (((intersection types).children "types").map _) = _
  rw [children_intersection]

@[simp]
theorem ofNode_annotatedBy (fresh : Fresh type) :
    TypeExpr.ofNode (annotatedBy type) = .annotated (.ofNode type) := by
  rw [ofNode_of_sound (fresh_annotatedBy fresh).1]
  change TypeExpr.annotated (TypeExpr.ofChild (annotatedBy type) "typeAnnotation") = _
  rw [ofChild_eq]
  rfl

@[simp]
theorem ofNode?_propertySignatureOf (name : String) (fresh : Fresh type) :
    TypeMember.ofNode? (propertySignatureOf (identifier name) type false) =
      some (.property name (.annotated (.ofNode type)) false) := by
  let signature := propertySignatureOf (identifier name) type false
  have sound : signature.Sound := (fresh_propertySignatureOf (fresh_identifier name) fresh).1
  have nameEq : signature.propertyName? = some name := rfl
  have typeEq : TypeExpr.ofChild signature "typeAnnotation" = .annotated (.ofNode type) := by
    rw [ofChild_eq, ← ofNode_annotatedBy fresh]
    rfl
  change TypeMember.ofNode? signature = _
  rw [TypeMember.ofNode?, memberName?_of_sound sound, nameEq, typeEq]
  rfl

/-- The type of texts. -/
def textType : Node :=
  ⟨"TSStringKeyword", []⟩

/-- A property signature of a text. -/
def titleMember : Node :=
  propertySignature "text" textType false

/-- An object type with that property, as it is written. -/
def titledTypeJson : Json :=
  typeLiteralJson [textSignatureJson "text"]

/-- What the object type is read as. -/
def titledProps : TypeExpr :=
  .object [.property "text" (.annotated (.primitive .string)) false]

theorem fresh_textType : Fresh textType :=
  fresh_ofDeclared [] (by decide) .nil

@[simp]
theorem ofNode_textType : TypeExpr.ofNode textType = .primitive .string := by
  rw [ofNode_of_sound fresh_textType.1]
  rfl

theorem fresh_titleMember : Fresh titleMember :=
  fresh_propertySignatureOf (fresh_propertyKey "text") fresh_textType

@[simp]
theorem ofNode_titledProps : TypeExpr.ofNode (typeLiteral [titleMember]) = titledProps := by
  have memberEq : TypeMember.ofNode? titleMember =
      some (.property "text" (.annotated (.primitive .string)) false) := by
    rw [← ofNode_textType]
    exact ofNode?_propertySignatureOf "text" fresh_textType
  rw [ofNode_typeLiteral (List.forall_mem_singleton.mpr fresh_titleMember),
    List.filterMap_cons_some memberEq]
  rfl

/-- The field that the type has. -/
def titledField : Field :=
  ⟨"text", .primitive .string, false, false⟩

theorem outcome_resolveType_titledProps {context : Context} (shallow : context.tooDeep = false) :
    (resolveType context titledProps).outcome = .ok (.object [titledField]) := by
  rw [titledProps, resolveType, shallow]
  simp only [Bool.false_eq_true, if_false, Traced.outcome_bind, Traced.outcome_within,
    Traced.outcome_pure, resolveMembers, resolveNullable, resolveUnwrapped, resolveType,
    Except.bind]
  rfl

end PropValidators
