import PropValidators.Proofs.Syntax.Outline
import PropValidators.Proofs.Types.OfSound

/-!
# Types and declarations from outlines

The names, the type and the declaration that are read off a sound node are those that are
read off its outline: none of them looks into the body of a class.  The proof follows the
ways on which types are read, from a node to the parts that matter for its kind.
-/

namespace PropValidators.Ast

open Node

/-! ## Names -/

namespace Node

@[simp]
theorem plainKey?_outline (n : Node) : n.outline.plainKey? = n.plainKey? := by
  simp [plainKey?, text?_outline]

@[simp]
theorem propertyName?_outline (n : Node) : n.outline.propertyName? = n.propertyName? := by
  rw [propertyName?, propertyName?, child?_outline (by decide), flag_outline (by decide)]
  cases n.child? "key" with
  | none => rfl
  | some key => simp only [Option.map_some, Option.bind_some, keyName?, plainKey?_outline]

/-- The name of two parts, if both of them have one. -/
def joined? : Option String → Option String → Option String
  | some left, some right =>
      if left = "" ∨ right = "" then none else some (left ++ "." ++ right)
  | _, _ => none

/-- A qualified name is put together from the names of its parts. -/
theorem entityName?_of_qualifiedName {n : Node} (sound : n.Sound)
    (qualified : n.kind = .qualifiedName) :
    n.entityName? =
      joined? ((n.child? "left").bind entityName?) ((n.child? "right").bind entityName?) := by
  rw [entityName?.eq_def, qualified]
  dsimp only
  split
  · rename_i left right leftEq rightEq
    rw [leftEq, rightEq, (sound.of_child? leftEq).misnamed?_eq_none,
      (sound.of_child? rightEq).misnamed?_eq_none]
    simp only [Option.map_none, Option.orElse_eq_orElse, Option.bind_some]
    cases left.entityName? with
    | none => rfl
    | some l => cases right.entityName? <;> rfl
  · rename_i notBoth
    cases leftEq : n.child? "left" with
    | none => rfl
    | some left =>
        cases rightEq : n.child? "right" with
        | none =>
            rw [Option.bind_some, Option.bind_none]
            cases left.entityName? <;> rfl
        | some right => exact (notBoth left right leftEq rightEq).elim

theorem entityName?_outline {n : Node} (sound : n.Sound) :
    n.outline.entityName? = n.entityName? := by
  induction sizeEq : sizeOf n using Nat.strong_induction_on generalizing n with
  | _ size ih =>
      subst sizeEq
      have part : ∀ key, key ≠ "body" →
          (n.outline.child? key).bind entityName? = (n.child? key).bind entityName? := by
        intro key ne
        rw [child?_outline ne]
        cases childEq : n.child? key with
        | none => rfl
        | some child => exact ih _ (sizeOf_child? childEq) (sound.of_child? childEq) rfl
      by_cases qualified : n.kind = .qualifiedName
      · rw [entityName?_of_qualifiedName sound qualified,
          entityName?_of_qualifiedName sound.outline ((kind_outline n).trans qualified),
          part _ (by decide), part _ (by decide)]
      · rw [entityName?.eq_def, entityName?.eq_def n, kind_outline]
        split
        · exact text?_outline (by decide) n
        · contradiction
        · rfl

/-! ## Type arguments and parameters -/

@[simp]
theorem typeArgumentsValue?_outline (n : Node) :
    n.outline.typeArgumentsValue? = n.typeArgumentsValue?.map Value.outline := by
  rw [typeArgumentsValue?, typeArgumentsValue?, kind_outline]
  split
  · rw [attribute?_outline (by decide), attribute?_outline (by decide)]
    cases n.attribute? "super_type_parameters" <;> rfl
  · rw [attribute?_outline (by decide), attribute?_outline (by decide)]
    cases n.attribute? "type_parameters" <;> rfl

theorem Sound.of_typeArgumentsValue? {n list : Node} (sound : n.Sound)
    (held : n.typeArgumentsValue? = some (.node list)) : list.Sound := by
  rw [typeArgumentsValue?] at held
  split at held <;>
    · simp only [Option.orElse_eq_orElse, Option.orElse_eq_or, Option.or_eq_some_iff] at held
      rcases held with held | ⟨-, held⟩ <;> exact sound.of_attribute? held

/-- The type arguments at a sound node are nodes. -/
theorem exists_node_of_mem_typeArguments {n : Node} (sound : n.Sound) {value : Value}
    (mem : value ∈ n.typeArguments) :
    ∃ argument : Node, value = .node argument ∧ argument.Sound := by
  rw [typeArguments] at mem
  split at mem
  · rename_i list held
    have listSound := sound.of_typeArgumentsValue? held
    split at mem
    · rename_i isList
      have specEq : list.kind.specOfKey? "params" = some ⟨"params", "params", .nodes⟩ :=
        Node.specOfKey?_of_kind isList rfl
      rw [listSound.items_eq_map_node specEq rfl] at mem
      obtain ⟨argument, argumentMem, rfl⟩ := List.mem_map.mp mem
      exact ⟨argument, rfl, listSound.of_mem_children argumentMem⟩
    · cases mem
  · cases mem

theorem typeArguments_outline {n : Node} (sound : n.Sound) :
    n.outline.typeArguments = n.typeArguments.map Value.outline := by
  rw [typeArguments, typeArguments, typeArgumentsValue?_outline]
  cases held : n.typeArgumentsValue? with
  | none => rfl
  | some value =>
      cases value with
      | list items => rfl
      | data data => rfl
      | node list =>
          have listSound := sound.of_typeArgumentsValue? held
          simp only [Option.map_some, Value.outline_node, kind_outline]
          split
          · rename_i isList
            have specEq : list.kind.specOfKey? "params" = some ⟨"params", "params", .nodes⟩ :=
              Node.specOfKey?_of_kind isList rfl
            rw [listSound.items_eq_map_node specEq rfl,
              listSound.outline.items_eq_map_node ((kind_outline list).symm ▸ specEq) rfl,
              children_outline (by decide), List.map_map, List.map_map]
            rfl
          · rfl

@[simp]
theorem typeParameters_outline (n : Node) :
    n.outline.typeParameters = n.typeParameters.map Node.outline := by
  rw [typeParameters, typeParameters, attribute?_outline (by decide)]
  cases n.attribute? "type_parameters" with
  | none => rfl
  | some value =>
      cases value with
      | list items => rfl
      | data data => rfl
      | node list =>
          simp only [Option.map_some, Value.outline_node, kind_outline]
          split
          · rw [children_outline (by decide), List.filter_map]
            congr 1
            apply List.filter_congr
            intro parameter mem
            rw [Function.comp_apply, kind_outline]
          · rfl

theorem parameterName_outline {n : Node} (sound : n.Sound) :
    parameterName n.outline = parameterName n := by
  rw [parameterName, parameterName, get?_outline (by decide)]
  cases held : n.get? "name" with
  | none => rfl
  | some value =>
      cases value with
      | list items => rfl
      | data data => rfl
      | node name =>
          have nameSound : name.Sound := (sound.fits_of_field? held).sound
          simp only [Option.map_some, Value.outline_node, entityName?_outline nameSound]

theorem Sound.of_mem_typeParameters {n parameter : Node} (sound : n.Sound)
    (mem : parameter ∈ n.typeParameters) : parameter.Sound := by
  rw [typeParameters] at mem
  split at mem
  · rename_i list held
    split at mem
    · exact (sound.of_attribute? held).of_mem_children (List.mem_filter.mp mem).1
    · cases mem
  · cases mem

theorem typeParameterNames_outline {n : Node} (sound : n.Sound) :
    n.outline.typeParameterNames = n.typeParameterNames := by
  rw [typeParameterNames, typeParameterNames, typeParameters_outline, List.map_map]
  apply List.map_congr_left
  intro parameter mem
  exact parameterName_outline (sound.of_mem_typeParameters mem)

theorem typeParameterFault?_eq_none {n : Node} (sound : n.Sound) :
    n.typeParameterFault? = none := by
  rw [typeParameterFault?, List.findSome?_eq_none_iff]
  intro parameter mem
  cases nameEq : parameter.child? "name" with
  | none => rfl
  | some name =>
      exact ((sound.of_mem_typeParameters mem).of_child? nameEq).entityFault?_eq_none

end Node

end PropValidators.Ast

namespace PropValidators

open Ast Node

/-! ## Literals -/

@[simp]
theorem negated?_outline (n : Node) : negated? n.outline = (negated? n).map Node.outline := by
  have operatorEq : (n.outline.attribute? "operator").bind Value.text? =
      (n.attribute? "operator").bind Value.text? := by
    rw [attribute?_outline (by decide)]
    cases n.attribute? "operator" with
    | none => rfl
    | some value => exact value.text?_outline
  rw [negated?, negated?, kind_outline, hasType_outline, operatorEq, attribute?_outline (by decide)]
  split
  · cases n.attribute? "argument" with
    | none => rfl
    | some value =>
        rw [Option.map_some, Option.bind_some, Option.bind_some, Value.node?_outline]
        cases value.node? with
        | none => rfl
        | some argument =>
            simp only [Option.map_some, Option.filter_some, kind_outline]
            split <;> rfl
  · rfl

@[simp]
theorem literalValue?_outline (n : Node) : literalValue? n.outline = literalValue? n := by
  rw [literalValue?, literalValue?, kind_outline]
  split
  · rw [text?_outline (by decide)]
  · rw [number?_outline (by decide)]
  · rw [flag_outline (by decide)]
  · rw [negated?_outline]
    cases negated? n with
    | none => rfl
    | some argument =>
        rw [Option.map_some, Option.bind_some, Option.bind_some, number?_outline (by decide)]

theorem ofLiteral_outline {n : Node} (sound : n.Sound) :
    TypeExpr.ofLiteral n.outline = TypeExpr.ofLiteral n := by
  simp [ofLiteral_of_sound sound.outline, ofLiteral_of_sound sound]

/-! ## Types -/

theorem ofChild_eq (n : Node) (key : String) :
    TypeExpr.ofChild n key = ((n.child? key).map TypeExpr.ofNode).getD .untold := by
  rw [TypeExpr.ofChild]
  split <;> simp [*]

theorem ofChild_outline {n : Node} {key : String} (ne : key ≠ "body")
    (parts : ∀ child, n.child? key = some child →
      TypeExpr.ofNode child.outline = TypeExpr.ofNode child) :
    TypeExpr.ofChild n.outline key = TypeExpr.ofChild n key := by
  rw [ofChild_eq, ofChild_eq, child?_outline ne]
  cases childEq : n.child? key with
  | none => rfl
  | some child => exact parts child childEq

theorem map_ofNode_outline {nodes : List Node}
    (parts : ∀ n ∈ nodes, TypeExpr.ofNode n.outline = TypeExpr.ofNode n) :
    (nodes.map Node.outline).map TypeExpr.ofNode = nodes.map TypeExpr.ofNode := by
  rw [List.map_map]
  exact List.map_congr_left parts

@[simp]
theorem tupleWrapper?_outline (n : Node) : tupleWrapper? n.outline = tupleWrapper? n := by
  simp [tupleWrapper?]

private theorem ne_body_of_tupleWrapper? {n : Node} {key : String}
    (wrapper : tupleWrapper? n = some key) : key ≠ "body" := by
  rw [tupleWrapper?] at wrapper
  rintro rfl
  split at wrapper
  · cases wrapper
  · split at wrapper
    · simp at wrapper
    · split at wrapper <;> simp at wrapper

theorem ofElement_outline {n : Node}
    (self : TypeExpr.ofNode n.outline = TypeExpr.ofNode n)
    (parts : ∀ label element, n.attribute? label = some (.node element) →
      TypeExpr.ofNode element.outline = TypeExpr.ofNode element) :
    TypeExpr.ofElement n.outline = TypeExpr.ofElement n := by
  rw [TypeExpr.ofElement, TypeExpr.ofElement, tupleWrapper?_outline]
  cases wrapper : tupleWrapper? n with
  | none => exact self
  | some label =>
      dsimp only
      rw [attribute?_outline (ne_body_of_tupleWrapper? wrapper)]
      cases held : n.attribute? label with
      | none => rfl
      | some value =>
          cases value with
          | node element => exact parts label element held
          | list items => rfl
          | data data => rfl

theorem typeMember_ofNode?_outline {n : Node}
    (parts : ∀ key child, n.child? key = some child →
      TypeExpr.ofNode child.outline = TypeExpr.ofNode child) (sound : n.Sound) :
    TypeMember.ofNode? n.outline = TypeMember.ofNode? n := by
  rw [TypeMember.ofNode?, TypeMember.ofNode?, kind_outline, memberName?_of_sound sound,
    memberName?_of_sound sound.outline, propertyName?_outline,
    ofChild_outline (by decide) (parts "typeAnnotation"), flag_outline (by decide)]

/-- The type of a sound node is that of its outline. -/
theorem ofNode_outline {n : Node} (sound : n.Sound) :
    TypeExpr.ofNode n.outline = TypeExpr.ofNode n := by
  induction sizeEq : sizeOf n using Nat.strong_induction_on generalizing n with
  | _ size ih =>
      subst sizeEq
      have ofChild : ∀ key, key ≠ "body" →
          TypeExpr.ofChild n.outline key = TypeExpr.ofChild n key := by
        intro key ne
        exact ofChild_outline ne fun child held =>
          ih _ (sizeOf_child? held) (sound.of_child? held) rfl
      have ofTypes : (n.outline.children "types").map TypeExpr.ofNode =
          (n.children "types").map TypeExpr.ofNode := by
        rw [children_outline (by decide)]
        exact map_ofNode_outline fun type mem =>
          ih _ (sizeOf_children mem) (sound.of_mem_children mem) rfl
      have ofArguments : n.outline.typeArguments.map TypeExpr.ofValue =
          n.typeArguments.map TypeExpr.ofValue := by
        rw [typeArguments_outline sound, List.map_map]
        apply List.map_congr_left
        intro value mem
        obtain ⟨argument, rfl, argumentSound⟩ := exists_node_of_mem_typeArguments sound mem
        exact ih _ (sizeOf_typeArguments mem rfl) argumentSound rfl
      have ofMembers : (n.outline.children "members").filterMap TypeMember.ofNode? =
          (n.children "members").filterMap TypeMember.ofNode? := by
        rw [children_outline (by decide), List.filterMap_map]
        apply List.filterMap_congr
        intro member mem
        have memberSound := sound.of_mem_children mem
        apply typeMember_ofNode?_outline _ memberSound
        intro key child held
        exact ih _ ((sizeOf_child? held).trans (sizeOf_children mem))
          (memberSound.of_child? held) rfl
      have ofElements : (n.outline.children "elementTypes").map TypeExpr.ofElement =
          (n.children "elementTypes").map TypeExpr.ofElement := by
        rw [children_outline (by decide), List.map_map]
        apply List.map_congr_left
        intro element mem
        have elementSound := sound.of_mem_children mem
        apply ofElement_outline (ih _ (sizeOf_children mem) elementSound rfl)
        intro label inner held
        have smaller : sizeOf inner < sizeOf element := by
          have := sizeOf_attribute? held
          simp only [Value.node.sizeOf_spec] at this
          omega
        exact ih _ (smaller.trans (sizeOf_children mem)) (elementSound.of_attribute? held) rfl
      have typeNameEq : (n.outline.child? "typeName").bind entityName? =
          (n.child? "typeName").bind entityName? := by
        rw [child?_outline (by decide)]
        cases held : n.child? "typeName" with
        | none => rfl
        | some name => exact entityName?_outline (sound.of_child? held)
      rw [ofNode_of_sound sound.outline, ofNode_of_sound sound, TypeExpr.ofSound,
        TypeExpr.ofSound, kind_outline, type_outline, typeNameEq, ofArguments, ofMembers,
        ofElements, ofTypes, ofChild _ (by decide), ofChild _ (by decide),
        text?_outline (by decide), child?_outline (by decide)]
      cases literalEq : n.child? "literal" with
      | none => rfl
      | some value =>
          have valueEq := ofLiteral_outline (sound.of_child? literalEq)
          simp only [Option.map_some, valueEq]

/-! ## Declarations -/

theorem typeMember_outline {n : Node} (sound : n.Sound) :
    TypeMember.ofNode? n.outline = TypeMember.ofNode? n :=
  typeMember_ofNode?_outline (fun _ _ held => ofNode_outline (sound.of_child? held)) sound

theorem ofBody_outline {n : Node} (sound : n.Sound) (isInterface : n.kind = .interfaceDeclaration) :
    TypeMember.ofBody n.outline = TypeMember.ofBody n := by
  have notClass : n.kind ≠ .classDeclaration := by
    rw [isInterface]
    decide
  have visible : ¬ Hidden n.kind (.declared "body") := fun hidden => notClass hidden.1
  obtain ⟨body, held, bodySound, bodyKind, -, membersEq⟩ := sound.exists_body (.inr isInterface)
  obtain ⟨outline, outlineHeld, -, -, -, outlineMembersEq⟩ :=
    sound.outline.exists_body (.inr ((kind_outline n).trans isInterface))
  rw [get?, field?_outline visible, ← get?, held] at outlineHeld
  cases outlineHeld
  have bodyVisible : ¬ Hidden body.kind (.declared "body") := by
    rw [bodyKind, if_neg notClass]
    rintro ⟨kindEq, -⟩
    cases kindEq
  have membersSound : ∀ member ∈ body.children "body", member.Sound :=
    fun _ => bodySound.of_mem_children
  have outlinesSound : ∀ member ∈ (body.children "body").map Node.outline, member.Sound := by
    intro member mem
    obtain ⟨original, originalMem, rfl⟩ := List.mem_map.mp mem
    exact (membersSound original originalMem).outline
  rw [TypeMember.ofBody, TypeMember.ofBody, membersEq, outlineMembersEq,
    children_outline_of_visible bodyVisible]
  dsimp only
  rw [ofNodes_of_sound membersSound, ofNodes_of_sound outlinesSound, List.filterMap_map]
  exact List.filterMap_congr fun member mem => typeMember_outline (membersSound member mem)

theorem map_ofValue_typeArguments_outline {n : Node} (sound : n.Sound) :
    n.outline.typeArguments.map TypeExpr.ofValue = n.typeArguments.map TypeExpr.ofValue := by
  rw [typeArguments_outline sound, List.map_map]
  apply List.map_congr_left
  intro value mem
  obtain ⟨argument, rfl, argumentSound⟩ := exists_node_of_mem_typeArguments sound mem
  exact ofNode_outline argumentSound

theorem heritage_outline {n : Node} (sound : n.Sound) :
    Heritage.ofNode? n.outline = Heritage.ofNode? n := by
  rw [Heritage.ofNode?, Heritage.ofNode?, attribute?_outline (by decide),
    map_ofValue_typeArguments_outline sound]
  cases held : n.attribute? "expression" with
  | none => rfl
  | some value =>
      cases value with
      | list items => rfl
      | data data => rfl
      | node expression =>
          have expressionSound := sound.of_attribute? held
          simp only [Option.map_some, Option.bind_some, Value.outline_node, Value.node?,
            expressionSound.entityFault?_eq_none, expressionSound.outline.entityFault?_eq_none,
            entityName?_outline expressionSound]

/-- Enum members are nodes, each with an initializer that is a sound node or absent. -/
@[simp]
theorem enumValue_outline {n : Node} :
    EnumValue.ofValue (.node n.outline) = EnumValue.ofValue (.node n) := by
  rw [EnumValue.ofValue, EnumValue.ofValue]
  simp only [Value.node?, Option.bind_some]
  rw [attribute?_outline (by decide)]
  cases n.attribute? "initializer" with
  | none => rfl
  | some value =>
      cases value with
      | list items => rfl
      | data data => rfl
      | node initializer =>
          simp only [Option.map_some, Value.outline_node, literalValue?_outline]

private theorem enumFault?_of_sound {nodes : List Node} (sound : ∀ n ∈ nodes, n.Sound) :
    enumFault? none (nodes.map Value.node) = none := by
  induction nodes with
  | nil => rfl
  | cons n nodes ih =>
      rw [List.forall_mem_cons] at sound
      rw [List.map_cons, enumFault?]
      simp only [Value.node?, Option.bind_some, ih sound.2]
      split
      · rfl
      · rename_i initializer held
        have initializerSound := sound.1.of_attribute? held
        rw [negationFault?_of_sound initializerSound, misvalued?_of_sound initializerSound]
        split <;> first | rfl | simp_all
      · rfl

theorem heritageClauses_outline {n : Node} (sound : n.Sound) :
    (n.outline.children "extends").filterMap Heritage.ofNode? =
      (n.children "extends").filterMap Heritage.ofNode? := by
  rw [children_outline (by decide), List.filterMap_map]
  exact List.filterMap_congr fun clause mem => heritage_outline (sound.of_mem_children mem)

/-- The members of a sound enum are nodes, and their values can be told. -/
theorem ofNode_of_enum {n : Node} (sound : n.Sound) (isEnum : n.kind = .enumDeclaration) :
    Declaration.ofNode n =
      .enumeration ((n.children "members").map fun member => EnumValue.ofValue (.node member)) := by
  have specEq : n.kind.specOfKey? "members" = some ⟨"members", "members", .nodes⟩ :=
    Node.specOfKey?_of_kind isEnum rfl
  rw [Declaration.ofNode, isEnum, sound.items_eq_map_node specEq rfl,
    enumFault?_of_sound fun _ => sound.of_mem_children, List.map_map]
  rfl

/-- The declaration that a sound node makes is that of its outline. -/
theorem declaration_outline {n : Node} (sound : n.Sound) (declares : isDeclaration n = true) :
    Declaration.ofNode n.outline = Declaration.ofNode n := by
  simp only [isDeclaration, Bool.or_eq_true, beq_iff_eq] at declares
  rcases declares with (isInterface | isAlias) | isEnum
  · rw [Declaration.ofNode, Declaration.ofNode, kind_outline, isInterface]
    dsimp only
    rw [typeParameterFault?_eq_none sound, typeParameterFault?_eq_none sound.outline,
      typeParameterNames_outline sound, heritageClauses_outline sound,
      ofBody_outline sound isInterface]
  · rw [Declaration.ofNode, Declaration.ofNode, kind_outline, isAlias]
    dsimp only
    rw [typeParameterFault?_eq_none sound, typeParameterFault?_eq_none sound.outline,
      typeParameterNames_outline sound, ofChild_outline (by decide) fun _ held =>
        ofNode_outline (sound.of_child? held)]
  · rw [ofNode_of_enum sound isEnum, ofNode_of_enum sound.outline ((kind_outline n).trans isEnum),
      children_outline (by decide), List.map_map]
    congr 1
    exact List.map_congr_left fun member _ => enumValue_outline

theorem declaredName?_outline {n : Node} (sound : n.Sound) :
    declaredName? n.outline = declaredName? n := by
  rw [declaredName?, declaredName?, child?_outline (by decide)]
  cases held : n.child? "id" with
  | none => rfl
  | some name => exact entityName?_outline (sound.of_child? held)

end PropValidators
