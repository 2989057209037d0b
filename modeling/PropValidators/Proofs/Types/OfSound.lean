import PropValidators.Proofs.Syntax.Parts

/-!
# Types of sound nodes

What a sound node says as a type, without the faults that only a changed tree can have: one
equation for every kind of node that stands for a type.
-/

namespace PropValidators

open Ast

theorem misvalued?_of_sound {n : Node} (sound : n.Sound) : misvalued? n = none := by
  rw [misvalued?]
  split
  · rename_i kindEq
    have specEq : n.kind.specOfKey? "value" = some ⟨"value", "value", .text⟩ :=
      Node.specOfKey?_of_kind kindEq rfl
    exact sound.child?_eq_none specEq rfl
  · rename_i kindEq
    have specEq : n.kind.specOfKey? "value" = some ⟨"value", "value", .number⟩ :=
      Node.specOfKey?_of_kind kindEq rfl
    exact sound.child?_eq_none specEq rfl
  · rename_i kindEq
    have specEq : n.kind.specOfKey? "value" = some ⟨"value", "value", .flag⟩ :=
      Node.specOfKey?_of_kind kindEq rfl
    exact sound.child?_eq_none specEq rfl
  · rfl

private theorem sound_of_negated? {n argument : Node} (sound : n.Sound)
    (negated : negated? n = some argument) : argument.Sound := by
  rw [negated?] at negated
  split at negated
  · rw [Option.filter_eq_some_iff, Option.bind_eq_some_iff] at negated
    obtain ⟨⟨value, held, node⟩, -⟩ := negated
    exact sound.of_attribute? (Node.eq_node_of_node? node ▸ held)
  · cases negated

theorem negationFault?_of_sound {n : Node} (sound : n.Sound) : negationFault? n = none := by
  rw [negationFault?]
  cases negated : negated? n with
  | none => rfl
  | some argument =>
      rw [Option.bind_some, misvalued?_of_sound (sound_of_negated? sound negated)]
      rfl

theorem ofLiteral_of_sound {n : Node} (sound : n.Sound) :
    TypeExpr.ofLiteral n =
      match literalValue? n with
      | some value => .literal value
      | none =>
          if n.hasType "TemplateLiteral" ∨ n.hasType "TSTemplateLiteralType" then .template
          else .untold := by
  rw [TypeExpr.ofLiteral, negationFault?_of_sound sound, misvalued?_of_sound sound]
  cases literalValue? n <;> rfl

theorem misvaluedLiteral?_of_sound {n : Node} (sound : n.Sound) : misvaluedLiteral? n = none := by
  rw [misvaluedLiteral?]
  split
  · cases childEq : n.child? "literal" with
    | none => rfl
    | some value => exact misvalued?_of_sound (sound.of_child? childEq)
  · rfl

private theorem memberFault?_of_sound {n : Node} (sound : n.Sound) : memberFault? n = none := by
  rw [memberFault?, sound.propertyFault?_eq_none, ite_self]

theorem memberName?_of_sound {n : Node} (sound : n.Sound) : memberName? n = n.propertyName? := by
  rw [memberName?, sound.propertyFault?_eq_none]
  simp

theorem findSome?_memberFault?_of_sound {nodes : List Node} (sound : ∀ n ∈ nodes, n.Sound) :
    nodes.findSome? memberFault? = none :=
  List.findSome?_eq_none_iff.mpr fun n mem => memberFault?_of_sound (sound n mem)

theorem ofNodes_of_sound {nodes : List Node} (sound : ∀ n ∈ nodes, n.Sound) :
    TypeMember.ofNodes nodes = nodes.filterMap TypeMember.ofNode? := by
  rw [TypeMember.ofNodes, findSome?_memberFault?_of_sound sound]
  simp

private theorem unionFault?_of_sound {n : Node} (sound : n.Sound) (isUnion : n.kind = .unionType) :
    unionFault? n = none := by
  have specEq : n.kind.specOfKey? "types" = some ⟨"types", "types", .nodes⟩ :=
    Node.specOfKey?_of_kind isUnion rfl
  have noFault : ((n.children "types").filter fun type => type.kind == .keywordType).findSome?
      Node.typeFault? = none := by
    rw [List.findSome?_eq_none_iff]
    intro type mem
    exact (sound.of_mem_children (List.mem_filter.mp mem).1).typeFault?_eq_none
  rw [unionFault?, noFault, sound.child?_eq_none specEq rfl]
  rfl

theorem alternativesFault?_of_sound {nodes : List Node} (sound : ∀ n ∈ nodes, n.Sound) :
    alternativesFault? (nodes.map .node) = none := by
  have noLiteral : (nodes.map Value.node).findSome?
      (fun type => type.node?.bind misvaluedLiteral?) = none := by
    rw [List.findSome?_eq_none_iff]
    intro value mem
    obtain ⟨n, nMem, rfl⟩ := List.mem_map.mp mem
    exact misvaluedLiteral?_of_sound (sound n nMem)
  rw [alternativesFault?, noLiteral]
  rfl

/-- Knowing that items are in a list makes no difference to what is made of them. -/
theorem map_attach_eq {α β : Type} {items : List α} {each : {a // a ∈ items} → β} (make : α → β)
    (eq : ∀ a, each a = make a.1) : items.attach.map each = items.map make := by
  conv_rhs => rw [← List.attach_map_subtype_val items, List.map_map]
  exact List.map_congr_left fun a _ => eq a

theorem filterMap_attach_eq {α β : Type} {items : List α} {each : {a // a ∈ items} → Option β}
    (make : α → Option β) (eq : ∀ a, each a = make a.1) :
    items.attach.filterMap each = items.filterMap make := by
  conv_rhs => rw [← List.attach_map_subtype_val items, List.filterMap_map]
  exact List.filterMap_congr fun a _ => eq a

/-- What one alternative of a union or one element of a tuple is read as, if its value can be
told. -/
def alternative? (ofNode : Node → TypeExpr) (value : Value) : Option TypeExpr :=
  match value.node? with
  | some n => if (misvaluedLiteral? n).isSome then none else some (ofNode n)
  | none => some (.malformed .notANode)

/-- All alternatives are read when all of them are sound nodes. -/
theorem filterMap_alternative? {ofNode : Node → TypeExpr} {nodes : List Node}
    (sound : ∀ n ∈ nodes, n.Sound) :
    (nodes.map Value.node).filterMap (alternative? ofNode) = nodes.map ofNode := by
  rw [List.filterMap_map, ← List.filterMap_eq_map]
  apply List.filterMap_congr
  intro n mem
  simp [alternative?, Value.node?, misvaluedLiteral?_of_sound (sound n mem)]

theorem ofAlternatives_eq (n : Node) :
    TypeExpr.ofAlternatives n =
      (n.items "types").filterMap (alternative? TypeExpr.ofNode) ++
        (alternativesFault? (n.items "types")).toList.map .malformed := by
  rw [TypeExpr.ofAlternatives]
  congr 1
  apply filterMap_attach_eq
  rintro ⟨value, mem⟩
  cases value <;> rfl

theorem ofElements_eq (n : Node) :
    TypeExpr.ofElements n =
      (n.items "elementTypes").filterMap (alternative? TypeExpr.ofElement) ++
        (alternativesFault? (n.items "elementTypes")).toList.map .malformed := by
  rw [TypeExpr.ofElements]
  congr 1
  apply filterMap_attach_eq
  rintro ⟨value, mem⟩
  cases value <;> rfl

/-- The alternatives of a union are the types of the nodes in it. -/
theorem ofAlternatives_of_sound {n : Node} (sound : n.Sound) (isUnion : n.kind = .unionType) :
    TypeExpr.ofAlternatives n = (n.children "types").map TypeExpr.ofNode := by
  have specEq : n.kind.specOfKey? "types" = some ⟨"types", "types", .nodes⟩ :=
    Node.specOfKey?_of_kind isUnion rfl
  have childrenSound : ∀ type ∈ n.children "types", type.Sound := fun _ => sound.of_mem_children
  rw [ofAlternatives_eq, sound.items_eq_map_node specEq rfl, filterMap_alternative? childrenSound,
    alternativesFault?_of_sound childrenSound]
  simp

/-- The elements of a tuple are the types of the nodes in it. -/
theorem ofElements_of_sound {n : Node} (sound : n.Sound) (isTuple : n.kind = .tupleType) :
    TypeExpr.ofElements n = (n.children "elementTypes").map TypeExpr.ofElement := by
  have specEq : n.kind.specOfKey? "elementTypes" =
      some ⟨"elementTypes", "element_types", .nodes⟩ :=
    Node.specOfKey?_of_kind isTuple rfl
  have childrenSound : ∀ element ∈ n.children "elementTypes", element.Sound :=
    fun _ => sound.of_mem_children
  rw [ofElements_eq, sound.items_eq_map_node specEq rfl, filterMap_alternative? childrenSound,
    alternativesFault?_of_sound childrenSound]
  simp

/-- What a node is read as by its kind, when no node in it is in the place of something else. -/
def TypeExpr.ofSound (n : Node) : TypeExpr :=
  match n.kind with
  | .annotatedType => .annotated (TypeExpr.ofChild n "typeAnnotation")
  | .keywordType => TypeExpr.ofKeyword n.type
  | .typeReference =>
      .reference ((n.child? "typeName").bind Node.entityName?)
        (n.typeArguments.map TypeExpr.ofValue)
  | .typeLiteral => .object ((n.children "members").filterMap TypeMember.ofNode?)
  | .arrayType => .array (TypeExpr.ofChild n "elementType")
  | .tupleType => .tuple ((n.children "elementTypes").map TypeExpr.ofElement)
  | .unionType => .union ((n.children "types").map TypeExpr.ofNode)
  | .intersectionType => .intersection ((n.children "types").map TypeExpr.ofNode)
  | .literalType =>
      match n.child? "literal" with
      | some value => TypeExpr.ofLiteral value
      | none => .untold
  | .parenthesizedType => .parenthesized (TypeExpr.ofChild n "typeAnnotation")
  | .typeOperator =>
      if n.text? "operator" = some "keyof" then .keyof (TypeExpr.ofChild n "typeAnnotation")
      else .modified (TypeExpr.ofChild n "typeAnnotation")
  | _ =>
      if n.type = "TSFunctionType" ∨ n.type = "TSConstructorType" then .function
      else .untold

theorem ofNode_of_sound {n : Node} (sound : n.Sound) :
    TypeExpr.ofNode n = TypeExpr.ofSound n := by
  rw [TypeExpr.ofNode]
  split
  · rename_i kindEq
    rw [TypeExpr.ofSound, kindEq]
  · rename_i kindEq
    rw [TypeExpr.ofSound, kindEq, sound.typeFault?_eq_none]
    rfl
  · rename_i kindEq
    have noFault : (n.child? "typeName").bind Node.entityFault? = none := by
      cases nameEq : n.child? "typeName" with
      | none => rfl
      | some name => exact (sound.of_child? nameEq).entityFault?_eq_none
    rw [TypeExpr.ofSound, kindEq, noFault]
    dsimp only
    congr 1
    apply map_attach_eq
    rintro ⟨value, mem⟩
    cases value <;> rfl
  · rename_i kindEq
    rw [TypeExpr.ofSound, kindEq, findSome?_memberFault?_of_sound fun _ => sound.of_mem_children]
    dsimp only
    rw [Option.toList_none, List.map_nil, List.append_nil]
    congr 1
    apply filterMap_attach_eq
    rintro ⟨member, mem⟩
    rfl
  · rename_i kindEq
    rw [TypeExpr.ofSound, kindEq]
  · rename_i kindEq
    rw [TypeExpr.ofSound, kindEq, ofElements_of_sound sound kindEq]
  · rename_i kindEq
    rw [TypeExpr.ofSound, kindEq, unionFault?_of_sound sound kindEq]
    dsimp only
    rw [ofAlternatives_of_sound sound kindEq]
  · rename_i kindEq
    have specEq : n.kind.specOfKey? "types" = some ⟨"types", "types", .nodes⟩ :=
      Node.specOfKey?_of_kind kindEq rfl
    rw [TypeExpr.ofSound, kindEq]
    dsimp only
    congr 1
    rw [map_attach_eq TypeExpr.ofValue, sound.items_eq_map_node specEq rfl, List.map_map]
    · rfl
    · rintro ⟨value, mem⟩
      cases value <;> rfl
  · rename_i kindEq
    cases literalEq : n.child? "literal" with
    | none => rw [TypeExpr.ofSound, kindEq, literalEq]
    | some value => rw [TypeExpr.ofSound, kindEq, literalEq]
  · rename_i kindEq
    rw [TypeExpr.ofSound, kindEq]
  · rename_i kindEq
    rw [TypeExpr.ofSound, kindEq]
  · rw [TypeExpr.ofSound, sound.typeFault?_eq_none]
    dsimp only
    symm
    split <;> first | contradiction | rfl

end PropValidators
