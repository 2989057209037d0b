import PropValidators.Proofs.Syntax.RespelledReadings

/-!
# Types and declarations in either spelling

The type that is read off a node takes in the type arguments at every depth below it, and it
takes them in either spelling.  So a respelled node has the same type, and it makes the same
declaration.
-/

namespace PropValidators

open Ast Node

variable {n m : Node}

theorem negated?_respelled (respelled : n.Respelled m) :
    Option.Rel Respelled (negated? n) (negated? m) := by
  have operatorEq : (m.attribute? "operator").bind Value.text? =
      (n.attribute? "operator").bind Value.text? := by
    have related := respelled.attribute? (show "operator" ∉ argumentLabels by decide)
    generalize n.attribute? "operator" = held at related ⊢
    generalize m.attribute? "operator" = other at related ⊢
    cases related with
    | none => rfl
    | some related => exact related.text?_eq
  have related := respelled.attribute? (show "argument" ∉ argumentLabels by decide)
  rw [negated?, negated?, respelled.kind_eq, respelled.hasType_eq, operatorEq]
  split
  · generalize n.attribute? "argument" = held at related ⊢
    generalize m.attribute? "argument" = other at related ⊢
    cases related with
    | none => exact .none
    | some related =>
        cases related with
        | list => exact .none
        | data => exact .none
        | node respelled =>
            simp only [Option.bind_some, Value.node?, Option.filter_some, respelled.kind_eq]
            split
            · exact .some respelled
            · exact .none
  · exact .none

/-- The value that a node stands for stays the same. -/
theorem literalValue?_respelled (respelled : n.Respelled m) :
    literalValue? m = literalValue? n := by
  have negated := negated?_respelled respelled
  rw [literalValue?, literalValue?, respelled.kind_eq, respelled.text?_eq (by decide),
    respelled.number?_eq (by decide), respelled.flag_eq (by decide)]
  split
  · rfl
  · rfl
  · rfl
  · generalize negated? n = held at negated ⊢
    generalize negated? m = other at negated ⊢
    cases negated with
    | none => rfl
    | some respelled =>
        rw [Option.bind_some, Option.bind_some, respelled.number?_eq (by decide)]

theorem ofLiteral_respelled (sound : n.Sound) (respelled : n.Respelled m) :
    TypeExpr.ofLiteral m = TypeExpr.ofLiteral n := by
  rw [ofLiteral_of_sound (respelled.sound sound), ofLiteral_of_sound sound,
    literalValue?_respelled respelled, respelled.hasType_eq, respelled.hasType_eq]

theorem ofChild_respelled {key : String} (respelled : n.Respelled m)
    (apart : .declared key ∉ argumentFields)
    (parts : ∀ c, n.child? key = some c → ∀ other, c.Respelled other →
      TypeExpr.ofNode other = TypeExpr.ofNode c) :
    TypeExpr.ofChild m key = TypeExpr.ofChild n key := by
  rw [ofChild_eq, ofChild_eq, respelled.map_child? apart parts]

private theorem notMem_argumentLabels_of_tupleWrapper? {label : String}
    (wrapper : tupleWrapper? n = some label) : label ∉ argumentLabels := by
  rw [tupleWrapper?] at wrapper
  split at wrapper
  · cases wrapper
  · split at wrapper
    · cases wrapper
      decide
    · split at wrapper
      · cases wrapper
        decide
      · cases wrapper

theorem ofElement_respelled (respelled : n.Respelled m)
    (self : TypeExpr.ofNode m = TypeExpr.ofNode n)
    (parts : ∀ label c, n.attribute? label = some (.node c) → ∀ other, c.Respelled other →
      TypeExpr.ofNode other = TypeExpr.ofNode c) :
    TypeExpr.ofElement m = TypeExpr.ofElement n := by
  have wrapperEq : tupleWrapper? m = tupleWrapper? n := by
    rw [tupleWrapper?, tupleWrapper?, respelled.kind_eq, respelled.hasType_eq,
      respelled.hasType_eq]
  rw [TypeExpr.ofElement, TypeExpr.ofElement, wrapperEq]
  cases wrapper : tupleWrapper? n with
  | none => exact self
  | some label =>
      have related := respelled.attribute? (notMem_argumentLabels_of_tupleWrapper? wrapper)
      have part := parts label
      dsimp only
      generalize n.attribute? label = held at related part ⊢
      generalize m.attribute? label = other at related ⊢
      cases related with
      | none => rfl
      | some related =>
          cases related with
          | node respelled => exact part _ rfl _ respelled
          | list => rfl
          | data => rfl

theorem typeMember_ofNode?_respelled (sound : n.Sound) (respelled : n.Respelled m)
    (parts : ∀ key c, n.child? key = some c → ∀ other, c.Respelled other →
      TypeExpr.ofNode other = TypeExpr.ofNode c) :
    TypeMember.ofNode? m = TypeMember.ofNode? n := by
  rw [TypeMember.ofNode?, TypeMember.ofNode?, respelled.kind_eq, memberName?_of_sound sound,
    memberName?_of_sound (respelled.sound sound), respelled.propertyName?_eq,
    ofChild_respelled respelled (by decide) (parts "typeAnnotation"),
    respelled.flag_eq (by decide)]

/-- The type that is read off a sound node stays the same. -/
theorem ofNode_respelled (sound : n.Sound) (respelled : n.Respelled m) :
    TypeExpr.ofNode m = TypeExpr.ofNode n := by
  induction sizeEq : sizeOf n using Nat.strong_induction_on generalizing n m with
  | _ size ih =>
      subst sizeEq
      have ofChild : ∀ key, .declared key ∉ argumentFields →
          TypeExpr.ofChild m key = TypeExpr.ofChild n key := fun key apart =>
        ofChild_respelled respelled apart fun c held other respelled =>
          ih _ (sizeOf_child? held) (sound.of_child? held) respelled rfl
      have ofTypes : (m.children "types").map TypeExpr.ofNode =
          (n.children "types").map TypeExpr.ofNode :=
        map_eq_of_forall₂ (respelled.children (by decide)) fun c mem other respelled =>
          ih _ (sizeOf_children mem) (sound.of_mem_children mem) respelled rfl
      have ofArguments : m.typeArguments.map TypeExpr.ofValue =
          n.typeArguments.map TypeExpr.ofValue :=
        respelled.map_typeArguments sound fun c mem other respelled => by
          obtain ⟨argument, eq, argumentSound⟩ := exists_node_of_mem_typeArguments sound mem
          cases eq
          exact ih _ (sizeOf_typeArguments mem rfl) argumentSound respelled rfl
      have ofMembers : (m.children "members").filterMap TypeMember.ofNode? =
          (n.children "members").filterMap TypeMember.ofNode? :=
        filterMap_eq_of_forall₂ (respelled.children (by decide)) fun c mem other respelled =>
          typeMember_ofNode?_respelled (sound.of_mem_children mem) respelled
            fun key d held other respelled =>
              ih _ ((sizeOf_child? held).trans (sizeOf_children mem))
                ((sound.of_mem_children mem).of_child? held) respelled rfl
      have ofElements : (m.children "elementTypes").map TypeExpr.ofElement =
          (n.children "elementTypes").map TypeExpr.ofElement :=
        map_eq_of_forall₂ (respelled.children (by decide)) fun c mem other respelled => by
          have elementSound := sound.of_mem_children mem
          apply ofElement_respelled respelled
            (ih _ (sizeOf_children mem) elementSound respelled rfl)
          intro label inner held other respelled
          have smaller : sizeOf inner < sizeOf c := by
            have := sizeOf_attribute? held
            simp only [Value.node.sizeOf_spec] at this
            omega
          exact ih _ (smaller.trans (sizeOf_children mem)) (elementSound.of_attribute? held)
            respelled rfl
      have ofName : (m.child? "typeName").bind entityName? =
          (n.child? "typeName").bind entityName? :=
        respelled.bind_child? (by decide) fun c held other respelled =>
          respelled.entityName?_eq (sound.of_child? held)
      have ofValue : (m.child? "literal").map TypeExpr.ofLiteral =
          (n.child? "literal").map TypeExpr.ofLiteral :=
        respelled.map_child? (by decide) fun c held other respelled =>
          ofLiteral_respelled (sound.of_child? held) respelled
      rw [ofNode_of_sound (respelled.sound sound), ofNode_of_sound sound, TypeExpr.ofSound,
        TypeExpr.ofSound, respelled.kind_eq, respelled.type_eq, ofName, ofArguments, ofMembers,
        ofElements, ofTypes, ofChild _ (by decide), ofChild _ (by decide),
        respelled.text?_eq (by decide)]
      generalize n.child? "literal" = held at ofValue ⊢
      generalize m.child? "literal" = other at ofValue ⊢
      cases held with
      | none =>
          cases other with
          | none => rfl
          | some => cases ofValue
      | some value =>
          cases other with
          | none => cases ofValue
          | some other => simp only [show TypeExpr.ofLiteral other = _ from Option.some.inj ofValue]

theorem map_ofValue_respelled (sound : n.Sound) (respelled : n.Respelled m) :
    m.typeArguments.map TypeExpr.ofValue = n.typeArguments.map TypeExpr.ofValue := by
  apply respelled.map_typeArguments sound
  intro c mem other respelled
  obtain ⟨argument, eq, argumentSound⟩ := exists_node_of_mem_typeArguments sound mem
  cases eq
  exact ofNode_respelled argumentSound respelled

theorem sound_of_forall₂_respelled {nodes others : List Node}
    (respelled : List.Forall₂ Respelled nodes others) (sound : ∀ c ∈ nodes, c.Sound) :
    ∀ c ∈ others, c.Sound := by
  induction respelled with
  | nil => exact sound
  | cons head _ ih =>
      rw [List.forall_mem_cons] at sound ⊢
      exact ⟨head.sound sound.1, ih sound.2⟩

theorem ofNodes_respelled {nodes others : List Node} (sound : ∀ c ∈ nodes, c.Sound)
    (respelled : List.Forall₂ Respelled nodes others) :
    TypeMember.ofNodes others = TypeMember.ofNodes nodes := by
  rw [ofNodes_of_sound sound, ofNodes_of_sound (sound_of_forall₂_respelled respelled sound)]
  apply filterMap_eq_of_forall₂ respelled
  intro c mem other respelled
  exact typeMember_ofNode?_respelled (sound c mem) respelled fun key d held other respelled =>
    ofNode_respelled ((sound c mem).of_child? held) respelled

/-- The bodies of a class or an interface and of its respelling are respelled. -/
theorem exists_body_respelled (sound : n.Sound) (respelled : n.Respelled m)
    (hasBody : n.kind = .classDeclaration ∨ n.kind = .interfaceDeclaration) :
    ∃ members others, n.members = .ok members ∧ m.members = .ok others ∧
      (∀ c ∈ members, c.Sound) ∧ List.Forall₂ Respelled members others := by
  obtain ⟨body, held, bodySound, -, -, membersEq⟩ := sound.exists_body hasBody
  obtain ⟨other, otherHeld, -, -, -, othersEq⟩ :=
    (respelled.sound sound).exists_body (respelled.kind_eq.symm ▸ hasBody)
  have related := respelled.get? (show .declared "body" ∉ argumentFields by decide)
  rw [held, otherHeld] at related
  cases related with
  | some related =>
      cases related with
      | node respelled =>
          exact ⟨_, _, membersEq, othersEq, fun c => bodySound.of_mem_children,
            respelled.children (by decide)⟩

theorem ofBody_respelled (sound : n.Sound) (respelled : n.Respelled m)
    (isInterface : n.kind = .interfaceDeclaration) :
    TypeMember.ofBody m = TypeMember.ofBody n := by
  obtain ⟨members, others, membersEq, othersEq, membersSound, each⟩ :=
    exists_body_respelled sound respelled (.inr isInterface)
  rw [TypeMember.ofBody, TypeMember.ofBody, membersEq, othersEq]
  exact ofNodes_respelled membersSound each

/-- A heritage clause names the same, with the same type arguments. -/
theorem heritage_respelled (sound : n.Sound) (respelled : n.Respelled m) :
    Heritage.ofNode? m = Heritage.ofNode? n := by
  have related := respelled.attribute? (show "expression" ∉ argumentLabels by decide)
  have partSound := fun part (held : n.attribute? "expression" = some (.node part)) =>
    sound.of_attribute? held
  rw [Heritage.ofNode?, Heritage.ofNode?, map_ofValue_respelled sound respelled]
  generalize n.attribute? "expression" = held at related partSound ⊢
  generalize m.attribute? "expression" = other at related ⊢
  cases related with
  | none => rfl
  | some related =>
      cases related with
      | list => rfl
      | data => rfl
      | @node c other respelled =>
          have cSound := partSound c rfl
          simp only [Option.bind_some, Value.node?, cSound.entityFault?_eq_none,
            (respelled.sound cSound).entityFault?_eq_none, respelled.entityName?_eq cSound]

theorem enumValue_respelled (respelled : n.Respelled m) :
    EnumValue.ofValue (.node m) = EnumValue.ofValue (.node n) := by
  have related := respelled.attribute? (show "initializer" ∉ argumentLabels by decide)
  rw [EnumValue.ofValue, EnumValue.ofValue]
  simp only [Value.node?, Option.bind_some]
  generalize n.attribute? "initializer" = held at related ⊢
  generalize m.attribute? "initializer" = other at related ⊢
  cases related with
  | none => rfl
  | some related =>
      cases related with
      | list => rfl
      | data => rfl
      | node respelled =>
          dsimp only
          rw [literalValue?_respelled respelled]

/-- The declaration that a sound node makes stays the same. -/
theorem declaration_respelled (sound : n.Sound) (declares : isDeclaration n = true)
    (respelled : n.Respelled m) : Declaration.ofNode m = Declaration.ofNode n := by
  have afterSound := respelled.sound sound
  simp only [isDeclaration, Bool.or_eq_true, beq_iff_eq] at declares
  rcases declares with (isInterface | isAlias) | isEnum
  · have namesEq : m.typeParameterNames = n.typeParameterNames :=
      respelled.typeParameterNames_eq sound (by rw [isInterface]; rfl)
    have heritageEq : (m.children "extends").filterMap Heritage.ofNode? =
        (n.children "extends").filterMap Heritage.ofNode? :=
      filterMap_eq_of_forall₂ (respelled.children (by decide)) fun c mem other respelled =>
        heritage_respelled (sound.of_mem_children mem) respelled
    rw [Declaration.ofNode, Declaration.ofNode, respelled.kind_eq, isInterface]
    dsimp only
    rw [typeParameterFault?_eq_none sound, typeParameterFault?_eq_none afterSound, namesEq,
      heritageEq, ofBody_respelled sound respelled isInterface]
  · have namesEq : m.typeParameterNames = n.typeParameterNames :=
      respelled.typeParameterNames_eq sound (by rw [isAlias]; rfl)
    have ofChild : TypeExpr.ofChild m "typeAnnotation" = TypeExpr.ofChild n "typeAnnotation" :=
      ofChild_respelled respelled (by decide) fun c held other respelled =>
        ofNode_respelled (sound.of_child? held) respelled
    rw [Declaration.ofNode, Declaration.ofNode, respelled.kind_eq, isAlias]
    dsimp only
    rw [typeParameterFault?_eq_none sound, typeParameterFault?_eq_none afterSound, namesEq, ofChild]
  · rw [ofNode_of_enum sound isEnum, ofNode_of_enum afterSound (respelled.kind_eq.trans isEnum)]
    apply congrArg Declaration.enumeration
    exact map_eq_of_forall₂ (respelled.children (by decide)) fun c mem other respelled =>
      enumValue_respelled respelled

end PropValidators
