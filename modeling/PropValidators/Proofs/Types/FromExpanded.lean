import PropValidators.Proofs.Syntax.Expanded

/-!
# Types and declarations with calls expanded

A call has no meaning as a type, and neither has a literal that it is replaced by.  So the types
and the declarations that are read off a tree stay the same when calls in it are replaced, except
that a call in the place of a heritage clause or of an enum member is read as one.
-/

namespace PropValidators

open Ast Node

variable {n after : Node} {change : Slot → Node → Node}

private theorem negated?_eq_none_of_mute (mute : n.Mute) : negated? n = none := by
  rw [negated?, if_neg]
  rintro ⟨kindEq, -⟩
  rcases mute with muteEq | muteEq | muteEq | muteEq | muteEq <;>
    · rw [muteEq] at kindEq
      cases kindEq

private theorem literalValue?_eq_none_of_mute (mute : n.Mute) : literalValue? n = none := by
  have negated := negated?_eq_none_of_mute mute
  rw [literalValue?]
  rcases mute with kindEq | kindEq | kindEq | kindEq | kindEq <;>
    · rw [kindEq, negated]
      rfl

/-- A negated number stays one. -/
theorem number?_negated?_mapSlots
    (each : ∀ slot c, n.inSlot? slot = some c → Expanded c (change slot c)) :
    (negated? (n.mapSlots change)).bind (fun argument => argument.number? "value") =
      (negated? n).bind fun argument => argument.number? "value" := by
  have operatorEq : ((n.mapSlots change).attribute? "operator").bind Value.text? =
      (n.attribute? "operator").bind Value.text? := by
    have alike := alike_attribute? each "operator"
    generalize n.attribute? "operator" = held at alike ⊢
    generalize (n.mapSlots change).attribute? "operator" = heldAfter at alike ⊢
    cases alike <;> rfl
  have alike := alike_attribute? each "argument"
  rw [negated?, negated?, kind_mapSlots, hasType_mapSlots, operatorEq]
  split
  · generalize n.attribute? "argument" = held at alike ⊢
    generalize (n.mapSlots change).attribute? "argument" = heldAfter at alike ⊢
    cases alike with
    | absent => rfl
    | list => rfl
    | data => rfl
    | @node c after expanded =>
        rw [Option.bind_some, Option.bind_some, Value.node?, Value.node?, Option.filter_some,
          Option.filter_some]
        by_cases isNumber : c.kind = .numericLiteral
        · obtain ⟨change, rfl, -⟩ := expanded.within_of_kind (by rw [isNumber]; decide)
          simp only [kind_mapSlots, isNumber, decide_true, if_true, Option.bind_some,
            number?_mapSlots]
        · have notNumber : ¬after.kind = .numericLiteral :=
            fun eq => isNumber ((expanded.kind_eq_iff (by decide)).mp eq)
          simp only [isNumber, notNumber, decide_false, Bool.false_eq_true, if_false]
  · rfl

/-- The value that a node stands for stays the same. -/
theorem literalValue?_expanded (expanded : Expanded n after) :
    literalValue? after = literalValue? n := by
  cases expanded with
  | replaced isCall plain =>
      rw [literalValue?_eq_none_of_mute plain.mute, literalValue?_eq_none_of_mute (.inl isCall)]
  | within each =>
      rw [literalValue?, literalValue?, kind_mapSlots, text?_mapSlots, number?_mapSlots,
        flag_mapSlots]
      split
      · rfl
      · rfl
      · rfl
      · have same := congrArg (Option.map fun x => Literal.number x.neg)
          (number?_negated?_mapSlots each)
        rwa [Option.map_bind, Option.map_bind] at same

/-- No type of a kind that is not modelled is that of a call or of what stands for it. -/
theorem type_ne_of_mute (mute : n.Mute) {type : String}
    (unmodelled : Kind.ofType type = .unmodelled) : n.type ≠ type := by
  rintro rfl
  rcases mute with kindEq | kindEq | kindEq | kindEq | kindEq <;>
    · rw [Node.kind, unmodelled] at kindEq
      cases kindEq

private theorem hasType_eq_false_of_mute (mute : n.Mute) {type : String}
    (unmodelled : Kind.ofType type = .unmodelled) : n.hasType type = false := by
  rw [hasType, beq_eq_false_iff_ne.mpr (type_ne_of_mute mute unmodelled), Bool.false_and]

theorem hasType_expanded (expanded : Expanded n after) {type : String}
    (unmodelled : Kind.ofType type = .unmodelled) : after.hasType type = n.hasType type := by
  cases expanded with
  | replaced isCall plain =>
      rw [hasType_eq_false_of_mute plain.mute unmodelled,
        hasType_eq_false_of_mute (.inl isCall) unmodelled]
  | within each => exact hasType_mapSlots _ _ type

theorem ofLiteral_expanded (sound : n.Sound) (expanded : Expanded n after) :
    TypeExpr.ofLiteral after = TypeExpr.ofLiteral n := by
  rw [ofLiteral_of_sound (expanded.sound sound), ofLiteral_of_sound sound,
    literalValue?_expanded expanded, hasType_expanded expanded (by decide),
    hasType_expanded expanded (by decide)]

/-- A call says nothing as a type, and neither does what stands for it. -/
theorem ofNode_of_mute (sound : n.Sound) (mute : n.Mute) : TypeExpr.ofNode n = .untold := by
  have noFunction : ¬(n.type = "TSFunctionType" ∨ n.type = "TSConstructorType") :=
    not_or.mpr ⟨type_ne_of_mute mute (by decide), type_ne_of_mute mute (by decide)⟩
  rw [ofNode_of_sound sound, TypeExpr.ofSound]
  rcases mute with kindEq | kindEq | kindEq | kindEq | kindEq <;>
    · rw [kindEq]
      exact if_neg noFunction

theorem ofChild_mapSlots {key : String}
    (each : ∀ slot c, n.inSlot? slot = some c → Expanded c (change slot c))
    (same : ∀ c, n.child? key = some c → ∀ after, Expanded c after →
      TypeExpr.ofNode after = TypeExpr.ofNode c) :
    TypeExpr.ofChild (n.mapSlots change) key = TypeExpr.ofChild n key := by
  rw [ofChild_eq, ofChild_eq, map_child?_mapSlots each same]

theorem ofElement_expanded (expanded : Expanded n after)
    (self : TypeExpr.ofNode after = TypeExpr.ofNode n)
    (parts : ∀ label c, n.attribute? label = some (.node c) → ∀ other, Expanded c other →
      TypeExpr.ofNode other = TypeExpr.ofNode c) :
    TypeExpr.ofElement after = TypeExpr.ofElement n := by
  have wrapperEq : tupleWrapper? after = tupleWrapper? n := by
    simp only [tupleWrapper?, ne_eq, expanded.kind_eq_iff (show Kind.unmodelled ∉ _ by decide),
      hasType_expanded expanded (show Kind.ofType "TSNamedTupleMember" = _ by decide),
      hasType_expanded expanded (show Kind.ofType "TSOptionalType" = _ by decide)]
  rw [TypeExpr.ofElement, TypeExpr.ofElement, wrapperEq]
  cases wrapper : tupleWrapper? n with
  | none => exact self
  | some label =>
      have unmodelled : n.kind ≠ .callExpression := by
        intro isCall
        rw [tupleWrapper?, isCall, if_pos (by decide)] at wrapper
        cases wrapper
      obtain ⟨change, rfl, each⟩ := expanded.within_of_kind unmodelled
      have alike := alike_attribute? each label
      have part := parts label
      dsimp only
      generalize n.attribute? label = held at alike part ⊢
      generalize (n.mapSlots change).attribute? label = heldAfter at alike ⊢
      cases alike with
      | absent => rfl
      | node expanded => exact part _ rfl _ expanded
      | list => rfl
      | data => rfl

theorem typeMember_ofNode?_expanded (sound : n.Sound) (expanded : Expanded n after)
    (parts : ∀ key c, n.child? key = some c → ∀ other, Expanded c other →
      TypeExpr.ofNode other = TypeExpr.ofNode c) :
    TypeMember.ofNode? after = TypeMember.ofNode? n := by
  have afterSound := expanded.sound sound
  cases expanded with
  | replaced isCall plain =>
      have unread : ∀ m : Node, m.Mute → TypeMember.ofNode? m = none := by
        intro m mute
        rw [TypeMember.ofNode?]
        rcases mute with kindEq | kindEq | kindEq | kindEq | kindEq <;> rw [kindEq]
      rw [unread after plain.mute, unread n (.inl isCall)]
  | within each =>
      rw [TypeMember.ofNode?, TypeMember.ofNode?, kind_mapSlots, memberName?_of_sound sound,
        memberName?_of_sound afterSound, propertyName?_mapSlots each,
        ofChild_mapSlots each (parts "typeAnnotation"), flag_mapSlots]

/-- The type that is read off a sound node stays the same. -/
theorem ofNode_expanded (sound : n.Sound) (expanded : Expanded n after) :
    TypeExpr.ofNode after = TypeExpr.ofNode n := by
  induction sizeEq : sizeOf n using Nat.strong_induction_on generalizing n after with
  | _ size ih =>
      subst sizeEq
      have afterSound := expanded.sound sound
      cases expanded with
      | replaced isCall plain =>
          rw [ofNode_of_mute afterSound plain.mute, ofNode_of_mute sound (.inl isCall)]
      | @within n change each =>
          have ofChild : ∀ key,
              TypeExpr.ofChild (n.mapSlots change) key = TypeExpr.ofChild n key := fun key =>
            ofChild_mapSlots each fun c held after expanded =>
              ih _ (sizeOf_child? held) (sound.of_child? held) expanded rfl
          have ofTypes : ((n.mapSlots change).children "types").map TypeExpr.ofNode =
              (n.children "types").map TypeExpr.ofNode :=
            map_eq_of_forall₂ (forall₂_children each "types") fun c mem after expanded =>
              ih _ (sizeOf_children mem) (sound.of_mem_children mem) expanded rfl
          have ofArguments : (n.mapSlots change).typeArguments.map TypeExpr.ofValue =
              n.typeArguments.map TypeExpr.ofValue :=
            map_typeArguments_mapSlots sound each fun c mem after expanded => by
              obtain ⟨argument, eq, argumentSound⟩ := exists_node_of_mem_typeArguments sound mem
              cases eq
              exact ih _ (sizeOf_typeArguments mem rfl) argumentSound expanded rfl
          have ofMembers : ((n.mapSlots change).children "members").filterMap TypeMember.ofNode? =
              (n.children "members").filterMap TypeMember.ofNode? :=
            filterMap_eq_of_forall₂ (forall₂_children each "members") fun c mem after expanded =>
              typeMember_ofNode?_expanded (sound.of_mem_children mem) expanded
                fun key d held other otherExpanded =>
                  ih _ ((sizeOf_child? held).trans (sizeOf_children mem))
                    ((sound.of_mem_children mem).of_child? held) otherExpanded rfl
          have ofElements : ((n.mapSlots change).children "elementTypes").map TypeExpr.ofElement =
              (n.children "elementTypes").map TypeExpr.ofElement :=
            map_eq_of_forall₂ (forall₂_children each "elementTypes") fun c mem after expanded => by
              have elementSound := sound.of_mem_children mem
              refine ofElement_expanded expanded
                (ih _ (sizeOf_children mem) elementSound expanded rfl) ?_
              intro label inner held other otherExpanded
              have smaller : sizeOf inner < sizeOf c := by
                have := sizeOf_attribute? held
                simp only [Value.node.sizeOf_spec] at this
                omega
              exact ih _ (smaller.trans (sizeOf_children mem)) (elementSound.of_attribute? held)
                otherExpanded rfl
          have ofName : ((n.mapSlots change).child? "typeName").bind entityName? =
              (n.child? "typeName").bind entityName? :=
            bind_child?_mapSlots each fun c held after expanded =>
              entityName?_expanded (sound.of_child? held) expanded
          rw [ofNode_of_sound afterSound, ofNode_of_sound sound, TypeExpr.ofSound,
            TypeExpr.ofSound, kind_mapSlots, type_mapSlots, ofName, ofArguments, ofMembers,
            ofElements, ofTypes, ofChild, ofChild, text?_mapSlots, child?_mapSlots _ _ "literal"]
          cases literalEq : n.child? "literal" with
          | none => rfl
          | some value =>
              have expanded := each ⟨.declared "literal", none⟩ value literalEq
              simp only [Option.map_some, ofLiteral_expanded (sound.of_child? literalEq) expanded]

theorem map_ofValue_expanded (sound : n.Sound)
    (each : ∀ slot c, n.inSlot? slot = some c → Expanded c (change slot c)) :
    (n.mapSlots change).typeArguments.map TypeExpr.ofValue =
      n.typeArguments.map TypeExpr.ofValue := by
  refine map_typeArguments_mapSlots sound each fun c mem after expanded => ?_
  obtain ⟨argument, eq, argumentSound⟩ := exists_node_of_mem_typeArguments sound mem
  cases eq
  exact ofNode_expanded argumentSound expanded

theorem ofNodes_expanded {nodes others : List Node} (sound : ∀ c ∈ nodes, c.Sound)
    (expanded : List.Forall₂ Expanded nodes others) :
    TypeMember.ofNodes others = TypeMember.ofNodes nodes := by
  have othersSound : ∀ c ∈ others, c.Sound := by
    induction expanded with
    | nil => exact sound
    | cons head _ ih =>
        rw [List.forall_mem_cons] at sound ⊢
        exact ⟨head.sound sound.1, ih sound.2⟩
  rw [ofNodes_of_sound sound, ofNodes_of_sound othersSound]
  exact filterMap_eq_of_forall₂ expanded fun c mem after expanded =>
    typeMember_ofNode?_expanded (sound c mem) expanded fun key d held other expanded =>
      ofNode_expanded ((sound c mem).of_child? held) expanded

theorem ofBody_mapSlots (sound : n.Sound) (isInterface : n.kind = .interfaceDeclaration)
    (each : ∀ slot c, n.inSlot? slot = some c → Expanded c (change slot c)) :
    TypeMember.ofBody (n.mapSlots change) = TypeMember.ofBody n := by
  have afterSound := (Expanded.within each).sound sound
  obtain ⟨body, held, bodySound, bodyKind, -, membersEq⟩ := sound.exists_body (.inr isInterface)
  obtain ⟨after, heldAfter, -, -, -, membersAfterEq⟩ := afterSound.exists_body (.inr isInterface)
  have expanded : Expanded body after := by
    have alike := alike_field? each (.declared "body")
    rw [get?] at held heldAfter
    rw [held, heldAfter] at alike
    cases alike
    assumption
  have notCall : body.kind ≠ .callExpression := by
    rw [bodyKind, isInterface]
    decide
  obtain ⟨change, rfl, each⟩ := expanded.within_of_kind notCall
  rw [TypeMember.ofBody, TypeMember.ofBody, membersEq, membersAfterEq]
  exact ofNodes_expanded (fun c => bodySound.of_mem_children) (forall₂_children each "body")

/-- A heritage clause names the same, unless it is a call itself. -/
theorem heritage_expanded (sound : n.Sound) (expanded : Expanded n after)
    (notCall : n.kind ≠ .callExpression) : Heritage.ofNode? after = Heritage.ofNode? n := by
  obtain ⟨change, rfl, each⟩ := expanded.within_of_kind notCall
  have alike := alike_attribute? each "expression"
  have partSound := fun part (held : n.attribute? "expression" = some (.node part)) =>
    sound.of_attribute? held
  rw [Heritage.ofNode?, Heritage.ofNode?, map_ofValue_expanded sound each]
  generalize n.attribute? "expression" = held at alike partSound ⊢
  generalize (n.mapSlots change).attribute? "expression" = heldAfter at alike ⊢
  cases alike with
  | absent => rfl
  | list => rfl
  | data => rfl
  | @node c other expanded =>
      have cSound := partSound c rfl
      simp only [Option.bind_some, Value.node?, cSound.entityFault?_eq_none,
        (expanded.sound cSound).entityFault?_eq_none, entityName?_expanded cSound expanded]

/-- An enum member has the same value, unless it is a call itself. -/
theorem enumValue_expanded (expanded : Expanded n after) (notCall : n.kind ≠ .callExpression) :
    EnumValue.ofValue (.node after) = EnumValue.ofValue (.node n) := by
  obtain ⟨change, rfl, each⟩ := expanded.within_of_kind notCall
  have alike := alike_attribute? each "initializer"
  rw [EnumValue.ofValue, EnumValue.ofValue]
  simp only [Value.node?, Option.bind_some]
  generalize n.attribute? "initializer" = held at alike ⊢
  generalize (n.mapSlots change).attribute? "initializer" = heldAfter at alike ⊢
  cases alike with
  | absent => rfl
  | list => rfl
  | data => rfl
  | node expanded =>
      dsimp only
      rw [literalValue?_expanded expanded]

/-- No heritage clause of an interface and no member of an enum is a call. -/
structure Ast.Node.PlainParts (n : Node) : Prop where
  heritage : n.kind = .interfaceDeclaration → ∀ c ∈ n.children "extends", c.kind ≠ .callExpression
  members : n.kind = .enumDeclaration → ∀ c ∈ n.children "members", c.kind ≠ .callExpression

/-- The declaration that a sound node makes stays the same. -/
theorem declaration_mapSlots (sound : n.Sound) (declares : isDeclaration n = true)
    (parts : n.PlainParts)
    (each : ∀ slot c, n.inSlot? slot = some c → Expanded c (change slot c)) :
    Declaration.ofNode (n.mapSlots change) = Declaration.ofNode n := by
  have afterSound := (Expanded.within each).sound sound
  simp only [isDeclaration, Bool.or_eq_true, beq_iff_eq] at declares
  rcases declares with (isInterface | isAlias) | isEnum
  · have heritageEq : ((n.mapSlots change).children "extends").filterMap Heritage.ofNode? =
        (n.children "extends").filterMap Heritage.ofNode? :=
      filterMap_eq_of_forall₂ (forall₂_children each "extends") fun c mem after expanded =>
        heritage_expanded (sound.of_mem_children mem) expanded (parts.heritage isInterface c mem)
    rw [Declaration.ofNode, Declaration.ofNode, kind_mapSlots, isInterface]
    dsimp only
    rw [typeParameterFault?_eq_none sound, typeParameterFault?_eq_none afterSound,
      typeParameterNames_mapSlots sound each, heritageEq, ofBody_mapSlots sound isInterface each]
  · have ofChild : TypeExpr.ofChild (n.mapSlots change) "typeAnnotation" =
        TypeExpr.ofChild n "typeAnnotation" :=
      ofChild_mapSlots each fun c held after expanded =>
        ofNode_expanded (sound.of_child? held) expanded
    rw [Declaration.ofNode, Declaration.ofNode, kind_mapSlots, isAlias]
    dsimp only
    rw [typeParameterFault?_eq_none sound, typeParameterFault?_eq_none afterSound,
      typeParameterNames_mapSlots sound each, ofChild]
  · rw [ofNode_of_enum sound isEnum, ofNode_of_enum afterSound isEnum]
    refine congrArg Declaration.enumeration ?_
    exact map_eq_of_forall₂ (forall₂_children each "members") fun c mem after expanded =>
      enumValue_expanded expanded (parts.members isEnum c mem)

end PropValidators
