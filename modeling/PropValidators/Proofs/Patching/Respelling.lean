import PropValidators.CallSites
import PropValidators.Proofs.Patching.Faults
import PropValidators.Proofs.Syntax.MovedArguments
import PropValidators.Proofs.Types.FromRespelled

/-!
# Patching in either spelling of type arguments

A module may be read by a parser that writes type arguments under the first key, or by one that
writes them under the second.  Nothing that is derived from a module depends on which of them it
was: a respelled class has the same reading, so the same change is planned for it, and the class
changed as planned is respelled once more.
-/

namespace PropValidators

open Ast Node

/-! ## Looking for nodes -/

section Look

variable {R : Node → Node → Prop} {nodes others : List Node} {test : Node → Bool}

private theorem rel_head? (each : List.Forall₂ R nodes others) :
    Option.Rel R nodes.head? others.head? := by
  cases each with
  | nil => exact .none
  | cons head _ => exact .some head

private theorem rel_find? (same : ∀ c d, R c d → test d = test c)
    (each : List.Forall₂ R nodes others) : Option.Rel R (nodes.find? test) (others.find? test) := by
  induction each with
  | nil => exact .none
  | cons head _ ih =>
      rw [List.find?_cons, List.find?_cons, same _ _ head]
      split
      · exact .some head
      · exact ih

private theorem rel_filter (same : ∀ c d, R c d → test d = test c) {held other : Option Node}
    (related : Option.Rel R held other) : Option.Rel R (held.filter test) (other.filter test) := by
  cases related with
  | none => exact .none
  | some related =>
      rw [Option.filter_some, Option.filter_some, same _ _ related]
      split
      · exact .some related
      · exact .none

private theorem isSome_eq_of_rel {α β : Type} {S : α → β → Prop} {held : Option α}
    {other : Option β} (related : Option.Rel S held other) : other.isSome = held.isSome := by
  cases related <;> rfl

end Look

/-! ## Readings -/

section Reading

variable {n m : Node}

theorem propertyNames_respelled {nodes others : List Node} {keep : Node → Bool}
    (same : ∀ c d : Node, c.Respelled d → keep d = keep c)
    (each : List.Forall₂ Respelled nodes others) :
    (others.filter keep).filterMap propertyName? =
      (nodes.filter keep).filterMap propertyName? := by
  rw [List.filterMap_filter, List.filterMap_filter]
  apply filterMap_eq_of_forall₂ each
  intro c _ d respelled
  rw [same c d respelled, respelled.propertyName?_eq]

theorem objectKeys_respelled (respelled : n.Respelled m) : objectKeys m = objectKeys n := by
  apply propertyNames_respelled _ (respelled.children (by decide))
  intro c d respelled
  rw [respelled.kind_eq]

theorem valueNames_respelled (respelled : n.Respelled m) : valueNames m = valueNames n := by
  rw [valueNames, valueNames, respelled.kind_eq, objectKeys_respelled respelled]

theorem declaredNames_respelled (sound : n.Sound) (isObject : n.kind = .objectExpression)
    (respelled : n.Respelled m) : declaredNames m = declaredNames n := by
  rw [declaredNames_of_object sound isObject,
    declaredNames_of_object (respelled.sound sound) (respelled.kind_eq.trans isObject)]
  apply propertyNames_respelled _ (respelled.children (by decide))
  intro c d respelled
  rw [isObjectMember, isObjectMember, respelled.kind_eq]

theorem isStaticProperty_respelled (name : String) (respelled : n.Respelled m) :
    isStaticProperty name m = isStaticProperty name n := by
  rw [isStaticProperty, isStaticProperty, respelled.kind_eq, respelled.flag_eq (by decide),
    respelled.propertyName?_eq]

/-- The static property of a name is the respelled one. -/
theorem staticMember?_respelled (sound : n.Sound) (isClass : n.kind = .classDeclaration)
    (respelled : n.Respelled m) (name : String) :
    Option.Rel Respelled (staticMember? name n) (staticMember? name m) := by
  obtain ⟨members, others, membersEq, othersEq, -, each⟩ :=
    exists_body_respelled sound respelled (.inl isClass)
  rw [staticMember?_eq_find? name membersEq, staticMember?_eq_find? name othersEq]
  exact rel_find? (fun _ _ => isStaticProperty_respelled name) each

/-- The object literal inside a value is respelled with the value. -/
theorem mergeTarget?_respelled {value other : Option Node}
    (respelled : Option.Rel Respelled value other) :
    Option.Rel Respelled (mergeTarget? value) (mergeTarget? other) := by
  cases respelled with
  | none => exact .some fresh_emptyObject.1.respelled
  | some respelled =>
      rw [mergeTarget?, mergeTarget?, respelled.kind_eq]
      split
      · exact .some respelled
      · split
        · apply rel_filter _ (rel_head? (respelled.children (by decide)))
          intro c d respelled
          rw [respelled.kind_eq]
        · exact .none

theorem Standing.ofValue_respelled {value other : Option Node}
    (sound : ∀ v, value = some v → v.Sound) (respelled : Option.Rel Respelled value other) :
    Standing.ofValue other = Standing.ofValue value := by
  have targets := mergeTarget?_respelled respelled
  have objects := fun target (found : mergeTarget? value = some target) =>
    sound_mergeTarget? sound found
  rw [Standing.ofValue, Standing.ofValue, isSome_eq_of_rel respelled]
  generalize mergeTarget? value = target at targets objects ⊢
  generalize mergeTarget? other = otherTarget at targets ⊢
  cases targets with
  | none => rfl
  | some respelled =>
      obtain ⟨targetSound, isObject⟩ := objects _ rfl
      dsimp only
      rw [declaredNames_respelled targetSound isObject respelled]

theorem standing_respelled (sound : n.Sound) (isClass : n.kind = .classDeclaration)
    (respelled : n.Respelled m) (property : String) :
    Standing.of property m = Standing.of property n := by
  have members := staticMember?_respelled sound isClass respelled property
  have memberSound := fun declared (found : staticMember? property n = some declared) =>
    (sound_staticMember? sound isClass found).1
  rw [Standing.of, Standing.of]
  generalize staticMember? property n = found at members memberSound ⊢
  generalize staticMember? property m = other at members ⊢
  cases members with
  | none => rfl
  | some respelled =>
      exact Standing.ofValue_respelled (fun _ => (memberSound _ rfl).of_child?)
        (respelled.child? (by decide))

theorem defaultNames_respelled (sound : n.Sound) (isClass : n.kind = .classDeclaration)
    (respelled : n.Respelled m) (property : String) :
    defaultNames property m = defaultNames property n := by
  have members := staticMember?_respelled sound isClass respelled property
  rw [defaultNames, defaultNames, staticValue?, staticValue?]
  generalize staticMember? property n = found at members ⊢
  generalize staticMember? property m = other at members ⊢
  cases members with
  | none => rfl
  | some respelled =>
      rw [Option.bind_some, Option.bind_some, respelled.map_child? (by decide)]
      exact fun _ _ _ => valueNames_respelled

/-- A respelled class has the same reading. -/
theorem readClass_respelled (sound : n.Sound) (isClass : n.kind = .classDeclaration)
    (respelled : n.Respelled m) (options : Options) :
    readClass options m = readClass options n := by
  have nameEq : (m.child? "id").bind entityText? = (n.child? "id").bind entityText? :=
    respelled.bind_child? (by decide) fun c held _ respelled =>
      respelled.entityText?_eq (sound.of_child? held)
  rw [readClass, readClass, nameEq, ← List.head?_map, ← List.head?_map,
    map_ofValue_respelled sound respelled, defaultNames_respelled sound isClass respelled,
    standing_respelled sound isClass respelled]

/-- The plan for a respelled class is the same. -/
theorem outcome_planClass_respelled (sound : n.Sound) (isClass : n.kind = .classDeclaration)
    (respelled : n.Respelled m) (options : Options) (context : Context) :
    (planClass options context m).outcome = (planClass options context n).outcome := by
  rw [outcome_planClass sound isClass,
    outcome_planClass (respelled.sound sound) (respelled.kind_eq.trans isClass),
    readClass_respelled sound isClass respelled]

end Reading

/-! ## Changed classes -/

/-- A field that is not for type arguments is set on both sides. -/
theorem rel_field?_set {n m : Node} {key : String} {value other : Value} {name : FieldName}
    (values : Value.Related Respelled value other)
    (same : Option.Rel (Value.Related Respelled) (n.field? name) (m.field? name)) :
    Option.Rel (Value.Related Respelled) ((n.set key value).field? name)
      ((m.set key other).field? name) := by
  by_cases isKey : name = .declared key
  · rw [isKey, Node.set, Node.set, field?_setField_self, field?_setField_self]
    exact .some values
  · rw [Node.set, Node.set, field?_setField_of_ne isKey, field?_setField_of_ne isKey]
    exact same

theorem Ast.Node.Respelled.set {n m : Node} (respelled : n.Respelled m) {key : String}
    {spec : FieldSpec} (specEq : n.kind.specOfKey? key = some spec)
    (apart : .declared key ∉ argumentFields) {value other : Value}
    (values : Value.Related Respelled value other) :
    (n.set key value).Respelled (m.set key other) := by
  have keyEq := Kind.key_of_specOfKey? specEq
  have layout : Layout (m.set key other).kind ((m.set key other).fields.map Prod.fst) := by
    rw [kind_set, ← keyEq]
    apply layout_putField respelled.layout
    rw [respelled.kind_eq]
    exact Kind.mem_of_specOfKey? specEq
  cases respelled with
  | kept typeEq _ same =>
      exact .kept typeEq layout fun name => rel_field?_set values (same name)
  | @moved _ _ spelling typeEq _ spelled only left put same =>
      obtain ⟨firstMem, -⟩ := mem_argumentFields spelled
      have notFirst : FieldName.declared spelling.first ≠ .declared key := by
        intro eq
        exact apart (eq ▸ firstMem)
      refine .moved typeEq layout spelled ?_ ?_ ?_ ?_
      · rwa [Node.set, field?_setField_of_ne (by simp)]
      · rwa [Node.set, field?_setField_of_ne notFirst]
      · rwa [Node.set, Node.set, field?_setField_of_ne notFirst, field?_setField_of_ne (by simp)]
      · exact fun name isFirst isSecond => rel_field?_set values (same name isFirst isSecond)

/-- The items of a list of nodes are respelled one by one. -/
theorem forall₂_items_respelled {n m : Node} (sound : n.Sound) (respelled : n.Respelled m)
    {key : String} {spec : FieldSpec} (specEq : n.kind.specOfKey? key = some spec)
    (nodes : spec.type.holdsNodes = true) (apart : .declared key ∉ argumentFields) :
    List.Forall₂ (Value.Related Respelled) (n.items key) (m.items key) := by
  rw [sound.items_eq_map_node specEq nodes,
    (respelled.sound sound).items_eq_map_node (respelled.kind_eq.symm ▸ specEq) nodes,
    List.forall₂_map_left_iff, List.forall₂_map_right_iff]
  exact (respelled.children apart).imp fun _ _ => .node

section Change

variable {n m : Node} {added : List Node}

private theorem forall₂_fresh (fresh : ∀ p ∈ added, Fresh p) :
    List.Forall₂ (Value.Related Respelled) (added.map .node) (added.map .node) := by
  rw [List.forall₂_map_left_iff, List.forall₂_map_right_iff, List.forall₂_same]
  exact fun p mem => .node (fresh p mem).1.respelled

theorem appendProperties_respelled (sound : n.Sound) (isObject : n.kind = .objectExpression)
    (respelled : n.Respelled m) (fresh : ∀ p ∈ added, Fresh p) :
    (appendProperties n added).Respelled (appendProperties m added) := by
  rw [appendProperties_of_object sound isObject,
    appendProperties_of_object (respelled.sound sound) (respelled.kind_eq.trans isObject)]
  apply respelled.set (propertiesSpec isObject) (by decide)
  exact .list (List.rel_append
    (forall₂_items_respelled sound respelled (propertiesSpec isObject) rfl (by decide))
    (forall₂_fresh fresh))

theorem rewrap_respelled {value other : Option Node} {merged otherMerged : Node}
    (sound : ∀ v, value = some v → v.Sound) (respelled : Option.Rel Respelled value other)
    (mergedRespelled : merged.Respelled otherMerged) :
    (rewrap value merged).Respelled (rewrap other otherMerged) := by
  cases respelled with
  | none => exact mergedRespelled
  | @some v w respelled =>
      rw [rewrap, rewrap, respelled.kind_eq]
      split
      · rename_i isCall
        apply respelled.set (argumentsSpec isCall) (by decide)
        refine .list (.cons (.node mergedRespelled) (List.forall₂_drop 1 ?_))
        exact forall₂_items_respelled (sound v rfl) respelled (argumentsSpec isCall) rfl (by decide)
      · exact mergedRespelled

theorem extendProperty_respelled (sound : n.Sound) (isProperty : n.kind = .classProperty)
    (respelled : n.Respelled m) (fresh : ∀ p ∈ added, Fresh p) :
    (extendProperty added n).Respelled (extendProperty added m) := by
  have values := respelled.child? (show .declared "value" ∉ argumentFields by decide)
  have valueSound : ∀ v, n.child? "value" = some v → v.Sound := fun _ => sound.of_child?
  have targets := mergeTarget?_respelled values
  have objects := fun target (found : mergeTarget? (n.child? "value") = some target) =>
    sound_mergeTarget? valueSound found
  rw [extendProperty_eq, extendProperty_eq]
  generalize mergeTarget? (n.child? "value") = target at targets objects ⊢
  generalize mergeTarget? (m.child? "value") = otherTarget at targets ⊢
  cases targets with
  | none => exact respelled
  | some targetRespelled =>
      obtain ⟨targetSound, isObject⟩ := objects _ rfl
      apply respelled.set (valueSpec isProperty) (by decide)
      exact .node (rewrap_respelled valueSound values
        (appendProperties_respelled targetSound isObject targetRespelled fresh))

theorem modifyFirst_respelled {test : Node → Bool} {change : Node → Node}
    (same : ∀ c d : Node, c.Respelled d → test d = test c)
    (changed : ∀ c d : Node, test c = true → c.Sound → c.Respelled d →
      (change c).Respelled (change d)) {items others : List Value} {type : Option FieldType}
    (fits : FitItems type items)
    (each : List.Forall₂ (Value.Related Respelled) items others) :
    List.Forall₂ (Value.Related Respelled) (modifyFirst test change items)
      (modifyFirst test change others) := by
  induction each with
  | nil => exact .nil
  | cons head rest ih =>
      cases head with
      | node respelled =>
          rw [modifyFirst, modifyFirst, same _ _ respelled]
          split
          · rename_i passes
            exact .cons (.node (changed _ _ passes fits.1.2 respelled)) rest
          · exact .cons (.node respelled) (ih fits.2)
      | list inner => exact .cons (.list inner) (ih fits.2)
      | data => exact .cons .data (ih fits.2)

theorem onMembers_respelled {edit : ClassEdit} (fresh : edit.IsFresh) {items others : List Value}
    (fits : FitItems (some .node) items)
    (each : List.Forall₂ (Value.Related Respelled) items others) :
    List.Forall₂ (Value.Related Respelled) (edit.onMembers items) (edit.onMembers others) := by
  cases edit with
  | insert member =>
      change Fresh member at fresh
      exact .cons (.node fresh.1.respelled) each
  | extend property added =>
      apply modifyFirst_respelled (fun _ _ => isStaticProperty_respelled property) _ fits each
      intro c d isStatic cSound respelled
      exact extendProperty_respelled cSound (kind_of_isStaticProperty isStatic) respelled fresh

/-- The same change makes a class and its respelling into a class and its respelling. -/
theorem apply_respelled {edit : ClassEdit} (fresh : edit.IsFresh) (sound : n.Sound)
    (isClass : n.kind = .classDeclaration) (respelled : n.Respelled m) :
    (edit.apply n).Respelled (edit.apply m) := by
  obtain ⟨body, hasBody⟩ := HasBody.exists_of_sound sound isClass
  obtain ⟨other, hasOther⟩ :=
    HasBody.exists_of_sound (respelled.sound sound) (respelled.kind_eq.trans isClass)
  have bodies := respelled.get? (show .declared "body" ∉ argumentFields by decide)
  rw [hasBody.held, hasOther.held] at bodies
  cases bodies with
  | some bodies =>
      cases bodies with
      | node bodyRespelled =>
          have specEq := bodySpec hasBody.kind_eq
          rw [edit.apply_eq, edit.apply_eq, hasBody.withMembers_eq, hasOther.withMembers_eq]
          apply respelled.set (classBodySpec isClass) (by decide)
          refine .node (bodyRespelled.set specEq (by decide) (.list ?_))
          exact onMembers_respelled fresh (hasBody.sound.fitItems specEq rfl)
            (forall₂_items_respelled hasBody.sound bodyRespelled specEq rfl (by decide))

end Change

/-! ## Calls -/

section Call

variable {n m : Node}

theorem calls_respelled (respelled : n.Respelled m) (helper : String) :
    m.calls helper = n.calls helper := by
  have callee := respelled.child? (show .declared "callee" ∉ argumentFields by decide)
  rw [Node.calls, Node.calls, respelled.kind_eq]
  generalize n.child? "callee" = held at callee ⊢
  generalize m.child? "callee" = other at callee ⊢
  cases callee with
  | none => rfl
  | some respelled =>
      dsimp only
      rw [respelled.kind_eq, respelled.text?_eq (by decide)]

/-- The type that a helper call is about has the same shape. -/
theorem argumentShape_respelled (sound : n.Sound) (respelled : n.Respelled m) (context : Context) :
    argumentShape context m = argumentShape context n := by
  have types := map_ofValue_respelled sound respelled
  rw [argumentShape, argumentShape]
  generalize n.typeArguments = arguments at types ⊢
  generalize m.typeArguments = others at types ⊢
  cases arguments with
  | nil =>
      cases others with
      | nil => rfl
      | cons => cases types
  | cons argument rest =>
      cases others with
      | nil => cases types
      | cons other more =>
          rw [List.map_cons, List.map_cons, List.cons.injEq] at types
          dsimp only
          rw [types.1]

end Call

/-! ## Declarations in sight -/

namespace Registry

/-- Two registries keep declarations and their respellings under the same names. -/
def Respelled (registry other : Registry Node) : Prop :=
  List.Forall₂ (fun entry after =>
    after.1 = entry.1 ∧ List.Forall₂ Node.Respelled entry.2 after.2) registry.entries other.entries

/-- All that a registry keeps are sound declarations. -/
def Declares (registry : Registry Node) : Prop :=
  ∀ entry ∈ registry.entries, ∀ n ∈ entry.2, n.Sound ∧ isDeclaration n = true

/-- Respelled declarations declare the same. -/
theorem map_ofNode_respelled {registry other : Registry Node} (declares : registry.Declares)
    (respelled : registry.Respelled other) :
    other.map Declaration.ofNode = registry.map Declaration.ofNode := by
  obtain ⟨entries⟩ := registry
  obtain ⟨others⟩ := other
  rw [map, map]
  congr 1
  change List.Forall₂ _ entries others at respelled
  change ∀ entry ∈ entries, _ at declares
  induction respelled with
  | nil => rfl
  | cons head _ ih =>
      rw [List.forall_mem_cons] at declares
      obtain ⟨nameEq, each⟩ := head
      have declarations := Node.map_eq_of_forall₂ each fun c mem d respelled =>
        declaration_respelled (declares.1 c mem).1 (declares.1 c mem).2 respelled
      rw [List.map_cons, List.map_cons, ih declares.2, nameEq, declarations]

end Registry

/-- A context in which the declarations in a registry are in sight. -/
def Context.seeing (context : Context) (registry : Registry Node) : Context :=
  { context with registry := registry.map Declaration.ofNode }

theorem seeing_respelled {registry other : Registry Node} (declares : registry.Declares)
    (respelled : registry.Respelled other) (context : Context) :
    context.seeing other = context.seeing registry := by
  rw [Context.seeing, Context.seeing, Registry.map_ofNode_respelled declares respelled]

/-! ## Either spelling -/

/-- What is made of a node in one context is made of another node in another context. -/
structure Indistinct (options : Options) (context other : Context) (n m : Node) : Prop where
  /-- As types they have the same shape, -/
  shape : resolveType other (.ofNode m) = resolveType context (.ofNode n)
  /-- they admit null or undefined in the same cases, -/
  nullable : resolveNullable other (.ofNode m) = resolveNullable context (.ofNode n)
  /-- and they refer to the same names. -/
  names : (TypeExpr.ofNode m).referencedNames = (TypeExpr.ofNode n).referencedNames
  /-- As classes they are given the same report and the same change, -/
  plan : n.kind = .classDeclaration →
    (planClass options other m).outcome = (planClass options context n).outcome
  /-- after which they still differ in the spelling only. -/
  patched : n.kind = .classDeclaration → ∀ result edit,
    (planClass options context n).outcome = .ok (result, edit) →
      (applyEdit edit n).Respelled (applyEdit edit m)
  /-- They are calls of the same helpers, -/
  calls : ∀ helper, m.calls helper = n.calls helper
  /-- with the same type arguments. -/
  arguments : List.Forall₂ (Value.Related Respelled) n.typeArguments m.typeArguments
  types : m.typeArguments.map TypeExpr.ofValue = n.typeArguments.map TypeExpr.ofValue
  argument : argumentShape other m = argumentShape context n

theorem indistinct_of_respelled {n m : Node} (sound : n.Sound) (respelled : n.Respelled m)
    (options : Options) (context : Context) : Indistinct options context context n m where
  shape := by rw [ofNode_respelled sound respelled]
  nullable := by rw [ofNode_respelled sound respelled]
  names := by rw [ofNode_respelled sound respelled]
  plan := fun isClass => outcome_planClass_respelled sound isClass respelled options context
  patched := by
    intro isClass result edit planned
    rw [outcome_planClass sound isClass] at planned
    cases edit with
    | none => exact respelled
    | some edit =>
        exact apply_respelled (isFresh_planReading planned edit rfl) sound isClass respelled
  calls := calls_respelled respelled
  arguments := respelled.typeArguments sound
  types := map_ofValue_respelled sound respelled
  argument := argumentShape_respelled sound respelled context

/-- In which spelling the type arguments are written makes no difference, in the declarations in
sight and in a tree alike.  The tree and its respelling mean the same as types, as classes and as
calls, and so do the nodes in them: each node of either tree has one in the other that it cannot
be told from. -/
theorem respelling_invariant {registry other : Registry Node} (declares : registry.Declares)
    (registered : registry.Respelled other) {n m : Node} (sound : n.Sound)
    (respelled : n.Respelled m) (options : Options) (context : Context) :
    Indistinct options (context.seeing registry) (context.seeing other) n m ∧
      Matched (Indistinct options (context.seeing registry) (context.seeing other))
        n.walk m.walk := by
  rw [seeing_respelled declares registered]
  constructor
  · exact indistinct_of_respelled sound respelled options _
  · rw [walk_eq_tree, walk_eq_tree]
    apply (respelled.matched_tree sound).imp
    intro c mem d respelled
    exact indistinct_of_respelled (n.sound_of_mem_tree sound c mem) respelled options _

/-! ## A module in both spellings -/

/-- A type that makes the fields of another one optional. -/
def partialTitle : Node :=
  reference "Partial" [typeLiteral [titleMember]]

/-- A class whose props type is declared elsewhere. -/
def declaredClass : Node :=
  classDeclaration "Title" (some (reference "Props" [])) [] "Component"

/-- A module that declares the type and the class. -/
def declaringModule (type classNode : Node) : Node :=
  program [typeAlias "Props" type [], classNode]

/-- The module as it is written with the type arguments under two keys. -/
def declaringJson (superclass name : String) : Json :=
  programJson [
    typeAliasJson "Props" (nodeJson "TSTypeReference" [("typeName", identifierJson "Partial"),
      (name, typeArgumentListJson [titledTypeJson])]),
    nodeJson "ClassDeclaration" [("id", identifierJson "Title"),
      ("superClass", identifierJson "Component"),
      (superclass, typeArgumentListJson [referenceJson "Props"]),
      ("body", nodeJson "ClassBody" [("body", .array [])])]]

@[simp]
theorem readDocument_declaringJson :
    readDocument 0 (declaringJson "superTypeParameters" "typeParameters") =
      .ok (declaringModule partialTitle declaredClass) := by
  rfl

@[simp]
theorem readDocument_declaringJson_respelled :
    readDocument 0 (declaringJson "superTypeArguments" "typeArguments") =
      .ok (declaringModule (partialTitle.moveArguments .ofName)
        (declaredClass.moveArguments .ofSuperclass)) := by
  rfl

private theorem distinct_declaringJson :
    (declaringJson "superTypeParameters" "typeParameters").Distinct := by
  simp [declaringJson, titledTypeJson]

theorem sound_of_declaringModule {m : Node} (index : Nat)
    (found : (declaringModule partialTitle declaredClass).tree[index]? = some m) : m.Sound :=
  (declaringModule partialTitle declaredClass).sound_of_mem_tree
    (sound_of_readNode distinct_declaringJson readDocument_declaringJson) m
    (List.mem_of_getElem? found)

theorem sound_partialTitle : partialTitle.Sound :=
  sound_of_declaringModule 3 rfl

theorem sound_declaredClass : declaredClass.Sound :=
  sound_of_declaringModule 11 rfl

/-- What the module declares. -/
def declaringRegistry (type : Node) : Registry Node :=
  ⟨[("Props", [typeAlias "Props" type []])]⟩

private theorem declares_declaringRegistry : (declaringRegistry partialTitle).Declares := by
  have aliasSound : (typeAlias "Props" partialTitle []).Sound := sound_of_declaringModule 1 rfl
  intro entry mem n declared
  cases List.mem_singleton.mp mem
  cases List.mem_singleton.mp declared
  exact ⟨aliasSound, by decide⟩

private theorem respelled_partialTitle :
    partialTitle.Respelled (partialTitle.moveArguments .ofName) :=
  sound_partialTitle.respelled_moveArguments rfl rfl rfl

private theorem respelled_declaredClass :
    declaredClass.Respelled (declaredClass.moveArguments .ofSuperclass) :=
  sound_declaredClass.respelled_moveArguments rfl rfl rfl

private theorem respelled_declaringRegistry :
    (declaringRegistry partialTitle).Respelled
      (declaringRegistry (partialTitle.moveArguments .ofName)) := by
  have aliasSound : (typeAlias "Props" partialTitle []).Sound := sound_of_declaringModule 1 rfl
  have aliasRespelled : (typeAlias "Props" partialTitle []).Respelled
      (typeAlias "Props" (partialTitle.moveArguments .ofName) []) := by
    have specEq : (typeAlias "Props" partialTitle []).kind.specOfKey? "typeAnnotation" =
        some ⟨"typeAnnotation", "type_annotation", .node⟩ := rfl
    exact aliasSound.respelled.set specEq (by decide) (.node respelled_partialTitle)
  exact .cons ⟨rfl, .cons aliasRespelled .nil⟩ .nil

/-- A context without declarations. -/
def emptyContext : Context where
  registry := .empty
  maxDepth := .int 10

/-- The context with what the module declares. -/
def declaringContext : Context where
  registry := ⟨[("Props", [.alias [] (.reference (some "Partial") [titledProps])])]⟩
  maxDepth := .int 10

@[simp]
theorem seeing_declaringRegistry :
    emptyContext.seeing (declaringRegistry partialTitle) = declaringContext := by
  have typeEq : TypeExpr.ofNode partialTitle = .reference (some "Partial") [titledProps] := by
    rw [ofNode_of_sound sound_partialTitle]
    change TypeExpr.reference (identifier "Partial").entityName?
      [TypeExpr.ofNode (typeLiteral [titleMember])] = _
    rw [entityName?_identifier, ofNode_titledProps]
  have aliasEq : Declaration.ofNode (typeAlias "Props" partialTitle []) =
      .alias [] (.reference (some "Partial") [titledProps]) := by
    change Declaration.alias [] (TypeExpr.ofChild _ _) = _
    rw [ofChild_eq, ← typeEq]
    rfl
  rw [Context.seeing, declaringRegistry, Registry.map, List.map_singleton, List.map_singleton,
    aliasEq]
  rfl

/-- The field that the type has, which may be left out. -/
def optionalField : Field :=
  ⟨"text", .primitive .string, true, false⟩

@[simp]
theorem outcome_resolveType_declaredProps :
    (resolveType declaringContext (.reference (some "Props") [])).outcome =
      .ok (.object [optionalField]) := by
  have unbound : declaringContext.bound? "Props" = none := by rfl
  have contained : declaringContext.registry.contains "Props" = true := by rfl
  have declared : declaringContext.registry.get "Props" =
      [.alias [] (.reference (some "Partial") [titledProps])] := by rfl
  have partialEq : ∀ context : Context, context.bound? "Partial" = none →
      context.registry.contains "Partial" = false → context.tooDeep = false →
      (resolveType context (.reference (some "Partial") [titledProps])).outcome =
        .ok (.object [optionalField]) := by
    intro context unbound undeclared shallow
    have noArray : arrayGenerics.contains "Partial" = false := by decide
    have function : utilities.lookup "Partial" = some .optional := by decide
    rw [resolveType.eq_def]
    simp only [unbound, undeclared, noArray, function, Bool.false_eq_true, if_false,
      Traced.outcome_bind, outcome_resolveType_titledProps shallow]
    rfl
  rw [resolveType]
  simp only [unbound, contained, if_true, resolveAll, pure_bind]
  rw [Resolution.outcome_resolveName_of_last declared rfl rfl rfl]
  dsimp only [List.getLast?_nil, Option.getD_none]
  rw [partialEq _ rfl rfl rfl]
  rfl

@[simp]
theorem readClass_declaredClass :
    readClass {} declaredClass =
      ⟨some "Title", some (.reference (some "Props") []), [], .absent⟩ := by
  apply ClassReading.ext
  · exact entityText?_identifier "Title"
  · exact congrArg some (ofNode_reference "Props")
  · rfl
  · rfl

private theorem exists_plan_declaredClass :
    ∃ edit, (planClass {} declaringContext declaredClass).outcome =
      .ok (⟨.patched, some "Title", ["Props"], ["text"]⟩, some edit) := by
  have planned : planReading {} declaringContext (readClass {} declaredClass) =
      .ok (plannedEntries {} (some "Title") ["Props"] (Entry.ofProps [optionalField] [])
        .absent) := by
    rw [readClass_declaredClass]
    exact (planReading_of_shape rfl outcome_resolveType_declaredProps).trans (by rfl)
  exact ⟨_, (outcome_planClass sound_declaredClass rfl {} declaringContext).trans planned⟩

/-- Read in the second spelling, the class is patched in the same way as in the first. -/
theorem respelling_invariant_declaringModule :
    readDocument 0 (declaringJson "superTypeParameters" "typeParameters") =
        .ok (declaringModule partialTitle declaredClass) ∧
      readDocument 0 (declaringJson "superTypeArguments" "typeArguments") =
        .ok (declaringModule (partialTitle.moveArguments .ofName)
          (declaredClass.moveArguments .ofSuperclass)) ∧
      (declaringRegistry partialTitle).Declares ∧
      (declaringRegistry partialTitle).Respelled
        (declaringRegistry (partialTitle.moveArguments .ofName)) ∧
      declaredClass.Sound ∧
      declaredClass.Respelled (declaredClass.moveArguments .ofSuperclass) ∧
      ∃ edit, (planClass {}
        (emptyContext.seeing (declaringRegistry (partialTitle.moveArguments .ofName)))
        (declaredClass.moveArguments .ofSuperclass)).outcome =
          .ok (⟨.patched, some "Title", ["Props"], ["text"]⟩, some edit) := by
  obtain ⟨indistinct, -⟩ := respelling_invariant declares_declaringRegistry
    respelled_declaringRegistry sound_declaredClass respelled_declaredClass {} emptyContext
  obtain ⟨edit, planned⟩ := exists_plan_declaredClass
  refine ⟨readDocument_declaringJson, readDocument_declaringJson_respelled,
    declares_declaringRegistry, respelled_declaringRegistry, sound_declaredClass,
    respelled_declaredClass, edit, ?_⟩
  rw [indistinct.plan rfl, seeing_declaringRegistry]
  exact planned

end PropValidators
