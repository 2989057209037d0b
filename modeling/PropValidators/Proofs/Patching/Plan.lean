import PropValidators.Proofs.Patching.Edits

/-!
# Planning a change

A plan depends on little of a class: its name, the type of its props, the props with
defaults, and how far its validators are written already.  These make up the reading of the
class.  For a sound class planning is a function of the reading that stops only where a type
cannot be resolved.
-/

namespace PropValidators

open Ast Node

/-- How far the validators of a class are written. -/
inductive Standing where
  /-- There is no static property for them. -/
  | absent
  /-- They are written in a way that cannot be added to. -/
  | closed
  /-- They are written for some props, in a value or in none. -/
  | listed (names : List String) (hasValue : Bool)

/-- What the value of a static property says about the validators. -/
def Standing.ofValue (value : Option Node) : Standing :=
  match mergeTarget? value with
  | none => .closed
  | some target => .listed (declaredNames target) value.isSome

/-- The first static property of a class with a plain name, if the class has members. -/
def staticMember? (name : String) (c : Node) : Option Node :=
  (c.members.toOption.getD []).find? (isStaticProperty name)

theorem staticMember?_eq_find? (name : String) {c : Node} {members : List Node}
    (membersEq : c.members = .ok members) :
    staticMember? name c = members.find? (isStaticProperty name) := by
  rw [staticMember?, membersEq]
  rfl

/-- What the static property for the validators says about them. -/
def Standing.of (property : String) (c : Node) : Standing :=
  ((staticMember? property c).map fun declared => ofValue (declared.child? "value")).getD .absent

@[simp]
theorem mem_sortedNames {names : List String} {name : String} :
    name ∈ sortedNames names ↔ name ∈ names := by
  rw [sortedNames, List.mem_mergeSort, List.mem_eraseDups]

/-- The plain keys of an object literal in order; any other value has none. -/
def valueNames (value : Node) : List String :=
  if value.kind = .objectExpression then sortedNames (objectKeys value) else []

/-- The props with a default in the static defaults object of a class. -/
def defaultNames (property : String) (c : Node) : List String :=
  ((staticValue? (staticMember? property c)).map valueNames).getD []

/-- What planning reads of a class. -/
@[ext]
structure ClassReading where
  name : Option String
  /-- The props type that the superclass is given. -/
  propsType : Option TypeExpr
  /-- The props with defaults. -/
  defaults : List String
  standing : Standing

/-- The reading of a class. -/
def readClass (options : Options) (c : Node) : ClassReading where
  name := (c.child? "id").bind entityText?
  propsType := c.typeArguments.head?.map TypeExpr.ofValue
  defaults := defaultNames options.defaultsProperty c
  standing := .of options.validatorProperty c

/-- The entries that a shape calls for. -/
def entriesOf (shape : Shape) (defaults : List String) : List Entry :=
  match shape.fields? with
  | none => []
  | some fields => Entry.ofProps fields defaults

/-- The plan for a class whose usable entries are known. -/
def plannedEntries (options : Options) (name : Option String) (typeNames : List String)
    (entries : List Entry) : Standing → ClassPlan
  | .absent =>
      (⟨.patched, name, typeNames, entries.map (·.prop)⟩,
        some (.insert (staticProperty options.validatorProperty
          (mergeEntries options.validatorNamespace none entries))))
  | .closed => (⟨.skippedOpaque, name, typeNames, []⟩, none)
  | .listed names hasValue =>
      let missing := missingEntries names entries
      (⟨.patched, name, typeNames, missing.map (·.prop)⟩,
        if !missing.isEmpty || !hasValue then
          some (.extend options.validatorProperty
            (missing.map (Entry.toProperty options.validatorNamespace)))
        else none)

/-- The plan for a class with a reading. -/
def planReading (options : Options) (context : Context) (reading : ClassReading) :
    Except Fault ClassPlan :=
  match reading.propsType with
  | none => .ok (⟨.notApplicable, reading.name, [], []⟩, none)
  | some propsType =>
      (resolveType context propsType).outcome.map fun shape =>
        let entries := entriesOf shape reading.defaults
        if Entry.anyUsable entries then
          plannedEntries options reading.name propsType.referencedNames entries reading.standing
        else (⟨.skippedEmpty, reading.name, propsType.referencedNames, []⟩, none)

section Sound

variable {c : Node}

/-- The members of a sound class, and that they are sound. -/
theorem exists_members (sound : c.Sound) (isClass : c.kind = .classDeclaration) :
    ∃ members, c.members = .ok members ∧ ∀ m ∈ members, m.Sound := by
  obtain ⟨body, hasBody⟩ := HasBody.exists_of_sound sound isClass
  exact ⟨_, hasBody.members_eq, fun _ => hasBody.sound.of_mem_children⟩

theorem staticProperty?_of_sound (sound : c.Sound) (isClass : c.kind = .classDeclaration)
    (name : String) : staticProperty? c name = .ok (staticMember? name c) := by
  obtain ⟨members, membersEq, -⟩ := exists_members sound isClass
  rw [staticProperty?, staticMember?, membersEq]
  rfl

theorem sound_staticMember? (sound : c.Sound) (isClass : c.kind = .classDeclaration) {name : String}
    {declared : Node} (found : staticMember? name c = some declared) :
    declared.Sound ∧ declared.kind = .classProperty := by
  obtain ⟨members, membersEq, membersSound⟩ := exists_members sound isClass
  rw [staticMember?_eq_find? name membersEq] at found
  exact ⟨membersSound declared (List.mem_of_find?_eq_some found),
    kind_of_isStaticProperty (List.find?_some found)⟩

theorem objectKeysFault?_of_sound {object : Node} (sound : object.Sound) :
    objectKeysFault? object = none := by
  rw [objectKeysFault?, List.findSome?_eq_none_iff]
  intro p mem
  exact (sound.of_mem_children (List.mem_filter.mp mem).1).propertyFault?_eq_none

theorem outcome_classDefaults (sound : c.Sound) (isClass : c.kind = .classDeclaration)
    (property : String) :
    (classDefaults property c).outcome = .ok (defaultNames property c) := by
  rw [classDefaults, staticProperty?_of_sound sound isClass, defaultNames, Traced.outcome_bind]
  change (match staticValue? (staticMember? property c) with
    | none => _
    | some value => _ : Traced (List String)).outcome = _
  cases valueEq : staticValue? (staticMember? property c) with
  | none => rfl
  | some value =>
      dsimp only [Option.map_some, Option.getD_some]
      rw [valueNames]
      by_cases isObject : value.kind = .objectExpression
      · have valueSound : value.Sound := by
          rw [staticValue?, Option.bind_eq_some_iff] at valueEq
          obtain ⟨declared, found, held⟩ := valueEq
          exact (sound_staticMember? sound isClass found).1.of_child? held
        rw [if_pos isObject, if_pos isObject, objectKeysFault?_of_sound valueSound]
        rfl
      · rw [if_neg isObject, if_neg isObject]
        rfl

theorem outcome_classEntries (sound : c.Sound) (isClass : c.kind = .classDeclaration)
    (options : Options) (context : Context) (propsType : TypeExpr) :
    (classEntries options context c propsType).outcome =
      (resolveType context propsType).outcome.map fun shape =>
        entriesOf shape (defaultNames options.defaultsProperty c) := by
  rw [classEntries, Traced.outcome_bind]
  cases (resolveType context propsType).outcome with
  | error fault => rfl
  | ok shape =>
      change (match shape.fields? with
        | none => _
        | some fields => _ : Traced (List Entry)).outcome = .ok (entriesOf shape _)
      rw [entriesOf]
      cases shape.fields? with
      | none => rfl
      | some fields =>
          dsimp only
          rw [Traced.outcome_bind, outcome_classDefaults sound isClass]
          rfl

/-- No node stands in the place of the arguments of a sound call. -/
theorem mergeTargetFault?_of_sound {value : Option Node}
    (sound : ∀ v, value = some v → v.Sound) : mergeTargetFault? value = none := by
  cases value with
  | none => rfl
  | some v =>
      rw [mergeTargetFault?]
      split
      · rename_i isCall
        rw [(sound v rfl).child?_eq_none (argumentsSpec isCall) rfl]
        rfl
      · rfl

theorem declarationFault?_of_sound {object : Node} (sound : object.Sound)
    (isObject : object.kind = .objectExpression) : declarationFault? object = none := by
  rw [declarationFault?, propertyField_of_object isObject,
    sound.nodesIn_eq (by decide) (propertiesSpec isObject) rfl]
  dsimp only
  rw [List.findSome?_eq_none_iff]
  intro p mem
  exact (sound.of_mem_children (List.mem_filter.mp mem).1).propertyFault?_eq_none

theorem outcome_planEntries (sound : c.Sound) (isClass : c.kind = .classDeclaration)
    (options : Options) (typeNames : List String) (entries : List Entry) :
    (planEntries options c typeNames entries).outcome =
      .ok (plannedEntries options ((c.child? "id").bind entityText?) typeNames entries
        (.of options.validatorProperty c)) := by
  obtain ⟨body, hasBody⟩ := HasBody.exists_of_sound sound isClass
  rw [planEntries, staticProperty?_of_sound sound isClass, Standing.of]
  dsimp only
  rw [Traced.outcome_bind]
  cases found : staticMember? options.validatorProperty c with
  | none =>
      rw [hasBody.modifyMembers?_eq]
      dsimp only [Traced.ofExcept, Except.bind, Option.isNone_some]
      rw [if_neg Bool.false_ne_true]
      split <;> rfl
  | some declared =>
      have declaredSound := (sound_staticMember? sound isClass found).1
      have valueSound : ∀ v, declared.child? "value" = some v → v.Sound :=
        fun _ => declaredSound.of_child?
      change (Traced.outcome (Traced.check (mergeTargetFault? (declared.child? "value")) >>= _)) = _
      rw [mergeTargetFault?_of_sound valueSound, Traced.outcome_bind]
      dsimp only [Traced.check, Except.bind, Option.map_some, Option.getD_some]
      rw [Standing.ofValue]
      cases targetEq : mergeTarget? (declared.child? "value") with
      | none => rfl
      | some target =>
          obtain ⟨targetSound, isObject⟩ := sound_mergeTarget? valueSound targetEq
          dsimp only
          rw [declarationFault?_of_sound targetSound isObject, Traced.outcome_bind]
          dsimp only [Traced.check, Except.bind]
          rw [plannedEntries, Option.not_isSome]
          split <;> rfl

/-- The plan for a sound class is that for its reading. -/
theorem outcome_planClass (sound : c.Sound) (isClass : c.kind = .classDeclaration)
    (options : Options) (context : Context) :
    (planClass options context c).outcome = planReading options context (readClass options c) := by
  rw [planClass, planReading, readClass]
  cases c.typeArguments with
  | nil => rfl
  | cons argument rest =>
      dsimp only [List.head?_cons, Option.map_some]
      rw [Traced.outcome_bind, outcome_classEntries sound isClass]
      cases (resolveType context (TypeExpr.ofValue argument)).outcome with
      | error fault => rfl
      | ok shape =>
          change (Traced.outcome (if _ then _ else _)) = .ok (if _ then _ else _)
          split
          · exact outcome_planEntries sound isClass options _ _
          · rfl

end Sound

end PropValidators
