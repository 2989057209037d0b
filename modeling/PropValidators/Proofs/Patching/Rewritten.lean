import PropValidators.Proofs.Patching.Readings
import PropValidators.Proofs.Syntax.Written

/-!
# Written classes before and after patching

What patching may do to a class as it is written.  If validators were added, there is a new
static property in front of the members, or the object literal inside the value of the first
static property of the name has new properties at its end.  Otherwise the class is written as
it was.
-/

namespace PropValidators

open Ast Node

/-- A written key gives a plain name. -/
def IsPlainKey (name : String) (key : Json) : Prop :=
  nodeType? key = some "Identifier" ∧ key.get? "name" = some (.string name) ∨
    nodeType? key = some "StringLiteral" ∧ key.get? "value" = some (.string name)

/-- Written members give a plain name by their key. -/
def IsNamed (name : String) (members : List (String × Json)) : Prop :=
  Assoc.get? members "computed" ≠ some (.bool true) ∧
    ∃ key, Assoc.get? members "key" = some key ∧ IsPlainKey name key

/-- Written members are those of a static property with a plain name. -/
def IsStatic (name : String) (members : List (String × Json)) : Prop :=
  typeOf? members = some "ClassProperty" ∧ Assoc.get? members "static" = some (.bool true) ∧
    IsNamed name members

/-- A value is a written property with a plain name. -/
def IsProperty (name : String) (json : Json) : Prop :=
  ∃ members, json = .object members ∧ typeOf? members = some "ObjectProperty" ∧
    IsNamed name members

/-- A written object literal has new properties with plain names after all others. -/
def ObjectExtended (added : List String) (before after : List (String × Json)) : Prop :=
  typeOf? before = some "ObjectExpression" ∧
    ∃ new, List.Forall₂ IsProperty added new ∧
      Updated "properties" (.array (arrayUnder before "properties" ++ new)) before after

/-- The object literal inside a written value has new properties after all others: the value
itself, the first argument of a call, or an empty one if there is no value. -/
inductive ValueExtended (added : List String) : Option Json → Json → Prop
  | absent {value : Option Json} {after : List (String × Json)}
      (none : value = none ∨ value = some .null)
      (extended : ObjectExtended added [("type", .string "ObjectExpression")] after) :
      ValueExtended added value (.object after)
  | literal {before after : List (String × Json)} (extended : ObjectExtended added before after) :
      ValueExtended added (some (.object before)) (.object after)
  | argument {call called before after : List (String × Json)} {rest : List Json}
      (typed : typeOf? call = some "CallExpression")
      (first : arrayUnder call "arguments" = .object before :: rest)
      (extended : ObjectExtended added before after)
      (updated : Updated "arguments" (.array (.object after :: rest)) call called) :
      ValueExtended added (some (.object call)) (.object called)

/-- The written members of a class have validators added in the static property of a name:
in a new one at the front if there is none, and in the first one otherwise. -/
inductive MembersPatched (property : String) (added : List String) : List Json → List Json → Prop
  | inserted {members : List Json} {new : List (String × Json)} {value : Json}
      (noneStatic : ∀ member, .object member ∈ members → ¬ IsStatic property member)
      (static : IsStatic property new) (held : Assoc.get? new "value" = some value)
      (extended : ValueExtended added none value) :
      MembersPatched property added members (.object new :: members)
  | extended {before after : List Json} {declared changed : List (String × Json)} {value : Json}
      (noneStatic : ∀ member, .object member ∈ before → ¬ IsStatic property member)
      (static : IsStatic property declared)
      (extended : ValueExtended added (Assoc.get? declared "value") value)
      (updated : Updated "value" value declared changed) :
      MembersPatched property added (before ++ .object declared :: after)
        (before ++ .object changed :: after)

/-- A written class is as its result says. -/
inductive ClassPatched (property : String) (result : PatchResult) :
    List (String × Json) → List (String × Json) → Prop
  | kept {members : List (String × Json)} (nothing : result.added = []) :
      ClassPatched property result members members
  | changed {before after body patched : List (String × Json)} {members : List Json}
      (status : result.status = .patched) (something : result.added ≠ [])
      (held : Assoc.get? before "body" = some (.object body))
      (inside : MembersPatched property result.added (arrayUnder body "body") members)
      (bodyUpdated : Updated "body" (.array members) body patched)
      (updated : Updated "body" (.object patched) before after) :
      ClassPatched property result before after

private theorem isPlainKey_toJson {key : Node} (sound : key.Sound) (name : String) :
    IsPlainKey name key.toJson ↔ key.plainKey? = some name := by
  have identifierIff : key.type = "Identifier" ↔ key.kind = .identifier :=
    (Kind.ofType_eq_iff .identifier (by decide) key.type).symm
  have literalIff : key.type = "StringLiteral" ↔ key.kind = .stringLiteral :=
    (Kind.ofType_eq_iff .stringLiteral (by decide) key.type).symm
  rw [IsPlainKey, nodeType?_toJson sound, Option.some.injEq, Option.some.injEq, identifierIff,
    literalIff, toJson_of_sound sound, plainKey?]
  change _ ∧ Assoc.get? key.written "name" = _ ∨ _ ∧ Assoc.get? key.written "value" = _ ↔ _
  split
  · rename_i isIdentifier
    have specEq : key.kind.specOfKey? "name" = some ⟨"name", "name", .text⟩ :=
      Node.specOfKey?_of_kind isIdentifier rfl
    rw [text?_eq_some_iff sound specEq, isIdentifier]
    simp
  · rename_i isLiteral
    have specEq : key.kind.specOfKey? "value" = some ⟨"value", "value", .text⟩ :=
      Node.specOfKey?_of_kind isLiteral rfl
    rw [text?_eq_some_iff sound specEq, isLiteral]
    simp
  · rename_i notIdentifier notLiteral
    simp only [reduceCtorEq, iff_false, not_or, not_and]
    exact ⟨fun isIdentifier => (notIdentifier isIdentifier).elim,
      fun isLiteral => (notLiteral isLiteral).elim⟩

/-- A node with a key is written with the plain name that it has. -/
theorem isNamed_written {n : Node} (sound : n.Sound)
    (keySpec : n.kind.specOfKey? "key" = some ⟨"key", "key", .node⟩)
    (computedSpec : n.kind.specOfKey? "computed" = some ⟨"computed", "computed", .optionalFlag⟩)
    (name : String) : IsNamed name n.written ↔ n.propertyName? = some name := by
  obtain ⟨value, held⟩ := sound.exists_of_required (Kind.mem_of_specOfKey? keySpec) rfl
  obtain ⟨key, rfl, keySound⟩ := Value.exists_node_of_fits (sound.fits_of_get? keySpec held)
  have childEq : n.child? "key" = some key := by
    rw [child?, held]
    rfl
  have writtenKey : Assoc.get? n.written "key" = some key.toJson := by
    rw [get?_written sound keySpec, held]
    rfl
  rw [IsNamed, ne_eq, ← flag_eq_true_iff sound computedSpec rfl, writtenKey, propertyName?,
    childEq, Option.bind_some, keyName?]
  simp only [Option.some.injEq, exists_eq_left', isPlainKey_toJson keySound]
  split
  · rename_i computed
    simp [computed]
  · rename_i notComputed
    simp [notComputed]

theorem isStatic_written {n : Node} (sound : n.Sound) (name : String) :
    IsStatic name n.written ↔ isStaticProperty name n = true := by
  have typeIff : n.type = "ClassProperty" ↔ n.kind = .classProperty :=
    (Kind.ofType_eq_iff .classProperty (by decide) n.type).symm
  rw [IsStatic, typeOf?_written, Option.some.injEq, typeIff, isStaticProperty]
  by_cases isProperty : n.kind = .classProperty
  · have staticSpec : n.kind.specOfKey? "static" = some ⟨"static", "static", .optionalFlag⟩ :=
      Node.specOfKey?_of_kind isProperty rfl
    have keySpec : n.kind.specOfKey? "key" = some ⟨"key", "key", .node⟩ :=
      Node.specOfKey?_of_kind isProperty rfl
    have computedSpec :
        n.kind.specOfKey? "computed" = some ⟨"computed", "computed", .optionalFlag⟩ :=
      Node.specOfKey?_of_kind isProperty rfl
    rw [← flag_eq_true_iff sound staticSpec rfl, isNamed_written sound keySpec computedSpec]
    simp [isProperty]
  · simp [isProperty]

private theorem isProperty_toProperty (library : String) (entry : Entry) :
    IsProperty entry.prop (entry.toProperty library).toJson := by
  have sound := (entry.fresh_toProperty library).1
  refine ⟨_, toJson_of_sound sound, rfl, ?_⟩
  rw [isNamed_written sound (by rfl) (by rfl)]
  exact propertyName?_toProperty library entry

theorem objectExtended_appendProperties {target : Node} (sound : target.Sound)
    (isObject : target.kind = .objectExpression) (library : String) (entries : List Entry) :
    ObjectExtended (entries.map (·.prop)) target.written
      (appendProperties target (entries.map (Entry.toProperty library))).written := by
  refine ⟨?_, entries.map fun entry => (entry.toProperty library).toJson, ?_, ?_⟩
  · rw [typeOf?_written, Kind.eq_tag_of_ofType isObject (by decide)]
    rfl
  · rw [List.forall₂_map_left_iff, List.forall₂_map_right_iff, List.forall₂_same]
    exact fun entry _ => isProperty_toProperty library entry
  · have fits := fitItems_append (sound.fitItems (propertiesSpec isObject) rfl)
      (fitItems_map_node (fun p mem => (fresh_toProperties library entries p mem).1)
        fun _ => trivial)
    have listFits : Value.Fits (some .nodes) (.list _) := ⟨_, rfl, fits⟩
    have updated := updated_set sound (propertiesSpec isObject) listFits
    rw [appendProperties_of_object sound isObject,
      arrayUnder_written sound (propertiesSpec isObject) rfl]
    rw [Value.toJson, itemsToJson_eq_map, List.map_append, List.map_map, List.map_map] at updated
    exact updated

/-- A value in which the object literal was extended is written so. -/
theorem valueExtended_rewrap {declared target merged : Node} {added : List String}
    (sound : declared.Sound) (isProperty : declared.kind = .classProperty)
    (found : mergeTarget? (declared.child? "value") = some target) (mergedSound : merged.Sound)
    (extended : ObjectExtended added target.written merged.written) :
    ValueExtended added (Assoc.get? declared.written "value")
      (rewrap (declared.child? "value") merged).toJson := by
  rcases get?_written_of_optionalNode sound (valueSpec isProperty) rfl with
    ⟨noChild, noValue⟩ | ⟨v, childEq, writtenEq⟩
  · rw [noChild] at found ⊢
    cases found
    rw [rewrap, toJson_of_sound mergedSound]
    exact .absent noValue extended
  · have valueSound := sound.of_child? childEq
    rw [childEq] at found
    rw [childEq, writtenEq, toJson_of_sound valueSound]
    rcases mergeTarget?_eq_some found with
      ⟨valueEq, -⟩ | ⟨valueEq, isObject⟩ | ⟨call, valueEq, isCall, first, -⟩
    · cases valueEq
    · cases valueEq
      rw [rewrap_of_object isObject, toJson_of_sound mergedSound]
      exact .literal extended
    · cases valueEq
      obtain ⟨rest, -, itemsEq⟩ := exists_arguments valueSound isCall first
      have fits := valueSound.fitItems (argumentsSpec isCall) rfl
      rw [itemsEq] at fits
      have targetSound : target.Sound := fits.1.2
      have newFits : Value.Fits (some .nodes) (.list (.node merged :: rest.map .node)) :=
        ⟨_, rfl, ⟨trivial, mergedSound⟩, fits.2⟩
      have updated := updated_set valueSound (argumentsSpec isCall) newFits
      have newSound := valueSound.set (argumentsSpec isCall) newFits
      have before : arrayUnder v.written "arguments" =
          .object target.written :: (rest.map Value.node).map Value.toJson := by
        rw [arrayUnder_written valueSound (argumentsSpec isCall) rfl, itemsEq, List.map_cons,
          Value.toJson, toJson_of_sound targetSound]
      rw [rewrap_of_call isCall, itemsEq, List.drop_one, List.tail_cons, toJson_of_sound newSound]
      rw [Value.toJson, itemsToJson_eq_map, List.map_cons, Value.toJson,
        toJson_of_sound mergedSound] at updated
      refine .argument ?_ before extended updated
      rw [typeOf?_written, Kind.eq_tag_of_ofType isCall (by decide)]
      rfl

@[simp]
theorem toJson_map_node (nodes : List Node) :
    (nodes.map Value.node).map Value.toJson = nodes.map Node.toJson := by
  rw [List.map_map]
  rfl

theorem not_isStatic_of_mem {nodes : List Node} {name : String} (sound : ∀ n ∈ nodes, n.Sound)
    (noneStatic : ∀ n ∈ nodes, isStaticProperty name n = false) :
    ∀ member, .object member ∈ nodes.map Node.toJson → ¬ IsStatic name member := by
  intro member mem
  obtain ⟨n, nMem, writtenEq⟩ := List.mem_map.mp mem
  rw [toJson_of_sound (sound n nMem)] at writtenEq
  cases writtenEq
  rw [isStatic_written (sound n nMem), noneStatic n nMem]
  exact Bool.false_ne_true

section Members

variable {property library : String} {entries : List Entry} {nodes : List Node}

/-- A new static property has all entries in its object literal. -/
theorem membersPatched_insert (sound : ∀ n ∈ nodes, n.Sound)
    (noneStatic : nodes.find? (isStaticProperty property) = none) :
    MembersPatched property (entries.map (·.prop)) (nodes.map Node.toJson)
      ((staticProperty property (mergeEntries library none entries)).toJson ::
        nodes.map Node.toJson) := by
  rw [List.find?_eq_none] at noneStatic
  have valueFresh : Fresh (mergeEntries library none entries) :=
    fresh_objectOf (fresh_toProperties library entries)
  have newSound := (fresh_staticProperty property valueFresh).1
  have held : Assoc.get? (staticProperty property (mergeEntries library none entries)).written
      "value" = some (mergeEntries library none entries).toJson := by
    rw [get?_written newSound (valueSpec (by rfl))]
    rfl
  have extended : ObjectExtended (entries.map (·.prop)) [("type", .string "ObjectExpression")]
      (mergeEntries library none entries).written := by
    rw [mergeEntries, objectOf_eq_appendProperties]
    exact objectExtended_appendProperties fresh_emptyObject.1 (by decide) library entries
  rw [toJson_of_sound newSound]
  refine .inserted ?_ ?_ held ?_
  · exact not_isStatic_of_mem sound fun n mem => Bool.eq_false_iff.mpr (noneStatic n mem)
  · rw [isStatic_written newSound]
    exact isStaticProperty_staticProperty property _
  · rw [toJson_of_sound valueFresh.1]
    exact .absent (.inl rfl) extended

/-- The first node that passes a test is the one that is changed. -/
theorem exists_modifyFirst_eq {test : Node → Bool} {declared : Node}
    (found : nodes.find? test = some declared) (change : Node → Node) :
    ∃ before after, nodes = before ++ declared :: after ∧ (∀ n ∈ before, test n = false) ∧
      modifyFirst test change (nodes.map .node) =
        (before ++ change declared :: after).map .node := by
  induction nodes with
  | nil => cases found
  | cons n nodes ih =>
      rw [List.find?_cons] at found
      split at found
      · rename_i passes
        cases found
        refine ⟨[], nodes, rfl, by simp, ?_⟩
        rw [List.map_cons, modifyFirst, if_pos passes]
        rfl
      · rename_i fails
        obtain ⟨before, after, rfl, noneBefore, changedEq⟩ := ih found
        refine ⟨n :: before, after, rfl, List.forall_mem_cons.mpr ⟨fails, noneBefore⟩, ?_⟩
        rw [List.map_cons, modifyFirst, if_neg (by simp [fails]), changedEq]
        rfl

/-- The first static property of a name has new entries in its object literal. -/
theorem membersPatched_extend {declared target : Node} (sound : ∀ n ∈ nodes, n.Sound)
    (first : nodes.find? (isStaticProperty property) = some declared)
    (found : mergeTarget? (declared.child? "value") = some target) :
    MembersPatched property (entries.map (·.prop)) (nodes.map Node.toJson)
      ((modifyFirst (isStaticProperty property)
        (extendProperty (entries.map (Entry.toProperty library))) (nodes.map .node)).map
          Value.toJson) := by
  have static : isStaticProperty property declared = true := List.find?_some first
  have isProperty := kind_of_isStaticProperty static
  obtain ⟨before, after, rfl, noneBefore, changedEq⟩ := exists_modifyFirst_eq first
    (extendProperty (entries.map (Entry.toProperty library)))
  rw [List.forall_mem_append, List.forall_mem_cons] at sound
  obtain ⟨beforeSound, declaredSound, -⟩ := sound
  have valueSound : ∀ v, declared.child? "value" = some v → v.Sound :=
    fun _ => declaredSound.of_child?
  obtain ⟨targetSound, isObject⟩ := sound_mergeTarget? valueSound found
  have fresh := fresh_toProperties library entries
  have mergedSound := sound_appendProperties targetSound isObject fresh
  have changedSound := sound_extendProperty declaredSound isProperty fresh
  have fits : Value.Fits (some .optionalNode) (.node (rewrap (declared.child? "value")
      (appendProperties target (entries.map (Entry.toProperty library))))) :=
    ⟨trivial, sound_rewrap valueSound found mergedSound⟩
  have updated := updated_set declaredSound (valueSpec isProperty) fits
  rw [changedEq, toJson_map_node, List.map_append, List.map_append, List.map_cons, List.map_cons,
    toJson_of_sound declaredSound, toJson_of_sound changedSound]
  refine .extended (not_isStatic_of_mem beforeSound noneBefore)
    ((isStatic_written declaredSound property).mpr static)
    (valueExtended_rewrap declaredSound isProperty found mergedSound
      (objectExtended_appendProperties targetSound isObject library entries)) ?_
  rw [extendProperty_eq, found]
  exact updated

end Members

section Classes

variable {c body : Node}

/-- A class is written with the members of its body changed. -/
theorem classPatched_apply {property : String} {result : PatchResult} {edit : ClassEdit}
    (sound : c.Sound) (isClass : c.kind = .classDeclaration) (hasBody : HasBody c body)
    (fresh : edit.IsFresh) (status : result.status = .patched) (something : result.added ≠ [])
    (inside : MembersPatched property result.added ((body.children "body").map Node.toJson)
      ((edit.onMembers (body.items "body")).map Value.toJson)) :
    ClassPatched property result c.written (edit.apply c).written := by
  have bodyEq := bodySpec hasBody.kind_eq
  have itemsEq := hasBody.sound.items_eq_map_node bodyEq rfl
  have fits : Value.Fits (some .nodes) (.list (edit.onMembers (body.items "body"))) :=
    ⟨_, rfl, ClassEdit.fitItems_onMembers fresh (hasBody.sound.fitItems bodyEq rfl)⟩
  have patchedSound := hasBody.sound.set bodyEq fits
  have bodyUpdated := updated_set hasBody.sound bodyEq fits
  rw [Value.toJson, itemsToJson_eq_map] at bodyUpdated
  have bodyFits : Value.Fits (some (.body .classBody))
      (.node (body.set "body" (.list (edit.onMembers (body.items "body"))))) :=
    ⟨hasBody.type_eq, patchedSound⟩
  have updated := updated_set sound (classBodySpec isClass) bodyFits
  rw [Value.toJson, toJson_of_sound patchedSound] at updated
  rw [edit.apply_eq, hasBody.withMembers_eq]
  refine .changed status something ?_ ?_ bodyUpdated updated
  · rw [get?_written sound (classBodySpec isClass), hasBody.held, Option.map_some, Value.toJson,
      toJson_of_sound hasBody.sound]
  · rw [arrayUnder_written hasBody.sound bodyEq rfl, itemsEq, toJson_map_node]
    rw [itemsEq] at inside
    exact inside

/-- Something is missing where there is no value yet. -/
theorem isSome_of_complete {value : Option Node} {target : Node} {entries : List Entry}
    (found : mergeTarget? value = some target) (needed : entries ≠ [])
    (complete : missingEntries (declaredNames target) entries = []) : value.isSome = true := by
  cases value with
  | some v => rfl
  | none =>
      cases found
      have noNames : declaredNames (.ofDeclared "ObjectExpression" []) = [] := by rfl
      rw [noNames, missingEntries_nil] at complete
      exact (needed complete).elim

section Planned

variable {options : Options} {name : Option String} {typeNames : List String}
  {entries : List Entry} {result : PatchResult} {edit : Option ClassEdit}

/-- A class changed as planned for its usable entries is written as its result says. -/
theorem classPatched_plannedEntries (sound : c.Sound) (isClass : c.kind = .classDeclaration)
    (needed : entries ≠ [])
    (planEq : (result, edit) = plannedEntries options name typeNames entries
      (.of options.validatorProperty c)) :
    ClassPatched options.validatorProperty result c.written (applyEdit edit c).written := by
  obtain ⟨body, hasBody⟩ := HasBody.exists_of_sound sound isClass
  have membersSound : ∀ n ∈ body.children "body", n.Sound :=
    fun _ => hasBody.sound.of_mem_children
  have itemsEq := hasBody.sound.items_eq_map_node (bodySpec hasBody.kind_eq) rfl
  have memberEq := staticMember?_eq_find? options.validatorProperty hasBody.members_eq
  have fresh : ∀ e, edit = some e → e.IsFresh := by
    rintro e rfl
    exact isFresh_plannedEntries (congrArg Prod.snd planEq).symm
  rw [Standing.of, memberEq] at planEq
  cases first : (body.children "body").find? (isStaticProperty options.validatorProperty) with
  | none =>
      rw [first] at planEq
      cases planEq
      refine classPatched_apply sound isClass hasBody (fresh _ rfl) rfl (by simpa using needed) ?_
      rw [itemsEq]
      change MembersPatched _ _ _ (Value.toJson _ :: _)
      rw [toJson_map_node]
      exact membersPatched_insert membersSound first
  | some declared =>
      rw [first, Option.map_some, Option.getD_some, Standing.ofValue] at planEq
      cases found : mergeTarget? (declared.child? "value") with
      | none =>
          rw [found] at planEq
          cases planEq
          exact .kept rfl
      | some target =>
          rw [found] at planEq
          by_cases complete : missingEntries (declaredNames target) entries = []
          · dsimp only at planEq
            rw [isSome_of_complete found needed complete,
              plannedEntries_of_complete complete] at planEq
            cases planEq
            exact .kept rfl
          · dsimp only [plannedEntries] at planEq
            rw [if_pos (by simp [complete])] at planEq
            cases planEq
            refine classPatched_apply sound isClass hasBody (fresh _ rfl) rfl
              (by simpa using complete) ?_
            rw [itemsEq]
            exact membersPatched_extend membersSound first found

/-- A class changed as planned is written as its result says. -/
theorem classPatched_applyEdit {context : Context} (sound : c.Sound)
    (isClass : c.kind = .classDeclaration)
    (planned : planReading options context (readClass options c) = .ok (result, edit)) :
    ClassPatched options.validatorProperty result c.written (applyEdit edit c).written := by
  rcases planReading_cases planned with
    ⟨rfl, nothing, -⟩ | ⟨propsType, shape, -, -, usable, planEq⟩
  · exact .kept nothing
  · refine classPatched_plannedEntries sound isClass ?_ planEq
    intro noEntries
    rw [noEntries] at usable
    cases usable

end Planned

end Classes

end PropValidators
