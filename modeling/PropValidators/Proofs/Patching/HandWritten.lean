import PropValidators.Proofs.Patching.Completion

/-!
# Static members written by hand

The validators of a class are looked for among its static properties.  Where there is one of
their name, no member is added: the first of them is merged into, or the class is left alone.
Where there is none, patching adds one in front, even if a static method or getter has the name
already.
-/

namespace PropValidators

open Ast Node

/-- Whether a class member is a static method or getter of a plain name.  The fields of methods
are not declared. -/
def isStaticMethod (name : String) (member : Node) : Bool :=
  let isTrue (key : String) : Bool :=
    match member.field? (.unknown key) with
    | some (.data (.bool b)) => b
    | _ => false
  let kind := (member.field? (.unknown "kind")).bind Value.text?
  let key := (member.field? (.unknown "key")).bind Value.node?
  member.type == "ClassMethod" && (kind == some "method" || kind == some "get") &&
    isTrue "static" && key.bind (·.keyName? (isTrue "computed")) == some name

/-- Whether a class member is a static property, method or getter of a plain name. -/
def isStaticMember (name : String) (member : Node) : Bool :=
  isStaticProperty name member || isStaticMethod name member

theorem isStaticMember_of_property {name : String} {member : Node}
    (isStatic : isStaticProperty name member = true) : isStaticMember name member = true := by
  rw [isStaticMember, isStatic, Bool.true_or]

/-- One member of a list is merged into or left alone, and all others stay. -/
def MergedInto (property : String) (before after : List Node) : Prop :=
  ∃ front declared changed back, before = front ++ declared :: back ∧
    after = front ++ changed :: back ∧
    isStaticProperty property declared = true ∧ isStaticProperty property changed = true ∧
    (∀ member ∈ front, isStaticProperty property member = false) ∧
    (changed = declared ∨ ∃ added, changed = extendProperty added declared)

theorem MergedInto.countP_eq {property : String} {before after : List Node}
    (merged : MergedInto property before after) :
    after.countP (isStaticMember property) = before.countP (isStaticMember property) := by
  obtain ⟨front, declared, changed, back, rfl, rfl, wasStatic, isStatic, -, -⟩ := merged
  rw [List.countP_append, List.countP_append,
    List.countP_cons_of_pos (isStaticMember_of_property wasStatic),
    List.countP_cons_of_pos (isStaticMember_of_property isStatic)]

section Members

variable {property : String} {c : Node} {members : List Node}

/-- A class that is left alone keeps its static property. -/
theorem mergedInto_self {declared : Node}
    (found : members.find? (isStaticProperty property) = some declared) :
    MergedInto property members members := by
  obtain ⟨isStatic, front, back, rfl, noneBefore⟩ := List.find?_eq_some_iff_append.mp found
  exact ⟨front, declared, declared, back, rfl, rfl, isStatic, isStatic,
    fun member mem => by simpa using noneBefore member mem, .inl rfl⟩

private theorem members_insert (sound : c.Sound) (isClass : c.kind = .classDeclaration)
    (membersEq : c.members = .ok members) {member : Node}
    (fresh : (ClassEdit.insert member).IsFresh) :
    (ClassEdit.apply (.insert member) c).members = .ok (member :: members) := by
  obtain ⟨body, hasBody⟩ := HasBody.exists_of_sound sound isClass
  rw [members_apply sound isClass hasBody fresh]
  rw [hasBody.members_eq] at membersEq
  cases membersEq
  rfl

private theorem mergedInto_extend (sound : c.Sound) (isClass : c.kind = .classDeclaration)
    (membersEq : c.members = .ok members) {declared : Node}
    (found : members.find? (isStaticProperty property) = some declared) {added : List Node}
    (fresh : (ClassEdit.extend property added).IsFresh) :
    ∃ after, (ClassEdit.apply (.extend property added) c).members = .ok after ∧
      MergedInto property members after := by
  obtain ⟨body, hasBody⟩ := HasBody.exists_of_sound sound isClass
  have itemsEq := hasBody.sound.items_eq_map_node (bodySpec hasBody.kind_eq) rfl
  have isStatic : isStaticProperty property declared = true := List.find?_some found
  rw [hasBody.members_eq] at membersEq
  cases membersEq
  obtain ⟨front, back, splitEq, noneBefore, changedEq⟩ :=
    exists_modifyFirst_eq found (extendProperty added)
  refine ⟨front ++ extendProperty added declared :: back, ?_, front, declared, _, back, splitEq,
    rfl, isStatic, ?_, noneBefore, .inr ⟨added, rfl⟩⟩
  · rw [members_apply sound isClass hasBody fresh, ClassEdit.onMembers, itemsEq, changedEq,
      filterMap_node?_map_node]
  · rw [isStaticProperty_extendProperty, isStatic]

end Members

section Patching

variable {options : Options} {context : Context} {c : Node} {members : List Node}
  {name : Option String} {typeNames : List String} {entries : List Entry}
  {result : PatchResult} {edit : Option ClassEdit}

/-- Without a static property for the validators, a new one is planned. -/
theorem inserts_of_absent {standing : Standing} (absent : standing = .absent)
    (planEq : (result, edit) = plannedEntries options name typeNames entries standing) :
    result.patched = true ∧
      ∃ value, edit = some (.insert (staticProperty options.validatorProperty value)) := by
  subst absent
  cases planEq
  exact ⟨rfl, _, rfl⟩

/-- With a static property for the validators, nothing is planned but to extend it. -/
theorem extends_of_declared {standing : Standing} (declared : standing ≠ .absent)
    (planEq : (result, edit) = plannedEntries options name typeNames entries standing) :
    edit = none ∨ ∃ added, edit = some (.extend options.validatorProperty added) := by
  have editEq : edit = (plannedEntries options name typeNames entries standing).2 :=
    congrArg Prod.snd planEq
  cases standing with
  | absent => exact absurd rfl declared
  | closed => exact .inl editEq
  | listed names hasValue =>
      rw [plannedEntries] at editEq
      dsimp only at editEq
      split at editEq
      · exact .inr ⟨_, editEq⟩
      · exact .inl editEq

private theorem standing_ne_absent {declared : Node}
    (found : staticMember? options.validatorProperty c = some declared) :
    Standing.of options.validatorProperty c ≠ .absent := by
  rw [Standing.of, found, Option.map_some, Option.getD_some, Standing.ofValue]
  split <;> exact Standing.noConfusion

/-- Where a static property has the name of the validators, it is merged into, or the class is
left alone. -/
theorem mergedInto_of_planned (sound : c.Sound) (isClass : c.kind = .classDeclaration)
    (membersEq : c.members = .ok members) {declared : Node}
    (found : members.find? (isStaticProperty options.validatorProperty) = some declared)
    (planned : planReading options context (readClass options c) = .ok (result, edit)) :
    ∃ after, (applyEdit edit c).members = .ok after ∧
      MergedInto options.validatorProperty members after := by
  have present := standing_ne_absent ((staticMember?_eq_find? _ membersEq).trans found)
  have fresh := isFresh_planReading planned
  have editCases : edit = none ∨
      ∃ added, edit = some (.extend options.validatorProperty added) := by
    rcases planReading_cases planned with ⟨noEdit, -⟩ | ⟨_, _, -, -, -, planEq⟩
    · exact .inl noEdit
    · exact extends_of_declared present planEq
  rcases editCases with rfl | ⟨added, rfl⟩
  · exact ⟨members, membersEq, mergedInto_self found⟩
  · exact mergedInto_extend sound isClass membersEq found (fresh _ rfl)

/-- Where no static property has the name of the validators, one is added in front exactly if
the status is `patched`. -/
theorem members_of_planned (sound : c.Sound) (isClass : c.kind = .classDeclaration)
    (membersEq : c.members = .ok members)
    (absent : members.find? (isStaticProperty options.validatorProperty) = none)
    (planned : planReading options context (readClass options c) = .ok (result, edit)) :
    (result.patched = false → (applyEdit edit c).members = .ok members) ∧
      (result.patched = true → ∃ value, (applyEdit edit c).members =
        .ok (staticProperty options.validatorProperty value :: members)) := by
  have standing : (readClass options c).standing = .absent := by
    change Standing.of options.validatorProperty c = .absent
    rw [Standing.of, staticMember?_eq_find? _ membersEq, absent]
    rfl
  have fresh := isFresh_planReading planned
  rcases planReading_cases planned with ⟨rfl, -, -, unpatched⟩ | ⟨_, _, -, -, -, planEq⟩
  · refine ⟨fun _ => membersEq, fun patched => ?_⟩
    rw [unpatched] at patched
    cases patched
  · obtain ⟨patched, value, rfl⟩ := inserts_of_absent standing planEq
    refine ⟨fun unpatched => ?_, fun _ => ?_⟩
    · rw [patched] at unpatched
      cases unpatched
    · exact ⟨value, members_insert sound isClass membersEq (fresh _ rfl)⟩

/-- Patching keeps the number of static members of the name of the validators, unless the status
is `patched` and none of them is a property: then there is one more, in front.  Where one of
them is a property, the first of these is merged into or left alone. -/
theorem static_members_after_patching (sound : c.Sound) (isClass : c.kind = .classDeclaration)
    (returned : (planClass options context c).outcome = .ok (result, edit)) :
    ∃ before after, c.members = .ok before ∧ (editClasses [edit] c).1.members = .ok after ∧
      ((∃ member ∈ before, isStaticProperty options.validatorProperty member = true) →
        MergedInto options.validatorProperty before after) ∧
      ((∀ member ∈ before, isStaticProperty options.validatorProperty member = false) →
        (result.patched = false → after = before) ∧
        (result.patched = true →
          ∃ value, after = staticProperty options.validatorProperty value :: before)) ∧
      (after.countP (isStaticMember options.validatorProperty) =
          before.countP (isStaticMember options.validatorProperty) ↔
        result.patched = false ∨
          ∃ member ∈ before, isStaticProperty options.validatorProperty member = true) := by
  obtain ⟨before, beforeEq, -⟩ := exists_members sound isClass
  rw [outcome_planClass sound isClass] at returned
  rw [editClasses_singleton isClass]
  cases found : before.find? (isStaticProperty options.validatorProperty) with
  | some declared =>
      obtain ⟨after, afterEq, merged⟩ :=
        mergedInto_of_planned sound isClass beforeEq found returned
      have isStatic := List.find?_some found
      have mem := List.mem_of_find?_eq_some found
      refine ⟨before, after, beforeEq, afterEq, fun _ => merged, fun none => ?_,
        iff_of_true merged.countP_eq (.inr ⟨declared, mem, isStatic⟩)⟩
      rw [none declared mem] at isStatic
      cases isStatic
  | none =>
      obtain ⟨unchanged, inserted⟩ := members_of_planned sound isClass beforeEq found returned
      have noneStatic : ¬ ∃ member ∈ before,
          isStaticProperty options.validatorProperty member = true := by
        rintro ⟨member, mem, isStatic⟩
        exact List.find?_eq_none.mp found member mem isStatic
      cases patched : result.patched with
      | false =>
          exact ⟨before, before, beforeEq, unchanged patched, fun some => absurd some noneStatic,
            fun _ => ⟨fun _ => rfl, nofun⟩, iff_of_true rfl (.inl rfl)⟩
      | true =>
          obtain ⟨value, afterEq⟩ := inserted patched
          refine ⟨before, _, beforeEq, afterEq, fun some => absurd some noneStatic,
            fun _ => ⟨nofun, fun _ => ⟨value, rfl⟩⟩, ?_⟩
          rw [List.countP_cons_of_pos (isStaticMember_of_property
            (isStaticProperty_staticProperty options.validatorProperty value))]
          refine iff_of_false (by omega) ?_
          rintro (contrary | some)
          · cases contrary
          · exact noneStatic some

end Patching

/-- The gallery keeps its only static member, which is merged into. -/
theorem static_members_after_patching_galleryClass :
    galleryClass.Sound ∧ galleryClass.kind = .classDeclaration ∧
      ∃ edit before after, (planClass {} galleryContext galleryClass).outcome =
          .ok (⟨.patched, some "Gallery", ["Props"], ["text"]⟩, edit) ∧
        galleryClass.members = .ok before ∧
        (editClasses [edit] galleryClass).1.members = .ok after ∧
        MergedInto "propTypes" before after ∧ after.countP (isStaticMember "propTypes") = 1 := by
  obtain ⟨sound, isClass⟩ := sound_galleryClass
  obtain ⟨edit, returned⟩ := exists_plan_galleryClass
  obtain ⟨before, after, beforeEq, afterEq, merged, -, countEq⟩ :=
    static_members_after_patching sound isClass returned
  have membersEq : galleryClass.members = .ok [staticProperty "propTypes"
      (call (identifier "wrap") [object [("panel", titledClass)]])] := by
    rfl
  rw [beforeEq] at membersEq
  cases membersEq
  have isStatic := isStaticProperty_staticProperty "propTypes"
    (call (identifier "wrap") [object [("panel", titledClass)]])
  have some : ∃ member ∈ [staticProperty "propTypes"
      (call (identifier "wrap") [object [("panel", titledClass)]])],
      isStaticProperty "propTypes" member = true :=
    ⟨_, List.mem_singleton_self _, isStatic⟩
  refine ⟨sound, isClass, edit, _, after, returned, beforeEq, afterEq, merged some, ?_⟩
  rw [countEq.mpr (.inr some), List.countP_singleton,
    if_pos (isStaticMember_of_property isStatic)]

/-- A static getter for the validators. -/
def validatorGetter : Node :=
  ⟨"ClassMethod", [(.unknown "kind", .text "get"), (.unknown "static", .flag true),
    (.unknown "computed", .flag false), (.unknown "key", .node (identifier "propTypes")),
    (.unknown "params", .list []),
    (.unknown "body", .node ⟨"BlockStatement", [(.unknown "body", .list [])]⟩)]⟩

/-- A class whose validators are given by the getter. -/
def getterClass : Node :=
  classDeclaration "Title" (some (typeLiteral [titleMember])) [validatorGetter] "Component"

/-- A module with that class. -/
def getterModule : Node :=
  program [getterClass]

/-- The module as it is written. -/
def getterJson : Json :=
  programJson [classDeclarationJson "Title" titledTypeJson
    [nodeJson "ClassMethod" [("kind", .string "get"), ("static", .bool true),
      ("computed", .bool false), ("key", identifierJson "propTypes"), ("params", .array []),
      ("body", nodeJson "BlockStatement" [("body", .array [])])]]]

@[simp]
theorem readDocument_getterJson : readDocument 0 getterJson = .ok getterModule := by
  rfl

private theorem distinct_getterJson : getterJson.Distinct := by
  simp [getterJson, titledTypeJson]

/-- The getter is not found, and a static property is added in front of it. -/
theorem static_getter_shadowed :
    let context := (Workspace.ofModule [] getterModule {}).context
    readDocument 0 getterJson = .ok getterModule ∧ getterClass ∈ classNodes getterModule ∧
      isStaticMethod "propTypes" validatorGetter = true ∧
      (∃ edit value, (planClass {} context getterClass).outcome =
          .ok (⟨.patched, some "Title", [], ["text"]⟩, edit) ∧
        (editClasses [edit] getterClass).1.members =
          .ok [staticProperty "propTypes" value, validatorGetter]) ∧
      ¬ ∀ (options : Options) (context : Context) (c : Node) (result : PatchResult)
        (edit : Option ClassEdit) (before after : List Node), c.Sound →
        c.kind = .classDeclaration →
        (planClass options context c).outcome = .ok (result, edit) → c.members = .ok before →
        (∃ member ∈ before, isStaticMember options.validatorProperty member = true) →
        (editClasses [edit] c).1.members = .ok after →
          after.countP (isStaticMember options.validatorProperty) =
            before.countP (isStaticMember options.validatorProperty) := by
  intro context
  have mem : getterClass ∈ classNodes getterModule := by
    rw [classNodes, Node.walk_eq_tree]
    exact List.mem_cons_self
  have sound := sound_of_mem_classNodes
    (sound_of_readNode distinct_getterJson readDocument_getterJson) mem
  have isClass := isClass_of_mem_classNodes mem
  have isMethod : isStaticMethod "propTypes" validatorGetter = true := by rfl
  have planned : planReading {} context (readClass {} getterClass) =
      .ok (plannedEntries {} (some "Title") [] (Entry.ofProps [titledField] []) .absent) := by
    rw [show readClass {} getterClass = _ from readClass_titled [validatorGetter]]
    exact (planReading_of_shape rfl (outcome_resolveType_titledProps (by rfl))).trans (by rfl)
  have membersEq : getterClass.members = .ok [validatorGetter] := by rfl
  obtain ⟨value, afterEq⟩ := (members_of_planned sound isClass membersEq (by rfl) planned).2 rfl
  have returned := (outcome_planClass sound isClass {} context).trans planned
  rw [← editClasses_singleton isClass] at afterEq
  refine ⟨readDocument_getterJson, mem, isMethod, ⟨_, value, returned, afterEq⟩, fun claim => ?_⟩
  have isMember : isStaticMember "propTypes" validatorGetter = true := by
    rw [isStaticMember, isMethod, Bool.or_true]
  have same := claim {} context getterClass _ _ _ _ sound isClass returned membersEq
    ⟨_, List.mem_singleton_self _, isMember⟩ afterEq
  rw [List.countP_cons_of_pos (isStaticMember_of_property
    (isStaticProperty_staticProperty "propTypes" value))] at same
  exact Nat.succ_ne_self _ same

end PropValidators
