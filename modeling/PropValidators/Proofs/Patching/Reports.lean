import PropValidators.CommandLine.Run
import PropValidators.Proofs.Patching.Faults

/-!
# Reports and classes

The report on a module has one entry for each class, made before anything is changed.  The
classes are found again afterwards: a change adds no class and takes none away, it leaves the
names as they are, and where an entry says that a class has all its validators, they have been
written into the value of a static property.  So entries and classes can be gone through side
by side.
-/

namespace PropValidators

open Ast Node

/-- What an entry of a report says is true of a class after the change. -/
structure PatchResult.Describes (property : String) (result : PatchResult) (c : Node) : Prop where
  /-- The entry names the class. -/
  named : (c.child? "id").bind entityText? = result.className
  /-- A class that has all validators has them in the value of a static property. -/
  valued : result.patched = true →
    ∃ declared value, staticProperty? c property = .ok (some declared) ∧
      declared.child? "value" = some value

/-- Validators that are listed in a value are in a static property with that value. -/
theorem exists_value_of_listed {property : String} {c : Node} {names : List String}
    (listed : Standing.of property c = .listed names true) :
    ∃ declared value, staticMember? property c = some declared ∧
      declared.child? "value" = some value := by
  rw [Standing.of] at listed
  cases found : staticMember? property c with
  | none =>
      rw [found] at listed
      cases listed
  | some declared =>
      rw [found, Option.map_some, Option.getD_some, Standing.ofValue] at listed
      cases targetEq : mergeTarget? (declared.child? "value") with
      | none =>
          rw [targetEq] at listed
          cases listed
      | some target =>
          rw [targetEq] at listed
          dsimp only at listed
          injection listed with _ hasValue
          obtain ⟨value, held⟩ := Option.isSome_iff_exists.mp hasValue
          exact ⟨declared, value, rfl, held⟩

section Reading

variable {options : Options} {context : Context}

@[simp]
theorem className_plannedEntries (name : Option String) (typeNames : List String)
    (entries : List Entry) (standing : Standing) :
    (plannedEntries options name typeNames entries standing).1.className = name := by
  cases standing <;> rfl

/-- Only classes whose validators can be added to are reported to have all of them. -/
theorem listed_of_patched_plannedEntries {name : Option String} {typeNames : List String}
    {entries : List Entry} {standing : Standing}
    (patched : (plannedEntries options name typeNames entries standing).1.patched = true) :
    ∃ names, standing.covering entries = .listed names true := by
  cases standing with
  | absent => exact ⟨_, rfl⟩
  | closed => cases patched
  | listed names hasValue => exact ⟨_, rfl⟩

/-- After a class was changed as planned, the report describes it. -/
theorem describes_applyEdit {c : Node} (sound : c.Sound) (isClass : c.kind = .classDeclaration)
    {result : PatchResult} {edit : Option ClassEdit}
    (planned : planReading options context (readClass options c) = .ok (result, edit)) :
    result.Describes options.validatorProperty (applyEdit edit c) := by
  have kept := kept_applyEdit (isFresh_planReading planned) sound isClass
  have nameEq := (readClass_heading_congr kept.sound sound kept.outline_eq options).1
  rcases planReading_cases planned with
    ⟨-, -, className, unpatched⟩ | ⟨propsType, shape, -, -, -, planEq⟩
  · constructor
    · exact nameEq.trans className.symm
    · intro patched
      rw [unpatched] at patched
      cases patched
  · obtain ⟨resultEq, editEq⟩ := Prod.ext_iff.mp planEq
    dsimp only at resultEq editEq
    constructor
    · rw [resultEq, className_plannedEntries]
      exact nameEq
    · intro patched
      rw [resultEq] at patched
      obtain ⟨names, listed⟩ := listed_of_patched_plannedEntries patched
      have standing : Standing.of options.validatorProperty (applyEdit edit c) =
          .listed names true := by
        rw [editEq]
        exact (standing_applyEdit sound isClass).trans listed
      obtain ⟨declared, value, found, held⟩ := exists_value_of_listed standing
      refine ⟨declared, value, ?_, held⟩
      have editedClass : (applyEdit edit c).kind = .classDeclaration :=
        (congrArg Kind.ofType kept.type_eq).trans isClass
      rw [staticProperty?_of_sound kept.sound editedClass, found]

end Reading

/-- The name under which a class is shown. -/
def PatchResult.shownName (result : PatchResult) : String :=
  match result.className with
  | some name => if name = "" then "<anonymous>" else name
  | none => "<anonymous>"

/-- The lines that show the validators of a class, given as a text. -/
def PatchResult.shownLines (property : String) (result : PatchResult) (text : String) :
    List String :=
  ["// " ++ result.shownName, result.shownName ++ "." ++ property ++ " = " ++ text ++ ";"]

section Preview

variable {property : String} {result : PatchResult} {c : Node}

/-- The validators of a class are shown under the name in the report. -/
theorem previewClass_of_patched (describes : result.Describes property c)
    (patched : result.patched = true) :
    ∃ declared value, staticProperty? c property = .ok (some declared) ∧
      declared.child? "value" = some value ∧
      (CommandLine.previewClass property c result).outcome =
        (value.rendered 0).map (result.shownLines property) := by
  obtain ⟨declared, value, found, held⟩ := describes.valued patched
  refine ⟨declared, value, found, held, ?_⟩
  have valueEq : staticValue? (some declared) = some value := held
  rw [CommandLine.previewClass, describes.named, if_pos patched, found, Traced.outcome_bind]
  dsimp only [Traced.ofExcept, Except.bind]
  rw [valueEq]
  dsimp only
  rw [Traced.outcome_bind]
  dsimp only [Traced.ofExcept]
  cases value.rendered 0 with
  | error fault => rfl
  | ok text => rfl

/-- Of a class without all validators the status is shown under the name in the report. -/
theorem previewClass_of_unpatched (describes : result.Describes property c)
    (unpatched : result.patched = false) :
    (CommandLine.previewClass property c result).outcome =
      .ok ["// " ++ result.shownName ++ ": " ++ result.status.name] := by
  rw [CommandLine.previewClass, describes.named, unpatched]
  rfl

end Preview

private theorem map_outline_editEach {edits : List (Option ClassEdit)} (fresh : AllFresh edits)
    {classes : List Node} (sound : ∀ c ∈ classes, c.Sound) :
    (editEach edits classes).map outline = classes.map outline := by
  induction classes generalizing edits with
  | nil => rfl
  | cons c classes ih =>
      rw [List.forall_mem_cons] at sound
      rw [editEach, List.map_cons, List.map_cons, (nodeEdited c sound.1 edits fresh).outline_eq,
        ih (fresh.drop 1) sound.2]

/-- The classes of a patched module are those of the module as it was, each with its change, in
the same order and as many as there are results.  Each result names its class, and where it says
that the class has all validators, these are the value of a static property.  So going through
classes and results side by side leaves out nothing, and shows the validators that are there
under the name of their class. -/
theorem classes_match_results {options : Options} {imports : List Node} {x : Json} {number : Nat}
    {root : Node} {results : List PatchResult} (distinct : x.Distinct)
    (read : readDocument number x = .ok root)
    (returns : (transformModule options imports root).report.outcome = .ok results) :
    ∃ (after : Node) (edits : List (Option ClassEdit)),
      (transformModule options imports root).root = after ∧
      after = (editClasses edits root).1 ∧
      classNodes after = editEach edits (classNodes root) ∧
      (classNodes after).map outline = (classNodes root).map outline ∧
      (classNodes root).length = results.length ∧
      List.Forall₂ (fun c result => result.Describes options.validatorProperty c)
        (classNodes after) results ∧
      ((classNodes after).zip results).map Prod.fst = classNodes after ∧
      ∀ pair ∈ (classNodes after).zip results,
        (pair.2.patched = false →
          (CommandLine.previewClass options.validatorProperty pair.1 pair.2).outcome =
            .ok ["// " ++ pair.2.shownName ++ ": " ++ pair.2.status.name]) ∧
        (pair.2.patched = true →
          ∃ declared value, staticProperty? pair.1 options.validatorProperty = .ok (some declared) ∧
            declared.child? "value" = some value ∧
            (CommandLine.previewClass options.validatorProperty pair.1 pair.2).outcome =
              (value.rendered 0).map (pair.2.shownLines options.validatorProperty)) := by
  have sound := sound_of_readNode distinct read
  obtain ⟨plans, planned, rfl, rootEq⟩ := exists_plans sound returns
  have fresh := allFresh_of_planned planned
  have classes : ∀ c ∈ classNodes root, c.Sound ∧ c.kind = .classDeclaration := fun c mem =>
    ⟨sound_of_mem_classNodes sound mem, isClass_of_mem_classNodes mem⟩
  have classesEq := classNodes_editClasses fresh sound
  have described : List.Forall₂ (fun c result => result.Describes options.validatorProperty c)
      (classNodes (editClasses (plans.map Prod.snd) root).1) (plans.map Prod.fst) := by
    rw [classesEq, List.forall₂_map_right_iff]
    exact forall₂_editEach (fun sound isClass => describes_applyEdit sound isClass) classes planned
  refine ⟨_, plans.map Prod.snd, rootEq, rfl, classesEq, ?_, ?_, described, ?_, ?_⟩
  · rw [classesEq]
    exact map_outline_editEach fresh fun c mem => (classes c mem).1
  · rw [planned.length_eq, List.length_map]
  · exact List.map_fst_zip described.length_eq.le
  · rintro ⟨c, result⟩ mem
    have describes := (List.forall₂_iff_zip.mp described).2 mem
    exact ⟨previewClass_of_unpatched describes, previewClass_of_patched describes⟩

/-- A class whose validators are written in a call, with a further class among them. -/
def galleryClass : Node :=
  classDeclaration "Gallery" (some (reference "Props" []))
    [staticProperty "propTypes" (call (identifier "wrap") [object [("panel", titledClass)]])]
    "Component"

/-- A module with both classes. -/
def galleryModule : Node :=
  program [typeAlias "Props" (typeLiteral [titleMember]) [], galleryClass]

/-- The module as it is written. -/
def galleryJson : Json :=
  let panel := propertyOfJson (identifierJson "panel")
    (classDeclarationJson "Title" titledTypeJson [])
  let validators := nodeJson "CallExpression" [("callee", identifierJson "wrap"),
    ("arguments", .array [objectOfJson [panel]])]
  programJson [typeAliasJson "Props" titledTypeJson,
    classDeclarationJson "Gallery" (referenceJson "Props")
      [nodeJson "ClassProperty" [("key", identifierJson "propTypes"), ("value", validators),
        ("static", .bool true), ("computed", .bool false)]]]

theorem distinct_galleryJson : galleryJson.Distinct := by
  simp [galleryJson, titledTypeJson]

@[simp]
theorem readDocument_galleryJson : readDocument 0 galleryJson = .ok galleryModule := by
  rfl

@[simp]
theorem readClass_galleryClass :
    readClass {} galleryClass =
      ⟨some "Gallery", some (.reference (some "Props") []), [], .listed ["panel"] true⟩ := by
  apply ClassReading.ext
  · exact entityText?_identifier "Gallery"
  · exact congrArg some (ofNode_reference "Props")
  · rfl
  · rfl

/-- What is declared in the module. -/
def galleryContext : Context where
  registry := ⟨[("Props", [.alias [] titledProps])]⟩
  maxDepth := .int 10

@[simp]
theorem context_galleryModule :
    (Workspace.ofModule [] galleryModule {}).context = galleryContext := by
  have sound := sound_of_readNode distinct_galleryJson readDocument_galleryJson
  have declarations : declarationNodes galleryModule =
      [typeAlias "Props" (typeLiteral [titleMember]) []] := by
    rw [declarationNodes, Node.walk_eq_tree]
    rfl
  have aliasEq : registration (typeAlias "Props" (typeLiteral [titleMember]) []) =
      (some "Props", false, .alias [] titledProps) := by
    change ((identifier "Props").entityName?, false,
      Declaration.alias [] (TypeExpr.ofChild _ _)) = _
    rw [entityName?_identifier, ofChild_eq]
    exact congrArg (fun type => (some "Props", false, Declaration.alias [] type)) ofNode_titledProps
  have registryEq : (Workspace.ofModule [] galleryModule {}).registry =
      galleryContext.registry := by
    rw [registry_ofModule sound, declarations, List.map_singleton, aliasEq]
    rfl
  rw [Workspace.context, registryEq]
  rfl

@[simp]
theorem outcome_resolveType_galleryProps :
    (resolveType galleryContext (.reference (some "Props") [])).outcome =
      .ok (.object [titledField]) := by
  have unbound : galleryContext.bound? "Props" = none := by rfl
  have contained : galleryContext.registry.contains "Props" = true := by rfl
  have declared : galleryContext.registry.get "Props" = [.alias [] titledProps] := by rfl
  rw [resolveType]
  simp only [unbound, contained, if_true, resolveAll, pure_bind]
  rw [Resolution.outcome_resolveName_of_last declared rfl rfl rfl]
  change (resolveType _ titledProps).outcome.map Shape.returned = _
  rw [outcome_resolveType_titledProps rfl]
  rfl

theorem planReading_galleryClass :
    planReading {} galleryContext (readClass {} galleryClass) =
      .ok (plannedEntries {} (some "Gallery") ["Props"] (Entry.ofProps [titledField] [])
        (.listed ["panel"] true)) := by
  rw [readClass_galleryClass]
  exact (planReading_of_shape rfl outcome_resolveType_galleryProps).trans (by rfl)

theorem sound_galleryClass : galleryClass.Sound ∧ galleryClass.kind = .classDeclaration := by
  have mem : galleryClass ∈ classNodes galleryModule := by
    rw [classNodes, Node.walk_eq_tree]
    exact List.mem_cons_self
  have sound := sound_of_readNode distinct_galleryJson readDocument_galleryJson
  exact ⟨sound_of_mem_classNodes sound mem, isClass_of_mem_classNodes mem⟩

theorem exists_plan_galleryClass :
    ∃ edit, (planClass {} galleryContext galleryClass).outcome =
      .ok (⟨.patched, some "Gallery", ["Props"], ["text"]⟩, edit) := by
  obtain ⟨sound, isClass⟩ := sound_galleryClass
  exact ⟨_, (outcome_planClass sound isClass {} galleryContext).trans planReading_galleryClass⟩

/-- Both classes are patched: the outer one gets a further validator inside the call, the inner
one a static property. -/
theorem galleryModule_returns :
    (transformModule {} [] galleryModule).report.outcome =
      .ok [⟨.patched, some "Gallery", ["Props"], ["text"]⟩,
        ⟨.patched, some "Title", [], ["text"]⟩] := by
  have sound := sound_of_readNode distinct_galleryJson readDocument_galleryJson
  rw [outcome_transformModule sound, openContext, context_galleryModule]
  exact ⟨by rfl, [_, _],
    .cons planReading_galleryClass (.cons (planReading_titledClass rfl) .nil), rfl⟩

/-- The classes of the module are found again, with the names and the validators that the report
speaks of. -/
theorem classes_match_results_galleryModule :
    galleryJson.Distinct ∧ readDocument 0 galleryJson = .ok galleryModule ∧
      (transformModule {} [] galleryModule).report.outcome =
        .ok [⟨.patched, some "Gallery", ["Props"], ["text"]⟩,
          ⟨.patched, some "Title", [], ["text"]⟩] ∧
      ∃ after edits,
        (transformModule {} [] galleryModule).root = after ∧
        classNodes after = editEach edits [galleryClass, titledClass] ∧
        List.Forall₂ (fun c (result : PatchResult) => result.Describes "propTypes" c)
          (classNodes after)
            [⟨.patched, some "Gallery", ["Props"], ["text"]⟩,
              ⟨.patched, some "Title", [], ["text"]⟩] := by
  obtain ⟨after, edits, rootEq, -, classesEq, -, -, described, -⟩ :=
    classes_match_results distinct_galleryJson readDocument_galleryJson galleryModule_returns
  exact ⟨distinct_galleryJson, readDocument_galleryJson, galleryModule_returns, after, edits,
    rootEq, classesEq, described⟩

end PropValidators
