import PropValidators.Proofs.Patching.Idempotence
import PropValidators.Proofs.Patching.Rewritten
import PropValidators.Proofs.Syntax.Canonical

/-!
# What patching leaves alone

A patched module is written as it was except in the classes that validators were added to.
The results are handed through the written module from one class to the next, in the same
order in which the changes are handed through the tree.
-/

namespace PropValidators

open Ast

mutual

/-- The written members of a node are as before, but for what the results say about the
classes in it.  The results that are left come last. -/
inductive NodeRewritten (property : String) : List PatchResult → List (String × Json) →
    List (String × Json) → List PatchResult → Prop
  | classNode {result : PatchResult} {results left : List PatchResult} {type : String}
      {before inside after : List (String × Json)} (typed : typeOf? before = some type)
      (isClass : Kind.ofType type = .classDeclaration)
      (each : MembersRewritten property results before inside left)
      (patched : ClassPatched property result inside after) :
      NodeRewritten property (result :: results) before after left
  | other {results left : List PatchResult} {type : String} {before after : List (String × Json)}
      (typed : typeOf? before = some type) (notClass : Kind.ofType type ≠ .classDeclaration)
      (each : MembersRewritten property results before after left) :
      NodeRewritten property results before after left

/-- A written value is as before, but for what the results say about the classes in it. -/
inductive ValueRewritten (property : String) : List PatchResult → Json → Json →
    List PatchResult → Prop
  | node {results left : List PatchResult} {before after : List (String × Json)}
      (each : NodeRewritten property results before after left) :
      ValueRewritten property results (.object before) (.object after) left
  | list {results left : List PatchResult} {before after : List Json}
      (each : ItemsRewritten property results before after left) :
      ValueRewritten property results (.array before) (.array after) left
  | same {results : List PatchResult} {value : Json} (notNode : nodeType? value = none)
      (notList : ∀ items, value ≠ .array items) :
      ValueRewritten property results value value results

/-- The written items of a list are as before, but for what the results say about the classes
in them.  There are none in lists within the list. -/
inductive ItemsRewritten (property : String) : List PatchResult → List Json → List Json →
    List PatchResult → Prop
  | nil {results : List PatchResult} : ItemsRewritten property results [] [] results
  | node {results mid left : List PatchResult} {before after : List (String × Json)}
      {items others : List Json} (head : NodeRewritten property results before after mid)
      (rest : ItemsRewritten property mid items others left) :
      ItemsRewritten property results (.object before :: items) (.object after :: others) left
  | same {results left : List PatchResult} {item : Json} {items others : List Json}
      (notNode : nodeType? item = none) (rest : ItemsRewritten property results items others left) :
      ItemsRewritten property results (item :: items) (item :: others) left

/-- Written members have the same keys as before, with values that are as before but for what
the results say about the classes in them. -/
inductive MembersRewritten (property : String) : List PatchResult → List (String × Json) →
    List (String × Json) → List PatchResult → Prop
  | nil {results : List PatchResult} : MembersRewritten property results [] [] results
  | cons {results mid left : List PatchResult} {key : String} {value other : Json}
      {members others : List (String × Json)}
      (head : ValueRewritten property results value other mid)
      (rest : MembersRewritten property mid members others left) :
      MembersRewritten property results ((key, value) :: members) ((key, other) :: others) left

end

/-- The classes among some nodes. -/
def classesOf (nodes : List Node) : List Node :=
  nodes.filter fun n => n.kind = .classDeclaration

/-- The first plans are those for some classes; the others are left. -/
inductive PlansFor (options : Options) (context : Context) : List Node → List ClassPlan →
    List ClassPlan → Prop
  | nil (plans : List ClassPlan) : PlansFor options context [] plans plans
  | cons {c : Node} {plan : ClassPlan} {classes : List Node} {plans left : List ClassPlan}
      (planned : planReading options context (readClass options c) = .ok plan)
      (rest : PlansFor options context classes plans left) :
      PlansFor options context (c :: classes) (plan :: plans) left

namespace PlansFor

variable {options : Options} {context : Context} {classes more : List Node}
  {plans left : List ClassPlan}

/-- Plans for all classes leave none. -/
theorem of_planned (planned : Planned options context classes plans) :
    PlansFor options context classes plans [] := by
  induction planned with
  | nil => exact .nil []
  | cons head _ ih => exact .cons head ih

/-- Plans for some classes and others are first those for the ones, then those for the others. -/
theorem split (used : PlansFor options context (classes ++ more) plans left) :
    ∃ mid, PlansFor options context classes plans mid ∧ PlansFor options context more mid left := by
  induction classes generalizing plans with
  | nil => exact ⟨plans, .nil plans, used⟩
  | cons c classes ih =>
      cases used with
      | cons planned rest =>
          obtain ⟨mid, first, second⟩ := ih rest
          exact ⟨mid, .cons planned first, second⟩

theorem allFresh (used : PlansFor options context classes plans left)
    (fresh : AllFresh (left.map Prod.snd)) : AllFresh (plans.map Prod.snd) := by
  induction used with
  | nil => exact fresh
  | cons planned _ ih =>
      intro edit mem
      rw [List.map_cons] at mem
      rcases List.mem_cons.mp mem with self | rest
      · exact isFresh_planReading planned edit self.symm
      · exact ih fresh edit rest

end PlansFor

@[simp]
theorem classesOf_append (nodes more : List Node) :
    classesOf (nodes ++ more) = classesOf nodes ++ classesOf more :=
  List.filter_append nodes more

/-- A node is written as the results of the plans say. -/
structure NodeFramed (property : String) (plans left : List ClassPlan) (n : Node) : Prop where
  rewritten : NodeRewritten property (plans.map Prod.fst) n.written
    (editClasses (plans.map Prod.snd) n).1.written (left.map Prod.fst)
  left_eq : (editClasses (plans.map Prod.snd) n).2 = left.map Prod.snd

/-- A value is written as the results of the plans say. -/
structure ValueFramed (property : String) (plans left : List ClassPlan) (value : Value) :
    Prop where
  rewritten : ValueRewritten property (plans.map Prod.fst) value.toJson
    (editValue (plans.map Prod.snd) value).1.toJson (left.map Prod.fst)
  left_eq : (editValue (plans.map Prod.snd) value).2 = left.map Prod.snd

/-- Items of a list are written as the results of the plans say. -/
structure ItemsFramed (property : String) (plans left : List ClassPlan) (items : List Value) :
    Prop where
  rewritten : ItemsRewritten property (plans.map Prod.fst) (itemsToJson items)
    (itemsToJson (editItems (plans.map Prod.snd) items).1) (left.map Prod.fst)
  left_eq : (editItems (plans.map Prod.snd) items).2 = left.map Prod.snd

/-- Fields of a node are written as the results of the plans say. -/
structure FieldsFramed (property : String) (plans left : List ClassPlan)
    (fields : List (FieldName × Value)) : Prop where
  rewritten : MembersRewritten property (plans.map Prod.fst) (fieldsToJson fields)
    (fieldsToJson (editFields (plans.map Prod.snd) fields).1) (left.map Prod.fst)
  left_eq : (editFields (plans.map Prod.snd) fields).2 = left.map Prod.snd

/-- A constant that fits somewhere is neither a written node nor a list. -/
theorem notNode_of_fitsData {type : Option FieldType} {data : Json}
    (fits : FieldType.FitsData type data) :
    nodeType? data = none ∧ ∀ items, data ≠ .array items := by
  cases data with
  | array items =>
      cases type with
      | none => exact fits.elim
      | some type => cases type <;> simp [FieldType.FitsData] at fits
  | object members =>
      cases type with
      | none => exact ⟨fits, fun items eq => by cases eq⟩
      | some type => cases type <;> simp [FieldType.FitsData] at fits
  | null => exact ⟨rfl, fun items eq => by cases eq⟩
  | bool b => exact ⟨rfl, fun items eq => by cases eq⟩
  | number x => exact ⟨rfl, fun items eq => by cases eq⟩
  | string s => exact ⟨rfl, fun items eq => by cases eq⟩

section Framed

variable {options : Options} {context : Context} {plans left : List ClassPlan}

/-- The type stays, and then come the fields. -/
theorem membersRewritten_written {property : String} {results rest : List PatchResult}
    {type : String} {fields edited : List (FieldName × Value)}
    (each : MembersRewritten property results (fieldsToJson fields) (fieldsToJson edited) rest) :
    MembersRewritten property results (Node.written ⟨type, fields⟩) (Node.written ⟨type, edited⟩)
      rest :=
  .cons (.same rfl fun _ eq => by cases eq) each

/-- A class is written with the classes in it patched, and then patched itself. -/
theorem nodeFramed_of_class {n : Node} {plan : ClassPlan} (sound : n.Sound)
    (isClass : n.kind = .classDeclaration)
    (planned : planReading options context (readClass options n) = .ok plan)
    (fresh : AllFresh (plans.map Prod.snd))
    (framed : FieldsFramed options.validatorProperty plans left n.fields) :
    NodeFramed options.validatorProperty (plan :: plans) left n := by
  obtain ⟨innerSound, sketchEq⟩ :=
    (fieldsEdited n.fields sound.soundFields _ fresh).node sound
  rw [← readClass_congr innerSound sound isClass isClass sketchEq] at planned
  have patched := classPatched_applyEdit innerSound isClass planned
  have editedEq := editClasses_of_class isClass ((plan :: plans).map Prod.snd)
  constructor
  · rw [editedEq]
    exact .classNode rfl isClass (membersRewritten_written framed.rewritten) patched
  · rw [editedEq]
    exact framed.left_eq

private theorem nodeFramed_of_other {property : String} {n : Node}
    (notClass : n.kind ≠ .classDeclaration) (framed : FieldsFramed property plans left n.fields) :
    NodeFramed property plans left n := by
  have editedEq := editClasses_of_other notClass (plans.map Prod.snd)
  constructor
  · rw [editedEq]
    exact .other rfl notClass (membersRewritten_written framed.rewritten)
  · rw [editedEq]
    exact framed.left_eq

mutual

theorem nodeFramed : (n : Node) → n.Sound → ∀ {plans left},
    PlansFor options context (classesOf n.tree) plans left → AllFresh (left.map Prod.snd) →
    NodeFramed options.validatorProperty plans left n
  | ⟨type, fields⟩, sound, _, _, used, fresh => by
      rw [Node.tree, classesOf] at used
      by_cases isClass : Node.kind ⟨type, fields⟩ = .classDeclaration
      · rw [List.filter_cons_of_pos (by simpa using isClass)] at used
        cases used with
        | cons planned rest =>
            exact nodeFramed_of_class sound isClass planned (rest.allFresh fresh)
              (fieldsFramed fields sound.2 rest fresh)
      · rw [List.filter_cons_of_neg (by simpa using isClass)] at used
        exact nodeFramed_of_other isClass (fieldsFramed fields sound.2 used fresh)
termination_by structural n => n

private theorem valueFramed : (value : Value) → ∀ {type}, value.Fits type → ∀ {plans left},
    PlansFor options context (classesOf value.tree) plans left → AllFresh (left.map Prod.snd) →
    ValueFramed options.validatorProperty plans left value
  | .node n, _, fits, plans, _, used, fresh => by
      have framed := nodeFramed n fits.2 used fresh
      have edited := nodeEdited n fits.2 (plans.map Prod.snd) (used.allFresh fresh)
      constructor
      · rw [editValue, Value.toJson, Value.toJson, Node.toJson_of_sound fits.2,
          Node.toJson_of_sound edited.sound]
        exact .node framed.rewritten
      · exact framed.left_eq
  | .list items, _, ⟨_, _, fits⟩, _, _, used, fresh => by
      have framed := itemsFramed items fits used fresh
      exact ⟨.list framed.rewritten, framed.left_eq⟩
  | .data data, _, fits, plans, _, used, _ => by
      cases used
      obtain ⟨notNode, notList⟩ := notNode_of_fitsData fits
      exact ⟨.same notNode notList, rfl⟩
termination_by structural value => value

private theorem itemsFramed : (items : List Value) → ∀ {type}, FitItems type items → ∀ {plans left},
    PlansFor options context (classesOf (treeOfItems items)) plans left →
    AllFresh (left.map Prod.snd) → ItemsFramed options.validatorProperty plans left items
  | [], _, _, _, _, used, _ => by
      cases used
      exact ⟨.nil, rfl⟩
  | .node n :: items, _, fits, plans, _, used, fresh => by
      rw [treeOfItems, classesOf_append] at used
      obtain ⟨mid, first, second⟩ := used.split
      have head := nodeFramed n fits.1.2 first (second.allFresh fresh)
      have edited := nodeEdited n fits.1.2 (plans.map Prod.snd) (used.allFresh fresh)
      have rest := itemsFramed items fits.2 second fresh
      constructor
      · rw [editItems, editItem]
        dsimp only
        rw [head.left_eq, itemsToJson, itemsToJson, Value.toJson, Value.toJson,
          Node.toJson_of_sound fits.1.2, Node.toJson_of_sound edited.sound]
        exact .node head.rewritten rest.rewritten
      · rw [editItems, editItem]
        dsimp only
        rw [head.left_eq]
        exact rest.left_eq
  | .list others :: items, _, fits, _, _, used, fresh => by
      have rest := itemsFramed items fits.2 used fresh
      exact ⟨.same rfl rest.rewritten, rest.left_eq⟩
  | .data data :: items, _, fits, _, _, used, fresh => by
      have rest := itemsFramed items fits.2 used fresh
      exact ⟨.same (notNode_of_fitsData fits.1).1 rest.rewritten, rest.left_eq⟩
termination_by structural items => items

private theorem fieldsFramed : (fields : List (FieldName × Value)) →
    ∀ {kind}, SoundFields kind fields → ∀ {plans left},
    PlansFor options context (classesOf (treeOfFields fields)) plans left →
    AllFresh (left.map Prod.snd) → FieldsFramed options.validatorProperty plans left fields
  | [], _, _, _, _, used, _ => by
      cases used
      exact ⟨.nil, rfl⟩
  | (name, value) :: fields, _, sound, plans, _, used, fresh => by
      rw [treeOfFields, classesOf_append] at used
      obtain ⟨mid, first, second⟩ := used.split
      have head := valueFramed value sound.1 first (second.allFresh fresh)
      have rest := fieldsFramed fields sound.2 second fresh
      constructor
      · rw [editFields]
        dsimp only
        rw [head.left_eq]
        exact .cons head.rewritten rest.rewritten
      · rw [editFields]
        dsimp only
        rw [head.left_eq]
        exact rest.left_eq
termination_by structural fields => fields

end

end Framed

section Transform

variable {options : Options} {imports : List Node} {x : Json} {number : Nat} {root : Node}
  {results : List PatchResult}

/-- A sound module is written as the results of transforming it say. -/
theorem exists_rewritten (sound : root.Sound)
    (returns : (transformModule options imports root).report.outcome = .ok results) :
    ∃ after, (transformModule options imports root).root.toJson = .object after ∧
      NodeRewritten options.validatorProperty results root.written after [] := by
  obtain ⟨opens, plans, planned, rfl⟩ := (outcome_transformModule sound).mp returns
  have edited := nodeEdited root sound _ (allFresh_of_planned planned)
  have classesEq : classNodes root = classesOf root.tree := by
    rw [classNodes, Node.walk_eq_tree, classesOf]
  have used := PlansFor.of_planned (classesEq ▸ planned)
  have framed := nodeFramed root sound used fun _ mem => by cases mem
  refine ⟨_, ?_, framed.rewritten⟩
  rw [root_transformModule sound opens planned, Node.toJson_of_sound edited.sound]

/-- Transforming a module that is written in the canonical way changes what is written, up to
the order of members, only in the classes that validators were added to: there a static
property is put in front of the members, or the object literal of the first static property
of the name gets new properties at its end. -/
theorem transformModule_nonDestructive (distinct : x.Distinct)
    (canonical : Canonical (some .node) x)
    (read : readDocument number x = .ok root)
    (returns : (transformModule options imports root).report.outcome = .ok results) :
    ∃ written after, Reordered x (.object written) ∧
      (transformModule options imports root).root.toJson = .object after ∧
      NodeRewritten options.validatorProperty results written after [] := by
  have sound := sound_of_readNode distinct read
  obtain ⟨after, afterEq, rewritten⟩ := exists_rewritten sound returns
  refine ⟨root.written, after, ?_, afterEq, rewritten⟩
  rw [← Node.toJson_of_sound sound]
  exact reordered_of_readNode distinct canonical read

end Transform

private theorem canonical_titledModule : Canonical (some .node) titledModule.toJson := by
  rw [toJson_titledModule]
  decide

/-- The new static property is all that changes in the module. -/
theorem transformModule_nonDestructive_titledModule :
    titledModule.toJson.Distinct ∧ Canonical (some .node) titledModule.toJson ∧
      readDocument 0 titledModule.toJson = .ok titledModule ∧
      (transformModule {} [] titledModule).report.outcome =
        .ok [⟨.patched, some "Title", [], ["text"]⟩] ∧
      ∃ written after, Reordered titledModule.toJson (.object written) ∧
        (transformModule {} [] titledModule).root.toJson = .object after ∧
        NodeRewritten "propTypes" [⟨.patched, some "Title", [], ["text"]⟩] written after [] :=
  ⟨distinct_titledModule, canonical_titledModule, readDocument_titledModule,
    titledModule_returns,
    transformModule_nonDestructive distinct_titledModule canonical_titledModule
      readDocument_titledModule titledModule_returns⟩

end PropValidators
