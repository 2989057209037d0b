import PropValidators.Ast.Writer
import PropValidators.Proofs.Outcomes
import PropValidators.Proofs.Patching.Readings
import PropValidators.Proofs.Patching.Registered
import PropValidators.Proofs.Types.FromBuilt

/-!
# Patching twice

Transforming a module that has been transformed changes nothing.  The declarations of the
patched module have the same outlines, so types are resolved in the same context; the classes
have been changed as planned, so the plans made for them are empty; and what is written is
read back.
-/

namespace PropValidators

open Ast

namespace Traced

variable {α : Type}

/-- Computations in a row return when each of them does. -/
theorem outcome_mapM_id {ts : List (Traced α)} {as : List α} :
    (ts.mapM id).outcome = .ok as ↔ List.Forall₂ (fun t a => t.outcome = .ok a) ts as := by
  induction ts generalizing as with
  | nil =>
      rw [List.mapM_nil, List.forall₂_nil_left_iff]
      exact ⟨fun ok => (Except.ok.inj ok).symm, fun nil => congrArg Except.ok nil.symm⟩
  | cons t ts ih =>
      rw [List.mapM_cons, List.forall₂_cons_left_iff, outcome_bind, bind_eq_ok]
      constructor
      · rintro ⟨a, headOk, rest⟩
        rw [outcome_bind, bind_eq_ok] at rest
        obtain ⟨others, othersOk, eq⟩ := rest
        cases eq
        exact ⟨a, others, headOk, ih.mp othersOk, rfl⟩
      · rintro ⟨a, others, headOk, othersOk, rfl⟩
        refine ⟨a, headOk, ?_⟩
        rw [outcome_bind, ih.mpr othersOk]
        rfl

end Traced

private theorem completed_of_forall₂ {α : Type} {ts : List (Traced α)} {as : List α}
    (ok : List.Forall₂ (fun t a => t.outcome = .ok a) ts as) : completed ts = as := by
  induction ok with
  | nil => rfl
  | cons head _ ih =>
      rw [completed, head]
      exact congrArg _ ih

/-- The plans for the classes of a module, none of which stops. -/
abbrev Planned (options : Options) (context : Context) (classes : List Node)
    (plans : List ClassPlan) : Prop :=
  List.Forall₂ (fun c plan => planReading options context (readClass options c) = .ok plan)
    classes plans

section Patch

variable {options : Options} {context : Context} {root : Node}

theorem isClass_of_mem_classNodes {c : Node} (mem : c ∈ classNodes root) :
    c.kind = .classDeclaration := by
  rw [classNodes] at mem
  exact of_decide_eq_true (List.mem_filter.mp mem).2

theorem forall₂_planClass (sound : root.Sound) {plans : List ClassPlan} :
    List.Forall₂ (fun t plan => t.outcome = .ok plan)
        ((classNodes root).map (planClass options context)) plans ↔
      Planned options context (classNodes root) plans := by
  have classes : ∀ c ∈ classNodes root, c.Sound ∧ c.kind = .classDeclaration := fun c mem =>
    ⟨sound_of_mem_classNodes sound mem, isClass_of_mem_classNodes mem⟩
  rw [List.forall₂_map_left_iff]
  generalize classNodes root = nodes at classes
  induction nodes generalizing plans with
  | nil => rw [List.forall₂_nil_left_iff, Planned, List.forall₂_nil_left_iff]
  | cons c nodes ih =>
      rw [List.forall_mem_cons] at classes
      rw [List.forall₂_cons_left_iff, Planned, List.forall₂_cons_left_iff]
      simp only [outcome_planClass classes.1.1 classes.1.2, ih classes.2]

/-- Patching a sound module returns when a plan can be made for every class. -/
theorem outcome_patchClasses (sound : root.Sound) {results : List PatchResult} :
    (patchClasses options context root).report.outcome = .ok results ↔
      ∃ plans, Planned options context (classNodes root) plans ∧ plans.map Prod.fst = results := by
  rw [patchClasses]
  dsimp only
  rw [Traced.outcome_bind, bind_eq_ok]
  constructor
  · rintro ⟨plans, ok, eq⟩
    exact ⟨plans, (forall₂_planClass sound).mp (Traced.outcome_mapM_id.mp ok), Except.ok.inj eq⟩
  · rintro ⟨plans, planned, rfl⟩
    exact ⟨plans, Traced.outcome_mapM_id.mpr ((forall₂_planClass sound).mpr planned), rfl⟩

private theorem root_patchClasses (sound : root.Sound) {plans : List ClassPlan}
    (planned : Planned options context (classNodes root) plans) :
    (patchClasses options context root).root = (editClasses (plans.map Prod.snd) root).1 := by
  rw [patchClasses]
  dsimp only
  rw [completed_of_forall₂ ((forall₂_planClass sound).mpr planned)]

theorem allFresh_of_planned {classes : List Node} {plans : List ClassPlan}
    (planned : Planned options context classes plans) : AllFresh (plans.map Prod.snd) := by
  induction planned with
  | nil => exact fun edit mem => by cases mem
  | cons head _ ih =>
      intro edit mem
      rw [List.map_cons] at mem
      rcases List.mem_cons.mp mem with self | rest
      · exact isFresh_planReading head edit self.symm
      · exact ih edit rest

/-- What holds of a class after the change planned for it holds of all classes after all
changes. -/
theorem forall₂_editEach {R : Node → ClassPlan → Prop}
    (each : ∀ {c : Node} {plan : ClassPlan}, c.Sound → c.kind = .classDeclaration →
      planReading options context (readClass options c) = .ok plan → R (applyEdit plan.2 c) plan)
    {classes : List Node} {plans : List ClassPlan}
    (sound : ∀ c ∈ classes, c.Sound ∧ c.kind = .classDeclaration)
    (planned : Planned options context classes plans) :
    List.Forall₂ R (editEach (plans.map Prod.snd) classes) plans := by
  induction planned with
  | nil => exact .nil
  | cons head rest ih =>
      rename_i c plan classes plans
      rw [List.forall_mem_cons] at sound
      have fresh : AllFresh ((plan :: plans).map Prod.snd) :=
        allFresh_of_planned (List.Forall₂.cons head rest)
      -- The class is changed after those below it, which leaves its reading as it is.
      obtain ⟨inner, innerSound, innerClass, sketchEq, editedEq⟩ :=
        exists_sketched fresh sound.1.1 sound.1.2
      rw [List.map_cons, editEach]
      refine .cons ?_ (ih sound.2)
      rw [List.map_cons] at editedEq
      rw [editedEq]
      apply each innerSound innerClass
      rw [readClass_congr innerSound sound.1.1 innerClass sound.1.2 sketchEq]
      exact head

/-- The plans made after all changes are empty. -/
theorem planned_editEach {classes : List Node} {plans : List ClassPlan}
    (sound : ∀ c ∈ classes, c.Sound ∧ c.kind = .classDeclaration)
    (planned : Planned options context classes plans) :
    Planned options context (editEach (plans.map Prod.snd) classes)
      (plans.map fun plan => ({ plan.1 with added := [] }, none)) := by
  rw [Planned, List.forall₂_map_right_iff]
  exact forall₂_editEach (fun sound isClass => planReading_again sound isClass) sound planned

end Patch

section Transform

variable {options : Options} {imports : List Node} {root : Node}

/-- The context in which the types of a module are resolved. -/
abbrev openContext (options : Options) (imports : List Node) (root : Node) : Context :=
  (Workspace.ofModule imports root options).context

/-- Transforming a sound module returns when its declarations can be registered and a plan can
be made for every class. -/
theorem outcome_transformModule (sound : root.Sound) {results : List PatchResult} :
    (transformModule options imports root).report.outcome = .ok results ↔
      openingFault? imports root = none ∧
        ∃ plans, Planned options (openContext options imports root) (classNodes root) plans ∧
          plans.map Prod.fst = results := by
  rw [transformModule]
  cases openingFault? imports root with
  | some fault =>
      constructor
      · intro ok
        cases ok
      · rintro ⟨none, -⟩
        cases none
  | none =>
      rw [← outcome_patchClasses sound]
      dsimp only
      rw [Traced.outcome_bind, Traced.note, Except.bind, Traced.outcome_bind]
      cases (patchClasses options (openContext options imports root) root).report.outcome with
      | error fault => exact ⟨fun ok => (by cases ok), fun ok => (by cases ok.2)⟩
      | ok others => exact ⟨fun ok => ⟨rfl, ok⟩, fun ok => ok.2⟩

theorem root_transformModule (sound : root.Sound) (opens : openingFault? imports root = none)
    {plans : List ClassPlan}
    (planned : Planned options (openContext options imports root) (classNodes root) plans) :
    (transformModule options imports root).root = (editClasses (plans.map Prod.snd) root).1 := by
  rw [transformModule, opens]
  exact root_patchClasses sound planned

/-- When transforming a module returns, its classes were changed as planned. -/
theorem exists_plans (sound : root.Sound) {results : List PatchResult}
    (returns : (transformModule options imports root).report.outcome = .ok results) :
    ∃ plans, Planned options (openContext options imports root) (classNodes root) plans ∧
      plans.map Prod.fst = results ∧
      (transformModule options imports root).root = (editClasses (plans.map Prod.snd) root).1 := by
  obtain ⟨opens, plans, planned, resultsEq⟩ := (outcome_transformModule sound).mp returns
  exact ⟨plans, planned, resultsEq, root_transformModule sound opens planned⟩

section Returns

variable {results : List PatchResult} (sound : root.Sound)
  (returns : (transformModule options imports root).report.outcome = .ok results)
include sound returns

theorem sound_transformModule : (transformModule options imports root).root.Sound := by
  obtain ⟨plans, planned, -, rootEq⟩ := exists_plans sound returns
  rw [rootEq]
  exact (nodeEdited root sound _ (allFresh_of_planned planned)).sound

/-- Types are resolved in the same context after a module was patched. -/
theorem openContext_transformModule :
    openContext options imports (transformModule options imports root).root =
      openContext options imports root := by
  have afterSound := sound_transformModule sound returns
  obtain ⟨plans, planned, -, rootEq⟩ := exists_plans sound returns
  apply context_eq_of_outlines sound afterSound
  rw [rootEq]
  exact declarationNodes_editClasses (allFresh_of_planned planned) sound

/-- The declarations of a patched module can be registered. -/
theorem openingFault?_transformModule :
    openingFault? imports (transformModule options imports root).root = none := by
  rw [openingFault?_of_sound (sound_transformModule sound returns), ← openingFault?_of_sound sound]
  exact ((outcome_transformModule sound).mp returns).1

end Returns

/-- A patched module is sound, and nothing is left to be patched in it. -/
theorem transformModule_again (sound : root.Sound) {results : List PatchResult}
    (returns : (transformModule options imports root).report.outcome = .ok results) :
    ∃ after : Node, (transformModule options imports root).root = after ∧ after.Sound ∧
      (classNodes after).length = results.length ∧
      (transformModule options imports after).report.outcome =
        .ok (results.map fun result => { result with added := [] }) ∧
      (transformModule options imports after).root = after := by
  have afterSound := sound_transformModule sound returns
  have contextEq := openContext_transformModule sound returns
  have opens := openingFault?_transformModule sound returns
  obtain ⟨plans, planned, rfl, rootEq⟩ := exists_plans sound returns
  rw [rootEq] at afterSound contextEq opens
  have classes : ∀ c ∈ classNodes root, c.Sound ∧ c.kind = .classDeclaration := fun c mem =>
    ⟨sound_of_mem_classNodes sound mem, isClass_of_mem_classNodes mem⟩
  have again := planned_editEach classes planned
  rw [← classNodes_editClasses (allFresh_of_planned planned) sound, ← contextEq] at again
  refine ⟨_, rootEq, afterSound, ?_, ?_, ?_⟩
  · rw [again.length_eq, List.length_map, List.length_map]
  · rw [outcome_transformModule afterSound]
    refine ⟨opens, _, again, ?_⟩
    rw [List.map_map, List.map_map]
    rfl
  · rw [root_transformModule afterSound opens again]
    apply And.left (editClasses_of_idle _ _ _)
    intro edit mem
    rw [List.map_map] at mem
    obtain ⟨plan, -, rfl⟩ := List.mem_map.mp mem
    rfl

end Transform

/-- Transforming a module, writing it, reading it and transforming it again finds every class
as the first run left it: with the same report except that nothing is added, and with the same
text written afterwards. -/
theorem transformModule_idempotent {options : Options} {imports : List Node} {x : Json}
    {number : Nat} {root : Node} {results : List PatchResult} (distinct : x.Distinct)
    (read : readDocument number x = .ok root)
    (returns : (transformModule options imports root).report.outcome = .ok results)
    (numberAgain : Nat) :
    ∃ reread,
      readDocument numberAgain (transformModule options imports root).root.toJson = .ok reread ∧
      (classNodes reread).length = results.length ∧
      (transformModule options imports reread).report.outcome =
        .ok (results.map fun result => { result with added := [] }) ∧
      (transformModule options imports reread).root.toJson =
        (transformModule options imports root).root.toJson := by
  obtain ⟨after, rootEq, afterSound, lengthEq, again, unchanged⟩ :=
    transformModule_again (sound_of_readNode distinct read) returns
  refine ⟨after, ?_, lengthEq, again, ?_⟩
  · rw [rootEq]
    exact Node.readNode_toJson afterSound _
  · rw [unchanged, rootEq]

/-- A class whose props type has one field. -/
def titledClass : Node :=
  classDeclaration "Title" (some (typeLiteral [titleMember])) [] "Component"

/-- A module with that class. -/
def titledModule : Node :=
  program [titledClass]

@[simp]
theorem readDocument_titledModule : readDocument 0 titledModule.toJson = .ok titledModule := by
  rfl

/-- The module as it is written. -/
def titledJson : Json :=
  programJson [classDeclarationJson "Title" titledTypeJson []]

@[simp]
theorem toJson_titledModule : titledModule.toJson = titledJson := by
  rfl

theorem distinct_titledModule : titledModule.toJson.Distinct := by
  rw [toJson_titledModule]
  simp [titledJson, titledTypeJson]

/-- What is read of a class of that name and props type, whatever its members are. -/
theorem readClass_titled (members : List Node) :
    let c := classDeclaration "Title" (some (typeLiteral [titleMember])) members "Component"
    readClass {} c =
      ⟨some "Title", some titledProps, defaultNames "defaultProps" c, .of "propTypes" c⟩ := by
  apply ClassReading.ext
  · exact entityText?_identifier "Title"
  · change some (TypeExpr.ofNode (typeLiteral [titleMember])) = some titledProps
    rw [ofNode_titledProps]
  · rfl
  · rfl

@[simp]
theorem readClass_titledClass :
    readClass {} titledClass = ⟨some "Title", some titledProps, [], .absent⟩ :=
  readClass_titled []

theorem planReading_titledClass {context : Context} (shallow : context.tooDeep = false) :
    planReading {} context (readClass {} titledClass) =
      .ok (plannedEntries {} (some "Title") [] (Entry.ofProps [titledField] []) .absent) := by
  rw [readClass_titledClass]
  exact (planReading_of_shape rfl (outcome_resolveType_titledProps shallow)).trans (by rfl)

theorem titledModule_returns :
    (transformModule {} [] titledModule).report.outcome =
      .ok [⟨.patched, some "Title", [], ["text"]⟩] := by
  have sound := sound_of_readNode distinct_titledModule readDocument_titledModule
  have shallow : (openContext {} [] titledModule).tooDeep = false := by rfl
  rw [outcome_transformModule sound]
  exact ⟨by rfl, [_], .cons (planReading_titledClass shallow) .nil, rfl⟩

/-- The class is patched by the first run, and complete for the second. -/
theorem transformModule_idempotent_titledModule :
    titledModule.toJson.Distinct ∧ readDocument 0 titledModule.toJson = .ok titledModule ∧
      (transformModule {} [] titledModule).report.outcome =
        .ok [⟨.patched, some "Title", [], ["text"]⟩] ∧
      ∃ reread,
        readDocument 1 (transformModule {} [] titledModule).root.toJson = .ok reread ∧
        (classNodes reread).length = 1 ∧
        (transformModule {} [] reread).report.outcome =
          .ok [⟨.patched, some "Title", [], []⟩] ∧
        (transformModule {} [] reread).root.toJson =
          (transformModule {} [] titledModule).root.toJson :=
  ⟨distinct_titledModule, readDocument_titledModule, titledModule_returns,
    transformModule_idempotent distinct_titledModule readDocument_titledModule
      titledModule_returns 1⟩

end PropValidators
