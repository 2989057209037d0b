import PropValidators.Ast.Builder
import PropValidators.Proofs.CallSites.AssignedDefaults
import PropValidators.Proofs.Printing.SameTrees
import PropValidators.Proofs.Syntax.Documents

/-!
# Whose defaults are collected

An assignment to the defaults property of an expression counts for a component if both expressions
have the same text.  Where the expressions are legible, that is so exactly if they are congruent:
put together alike from the same names and equal literals.  Where all that they are is in their
texts, that is so exactly if they are the same expression apart from places.

So the defaults of one component are taken for those of another only through what is not in the
texts.  Indices that are no expressions known here, such as two sums, are written by their types
alone, and what is reached by the one has the text of what is reached by the other.
-/

namespace PropValidators

open Ast Node

/-- Collecting the defaults that are assigned to a component, by the text of the component. -/
def collectedDefaults (property : String) (root component : Node) : Except Fault (List String) :=
  (component.rendered 0).bind fun text => (assignedDefaults property root text).outcome

/-- A node assigns an object literal with a plain key to a property of an object. -/
structure Assigns (property name : String) (object n : Node) : Prop where
  isAssignment : n.kind = .assignmentExpression ∧ n.textOr "operator" "=" = "="
  target : ∃ left key, n.child? "left" = some left ∧ left.kind = .memberExpression ∧
    left.flag "computed" = false ∧ left.child? "property" = some key ∧ key.kind = .identifier ∧
    key.text? "name" = some property ∧ left.child? "object" = some object
  value : ∃ right, n.child? "right" = some right ∧ right.kind = .objectExpression ∧
    name ∈ objectKeys right

section Collecting

variable {property name : String} {root component object n : Node}

/-- What gives a component a default assigns it to an object that is written like the component. -/
theorem givesDefault_iff {text : String} :
    GivesDefault property text name n ↔
      ∃ object, Assigns property name object n ∧ object.source 0 = text := by
  constructor
  · rintro ⟨isAssignment, ⟨left, key, object, leftEq, isMember, plain, keyEq, isIdentifier, nameEq,
      objectEq, sourceEq⟩, value⟩
    exact ⟨object, ⟨isAssignment, ⟨left, key, leftEq, isMember, plain, keyEq, isIdentifier, nameEq,
      objectEq⟩, value⟩, sourceEq⟩
  · rintro ⟨object, ⟨isAssignment, ⟨left, key, leftEq, isMember, plain, keyEq, isIdentifier,
      nameEq, objectEq⟩, value⟩, sourceEq⟩
    exact ⟨isAssignment, ⟨left, key, object, leftEq, isMember, plain, keyEq, isIdentifier, nameEq,
      objectEq, sourceEq⟩, value⟩

theorem Assigns.exists_assignedTo? (assigns : Assigns property name object n) :
    ∃ right, assignedTo? property n = some (object, right) := by
  obtain ⟨isAssignment, ⟨left, key, leftEq, isMember, plain, keyEq, isIdentifier, nameEq,
    objectEq⟩, right, rightEq, -⟩ := assigns
  exact ⟨right, assignedTo?_eq_some_iff.mpr ⟨isAssignment, left, key, leftEq, rightEq, isMember,
    plain, keyEq, isIdentifier, nameEq, objectEq⟩⟩

/-- What assigns something is one of the assignments. -/
theorem mem_assignments {right : Node} (mem : n ∈ root.walk)
    (assigned : assignedTo? property n = some (object, right)) :
    n ∈ root.tree.filter fun n => n.kind == .assignmentExpression := by
  obtain ⟨⟨isAssignment, -⟩, -⟩ := assignedTo?_eq_some_iff.mp assigned
  rw [walk_eq_tree] at mem
  exact List.mem_filter.mpr ⟨mem, beq_iff_eq.mpr isAssignment⟩

/-- What is collected is what is assigned to expressions with the text of the component. -/
theorem mem_iff_of_collectedDefaults {names : List String}
    (collected : collectedDefaults property root component = .ok names) :
    name ∈ names ↔ ∃ n ∈ root.walk, ∃ object, Assigns property name object n ∧
      object.source 0 = component.source 0 := by
  rw [collectedDefaults] at collected
  cases rendered : component.rendered 0 with
  | error fault =>
      rw [rendered] at collected
      cases collected
  | ok text =>
      rw [rendered] at collected
      obtain ⟨-, rfl⟩ := rendered_eq_ok_iff.mp rendered
      rw [mem_iff_of_assignedDefaults collected]
      simp only [givesDefault_iff]

/-- Collecting stops at no assignment to a legible expression. -/
theorem exists_collectedDefaults (sound : root.Sound) (legible : component.Legible)
    (targets : ∀ n ∈ root.walk, ∀ object right, assignedTo? property n = some (object, right) →
      object.Legible) :
    ∃ names, collectedDefaults property root component = .ok names := by
  have noFault : root.walk.findSome? (assignmentFault? property (component.source 0)) = none := by
    rw [List.findSome?_eq_none_iff]
    intro n mem
    rw [walk_eq_tree] at mem
    rw [assignmentFault?_of_sound (root.sound_of_mem_tree sound n mem)]
    cases assigned : assignedTo? property n with
    | none => rfl
    | some pair =>
        rw [← walk_eq_tree] at mem
        exact (targets n mem pair.1 pair.2 assigned).sourceFault?_eq_none
  have collected := outcome_assignedDefaults property root (component.source 0)
  have rendered : component.rendered 0 = .ok (component.source 0) :=
    rendered_eq_ok_iff.mpr ⟨legible.sourceFault?_eq_none, rfl⟩
  rw [noFault] at collected
  rw [collectedDefaults, rendered]
  exact ⟨_, collected⟩

/-- The defaults of a legible component are those that are assigned to what is told to be the same,
if that is told of all the expressions with defaults in the module by their texts. -/
theorem exists_collectedDefaults_iff (sound : root.Sound) (legible : component.Legible)
    (targets : ∀ n ∈ root.walk, ∀ object right, assignedTo? property n = some (object, right) →
      object.Legible) {same : Node → Prop}
    (told : ∀ n ∈ root.walk, ∀ object right, assignedTo? property n = some (object, right) →
      (object.source 0 = component.source 0 ↔ same object)) :
    ∃ names, collectedDefaults property root component = .ok names ∧
      ∀ name, name ∈ names ↔ ∃ n ∈ root.walk, ∃ object, Assigns property name object n ∧
        same object := by
  obtain ⟨names, collected⟩ := exists_collectedDefaults sound legible targets
  refine ⟨names, collected, fun name => ?_⟩
  rw [mem_iff_of_collectedDefaults collected]
  refine exists_congr fun n => and_congr_right fun mem => exists_congr fun object =>
    and_congr_right fun assigns => ?_
  obtain ⟨right, assigned⟩ := assigns.exists_assignedTo?
  exact told n mem object right assigned

/-- If a component and all the expressions to whose defaults property a module assigns something
are legible, the defaults of the component are collected, and they are the plain keys of the object
literals that are assigned to that property of a congruent expression, and no others. -/
theorem collected_defaults_exact (sound : root.Sound) (legible : component.Legible)
    (targets : ∀ n ∈ root.walk, ∀ object right, assignedTo? property n = some (object, right) →
      object.Legible) :
    ∃ names, collectedDefaults property root component = .ok names ∧
      ∀ name, name ∈ names ↔ ∃ n ∈ root.walk, ∃ object, Assigns property name object n ∧
        object.Congruent component :=
  exists_collectedDefaults_iff sound legible targets fun n mem object right assigned =>
    source_eq_iff_congruent (targets n mem object right assigned) legible

private theorem sound_of_assignedTo? {right : Node} (sound : n.Sound)
    (assigned : assignedTo? property n = some (object, right)) : object.Sound := by
  obtain ⟨-, left, key, leftEq, -, -, -, -, -, -, objectEq⟩ := assignedTo?_eq_some_iff.mp assigned
  exact (sound.of_child? leftEq).of_child? objectEq

/-- Where expressions have no fields but those that their texts show, the defaults of a component
are those that are assigned to the same expression: its tree is equal to that of the component but
for the places of nodes and the comments. -/
theorem collected_defaults_of_bare (sound : root.Sound) (componentSound : component.Sound)
    (legible : component.Legible) (bare : Bare component.kind component)
    (targets : ∀ n ∈ root.walk, ∀ object right, assignedTo? property n = some (object, right) →
      object.Legible ∧ Bare object.kind object) :
    ∃ names, collectedDefaults property root component = .ok names ∧
      ∀ name, name ∈ names ↔ ∃ n ∈ root.walk, ∃ object, Assigns property name object n ∧
        object.SameApartFromPlaces component := by
  refine exists_collectedDefaults_iff sound legible
    (fun n mem object right assigned => (targets n mem object right assigned).1) ?_
  intro n mem object right assigned
  obtain ⟨objectLegible, objectBare⟩ := targets n mem object right assigned
  have objectSound : object.Sound :=
    sound_of_assignedTo? (root.sound_of_mem_tree sound n (root.walk_eq_tree ▸ mem)) assigned
  rw [source_eq_iff_congruent objectLegible legible]
  exact congruent_iff_sameApartFromPlaces objectSound componentSound objectBare bare

end Collecting

/-- What is reached from a library by an index. -/
def indexed (index : Node) : Node :=
  .ofDeclared "MemberExpression"
    [("object", .node (identifier "Lib")), ("property", .node index), ("computed", .flag true)]

/-- The assignment that gives a prop of what is reached by an index a default. -/
def indexedDefault (index : Node) (name : String) : Node :=
  assign (member (indexed index) "defaultProps") (objectOf [property name nullLiteral])

/-- What is reached by an index, as it is written. -/
def indexedJson (index : Json) : Json :=
  nodeJson "MemberExpression"
    [("object", identifierJson "Lib"), ("property", index), ("computed", .bool true)]

/-- The assignment as it is written. -/
def indexedDefaultJson (index : Json) (name : String) : Json :=
  assignJson (memberJson (indexedJson index) "defaultProps")
    (objectOfJson [propertyOfJson (identifierJson name) nullLiteralJson])

/-- A module with defaults of what is reached by two indices. -/
def rowsModule : Node :=
  program [statement (indexedDefault (stringLiteral "row") "title"),
    statement (indexedDefault (stringLiteral "cell") "label")]

theorem sound_rowsModule : rowsModule.Sound := by
  let json : Json := programJson [
    statementJson (indexedDefaultJson (stringLiteralJson "row") "title"),
    statementJson (indexedDefaultJson (stringLiteralJson "cell") "label")]
  have distinct : json.Distinct := by
    simp [json, indexedDefaultJson, indexedJson]
  exact sound_of_readNode distinct (show readDocument 0 json = .ok rowsModule from rfl)

private theorem assignments_rowsModule :
    (rowsModule.tree.filter fun n => n.kind == .assignmentExpression) =
      [indexedDefault (stringLiteral "row") "title",
        indexedDefault (stringLiteral "cell") "label"] := by
  rfl

@[simp]
theorem assignedTo?_indexedDefault (index : Node) (name : String) :
    assignedTo? "defaultProps" (indexedDefault index name) =
      some (indexed index, objectOf [property name nullLiteral]) := by
  rfl

theorem legible_indexed {index : Node} (legible : index.Legible) : (indexed index).Legible := by
  have library : (identifier "Lib").Legible :=
    .identifier rfl rfl (isWord_of_all (by decide) (by decide)) (by decide)
  exact .index rfl rfl rfl rfl (by decide) library legible

theorem legible_indexed_text {s : String} : (indexed (stringLiteral s)).Legible :=
  legible_indexed (.string rfl rfl)

private theorem bare_indexed_text {s : String} :
    Bare (indexed (stringLiteral s)).kind (indexed (stringLiteral s)) :=
  .member (show _ = [_, _, _] from rfl) (.identifier (show _ = [_] from rfl))
    (.string (show _ = [_] from rfl))

theorem eq_indexed_of_mem_rowsModule {n object right : Node} (mem : n ∈ rowsModule.walk)
    (assigned : assignedTo? "defaultProps" n = some (object, right)) :
    ∃ s, object = indexed (stringLiteral s) := by
  have mem := mem_assignments mem assigned
  rw [assignments_rowsModule, List.mem_pair] at mem
  rcases mem with rfl | rfl
  · rw [assignedTo?_indexedDefault] at assigned
    cases assigned
    exact ⟨_, rfl⟩
  · rw [assignedTo?_indexedDefault] at assigned
    cases assigned
    exact ⟨_, rfl⟩

/-- What is reached by a text has no defaults but its own. -/
theorem collected_defaults_exact_rowsModule :
    rowsModule.Sound ∧ (indexed (stringLiteral "row")).Legible ∧
      (∀ n ∈ rowsModule.walk, ∀ object right,
        assignedTo? "defaultProps" n = some (object, right) → object.Legible) ∧
      ∃ names, collectedDefaults "defaultProps" rowsModule (indexed (stringLiteral "row")) =
          .ok names ∧
        ∀ name, name ∈ names ↔ ∃ n ∈ rowsModule.walk, ∃ object,
          Assigns "defaultProps" name object n ∧
            object.Congruent (indexed (stringLiteral "row")) := by
  have targets : ∀ n ∈ rowsModule.walk, ∀ object right,
      assignedTo? "defaultProps" n = some (object, right) → object.Legible := by
    intro n mem object right assigned
    obtain ⟨s, rfl⟩ := eq_indexed_of_mem_rowsModule mem assigned
    exact legible_indexed_text
  exact ⟨sound_rowsModule, legible_indexed_text, targets,
    collected_defaults_exact sound_rowsModule legible_indexed_text targets⟩

/-- They are told apart by their trees in that module. -/
theorem collected_defaults_of_bare_rowsModule :
    ∃ names, collectedDefaults "defaultProps" rowsModule (indexed (stringLiteral "row")) =
        .ok names ∧
      ∀ name, name ∈ names ↔ ∃ n ∈ rowsModule.walk, ∃ object,
        Assigns "defaultProps" name object n ∧
          object.SameApartFromPlaces (indexed (stringLiteral "row")) := by
  have componentSound : (indexed (stringLiteral "row")).Sound := by
    have distinct : (indexedJson (stringLiteralJson "row")).Distinct := by
      simp [indexedJson]
    exact sound_of_readNode distinct (show readDocument 0 _ = .ok (indexed _) from rfl)
  refine collected_defaults_of_bare sound_rowsModule componentSound legible_indexed_text
    bare_indexed_text ?_
  intro n mem object right assigned
  obtain ⟨s, rfl⟩ := eq_indexed_of_mem_rowsModule mem assigned
  exact ⟨legible_indexed_text, bare_indexed_text⟩

/-- The sum of two names. -/
def sum (left right : String) : Node :=
  ⟨"BinaryExpression", [(.unknown "left", .node (identifier left)),
    (.unknown "operator", .text "+"), (.unknown "right", .node (identifier right))]⟩

/-- A sum as it is written. -/
def sumJson (left right : String) : Json :=
  nodeJson "BinaryExpression" [("left", identifierJson left), ("operator", .string "+"),
    ("right", identifierJson right)]

private theorem sound_indexed_sum (left right : String) : (indexed (sum left right)).Sound := by
  have distinct : (indexedJson (sumJson left right)).Distinct := by
    simp [indexedJson, sumJson]
  exact sound_of_readNode distinct
    (show readDocument 0 _ = .ok (indexed (sum left right)) from rfl)

/-- A module with a default of what is reached by a sum. -/
def sumModule : Node :=
  program [statement (indexedDefault (sum "c" "d") "title")]

theorem sound_sumModule : sumModule.Sound := by
  let json : Json := programJson [statementJson (indexedDefaultJson (sumJson "c" "d") "title")]
  have distinct : json.Distinct := by
    simp [json, indexedDefaultJson, indexedJson, sumJson]
  exact sound_of_readNode distinct (show readDocument 0 json = .ok sumModule from rfl)

theorem assignments_sumModule :
    (sumModule.tree.filter fun n => n.kind == .assignmentExpression) =
      [indexedDefault (sum "c" "d") "title"] := by
  rfl

theorem notMem_writtenKinds_sum (left right : String) : (sum left right).kind ∉ writtenKinds :=
  show Kind.unmodelled ∉ writtenKinds by decide

theorem legible_indexed_sum (left right : String) : (indexed (sum left right)).Legible :=
  legible_indexed
    (.other (notMem_writtenKinds_sum _ _) (show ' ' ∉ "BinaryExpression".toList by decide))

private theorem source_indexed_sum (left right otherLeft otherRight : String) :
    (indexed (sum left right)).source 0 = (indexed (sum otherLeft otherRight)).source 0 :=
  source_eq_of_congruent (legible_indexed_sum _ _) (legible_indexed_sum _ _)
    (.member rfl rfl rfl rfl rfl rfl rfl (.identifier rfl rfl rfl rfl)
      (.other (notMem_writtenKinds_sum _ _) (notMem_writtenKinds_sum _ _) rfl))

/-- What is reached by one sum has the defaults of what is reached by another. -/
theorem collectedDefaults_sumModule :
    collectedDefaults "defaultProps" sumModule (indexed (sum "a" "b")) = .ok ["title"] := by
  have rendered : (indexed (sum "a" "b")).rendered 0 = .ok ((indexed (sum "c" "d")).source 0) :=
    rendered_eq_ok_iff.mpr
      ⟨(legible_indexed_sum "a" "b").sourceFault?_eq_none, source_indexed_sum ..⟩
  have keys : assignedKeys "defaultProps" ((indexed (sum "c" "d")).source 0)
      (indexedDefault (sum "c" "d") "title") = ["title"] := by
    rw [assignedKeys, assignedObject?_eq_some_iff.mpr ⟨_, assignedTo?_indexedDefault _ _, rfl, rfl⟩]
    rfl
  rw [collectedDefaults, rendered]
  refine (outcome_assignedDefaults_of_assignments sound_sumModule assignments_sumModule ?_ _).trans
    ?_
  · intro n mem pair assigned
    obtain rfl := List.mem_singleton.mp mem
    rw [assignedTo?_indexedDefault] at assigned
    cases assigned
    exact (legible_indexed_sum "c" "d").sourceFault?_eq_none
  · rw [List.flatMap_singleton, keys]
    exact congrArg Except.ok (List.mergeSort_singleton _)

/-- Not every default that is collected is assigned to the expression of the component. -/
theorem collected_defaults_of_others :
    ¬ ∀ (property : String) (root component : Node) (names : List String), root.Sound →
      component.Sound → component.kind = .identifier ∨ component.kind = .memberExpression →
      collectedDefaults property root component = .ok names → ∀ name ∈ names,
        ∃ n ∈ root.walk, ∃ object, Assigns property name object n ∧
          object.toJson.withoutPlaces = component.toJson.withoutPlaces := by
  intro all
  obtain ⟨n, mem, object, assigns, same⟩ := all "defaultProps" sumModule (indexed (sum "a" "b"))
    ["title"] sound_sumModule (sound_indexed_sum "a" "b") (.inr rfl) collectedDefaults_sumModule
    "title" (List.mem_singleton_self _)
  obtain ⟨right, assigned⟩ := assigns.exists_assignedTo?
  have mem := mem_assignments mem assigned
  rw [assignments_sumModule, List.mem_singleton] at mem
  subst mem
  rw [assignedTo?_indexedDefault] at assigned
  cases assigned
  -- the left names of the sums are in the trees
  let leftName (json : Json) : Option String :=
    (((json.get? "property").bind (·.get? "left")).bind (·.get? "name")).bind Json.string?
  have names : some "c" = some "a" := congrArg leftName same
  exact absurd names (by decide)

end PropValidators
