import Mathlib.Data.List.Basic
import PropValidators.Defaults
import PropValidators.Proofs.Patching.Plan
import PropValidators.Proofs.Syntax.Expanded
import PropValidators.Proofs.Syntax.Printing
import PropValidators.Proofs.Syntax.Visits

/-!
# Defaults that are assigned in a module

A module gives a component defaults by assignments of object literals to its defaults property.
Which props have defaults is the same when calls in the module are replaced by assignments to
another property, if no call stands on the left of an assignment, and no assignment in a call that
is replaced.
-/

namespace PropValidators

open Ast Node

/-- A node assigns an object literal with a plain key to a property of a component, which is told
by its text: the prop of that name has a default. -/
structure GivesDefault (property component name : String) (n : Node) : Prop where
  isAssignment : n.kind = .assignmentExpression ∧ n.textOr "operator" "=" = "="
  target : ∃ left key object, n.child? "left" = some left ∧ left.kind = .memberExpression ∧
    left.flag "computed" = false ∧ left.child? "property" = some key ∧ key.kind = .identifier ∧
    key.text? "name" = some property ∧ left.child? "object" = some object ∧
    object.source 0 = component
  value : ∃ right, n.child? "right" = some right ∧ right.kind = .objectExpression ∧
    name ∈ objectKeys right

/-- The names of the props that an assignment gives a component defaults for. -/
def assignedKeys (property component : String) (n : Node) : List String :=
  ((assignedObject? property component n).map objectKeys).getD []

variable {property component name : String} {n root : Node}

theorem assignedTo?_eq_some_iff {object right : Node} :
    assignedTo? property n = some (object, right) ↔
      (n.kind = .assignmentExpression ∧ n.textOr "operator" "=" = "=") ∧
        ∃ left key, n.child? "left" = some left ∧ n.child? "right" = some right ∧
          left.kind = .memberExpression ∧ left.flag "computed" = false ∧
          left.child? "property" = some key ∧ key.kind = .identifier ∧
          key.text? "name" = some property ∧ left.child? "object" = some object := by
  rw [assignedTo?]
  constructor
  · intro found
    split at found
    · rename_i isAssignment
      refine ⟨isAssignment, ?_⟩
      split at found
      · rename_i left value leftEq rightEq
        dsimp only at found
        split at found
        · rename_i isTarget
          obtain ⟨isMember, plain, named⟩ := isTarget
          obtain ⟨key, keyEq, nameEq⟩ := Option.bind_eq_some_iff.mp named
          obtain ⟨keyEq, isIdentifier⟩ := Option.filter_eq_some_iff.mp keyEq
          obtain ⟨_, objectEq, pairEq⟩ := Option.map_eq_some_iff.mp found
          obtain ⟨rfl, rfl⟩ := Prod.mk.inj pairEq
          exact ⟨left, key, leftEq, rightEq, isMember, plain, keyEq, beq_iff_eq.mp isIdentifier,
            nameEq, objectEq⟩
        · cases found
      · cases found
    · cases found
  · rintro ⟨isAssignment, left, key, leftEq, rightEq, isMember, plain, keyEq, isIdentifier, nameEq,
      objectEq⟩
    rw [if_pos isAssignment, leftEq, rightEq]
    dsimp only
    rw [keyEq, objectEq, Option.filter_some, isIdentifier, beq_self_eq_true, if_pos rfl,
      if_pos ⟨isMember, plain, nameEq⟩]
    rfl

theorem assignedObject?_eq_some_iff {right : Node} :
    assignedObject? property component n = some right ↔
      ∃ object, assignedTo? property n = some (object, right) ∧ object.source 0 = component ∧
        right.kind = .objectExpression := by
  rw [assignedObject?]
  constructor
  · intro found
    split at found
    · rename_i object value assigned
      split at found
      · rename_i isObject
        obtain rfl := Option.some_inj.mp found
        exact ⟨object, assigned, isObject⟩
      · cases found
    · cases found
  · rintro ⟨object, assigned, isObject⟩
    rw [assigned]
    exact if_pos isObject

@[simp]
theorem mem_assignedKeys_iff :
    name ∈ assignedKeys property component n ↔ GivesDefault property component name n := by
  constructor
  · intro mem
    rw [assignedKeys] at mem
    cases found : assignedObject? property component n with
    | none =>
        rw [found] at mem
        cases mem
    | some right =>
        rw [found] at mem
        obtain ⟨object, assigned, sourceEq, isObject⟩ := assignedObject?_eq_some_iff.mp found
        obtain ⟨isAssignment, left, key, leftEq, rightEq, isMember, plain, keyEq, isIdentifier,
          nameEq, objectEq⟩ := assignedTo?_eq_some_iff.mp assigned
        exact
          { isAssignment
            target := ⟨left, key, object, leftEq, isMember, plain, keyEq, isIdentifier, nameEq,
              objectEq, sourceEq⟩
            value := ⟨right, rightEq, isObject, mem⟩ }
  · rintro ⟨isAssignment, ⟨left, key, object, leftEq, isMember, plain, keyEq, isIdentifier, nameEq,
      objectEq, sourceEq⟩, right, rightEq, isObject, mem⟩
    have assigned : assignedTo? property n = some (object, right) :=
      assignedTo?_eq_some_iff.mpr ⟨isAssignment, left, key, leftEq, rightEq, isMember, plain, keyEq,
        isIdentifier, nameEq, objectEq⟩
    rw [assignedKeys, assignedObject?_eq_some_iff.mpr ⟨object, assigned, sourceEq, isObject⟩]
    exact mem

instance : Decidable (GivesDefault property component name n) :=
  decidable_of_iff _ mem_assignedKeys_iff

theorem flatMap_assignedKeys (property component : String) (nodes : List Node) :
    (nodes.filterMap (assignedObject? property component)).flatMap objectKeys =
      nodes.flatMap (assignedKeys property component) := by
  rw [List.filterMap_eq_flatMap_toList, List.flatMap_assoc]
  refine List.flatMap_congr fun n _ => ?_
  rw [assignedKeys]
  cases assignedObject? property component n with
  | none => rfl
  | some right => exact List.flatMap_singleton _ _

/-- The fault of collecting what an assignment gives is that of printing its target. -/
theorem assignmentFault?_of_sound (sound : n.Sound) :
    assignmentFault? property component n =
      (assignedTo? property n).bind fun pair => pair.1.sourceFault? := by
  have noFault : (assignedObject? property component n).bind objectKeysFault? = none := by
    cases found : assignedObject? property component n with
    | none => rfl
    | some right =>
        obtain ⟨object, assigned, -, -⟩ := assignedObject?_eq_some_iff.mp found
        obtain ⟨-, left, key, -, rightEq, -⟩ := assignedTo?_eq_some_iff.mp assigned
        exact objectKeysFault?_of_sound (sound.of_child? rightEq)
  rw [assignmentFault?, noFault]
  cases (assignedTo? property n).bind fun pair => pair.1.sourceFault? with
  | none => rfl
  | some fault => rfl

/-- Collecting the defaults that are assigned to a component stops where a target cannot be
printed. -/
theorem outcome_assignedDefaults (property : String) (root : Node) (component : String) :
    (assignedDefaults property root component).outcome =
      match root.walk.findSome? (assignmentFault? property component) with
      | some fault => .error fault
      | none => .ok (sortedNames (root.walk.flatMap (assignedKeys property component))) := by
  rw [← flatMap_assignedKeys, assignedDefaults, Traced.outcome_bind]
  cases root.walk.findSome? (assignmentFault? property component) with
  | some fault => rfl
  | none =>
      change Traced.outcome (if _ then _ else _ : Traced (List String)) = _
      split <;> rfl

/-- The names that are collected are those of the props that some assignment gives a default. -/
theorem mem_iff_of_assignedDefaults {defaults : List String}
    (collected : (assignedDefaults property root component).outcome = .ok defaults) :
    name ∈ defaults ↔ ∃ n ∈ root.walk, GivesDefault property component name n := by
  rw [outcome_assignedDefaults] at collected
  split at collected
  · cases collected
  · obtain rfl := Except.ok.inj collected
    rw [mem_sortedNames, List.mem_flatMap]
    simp only [mem_assignedKeys_iff]

/-- Only assignments count. -/
theorem outcome_assignedDefaults_of_assignments {assignments : List Node} (sound : root.Sound)
    (assignmentsEq : (root.tree.filter fun n => n.kind == .assignmentExpression) = assignments)
    (printable : ∀ n ∈ assignments, ∀ pair, assignedTo? property n = some pair →
      pair.1.sourceFault? = none) (component : String) :
    (assignedDefaults property root component).outcome =
      .ok (sortedNames (assignments.flatMap (assignedKeys property component))) := by
  subst assignmentsEq
  have noFault : root.walk.findSome? (assignmentFault? property component) = none := by
    rw [root.walk_eq_tree, List.findSome?_eq_none_iff]
    intro n mem
    rw [assignmentFault?_of_sound (root.sound_of_mem_tree sound n mem)]
    cases assigned : assignedTo? property n with
    | none => rfl
    | some pair =>
        obtain ⟨⟨isAssignment, -⟩, -⟩ := assignedTo?_eq_some_iff.mp assigned
        exact printable n (List.mem_filter.mpr ⟨mem, beq_iff_eq.mpr isAssignment⟩) pair assigned
  have objects : root.tree.filterMap (assignedObject? property component) =
      (root.tree.filter fun n => n.kind == .assignmentExpression).filterMap
        (assignedObject? property component) := by
    rw [List.filterMap_filter]
    refine List.filterMap_congr fun n _ => ?_
    split
    · rfl
    · rename_i notAssignment
      rw [assignedObject?, assignedTo?, if_neg fun both => notAssignment (beq_iff_eq.mpr both.1)]
  rw [outcome_assignedDefaults, noFault, root.walk_eq_tree, ← flatMap_assignedKeys,
    ← flatMap_assignedKeys, objects]

/-- Calls in a tree are replaced by assignments, and neither what is replaced nor what replaces it
says anything about the defaults that are assigned to a property, and nothing is replaced on the
left of an assignment. -/
structure Ast.Node.Spares (root : Node) (property : String)
    (replace : Place → Node → Option Node) : Prop where
  expands : root.Expands replace
  assigns : ∀ place c r, root.at? place = some c → replace place c = some r →
    r.kind = .assignmentExpression
  silent : ∀ place c r, root.at? place = some c → replace place c = some r →
    ∀ m ∈ c.tree ++ r.tree, assignedTo? property m = none
  targets : ∀ place m left, root.at? place = some m → m.kind = .assignmentExpression →
    m.child? "left" = some left → ∀ inner c, left.at? inner = some c →
      replace (place ++ ⟨.declared "left", none⟩ :: inner) c = none

/-- The plain keys of an object literal stay the same. -/
theorem objectKeys_mapSlots {change : Slot → Node → Node}
    (each : ∀ slot c, n.inSlot? slot = some c → Expanded c (change slot c)) :
    objectKeys (n.mapSlots change) = objectKeys n := by
  rw [objectKeys, objectKeys, List.filterMap_filter, List.filterMap_filter]
  refine filterMap_eq_of_forall₂ (forall₂_children each "properties") fun p _ after expanded => ?_
  by_cases isProperty : p.kind = .objectProperty
  · obtain ⟨change, rfl, each⟩ := expanded.within_of_kind (by rw [isProperty]; decide)
    rw [kind_mapSlots, propertyName?_mapSlots each]
  · have noProperty : after.kind ≠ .objectProperty := fun eq =>
      isProperty ((expanded.kind_eq_iff (by decide)).mp eq)
    rw [beq_eq_false_iff_ne.mpr isProperty, beq_eq_false_iff_ne.mpr noProperty]
    rfl

theorem textOr_mapSlots (change : Slot → Node → Node) (key default : String)
    (noNode : n.child? key = none) :
    (n.mapSlots change).textOr key default = n.textOr key default := by
  rw [child?, get?] at noNode
  rw [textOr, textOr, get?, get?, field?_mapSlots]
  cases held : n.field? (.declared key) with
  | none => rfl
  | some value =>
      rw [held] at noNode
      cases value with
      | node m => cases noNode
      | list items => rfl
      | data json => rfl

section Spares

variable {replace : Place → Node → Option Node} {place : Place} {m : Node}
  (sound : root.Sound) (spares : root.Spares property replace)
  (found : root.at? place = some m)

include sound spares found

/-- The left side of an assignment stays as it is. -/
theorem child?_left_rewrite (isAssignment : m.kind = .assignmentExpression) :
    (m.rewrite fun inner => replace (place ++ inner)).child? "left" = m.child? "left" := by
  rw [rewrite_eq, child?_mapSlots]
  cases held : m.child? "left" with
  | none => rfl
  | some left =>
      have idle := spares.targets place m left found isAssignment held
      have leftSound := (sound.of_at? found).of_child? held
      rw [Option.map_some, rewriteIn, idle [] left rfl, Option.getD_none]
      exact congrArg some (rewrite_of_forall_none leftSound idle)

/-- An assignment is to the same target. -/
theorem assignedTo?_rewrite :
    assignedTo? property (m.rewrite fun inner => replace (place ++ inner)) =
      (assignedTo? property m).map fun pair =>
        (pair.1, rewriteIn (fun inner => replace (place ++ inner)) ⟨.declared "right", none⟩
          pair.2) := by
  by_cases isAssignment : m.kind = .assignmentExpression
  · have left := child?_left_rewrite sound spares found isAssignment
    have specEq : m.kind.specOfKey? "operator" = some ⟨"operator", "operator", .optionalText "="⟩ :=
      Node.specOfKey?_of_kind isAssignment rfl
    have noNode := (sound.of_at? found).child?_eq_none specEq rfl
    rw [rewrite_eq] at left ⊢
    rw [assignedTo?, assignedTo?, left, kind_mapSlots, textOr_mapSlots _ _ _ noNode,
      child?_mapSlots]
    split
    · cases m.child? "left" with
      | none => rfl
      | some left =>
          cases m.child? "right" with
          | none => rfl
          | some right =>
              dsimp only [Option.map_some]
              split
              · rw [Option.map_map]
                rfl
              · rfl
    · rfl
  · rw [rewrite_eq, assignedTo?, assignedTo?, kind_mapSlots, if_neg fun both => isAssignment both.1,
      if_neg fun both => isAssignment both.1]
    rfl

/-- An assignment gives the same defaults. -/
theorem assignedKeys_rewrite (component : String) :
    assignedKeys property component (m.rewrite fun inner => replace (place ++ inner)) =
      assignedKeys property component m := by
  rw [assignedKeys, assignedKeys, assignedObject?, assignedObject?,
    assignedTo?_rewrite sound spares found]
  cases assigned : assignedTo? property m with
  | none => rfl
  | some pair =>
      obtain ⟨object, right⟩ := pair
      obtain ⟨-, left, key, -, rightEq, -⟩ := assignedTo?_eq_some_iff.mp assigned
      have there : root.at? (place ++ [⟨.declared "right", none⟩]) = some right := by
        rw [at?_concat, found]
        exact rightEq
      dsimp only [Option.map_some]
      rw [rewriteIn]
      cases replaced : replace (place ++ [⟨.declared "right", none⟩]) right with
      | some new =>
          -- Neither a call nor an assignment is an object literal.
          have callKind := (spares.expands _ right new there replaced).1
          have newKind := spares.assigns _ right new there replaced
          rw [Option.getD_some, newKind, callKind]
          simp
      | none =>
          have expands : right.Expands fun inner =>
              replace (place ++ ⟨.declared "right", none⟩ :: inner) := by
            have below := spares.expands.of_at? there
            simpa using below
          rw [Option.getD_none, rewrite_eq, kind_mapSlots]
          split
          · exact objectKeys_mapSlots fun slot c inSlot => expanded_rewriteIn expands inSlot
          · rfl

/-- Printing the target of an assignment has the same fault. -/
theorem assignmentFault?_rewrite (component : String) :
    assignmentFault? property component (m.rewrite fun inner => replace (place ++ inner)) =
      assignmentFault? property component m := by
  have here := sound.of_at? found
  have after := (expanded_rewrite (spares.expands.of_at? found)).sound here
  rw [assignmentFault?_of_sound after, assignmentFault?_of_sound here,
    assignedTo?_rewrite sound spares found]
  cases assignedTo? property m <;> rfl

end Spares

/-- Whatever is read off the assignments to a property is collected as before. -/
theorem flatMap_tree_of_spares {β : Type} {replace : Place → Node → Option Node}
    (sound : root.Sound) (spares : root.Spares property replace) {collect : Node → List β}
    (quiet : ∀ m, assignedTo? property m = none → collect m = [])
    (kept : ∀ place m, root.at? place = some m →
      collect (m.rewrite fun inner => replace (place ++ inner)) = collect m) :
    (root.rewrite replace).tree.flatMap collect = root.tree.flatMap collect := by
  refine flatMap_tree_rewrite collect sound (fun place m found _ => kept place m found) ?_
  intro place m new found replaced
  have silent := spares.silent place m new found replaced
  rw [List.forall_mem_append] at silent
  rw [List.flatMap_eq_nil_iff.mpr fun c mem => quiet c (silent.1 c mem),
    List.flatMap_eq_nil_iff.mpr fun c mem => quiet c (silent.2 c mem)]

/-- The defaults that are assigned to a component are the same. -/
theorem outcome_assignedDefaults_rewrite {replace : Place → Node → Option Node}
    (sound : root.Sound) (spares : root.Spares property replace) (component : String) :
    (assignedDefaults property (root.rewrite replace) component).outcome =
      (assignedDefaults property root component).outcome := by
  have faults : ∀ nodes : List Node, nodes.findSome? (assignmentFault? property component) =
      (nodes.flatMap fun n => (assignmentFault? property component n).toList).head? := by
    intro nodes
    rw [← List.filterMap_eq_flatMap_toList, List.head?_filterMap]
  rw [outcome_assignedDefaults, outcome_assignedDefaults, faults, faults, walk_eq_tree,
    walk_eq_tree, flatMap_tree_of_spares sound spares ?quietFaults ?keptFaults,
    flatMap_tree_of_spares sound spares ?quietKeys ?keptKeys]
  case keptFaults =>
    exact fun place m found => congrArg _ (assignmentFault?_rewrite sound spares found component)
  case keptKeys => exact fun place m found => assignedKeys_rewrite sound spares found component
  case quietFaults =>
    intro m unassigned
    rw [assignmentFault?, assignedObject?, unassigned]
    rfl
  case quietKeys =>
    intro m unassigned
    rw [assignedKeys, assignedObject?, unassigned]
    rfl

end PropValidators
