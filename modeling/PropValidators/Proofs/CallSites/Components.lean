import PropValidators.Proofs.CallSites.AssignedDefaults
import PropValidators.Proofs.CallSites.Replacing

/-!
# Component calls

A component call stands for the assignment of validators to its first argument, the component, if
that is a name or a member of something and a prop is known of the type argument.  Which props are
required depends on the defaults that the module assigns to the component, so every call is expanded
in view of the whole module as it is by then.  If component calls stand apart from assignments and
from each other, then this makes no difference: a call is expanded as in the module that was read.
-/

namespace PropValidators

open Ast Node

variable {workspace other : Workspace} {c component : Node}

/-- The component of a call that can be read: its first argument, if it is a name or a member of
something. -/
def Ast.Node.component? (call : Node) : Option Node :=
  (call.children "arguments").head?.filter fun argument =>
    argument.kind == .identifier || argument.kind == .memberExpression

theorem component?_eq_some_iff :
    c.component? = some component ↔ (c.children "arguments").head? = some component ∧
      (component.kind = .identifier ∨ component.kind = .memberExpression) := by
  rw [component?, Option.filter_eq_some_iff, Bool.or_eq_true, beq_iff_eq, beq_iff_eq]

theorem mem_arguments_of_component? (found : c.component? = some component) :
    component ∈ c.children "arguments" :=
  List.mem_of_head? (component?_eq_some_iff.mp found).1

private theorem componentOf?_of_sound (sound : c.Sound) (isCall : c.kind = .callExpression) :
    componentOf? c = .ok c.component? := by
  have specEq : c.kind.specOfKey? "arguments" = some ⟨"arguments", "arguments", .nodes⟩ :=
    Node.specOfKey?_of_kind isCall rfl
  rw [componentOf?, sound.child?_eq_none specEq rfl, component?]
  dsimp only
  rw [sound.items_eq_map_node specEq rfl, List.head?_map]
  cases c.children "arguments" <;> rfl

/-- The first argument of a sound call stands in the first slot. -/
theorem inSlot?_component (sound : c.Sound) (isCall : c.kind = .callExpression)
    (found : c.component? = some component) :
    c.inSlot? ⟨.declared "arguments", some 0⟩ = some component := by
  have specEq : c.kind.specOfKey? "arguments" = some ⟨"arguments", "arguments", .nodes⟩ :=
    Node.specOfKey?_of_kind isCall rfl
  have itemsEq := sound.items_eq_map_node specEq rfl
  have headEq : (c.items "arguments").head? = some (.node component) := by
    rw [itemsEq, List.head?_map, (component?_eq_some_iff.mp found).1]
    rfl
  rw [Node.items] at headEq
  cases held : c.get? "arguments" with
  | none =>
      rw [held] at headEq
      cases headEq
  | some value =>
      rw [held] at headEq
      have fits := sound.fits_of_get? specEq held
      cases value with
      | node m => exact fits.1.elim
      | data json => exact fits.elim
      | list items =>
          have fieldEq : c.field? (.declared "arguments") = some (.list items) := held
          rw [inSlot?, fieldEq]
          change items[0]?.bind Value.node? = _
          rw [← List.head?_eq_getElem?, show items.head? = some (.node component) from headEq]
          rfl

/-- The assignment of the validators of entries to a component. -/
def validatorAssignment (options : Options) (component : Node) (entries : List Entry) : Node :=
  assign (member component options.validatorProperty)
    (mergeEntries options.validatorNamespace none entries)

/-- The expansion of a call for a component, given the fields of the type argument and the names of
the props with defaults. -/
def componentExpansion? (options : Options) (component : Node) (name : String)
    (fields : List Field) (defaults : List String) : Option (Expansion String) :=
  let entries := Entry.ofProps fields defaults
  if Entry.anyUsable entries then
    some
      { node := validatorAssignment options component entries
        reused := some (componentPlace, assignedPlace)
        notice := some (.componentAssigned name options.validatorProperty)
        report := name }
  else none

/-- A sound call is expanded by what is told of its component, of its type argument, and of the
defaults that are assigned to the component. -/
theorem outcome_expandComponent (sound : c.Sound) (isCall : c.kind = .callExpression) :
    (expandComponent workspace c).outcome =
      match c.component? with
      | none => .ok none
      | some component =>
          (component.rendered 0).bind fun name =>
            (argumentShape workspace.context c).outcome.bind fun shape =>
              match shape.bind Shape.fields? with
              | none => .ok none
              | some fields =>
                  (assignedDefaults workspace.options.defaultsProperty workspace.root
                    name).outcome.map
                      (componentExpansion? workspace.options component name fields) := by
  rw [expandComponent, Traced.outcome_bind, componentOf?_of_sound sound isCall]
  change Traced.outcome (match c.component? with | none => _ | some component => _) = _
  cases c.component? with
  | none => rfl
  | some component =>
      dsimp only
      rw [Traced.outcome_bind]
      change (component.rendered 0).bind _ = _
      congr 1
      funext name
      rw [Traced.outcome_bind]
      congr 1
      funext shape
      cases shape.bind Shape.fields? with
      | none => rfl
      | some fields =>
          dsimp only
          rw [Traced.outcome_bind]
          generalize
            (assignedDefaults workspace.options.defaultsProperty workspace.root name).outcome = told
          cases told with
          | error fault => rfl
          | ok defaults =>
              change Traced.outcome (if _ then _ else _) = Except.ok (if _ then _ else _)
              split <;> rfl

/-- A call is expanded alike where the options, the declarations in sight and the assigned defaults
are the same. -/
theorem outcome_expandComponent_congr (sound : c.Sound) (isCall : c.kind = .callExpression)
    (options : other.options = workspace.options) (context : other.context = workspace.context)
    (defaults : ∀ name,
      (assignedDefaults workspace.options.defaultsProperty other.root name).outcome =
        (assignedDefaults workspace.options.defaultsProperty workspace.root name).outcome) :
    (expandComponent other c).outcome = (expandComponent workspace c).outcome := by
  rw [outcome_expandComponent sound isCall, outcome_expandComponent sound isCall, options, context]
  simp only [defaults]

@[simp]
theorem bind_fields?_eq_some_iff {shape : Option Shape} {fields : List Field} :
    shape.bind Shape.fields? = some fields ↔ shape = some (.object fields) := by
  cases shape with
  | none => simp
  | some shape => cases shape <;> simp [Shape.fields?]

theorem outcome_expandComponent_eq_some_iff (sound : c.Sound) (isCall : c.kind = .callExpression)
    {expansion : Expansion String} :
    (expandComponent workspace c).outcome = .ok (some expansion) ↔
      ∃ component name fields defaults, c.component? = some component ∧
        component.rendered 0 = .ok name ∧
        (argumentShape workspace.context c).outcome = .ok (some (.object fields)) ∧
        (assignedDefaults workspace.options.defaultsProperty workspace.root name).outcome =
          .ok defaults ∧
        componentExpansion? workspace.options component name fields defaults = some expansion := by
  rw [outcome_expandComponent sound isCall]
  constructor
  · intro expanded
    cases componentEq : c.component? with
    | none =>
        rw [componentEq] at expanded
        cases expanded
    | some component =>
        rw [componentEq] at expanded
        obtain ⟨name, nameEq, rest⟩ := bind_eq_ok.mp expanded
        obtain ⟨shape, shapeEq, rest⟩ := bind_eq_ok.mp rest
        cases fieldsEq : shape.bind Shape.fields? with
        | none =>
            rw [fieldsEq] at rest
            cases rest
        | some fields =>
            rw [fieldsEq] at rest
            obtain ⟨defaults, defaultsEq, expansionEq⟩ := map_eq_ok.mp rest
            rw [bind_fields?_eq_some_iff.mp fieldsEq] at shapeEq
            exact ⟨component, name, fields, defaults, rfl, nameEq, shapeEq, defaultsEq, expansionEq⟩
  · rintro ⟨component, name, fields, defaults, componentEq, nameEq, shapeEq, defaultsEq,
      expansionEq⟩
    rw [componentEq]
    dsimp only
    rw [nameEq, Except.bind, shapeEq, Except.bind, Option.bind_some, Shape.fields?]
    dsimp only
    rw [defaultsEq]
    exact congrArg Except.ok expansionEq

/-- What a node is replaced by: nothing, unless it is a component call that is expanded. -/
def componentAssignment? (workspace : Workspace) (c : Node) : Option Node :=
  if c.calls componentHelper then
    match (expandComponent workspace c).outcome with
    | .ok found => found.map Expansion.node
    | .error _ => none
  else none

theorem componentAssignment?_of_outcome (calls : c.calls componentHelper = true)
    {found : Option (Expansion String)}
    (expanded : (expandComponent workspace c).outcome = .ok found) :
    componentAssignment? workspace c = found.map Expansion.node := by
  rw [componentAssignment?, if_pos calls, expanded]

theorem exists_of_componentAssignment? {r : Node}
    (replaced : componentAssignment? workspace c = some r) :
    c.calls componentHelper = true ∧ ∃ expansion,
      (expandComponent workspace c).outcome = .ok (some expansion) ∧ expansion.node = r := by
  rw [componentAssignment?] at replaced
  split at replaced
  · rename_i calls
    split at replaced
    · rename_i found expanded
      obtain ⟨expansion, rfl, nodeEq⟩ := Option.map_eq_some_iff.mp replaced
      exact ⟨calls, expansion, expanded, nodeEq⟩
    · cases replaced
  · cases replaced

theorem eq_of_componentExpansion? {options : Options} {name : String} {fields : List Field}
    {defaults : List String} {expansion : Expansion String}
    (expanded : componentExpansion? options component name fields defaults = some expansion) :
    Entry.anyUsable (Entry.ofProps fields defaults) = true ∧
      expansion =
        { node := validatorAssignment options component (Entry.ofProps fields defaults)
          reused := some (componentPlace, assignedPlace)
          notice := some (.componentAssigned name options.validatorProperty)
          report := name } := by
  rw [componentExpansion?] at expanded
  split at expanded
  · rename_i usable
    exact ⟨usable, (Option.some_inj.mp expanded).symm⟩
  · cases expanded

/-- What an expansion of a sound call consists of. -/
theorem exists_of_expandComponent (sound : c.Sound) (isCall : c.kind = .callExpression)
    {expansion : Expansion String}
    (expanded : (expandComponent workspace c).outcome = .ok (some expansion)) :
    ∃ component entries, c.component? = some component ∧
      expansion.node = validatorAssignment workspace.options component entries ∧
      expansion.reused = some (componentPlace, assignedPlace) := by
  obtain ⟨component, name, fields, defaults, componentEq, -, -, -, expansionEq⟩ :=
    (outcome_expandComponent_eq_some_iff sound isCall).mp expanded
  obtain ⟨-, rfl⟩ := eq_of_componentExpansion? expansionEq
  exact ⟨component, _, componentEq, rfl, rfl⟩

/-- What replaces a sound call is the assignment of entries to its component. -/
theorem eq_of_componentAssignment? {r : Node} (sound : c.Sound)
    (replaced : componentAssignment? workspace c = some r) :
    ∃ component entries, c.component? = some component ∧
      r = validatorAssignment workspace.options component entries := by
  obtain ⟨calls, expansion, expanded, rfl⟩ := exists_of_componentAssignment? replaced
  obtain ⟨component, entries, componentEq, nodeEq, -⟩ :=
    exists_of_expandComponent sound (kind_of_calls calls) expanded
  exact ⟨component, entries, componentEq, nodeEq⟩

section Assignment

variable (options : Options) (entries : List Entry)

/-- The validators are plain, if the component is sound. -/
theorem plain_validatorAssignment (sound : component.Sound) :
    (validatorAssignment options component entries).Plain where
  kind := .inr (.inr (.inr rfl))
  sound := by
    have validators : (mergeEntries options.validatorNamespace none entries).Sound := by
      refine (fresh_objectOf fun p mem => ?_).1
      obtain ⟨entry, -, rfl⟩ := List.mem_map.mp mem
      exact Entry.fresh_toProperty options.validatorNamespace entry
    have target : (member component options.validatorProperty).Sound :=
      sound_ofDeclared [("object", .node), ("property", .node), ("computed", .optionalFlag)]
        (by decide)
        (.cons ⟨rfl, trivial, sound⟩ (.cons ⟨rfl, (fresh_identifier _).freshIn.1⟩
          (.cons ⟨rfl, (freshIn_optionalFlag false).1⟩ .nil)))
    exact sound_ofDeclared [("operator", .optionalText "="), ("left", .node), ("right", .node)]
      (by decide)
      (.cons ⟨rfl, "=", rfl⟩ (.cons ⟨rfl, trivial, target⟩ (.cons ⟨rfl, trivial, validators⟩ .nil)))
  options name value found := by
    rw [propertyValue?_of_kind .assignmentExpression rfl (by decide)] at found
    cases found

/-- What is in the assignment of validators: the component, the rest of the target, and what is
inert. -/
theorem tree_validatorAssignment :
    (validatorAssignment options component entries).tree =
      validatorAssignment options component entries ::
        member component options.validatorProperty ::
          (component.tree ++ ((identifier options.validatorProperty).tree ++
            (mergeEntries options.validatorNamespace none entries).tree)) := by
  rw [tree_eq]
  change _ :: ((member component options.validatorProperty).tree ++ (_ ++ [])) = _
  rw [tree_eq (member component options.validatorProperty)]
  change _ :: (_ :: (component.tree ++ ((identifier _).tree ++ [])) ++ _) = _
  rw [List.append_nil, List.append_nil, List.cons_append, List.append_assoc]
  rfl

/-- Whatever holds of the component, of what is inert, and of the assignment and its target, holds
throughout. -/
theorem forall_mem_tree_validatorAssignment {property : Node → Prop}
    (here : property (validatorAssignment options component entries))
    (target : property (member component options.validatorProperty))
    (inComponent : ∀ m ∈ component.tree, property m) (inert : ∀ m : Node, m.Inert → property m) :
    ∀ m ∈ (validatorAssignment options component entries).tree, property m := by
  rw [tree_validatorAssignment, List.forall_mem_cons, List.forall_mem_cons, List.forall_mem_append,
    List.forall_mem_append]
  exact ⟨here, target, inComponent, fun m mem => inert m (inertTree_identifier _ m mem),
    fun m mem => inert m (inertTree_mergeEntries _ entries m mem)⟩

end Assignment

theorem settled_validatorAssignment (options : Options) (entries : List Entry)
    (settled : component.Settled) : (validatorAssignment options component entries).Settled := by
  refine forall_mem_tree_validatorAssignment options entries
    ⟨fun key mem => absurd mem (declared_ofDeclared _ _ key), ?_⟩
    (inert_ofDeclared .memberExpression rfl (by decide)).writable settled
    fun m inert => inert.writable
  exact ⟨(fun isInterface => nomatch isInterface), fun isEnum => nomatch isEnum⟩

/-- The assignment of validators assigns nothing to another property. -/
theorem assignedTo?_validatorAssignment {options : Options} {property : String}
    (apart : options.validatorProperty ≠ property) (entries : List Entry)
    (unassigned : ∀ m ∈ component.tree, m.kind ≠ .assignmentExpression) :
    ∀ m ∈ (validatorAssignment options component entries).tree, assignedTo? property m = none := by
  have quiet : ∀ m : Node, m.kind ≠ .assignmentExpression → assignedTo? property m = none :=
    fun m notAssignment => if_neg fun both => notAssignment both.1
  refine forall_mem_tree_validatorAssignment options entries ?_
    (quiet _ fun absurd => nomatch absurd) (fun m mem => quiet m (unassigned m mem))
    fun m inert => quiet m inert.unassigned
  rw [Option.eq_none_iff_forall_ne_some]
  rintro ⟨object, right⟩ assigned
  obtain ⟨-, left, key, leftEq, -, -, -, keyEq, -, nameEq, -⟩ := assignedTo?_eq_some_iff.mp assigned
  obtain rfl : member component options.validatorProperty = left := Option.some_inj.mp leftEq
  obtain rfl : identifier options.validatorProperty = key := Option.some_inj.mp keyEq
  exact apart (Option.some_inj.mp nameEq)

/-- Component calls stand apart from assignments and from each other: there is no assignment in a
component call, no component call in an argument of another one, and none on the left of an
assignment. -/
structure Ast.Node.CallsApart (root : Node) : Prop where
  assignments : ∀ c ∈ root.walk, c.calls componentHelper = true →
    ∀ m ∈ c.walk, m.kind ≠ .assignmentExpression
  arguments : ∀ c ∈ root.walk, c.calls componentHelper = true →
    ∀ argument ∈ c.children "arguments", ∀ m ∈ argument.walk, m.calls componentHelper = false
  targets : ∀ m ∈ root.walk, m.kind = .assignmentExpression → ∀ left ∈ m.child? "left",
    ∀ c ∈ left.walk, c.calls componentHelper = false

instance (root : Node) : Decidable root.CallsApart :=
  decidable_of_iff (_ ∧ _ ∧ _)
    ⟨fun ⟨assignments, arguments, targets⟩ => ⟨assignments, arguments, targets⟩,
      fun ⟨assignments, arguments, targets⟩ => ⟨assignments, arguments, targets⟩⟩

variable {before : Workspace}

/-- The replacement of a component call is what is read off it in the module as it was. -/
theorem reads_componentAssignment? (steady : before.Steady) (apart : before.root.CallsApart) :
    Reads before componentHelper (fun c => (expandComponent before c).outcome)
      (componentAssignment? before) where
  calls c r replaced := (exists_of_componentAssignment? replaced).1
  agrees c found calls expanded := componentAssignment?_of_outcome calls expanded
  plain c r sound replaced := by
    obtain ⟨component, entries, componentEq, rfl⟩ := eq_of_componentAssignment? sound replaced
    exact plain_validatorAssignment _ _
      (sound.of_mem_children (mem_arguments_of_component? componentEq))
  settled c r sound settled replaced := by
    obtain ⟨component, entries, componentEq, rfl⟩ := eq_of_componentAssignment? sound replaced
    refine settled_validatorAssignment _ _ fun m mem => settled m ?_
    exact mem_tree_trans (below_of_mem_children (mem_arguments_of_component? componentEq)).mem_tree
      mem
  reuses c expansion sound calls expanded old inner reused := by
    obtain ⟨component, entries, componentEq, nodeEq, reusedEq⟩ :=
      exists_of_expandComponent sound (kind_of_calls calls) expanded
    rw [reusedEq] at reused
    obtain ⟨rfl, rfl⟩ := Prod.mk.inj (Option.some_inj.mp reused)
    refine ⟨_, component, rfl, inSlot?_component sound (kind_of_calls calls) componentEq, ?_⟩
    rw [nodeEq]
    rfl
  clear site mem expansion expanded other otherMem old inner reused covered := by
    have found := at?_place_of_mem steady.sound mem
    have sound := steady.sound.of_at? found
    have calls := calls_of_mem steady.sound mem
    obtain ⟨component, entries, componentEq, -, reusedEq⟩ :=
      exists_of_expandComponent sound (kind_of_calls calls) expanded
    obtain rfl : componentPlace = old := by
      have pairEq := Option.some_inj.mp (reusedEq.symm.trans reused)
      exact (Prod.mk.inj pairEq).1
    obtain ⟨rest, placeEq⟩ := covered
    have otherFound := at?_place_of_mem steady.sound otherMem
    have here : before.root.at? (site.place ++ componentPlace) = some component := by
      rw [componentPlace, at?_concat, found]
      exact inSlot?_component sound (kind_of_calls calls) componentEq
    change site.place ++ componentPlace ++ rest = other.place at placeEq
    rw [← placeEq, at?_append, here] at otherFound
    have notCalled := apart.arguments site.call (mem_walk_of_at? found) calls component
      (mem_arguments_of_component? componentEq) other.call (mem_walk_of_at? otherFound)
    rw [calls_of_mem steady.sound otherMem] at notCalled
    cases notCalled

/-- Replacing component calls says nothing about the defaults that are assigned in a module. -/
theorem spares_componentAssignment? (steady : before.Steady) (apart : before.root.CallsApart)
    {property : String} (other : before.options.validatorProperty ≠ property)
    (places : List Place) :
    before.root.Spares property (replaceAt (componentAssignment? before) places) := by
  have reads := reads_componentAssignment? steady apart
  have unguarded : ∀ place c r, replaceAt (componentAssignment? before) places place c = some r →
      componentAssignment? before c = some r := by
    intro place c r replaced
    rw [replaceAt] at replaced
    split at replaced
    · exact replaced
    · cases replaced
  refine
    { expands := reads.expandsAt steady.sound places
      assigns := fun place c r found replaced => ?_
      silent := fun place c r found replaced => ?_
      targets := fun place m left found isAssignment leftEq inner c inLeft => ?_ }
  · obtain ⟨component, entries, -, rfl⟩ :=
      eq_of_componentAssignment? (steady.sound.of_at? found) (unguarded place c r replaced)
    rfl
  · have calls := reads.calls c r (unguarded place c r replaced)
    obtain ⟨component, entries, componentEq, rfl⟩ :=
      eq_of_componentAssignment? (steady.sound.of_at? found) (unguarded place c r replaced)
    have unassigned := apart.assignments c (mem_walk_of_at? found) calls
    rw [c.walk_eq_tree] at unassigned
    rw [List.forall_mem_append]
    refine ⟨fun m mem => if_neg fun both => unassigned m mem both.1,
      assignedTo?_validatorAssignment other entries fun m mem => unassigned m ?_⟩
    exact mem_tree_trans (below_of_mem_children (mem_arguments_of_component? componentEq)).mem_tree
      mem
  · have notCalled := apart.targets m (mem_walk_of_at? found) isAssignment left leftEq c
      (mem_walk_of_at? inLeft)
    rw [Option.eq_none_iff_forall_ne_some]
    intro r replaced
    rw [reads.calls c r (unguarded _ c r replaced)] at notCalled
    cases notCalled

/-- Whatever was replaced before, a component call is expanded as in the module as it was. -/
theorem follows_expandComponent (steady : before.Steady) (apart : before.root.CallsApart)
    (other : before.options.validatorProperty ≠ before.options.defaultsProperty) :
    Follows before componentHelper (fun c => (expandComponent before c).outcome)
      (componentAssignment? before) expandComponent := by
  intro done workspace moves replaced site mem
  have sound := steady.sound.of_at? (at?_place_of_mem steady.sound mem)
  have isCall := kind_of_calls (calls_of_mem steady.sound mem)
  refine outcome_expandComponent_congr sound isCall replaced.options replaced.context fun name => ?_
  rw [replaced.root]
  exact outcome_assignedDefaults_rewrite steady.sound
    (spares_componentAssignment? steady apart other _) name

end PropValidators
