import PropValidators.Proofs.CallSites.Asking

/-!
# Component calls are replaced independently of one another

Where component calls stand apart, each of them is replaced by what it asks for in the module that
was read: by the assignment of one validator per field, and a prop is required if it neither is
optional nor has a default, wherever in the module a default is assigned.  It makes no difference
which other calls there are and where they stand.
-/

namespace PropValidators

open Ast Node

/-! ## Runs -/

section Run

variable {before : Workspace} (steady : before.Steady) (apart : before.root.CallsApart)
  (other : before.options.validatorProperty ≠ before.options.defaultsProperty)

include steady apart other

/-- The calls are expanded as in the module as it was. -/
theorem run_transformComponents :
    let sites := before.root.findCalls componentHelper
    let run := transformComponents before
    run.2.outcome =
        (sites.mapM fun site => (expandComponent before site.call).outcome).map
          (List.filterMap (Option.map Expansion.report)) ∧
      ∀ names, run.2.outcome = .ok names →
        run.1.root = before.root.substitute (componentAssignment? before) := by
  have reads := reads_componentAssignment? steady apart
  obtain ⟨outcomeEq, visited, rest, moves, visitedEq, complete, replaced⟩ :=
    expandSites_run steady reads (follows_expandComponent steady apart other) (List.nil_append _)
      (replaced_nil steady)
  refine ⟨outcomeEq, fun names returned => ?_⟩
  rw [complete names returned, List.append_nil, List.nil_append] at visitedEq
  rw [visitedEq] at replaced
  exact replaced.root_eq_substitute steady reads

/-- Every call was expanded when the calls were replaced. -/
theorem exists_expanded {names : List String}
    (returned : (transformComponents before).2.outcome = .ok names) {site : CallSite}
    (mem : site ∈ before.root.findCalls componentHelper) :
    ∃ found, (expandComponent before site.call).outcome = .ok found := by
  rw [(run_transformComponents steady apart other).1] at returned
  obtain ⟨founds, mapped, -⟩ := map_eq_ok.mp returned
  exact exists_ok_of_mapM mapped mem

/-- The components of the replaced calls are reported. -/
theorem reports_transformComponents {names : List String}
    (returned : (transformComponents before).2.outcome = .ok names) :
    names = (before.root.findCalls componentHelper).filterMap fun site =>
      reportedComponent? before site.call := by
  rw [(run_transformComponents steady apart other).1] at returned
  obtain ⟨founds, mapped, rfl⟩ := map_eq_ok.mp returned
  have each : ∀ site ∈ before.root.findCalls componentHelper, ∀ found,
      (expandComponent before site.call).outcome = .ok found →
        found.map Expansion.report = reportedComponent? before site.call :=
    fun site mem found => map_report_eq
      (steady.sound.of_at? (at?_place_of_mem steady.sound mem)) (calls_of_mem steady.sound mem)
  have expanded := mapM_eq_ok.mp mapped
  clear mapped returned
  generalize before.root.findCalls componentHelper = sites at each expanded ⊢
  induction expanded with
  | nil => rfl
  | @cons site found sites founds head _ ih =>
      rw [List.forall_mem_cons] at each
      rw [List.filterMap_cons, List.filterMap_cons, each.1 found head, ih each.2]

end Run

/-! ## Runs that return -/

section Returns

variable {modules : List Node} {n : Node}

theorem not_allWritable_of_hasUnwritable (stands : StandsIn modules n)
    (unwritable : n.HasUnwritable) : ¬AllWritable modules := by
  intro writable
  obtain ⟨root, rootMem, mem⟩ := stands
  obtain ⟨m, inside, value, valueEq, isUnwritable⟩ := unwritable
  rw [root.walk_eq_tree] at mem
  have here : m ∈ root.walk := root.walk_eq_tree ▸ mem_tree_trans mem inside
  have isWritable := (writable root rootMem).literals m here value valueEq
  rw [Literal.Writable, isUnwritable] at isWritable
  cases isWritable

/-- An expression that stands in modules is printed unless an integer cannot be written. -/
theorem returns_rendered (readable : Readable modules) (stands : StandsIn modules n) (level : Int) :
    ReturnsIf (AllWritable modules) (n.rendered level) := by
  rw [rendered]
  split
  · rename_i fault faultEq
    obtain ⟨rfl, unwritable⟩ :=
      blames_sourceFault? (readable.sound_of_standsIn stands) fault faultEq
    exact .inr ⟨rfl, not_allWritable_of_hasUnwritable stands unwritable⟩
  · exact .ok _

/-- The defaults that are assigned in a module are collected unless an integer cannot be written. -/
theorem returns_assignedDefaults (readable : Readable modules) (mem : root ∈ modules)
    (property component : String) :
    ReturnsIf (AllWritable modules) (assignedDefaults property root component).outcome := by
  rw [outcome_assignedDefaults]
  split
  · rename_i fault faultEq
    obtain ⟨m, inside, here⟩ := List.exists_of_findSome?_eq_some faultEq
    have stands : StandsIn modules m := ⟨root, mem, inside⟩
    have sound := readable.sound_of_standsIn stands
    rw [assignmentFault?_of_sound sound, Option.bind_eq_some_iff] at here
    obtain ⟨⟨object, right⟩, assigned, objectFault⟩ := here
    obtain ⟨-, left, key, leftEq, -, -, -, -, -, -, objectEq⟩ := assignedTo?_eq_some_iff.mp assigned
    have below := (below_of_child? objectEq).trans (below_of_child? leftEq)
    obtain ⟨rfl, unwritable⟩ := blames_sourceFault?
      (readable.sound_of_standsIn (stands.below below)) fault objectFault
    exact .inr ⟨rfl, not_allWritable_of_hasUnwritable (stands.below below) unwritable⟩
  · exact .ok _

/-- A component call is expanded or left alone unless an integer cannot be written. -/
theorem returns_expandComponent (readable : Readable modules)
    (declared : workspace.registry = registryOf modules) (mem : workspace.root ∈ modules)
    (stands : StandsIn modules c) (isCall : c.kind = .callExpression) :
    ReturnsIf (AllWritable modules ∧ workspace.options.maxDepth.Writable)
      (expandComponent workspace c).outcome := by
  have sound := readable.sound_of_standsIn stands
  rw [outcome_expandComponent sound isCall]
  cases componentEq : c.component? with
  | none => exact .ok none
  | some component =>
      have below := below_of_mem_children (mem_arguments_of_component? componentEq)
      refine .bind_except ((returns_rendered readable (stands.below below) 0).imp And.left)
        fun name => ?_
      refine .bind_except (returns_argumentShape readable declared rfl stands) fun shape => ?_
      split
      · exact .ok none
      · exact ((returns_assignedDefaults readable mem _ name).imp And.left).map _

end Returns

/-- Component calls are replaced independently of one another.  In a module that was read without
issues, in which component calls stand apart, whatever is imported and wherever validators and
defaults are kept, as long as these are different properties, the calls are expanded one by one as
they are in the module that was read.  If all can be expanded, a call that does not stand inside
another one is replaced exactly if it asks for validators, and by the assignment of what it asks
for; nothing else in the module changes, and the components are reported in the order of the calls.
In readable modules a run stops only at an integer that cannot be written, in the modules or as the
limit. -/
theorem transformComponents_independent (imports : List Node) {x : Json} {number : Nat}
    {root : Node} (distinct : x.Distinct) (accepted : readDocument number x = .ok root)
    (tidy : ∀ n ∈ root.walk, n.Tidy) (parts : ∀ n ∈ root.walk, n.PlainParts)
    (apart : root.CallsApart) (options : Options)
    (other : options.validatorProperty ≠ options.defaultsProperty) :
    let workspace := Workspace.ofModule imports root options
    let sites := root.findCalls componentHelper
    let run := transformComponents workspace
    run.2.outcome =
        (sites.mapM fun site => (expandComponent workspace site.call).outcome).map
          (List.filterMap (Option.map Expansion.report)) ∧
      (∀ names, run.2.outcome = .ok names →
        run.1.root = root.substitute (componentAssignment? workspace) ∧
          names = sites.filterMap (fun site => reportedComponent? workspace site.call) ∧
          ∀ site ∈ sites, ∀ new, componentAssignment? workspace site.call = some new ↔
            ∃ component fields, AsksFor workspace.context site.call component fields ∧
              new = fieldChecks options root component fields) ∧
      (Readable (imports ++ [root]) →
        ReturnsIf (AllWritable (imports ++ [root]) ∧ options.maxDepth.Writable)
          run.2.outcome) := by
  have sound := sound_of_readNode distinct accepted
  have steady := steady_ofModule imports sound tidy parts options
  obtain ⟨outcomeEq, substituted⟩ := run_transformComponents steady apart other
  refine ⟨outcomeEq, fun names returned => ⟨substituted names returned, ?_, ?_⟩, fun readable => ?_⟩
  · exact reports_transformComponents steady apart other returned
  · intro site mem new
    obtain ⟨found, expanded⟩ := exists_expanded steady apart other returned mem
    exact componentAssignment?_eq_some_iff (sound.of_at? (at?_place_of_mem sound mem))
      (calls_of_mem sound mem) expanded
  · rw [outcomeEq]
    refine (ReturnsIf.mapM fun site mem => ?_).map _
    have rootMem : root ∈ imports ++ [root] :=
      List.mem_append_right _ (List.mem_singleton_self root)
    exact returns_expandComponent readable (registry_ofModule_eq_registryOf sound options) rootMem
      ⟨root, rootMem, mem_walk_of_at? (at?_place_of_mem sound mem)⟩
      (kind_of_calls (calls_of_mem sound mem))

/-! ## Defaults in the module -/

/-- A component call whose type argument is an object type with one field.  It may hold nodes in
unknown fields. -/
def titledComponentCall (name : String) (notes : List (String × Node)) : Node :=
  let call := genericCall componentHelper (typeLiteral [titleMember]) [identifier name]
  { call with fields := call.fields ++ notes.map fun note => (.unknown note.1, .node note.2) }

/-- The call as it is written. -/
def titledComponentJson (name : String) (notes : List (String × Json)) : Json :=
  nodeJson "CallExpression" ([("callee", identifierJson componentHelper),
    ("arguments", .array [identifierJson name]),
    ("typeParameters", typeArgumentListJson [titledTypeJson])] ++ notes)

/-- An assignment that gives the field of a component a default. -/
def defaultAssignment (name : String) : Node :=
  assign (member (identifier name) "defaultProps") (objectOf [property "text" nullLiteral])

/-- The assignment as it is written. -/
def defaultAssignmentJson (name : String) : Json :=
  assignJson (memberJson (identifierJson name) "defaultProps")
    (objectOfJson [propertyOfJson (identifierJson "text") nullLiteralJson])

/-- A module with component calls for two components, the first of which is given a default after
its call. -/
def defaultedModule : Node :=
  program [statement (titledComponentCall "A" []), statement (defaultAssignment "A"),
    statement (titledComponentCall "B" [])]

/-- The module as it is written. -/
def defaultedJson : Json :=
  programJson [statementJson (titledComponentJson "A" []),
    statementJson (defaultAssignmentJson "A"), statementJson (titledComponentJson "B" [])]

private theorem distinct_defaultedJson : defaultedJson.Distinct := by
  simp [defaultedJson, titledComponentJson, titledTypeJson, defaultAssignmentJson]

@[simp]
theorem readDocument_defaultedJson : readDocument 0 defaultedJson = .ok defaultedModule := by
  rfl

/-- The workspace of the module. -/
def defaultedWorkspace : Workspace :=
  .ofModule [] defaultedModule {}

@[simp]
theorem assignedKeys_defaultAssignment (component name : String) :
    assignedKeys "defaultProps" component (defaultAssignment name) =
      if name = component then ["text"] else [] := by
  have assigned : assignedTo? "defaultProps" (defaultAssignment name) =
      some (identifier name, objectOf [property "text" nullLiteral]) := by
    rfl
  rw [assignedKeys, assignedObject?, assigned]
  dsimp only
  rw [source_identifier]
  by_cases same : name = component
  · rw [if_pos same, if_pos ⟨same, rfl⟩]
    rfl
  · rw [if_neg same, if_neg fun both => same both.1]
    rfl

/-- The defaults where nothing but the field of one component is given one. -/
theorem outcome_assignedDefaults_of_single {root : Node} (sound : root.Sound) {name : String}
    (single : (root.tree.filter fun n => n.kind == .assignmentExpression) =
      [defaultAssignment name]) (component : String) :
    (assignedDefaults "defaultProps" root component).outcome =
      .ok (sortedNames (if name = component then ["text"] else [])) := by
  rw [outcome_assignedDefaults_of_assignments sound single, List.flatMap_singleton,
    assignedKeys_defaultAssignment]
  intro n mem pair assigned
  obtain rfl := List.mem_singleton.mp mem
  obtain rfl : (identifier name, objectOf [property "text" nullLiteral]) = pair :=
    Option.some_inj.mp assigned
  exact sourceFault?_identifier name

theorem outcome_argumentShape_titledComponent {context : Context}
    (shallow : context.tooDeep = false) (name : String) (notes : List (String × Node)) :
    (argumentShape context (titledComponentCall name notes)).outcome =
      .ok (some (.object [titledField])) :=
  outcome_argumentShape_titled shallow componentHelper [identifier name]

/-- The expansion of the call, given the names of the props with defaults. -/
def titledExpansion (options : Options) (name : String) (defaults : List String) :
    Expansion String where
  node := validatorAssignment options (identifier name) (Entry.ofProps [titledField] defaults)
  reused := some (componentPlace, assignedPlace)
  notice := some (.componentAssigned name options.validatorProperty)
  report := name

theorem outcome_expandComponent_titled {workspace : Workspace} {name : String}
    {notes : List (String × Node)} (sound : (titledComponentCall name notes).Sound)
    (shallow : workspace.context.tooDeep = false) {defaults : List String}
    (collected : (assignedDefaults workspace.options.defaultsProperty workspace.root
      name).outcome = .ok defaults) :
    (expandComponent workspace (titledComponentCall name notes)).outcome =
      .ok (some (titledExpansion workspace.options name defaults)) := by
  have usable := (Entry.anyUsable_ofProps [titledField] defaults).mpr ⟨titledField, by simp, rfl⟩
  refine (outcome_expandComponent_eq_some_iff sound rfl).mpr ⟨identifier name, name, [titledField],
    defaults, rfl, ?_, outcome_argumentShape_titledComponent shallow name notes, collected,
    if_pos usable⟩
  exact rendered_eq_ok_iff.mpr ⟨sourceFault?_identifier name, source_identifier name 0⟩

theorem asksFor_titledComponent {context : Context} (shallow : context.tooDeep = false)
    (name : String) (notes : List (String × Node)) :
    AsksFor context (titledComponentCall name notes) (identifier name) [titledField] :=
  asksFor_iff.mpr ⟨rfl, outcome_argumentShape_titledComponent shallow name notes, titledField,
    by simp, rfl⟩

private theorem assignments_defaultedModule :
    (defaultedModule.tree.filter fun n => n.kind == .assignmentExpression) =
      [defaultAssignment "A"] := by
  rfl

/-- The site of a call that is a statement of a module. -/
def statementSite (index : Nat) (call : Node) : CallSite :=
  ⟨[⟨.declared "body", some index⟩], statement call, ⟨.declared "expression", none⟩, call⟩

@[simp]
theorem findCalls_defaultedModule :
    defaultedModule.findCalls componentHelper =
      [statementSite 0 (titledComponentCall "A" []),
        statementSite 2 (titledComponentCall "B" [])] := by
  rfl

private theorem callsApart_defaultedModule : defaultedModule.CallsApart := by
  decide +kernel

/-- The assignment of the validator of the field to a component. -/
def titledCheck (name : String) (required : Bool) : Node :=
  let check := member (identifier "PropTypes") "string"
  assign (member (identifier name) "propTypes")
    (objectOf [property "text" (if required then member check "isRequired" else check)])

/-- The field is required if it has no default. -/
@[simp]
theorem validatorAssignment_titled (name : String) (defaults : List String) :
    validatorAssignment {} (identifier name) (Entry.ofProps [titledField] defaults) =
      titledCheck name (!defaults.contains "text") := by
  rw [Entry.ofProps, List.map_singleton, titledField]
  cases defaults.contains "text" <;> rfl

/-- The field is required of every component but the one with the default. -/
theorem fieldChecks_of_single {root : Node} (sound : root.Sound) {name : String}
    (single : (root.tree.filter fun n => n.kind == .assignmentExpression) =
      [defaultAssignment name]) (component : String) :
    fieldChecks {} root (identifier component) [titledField] =
      titledCheck component (name ≠ component) := by
  have collected := outcome_assignedDefaults_of_single sound single component
  rw [← source_identifier component 0] at collected
  have checks := @validatorAssignment_eq root (identifier component) {} _ collected [titledField]
  rw [← checks, validatorAssignment_titled, source_identifier]
  by_cases same : name = component
  · rw [if_pos same, decide_eq_false (not_not_intro same)]
    simp [sortedNames]
  · rw [if_neg same, decide_eq_true same]
    simp [sortedNames]

/-- Both components receive validators, and the default that is assigned after the first call
counts for it. -/
theorem transformComponents_independent_defaultedModule :
    defaultedJson.Distinct ∧ readDocument 0 defaultedJson = .ok defaultedModule ∧
      (∀ n ∈ defaultedModule.walk, n.Tidy) ∧ (∀ n ∈ defaultedModule.walk, n.PlainParts) ∧
      defaultedModule.CallsApart ∧
      ({} : Options).validatorProperty ≠ ({} : Options).defaultsProperty ∧
      let run := transformComponents defaultedWorkspace
      run.2.outcome = .ok ["A", "B"] ∧
        run.1.root = program [statement (titledCheck "A" false), statement (defaultAssignment "A"),
          statement (titledCheck "B" true)] := by
  have tidy : ∀ n ∈ defaultedModule.walk, n.Tidy := tidy_of_allDeclared (by rfl)
  have parts : ∀ n ∈ defaultedModule.walk, n.PlainParts := plainParts_of_allPlainParts (by rfl)
  have other : ({} : Options).validatorProperty ≠ ({} : Options).defaultsProperty := by decide
  have sound := sound_of_readNode distinct_defaultedJson readDocument_defaultedJson
  obtain ⟨outcomeEq, rest, -⟩ := transformComponents_independent [] distinct_defaultedJson
    readDocument_defaultedJson tidy parts callsApart_defaultedModule {} other
  have expanded : ∀ index name,
      statementSite index (titledComponentCall name []) ∈
          defaultedModule.findCalls componentHelper →
        ∃ defaults, (expandComponent defaultedWorkspace (titledComponentCall name [])).outcome =
          .ok (some (titledExpansion {} name defaults)) := by
    intro index name mem
    have callSound := sound.of_at? (at?_place_of_mem sound mem)
    exact ⟨_, outcome_expandComponent_titled callSound (by rfl)
      (outcome_assignedDefaults_of_single sound assignments_defaultedModule name)⟩
  have replaced : ∀ index name,
      statementSite index (titledComponentCall name []) ∈
          defaultedModule.findCalls componentHelper →
        ∀ names, (transformComponents defaultedWorkspace).2.outcome = .ok names →
          componentAssignment? defaultedWorkspace (titledComponentCall name []) =
            some (titledCheck name ("A" ≠ name)) := by
    intro index name mem names returned
    rw [← fieldChecks_of_single sound assignments_defaultedModule]
    exact ((rest names returned).2.2 _ mem _).mpr ⟨identifier name, [titledField],
      asksFor_titledComponent (by rfl) name [], rfl⟩
  rw [findCalls_defaultedModule] at expanded replaced
  have returned : (transformComponents defaultedWorkspace).2.outcome = .ok ["A", "B"] := by
    obtain ⟨others, first⟩ := expanded 0 "A" (by simp)
    obtain ⟨defaults, second⟩ := expanded 2 "B" (by simp)
    refine outcomeEq.trans ?_
    change ((defaultedModule.findCalls componentHelper).mapM fun site =>
      (expandComponent defaultedWorkspace site.call).outcome).map _ = _
    rw [findCalls_defaultedModule, List.mapM_cons, List.mapM_cons, statementSite, statementSite,
      first, second]
    rfl
  refine ⟨distinct_defaultedJson, readDocument_defaultedJson, tidy, parts,
    callsApart_defaultedModule, other, returned, (rest _ returned).1.trans ?_⟩
  have first := replaced 0 "A" (by simp) _ returned
  have second := replaced 2 "B" (by simp) _ returned
  have kept : (statement (defaultAssignment "A")).substitute
      (componentAssignment? defaultedWorkspace) = statement (defaultAssignment "A") := by
    rfl
  have idle : ∀ expression, componentAssignment? defaultedWorkspace (statement expression) = none :=
    fun _ => rfl
  change defaultedModule.substitute (componentAssignment? defaultedWorkspace) = _
  rw [defaultedModule, substitute_program]
  simp only [List.map_cons, List.map_nil, idle, Option.getD_none, kept]
  rw [substitute_statement, substitute_statement, first, second]
  rfl

/-! ## A default that is lost with a call -/

/-- Component calls stand apart as far as arguments and type arguments go: there is neither an
assignment nor a call of a helper in them, and none of these calls on the left of an assignment. -/
structure Ast.Node.ArgumentsApart (root : Node) : Prop where
  parts : ∀ c ∈ root.walk, c.calls componentHelper = true →
    ∀ part ∈ c.children "arguments" ++ c.typeArguments.filterMap Value.node?, ∀ m ∈ part.walk,
      m.kind ≠ .assignmentExpression ∧
        ∀ helper ∈ [keysHelper, schemaHelper, componentHelper], m.calls helper = false
  targets : ∀ m ∈ root.walk, m.kind = .assignmentExpression → ∀ left ∈ m.child? "left",
    ∀ c ∈ left.walk, ∀ helper ∈ [keysHelper, schemaHelper, componentHelper], c.calls helper = false

instance (root : Node) : Decidable root.ArgumentsApart :=
  decidable_of_iff (_ ∧ _) ⟨fun ⟨parts, targets⟩ => ⟨parts, targets⟩,
    fun ⟨parts, targets⟩ => ⟨parts, targets⟩⟩

/-- A component call that holds the assignment which gives the component a default. -/
def notedCall : Node :=
  titledComponentCall "A" [("note", defaultAssignment "A")]

/-- A module with the call, and with another one for the same component. -/
def notedModule : Node :=
  program [statement notedCall, statement (titledComponentCall "A" [])]

/-- The module as it is written. -/
def notedJson : Json :=
  programJson [statementJson (titledComponentJson "A" [("note", defaultAssignmentJson "A")]),
    statementJson (titledComponentJson "A" [])]

private theorem distinct_notedJson : notedJson.Distinct := by
  simp [notedJson, titledComponentJson, titledTypeJson, defaultAssignmentJson]

@[simp]
theorem readDocument_notedJson : readDocument 0 notedJson = .ok notedModule := by
  rfl

/-- The workspace of the module. -/
def notedWorkspace : Workspace :=
  .ofModule [] notedModule {}

theorem assignments_notedModule :
    (notedModule.tree.filter fun n => n.kind == .assignmentExpression) =
      [defaultAssignment "A"] := by
  rfl

@[simp]
theorem findCalls_notedModule :
    notedModule.findCalls componentHelper =
      [statementSite 0 notedCall, statementSite 1 (titledComponentCall "A" [])] := by
  rfl

/-- The unknown field has no label of a declared one. -/
theorem tidy_notedModule : ∀ n ∈ notedModule.walk, n.Tidy := by
  have checked : (notedModule.tree.all fun m => m.fields.all fun field =>
      decide (m.kind.nameOf (m.kind.labelOf field.1) = field.1)) = true := by
    rfl
  intro n mem
  rw [walk_eq_tree] at mem
  refine tidy_of_nameOf_labelOf fun name nameMem => ?_
  obtain ⟨field, fieldMem, rfl⟩ := List.mem_map.mp nameMem
  exact of_decide_eq_true
    (List.all_eq_true.mp (List.all_eq_true.mp checked n mem) field fieldMem)

/-- The replacement of the first call. -/
def notedMove : Replacement :=
  (statementSite 0 notedCall).move (some (componentPlace, assignedPlace))

/-- The workspace when the first call has been replaced. -/
def notelessWorkspace : Workspace :=
  notedWorkspace.replace notedMove (titledCheck "A" false)

/-- The default goes with the first call. -/
theorem assignments_noteless :
    (notelessWorkspace.root.tree.filter fun n => n.kind == .assignmentExpression) =
      [titledCheck "A" false] := by
  rfl

private theorem steady_noteless (steady : notedWorkspace.Steady) : notelessWorkspace.Steady := by
  have node : titledCheck "A" false =
      validatorAssignment {} (identifier "A") (Entry.ofProps [titledField] ["text"]) :=
    (validatorAssignment_titled "A" ["text"]).symm
  have replaceable : Replaceable notedMove notedCall (titledCheck "A" false) :=
    { isCall := rfl
      plain := node ▸ plain_validatorAssignment _ _ (fresh_identifier "A").1
      settled := node ▸ settled_validatorAssignment _ _ (inertTree_identifier "A").settled
      reuses := by
        rintro _ _ ⟨⟩
        exact ⟨identifier "A", rfl, rfl⟩ }
  exact (steady.replace (by rfl) replaceable).1

private theorem outcome_assignedDefaults_noteless (steady : notedWorkspace.Steady) :
    (assignedDefaults "defaultProps" notelessWorkspace.root "A").outcome = .ok [] := by
  have quiet : assignedTo? "defaultProps" (titledCheck "A" false) = none := by
    rfl
  rw [outcome_assignedDefaults_of_assignments (steady_noteless steady).sound assignments_noteless,
    List.flatMap_singleton, assignedKeys, assignedObject?, quiet]
  · simp [sortedNames]
  · intro n mem pair assigned
    obtain rfl := List.mem_singleton.mp mem
    rw [quiet] at assigned
    cases assigned

/-- The field is required after the second call, since the default is gone by then. -/
theorem transformComponents_noted (steady : notedWorkspace.Steady) :
    (∃ names, (transformComponents notedWorkspace).2.outcome = .ok names) ∧
      (transformComponents notedWorkspace).1.root =
        program [statement (titledCheck "A" false), statement (titledCheck "A" true)] := by
  have callSound : ∀ site ∈ notedModule.findCalls componentHelper, site.call.Sound :=
    fun site mem => steady.sound.of_at? (at?_place_of_mem steady.sound mem)
  rw [findCalls_notedModule, List.forall_mem_cons, List.forall_mem_singleton] at callSound
  have first : (expandComponent notedWorkspace notedCall).outcome =
      .ok (some (titledExpansion {} "A" (sortedNames ["text"]))) :=
    outcome_expandComponent_titled callSound.1 (by rfl)
      (outcome_assignedDefaults_of_single steady.sound assignments_notedModule "A")
  have second : (expandComponent notelessWorkspace (titledComponentCall "A" [])).outcome =
      .ok (some (titledExpansion {} "A" [])) :=
    outcome_expandComponent_titled callSound.2 (by rfl) (outcome_assignedDefaults_noteless steady)
  have nodeEq : (titledExpansion {} "A" (sortedNames ["text"])).node = titledCheck "A" false :=
    (validatorAssignment_titled "A" _).trans (by simp [sortedNames])
  have steps := @expandSites_of_some _ (statementSite 0 notedCall) _ _ []
    [statementSite 1 (titledComponentCall "A" [])] _ first (by rfl)
  rw [nodeEq] at steps
  have last := @expandSites_of_some _ (statementSite 1 (titledComponentCall "A" [])) _ _
    [notedMove] [] _ second (by rfl)
  have run : transformComponents notedWorkspace =
      let run := expandSites expandComponent notedWorkspace []
        [statementSite 0 notedCall, statementSite 1 (titledComponentCall "A" [])]
      (run.workspace, run.reports) := by
    rw [← findCalls_notedModule]
    rfl
  rw [run]
  dsimp only
  rw [steps.1, steps.2]
  change (∃ names, ((expandSites expandComponent notelessWorkspace [notedMove]
      [statementSite 1 (titledComponentCall "A" [])]).reports.outcome.map _) = _) ∧
    (expandSites expandComponent notelessWorkspace [notedMove]
      [statementSite 1 (titledComponentCall "A" [])]).workspace.root = _
  rw [last.1, last.2]
  exact ⟨⟨_, rfl⟩, by rfl⟩

/-- The calls are not independent if only their arguments and type arguments stand apart: a default
that is assigned in another field of a call is lost with the call, and counts for earlier calls
only. -/
theorem transformComponents_differs_of_lost_default :
    ¬ ∀ (imports : List Node) (x : Json) (number : Nat) (root : Node),
      x.Distinct → readDocument number x = .ok root → (∀ n ∈ root.walk, n.Tidy) →
      (∀ n ∈ root.walk, n.PlainParts) → root.ArgumentsApart →
      ∀ options : Options, options.validatorProperty ≠ options.defaultsProperty →
        let workspace := Workspace.ofModule imports root options
        let run := transformComponents workspace
        ∀ names, run.2.outcome = .ok names → ∀ site ∈ root.findCalls componentHelper,
          ∀ component fields, AsksFor workspace.context site.call component fields →
            run.1.root.at? site.place = some (fieldChecks options root component fields) := by
  intro independent
  have sound := sound_of_readNode distinct_notedJson readDocument_notedJson
  have parts : ∀ n ∈ notedModule.walk, n.PlainParts := plainParts_of_allPlainParts (by rfl)
  obtain ⟨⟨names, returned⟩, rootEq⟩ :=
    transformComponents_noted (steady_ofModule [] sound tidy_notedModule parts {})
  have claimed := independent [] notedJson 0 notedModule distinct_notedJson readDocument_notedJson
    tidy_notedModule parts (by decide +kernel) {} (by decide) names returned
    (statementSite 1 (titledComponentCall "A" [])) (by rw [findCalls_notedModule]; simp)
    (identifier "A") [titledField] (asksFor_titledComponent (by rfl) "A" [])
  rw [fieldChecks_of_single sound assignments_notedModule] at claimed
  change (transformComponents notedWorkspace).1.root.at? _ = _ at claimed
  rw [rootEq] at claimed
  have same : titledCheck "A" true = titledCheck "A" false := Option.some_inj.mp claimed
  exact absurd (congrArg (fun n => n.tree.length) same) (by decide)

end PropValidators
