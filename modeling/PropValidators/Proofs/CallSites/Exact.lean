import PropValidators.Proofs.CallSites.Helpers
import PropValidators.Proofs.Patching.Faults

/-!
# Replacing calls is exact

The keys calls, or the schema calls, of a module are counted and replaced where their type argument
resolves to an object.  A call inside a replaced one counts, too, but leaves no trace, and nothing
else in the module changes.  The builds differ only in what is written.  A second run finds nothing
to do.  In modules that can be read a run stops only where a resolution does.
-/

namespace PropValidators

open Ast Node

/-! ## Runs -/

/-- Counting what was written is counting what was found. -/
theorem map_length_mapM {α β : Type} (found? : CallSite → Except Fault (Option α))
    (write : CallSite → α → Expansion β) (sites : List CallSite) :
    ((sites.mapM fun site => (found? site).map (Option.map (write site))).map
        (List.filterMap (Option.map Expansion.report))).map List.length =
      (sites.mapM found?).map (List.countP Option.isSome) := by
  induction sites with
  | nil => rfl
  | cons site sites ih =>
      rw [List.mapM_cons, List.mapM_cons]
      generalize (sites.mapM fun site => (found? site).map (Option.map (write site))) = writes
        at ih ⊢
      generalize sites.mapM found? = founds at ih ⊢
      cases found? site with
      | error fault => rfl
      | ok found =>
          cases writes with
          | error fault =>
              cases founds with
              | error other => cases ih; rfl
              | ok others => cases ih
          | ok expansions =>
              cases founds with
              | error other => cases ih
              | ok others =>
                  have same := Except.ok.inj ih
                  refine congrArg Except.ok ?_
                  cases found with
                  | none => exact same
                  | some fields =>
                      rw [List.countP_cons_of_pos rfl, ← same]
                      rfl

namespace TypeHelper

variable {helper : TypeHelper} {production : Bool} {workspace : Workspace}

/-- A pass goes through the calls that are found in the module, as far as they can be read. -/
theorem run_transform (steady : workspace.Steady) (helper : TypeHelper) (production : Bool) :
    let sites := workspace.root.findCalls helper.name
    let run := expandSites (helper.expand production) workspace [] sites
    run.reports.outcome =
        (sites.mapM fun site => helper.read production workspace site.call).map
          (List.filterMap (Option.map Expansion.report)) ∧
      ∃ visited rest moves, visited ++ rest = sites ∧
        (∀ reports, run.reports.outcome = .ok reports → rest = []) ∧
        Replaced workspace helper.name (helper.replacement? production workspace) visited
          run.workspace moves :=
  expandSites_run steady (reads_replacement? helper production workspace)
    (follows_expand steady helper production) (List.nil_append _) (replaced_nil steady)

/-- A pass counts the calls whose type argument resolves to an object. -/
theorem outcome_transform_of_steady (steady : workspace.Steady) :
    (helper.transform production workspace).2.outcome =
      ((workspace.root.findCalls helper.name).mapM fun site =>
        helper.fields? workspace site.call).map (List.countP Option.isSome) := by
  rw [outcome_transform, (run_transform steady helper production).1]
  exact map_length_mapM _ _ _

/-- A pass returns if the fields of all calls are told. -/
theorem exists_transform (steady : workspace.Steady)
    (told : ∀ c ∈ workspace.root.tree.filter fun n => n.calls helper.name,
      ∃ fields, helper.fields? workspace c = .ok fields) :
    ∃ count, (helper.transform production workspace).2.outcome = .ok count := by
  have returns : ReturnsIf True (helper.transform production workspace).2.outcome := by
    rw [outcome_transform_of_steady steady]
    exact (ReturnsIf.mapM fun site mem =>
      .inl (told site.call (call_mem_filter_tree steady.sound mem))).map _
  exact returns.exists_ok trivial

/-- A pass replaces calls as far as it comes. -/
theorem exists_replaced_visited (steady : workspace.Steady) :
    ∃ visited moves, Replaced workspace helper.name (helper.replacement? production workspace)
      visited (helper.transform production workspace).1 moves := by
  obtain ⟨-, visited, rest, moves, -, -, replaced⟩ := run_transform steady helper production
  exact ⟨visited, moves, workspace_transform helper production workspace ▸ replaced⟩

/-- A pass that returns has replaced the calls. -/
theorem exists_replaced (steady : workspace.Steady) {count : Nat}
    (returned : (helper.transform production workspace).2.outcome = .ok count) :
    ∃ moves, Replaced workspace helper.name (helper.replacement? production workspace)
      (workspace.root.findCalls helper.name) (helper.transform production workspace).1 moves := by
  rw [outcome_transform] at returned
  obtain ⟨reports, reported, -⟩ := map_eq_ok.mp returned
  obtain ⟨-, visited, rest, moves, visitedEq, complete, replaced⟩ :=
    run_transform steady helper production
  rw [complete reports reported, List.append_nil] at visitedEq
  rw [visitedEq] at replaced
  rw [workspace_transform]
  exact ⟨moves, replaced⟩

/-- The count is the number of calls that have a replacement. -/
theorem count_transform (steady : workspace.Steady) {count : Nat}
    (returned : (helper.transform production workspace).2.outcome = .ok count) :
    count = (workspace.root.findCalls helper.name).countP fun site =>
      (helper.replacement? production workspace site.call).isSome := by
  rw [outcome_transform_of_steady steady] at returned
  obtain ⟨founds, mapped, rfl⟩ := map_eq_ok.mp returned
  have calls : ∀ site ∈ workspace.root.findCalls helper.name,
      site.call.calls helper.name = true := fun site => calls_of_mem steady.sound
  have each := mapM_eq_ok.mp mapped
  clear returned mapped
  generalize workspace.root.findCalls helper.name = sites at each calls
  induction each with
  | nil => rfl
  | @cons site found sites founds head _ ih =>
      rw [List.forall_mem_cons] at calls
      have isSome : (helper.replacement? production workspace site.call).isSome = found.isSome := by
        rw [replacement?, if_pos calls.1, head]
        cases found <;> rfl
      rw [List.countP_cons, List.countP_cons, isSome, ih calls.2]

theorem root_transform (steady : workspace.Steady) {count : Nat}
    (returned : (helper.transform production workspace).2.outcome = .ok count) :
    (helper.transform production workspace).1.root =
      workspace.root.substitute (helper.replacement? production workspace) := by
  obtain ⟨moves, replaced⟩ := exists_replaced steady returned
  exact replaced.root_eq_substitute steady (reads_replacement? helper production workspace)

/-- Types are resolved as before. -/
theorem context_transform (steady : workspace.Steady) {count : Nat}
    (returned : (helper.transform production workspace).2.outcome = .ok count) :
    (helper.transform production workspace).1.context = workspace.context := by
  obtain ⟨moves, replaced⟩ := exists_replaced steady returned
  exact replaced.context

/-- The workspace stays steady. -/
theorem steady_transform (steady : workspace.Steady) {count : Nat}
    (returned : (helper.transform production workspace).2.outcome = .ok count) :
    (helper.transform production workspace).1.Steady := by
  obtain ⟨moves, replaced⟩ := exists_replaced steady returned
  exact replaced.steady

/-- A call, be it of the same helper or of the other one, that is found after a pass was found
before, without a replacement.  Its fields are the same. -/
theorem exists_original_of_mem (steady : workspace.Steady) {count : Nat}
    (returned : (helper.transform production workspace).2.outcome = .ok count)
    {other : TypeHelper} {site : CallSite}
    (mem : site ∈ (helper.transform production workspace).1.root.findCalls other.name) :
    ∃ original ∈ workspace.root.findCalls other.name,
      helper.replacement? production workspace original.call = none ∧
        other.fields? (helper.transform production workspace).1 site.call =
          other.fields? workspace original.call := by
  have reads := reads_replacement? helper production workspace
  have afterSound := (steady_transform steady returned).sound
  have found := at?_place_of_mem afterSound mem
  have calls := calls_of_mem afterSound mem
  rw [fields?_congr (context_transform steady returned)]
  rw [root_transform steady returned] at found
  obtain ⟨c, at?, callEq, unreplaced, originalCalls⟩ :=
    exists_call_of_substitute steady.sound reads nameless_replacement? found calls
  have sound := steady.sound.of_at? at?
  obtain ⟨original, originalMem, -, rfl⟩ := exists_site_of_at? steady.sound at? originalCalls
  refine ⟨original, originalMem, unreplaced, ?_⟩
  rw [callEq, substitute, rewrite_eq, fields?_mapSlots sound (kind_of_calls originalCalls)
    fun slot c inSlot => expanded_rewriteIn (reads.expands sound) inSlot]

/-- After a pass no call has anything to be replaced by. -/
theorem fields?_of_mem_transformed (steady : workspace.Steady) {count : Nat}
    (returned : (helper.transform production workspace).2.outcome = .ok count) {site : CallSite}
    (mem : site ∈ (helper.transform production workspace).1.root.findCalls helper.name) :
    helper.fields? (helper.transform production workspace).1 site.call = .ok none := by
  obtain ⟨original, originalMem, unreplaced, fieldsEq⟩ :=
    exists_original_of_mem steady returned mem
  have calls := calls_of_mem steady.sound originalMem
  rw [outcome_transform_of_steady steady] at returned
  obtain ⟨founds, mapped, -⟩ := map_eq_ok.mp returned
  obtain ⟨fields, originalEq⟩ := exists_ok_of_mapM mapped originalMem
  rw [fieldsEq, originalEq]
  cases fields with
  | none => rfl
  | some fields =>
      rw [replacement?, if_pos calls, originalEq] at unreplaced
      cases unreplaced

/-- A second pass, for whatever build, replaces nothing. -/
theorem transform_transform (steady : workspace.Steady) {count : Nat}
    (returned : (helper.transform production workspace).2.outcome = .ok count) (again : Bool) :
    (helper.transform again (helper.transform production workspace).1).1 =
        (helper.transform production workspace).1 ∧
      (helper.transform again (helper.transform production workspace).1).2.outcome = .ok 0 := by
  have idle : ∀ site ∈ (helper.transform production workspace).1.root.findCalls helper.name,
      (helper.expand again (helper.transform production workspace).1 site.call).outcome =
        .ok none := by
    intro site mem
    have afterSound := (steady_transform steady returned).sound
    have sound := afterSound.of_at? (at?_place_of_mem afterSound mem)
    rw [outcome_expand sound (kind_of_calls (calls_of_mem afterSound mem)), read,
      fields?_of_mem_transformed steady returned mem]
    rfl
  obtain ⟨workspaceEq, outcomeEq⟩ := expandSites_of_forall_none [] idle
  rw [workspace_transform helper again, outcome_transform helper again, outcomeEq]
  exact ⟨workspaceEq, rfl⟩

end TypeHelper

/-! ## Runs that return -/

/-- A number has an integer part. -/
def Number.Finite : Number → Prop
  | .int _ => True
  | .float (.finite ..) => True
  | .float _ => False

private theorem exists_limitOf {number : Number} (finite : number.Finite) :
    ∃ limit, (limitOf number).outcome = .ok limit := by
  cases number with
  | int n => exact ⟨n, rfl⟩
  | float x =>
      cases x with
      | nan origin => exact finite.elim
      | infinite negative => exact finite.elim
      | finite negative significand exponent => exact ⟨_, rfl⟩

namespace TypeHelper

/-- The context in which the type argument of a call is resolved. -/
def contextFor : TypeHelper → Workspace → Node → Except Fault Context
  | keys, workspace, _ => .ok workspace.context
  | schema, workspace, call => (schemaContext workspace call).outcome

/-- The limits under which the type arguments of the calls are resolved can be written. -/
def LimitsWritable (helper : TypeHelper) (workspace : Workspace) : Prop :=
  ∀ site ∈ workspace.root.findCalls helper.name, ∀ context,
    helper.contextFor workspace site.call = .ok context → context.maxDepth.Writable

end TypeHelper

section Returns

variable {modules : List Node} {workspace : Workspace} {c : Node}

/-- The shape of the type argument of a call is told where a resolution returns. -/
theorem returns_argumentShape (readable : Readable modules) {context : Context}
    (declared : context.registry = registryOf modules) (unbound : context.bindings = [])
    (stands : StandsIn modules c) :
    ReturnsIf (AllWritable modules ∧ context.maxDepth.Writable)
      (argumentShape context c).outcome := by
  rw [argumentShape]
  split
  · exact .ok none
  · rename_i argument others argumentsEq
    have mem : argument ∈ c.typeArguments := argumentsEq ▸ List.mem_cons_self
    obtain ⟨m, rfl, -⟩ :=
      exists_node_of_mem_typeArguments (readable.sound_of_standsIn stands) mem
    have returns := Resolution.returns_resolveType readable declared
      (stands.below (below_of_mem_typeArguments mem))
    rw [map_eq_pure_bind]
    refine .bind (returns.imp fun all => ⟨all.1, ?_, all.2⟩) fun shape => .ok (some shape)
    rw [unbound]
    exact fun frame head => nomatch head

/-- A finite depth limit, or none, is taken over into the context of a schema call. -/
theorem exists_schemaContext (workspace : Workspace) (sound : c.Sound)
    (isCall : c.kind = .callExpression)
    (finite : ∀ number, limitNumber? c = some number → number.Finite) :
    ∃ context, (schemaContext workspace c).outcome = .ok context ∧
      context.registry = workspace.registry ∧ context.bindings = [] := by
  rw [schemaContext, callLimit?_of_sound sound isCall]
  cases limitEq : limitNumber? c with
  | none => exact ⟨workspace.context, rfl, rfl, rfl⟩
  | some number =>
      obtain ⟨limit, okEq⟩ := exists_limitOf (finite number limitEq)
      dsimp only
      rw [Traced.outcome_bind, map_eq_pure_bind, Traced.outcome_bind, okEq]
      change ∃ context, Traced.outcome (pure (if limit < 1 then _ else _)) = _ ∧ _
      split
      · exact ⟨_, rfl, rfl, rfl⟩
      · exact ⟨_, rfl, rfl, rfl⟩

/-- The fields of a call are told where a resolution returns. -/
theorem TypeHelper.returns_fields? (helper : TypeHelper) (readable : Readable modules)
    (declared : workspace.registry = registryOf modules) (stands : StandsIn modules c)
    (isCall : c.kind = .callExpression)
    (finite : helper = .schema → ∀ number, limitNumber? c = some number → number.Finite) :
    ReturnsIf
      (AllWritable modules ∧ ∀ context, helper.contextFor workspace c = .ok context →
        context.maxDepth.Writable)
      (helper.fields? workspace c) := by
  rw [fields?]
  cases helper with
  | keys =>
      have unbound : workspace.context.bindings = [] := rfl
      have returns := returns_argumentShape readable declared unbound stands
      exact (returns.imp fun all => ⟨all.1, all.2 _ rfl⟩).map _
  | schema =>
      have sound := readable.sound_of_standsIn stands
      rw [shape, schemaShape]
      split
      · exact .ok _
      · obtain ⟨context, contextEq, registryEq, unbound⟩ :=
          exists_schemaContext workspace sound isCall (finite rfl)
        rw [Traced.outcome_bind, contextEq]
        have returns := returns_argumentShape readable (registryEq.trans declared) unbound stands
        exact (returns.imp fun all => ⟨all.1, all.2 context contextEq⟩).map _

end Returns

/-- Replacing the keys calls, or the schema calls, of a module that was read without issues is
exact.  A pass reads the types of the calls in the order in which they are found.  If all can be
resolved, it reports how many are objects, and the calls with these types are replaced where they
stand, except that those inside others are lost with them.  Nothing else in the module changes, and
which calls are replaced does not depend on the build.  A second pass finds nothing to do.  In
readable modules a pass stops only at an integer that cannot be written, in the modules or as a
limit. -/
theorem TypeHelper.transform_exact (helper : TypeHelper) (imports : List Node) {x : Json}
    {number : Nat} {root : Node} (distinct : x.Distinct)
    (accepted : readDocument number x = .ok root) (tidy : ∀ n ∈ root.walk, n.Tidy)
    (parts : ∀ n ∈ root.walk, n.PlainParts) (options : Options) (production : Bool) :
    let workspace := Workspace.ofModule imports root options
    let sites := root.findCalls helper.name
    let run := helper.transform production workspace
    run.2.outcome =
        (sites.mapM fun site => helper.fields? workspace site.call).map
          (List.countP Option.isSome) ∧
      (∀ count, run.2.outcome = .ok count →
        count = sites.countP (fun site =>
            (helper.replacement? production workspace site.call).isSome) ∧
          run.1.root = root.substitute (helper.replacement? production workspace) ∧
          ∀ again, (helper.transform again run.1).1 = run.1 ∧
            (helper.transform again run.1).2.outcome = .ok 0) ∧
      (∀ other c, (helper.replacement? production workspace c).isSome =
        (helper.replacement? other workspace c).isSome) ∧
      (Readable (imports ++ [root]) →
        (∀ site ∈ root.findCalls schemaHelper, ∀ number, limitNumber? site.call = some number →
          number.Finite) →
        ReturnsIf (AllWritable (imports ++ [root]) ∧ helper.LimitsWritable workspace)
          run.2.outcome) := by
  have sound := sound_of_readNode distinct accepted
  have steady := steady_ofModule imports sound tidy parts options
  refine ⟨outcome_transform_of_steady steady, fun count returned => ?_, ?_,
    fun readable finite => ?_⟩
  · exact ⟨count_transform steady returned, root_transform steady returned,
      transform_transform steady returned⟩
  · exact fun other => isSome_replacement? helper production other _
  · rw [outcome_transform_of_steady steady]
    refine (ReturnsIf.mapM fun site mem => ?_).map _
    have stands : StandsIn (imports ++ [root]) site.call :=
      ⟨root, by simp, mem_walk_of_at? (at?_place_of_mem sound mem)⟩
    refine (helper.returns_fields? readable (registry_ofModule_eq_registryOf sound options) stands
      (kind_of_calls (calls_of_mem sound mem)) ?_).imp fun all => ⟨all.1, all.2 site mem⟩
    rintro rfl
    exact finite site mem

/-! ## Statements -/

@[simp]
theorem rewriteItems_map_node (replacement? : Node → Option Node) (field : FieldName)
    (nodes : List Node) (start : Nat) :
    rewriteItems (fun _ => replacement?) field start (nodes.map .node) =
      (nodes.map fun c => (replacement? c).getD (c.substitute replacement?)).map .node := by
  induction nodes generalizing start with
  | nil => rfl
  | cons c nodes ih =>
      rw [List.map_cons, rewriteItems, ih]
      rfl

/-- In a module each of its nodes is replaced, or what is below it. -/
@[simp]
theorem substitute_program (replacement? : Node → Option Node) (nodes : List Node) :
    (program nodes).substitute replacement? =
      program (nodes.map fun c => (replacement? c).getD (c.substitute replacement?)) := by
  change Node.mk _ [(_, Value.list (rewriteItems _ _ 0 (nodes.map .node)))] = _
  rw [rewriteItems_map_node]
  rfl

@[simp]
theorem substitute_statement (replacement? : Node → Option Node) (expression : Node) :
    (statement expression).substitute replacement? =
      statement ((replacement? expression).getD (expression.substitute replacement?)) :=
  rfl

/-! ## A call inside another one -/

/-- A keys call of an object type with one field. -/
def titledCall (arguments : List Node) : Node :=
  genericCall keysHelper (typeLiteral [titleMember]) arguments

/-- A module with a call that is an argument of another one. -/
def nestedModule : Node :=
  program [statement (titledCall [titledCall []])]

/-- The module as it is written. -/
def nestedJson : Json :=
  programJson [statementJson
    (genericCallJson keysHelper titledTypeJson [genericCallJson keysHelper titledTypeJson []])]

private theorem distinct_nestedJson : nestedJson.Distinct := by
  simp [nestedJson, titledTypeJson]

@[simp]
theorem readDocument_nestedJson : readDocument 0 nestedJson = .ok nestedModule := by
  rfl

/-- All fields of the nodes of a tree are declared. -/
def Ast.Node.allDeclared (n : Node) : Bool :=
  n.tree.all fun m => m.fields.all fun field =>
    match field.1 with
    | .declared _ => true
    | .unknown _ => false

theorem tidy_of_allDeclared {root : Node} (declared : root.allDeclared = true) :
    ∀ n ∈ root.walk, n.Tidy := by
  intro n mem key keyMem
  rw [root.walk_eq_tree] at mem
  obtain ⟨field, fieldMem, fieldEq⟩ := List.mem_map.mp keyMem
  have isDeclared := List.all_eq_true.mp (List.all_eq_true.mp declared n mem) field fieldMem
  rw [fieldEq] at isDeclared
  cases isDeclared

/-- No node of a tree has calls as heritage clauses or as members. -/
def Ast.Node.allPlainParts (n : Node) : Bool :=
  n.tree.all fun m =>
    (m.children "extends" ++ m.children "members").all fun c => c.kind != .callExpression

theorem plainParts_of_allPlainParts {root : Node} (plain : root.allPlainParts = true) :
    ∀ n ∈ root.walk, n.PlainParts := by
  intro n mem
  rw [root.walk_eq_tree] at mem
  have each := List.all_eq_true.mp (List.all_eq_true.mp plain n mem)
  constructor
  · exact fun _ c cMem => bne_iff_ne.mp (each c (List.mem_append_left _ cMem))
  · exact fun _ c cMem => bne_iff_ne.mp (each c (List.mem_append_right _ cMem))

/-- The workspace of the module. -/
def nestedWorkspace : Workspace :=
  .ofModule [] nestedModule {}

/-- The type argument of a call is an object with one field. -/
theorem outcome_argumentShape_titled {context : Context} (shallow : context.tooDeep = false)
    (callee : String) (arguments : List Node) :
    (argumentShape context (genericCall callee (typeLiteral [titleMember]) arguments)).outcome =
      .ok (some (.object [titledField])) := by
  rw [argumentShape_eq]
  change (some <$> resolveType _ (TypeExpr.ofNode (typeLiteral [titleMember]))).outcome = _
  rw [ofNode_titledProps, map_eq_pure_bind, Traced.outcome_bind,
    outcome_resolveType_titledProps shallow]
  rfl

@[simp]
theorem fields?_titledCall (arguments : List Node) :
    TypeHelper.keys.fields? nestedWorkspace (titledCall arguments) =
      .ok (some [⟨"text", .primitive .string, false, false⟩]) := by
  rw [TypeHelper.fields?, TypeHelper.shape, titledCall, outcome_argumentShape_titled (by rfl)]
  rfl

@[simp]
theorem replacement?_titledCall (arguments : List Node) :
    TypeHelper.keys.replacement? false nestedWorkspace (titledCall arguments) =
      some (array [stringLiteral "text"]) := by
  have calls : (titledCall arguments).calls TypeHelper.keys.name = true := by rfl
  rw [TypeHelper.replacement?, if_pos calls, fields?_titledCall]
  rfl

/-- The inner call is lost with the outer one. -/
theorem substitute_nestedModule :
    nestedModule.substitute (TypeHelper.keys.replacement? false nestedWorkspace) =
      program [statement (array [stringLiteral "text"])] := by
  have kept : TypeHelper.keys.replacement? false nestedWorkspace
      (statement (titledCall [titledCall []])) = none := by
    rw [TypeHelper.replacement?]
    rfl
  rw [nestedModule, substitute_program, List.map_singleton, kept, Option.getD_none,
    substitute_statement, replacement?_titledCall, Option.getD_some]

/-- Both calls are counted, and the outer one is replaced together with the inner one. -/
theorem transform_exact_nestedModule :
    nestedJson.Distinct ∧ readDocument 0 nestedJson = .ok nestedModule ∧
      (∀ n ∈ nestedModule.walk, n.Tidy) ∧ (∀ n ∈ nestedModule.walk, n.PlainParts) ∧
      let run := TypeHelper.keys.transform false nestedWorkspace
      run.2.outcome = .ok 2 ∧
        run.1.root = program [statement (array [stringLiteral "text"])] ∧
        (TypeHelper.keys.transform true run.1).1 = run.1 ∧
        (TypeHelper.keys.transform true run.1).2.outcome = .ok 0 := by
  have tidy : ∀ n ∈ nestedModule.walk, n.Tidy := tidy_of_allDeclared (by rfl)
  have parts : ∀ n ∈ nestedModule.walk, n.PlainParts := plainParts_of_allPlainParts (by rfl)
  obtain ⟨outcomeEq, rest, -, -⟩ := TypeHelper.transform_exact .keys [] distinct_nestedJson
    readDocument_nestedJson tidy parts {} false
  have sites : nestedModule.findCalls TypeHelper.keys.name =
      [⟨[⟨.declared "body", some 0⟩], statement (titledCall [titledCall []]),
          ⟨.declared "expression", none⟩, titledCall [titledCall []]⟩,
        ⟨[⟨.declared "body", some 0⟩, ⟨.declared "expression", none⟩],
          titledCall [titledCall []], ⟨.declared "arguments", some 0⟩, titledCall []⟩] := by
    rfl
  have counted : (TypeHelper.keys.transform false nestedWorkspace).2.outcome = .ok 2 := by
    refine outcomeEq.trans ?_
    change ((nestedModule.findCalls TypeHelper.keys.name).mapM fun site =>
      TypeHelper.keys.fields? nestedWorkspace site.call).map _ = _
    rw [sites, List.mapM_cons, List.mapM_cons, fields?_titledCall, fields?_titledCall]
    rfl
  obtain ⟨-, rootEq, again⟩ := rest 2 counted
  obtain ⟨unchanged, nothing⟩ := again true
  exact ⟨distinct_nestedJson, readDocument_nestedJson, tidy, parts, counted,
    rootEq.trans substitute_nestedModule, unchanged, nothing⟩

/-! ## A call that stops -/

/-- A keys call of an alias. -/
def selectingCall : Node :=
  genericCall keysHelper (reference "P" []) []

/-- A module with the enum, an alias for the selection by its members, and the call. -/
def callingModule (n : Int) : Node :=
  program [numberedEnum n, typeAlias "P" selection [],
    statement selectingCall]

/-- The call as it is written. -/
def selectingCallJson : Json :=
  genericCallJson keysHelper (referenceJson "P") []

/-- The module as it is written. -/
def callingJson (n : Int) : Json :=
  programJson (selectingDeclarationsJson n ++ [statementJson selectingCallJson])

@[simp]
theorem readDocument_callingJson (n : Int) :
    readDocument 0 (callingJson n) = .ok (callingModule n) := by
  rfl

private theorem distinct_callingJson (n : Int) : (callingJson n).Distinct := by
  simp [callingJson, selectingDeclarationsJson, selectingCallJson]

/-- The context of a module in which the same is declared as in the one with the class. -/
theorem context_ofModule_of_declarationNodes {n : Int} {root : Node} (sound : root.Sound)
    (same : declarationNodes root = declarationNodes (selectingModule n)) :
    (Workspace.ofModule [] root {}).context = selectingContext n := by
  have registryEq : (Workspace.ofModule [] root {}).registry = selectingRegistry n := by
    rw [registry_ofModule_eq_registryOf sound, ← registryOf_selectingModule, registryOf, registryOf,
      List.nil_append, List.flatMap_singleton, List.flatMap_singleton, same]
  rw [Workspace.context, registryEq]
  rfl

@[simp]
theorem declarationNodes_callingModule (n : Int) :
    declarationNodes (callingModule n) = declarationNodes (selectingModule n) := by
  rw [declarationNodes, declarationNodes, walk_eq_tree, walk_eq_tree]
  rfl

/-- The fields of the call cannot be told if the value after that of the first member has too many
digits. -/
theorem fields?_selectingCall {n : Int} (long : (Number.int (n + 1)).isUnwritable = true)
    {workspace : Workspace} (declared : workspace.context = selectingContext n) :
    TypeHelper.keys.fields? workspace selectingCall = .error .unwritableInteger := by
  have stops : (resolveType (selectingContext n) (.reference (some "P") [])).outcome =
      .error .unwritableInteger := by
    have unbound : (selectingContext n).bound? "P" = none := by rfl
    have contained : (selectingContext n).registry.contains "P" = true := by rfl
    rw [resolveType]
    simp only [unbound, contained, if_true, resolveAll, pure_bind]
    exact outcome_resolveName_of_long long
  rw [TypeHelper.fields?, TypeHelper.shape, declared, argumentShape_eq]
  change ((some <$> resolveType _ (TypeExpr.ofNode (reference "P" []))).outcome).map _ = _
  rw [ofNode_reference, map_eq_pure_bind, Traced.outcome_bind, stops]
  rfl

/-- A pass does not always return: the type of a call may be a selection that cannot be resolved. -/
theorem TypeHelper.transform_stops_of_long_enum :
    ¬ ∀ (helper : TypeHelper) (imports : List Node) (x : Json) (number : Nat) (root : Node),
      x.Distinct → readDocument number x = .ok root → (∀ n ∈ root.walk, n.Tidy) →
      (∀ n ∈ root.walk, n.PlainParts) →
      (∀ site ∈ root.findCalls schemaHelper, ∀ number, limitNumber? site.call = some number →
        number.Finite) →
      ∀ options production,
        ∃ count, (helper.transform production (.ofModule imports root options)).2.outcome =
          .ok count := by
  intro returns
  obtain ⟨n, next⟩ : ∃ n : Int, n + 1 = Number.firstUnwritable :=
    ⟨Number.firstUnwritable - 1, Int.sub_add_cancel _ _⟩
  have long : (Number.int (n + 1)).isUnwritable = true := by
    rw [next, Number.isUnwritable, Int.natAbs_natCast]
    exact decide_eq_true (Nat.le_refl _)
  have sound := sound_of_readNode (distinct_callingJson n) (readDocument_callingJson n)
  have tidy : ∀ m ∈ (callingModule n).walk, m.Tidy := tidy_of_allDeclared (by rfl)
  have parts : ∀ m ∈ (callingModule n).walk, m.PlainParts := plainParts_of_allPlainParts (by rfl)
  have noSchema : (callingModule n).findCalls schemaHelper = [] := by rfl
  obtain ⟨count, returned⟩ := returns .keys [] (callingJson n) 0 (callingModule n)
    (distinct_callingJson n) (readDocument_callingJson n) tidy parts
    (by simp [noSchema]) {} false
  have sites : (callingModule n).findCalls TypeHelper.keys.name =
      [⟨[⟨.declared "body", some 2⟩], statement selectingCall, ⟨.declared "expression", none⟩,
        selectingCall⟩] := by
    rfl
  have steady := steady_ofModule [] sound tidy parts {}
  have declared := context_ofModule_of_declarationNodes sound (declarationNodes_callingModule n)
  rw [outcome_transform_of_steady steady] at returned
  change (((callingModule n).findCalls TypeHelper.keys.name).mapM fun site =>
    TypeHelper.keys.fields? _ site.call).map _ = _ at returned
  rw [sites, List.mapM_cons, fields?_selectingCall long declared] at returned
  cases returned

end PropValidators
