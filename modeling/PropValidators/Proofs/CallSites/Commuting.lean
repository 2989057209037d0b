import PropValidators.Proofs.CallSites.Exact

/-!
# Keys and schema calls are replaced in either order

A call of one helper may stand anywhere in a call of the other one.  Whichever pass is run first,
what is left of the calls of the other helper says what they said, and nothing that is put in is a
call.  So both orders replace the calls that do not stand in others, and they replace them by the
same nodes.  The order makes a difference only where a pass stops: a call whose type cannot be
resolved stops a pass, unless it was lost in a call that the other pass replaced.
-/

namespace PropValidators

open Ast Node

namespace TypeHelper

/-- The passes of two helpers, one after the other, and how many calls each of them counts.  The
second one is run if the first one returns. -/
def inTurn (first second : TypeHelper) (production : Bool) (workspace : Workspace) :
    Workspace × Traced (Nat × Nat) :=
  let run := first.transform production workspace
  match run.2.outcome with
  | .error fault => (run.1, ⟨.error fault, run.2.trace⟩)
  | .ok _ =>
      let next := second.transform production run.1
      (next.1, do
        let count ← run.2
        let others ← next.2
        return (count, others))

/-- What a node is replaced by as a call of one of two helpers. -/
def eitherReplacement? (first second : TypeHelper) (production : Bool) (workspace : Workspace)
    (c : Node) : Option Node :=
  (first.replacement? production workspace c).or (second.replacement? production workspace c)

variable {first second : TypeHelper} {production : Bool} {workspace : Workspace}

/-! ## One pass after the other -/

theorem inTurn_of_error {fault : Fault}
    (stops : (first.transform production workspace).2.outcome = .error fault) :
    (first.inTurn second production workspace).1 = (first.transform production workspace).1 ∧
      (first.inTurn second production workspace).2.outcome = .error fault := by
  rw [inTurn]
  dsimp only
  rw [stops]
  exact ⟨rfl, rfl⟩

theorem inTurn_of_ok {count : Nat}
    (returned : (first.transform production workspace).2.outcome = .ok count) :
    let next := second.transform production (first.transform production workspace).1
    (first.inTurn second production workspace).1 = next.1 ∧
      (first.inTurn second production workspace).2.outcome =
        next.2.outcome.map fun others => (count, others) := by
  rw [inTurn]
  dsimp only
  rw [returned]
  refine ⟨rfl, ?_⟩
  rw [Traced.outcome_bind, returned]
  change Traced.outcome (_ >>= fun others => pure (count, others)) = _
  rw [Traced.outcome_bind]
  cases (second.transform production (first.transform production workspace).1).2.outcome <;> rfl

/-- Both passes have returned when the two of them have. -/
theorem exists_of_inTurn {counts : Nat × Nat}
    (returned : (first.inTurn second production workspace).2.outcome = .ok counts) :
    (first.transform production workspace).2.outcome = .ok counts.1 ∧
      (second.transform production (first.transform production workspace).1).2.outcome =
        .ok counts.2 := by
  cases firstEq : (first.transform production workspace).2.outcome with
  | error fault =>
      rw [(inTurn_of_error firstEq).2] at returned
      cases returned
  | ok count =>
      rw [(inTurn_of_ok firstEq).2] at returned
      obtain ⟨others, secondEq, rfl⟩ := map_eq_ok.mp returned
      exact ⟨rfl, secondEq⟩

/-- The second pass returns after the first one where the types of its calls can be told. -/
theorem returns_inTurn (steady : workspace.Steady) {writable : Prop}
    (each : ∀ helper ∈ [first, second], ∀ site ∈ workspace.root.findCalls helper.name,
      ReturnsIf writable (helper.fields? workspace site.call)) :
    ReturnsIf writable (first.inTurn second production workspace).2.outcome := by
  rw [List.forall_mem_cons, List.forall_mem_singleton] at each
  obtain ⟨firstEach, secondEach⟩ := each
  have firstReturns : ReturnsIf writable (first.transform production workspace).2.outcome := by
    rw [outcome_transform_of_steady steady]
    exact (ReturnsIf.mapM firstEach).map _
  rcases firstReturns with ⟨count, returned⟩ | ⟨stops, unwritable⟩
  · rw [(inTurn_of_ok returned).2, outcome_transform_of_steady (steady_transform steady returned)]
    refine ((ReturnsIf.mapM fun site mem => ?_).map _).map _
    obtain ⟨original, originalMem, -, fieldsEq⟩ := exists_original_of_mem steady returned mem
    rw [fieldsEq]
    exact secondEach original originalMem
  · rw [(inTurn_of_error stops).2]
    exact .inr ⟨rfl, unwritable⟩

/-! ## What is replaced -/

/-- After both passes the calls of both helpers are replaced, by what they are replaced by in the
module as it was. -/
theorem root_inTurn (steady : workspace.Steady) {counts : Nat × Nat}
    (returned : (first.inTurn second production workspace).2.outcome = .ok counts) :
    (first.inTurn second production workspace).1.root =
      workspace.root.substitute (first.eitherReplacement? second production workspace) := by
  obtain ⟨firstEq, secondEq⟩ := exists_of_inTurn returned
  have reads := reads_replacement? first production workspace
  rw [(inTurn_of_ok firstEq).1, root_transform (steady_transform steady firstEq) secondEq,
    replacement?_congr (context_transform steady firstEq), root_transform steady firstEq]
  refine substitute_substitute steady.sound ?putIn ?left
  case putIn =>
    intro place c new found replaced
    refine ⟨(reads.plain c new (steady.sound.of_at? found) replaced).sound, fun inner m at? => ?_⟩
    rw [replacement?, nameless_replacement? c new replaced m (mem_tree_of_at? at?)]
    rfl
  case left =>
    intro place c found _
    have sound := steady.sound.of_at? found
    rw [substitute, rewrite_eq]
    exact replacement?_mapSlots sound fun slot d inSlot =>
      expanded_rewriteIn (reads.expands sound) inSlot

private theorem context_inTurn (steady : workspace.Steady) {counts : Nat × Nat}
    (returned : (first.inTurn second production workspace).2.outcome = .ok counts) :
    (first.inTurn second production workspace).1.context = workspace.context := by
  obtain ⟨firstEq, secondEq⟩ := exists_of_inTurn returned
  rw [(inTurn_of_ok firstEq).1, context_transform (steady_transform steady firstEq) secondEq,
    context_transform steady firstEq]

/-- No call is one of both helpers. -/
theorem eitherReplacement?_comm (first second : TypeHelper) (production : Bool)
    (workspace : Workspace) :
    first.eitherReplacement? second production workspace =
      second.eitherReplacement? first production workspace := by
  funext c
  rw [eitherReplacement?, eitherReplacement?]
  by_cases same : first.name = second.name
  · rw [name_injective same]
  · cases replaced : first.replacement? production workspace c with
    | none => rw [Option.none_or, Option.or_none]
    | some new =>
        rw [replacement?_eq_none_of_name_ne same replaced, Option.none_or, Option.or_none]

/-- Two orders that both return make the same of a module. -/
theorem inTurn_swap (steady : workspace.Steady) {counts others : Nat × Nat}
    (returned : (first.inTurn second production workspace).2.outcome = .ok counts)
    (swapped : (second.inTurn first production workspace).2.outcome = .ok others) :
    (second.inTurn first production workspace).1.root =
        (first.inTurn second production workspace).1.root ∧
      (second.inTurn first production workspace).1.context =
        (first.inTurn second production workspace).1.context := by
  rw [root_inTurn steady returned, root_inTurn steady swapped, eitherReplacement?_comm,
    context_inTurn steady returned, context_inTurn steady swapped]
  exact ⟨rfl, rfl⟩

/-- Both orders return where each pass alone does. -/
theorem exists_inTurn (steady : workspace.Steady) {count others : Nat}
    (returned : (first.transform production workspace).2.outcome = .ok count)
    (othersReturned : (second.transform production workspace).2.outcome = .ok others) :
    ∃ counts, (first.inTurn second production workspace).2.outcome = .ok counts := by
  have told : ∀ (helper : TypeHelper) count,
      (helper.transform production workspace).2.outcome = .ok count →
      ∀ site ∈ workspace.root.findCalls helper.name,
        ReturnsIf True (helper.fields? workspace site.call) := by
    intro helper count returned site mem
    rw [outcome_transform_of_steady steady] at returned
    obtain ⟨founds, mapped, -⟩ := map_eq_ok.mp returned
    exact .inl (exists_ok_of_mapM mapped mem)
  have returns : ReturnsIf True (first.inTurn second production workspace).2.outcome := by
    refine returns_inTurn steady ?_
    rw [List.forall_mem_cons, List.forall_mem_singleton]
    exact ⟨told first count returned, told second others othersReturned⟩
  exact returns.exists_ok trivial

end TypeHelper

/-! ## The order of the passes -/

/-- Keys calls and schema calls may be replaced in either order.  In a module that was read without
issues, whatever is imported and for either build, both orders return if each pass alone does, and
whenever both return they have replaced, in the places of the calls that do not stand inside others,
each call by the same node, and types are resolved as before.  In readable modules an order stops
only at an integer that cannot be written, in the modules or as a limit. -/
theorem TypeHelper.inTurn_comm (first second : TypeHelper) (imports : List Node) {x : Json}
    {number : Nat} {root : Node} (distinct : x.Distinct)
    (accepted : readDocument number x = .ok root) (tidy : ∀ n ∈ root.walk, n.Tidy)
    (parts : ∀ n ∈ root.walk, n.PlainParts) (options : Options) (production : Bool) :
    let workspace := Workspace.ofModule imports root options
    let run := first.inTurn second production workspace
    let swapped := second.inTurn first production workspace
    (∀ counts others, run.2.outcome = .ok counts → swapped.2.outcome = .ok others →
        swapped.1.root = run.1.root ∧ swapped.1.context = run.1.context ∧
          run.1.root = root.substitute (first.eitherReplacement? second production workspace)) ∧
      (∀ count others, (first.transform production workspace).2.outcome = .ok count →
        (second.transform production workspace).2.outcome = .ok others →
        (∃ counts, run.2.outcome = .ok counts) ∧ ∃ counts, swapped.2.outcome = .ok counts) ∧
      (Readable (imports ++ [root]) →
        (∀ site ∈ root.findCalls schemaHelper, ∀ number, limitNumber? site.call = some number →
          number.Finite) →
        let writable := AllWritable (imports ++ [root]) ∧ first.LimitsWritable workspace ∧
          second.LimitsWritable workspace
        ReturnsIf writable run.2.outcome ∧ ReturnsIf writable swapped.2.outcome) := by
  have sound := sound_of_readNode distinct accepted
  have steady := steady_ofModule imports sound tidy parts options
  refine ⟨fun counts others returned swapped => ?_, fun count others returned othersReturned => ?_,
    fun readable finite => ?_⟩
  · obtain ⟨rootEq, contextEq⟩ := inTurn_swap steady returned swapped
    exact ⟨rootEq, contextEq, root_inTurn steady returned⟩
  · exact ⟨exists_inTurn steady returned othersReturned,
      exists_inTurn steady othersReturned returned⟩
  · have each : ∀ helper : TypeHelper, ∀ site ∈ root.findCalls helper.name,
        ReturnsIf
          (AllWritable (imports ++ [root]) ∧
            helper.LimitsWritable (.ofModule imports root options))
          (helper.fields? (.ofModule imports root options) site.call) := by
      intro helper site mem
      have stands : StandsIn (imports ++ [root]) site.call :=
        ⟨root, by simp, mem_walk_of_at? (at?_place_of_mem sound mem)⟩
      refine (helper.returns_fields? readable (registry_ofModule_eq_registryOf sound options) stands
        (kind_of_calls (calls_of_mem sound mem)) ?_).imp fun all => ⟨all.1, all.2 site mem⟩
      rintro rfl
      exact finite site mem
    constructor
    · refine returns_inTurn steady ?_
      rw [List.forall_mem_cons, List.forall_mem_singleton]
      exact ⟨fun site mem => (each first site mem).imp fun all => ⟨all.1, all.2.1⟩,
        fun site mem => (each second site mem).imp fun all => ⟨all.1, all.2.2⟩⟩
    · refine returns_inTurn steady ?_
      rw [List.forall_mem_cons, List.forall_mem_singleton]
      exact ⟨fun site mem => (each second site mem).imp fun all => ⟨all.1, all.2.2⟩,
        fun site mem => (each first site mem).imp fun all => ⟨all.1, all.2.1⟩⟩

/-! ## Calls inside each other -/

/-- A call of a helper whose type argument is an object type with one field. -/
def titledHelperCall (helper : TypeHelper) (arguments : List Node) : Node :=
  genericCall helper.name (typeLiteral [titleMember]) arguments

/-- The call as it is written. -/
def titledHelperJson (helper : TypeHelper) (arguments : List Json) : Json :=
  genericCallJson helper.name titledTypeJson arguments

/-- A module with a schema call in a keys call, and a keys call in a schema call. -/
def crossedModule : Node :=
  program [statement (titledHelperCall .keys [titledHelperCall .schema []]),
    statement (titledHelperCall .schema [titledHelperCall .keys []])]

/-- The module as it is written. -/
def crossedJson : Json :=
  programJson [statementJson (titledHelperJson .keys [titledHelperJson .schema []]),
    statementJson (titledHelperJson .schema [titledHelperJson .keys []])]

theorem distinct_crossedJson : crossedJson.Distinct := by
  simp [crossedJson, titledHelperJson, titledTypeJson]

@[simp]
theorem readDocument_crossedJson : readDocument 0 crossedJson = .ok crossedModule := by
  rfl

/-- The workspace of the module. -/
def crossedWorkspace : Workspace :=
  .ofModule [] crossedModule {}

/-- The field of the type argument is told where the call sets no depth limit. -/
theorem fields?_titledHelperCall (helper : TypeHelper) {workspace : Workspace}
    (shallow : workspace.context.tooDeep = false) {arguments : List Node}
    (unlimited : callLimit? (titledHelperCall helper arguments) = pure none) :
    helper.fields? workspace (titledHelperCall helper arguments) = .ok (some [titledField]) := by
  have shapeEq : (helper.shape workspace (titledHelperCall helper arguments)).outcome =
      .ok (some (.object [titledField])) := by
    cases helper with
    | keys => exact outcome_argumentShape_titled shallow keysHelper arguments
    | schema =>
        have typed : (titledHelperCall .schema arguments).typeArguments.isEmpty = false := by rfl
        rw [TypeHelper.shape, schemaShape, typed, schemaContext, unlimited]
        exact outcome_argumentShape_titled shallow schemaHelper arguments
  rw [TypeHelper.fields?, shapeEq]
  rfl

private theorem exists_transform_crossed (helper : TypeHelper) :
    ∃ count, (helper.transform false crossedWorkspace).2.outcome = .ok count := by
  have sound := sound_of_readNode distinct_crossedJson readDocument_crossedJson
  refine helper.exists_transform (steady_ofModule [] sound (tidy_of_allDeclared (by rfl))
    (plainParts_of_allPlainParts (by rfl)) {}) fun c mem => ⟨some [titledField], ?_⟩
  have keysCalls : (crossedModule.tree.filter fun n => n.calls TypeHelper.keys.name) =
      [titledHelperCall .keys [titledHelperCall .schema []], titledHelperCall .keys []] := by
    rfl
  have schemaCalls : (crossedModule.tree.filter fun n => n.calls TypeHelper.schema.name) =
      [titledHelperCall .schema [], titledHelperCall .schema [titledHelperCall .keys []]] := by
    rfl
  change c ∈ crossedModule.tree.filter _ at mem
  cases helper with
  | keys =>
      rw [keysCalls, List.mem_pair] at mem
      rcases mem with rfl | rfl <;> exact fields?_titledHelperCall .keys (by rfl) (by rfl)
  | schema =>
      rw [schemaCalls, List.mem_pair] at mem
      rcases mem with rfl | rfl <;> exact fields?_titledHelperCall .schema (by rfl) (by rfl)

@[simp]
theorem replacement?_titledHelperCall (helper : TypeHelper) {workspace : Workspace}
    {arguments : List Node}
    (fieldsEq : helper.fields? workspace (titledHelperCall helper arguments) =
      .ok (some [titledField])) :
    helper.replacement? false workspace (titledHelperCall helper arguments) =
      some (helper.written [titledField]) := by
  have calls : (titledHelperCall helper arguments).calls helper.name = true := by
    cases helper <;> rfl
  rw [TypeHelper.replacement?, if_pos calls, fieldsEq]
  rfl

@[simp]
theorem eitherReplacement?_statement (first second : TypeHelper) (production : Bool)
    (workspace : Workspace) (expression : Node) :
    first.eitherReplacement? second production workspace (statement expression) = none :=
  rfl

/-- The calls in others are lost with them. -/
theorem substitute_crossedModule :
    crossedModule.substitute
        (TypeHelper.keys.eitherReplacement? .schema false crossedWorkspace) =
      program [statement (TypeHelper.keys.written [titledField]),
        statement (TypeHelper.schema.written [titledField])] := by
  have keysEq : TypeHelper.keys.eitherReplacement? .schema false crossedWorkspace
      (titledHelperCall .keys [titledHelperCall .schema []]) =
        some (TypeHelper.keys.written [titledField]) := by
    rw [TypeHelper.eitherReplacement?, replacement?_titledHelperCall .keys
      (fields?_titledHelperCall .keys (by rfl) (by rfl)), Option.some_or]
  have schemaEq : TypeHelper.keys.eitherReplacement? .schema false crossedWorkspace
      (titledHelperCall .schema [titledHelperCall .keys []]) =
        some (TypeHelper.schema.written [titledField]) := by
    rw [TypeHelper.eitherReplacement?_comm, TypeHelper.eitherReplacement?,
      replacement?_titledHelperCall .schema
        (fields?_titledHelperCall .schema (by rfl) (by rfl)), Option.some_or]
  rw [crossedModule, substitute_program]
  simp only [List.map_cons, List.map_nil, eitherReplacement?_statement, Option.getD_none,
    substitute_statement, keysEq, schemaEq, Option.getD_some]

/-- Either order replaces the outer calls, and the inner ones are lost with them. -/
theorem inTurn_comm_crossedModule :
    crossedJson.Distinct ∧ readDocument 0 crossedJson = .ok crossedModule ∧
      (∀ n ∈ crossedModule.walk, n.Tidy) ∧ (∀ n ∈ crossedModule.walk, n.PlainParts) ∧
      let run := TypeHelper.keys.inTurn .schema false crossedWorkspace
      let swapped := TypeHelper.schema.inTurn .keys false crossedWorkspace
      (∃ counts, run.2.outcome = .ok counts) ∧ (∃ counts, swapped.2.outcome = .ok counts) ∧
        run.1.root = program [statement (TypeHelper.keys.written [titledField]),
          statement (TypeHelper.schema.written [titledField])] ∧
        swapped.1.root = run.1.root := by
  have tidy : ∀ n ∈ crossedModule.walk, n.Tidy := tidy_of_allDeclared (by rfl)
  have parts : ∀ n ∈ crossedModule.walk, n.PlainParts := plainParts_of_allPlainParts (by rfl)
  obtain ⟨same, return_, -⟩ := TypeHelper.inTurn_comm .keys .schema [] distinct_crossedJson
    readDocument_crossedJson tidy parts {} false
  obtain ⟨count, counted⟩ := exists_transform_crossed .keys
  obtain ⟨others, othersCounted⟩ := exists_transform_crossed .schema
  obtain ⟨⟨counts, returned⟩, swappedCounts, swapped⟩ := return_ count others counted othersCounted
  obtain ⟨rootEq, -, substituted⟩ := same counts swappedCounts returned swapped
  exact ⟨distinct_crossedJson, readDocument_crossedJson, tidy, parts, ⟨counts, returned⟩,
    ⟨swappedCounts, swapped⟩, substituted.trans substitute_crossedModule, rootEq⟩

/-! ## A call that is lost or stops a pass -/

/-- A module with the enum, an alias for the selection by its members, a schema call in which there
is a keys call of the alias, and another keys call. -/
def strandingModule (n : Int) : Node :=
  program [numberedEnum n, typeAlias "P" selection [],
    statement (titledHelperCall .schema [selectingCall]), statement (titledHelperCall .keys [])]

/-- The module as it is written. -/
def strandingJson (n : Int) : Json :=
  programJson (selectingDeclarationsJson n ++
    [statementJson (titledHelperJson .schema [selectingCallJson]),
      statementJson (titledHelperJson .keys [])])

@[simp]
theorem readDocument_strandingJson (n : Int) :
    readDocument 0 (strandingJson n) = .ok (strandingModule n) := by
  rfl

theorem distinct_strandingJson (n : Int) : (strandingJson n).Distinct := by
  simp [strandingJson, selectingDeclarationsJson, titledHelperJson, titledTypeJson,
    selectingCallJson]

/-- The workspace of the module. -/
def strandingWorkspace (n : Int) : Workspace :=
  .ofModule [] (strandingModule n) {}

theorem tidy_strandingModule (n : Int) : ∀ m ∈ (strandingModule n).walk, m.Tidy :=
  tidy_of_allDeclared (by rfl)

theorem plainParts_strandingModule (n : Int) : ∀ m ∈ (strandingModule n).walk, m.PlainParts :=
  plainParts_of_allPlainParts (by rfl)

theorem steady_strandingWorkspace (n : Int) : (strandingWorkspace n).Steady :=
  steady_ofModule [] (sound_of_readNode (distinct_strandingJson n) (readDocument_strandingJson n))
    (tidy_strandingModule n) (plainParts_strandingModule n) {}

@[simp]
theorem context_strandingWorkspace (n : Int) :
    (strandingWorkspace n).context = selectingContext n := by
  refine context_ofModule_of_declarationNodes (steady_strandingWorkspace n).sound ?_
  rw [declarationNodes, declarationNodes, walk_eq_tree, walk_eq_tree]
  rfl

/-- The place of the schema call. -/
def strandingPlace : Place :=
  [⟨.declared "body", some 2⟩, ⟨.declared "expression", none⟩]

/-- The keys pass stops, and the schema call is still there. -/
theorem transform_keys_stranding {n : Int} (long : (Number.int (n + 1)).isUnwritable = true) :
    let run := TypeHelper.keys.transform false (strandingWorkspace n)
    (∃ fault, run.2.outcome = .error fault) ∧
      ∃ c, run.1.root.at? strandingPlace = some c ∧ c.kind = .callExpression := by
  have steady := steady_strandingWorkspace n
  constructor
  · cases returned : (TypeHelper.keys.transform false (strandingWorkspace n)).2.outcome with
    | error fault => exact ⟨fault, rfl⟩
    | ok count =>
        have found : (strandingWorkspace n).root.at?
            (strandingPlace ++ [⟨.declared "arguments", some 0⟩]) = some selectingCall := by
          rfl
        have calls : selectingCall.calls TypeHelper.keys.name = true := by rfl
        obtain ⟨site, mem, -, callEq⟩ := exists_site_of_at? steady.sound found calls
        rw [TypeHelper.outcome_transform_of_steady steady] at returned
        obtain ⟨founds, mapped, -⟩ := map_eq_ok.mp returned
        obtain ⟨fields, fieldsEq⟩ := exists_ok_of_mapM mapped mem
        rw [callEq, fields?_selectingCall long (context_strandingWorkspace n)] at fieldsEq
        cases fieldsEq
  · obtain ⟨visited, moves, replaced⟩ :=
      @TypeHelper.exists_replaced_visited .keys false (strandingWorkspace n) steady
    have inBody : (strandingWorkspace n).root.at? [⟨.declared "body", some 2⟩] =
        some (statement (titledHelperCall .schema [selectingCall])) := by
      rfl
    have there : (strandingWorkspace n).root.at? strandingPlace =
        some (titledHelperCall .schema [selectingCall]) := by
      rfl
    have unreplaced : ∀ places place c, c.calls keysHelper = false →
        replaceAt (TypeHelper.keys.replacement? false (strandingWorkspace n)) places place c =
          none := by
      intro places place c calls
      rw [replaceAt, TypeHelper.replacement?, TypeHelper.name, calls]
      exact ite_self _
    have kept : (strandingWorkspace n).root.Kept
        (replaceAt (TypeHelper.keys.replacement? false (strandingWorkspace n))
          (visited.map CallSite.place)) strandingPlace := by
      refine kept_concat (kept_concat kept_nil fun c found => ?_) fun c found => ?_
      · obtain rfl := Option.some_inj.mp (found.symm.trans inBody)
        exact unreplaced _ _ _ (by rfl)
      · obtain rfl := Option.some_inj.mp (found.symm.trans there)
        exact unreplaced _ _ _ (by rfl)
    refine ⟨_, by rw [replaced.root, at?_rewrite kept, there, Option.map_some], ?_⟩
    rw [rewrite_eq, kind_mapSlots]
    rfl

/-- Where a helper is not called, nothing is replaced. -/
theorem TypeHelper.getD_replacement?_of_uncalled (helper : TypeHelper) {production : Bool}
    {workspace : Workspace} {n : Node} (sound : n.Sound)
    (uncalled : (n.tree.all fun m => !m.calls helper.name) = true) :
    (helper.replacement? production workspace n).getD
      (n.substitute (helper.replacement? production workspace)) = n := by
  have idle : ∀ m ∈ n.tree, helper.replacement? production workspace m = none := by
    intro m mem
    rw [replacement?, if_neg]
    rw [Bool.not_eq_true, ← Bool.not_eq_true']
    exact List.all_eq_true.mp uncalled m mem
  rw [idle n n.self_mem_tree, Option.getD_none]
  exact rewrite_of_forall_none sound fun place c found => idle c (mem_tree_of_at? found)

theorem schemaCalls_strandingModule (n : Int) :
    ((strandingModule n).tree.filter fun m => m.calls TypeHelper.schema.name) =
      [titledHelperCall .schema [selectingCall]] := by
  rfl

/-- The schema pass replaces the only schema call, with the call of the alias in it. -/
theorem transform_schema_stranding (n : Int) :
    let run := TypeHelper.schema.transform false (strandingWorkspace n)
    (∃ count, run.2.outcome = .ok count) ∧
      run.1.root = program [numberedEnum n, typeAlias "P" selection [],
        statement (TypeHelper.schema.written [titledField]),
        statement (titledHelperCall .keys [])] := by
  have steady := steady_strandingWorkspace n
  have fieldsEq : TypeHelper.schema.fields? (strandingWorkspace n)
      (titledHelperCall .schema [selectingCall]) = .ok (some [titledField]) :=
    fields?_titledHelperCall .schema (by rfl) (by rfl)
  obtain ⟨count, returned⟩ := @TypeHelper.exists_transform .schema false _ steady
    fun c mem => ⟨some [titledField], by
      change c ∈ (strandingModule n).tree.filter _ at mem
      rw [schemaCalls_strandingModule, List.mem_singleton] at mem
      rw [mem, fieldsEq]⟩
  refine ⟨⟨count, returned⟩, ?_⟩
  rw [TypeHelper.root_transform steady returned]
  change (strandingModule n).substitute _ = _
  have sound : ∀ m ∈ (strandingModule n).children "body", m.Sound := fun m =>
    steady.sound.of_mem_children
  change ∀ m ∈ [numberedEnum n, typeAlias "P" selection [], _,
    statement (titledHelperCall .keys [])], m.Sound at sound
  simp only [List.forall_mem_cons] at sound
  have uncalled := @TypeHelper.getD_replacement?_of_uncalled .schema false (strandingWorkspace n)
  rw [strandingModule, substitute_program, List.map_cons, List.map_cons, List.map_cons,
    List.map_singleton, uncalled sound.1 (by rfl), uncalled sound.2.1 (by rfl),
    uncalled sound.2.2.2.1 (by rfl), substitute_statement,
    replacement?_titledHelperCall .schema fieldsEq]
  rfl

/-- With the schema calls first both passes return, and what was put in for the schema call is
there. -/
theorem at?_inTurn_stranding (n : Int) :
    (TypeHelper.schema.inTurn .keys false (strandingWorkspace n)).1.root.at? strandingPlace =
      some (TypeHelper.schema.written [titledField]) := by
  have steady := steady_strandingWorkspace n
  obtain ⟨⟨count, counted⟩, rootEq⟩ := transform_schema_stranding n
  have calls : ((program [numberedEnum n, typeAlias "P" selection [],
      statement (TypeHelper.schema.written [titledField]),
      statement (titledHelperCall .keys [])]).tree.filter fun m => m.calls TypeHelper.keys.name) =
      [titledHelperCall .keys []] := by
    rfl
  have contextEq := TypeHelper.context_transform steady counted
  obtain ⟨others, othersCounted⟩ := @TypeHelper.exists_transform .keys false _
    (TypeHelper.steady_transform steady counted) fun c mem => ⟨some [titledField], by
      rw [rootEq, calls, List.mem_singleton] at mem
      rw [mem, TypeHelper.fields?_congr contextEq]
      exact fields?_titledHelperCall .keys (by rfl) (by rfl)⟩
  have returned := (TypeHelper.inTurn_of_ok counted).2.trans (congrArg _ othersCounted)
  rw [TypeHelper.root_inTurn steady returned]
  have inBody : (strandingWorkspace n).root.inSlot? ⟨.declared "body", some 2⟩ =
      some (statement (titledHelperCall .schema [selectingCall])) := by
    rfl
  have kept : (strandingWorkspace n).root.Kept
      (fun _ => TypeHelper.schema.eitherReplacement? .keys false (strandingWorkspace n))
      [⟨.declared "body", some 2⟩] :=
    kept_cons inBody (eitherReplacement?_statement _ _ _ _ _) kept_nil
  have there : (strandingWorkspace n).root.at?
      ([⟨.declared "body", some 2⟩] ++ [⟨.declared "expression", none⟩]) =
        some (titledHelperCall .schema [selectingCall]) := by
    rfl
  refine at?_rewrite_of_replaced kept there ?_
  rw [TypeHelper.eitherReplacement?,
    replacement?_titledHelperCall .schema (fields?_titledHelperCall .schema (by rfl) (by rfl)),
    Option.some_or]

private theorem unlimited_strandingModule (n : Int) :
    ∀ site ∈ (strandingModule n).findCalls schemaHelper, ∀ number,
      limitNumber? site.call = some number → number.Finite := by
  intro site mem number limited
  have callMem : site.call ∈
      (strandingModule n).tree.filter fun m => m.calls TypeHelper.schema.name :=
    call_mem_filter_tree (steady_strandingWorkspace n).sound mem
  rw [schemaCalls_strandingModule, List.mem_singleton] at callMem
  have none : limitNumber? (titledHelperCall .schema [selectingCall]) = none := by rfl
  rw [callMem, none] at limited
  cases limited

/-- The order of the passes matters where one of them does not return: a call that stops the keys
pass is lost if the schema calls are replaced first. -/
theorem TypeHelper.inTurn_differs_of_long_enum :
    ¬ ∀ (imports : List Node) (x : Json) (number : Nat) (root : Node),
      x.Distinct → readDocument number x = .ok root → (∀ n ∈ root.walk, n.Tidy) →
      (∀ n ∈ root.walk, n.PlainParts) →
      (∀ site ∈ root.findCalls schemaHelper, ∀ number, limitNumber? site.call = some number →
        number.Finite) →
      ∀ options production,
        (TypeHelper.keys.inTurn .schema production (.ofModule imports root options)).1.root =
          (TypeHelper.schema.inTurn .keys production (.ofModule imports root options)).1.root := by
  intro same
  obtain ⟨n, next⟩ : ∃ n : Int, n + 1 = Number.firstUnwritable :=
    ⟨Number.firstUnwritable - 1, Int.sub_add_cancel _ _⟩
  have long : (Number.int (n + 1)).isUnwritable = true := by
    rw [next, Number.isUnwritable, Int.natAbs_natCast]
    exact decide_eq_true (Nat.le_refl _)
  have rootEq := same [] (strandingJson n) 0 (strandingModule n) (distinct_strandingJson n)
    (readDocument_strandingJson n) (tidy_strandingModule n) (plainParts_strandingModule n)
    (unlimited_strandingModule n) {} false
  rw [← strandingWorkspace] at rootEq
  obtain ⟨⟨fault, stops⟩, c, there, isCall⟩ := transform_keys_stranding long
  have object := at?_inTurn_stranding n
  rw [← rootEq, (TypeHelper.inTurn_of_error stops).1, there] at object
  rw [Option.some_inj.mp object] at isCall
  cases isCall

end PropValidators
