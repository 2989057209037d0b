import PropValidators.Proofs.CallSites.Replacing

/-!
# Keys and schema calls

A keys call stands for the names of the fields of its type argument, and a schema call for their
descriptions.  Both are replaced where the type argument resolves to an object, and in production
builds by null unless they ask for more.  What is read off a call depends on the declarations in
sight and on the options of the workspace only, and stays the same when calls inside it are
replaced.
-/

namespace PropValidators

open Ast Node

/-- The helpers that stand for something that can be told of a type. -/
inductive TypeHelper where
  /-- The names of its fields. -/
  | keys
  /-- The description of its fields. -/
  | schema

/-- What stands for a call in a build. -/
def inBuildNode (production : Bool) (call node : Node) : Node :=
  if production && !keptInProduction call then nullLiteral else node

namespace TypeHelper

/-- The function that is called. -/
def name : TypeHelper → String
  | keys => keysHelper
  | schema => schemaHelper

theorem name_injective : Function.Injective name := by
  intro helper other same
  cases helper <;> cases other
  case keys.keys | schema.schema => rfl
  case keys.schema | schema.keys => exact absurd same (by decide)

/-- The pass that replaces the calls of a helper in a module. -/
def transform : TypeHelper → Bool → Workspace → Workspace × Traced Nat
  | keys => transformKeys
  | schema => transformSchemas

/-- What a call of a helper is expanded to. -/
def expand : TypeHelper → Bool → Workspace → Node → Traced (Option (Expansion Unit))
  | keys => expandKeys
  | schema => expandSchema

/-- The shape of the type argument of a call, for a schema call under its own depth limit. -/
def shape : TypeHelper → Workspace → Node → Traced (Option Shape)
  | keys, workspace, call => argumentShape workspace.context call
  | schema, workspace, call => schemaShape workspace call

/-- What is written for fields. -/
def written : TypeHelper → List Field → Node
  | keys, fields => keysArray fields
  | schema, fields => ofJson (describeProps fields)

/-- The fields of the type argument of a call, if it resolves to an object. -/
def fields? (helper : TypeHelper) (workspace : Workspace) (call : Node) :
    Except Fault (Option (List Field)) :=
  (helper.shape workspace call).outcome.map fun shape => shape.bind Shape.fields?

/-- What is read off a call as its replacement, if its type argument resolves to an object. -/
def read (helper : TypeHelper) (production : Bool) (workspace : Workspace) (call : Node) :
    Except Fault (Option (Expansion Unit)) :=
  (helper.fields? workspace call).map (Option.map fun fields =>
    { node := inBuildNode production call (helper.written fields), report := () })

/-- What a node is replaced by: nothing, unless it is a call of the helper whose type argument
resolves to an object. -/
def replacement? (helper : TypeHelper) (production : Bool) (workspace : Workspace) (call : Node) :
    Option Node :=
  if call.calls helper.name then
    match helper.fields? workspace call with
    | .ok (some fields) => some (inBuildNode production call (helper.written fields))
    | _ => none
  else none

variable {helper : TypeHelper} {production : Bool} {workspace other : Workspace} {c : Node}

theorem workspace_transform (helper : TypeHelper) (production : Bool) (workspace : Workspace) :
    (helper.transform production workspace).1 =
      (expandSites (helper.expand production) workspace []
        (workspace.root.findCalls helper.name)).workspace := by
  cases helper <;> rfl

/-- A pass reports how many calls were replaced. -/
theorem outcome_transform (helper : TypeHelper) (production : Bool) (workspace : Workspace) :
    (helper.transform production workspace).2.outcome =
      (expandSites (helper.expand production) workspace []
        (workspace.root.findCalls helper.name)).reports.outcome.map List.length := by
  have counted : ∀ (group name : String) (reports : Traced (List Unit)),
      (countReplaced group name reports).outcome = reports.outcome.map List.length := by
    rintro group name ⟨outcome, trace⟩
    rw [countReplaced, Traced.outcome_bind]
    cases outcome with
    | error fault => rfl
    | ok reports =>
        change (if 0 < reports.length then _ else _ : Traced Nat).outcome = _
        split <;> rfl
  cases helper <;> exact counted _ _ _

private theorem outcome_inBuild (sound : c.Sound) (isCall : c.kind = .callExpression)
    (node : Node) : (inBuild production c node).outcome = .ok (inBuildNode production c node) := by
  cases production with
  | false => rfl
  | true =>
      rw [inBuild, if_pos rfl, allowedInProduction_of_sound sound isCall, inBuildNode]
      cases keptInProduction c <;> rfl

/-- A run that goes on with the fields of a shape. -/
theorem outcome_expansion {body : Option Shape → Traced (Option (Expansion Unit))}
    {node : List Field → Node} (shape : Traced (Option Shape))
    (expands : ∀ shape fields, shape.bind Shape.fields? = some fields →
      (body shape).outcome = .ok (some { node := node fields, report := () }))
    (keeps : ∀ shape, shape.bind Shape.fields? = none → (body shape).outcome = .ok none) :
    (shape >>= body).outcome =
      (shape.outcome.map fun shape => shape.bind Shape.fields?).map (Option.map fun fields =>
        { node := node fields, report := () }) := by
  rw [Traced.outcome_bind]
  rcases shape.outcome with fault | shape
  · rfl
  · change (body shape).outcome = .ok ((shape.bind Shape.fields?).map _)
    cases fieldsEq : shape.bind Shape.fields? with
    | none => exact keeps shape fieldsEq
    | some fields => exact expands shape fields fieldsEq

/-- A call is expanded by its fields, if it has some. -/
theorem outcome_expand (sound : c.Sound) (isCall : c.kind = .callExpression) :
    (helper.expand production workspace c).outcome = helper.read production workspace c := by
  cases helper <;>
    refine outcome_expansion _ (fun shape fields found => ?_) fun shape missing => ?_
  case keys.refine_1 | schema.refine_1 =>
    simp only [found]
    rw [Traced.outcome_bind, outcome_inBuild sound isCall]
    rfl
  case keys.refine_2 | schema.refine_2 =>
    simp only [missing]
    rfl

/-- Only the context counts. -/
theorem fields?_congr (same : workspace.context = other.context) (c : Node) :
    helper.fields? workspace c = helper.fields? other c := by
  cases helper with
  | keys => rw [fields?, fields?, shape, shape, same]
  | schema =>
      have contextEq : schemaContext workspace c = schemaContext other c := by
        rw [schemaContext, schemaContext, same]
      rw [fields?, fields?, shape, shape, schemaShape, schemaShape, contextEq]

/-- The fields are the same when calls inside a call are replaced. -/
theorem fields?_mapSlots {change : Slot → Node → Node} (sound : c.Sound)
    (isCall : c.kind = .callExpression)
    (each : ∀ slot d, c.inSlot? slot = some d → Expanded d (change slot d)) :
    helper.fields? workspace (c.mapSlots change) = helper.fields? workspace c := by
  cases helper with
  | keys => rw [fields?, fields?, shape, shape, argumentShape_mapSlots sound each]
  | schema =>
      have afterSound := (Expanded.within each).sound sound
      have limitEq : callLimit? (c.mapSlots change) = callLimit? c := by
        rw [callLimit?_of_sound sound isCall, callLimit?_of_sound afterSound isCall,
          limitNumber?_mapSlots sound each]
      have emptyEq : (c.mapSlots change).typeArguments.isEmpty = c.typeArguments.isEmpty := by
        rw [← List.isEmpty_map (f := TypeExpr.ofValue), map_ofValue_expanded sound each,
          List.isEmpty_map]
      rw [fields?, fields?, shape, shape, schemaShape, schemaShape, emptyEq, schemaContext,
        schemaContext, limitEq]
      simp only [argumentShape_mapSlots sound each]

private theorem plain_written (helper : TypeHelper) (fields : List Field) :
    (helper.written fields).Plain := by
  cases helper with
  | keys => exact plain_keysArray fields
  | schema => exact plain_describeProps fields

private theorem inertTree_written (helper : TypeHelper) (fields : List Field) :
    (helper.written fields).InertTree := by
  cases helper with
  | keys => exact inertTree_keysArray fields
  | schema => exact inertTree_ofJson (describeProps fields)

/-- What replaces a call is written for some fields, or null. -/
theorem exists_of_replacement? {r : Node}
    (replaced : helper.replacement? production workspace c = some r) :
    c.calls helper.name = true ∧ ∃ fields, helper.fields? workspace c = .ok (some fields) ∧
      (r = helper.written fields ∨ r = nullLiteral) := by
  rw [replacement?] at replaced
  split at replaced
  · rename_i calls
    split at replaced
    · rename_i fields fieldsEq
      obtain rfl := Option.some_inj.mp replaced
      refine ⟨calls, fields, fieldsEq, ?_⟩
      rw [inBuildNode]
      split
      · exact .inr rfl
      · exact .inl rfl
    · cases replaced
  · cases replaced

private theorem unreused_of_read {expansion : Expansion Unit}
    (readEq : helper.read production workspace c = .ok (some expansion)) :
    expansion.reused = none := by
  obtain ⟨fields, -, expansionEq⟩ := map_eq_ok.mp readEq
  obtain ⟨_, -, rfl⟩ := Option.map_eq_some_iff.mp expansionEq
  rfl

/-- What replaces a call is inert. -/
theorem inertTree_replacement? {r : Node}
    (replaced : helper.replacement? production workspace c = some r) : r.InertTree := by
  obtain ⟨-, fields, -, rfl | rfl⟩ := exists_of_replacement? replaced
  · exact inertTree_written helper fields
  · exact inertTree_nullLiteral

/-- No function is called by its name in what replaces a call. -/
theorem nameless_replacement? {other : String} (c r : Node)
    (replaced : helper.replacement? production workspace c = some r) :
    ∀ m ∈ r.tree, m.calls other = false :=
  fun m mem => (inertTree_replacement? replaced m mem).unnamed other

/-- The replacement of a call is what is read off it. -/
theorem reads_replacement? (helper : TypeHelper) (production : Bool) (workspace : Workspace) :
    Reads workspace helper.name (helper.read production workspace)
      (helper.replacement? production workspace) where
  calls c r replaced := (exists_of_replacement? replaced).1
  agrees c found calls readEq := by
    rw [replacement?, if_pos calls]
    obtain ⟨fields, fieldsEq, rfl⟩ := map_eq_ok.mp readEq
    rw [fieldsEq]
    cases fields <;> rfl
  plain c r _ replaced := by
    obtain ⟨-, fields, -, rfl | rfl⟩ := exists_of_replacement? replaced
    · exact plain_written helper fields
    · exact plain_nullLiteral
  settled c r _ _ replaced := (inertTree_replacement? replaced).settled
  reuses c expansion _ _ readEq old inner reused := by
    rw [unreused_of_read readEq] at reused
    cases reused
  clear site _ expansion readEq other _ old inner reused := by
    rw [unreused_of_read readEq] at reused
    cases reused

/-- Whatever was replaced before, a call is expanded by what is read off it. -/
theorem follows_expand (steady : workspace.Steady) (helper : TypeHelper) (production : Bool) :
    Follows workspace helper.name (helper.read production workspace)
      (helper.replacement? production workspace) (helper.expand production) := by
  intro done after moves replaced site mem
  have sound := steady.sound.of_at? (at?_place_of_mem steady.sound mem)
  rw [outcome_expand sound (kind_of_calls (calls_of_mem steady.sound mem)), read, read,
    fields?_congr replaced.context]

/-- What a node is replaced by depends on the context only. -/
theorem replacement?_congr (same : workspace.context = other.context) :
    helper.replacement? production workspace = helper.replacement? production other := by
  funext c
  rw [replacement?, replacement?, fields?_congr same]

/-- What a node is replaced by is the same when calls inside it are replaced. -/
theorem replacement?_mapSlots {change : Slot → Node → Node} (sound : c.Sound)
    (each : ∀ slot d, c.inSlot? slot = some d → Expanded d (change slot d)) :
    helper.replacement? production workspace (c.mapSlots change) =
      helper.replacement? production workspace c := by
  rw [replacement?, replacement?, calls_mapSlots each]
  split
  · rename_i calls
    rw [fields?_mapSlots sound (kind_of_calls calls) each]
    simp only [inBuildNode, keptInProduction_mapSlots sound each]
  · rfl

/-- No node is replaced as a call of either helper. -/
theorem replacement?_eq_none_of_name_ne {helper second : TypeHelper}
    (apart : helper.name ≠ second.name) {r : Node}
    (replaced : helper.replacement? production workspace c = some r) :
    second.replacement? production workspace c = none := by
  have calls := (exists_of_replacement? replaced).1
  rw [replacement?, if_neg]
  exact fun others => apart (eq_of_calls calls others)

/-- Whether a node is replaced does not depend on the build. -/
theorem isSome_replacement? (helper : TypeHelper) (production other : Bool)
    (workspace : Workspace) (c : Node) :
    (helper.replacement? production workspace c).isSome =
      (helper.replacement? other workspace c).isSome := by
  rw [replacement?, replacement?]
  split
  · split <;> rfl
  · rfl

end TypeHelper

end PropValidators
