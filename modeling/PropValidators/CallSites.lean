import PropValidators.Ast.Calls
import PropValidators.Description
import PropValidators.Patch

/-!
# Helper calls

Three helpers are calls that are replaced by what they stand for:

* a keys call by the array of the field names of its type argument;
* a schema call by the description of its type argument;
* a component call by the assignment of the validators of its type argument to its
  first argument.

The calls are collected before any is replaced and then taken in order.  A call inside
one that has already been replaced counts, but leaves no trace in the module, unless it
lies in the part that was reused.
-/

namespace PropValidators

open Ast

/-- What a call is replaced by. -/
structure Expansion (α : Type) where
  node : Node
  /-- A part of the call that is reused, and where it stands in the new node. -/
  reused : Option (Place × Place) := none
  /-- The notice given when the call has been replaced. -/
  notice : Option Notice := none
  /-- What is reported for the call. -/
  report : α

/-- A workspace after its calls were expanded, and the reports on them. -/
structure CallRun (α : Type) where
  workspace : Workspace
  reports : Traced (List α)

/-- Expand the calls at some sites.  `moves` are the replacements made since the sites
were collected. -/
def expandSites {α : Type} (expand : Workspace → Node → Traced (Option (Expansion α)))
    (workspace : Workspace) (moves : List Replacement) :
    List CallSite → CallRun α
  | [] => ⟨workspace, pure []⟩
  | site :: sites =>
      let attempt := expand workspace site.call
      match attempt.outcome with
      | .error fault => ⟨workspace, ⟨.error fault, attempt.trace⟩⟩
      | .ok none =>
          let rest := expandSites expand workspace moves sites
          ⟨rest.workspace, attempt >>= fun _ => rest.reports⟩
      | .ok (some expansion) =>
          match site.writtenSlot with
          | .error fault => ⟨workspace, attempt >>= fun _ => Traced.stop fault⟩
          | .ok slot =>
              let parent? := moves.foldlM (fun place move => move.relocate place) site.parent
              let rest :=
                match parent? with
                | none => expandSites expand workspace moves sites
                | some parent =>
                    let replacement : Replacement := { parent, slot, reused := expansion.reused }
                    expandSites expand (workspace.replace replacement expansion.node)
                      (moves ++ [replacement]) sites
              ⟨rest.workspace, do
                let _ ← attempt
                expansion.notice.forM Traced.note
                let reports ← rest.reports
                return expansion.report :: reports⟩

/-- Expand the calls of a helper. -/
def expandCalls {α : Type} (helper : String)
    (expand : Workspace → Node → Traced (Option (Expansion α))) (workspace : Workspace) :
    CallRun α :=
  expandSites expand workspace [] (workspace.root.findCalls helper)

/-- The shape of the first type argument of a call; none if there is no argument. -/
def argumentShape (context : Context) (call : Node) : Traced (Option Shape) :=
  match call.typeArguments with
  | [] => return none
  | argument :: _ => some <$> resolveType context (TypeExpr.ofValue argument)

/-- The number of calls replaced, with a notice if there are any. -/
def countReplaced (group helper : String) (reports : Traced (List Unit)) : Traced Nat := do
  let replaced ← reports
  let count := replaced.length
  if 0 < count then
    Traced.note (.callsReplaced group helper count)
  return count

/-- The name of the keys helper. -/
def keysHelper : String := "transformTypeToKeys"

/-- The name of the schema helper. -/
def schemaHelper : String := "transformTypeToSchema"

/-- The name of the component helper. -/
def componentHelper : String := "transformTypeToPropTypes"

/-- The option that keeps a call in production builds. -/
def productionOption : String := "transformInProduction"

/-- The option that sets the depth limit of a schema call. -/
def depthOption : String := "maxDepth"

/-- Whether the options of a call ask for it in production builds. -/
def allowedInProduction (call : Node) : Except Fault Bool := do
  match ← call.option? productionOption 0 with
  | some value => return value.kind == .booleanLiteral && value.flag "value"
  | none => return false

/-- What stands for a call: nothing but `null` in production builds, unless the call
asks for more. -/
def inBuild (production : Bool) (call : Node) (node : Node) : Traced Node :=
  if production then do
    let allowed ← Traced.ofExcept (allowedInProduction call)
    return if allowed then node else nullLiteral
  else return node

/-- The array of the names of fields. -/
def keysArray (fields : List Field) : Node :=
  array (fields.map fun f => stringLiteral f.name)

/-- Expand a keys call. -/
def expandKeys (production : Bool) (workspace : Workspace) (call : Node) :
    Traced (Option (Expansion Unit)) := do
  let shape ← argumentShape workspace.context call
  match shape.bind Shape.fields? with
  | some fields => do
      let node ← inBuild production call (keysArray fields)
      return some { node, report := () }
  | none => do
      Traced.note (.callKept "keys" keysHelper)
      return none

/-- Replace the keys calls of a module. -/
def transformKeys (production : Bool) (workspace : Workspace) : Workspace × Traced Nat :=
  let run := expandCalls keysHelper (expandKeys production) workspace
  (run.workspace, countReplaced "keys" keysHelper run.reports)

/-- The integer part of a depth limit. -/
def limitOf : Number → Traced Int
  | .int n => return n
  | .float x =>
      match x with
      | .nan _ => Traced.stop .undefinedLimit
      | .infinite _ => Traced.stop .infiniteLimit
      | x => return x.truncate?.getD 0

/-- The depth limit that a schema call sets. -/
def callLimit? (call : Node) : Traced (Option Int) := do
  match ← Traced.ofExcept (call.option? depthOption 0) with
  | none => return none
  | some value =>
      if value.kind = .numericLiteral then
        match value.child? "value", value.number? "value" with
        | some m, _ => Traced.stop (.misused .truncated m.kind.modelName)
        | none, some number => some <$> limitOf number
        | none, none => return none
      else return none

/-- The context for the type of a schema call.  A limit of at least one level that the
call sets replaces that of the workspace. -/
def schemaContext (workspace : Workspace) (call : Node) : Traced Context := do
  match ← callLimit? call with
  | none => return workspace.context
  | some limit =>
      return if limit < 1 then workspace.context
        else { workspace.context with maxDepth := .int limit }

/-- The shape that a schema call describes; none if it has no type argument. -/
def schemaShape (workspace : Workspace) (call : Node) : Traced (Option Shape) :=
  if call.typeArguments.isEmpty then return none
  else do
    let context ← schemaContext workspace call
    argumentShape context call

/-- Expand a schema call. -/
def expandSchema (production : Bool) (workspace : Workspace) (call : Node) :
    Traced (Option (Expansion Unit)) := do
  let shape ← schemaShape workspace call
  match shape.bind Shape.fields? with
  | some fields => do
      let node ← inBuild production call (ofJson (describeProps fields))
      return some { node, report := () }
  | none => do
      Traced.note (.callKept "schema" schemaHelper)
      return none

/-- Replace the schema calls of a module. -/
def transformSchemas (production : Bool) (workspace : Workspace) : Workspace × Traced Nat :=
  let run := expandCalls schemaHelper (expandSchema production) workspace
  (run.workspace, countReplaced "schema" schemaHelper run.reports)

/-- The component that a component call is about: its first argument, if it is a name or
a member of something. -/
def componentOf? (call : Node) : Except Fault (Option Node) :=
  match call.child? "arguments" with
  | some m => .error (.misused .indexed m.kind.modelName)
  | none =>
      .ok (((call.items "arguments").head?.bind Value.node?).filter fun argument =>
        argument.kind == .identifier || argument.kind == .memberExpression)

/-- Where the component stands in a component call. -/
def componentPlace : Place := [⟨.declared "arguments", some 0⟩]

/-- Where the component stands in the assignment of its validators. -/
def assignedPlace : Place := [⟨.declared "left", none⟩, ⟨.declared "object", none⟩]

/-- Expand a component call.  The text of the component is reported. -/
def expandComponent (workspace : Workspace) (call : Node) :
    Traced (Option (Expansion String)) := do
  let options := workspace.options
  match ← Traced.ofExcept (componentOf? call) with
  | none => do
      Traced.note (.componentMissing componentHelper)
      return none
  | some component => do
      let name ← Traced.ofExcept (component.rendered 0)
      let shape ← argumentShape workspace.context call
      match shape.bind Shape.fields? with
      | none => do
          Traced.note (.componentUnresolved name)
          return none
      | some fields => do
          let defaults ← assignedDefaults options.defaultsProperty workspace.root name
          let entries := Entry.ofProps fields defaults
          if Entry.anyUsable entries then do
            let validators := mergeEntries options.validatorNamespace none entries
            let target := member component options.validatorProperty
            return some
              { node := assign target validators
                reused := some (componentPlace, assignedPlace)
                notice := some (.componentAssigned name options.validatorProperty)
                report := name }
          else do
            Traced.note (.componentWithoutValidators name)
            return none

/-- Replace the component calls of a module.  The components that received validators
are reported. -/
def transformComponents (workspace : Workspace) : Workspace × Traced (List String) :=
  let run := expandCalls componentHelper expandComponent workspace
  (run.workspace, run.reports)

end PropValidators
