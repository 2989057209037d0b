import PropValidators.Defaults
import PropValidators.Merge
import PropValidators.Types.References
import PropValidators.Types.Resolve
import PropValidators.Workspace

/-!
# Patching component classes

Every class of a module whose superclass carries a props type gets the validators
derived from that type: as a new static property at the front of its body, or added
to the object literal that its static property already holds.

The work is done in two steps.  First a plan is made for each class, from the module
as it is; then the changes are made.  That is sound because a change touches only
validators, which no plan for another class reads.
-/

namespace PropValidators

open Ast

/-- What became of a class. -/
inductive PatchStatus where
  /-- The superclass has no props type. -/
  | notApplicable
  /-- Nothing better than `any` could be derived. -/
  | skippedEmpty
  /-- The validators are written in a way that cannot be added to. -/
  | skippedOpaque
  /-- The class has all validators. -/
  | patched
deriving DecidableEq, Repr

namespace PatchStatus

/-- The name of a status in reports. -/
def name : PatchStatus → String
  | .notApplicable => "not_applicable"
  | .skippedEmpty => "skipped_empty"
  | .skippedOpaque => "skipped_opaque"
  | .patched => "patched"

/-- All statuses. -/
def all : List PatchStatus :=
  [.notApplicable, .skippedEmpty, .skippedOpaque, .patched]

end PatchStatus

/-- The report on one class. -/
structure PatchResult where
  status : PatchStatus
  className : Option String
  /-- The type names that the props type refers to. -/
  typeNames : List String := []
  /-- The props for which validators were added. -/
  added : List String := []
deriving DecidableEq, Repr

/-- Whether a class has all validators. -/
def PatchResult.patched (result : PatchResult) : Bool :=
  result.status == .patched

/-- A change of a class. -/
inductive ClassEdit where
  /-- A new member at the front of the body. -/
  | insert (member : Node)
  /-- Further properties in the object literal of the first static property of a
  name. -/
  | extend (property : String) (added : List Node)

/-- The object literal inside the value of a static property: the value itself, or
the first argument of a call.  A missing value stands for an empty object. -/
def mergeTarget? : Option Node → Option Node
  | none => some (.ofDeclared "ObjectExpression" [])
  | some value =>
      if value.kind = .objectExpression then some value
      else if value.kind = .callExpression then
        ((value.children "arguments").head?).filter fun first => first.kind = .objectExpression
      else none

/-- The fault of looking for the object literal inside the value of a static property. -/
def mergeTargetFault? (value : Option Node) : Option Fault :=
  match value with
  | some value =>
      if value.kind = .callExpression then
        (value.child? "arguments").map fun m => .misused .indexed m.kind.modelName
      else none
  | none => none

/-- Put an object literal where the target of a merge was found. -/
def rewrap (value : Option Node) (merged : Node) : Node :=
  match value with
  | some value =>
      if value.kind = .callExpression then
        value.set "arguments" (.list (.node merged :: (value.items "arguments").drop 1))
      else merged
  | none => merged

/-- A static property with further properties in its object literal. -/
def extendProperty (added : List Node) (declared : Node) : Node :=
  let value := declared.child? "value"
  match mergeTarget? value with
  | some target => declared.set "value" (.node (rewrap value (appendProperties target added)))
  | none => declared

/-- Change the first node of a list that passes a test. -/
def modifyFirst (test : Node → Bool) (change : Node → Node) : List Value → List Value
  | [] => []
  | .node n :: rest =>
      if test n then .node (change n) :: rest else .node n :: modifyFirst test change rest
  | item :: rest => item :: modifyFirst test change rest

/-- A class with its members changed; one without members stays as it is. -/
def withMembers (change : List Value → List Value) (classNode : Node) : Node :=
  (classNode.modifyMembers? change).getD classNode

/-- A class after a change. -/
def ClassEdit.apply : ClassEdit → Node → Node
  | .insert member => withMembers (.node member :: ·)
  | .extend property added =>
      withMembers (modifyFirst (isStaticProperty property) (extendProperty added))

/-- The report on a class and the change that it needs, if any. -/
abbrev ClassPlan := PatchResult × Option ClassEdit

/-- Plan the change of a class whose usable entries are known. -/
def planEntries (options : Options) (classNode : Node) (typeNames : List String)
    (entries : List Entry) : Traced ClassPlan := do
  let name := (classNode.child? "id").bind Node.entityText?
  let library := options.validatorNamespace
  let property := options.validatorProperty
  let finish (added : List Entry) (edit : Option ClassEdit) : Traced ClassPlan := do
    let names := added.map (·.prop)
    if names.isEmpty then
      Traced.note (.validatorsComplete name property)
    else
      Traced.note (.validatorsAdded name property names)
    return (⟨.patched, name, typeNames, names⟩, edit)
  match ← Traced.ofExcept (staticProperty? classNode property) with
  | none =>
      if (classNode.modifyMembers? id).isNone then Traced.stop (.absent "body")
      else
        finish entries
          (some (.insert (staticProperty property (mergeEntries library none entries))))
  | some declared => do
      Traced.check (mergeTargetFault? (declared.child? "value"))
      match mergeTarget? (declared.child? "value") with
      | none => do
          Traced.note (.notObjectLiteral name property)
          return (⟨.skippedOpaque, name, typeNames, []⟩, none)
      | some target => do
          Traced.check (declarationFault? target)
          let missing := missingEntries (declaredNames target) entries
          let edit := ClassEdit.extend property (missing.map (Entry.toProperty library))
          let changes := !missing.isEmpty || (declared.child? "value").isNone
          finish missing (if changes then some edit else none)

/-- The entries that a props type calls for in a class. -/
def classEntries (options : Options) (context : Context) (classNode : Node) (propsType : TypeExpr) :
    Traced (List Entry) := do
  let shape ← resolveType context propsType
  match shape.fields? with
  | none => return []
  | some fields => do
      let defaults ← classDefaults options.defaultsProperty classNode
      return Entry.ofProps fields defaults

/-- Plan the change of a class. -/
def planClass (options : Options) (context : Context) (classNode : Node) : Traced ClassPlan := do
  let name := (classNode.child? "id").bind Node.entityText?
  match classNode.typeArguments with
  | [] => do
      Traced.note (.noPropsType name)
      return (⟨.notApplicable, name, [], []⟩, none)
  | argument :: _ => do
      let propsType := TypeExpr.ofValue argument
      let typeNames := propsType.referencedNames
      let entries ← classEntries options context classNode propsType
      if Entry.anyUsable entries then planEntries options classNode typeNames entries
      else do
        Traced.note (.noValidators name)
        return (⟨.skippedEmpty, name, typeNames, []⟩, none)

/-- The classes of a module, in order. -/
def classNodes (root : Node) : List Node :=
  root.walk.filter fun n => n.kind = .classDeclaration

mutual

/-- Change the classes of a tree.  The changes are given in the order of the classes;
classes beyond them stay as they are.  The changes not used are returned. -/
def editClasses (edits : List (Option ClassEdit)) : Node → Node × List (Option ClassEdit)
  | ⟨type, fields⟩ =>
      if Kind.ofType type = .classDeclaration then
        let (fields, rest) := editFields (edits.drop 1) fields
        let edited : Node := ⟨type, fields⟩
        (((edits.head?.join).map fun edit => edit.apply edited).getD edited, rest)
      else
        let (fields, rest) := editFields edits fields
        (⟨type, fields⟩, rest)
termination_by structural n => n

/-- Change the classes below the value of a field. -/
def editValue (edits : List (Option ClassEdit)) : Value → Value × List (Option ClassEdit)
  | .node n =>
      let (n, rest) := editClasses edits n
      (.node n, rest)
  | .list items =>
      let (items, rest) := editItems edits items
      (.list items, rest)
  | .data json => (.data json, edits)
termination_by structural value => value

/-- Change the classes below an item of a list. -/
def editItem (edits : List (Option ClassEdit)) : Value → Value × List (Option ClassEdit)
  | .node n =>
      let (n, rest) := editClasses edits n
      (.node n, rest)
  | .list items => (.list items, edits)
  | .data json => (.data json, edits)
termination_by structural value => value

/-- Change the classes below the items of a list. -/
def editItems (edits : List (Option ClassEdit)) :
    List Value → List Value × List (Option ClassEdit)
  | [] => ([], edits)
  | item :: items =>
      let (item, rest) := editItem edits item
      let (items, rest) := editItems rest items
      (item :: items, rest)
termination_by structural items => items

/-- Change the classes below the fields of a node. -/
def editFields (edits : List (Option ClassEdit)) :
    List (FieldName × Value) → List (FieldName × Value) × List (Option ClassEdit)
  | [] => ([], edits)
  | (name, value) :: fields =>
      let (value, rest) := editValue edits value
      let (fields, rest) := editFields rest fields
      ((name, value) :: fields, rest)
termination_by structural fields => fields

end

/-- The results that come before the first fault. -/
def completed {α : Type} : List (Traced α) → List α
  | [] => []
  | t :: ts =>
      match t.outcome with
      | .ok a => a :: completed ts
      | .error _ => []

/-- A module after its classes were patched, and the report.  After a fault the
classes before it are patched all the same. -/
structure PatchRun where
  root : Node
  report : Traced (List PatchResult)

/-- Patch every class of a module whose types are resolved in a context. -/
def patchClasses (options : Options) (context : Context) (root : Node) : PatchRun :=
  let plans := (classNodes root).map (planClass options context)
  let edits := (completed plans).map Prod.snd
  { root := (editClasses edits root).1
    report := do
      let plans ← plans.mapM id
      return plans.map Prod.fst }

/-- The number of classes with all validators. -/
def patchedCount (results : List PatchResult) : Nat :=
  (results.filter PatchResult.patched).length

/-- Patch every class of a module, with the types of imported modules in sight.  Nothing is
patched if the declarations cannot be registered. -/
def transformModule (options : Options) (imports : List Node) (root : Node) : PatchRun :=
  match openingFault? imports root with
  | some fault => ⟨root, Traced.stop fault⟩
  | none =>
      let workspace := Workspace.ofModule imports root options
      let run := patchClasses options workspace.context root
      { run with
        report := do
          Traced.note workspace.opened
          let results ← run.report
          Traced.note (.classesPatched (patchedCount results) results.length)
          return results }

/-- Patch one class of a workspace, by its position among the classes; a negative position
counts from the end. -/
def Workspace.patchClass (workspace : Workspace) (position : Int) :
    Workspace × Traced PatchResult :=
  let classes := classNodes workspace.root
  let index := if position < 0 then position + classes.length else position
  match if index < 0 then none else classes[index.toNat]? with
  | none => (workspace, Traced.stop .outOfRange)
  | some classNode =>
      let plan := planClass workspace.options workspace.context classNode
      let edit := match plan.outcome with
        | .ok (_, edit) => edit
        | .error _ => none
      let root := (editClasses (List.replicate index.toNat none ++ [edit]) workspace.root).1
      (workspace.rearranged root, do
        let (result, _) ← plan
        return result)

end PropValidators
