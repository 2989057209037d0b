import PropValidators.CallSites
import PropValidators.Ast.Reader
import PropValidators.Ast.Writer

/-!
# Steps of a transformation

The steps that a module under transformation goes through, as functions on its
workspace: patching its classes, replacing its helper calls, replacing a node by hand,
reading the module anew, and opening a fresh workspace for what it has become.
-/

namespace PropValidators

open Ast

/-- The groups of helper calls to be replaced. -/
structure HelperChoice where
  components : Bool := false
  keys : Bool := false
  schemas : Bool := false
deriving DecidableEq, Repr

/-- What was replaced in each group of helper calls that was asked for. -/
structure HelperReport where
  components : Option (List String) := none
  keys : Option Nat := none
  schemas : Option Nat := none
deriving DecidableEq, Repr

namespace Workspace

/-- Run a group of helper calls if it is asked for. -/
private def choose {α : Type} (asked : Bool) (workspace : Workspace)
    (replace : Workspace → Workspace × Traced α) : Workspace × Traced (Option α) :=
  if asked then
    let (workspace, report) := replace workspace
    (workspace, some <$> report)
  else (workspace, pure none)

/-- Replace helper calls: those about components first, then keys, then schemas. -/
def replaceHelpers (choice : HelperChoice) (production : Bool) (workspace : Workspace) :
    Workspace × Traced HelperReport :=
  let (workspace, components) := choose choice.components workspace transformComponents
  let (workspace, keys) := choose choice.keys workspace (transformKeys production)
  let (workspace, schemas) := choose choice.schemas workspace (transformSchemas production)
  (workspace, do
    let components ← components
    let keys ← keys
    let schemas ← schemas
    return { components, keys, schemas })

/-- Patch the classes of the module with types resolved anew. -/
def transformClasses (imports : List Node) (workspace : Workspace) :
    Workspace × Traced (List PatchResult) :=
  let run := transformModule workspace.options imports workspace.root
  (workspace.rearranged run.root, run.report)

/-- A workspace for the module as it is now, with a notice that it was opened. -/
def refreshed (imports : List Node) (workspace : Workspace) : Traced Workspace := do
  Traced.check (openingFault? imports workspace.root)
  let fresh := ofModule imports workspace.root workspace.options
  Traced.note fresh.opened
  return fresh

/-- The module written and read again.  The declarations in sight stay those of the
module before. -/
def reread (workspace : Workspace) : Checked Workspace := do
  let root ← readDocument 0 workspace.root.toJson
  return workspace.detached root

/-- The node reached by way of reported positions, and its place. -/
def reached (workspace : Workspace) (positions : List Node.Position) :
    Except Fault (Place × Node) :=
  match workspace.root.placeOf? positions with
  | none => .error .noPlace
  | some place => .ok (place, (workspace.root.at? place).getD workspace.root)

/-- Replace the node at a label and an index under a parent. -/
def replaceAt (workspace : Workspace) (parent : List Node.Position) (label : String)
    (index : Option Int) (new : Node) : Except Fault Workspace := do
  let (place, holder) ← workspace.reached parent
  let slot ← holder.slotAt label index
  return workspace.replace { parent := place, slot } new

/-- The text of the expression reached by way of reported positions. -/
def sourceAt (workspace : Workspace) (positions : List Node.Position) :
    Except Fault String := do
  let (_, n) ← workspace.reached positions
  n.rendered 0

/-- The shape of a name in the module. -/
def shapeOf (workspace : Workspace) (name : String) : Traced Shape :=
  resolveName workspace.context name []

end Workspace

end PropValidators
