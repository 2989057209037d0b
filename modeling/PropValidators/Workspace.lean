import PropValidators.Notice
import PropValidators.Options
import PropValidators.Types.Context
import PropValidators.Types.FromAst

/-!
# Modules under transformation

A workspace is a module together with the declarations that its types are resolved
with: those of imported modules, and those of the module itself.  The latter are
known by their places, so that they change with the module.  A declaration that is
cut out of the module stays known as it was.

A replacement may reuse a part of what it replaces; places inside the reused part
move with it.
-/

namespace PropValidators

open Ast

/-- The declarations of a module with their places, in order. -/
def declarationPlaces (root : Node) : List (Place × Node) :=
  (root.places []).filter fun found => isDeclaration found.2

/-- The declarations of a module, in order. -/
def declarationNodes (root : Node) : List Node :=
  root.walk.filter isDeclaration

/-- The fault of registering the declarations of a module and of the modules it imports. -/
def openingFault? (imports : List Node) (root : Node) : Option Fault :=
  registrationFault? (imports.flatMap declarationNodes ++ declarationNodes root)

/-- A registry of what stands for declaration nodes. -/
def registerNodes {α : Type} (declarations : List (Node × α)) : Registry α :=
  (Registry.ofList (fun pair => pair.1.kind == .interfaceDeclaration)
    (declarations.map fun pair => (declaredName? pair.1, pair))).map Prod.snd

/-- The registry of the declarations of modules, in order. -/
def registryOf (modules : List Node) : Registry Declaration :=
  registerNodes ((modules.flatMap declarationNodes).map fun n => (n, Declaration.ofNode n))

/-- Where a declaration is known from. -/
inductive Source where
  /-- It stands at a place in the module. -/
  | live (place : Place)
  /-- It is known as it was. -/
  | kept (declaration : Declaration)

/-- The declaration that a source gives in a module. -/
def Source.declaration (root : Node) : Source → Declaration
  | .live place => Declaration.ofNode ((root.at? place).getD root)
  | .kept declaration => declaration

/-- A module under transformation. -/
structure Workspace where
  root : Node
  /-- The declarations in sight. -/
  sources : Registry Source
  options : Options

/-- A replacement of the node in a slot. -/
structure Replacement where
  /-- The place of the parent. -/
  parent : Place
  slot : Slot
  /-- A part of the old node that is reused, and where it stands in the new one. -/
  reused : Option (Place × Place) := none

/-- Where a place lies after a replacement, if it is still in the tree.  A replacement
without an index takes the place of everything in its field. -/
def Replacement.relocate (replacement : Replacement) (place : Place) : Option Place :=
  match Place.below? replacement.parent place with
  | none => some place
  | some [] => some place
  | some (step :: inner) =>
      if step = replacement.slot then
        replacement.reused.bind fun (old, new) =>
          (Place.below? old inner).map fun rest =>
            replacement.parent ++ replacement.slot :: (new ++ rest)
      else if step.field = replacement.slot.field ∧ replacement.slot.index = none then none
      else some place

namespace Workspace

/-- A workspace for a module. -/
def ofModule (imports : List Node) (root : Node) (options : Options) : Workspace :=
  let imported := (imports.flatMap declarationNodes).map fun n =>
    (n, Source.kept (Declaration.ofNode n))
  let own := (declarationPlaces root).map fun (place, n) => (n, Source.live place)
  ⟨root, registerNodes (imported ++ own), options⟩

/-- The declarations in sight, as they are now. -/
def registry (workspace : Workspace) : Registry Declaration :=
  workspace.sources.map (Source.declaration workspace.root)

/-- The context for resolving a type of the module. -/
def context (workspace : Workspace) : Context :=
  { registry := workspace.registry
    maxDepth := workspace.options.maxDepth }

/-- The notice that a registry has been built. -/
def opened (workspace : Workspace) : Notice :=
  .registered workspace.sources.size

/-- The workspace with every declaration known as it is now, for another module. -/
def detached (workspace : Workspace) (root : Node) : Workspace :=
  { workspace with
    root
    sources := workspace.sources.map fun source => .kept (source.declaration workspace.root) }

/-- The workspace after a replacement. -/
def replace (workspace : Workspace) (replacement : Replacement) (new : Node) : Workspace :=
  { workspace with
    root :=
      workspace.root.modifyAt (fun n => n.fill replacement.slot new) replacement.parent
    sources := workspace.sources.map fun source =>
      match source with
      | .kept declaration => .kept declaration
      | .live place =>
          match replacement.relocate place with
          | some place => .live place
          | none => .kept (source.declaration workspace.root) }

/-- The workspace with a module in which the same declarations stand in the same
order, at other places. -/
def rearranged (workspace : Workspace) (root : Node) : Workspace :=
  let moves := ((declarationPlaces workspace.root).map Prod.fst).zip
    ((declarationPlaces root).map Prod.fst)
  { workspace with
    root
    sources := workspace.sources.map fun source =>
      match source with
      | .kept declaration => .kept declaration
      | .live place => .live ((moves.lookup place).getD place) }

end Workspace

end PropValidators
