import PropValidators.Proofs.Patching.Reports

/-!
# Types before and after patching

Patching changes the bodies of classes, and no declaration is read there.  So the module as it
was and the module as it is have the same declarations in sight, in the same order, and every
type and every name has the same meaning in both.  What runs on a patched module, such as the
passes over the calls of helpers, sees the types that the classes were patched by.
-/

namespace PropValidators

open Ast

namespace Registry

variable {α β : Type}

/-- The names in order, each with the number of its declarations. -/
def counts (registry : Registry α) : List (String × Nat) :=
  registry.entries.map fun entry => (entry.1, entry.2.length)

@[simp]
theorem counts_map (f : α → β) (registry : Registry α) :
    (registry.map f).counts = registry.counts := by
  rw [counts, counts, map, List.map_map]
  apply List.map_congr_left
  intro entry _
  exact congrArg _ (List.length_map f)

end Registry

@[simp]
theorem counts_sources (workspace : Workspace) :
    workspace.sources.counts = workspace.context.registry.counts := by
  rw [Workspace.context, Workspace.registry, Registry.counts_map]

/-- When a module has been patched, it can be opened again with the same imports.  The same names
are then in sight in the same order, with the same number of declarations each; and every type
and every name with arguments is resolved as before, with the same notices and guards on the
way, or stops at the same fault. -/
theorem types_unchanged_by_patching {options : Options} {imports : List Node} {x : Json}
    {number : Nat} {root : Node} {results : List PatchResult} (distinct : x.Distinct)
    (read : readDocument number x = .ok root)
    (returns : (transformModule options imports root).report.outcome = .ok results) :
    let before := Workspace.ofModule imports root options
    let after := Workspace.ofModule imports (transformModule options imports root).root options
    openingFault? imports after.root = none ∧
      after.sources.counts = before.sources.counts ∧
      (∀ type, resolveType after.context type = resolveType before.context type) ∧
      ∀ name arguments,
        resolveName after.context name arguments = resolveName before.context name arguments := by
  intro before after
  have sound := sound_of_readNode distinct read
  have contextEq : after.context = before.context := openContext_transformModule sound returns
  refine ⟨openingFault?_transformModule sound returns, ?_, ?_, ?_⟩
  · rw [counts_sources, counts_sources, contextEq]
  · intro type
    rw [contextEq]
  · intro name arguments
    rw [contextEq]

/-- The props type of the outer class has the same shape after both classes were patched. -/
theorem types_unchanged_by_patching_galleryModule :
    galleryJson.Distinct ∧ readDocument 0 galleryJson = .ok galleryModule ∧
      (transformModule {} [] galleryModule).report.outcome =
        .ok [⟨.patched, some "Gallery", ["Props"], ["text"]⟩,
          ⟨.patched, some "Title", [], ["text"]⟩] ∧
      (Workspace.ofModule [] (transformModule {} [] galleryModule).root {}).sources.counts =
        [("Props", 1)] ∧
      (resolveType (openContext {} [] (transformModule {} [] galleryModule).root)
        (.reference (some "Props") [])).outcome = .ok (.object [titledField]) := by
  obtain ⟨-, countsEq, types, -⟩ :=
    types_unchanged_by_patching distinct_galleryJson readDocument_galleryJson
      galleryModule_returns
  refine ⟨distinct_galleryJson, readDocument_galleryJson, galleryModule_returns, ?_, ?_⟩
  · rw [countsEq, counts_sources, context_galleryModule]
    rfl
  · rw [types, context_galleryModule, outcome_resolveType_galleryProps]

end PropValidators
