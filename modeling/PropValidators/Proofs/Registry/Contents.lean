import PropValidators.Proofs.Registry.Shadowing
import Mathlib.Data.List.DropRight

/-!
# What a registry holds

A registry is built by taking one declaration after the other, and each is added to what is kept
for its name or takes its place.  What is kept in the end can be told from the declarations of the
name alone, without going through the steps: it is the last one if that is no interface, and else
the longest run of interfaces at their end.  The names stand in the order in which they were first
declared.
-/

namespace PropValidators

open Ast

namespace Registry

variable {α : Type} (isInterface : α → Bool)

/-- The declarations of a name that count in the end: the last one alone if it is no interface, and
else all interfaces in a row at the end. -/
def latest (declarations : List α) : List α :=
  match declarations.getLast? with
  | none => []
  | some last => if isInterface last then declarations.rtakeWhile isInterface else [last]

theorem latest_concat (declarations : List α) (last : α) :
    latest isInterface (declarations ++ [last]) =
      if isInterface last then declarations.rtakeWhile isInterface ++ [last] else [last] := by
  rw [latest, List.getLast?_concat]
  by_cases isOne : isInterface last = true
  · simp [isOne]
  · simp [isOne]

/-- What counts in the end are interfaces only, or a single declaration. -/
theorem latest_all_or_single (declarations : List α) :
    (latest isInterface declarations).all isInterface = true ∨
      ∃ declaration, latest isInterface declarations = [declaration] := by
  rw [latest]
  split
  · exact .inl rfl
  · rename_i last _
    split
    · left
      rw [List.all_eq_true]
      intro declaration mem
      exact List.mem_rtakeWhile_imp mem
    · exact .inr ⟨last, rfl⟩

@[simp]
theorem latest_eq_nil_iff (declarations : List α) :
    latest isInterface declarations = [] ↔ declarations = [] := by
  induction declarations using List.reverseRecOn with
  | nil => simp [latest]
  | append_singleton declarations last _ =>
      rw [latest_concat]
      split <;> simp

/-- Interfaces are all that counts only if the last declaration is one. -/
theorem all_latest_iff (declarations : List α) :
    (latest isInterface declarations).all isInterface = true ↔
      latest isInterface declarations = declarations.rtakeWhile isInterface := by
  induction declarations using List.reverseRecOn with
  | nil => simp [latest]
  | append_singleton declarations last _ =>
      rw [latest_concat]
      by_cases isOne : isInterface last = true
      · have run : (declarations.rtakeWhile isInterface).all isInterface = true :=
          List.all_eq_true.mpr fun declaration mem => List.mem_rtakeWhile_imp mem
        simp [isOne, run]
      · simp [isOne]

/-- Taking one declaration after the other leaves those that count in the end. -/
@[simp]
theorem settled_eq_latest (declarations : List α) :
    settled isInterface [] declarations = latest isInterface declarations := by
  induction declarations using List.reverseRecOn with
  | nil => rfl
  | append_singleton declarations last ih =>
      have step : settled isInterface [] (declarations ++ [last]) =
          settle isInterface (latest isInterface declarations) last := by
        rw [← ih, settled, settled, List.foldl_concat]
      rw [step, settle, latest_concat]
      by_cases isOne : isInterface last = true
      · by_cases all : (latest isInterface declarations).all isInterface = true
        · rw [all, isOne, (all_latest_iff isInterface declarations).mp all]
          rfl
        · -- The declaration before the last one is no interface, so the run starts with the last.
          have none : declarations.rtakeWhile isInterface = [] := by
            rw [latest] at all
            rw [List.rtakeWhile_eq_nil_iff]
            intro some isBefore
            rw [List.getLast?_eq_getLast_of_ne_nil some] at all
            apply all
            simp only [isBefore, if_true, List.all_eq_true]
            intro declaration mem
            exact List.mem_rtakeWhile_imp mem
          simp [isOne, all, none]
      · simp [isOne]

/-- Nothing is registered without a name. -/
@[simp]
theorem add_none (registry : Registry α) (declaration : α) :
    registry.add isInterface none declaration = registry :=
  rfl

@[simp]
theorem add_empty_name (registry : Registry α) (declaration : α) :
    registry.add isInterface (some "") declaration = registry :=
  rfl

theorem names_add (registry : Registry α) {name : String} (named : name ≠ "") (declaration : α) :
    (registry.add isInterface (some name) declaration).names =
      if name ∈ registry.names then registry.names else registry.names ++ [name] := by
  simp only [add, named, if_false]
  exact Assoc.keys_put name _ registry.entries

/-- Names stand in the order of their first declarations, and the empty name is left out. -/
@[simp]
theorem names_ofList (declarations : List (Option String × α)) :
    (ofList isInterface declarations).names =
      ((declarations.filterMap Prod.fst).filter (· ≠ "")).eraseDups := by
  induction declarations using List.reverseRecOn with
  | nil => rfl
  | append_singleton declarations last ih =>
      obtain ⟨name, declaration⟩ := last
      have step : ofList isInterface (declarations ++ [(name, declaration)]) =
          (ofList isInterface declarations).add isInterface name declaration := by
        rw [ofList, ofList, List.foldl_concat]
      rw [step, List.filterMap_append, List.filter_append]
      cases name with
      | none =>
          rw [add_none]
          simpa using ih
      | some name =>
          by_cases empty : name = ""
          · subst empty
            rw [add_empty_name]
            simpa using ih
          · have last :
                ([(some name, declaration)].filterMap Prod.fst).filter (· ≠ "") = [name] := by
              simp [empty]
            rw [names_add isInterface _ empty, ih, last, Assoc.eraseDups_concat]
            simp only [List.mem_eraseDups]

end Registry

/-- The declarations of a name, in order.  Nothing is declared under the empty name. -/
def declarationsOf (name : String) (nodes : List Node) : List Node :=
  nodes.filter fun n => name ≠ "" && declaredName? n == some name

private theorem declaredUnder_eq (name : String) (nodes : List Node) :
    Registry.declaredUnder name (nodes.map fun n => (declaredName? n, n)) =
      declarationsOf name nodes := by
  rw [Registry.declaredUnder, declarationsOf, List.filterMap_map, ← List.filterMap_eq_filter]
  apply List.filterMap_congr
  intro n _
  simp [Option.guard, and_comm]

theorem registryOf_eq_map (modules : List Node) :
    registryOf modules =
      (Registry.ofList (fun n : Node => n.kind == .interfaceDeclaration)
        ((modules.flatMap declarationNodes).map fun n => (declaredName? n, n))).map
          Declaration.ofNode := by
  rw [registryOf_eq, registryOfRegistrations_eq_map]

/-- The names stand in the order of the first declarations. -/
@[simp]
theorem names_registryOf (modules : List Node) :
    (registryOf modules).names =
      (((modules.flatMap declarationNodes).filterMap declaredName?).filter (· ≠ "")).eraseDups := by
  rw [registryOf_eq_map, Registry.names_map, Registry.names_ofList, List.filterMap_map]
  rfl

/-- All that is declared under a name is registered, and nothing else. -/
@[simp]
theorem contains_registryOf_iff {modules : List Node} {name : String} :
    (registryOf modules).contains name = true ↔
      name ≠ "" ∧ ∃ n ∈ modules.flatMap declarationNodes, declaredName? n = some name := by
  rw [Registry.contains, List.contains_iff_mem, names_registryOf, List.mem_eraseDups,
    List.mem_filter, List.mem_filterMap]
  simp [and_comm]

theorem get_registryOf_eq_latest (modules : List Node) (name : String) :
    (registryOf modules).get name =
      (Registry.latest (fun n => n.kind == .interfaceDeclaration)
        (declarationsOf name (modules.flatMap declarationNodes))).map Declaration.ofNode := by
  rw [registryOf_eq_map, Registry.get_map, Registry.get_ofList, Registry.settled_eq_latest,
    declaredUnder_eq]

/-- There is always something under a name that is registered. -/
theorem get_registryOf_ne_nil {modules : List Node} {name : String}
    (registered : (registryOf modules).contains name = true) :
    (registryOf modules).get name ≠ [] := by
  obtain ⟨named, n, mem, declared⟩ := contains_registryOf_iff.mp registered
  intro none
  rw [get_registryOf_eq_latest, List.map_eq_nil_iff, Registry.latest_eq_nil_iff] at none
  have found : n ∈ declarationsOf name (modules.flatMap declarationNodes) :=
    List.mem_filter.mpr ⟨mem, by simp [named, declared]⟩
  rw [none] at found
  cases found

/-- Under any name there are interfaces only, or a single declaration. -/
theorem get_registryOf_interfaces_or_single (modules : List Node) (name : String) :
    (∀ declaration ∈ (registryOf modules).get name, declaration.isInterface = true) ∨
      ∃ declaration, (registryOf modules).get name = [declaration] := by
  rw [get_registryOf_eq_latest]
  rcases Registry.latest_all_or_single (fun n : Node => n.kind == .interfaceDeclaration)
    (declarationsOf name (modules.flatMap declarationNodes)) with all | ⟨n, single⟩
  · left
    intro declaration mem
    obtain ⟨n, nMem, rfl⟩ := List.mem_map.mp mem
    rw [isInterface_ofNode]
    exact List.all_eq_true.mp all n nMem
  · right
    rw [single]
    exact ⟨Declaration.ofNode n, rfl⟩

/-- The registry of modules whose declarations are met in some order holds every name that is
declared and not empty, in the order of the first declarations.  Under a name it keeps the last
declaration alone, if that is an alias or an enum, and else the interfaces in a row at the end.  So
what it keeps is never nothing, and either interfaces only or a single declaration.  Modules that
keep to their fields can always be registered. -/
theorem registry_contents (modules : List Node) :
    let nodes := modules.flatMap declarationNodes
    let registry := registryOf modules
    (∀ name, registry.contains name = true ↔
        name ≠ "" ∧ ∃ n ∈ nodes, declaredName? n = some name) ∧
      registry.names = ((nodes.filterMap declaredName?).filter (· ≠ "")).eraseDups ∧
      (∀ name, registry.get name =
        (Registry.latest (fun n => n.kind == .interfaceDeclaration)
          (declarationsOf name nodes)).map Declaration.ofNode) ∧
      (∀ name, registry.contains name = true →
        registry.get name ≠ [] ∧
          ((∀ declaration ∈ registry.get name, declaration.isInterface = true) ∨
            ∃ declaration, registry.get name = [declaration])) ∧
      ((∀ m ∈ modules, m.Sound) → registrationFault? nodes = none) := by
  intro nodes registry
  refine ⟨fun name => contains_registryOf_iff, names_registryOf modules,
    get_registryOf_eq_latest modules, ?_, registrationFault?_of_modules⟩
  intro name registered
  exact ⟨get_registryOf_ne_nil registered, get_registryOf_interfaces_or_single modules name⟩

end PropValidators
