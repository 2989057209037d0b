import PropValidators.Proofs.Patching.Traversal
import PropValidators.Proofs.Types.FromOutline

/-!
# The declarations in sight after patching

The registry of a workspace is made from what the declarations of its modules are called,
what they declare and whether they are interfaces.  All of that is the same for the outlines
of the declarations.  So two sound modules whose declarations have the same outlines have
their types resolved in the same context.
-/

namespace PropValidators

open Ast

namespace Registry

variable {α β : Type}

@[simp]
theorem get_map (f : α → β) (registry : Registry α) (name : String) :
    (registry.map f).get name = (registry.get name).map f := by
  obtain ⟨entries⟩ := registry
  rw [get, get, map]
  dsimp only
  rw [Assoc.get?, Assoc.get?]
  induction entries with
  | nil => rfl
  | cons entry entries ih =>
      rw [List.map_cons, List.find?_cons, List.find?_cons]
      cases entry.1 == name with
      | false => exact ih
      | true => rfl

@[simp]
theorem put_map (f : α → β) (name : String) (kept : List α) (entries : List (String × List α)) :
    (Assoc.put name kept entries).map (fun entry => (entry.1, entry.2.map f)) =
      Assoc.put name (kept.map f) (entries.map fun entry => (entry.1, entry.2.map f)) := by
  induction entries with
  | nil => rfl
  | cons entry entries ih =>
      rw [Assoc.put, List.map_cons, Assoc.put]
      by_cases same : entry.1 = name
      · rw [if_pos same, if_pos same, List.map_cons]
      · rw [if_neg same, if_neg same, List.map_cons, ih]

theorem map_add {isInterface : α → Bool} {isInterface' : β → Bool} {f : α → β}
    (same : ∀ a, isInterface' (f a) = isInterface a) (registry : Registry α)
    (name : Option String) (declaration : α) :
    (registry.add isInterface name declaration).map f =
      (registry.map f).add isInterface' name (f declaration) := by
  cases name with
  | none => rfl
  | some name =>
      have allSame : ((registry.get name).map f).all isInterface' =
          (registry.get name).all isInterface := by
        rw [List.all_map, Function.comp_def]
        congr 1
        exact funext same
      rw [add, add]
      split
      · rfl
      · dsimp only
        rw [get_map, allSame, same, map, put_map]
        split <;> simp [map]

/-- Registering commutes with changing what is kept for a declaration. -/
theorem map_ofList {isInterface : α → Bool} {isInterface' : β → Bool} {f : α → β}
    (same : ∀ a, isInterface' (f a) = isInterface a) (declarations : List (Option String × α)) :
    (ofList isInterface declarations).map f =
      ofList isInterface' (declarations.map fun d => (d.1, f d.2)) := by
  suffices ∀ registry : Registry α,
      (declarations.foldl (fun registry d => registry.add isInterface d.1 d.2) registry).map f =
        (declarations.map fun d => (d.1, f d.2)).foldl
          (fun registry d => registry.add isInterface' d.1 d.2) (registry.map f) from this empty
  induction declarations with
  | nil => exact fun _ => rfl
  | cons declaration declarations ih =>
      intro registry
      rw [List.foldl_cons, ih, map_add same, List.map_cons, List.foldl_cons]

@[simp]
theorem map_map {γ : Type} (g : β → γ) (f : α → β) (registry : Registry α) :
    (registry.map f).map g = registry.map (g ∘ f) := by
  simp [map, List.map_map, Function.comp_def]

@[simp]
theorem map_id (registry : Registry α) : registry.map id = registry := by
  simp [map]

private theorem mem_get_add {isInterface : α → Bool} {registry : Registry α} {kept declaration : α}
    {key : String} {name : Option String}
    (mem : kept ∈ (registry.add isInterface name declaration).get key) :
    kept ∈ registry.get key ∨ kept = declaration := by
  unfold add at mem
  split at mem
  · exact .inl mem
  · rename_i name
    split at mem
    · exact .inl mem
    · rw [get] at mem
      by_cases same : key = name
      · subst same
        rw [Assoc.get?_put_self, Option.getD_some] at mem
        split at mem
        · rcases List.mem_append.mp mem with before | new
          · exact .inl before
          · exact .inr (List.mem_singleton.mp new)
        · exact .inr (List.mem_singleton.mp mem)
      · rw [Assoc.get?_put_of_ne same] at mem
        exact .inl mem

/-- Only what was to be registered is kept. -/
theorem exists_of_mem_get_ofList {isInterface : α → Bool} {kept : α} {key : String}
    {declarations : List (Option String × α)}
    (mem : kept ∈ (ofList isInterface declarations).get key) :
    ∃ name, (name, kept) ∈ declarations := by
  -- What is kept may come from the registry that the fold has got so far.
  suffices ∀ registry : Registry α,
      kept ∈ (declarations.foldl (fun registry d => registry.add isInterface d.1 d.2) registry).get
        key → kept ∈ registry.get key ∨ ∃ name, (name, kept) ∈ declarations by
    rcases this empty mem with none | found
    · cases none
    · exact found
  clear mem
  induction declarations with
  | nil => exact fun _ before => .inl before
  | cons declaration declarations ih =>
      intro registry mem
      rcases ih _ mem with before | ⟨name, later⟩
      · rcases mem_get_add before with earlier | rfl
        · exact .inl earlier
        · exact .inr ⟨declaration.1, List.mem_cons_self⟩
      · exact .inr ⟨name, List.mem_cons_of_mem _ later⟩

end Registry

/-- What the registry of a workspace is made from: the name under which a declaration is
known, whether it is an interface, and what it declares. -/
def registration (n : Node) : Option String × Bool × Declaration :=
  (declaredName? n, n.kind == .interfaceDeclaration, Declaration.ofNode n)

/-- The registry of declarations with their registrations. -/
def registryOfRegistrations (registrations : List (Option String × Bool × Declaration)) :
    Registry Declaration :=
  (Registry.ofList Prod.fst registrations).map Prod.snd

theorem map_registerNodes {α : Type} (declare : α → Declaration) (declarations : List (Node × α)) :
    (registerNodes declarations).map declare =
      registryOfRegistrations (declarations.map fun pair =>
        (declaredName? pair.1, pair.1.kind == .interfaceDeclaration, declare pair.2)) := by
  let register (pair : Node × α) : Bool × Declaration :=
    (pair.1.kind == .interfaceDeclaration, declare pair.2)
  have same : ∀ pair : Node × α, (register pair).1 = (pair.1.kind == .interfaceDeclaration) :=
    fun _ => rfl
  have toDeclaration : declare ∘ (Prod.snd : Node × α → α) = Prod.snd ∘ register := rfl
  rw [registerNodes, Registry.map_map, toDeclaration, ← Registry.map_map,
    Registry.map_ofList same, registryOfRegistrations, List.map_map]
  rfl

@[simp]
theorem map_snd_declarationPlaces (root : Node) :
    (declarationPlaces root).map Prod.snd = declarationNodes root := by
  rw [declarationNodes, Node.walk, List.filter_map, declarationPlaces]
  rfl

/-- The registry of a workspace for a sound module. -/
theorem registry_ofModule {imports : List Node} {root : Node} (sound : root.Sound)
    (options : Options) :
    (Workspace.ofModule imports root options).registry =
      registryOfRegistrations
        ((imports.flatMap declarationNodes).map registration ++
          (declarationNodes root).map registration) := by
  have own : (declarationPlaces root).map (fun found =>
      (declaredName? found.2, found.2.kind == .interfaceDeclaration,
        Source.declaration root (.live found.1))) = (declarationNodes root).map registration := by
    rw [← map_snd_declarationPlaces, List.map_map]
    apply List.map_congr_left
    intro found mem
    have place := Node.at?_of_mem sound (List.mem_filter.mp mem).1
    rw [Source.declaration, place]
    rfl
  rw [Workspace.registry, Workspace.ofModule]
  dsimp only
  rw [map_registerNodes, List.map_append, List.map_map, List.map_map, ← own]
  rfl

/-- The declarations in the registry of modules are those that their nodes make. -/
theorem exists_of_mem_registryOf {modules : List Node} {name : String} {declaration : Declaration}
    (mem : declaration ∈ (registryOf modules).get name) :
    ∃ root ∈ modules, ∃ n ∈ declarationNodes root, declaration = Declaration.ofNode n := by
  rw [registryOf, registerNodes, Registry.get_map] at mem
  obtain ⟨pair, pairMem, rfl⟩ := List.mem_map.mp mem
  obtain ⟨name, named⟩ := Registry.exists_of_mem_get_ofList pairMem
  obtain ⟨declared, declaredMem, eq⟩ := List.mem_map.mp named
  cases eq
  obtain ⟨n, nodeMem, rfl⟩ := List.mem_map.mp declaredMem
  obtain ⟨root, rootMem, found⟩ := List.mem_flatMap.mp nodeMem
  exact ⟨root, rootMem, n, found, rfl⟩

theorem registryOf_eq (modules : List Node) :
    registryOf modules =
      registryOfRegistrations ((modules.flatMap declarationNodes).map registration) := by
  rw [registryOf, ← Registry.map_id (registerNodes _), map_registerNodes, List.map_map]
  rfl

/-- A workspace has the declarations of its module and of the imported ones in sight. -/
theorem registry_ofModule_eq_registryOf {imports : List Node} {root : Node} (sound : root.Sound)
    (options : Options) :
    (Workspace.ofModule imports root options).registry = registryOf (imports ++ [root]) := by
  rw [registry_ofModule sound, registryOf_eq, List.flatMap_append, List.map_append,
    List.flatMap_singleton]

theorem sound_of_mem_declarationNodes {root n : Node} (sound : root.Sound)
    (mem : n ∈ declarationNodes root) : n.Sound := by
  rw [declarationNodes_eq] at mem
  exact sound_of_mem_marks sound (List.mem_filter.mp mem).1

theorem isDeclaration_of_mem {root n : Node} (mem : n ∈ declarationNodes root) :
    isDeclaration n = true := by
  rw [declarationNodes] at mem
  exact (List.mem_filter.mp mem).2

theorem registration_outline {n : Node} (sound : n.Sound) (declares : isDeclaration n = true) :
    registration n.outline = registration n := by
  rw [registration, registration, declaredName?_outline sound, Node.kind_outline,
    declaration_outline sound declares]

private theorem map_registration_eq {root : Node} (sound : root.Sound) :
    (declarationNodes root).map registration =
      ((declarationNodes root).map Node.outline).map registration := by
  rw [List.map_map]
  apply List.map_congr_left
  intro n mem
  exact (registration_outline (sound_of_mem_declarationNodes sound mem)
    (isDeclaration_of_mem mem)).symm

/-- Types are resolved in the same context in sound modules whose declarations have the same
outlines. -/
theorem context_eq_of_outlines {imports : List Node} {root after : Node} (sound : root.Sound)
    (afterSound : after.Sound) (options : Options)
    (same : (declarationNodes after).map Node.outline =
      (declarationNodes root).map Node.outline) :
    (Workspace.ofModule imports after options).context =
      (Workspace.ofModule imports root options).context := by
  have registryEq : (Workspace.ofModule imports after options).registry =
      (Workspace.ofModule imports root options).registry := by
    rw [registry_ofModule afterSound, registry_ofModule sound, map_registration_eq afterSound,
      same, ← map_registration_eq sound]
  rw [Workspace.context, Workspace.context, registryEq]
  rfl

/-- Sound modules have no declarations that cannot be registered. -/
theorem registrationFault?_of_sound {root : Node} (sound : root.Sound) :
    registrationFault? (declarationNodes root) = none := by
  rw [registrationFault?, List.findSome?_eq_none_iff]
  intro n mem
  have nSound := sound_of_mem_declarationNodes sound mem
  cases idEq : n.child? "id" with
  | none => rfl
  | some id => exact (nSound.of_child? idEq).entityFault?_eq_none

/-- Nothing in modules that keep to their fields stops them from being registered. -/
theorem registrationFault?_of_modules {modules : List Node} (sound : ∀ m ∈ modules, m.Sound) :
    registrationFault? (modules.flatMap declarationNodes) = none := by
  rw [registrationFault?, List.findSome?_eq_none_iff]
  intro n mem
  obtain ⟨m, mMem, nMem⟩ := List.mem_flatMap.mp mem
  have none := registrationFault?_of_sound (sound m mMem)
  rw [registrationFault?, List.findSome?_eq_none_iff] at none
  exact none n nMem

/-- Whether declarations can be registered depends on the imported modules only. -/
theorem openingFault?_of_sound {imports : List Node} {root : Node} (sound : root.Sound) :
    openingFault? imports root = registrationFault? (imports.flatMap declarationNodes) := by
  have own := registrationFault?_of_sound sound
  rw [registrationFault?] at own
  rw [openingFault?, registrationFault?, registrationFault?, List.findSome?_append, own,
    Option.or_none]

end PropValidators
