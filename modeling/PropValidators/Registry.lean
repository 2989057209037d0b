import PropValidators.Assoc

/-!
# Registries of declarations

A registry keeps declarations under their names, in the order in which the names
were first met.  Interfaces of one name add up; any other declaration of a name
takes the place of all earlier ones, and so does an interface after something that
is no interface.

What is kept for a declaration is left open, so that a registry can hold the
declarations themselves or the places where they stand.
-/

namespace PropValidators

universe u v

/-- Entries under names, none of them empty. -/
structure Registry (α : Type u) where
  entries : List (String × List α)

namespace Registry

variable {α : Type u} {β : Type v}

/-- The registry without names. -/
def empty : Registry α := ⟨[]⟩

instance : Inhabited (Registry α) := ⟨empty⟩

/-- What is kept under a name. -/
def get (registry : Registry α) (name : String) : List α :=
  (Assoc.get? registry.entries name).getD []

/-- The names, in order. -/
def names (registry : Registry α) : List String :=
  Assoc.keys registry.entries

/-- Whether a name is registered. -/
def contains (registry : Registry α) (name : String) : Bool :=
  registry.names.contains name

/-- The number of names. -/
def size (registry : Registry α) : Nat :=
  registry.entries.length

/-- Keep one more declaration.  An empty name is not registered. -/
def add (isInterface : α → Bool) (registry : Registry α) (name : Option String)
    (declaration : α) : Registry α :=
  match name with
  | none => registry
  | some name =>
      if name = "" then registry
      else
        let kept := registry.get name
        let merged :=
          if isInterface declaration && kept.all isInterface then kept ++ [declaration]
          else [declaration]
        ⟨Assoc.put name merged registry.entries⟩

/-- The registry of a sequence of declarations with their names. -/
def ofList (isInterface : α → Bool) (declarations : List (Option String × α)) : Registry α :=
  declarations.foldl (fun registry d => registry.add isInterface d.1 d.2) empty

/-- A registry with something else kept for each declaration. -/
def map (f : α → β) (registry : Registry α) : Registry β :=
  ⟨registry.entries.map fun entry => (entry.1, entry.2.map f)⟩

@[simp]
theorem names_map (f : α → β) (registry : Registry α) :
    (registry.map f).names = registry.names := by
  simp [map, names, Assoc.keys, List.map_map, Function.comp_def]

/-- What is kept under a registered name is found among the entries. -/
theorem mem_names_of_get_ne_nil {registry : Registry α} {name : String}
    (h : registry.get name ≠ []) : name ∈ registry.names := by
  simp only [get, Assoc.get?] at h
  cases hfind : registry.entries.find? (fun pair => pair.1 == name) with
  | none => simp [hfind] at h
  | some pair =>
      have hmem := List.mem_of_find?_eq_some hfind
      have hname := List.find?_some hfind
      simp only [beq_iff_eq] at hname
      simp only [names, Assoc.keys, List.mem_map]
      exact ⟨pair, hmem, hname⟩

end Registry

end PropValidators
