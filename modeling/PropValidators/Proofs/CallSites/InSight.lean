import PropValidators.Proofs.CallSites.Sites
import PropValidators.Proofs.KeyedLists
import PropValidators.Proofs.Patching.Registered
import PropValidators.Proofs.Types.FromExpanded

/-!
# The declarations in sight while calls are replaced

A workspace is steady if its module is sound, can be written into, and has no call in the place of
a heritage clause or of an enum member, and if its sources stand where there are declarations.  A
declaration above which nothing is replaced stays in the module, and declares what it did; one in
the part that is reused moves with it, and one that is lost is known as it was.  So a workspace
stays steady when a call is replaced, and the same declarations are in sight.
-/

namespace PropValidators

open Ast Node

namespace Registry

variable {α β : Type} {property other : α → Prop} {registry : Registry α}

/-- Everything that is kept in a registry has a property. -/
def Holds (property : α → Prop) (registry : Registry α) : Prop :=
  ∀ entry ∈ registry.entries, ∀ kept ∈ entry.2, property kept

theorem Holds.imp (holds : registry.Holds property) (implies : ∀ kept, property kept → other kept) :
    registry.Holds other :=
  fun entry mem kept keptMem => implies kept (holds entry mem kept keptMem)

@[simp]
theorem holds_map {property : β → Prop} {f : α → β} :
    (registry.map f).Holds property ↔ registry.Holds fun kept => property (f kept) := by
  simp only [Holds, map, List.forall_mem_map]

theorem map_congr {f g : α → β} (same : registry.Holds fun kept => f kept = g kept) :
    registry.map f = registry.map g := by
  refine congrArg Registry.mk (List.map_congr_left fun entry mem => ?_)
  exact congrArg (Prod.mk entry.1) (List.map_congr_left (same entry mem))

theorem Holds.get (holds : registry.Holds property) {name : String} {kept : α}
    (mem : kept ∈ registry.get name) : property kept := by
  rw [Registry.get, Assoc.get?] at mem
  cases found : registry.entries.find? fun pair => pair.1 == name with
  | none =>
      rw [found] at mem
      cases mem
  | some entry =>
      rw [found] at mem
      exact holds entry (List.mem_of_find?_eq_some found) kept mem

theorem Holds.add {isInterface : α → Bool} {name : Option String} {declaration : α}
    (holds : registry.Holds property) (new : property declaration) :
    (registry.add isInterface name declaration).Holds property := by
  unfold Registry.add
  split
  · exact holds
  · split
    · exact holds
    · refine Assoc.forall_mem_put ?_ holds
      dsimp only
      split
      · rw [List.forall_mem_append, List.forall_mem_singleton]
        exact ⟨fun kept mem => holds.get mem, new⟩
      · exact List.forall_mem_singleton.mpr new

theorem holds_ofList {isInterface : α → Bool} {declarations : List (Option String × α)}
    (every : ∀ d ∈ declarations, property d.2) :
    (ofList isInterface declarations).Holds property := by
  suffices ∀ registry : Registry α, registry.Holds property →
      (declarations.foldl (fun registry d => registry.add isInterface d.1 d.2) registry).Holds
        property from this empty (fun entry mem => nomatch mem)
  induction declarations with
  | nil => exact fun registry holds => holds
  | cons d declarations ih =>
      intro registry holds
      rw [List.forall_mem_cons] at every
      exact ih every.2 _ (holds.add every.1)

end Registry

/-- A child can be put where it was found anywhere in a tree, and no call in it stands for a
heritage clause or for an enum member. -/
def Ast.Node.Settled (n : Node) : Prop :=
  ∀ m ∈ n.tree, m.Tidy ∧ m.PlainParts

section Settled

variable {n : Node} {change : Slot → Node → Node} {replace : Place → Node → Option Node}

@[simp]
theorem tidy_mapSlots : (n.mapSlots change).Tidy ↔ n.Tidy := by
  rw [Node.Tidy, map_fst_mapSlots, kind_mapSlots, Node.Tidy]

private theorem forall_ne_call_of_forall₂ {nodes others : List Node}
    (expanded : List.Forall₂ Expanded nodes others)
    (noCalls : ∀ c ∈ nodes, c.kind ≠ .callExpression) :
    ∀ c ∈ others, c.kind ≠ .callExpression := by
  induction expanded with
  | nil => exact noCalls
  | cons head _ ih =>
      rw [List.forall_mem_cons] at noCalls ⊢
      obtain ⟨change, rfl, -⟩ := head.within_of_kind noCalls.1
      exact ⟨noCalls.1, ih noCalls.2⟩

theorem plainParts_mapSlots (parts : n.PlainParts)
    (each : ∀ slot c, n.inSlot? slot = some c → Expanded c (change slot c)) :
    (n.mapSlots change).PlainParts where
  heritage isInterface :=
    forall_ne_call_of_forall₂ (forall₂_children each "extends") (parts.heritage isInterface)
  members isEnum :=
    forall_ne_call_of_forall₂ (forall₂_children each "members") (parts.members isEnum)

/-- A tree can still be written into after calls were replaced by what can be written into. -/
theorem Ast.Node.Settled.rewrite (settled : n.Settled) (sound : n.Sound)
    (expands : n.Expands replace)
    (settles : ∀ place c r, n.at? place = some c → replace place c = some r → r.Settled) :
    (n.rewrite replace).Settled := by
  intro m mem
  rw [← map_snd_places _ []] at mem
  obtain ⟨⟨place, m⟩, visited, rfl⟩ := List.mem_map.mp mem
  have found := at?_of_mem ((expanded_rewrite expands).sound sound) visited
  rcases at?_rewrite_cases found with
    ⟨original, at?, -, rfl⟩ | ⟨outer, inner, original, new, -, at?, newEq, inNew⟩
  · obtain ⟨tidy, parts⟩ := settled original (mem_tree_of_at? at?)
    dsimp only
    rw [rewrite_eq]
    exact ⟨tidy_mapSlots.mpr tidy, plainParts_mapSlots parts fun slot c inSlot =>
      expanded_rewriteIn (expands.of_at? at?) inSlot⟩
  · exact settles outer original new at? newEq m (mem_tree_of_at? inNew)

end Settled

/-- A source has a property of places and the declarations there, unless it is known as it was. -/
def Source.Stands (root : Node) (property : Place → Node → Prop) : Source → Prop
  | .live place => ∃ n, root.at? place = some n ∧ isDeclaration n = true ∧ property place n
  | .kept _ => True

/-- Calls can be replaced in a workspace without a change of what is declared. -/
structure Workspace.Steady (workspace : Workspace) : Prop where
  sound : workspace.root.Sound
  tidy : ∀ n ∈ workspace.root.walk, n.Tidy
  parts : ∀ n ∈ workspace.root.walk, n.PlainParts
  sources : workspace.sources.Holds (Source.Stands workspace.root fun _ _ => True)

theorem steady_ofModule (imports : List Node) {root : Node} (sound : root.Sound)
    (tidy : ∀ n ∈ root.walk, n.Tidy) (parts : ∀ n ∈ root.walk, n.PlainParts) (options : Options) :
    (Workspace.ofModule imports root options).Steady where
  sound := sound
  tidy := tidy
  parts := parts
  sources := by
    rw [Workspace.ofModule, registerNodes, Registry.holds_map]
    refine Registry.holds_ofList fun d mem => ?_
    obtain ⟨pair, pairMem, rfl⟩ := List.mem_map.mp mem
    rcases List.mem_append.mp pairMem with imported | own
    · obtain ⟨n, -, rfl⟩ := List.mem_map.mp imported
      trivial
    · obtain ⟨⟨place, n⟩, found, rfl⟩ := List.mem_map.mp own
      obtain ⟨visited, declares⟩ := List.mem_filter.mp found
      exact ⟨n, root.at?_of_mem sound visited, declares, trivial⟩

theorem Workspace.Steady.settled {workspace : Workspace} (steady : workspace.Steady) :
    workspace.root.Settled := by
  intro m mem
  rw [← workspace.root.walk_eq_tree] at mem
  exact ⟨steady.tidy m mem, steady.parts m mem⟩

variable {workspace : Workspace} {n c new : Node} {place : Place} {move : Replacement}

/-- A declaration that is kept declares what it did. -/
theorem declaration_rewrite {replace : Place → Node → Option Node} (steady : workspace.Steady)
    (expands : workspace.root.Expands replace)
    (found : workspace.root.at? place = some n) (declares : isDeclaration n = true)
    (kept : workspace.root.Kept replace place) :
    Source.declaration (workspace.root.rewrite replace) (.live place) = Declaration.ofNode n := by
  rw [Source.declaration, at?_rewrite kept, found, Option.map_some, Option.getD_some, rewrite_eq]
  exact declaration_mapSlots (steady.sound.of_at? found) declares
    (steady.parts n (mem_walk_of_at? found)) fun slot c inSlot =>
      expanded_rewriteIn (expands.of_at? found) inSlot

/-- The node at a place is replaced, and no other. -/
def replaceOnly (target : Place) (new : Node) (place : Place) (_ : Node) : Option Node :=
  if place = target then some new else none

theorem root_replace (sound : workspace.root.Sound)
    (found : workspace.root.at? move.target = some c) (new : Node) :
    (workspace.replace move new).root =
      workspace.root.rewrite (replaceOnly move.target new) := by
  have idle : workspace.root.Kept (fun _ _ => none) move.parent := fun _ _ _ _ _ _ => rfl
  have filled := modifyAt_rewrite sound idle found new
  rw [rewrite_of_forall_none sound fun _ _ _ => rfl] at filled
  exact filled

private theorem kept_replaceOnly {target : Place} (apart : ¬target <+: place) :
    n.Kept (replaceOnly target new) place := by
  rintro outer inner m - rfl -
  refine if_neg ?_
  rintro rfl
  exact apart (List.prefix_append _ _)

/-- A source after a replacement.  One whose place is lost is known as it was. -/
def Source.relocate (root : Node) (replacement : Replacement) : Source → Source
  | .kept declaration => .kept declaration
  | .live place =>
      match replacement.relocate place with
      | some place => .live place
      | none => .kept ((Source.live place).declaration root)

@[simp]
theorem sources_replace (workspace : Workspace) (replacement : Replacement) (new : Node) :
    (workspace.replace replacement new).sources =
      workspace.sources.map (Source.relocate workspace.root replacement) := by
  refine congrArg workspace.sources.map (funext fun source => ?_)
  cases source <;> rfl

/-- What a replacement reuses of a call stands in the new node as it stood in the call. -/
def Replacement.Reuses (move : Replacement) (c new : Node) : Prop :=
  ∀ old inner, move.reused = some (old, inner) →
    ∃ part, c.at? old = some part ∧ new.at? inner = some part

/-- A call can be replaced by a node. -/
structure Replaceable (move : Replacement) (c new : Node) : Prop where
  isCall : c.kind = .callExpression
  plain : new.Plain
  settled : new.Settled
  reuses : move.Reuses c new

theorem Replaceable.expands (replaceable : Replaceable move c new) {root : Node}
    (found : root.at? move.target = some c) : root.Expands (replaceOnly move.target new) := by
  intro place d r at? replaced
  rw [replaceOnly] at replaced
  split at replaced
  · rename_i here
    obtain rfl := Option.some_inj.mp replaced
    rw [here, found] at at?
    obtain rfl := Option.some_inj.mp at?
    exact ⟨replaceable.isCall, replaceable.plain⟩
  · cases replaced

/-- A source gives the same declaration after a replacement, from where it stands then. -/
theorem source_relocate (steady : workspace.Steady)
    (found : workspace.root.at? move.target = some c) (replaceable : Replaceable move c new)
    {source : Source} (stands : source.Stands workspace.root fun _ _ => True) :
    ((source.relocate workspace.root move).Stands (workspace.replace move new).root
        fun _ _ => True) ∧
      (source.relocate workspace.root move).declaration (workspace.replace move new).root =
        source.declaration workspace.root := by
  have expands := replaceable.expands found
  cases source with
  | kept declaration => exact ⟨trivial, rfl⟩
  | live place =>
      obtain ⟨n, at?, declares, -⟩ := stands
      rw [Source.relocate, root_replace steady.sound found]
      have here : Source.declaration workspace.root (.live place) = Declaration.ofNode n := by
        rw [Source.declaration, at?, Option.getD_some]
      by_cases covered : move.target <+: place
      · obtain ⟨inner, rfl⟩ := covered
        cases moved : move.relocate (move.target ++ inner) with
        | none => exact ⟨trivial, rfl⟩
        | some place =>
            -- The declaration stands in the part that is reused.
            rw [relocate_target_append, Option.bind_eq_some_iff] at moved
            obtain ⟨⟨old, inNew⟩, reused, moved⟩ := moved
            obtain ⟨rest, below, rfl⟩ := Option.map_eq_some_iff.mp moved
            obtain rfl := below?_eq_some_iff.mp below
            obtain ⟨part, oldAt, newAt⟩ := replaceable.reuses old inNew reused
            rw [at?_append, found, Option.bind_some, at?_append, oldAt, Option.bind_some] at at?
            have newFound : (workspace.root.rewrite (replaceOnly move.target new)).at?
                move.target = some new := by
              have apart : ¬move.target <+: move.parent := by
                rintro ⟨rest, eq⟩
                simpa [Replacement.target] using congrArg List.length eq
              exact at?_rewrite_of_replaced (kept_replaceOnly apart) found (if_pos rfl)
            have after : (workspace.root.rewrite (replaceOnly move.target new)).at?
                (move.target ++ (inNew ++ rest)) = some n := by
              rw [at?_append, newFound, Option.bind_some, at?_append, newAt, Option.bind_some, at?]
            refine ⟨⟨n, after, declares, trivial⟩, ?_⟩
            rw [here, Source.declaration, after, Option.getD_some]
      · rw [relocate_of_apart found at? covered]
        have kept : workspace.root.Kept (replaceOnly move.target new) place :=
          kept_replaceOnly covered
        refine ⟨⟨_, (at?_rewrite kept).trans (congrArg _ at?), ?_, trivial⟩, ?_⟩
        · dsimp only
          rw [isDeclaration, rewrite_eq, kind_mapSlots]
          exact declares
        · rw [declaration_rewrite steady expands at? declares kept, here]

/-- A workspace stays steady when a call in it is replaced, and types are resolved as before. -/
theorem Workspace.Steady.replace (steady : workspace.Steady)
    (found : workspace.root.at? move.target = some c) (replaceable : Replaceable move c new) :
    (workspace.replace move new).Steady ∧
      (workspace.replace move new).registry = workspace.registry := by
  have expands := replaceable.expands found
  have rootEq := root_replace steady.sound found new
  have settled : (workspace.replace move new).root.Settled := by
    rw [rootEq]
    refine steady.settled.rewrite steady.sound expands fun place d r _ replaced => ?_
    rw [replaceOnly] at replaced
    split at replaced
    · obtain rfl := Option.some_inj.mp replaced
      exact replaceable.settled
    · cases replaced
  constructor
  · constructor
    case sound =>
      rw [rootEq]
      exact (expanded_rewrite expands).sound steady.sound
    case tidy => exact fun n mem => (settled n (walk_eq_tree _ ▸ mem)).1
    case parts => exact fun n mem => (settled n (walk_eq_tree _ ▸ mem)).2
    case sources =>
      rw [sources_replace, Registry.holds_map]
      exact steady.sources.imp fun source stands =>
        (source_relocate steady found replaceable stands).1
  · rw [Workspace.registry, Workspace.registry, sources_replace, Registry.map_map]
    exact Registry.map_congr (steady.sources.imp fun source stands =>
      (source_relocate steady found replaceable stands).2)

end PropValidators
