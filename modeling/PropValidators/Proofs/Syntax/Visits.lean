import PropValidators.Proofs.Syntax.Rewriting

/-!
# Visiting a tree slot by slot

A tree is visited from its root down, one child after the other.  So no place is visited twice, and
what is collected on the way is the same in a rewritten tree if it is the same at every node that is
kept and in everything that replaces something.
-/

namespace PropValidators.Ast.Node

theorem itemPlaces_eq_flatMap (outer : Place) (field : FieldName) (items : List Value)
    (start : Nat) :
    itemPlaces outer field start items =
      (childrenInList field start items).flatMap fun child =>
        child.2.places (outer ++ [child.1]) := by
  induction items generalizing start with
  | nil => rfl
  | cons item items ih =>
      rw [itemPlaces, ih]
      cases item with
      | node c =>
          rw [childrenInList, List.flatMap_cons]
          rfl
      | list others => rfl
      | data json => rfl

/-- The nodes of a tree are visited slot by slot. -/
theorem places_eq_flatMap (n : Node) (outer : Place) :
    n.places outer =
      (outer, n) :: n.slots.flatMap fun child => child.2.places (outer ++ [child.1]) := by
  obtain ⟨type, fields⟩ := n
  rw [places, fieldPlaces_eq_flatMap, slots, List.flatMap_assoc]
  refine congrArg (List.cons _) (List.flatMap_congr fun field _ => ?_)
  obtain ⟨name, value⟩ := field
  cases value with
  | node c => exact (List.flatMap_singleton _ _).symm
  | list items => exact itemPlaces_eq_flatMap outer name items 0
  | data json => rfl

theorem tree_eq_flatMap (n : Node) : n.tree = n :: n.slots.flatMap fun child => child.2.tree := by
  rw [← n.map_snd_places [], places_eq_flatMap, List.map_cons, List.map_flatMap]
  refine congrArg (List.cons n) (List.flatMap_congr fun child _ => ?_)
  exact child.2.map_snd_places _

private theorem childrenInList_mapNode (change : Slot → Node → Node) (field : FieldName)
    (items : List Value) (start : Nat) :
    childrenInList field start (items.mapIdx fun i item =>
        item.mapNode (change ⟨field, some (start + i)⟩)) =
      (childrenInList field start items).map fun child => (child.1, change child.1 child.2) := by
  induction items generalizing start with
  | nil => rfl
  | cons item items ih =>
      have rest := ih (start + 1)
      simp only [Nat.add_assoc, Nat.add_comm 1] at rest
      rw [List.mapIdx_cons]
      cases item with
      | node c => exact congrArg (List.cons _) rest
      | list others => exact rest
      | data json => exact rest

@[simp]
theorem slots_mapSlots (change : Slot → Node → Node) (n : Node) :
    (n.mapSlots change).slots =
      n.slots.map fun child => (child.1, change child.1 child.2) := by
  obtain ⟨type, fields⟩ := n
  rw [slots, slots, mapSlots, List.flatMap_map, List.map_flatMap]
  refine List.flatMap_congr fun field _ => ?_
  obtain ⟨name, value⟩ := field
  cases value with
  | node c => rfl
  | data json => rfl
  | list items =>
      have changed := childrenInList_mapNode change name items 0
      simp only [Nat.zero_add] at changed
      exact changed

variable {n m root : Node} {place outer : Place}

private theorem nodup_childrenInList (field : FieldName) (items : List Value) (start : Nat) :
    ((childrenInList field start items).map Prod.fst).Nodup := by
  induction items generalizing start with
  | nil => exact List.nodup_nil
  | cons item items ih =>
      cases item with
      | node c =>
          rw [childrenInList, List.map_cons, List.nodup_cons]
          refine ⟨fun mem => ?_, ih (start + 1)⟩
          obtain ⟨⟨slot, d⟩, later, slotEq⟩ := List.mem_map.mp mem
          obtain ⟨i, rfl, -⟩ := mem_childrenInList.mp later
          simp at slotEq
          omega
      | list others => exact ih (start + 1)
      | data json => exact ih (start + 1)

/-- The children of a node stand in different slots. -/
theorem nodup_slots (nodup : (n.fields.map Prod.fst).Nodup) : (n.slots.map Prod.fst).Nodup := by
  rw [slots, List.map_flatMap, List.nodup_flatMap]
  constructor
  · rintro ⟨name, value⟩ -
    cases value with
    | node c => exact List.nodup_singleton _
    | list items => exact nodup_childrenInList name items 0
    | data json => exact List.nodup_nil
  · rw [List.Nodup, List.pairwise_map] at nodup
    refine nodup.imp fun {field other} apart => ?_
    have named : ∀ (field : FieldName × Value) (slot : Slot),
        slot ∈ (Node.mk n.type [field]).slots.map Prod.fst → slot.field = field.1 := by
      intro field slot mem
      have single : ((Node.mk n.type [field]).fields.map Prod.fst).Nodup :=
        List.nodup_singleton field.1
      obtain ⟨⟨_, c⟩, inSlots, rfl⟩ := List.mem_map.mp mem
      obtain ⟨_, inField, -⟩ := exists_mem_of_inSlot? ((mem_slots_iff single).mp inSlots)
      exact congrArg Prod.fst (List.mem_singleton.mp inField)
    simp only [slots, List.flatMap_singleton] at named
    intro slot here there
    exact apart ((named field slot here).symm.trans (named other slot there))

theorem nodup_places (sound : n.Sound) (outer : Place) :
    ((n.places outer).map Prod.fst).Nodup := by
  induction sizeEq : sizeOf n using Nat.strong_induction_on generalizing n outer with
  | _ size ih =>
      subst sizeEq
      have inSlot := fun child (mem : child ∈ n.slots) =>
        (mem_slots_iff sound.layout.nodup).mp mem
      -- The places below a child begin with the slot of the child.
      have below : ∀ child ∈ n.slots, ∀ place ∈
          (child.2.places (outer ++ [child.1])).map Prod.fst,
          ∃ rest, place = outer ++ child.1 :: rest := by
        rintro child mem place visited
        obtain ⟨⟨_, m⟩, inChild, rfl⟩ := List.mem_map.mp visited
        obtain ⟨rest, eq, -⟩ :=
          child.2.at?_of_mem_places (sound.of_inSlot? (inSlot child mem)) inChild
        exact ⟨rest, by simpa using eq⟩
      rw [places_eq_flatMap, List.map_cons, List.map_flatMap, List.nodup_cons,
        List.nodup_flatMap]
      refine ⟨fun mem => ?_, fun child mem => ?_, ?_⟩
      · obtain ⟨child, childMem, visited⟩ := List.mem_flatMap.mp mem
        obtain ⟨rest, eq⟩ := below child childMem outer visited
        simpa using congrArg List.length eq
      · exact ih _ (sizeOf_inSlot? (inSlot child mem)) (sound.of_inSlot? (inSlot child mem)) _ rfl
      · have apart := nodup_slots sound.layout.nodup
        rw [List.Nodup, List.pairwise_map] at apart
        refine apart.imp_of_mem fun {child other} childMem otherMem apart place here there => ?_
        obtain ⟨rest, rfl⟩ := below child childMem place here
        obtain ⟨others, eq⟩ := below other otherMem _ there
        exact apart (List.cons.inj (List.append_cancel_left eq)).1

/-- What is collected from the nodes of a tree is the same after a rewriting, if it is the same for
the nodes that are kept and for what replaces something. -/
theorem flatMap_tree_rewrite {β : Type} (collect : Node → List β)
    {replace : Place → Node → Option Node} (sound : n.Sound)
    (kept : ∀ place m, n.at? place = some m → n.Kept replace place →
      collect (m.rewrite fun inner => replace (place ++ inner)) = collect m)
    (replaced : ∀ place m new, n.at? place = some m → replace place m = some new →
      new.tree.flatMap collect = m.tree.flatMap collect) :
    (n.rewrite replace).tree.flatMap collect = n.tree.flatMap collect := by
  induction sizeEq : sizeOf n using Nat.strong_induction_on generalizing n replace with
  | _ size ih =>
      subst sizeEq
      have here := kept [] n rfl kept_nil
      simp only [List.nil_append] at here
      rw [tree_eq_flatMap, tree_eq_flatMap n, List.flatMap_cons, List.flatMap_cons, here,
        rewrite_eq, slots_mapSlots, List.flatMap_map, List.flatMap_assoc, List.flatMap_assoc]
      refine congrArg (collect n ++ ·) (List.flatMap_congr fun child mem => ?_)
      obtain ⟨slot, c⟩ := child
      have inSlot := (mem_slots_iff sound.layout.nodup).mp mem
      have found : n.at? [slot] = some c := by
        rw [at?, inSlot]
        rfl
      dsimp only
      rw [rewriteIn]
      cases replacedHere : replace [slot] c with
      | some new => exact replaced [slot] c new found replacedHere
      | none =>
          refine ih _ (sizeOf_inSlot? inSlot) (sound.of_inSlot? inSlot) ?_ ?_ rfl
          · intro place m at? keptBelow
            refine kept (slot :: place) m ?_ (kept_cons inSlot replacedHere keptBelow)
            rw [Node.at?, inSlot]
            exact at?
          · intro place m new at? newEq
            refine replaced (slot :: place) m new ?_ newEq
            rw [Node.at?, inSlot]
            exact at?

end PropValidators.Ast.Node
