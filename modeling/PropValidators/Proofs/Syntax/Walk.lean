import PropValidators.Ast.Place
import PropValidators.Proofs.Syntax.Sound

/-!
# The walk through a tree

The nodes of a tree in pre-order, by recursion on the tree and without their places.  In a
sound tree the places of the walk are right: each of them leads to the node that it was
given with.
-/

namespace PropValidators.Ast

mutual

/-- The nodes of a tree in pre-order. -/
def Node.tree : Node → List Node
  | ⟨type, fields⟩ => ⟨type, fields⟩ :: treeOfFields fields
termination_by structural n => n

/-- The nodes below the value of a field. -/
def Value.tree : Value → List Node
  | .node n => n.tree
  | .list items => treeOfItems items
  | .data _ => []
termination_by structural value => value

/-- The nodes below an item of a list. -/
def Value.treeInList : Value → List Node
  | .node n => n.tree
  | .list _ => []
  | .data _ => []
termination_by structural value => value

/-- The nodes below the items of a list. -/
def treeOfItems : List Value → List Node
  | [] => []
  | item :: items => item.treeInList ++ treeOfItems items
termination_by structural items => items

/-- The nodes below the fields of a node. -/
def treeOfFields : List (FieldName × Value) → List Node
  | [] => []
  | (_, value) :: fields => value.tree ++ treeOfFields fields
termination_by structural fields => fields

end

mutual

theorem Node.map_snd_places : (n : Node) → ∀ place, (n.places place).map Prod.snd = n.tree
  | ⟨type, fields⟩, place => by
      rw [Node.places, Node.tree, List.map_cons, map_snd_fieldPlaces fields place]
termination_by structural n => n

theorem Value.map_snd_places : (value : Value) → ∀ place name,
    (value.places place name).map Prod.snd = value.tree
  | .node n, _, _ => n.map_snd_places _
  | .list items, place, name => map_snd_itemPlaces items place name 0
  | .data _, _, _ => rfl
termination_by structural value => value

theorem Value.map_snd_placesInList : (value : Value) → ∀ place name index,
    (value.placesInList place name index).map Prod.snd = value.treeInList
  | .node n, _, _, _ => n.map_snd_places _
  | .list _, _, _, _ => rfl
  | .data _, _, _, _ => rfl
termination_by structural value => value

private theorem map_snd_itemPlaces : (items : List Value) → ∀ place name index,
    (itemPlaces place name index items).map Prod.snd = treeOfItems items
  | [], _, _, _ => rfl
  | item :: items, place, name, index => by
      rw [itemPlaces, treeOfItems, List.map_append, item.map_snd_placesInList,
        map_snd_itemPlaces items]
termination_by structural items => items

private theorem map_snd_fieldPlaces : (fields : List (FieldName × Value)) → ∀ place,
    (fieldPlaces place fields).map Prod.snd = treeOfFields fields
  | [], _ => rfl
  | (name, value) :: fields, place => by
      rw [fieldPlaces, treeOfFields, List.map_append, value.map_snd_places,
        map_snd_fieldPlaces fields]
termination_by structural fields => fields

end

@[simp]
theorem Node.walk_eq_tree (n : Node) : n.walk = n.tree :=
  n.map_snd_places []

/-- The node in a value at an index of its list, or the node that the value is. -/
def Value.pick? (value : Value) : Option Nat → Option Node
  | none => value.node?
  | some i => (value.list?.getD [])[i]?.bind Value.node?

theorem Node.inSlot?_of_field? {n : Node} {slot : Slot} {value : Value}
    (held : n.field? slot.field = some value) : n.inSlot? slot = value.pick? slot.index := by
  rw [inSlot?, held]
  cases slot.index <;> rfl

/-- A place leads from an outer place over a slot of a value down to a node. -/
def LeadsFrom (outer : Place) (name : FieldName) (value : Value) (place : Place) (m : Node) :
    Prop :=
  ∃ index child rest, place = outer ++ ⟨name, index⟩ :: rest ∧ value.pick? index = some child ∧
    child.at? rest = some m

private theorem leadsFrom_of_node {outer : Place} {name : FieldName} {value : Value}
    {index : Option Nat} {child : Node} (picked : value.pick? index = some child)
    {place : Place} {m : Node}
    (leads : ∃ rest, place = (outer ++ [⟨name, index⟩]) ++ rest ∧ child.at? rest = some m) :
    LeadsFrom outer name value place m := by
  obtain ⟨rest, rfl, found⟩ := leads
  refine ⟨index, child, rest, ?_, picked, found⟩
  rw [List.append_assoc, List.singleton_append]

mutual

theorem Node.at?_of_mem_places : (n : Node) → n.Sound → ∀ {outer place : Place} {m : Node},
    (place, m) ∈ n.places outer → ∃ rest, place = outer ++ rest ∧ n.at? rest = some m
  | ⟨type, fields⟩, sound, outer, place, m, mem => by
      rw [Node.places] at mem
      rcases List.mem_cons.mp mem with self | below
      · cases self
        exact ⟨[], (List.append_nil outer).symm, rfl⟩
      · obtain ⟨name, value, fieldMem, index, child, rest, rfl, picked, found⟩ :=
          leadsFrom_of_mem_fieldPlaces fields sound.2 below
        have held : Node.field? ⟨type, fields⟩ name = some value := by
          rw [Node.field?, find?_of_mem sound.1.nodup fieldMem]
          rfl
        refine ⟨⟨name, index⟩ :: rest, rfl, ?_⟩
        rw [Node.at?, Node.inSlot?_of_field? held, picked]
        exact found
termination_by structural n => n

theorem Value.leadsFrom_of_mem_places : (value : Value) → ∀ {type : Option FieldType},
    value.Fits type → ∀ {outer place : Place} {name : FieldName} {m : Node},
      (place, m) ∈ value.places outer name → LeadsFrom outer name value place m
  | .node n, _, fits, outer, place, name, m, mem =>
      leadsFrom_of_node rfl (n.at?_of_mem_places fits.2 mem)
  | .list items, _, ⟨_, _, fits⟩, outer, place, name, m, mem => by
      obtain ⟨i, child, picked, leads⟩ := leadsFrom_of_mem_itemPlaces items fits mem
      apply leadsFrom_of_node _ leads
      rw [Value.pick?, Value.list?, Option.getD_some, Nat.zero_add, picked]
      rfl
  | .data _, _, _, _, _, _, _, mem => by cases mem
termination_by structural value => value

theorem Value.leadsFrom_of_mem_placesInList : (value : Value) → ∀ {type : Option FieldType},
    value.Fits type → ∀ {outer place : Place} {name : FieldName} {index : Nat} {m : Node},
      (place, m) ∈ value.placesInList outer name index →
        ∃ child, value = .node child ∧
          ∃ rest, place = (outer ++ [⟨name, some index⟩]) ++ rest ∧ child.at? rest = some m
  | .node n, _, fits, outer, place, name, index, m, mem =>
      ⟨n, rfl, n.at?_of_mem_places fits.2 mem⟩
  | .list _, _, _, _, _, _, _, _, mem => by cases mem
  | .data _, _, _, _, _, _, _, _, mem => by cases mem
termination_by structural value => value

private theorem leadsFrom_of_mem_itemPlaces : (items : List Value) → ∀ {type : Option FieldType},
    FitItems type items → ∀ {outer place : Place} {name : FieldName} {index : Nat} {m : Node},
      (place, m) ∈ itemPlaces outer name index items →
        ∃ i child, items[i]? = some (.node child) ∧
          ∃ rest, place = (outer ++ [⟨name, some (index + i)⟩]) ++ rest ∧ child.at? rest = some m
  | [], _, _, _, _, _, _, _, mem => by cases mem
  | item :: items, _, fits, outer, place, name, index, m, mem => by
      rw [itemPlaces] at mem
      rcases List.mem_append.mp mem with inItem | inRest
      · obtain ⟨child, itemEq, leads⟩ := item.leadsFrom_of_mem_placesInList fits.1 inItem
        exact ⟨0, child, congrArg some itemEq, leads⟩
      · obtain ⟨i, child, picked, leads⟩ := leadsFrom_of_mem_itemPlaces items fits.2 inRest
        refine ⟨i + 1, child, picked, ?_⟩
        rw [← Nat.add_assoc, Nat.add_right_comm]
        exact leads
termination_by structural items => items

private theorem leadsFrom_of_mem_fieldPlaces : (fields : List (FieldName × Value)) →
    ∀ {kind : Kind}, SoundFields kind fields → ∀ {outer place : Place} {m : Node},
      (place, m) ∈ fieldPlaces outer fields →
        ∃ name value, (name, value) ∈ fields ∧ LeadsFrom outer name value place m
  | [], _, _, _, _, _, mem => by cases mem
  | (name, value) :: fields, _, sound, outer, place, m, mem => by
      rw [fieldPlaces] at mem
      rcases List.mem_append.mp mem with inValue | inRest
      · exact ⟨name, value, List.mem_cons_self, value.leadsFrom_of_mem_places sound.1 inValue⟩
      · obtain ⟨other, held, fieldMem, leads⟩ := leadsFrom_of_mem_fieldPlaces fields sound.2 inRest
        exact ⟨other, held, List.mem_cons_of_mem _ fieldMem, leads⟩
termination_by structural fields => fields

end

/-- The places of a sound tree lead to their nodes. -/
theorem Node.at?_of_mem {root m : Node} {place : Place} (sound : root.Sound)
    (mem : (place, m) ∈ root.places []) : root.at? place = some m := by
  obtain ⟨rest, rfl, found⟩ := root.at?_of_mem_places sound mem
  exact found

mutual

theorem Node.sound_of_mem_tree : (n : Node) → n.Sound → ∀ m ∈ n.tree, m.Sound
  | ⟨_, fields⟩, sound => List.forall_mem_cons.mpr ⟨sound, sound_of_mem_treeOfFields fields sound.2⟩
termination_by structural n => n

theorem Value.sound_of_mem_tree : (value : Value) → ∀ {type : Option FieldType}, value.Fits type →
    ∀ m ∈ value.tree, m.Sound
  | .node n, _, fits => n.sound_of_mem_tree fits.2
  | .list items, _, ⟨_, _, fits⟩ => sound_of_mem_treeOfItems items fits
  | .data _, _, _ => by simp [Value.tree]
termination_by structural value => value

theorem Value.sound_of_mem_treeInList : (value : Value) → ∀ {type : Option FieldType},
    value.Fits type → ∀ m ∈ value.treeInList, m.Sound
  | .node n, _, fits => n.sound_of_mem_tree fits.2
  | .list _, _, _ => by simp [Value.treeInList]
  | .data _, _, _ => by simp [Value.treeInList]
termination_by structural value => value

private theorem sound_of_mem_treeOfItems : (items : List Value) → ∀ {type : Option FieldType},
    FitItems type items → ∀ m ∈ treeOfItems items, m.Sound
  | [], _, _ => by simp [treeOfItems]
  | item :: items, _, fits => by
      rw [treeOfItems, List.forall_mem_append]
      exact ⟨item.sound_of_mem_treeInList fits.1, sound_of_mem_treeOfItems items fits.2⟩
termination_by structural items => items

private theorem sound_of_mem_treeOfFields : (fields : List (FieldName × Value)) → ∀ {kind : Kind},
    SoundFields kind fields → ∀ m ∈ treeOfFields fields, m.Sound
  | [], _, _ => by simp [treeOfFields]
  | (_, value) :: fields, _, sound => by
      rw [treeOfFields, List.forall_mem_append]
      exact ⟨value.sound_of_mem_tree sound.1, sound_of_mem_treeOfFields fields sound.2⟩
termination_by structural fields => fields

end

end PropValidators.Ast
