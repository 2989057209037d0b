import PropValidators.Proofs.Syntax.SetField
import PropValidators.Proofs.Syntax.Below

/-!
# The children of a node

The children of a node stand in its slots.  They can be changed all at once, each depending on its
slot; nothing else in the node changes then.  Filling one slot is the same as changing the child
in it.
-/

namespace PropValidators.Ast

namespace Value

/-- A value with the node that it is changed. -/
def mapNode (change : Node → Node) : Value → Value
  | .node c => .node (change c)
  | .list items => .list items
  | .data json => .data json

/-- A value with the node that it is changed, or the nodes in its list. -/
def mapNodes (change : Option Nat → Node → Node) : Value → Value
  | .node c => .node (change none c)
  | .list items => .list (items.mapIdx fun i item => item.mapNode (change (some i)))
  | .data json => .data json

variable {change other : Option Nat → Node → Node}

@[simp]
theorem node?_mapNode (change : Node → Node) (item : Value) :
    (item.mapNode change).node? = item.node?.map change := by
  cases item <;> rfl

@[simp]
theorem pick?_mapNodes (change : Option Nat → Node → Node) (value : Value) (index : Option Nat) :
    (value.mapNodes change).pick? index = (value.pick? index).map (change index) := by
  cases value with
  | node c => cases index <;> simp [mapNodes, pick?, node?, list?]
  | data data => cases index <;> simp [mapNodes, pick?, node?, list?]
  | list items =>
      cases index with
      | none => rfl
      | some i =>
          change ((items.mapIdx _)[i]?).bind node? = (items[i]?.bind node?).map (change (some i))
          rw [List.getElem?_mapIdx]
          cases items[i]? with
          | none => rfl
          | some item => exact node?_mapNode _ item

theorem mapNode_congr {change other : Node → Node} {item : Value}
    (same : ∀ c, item = .node c → change c = other c) :
    item.mapNode change = item.mapNode other := by
  cases item with
  | node c => exact congrArg Value.node (same c rfl)
  | list items => rfl
  | data data => rfl

theorem mapNodes_congr {value : Value}
    (same : ∀ index c, value.pick? index = some c → change index c = other index c) :
    value.mapNodes change = value.mapNodes other := by
  cases value with
  | node c => exact congrArg Value.node (same none c rfl)
  | data data => rfl
  | list items =>
      refine congrArg Value.list (List.ext_getElem? fun i => ?_)
      rw [List.getElem?_mapIdx, List.getElem?_mapIdx]
      cases itemEq : items[i]? with
      | none => rfl
      | some item =>
          refine congrArg some (mapNode_congr fun c nodeEq => same (some i) c ?_)
          rw [pick?, list?, Option.getD_some, itemEq, nodeEq]
          rfl

@[simp]
theorem mapNode_id (item : Value) : item.mapNode (fun c => c) = item := by
  cases item <;> rfl

@[simp]
theorem mapNode_mapNode (change other : Node → Node) (item : Value) :
    (item.mapNode change).mapNode other = item.mapNode fun c => other (change c) := by
  cases item <;> rfl

@[simp]
theorem mapNodes_mapNodes (change other : Option Nat → Node → Node) (value : Value) :
    (value.mapNodes change).mapNodes other =
      value.mapNodes fun index c => other index (change index c) := by
  cases value with
  | node c => rfl
  | data json => rfl
  | list items =>
      refine congrArg Value.list (List.mapIdx_mapIdx.trans ?_)
      exact congrArg (fun f => items.mapIdx f) (funext₂ fun i item => mapNode_mapNode _ _ item)

@[simp]
theorem mapNodes_id (value : Value) : value.mapNodes (fun _ c => c) = value := by
  cases value with
  | node c => rfl
  | data data => rfl
  | list items => simp [mapNodes, List.mapIdx_eq_zipIdx_map]

/-- A node in a value is the value, or an item of its list. -/
theorem pick?_eq_some {value : Value} {index : Option Nat} {c : Node}
    (picked : value.pick? index = some c) :
    (index = none ∧ value = .node c) ∨
      ∃ i items, index = some i ∧ value = .list items ∧ items[i]? = some (.node c) := by
  cases index with
  | none => exact .inl ⟨rfl, Node.eq_node_of_node? picked⟩
  | some i =>
      obtain ⟨item, itemEq, node⟩ := Option.bind_eq_some_iff.mp picked
      obtain rfl := Node.eq_node_of_node? node
      cases value with
      | list items => exact .inr ⟨i, items, rfl, rfl, itemEq⟩
      | node m => simp [list?] at itemEq
      | data json => simp [list?] at itemEq

end Value

namespace Node

/-- A node with its children changed, each depending on its slot. -/
def mapSlots (change : Slot → Node → Node) (n : Node) : Node :=
  ⟨n.type, n.fields.map fun field =>
    (field.1, field.2.mapNodes fun index => change ⟨field.1, index⟩)⟩

variable {n c : Node} {slot : Slot} {change other : Slot → Node → Node}

@[simp]
theorem type_mapSlots (change : Slot → Node → Node) (n : Node) :
    (n.mapSlots change).type = n.type :=
  rfl

@[simp]
theorem kind_mapSlots (change : Slot → Node → Node) (n : Node) :
    (n.mapSlots change).kind = n.kind :=
  rfl

@[simp]
theorem mapSlots_id (n : Node) : n.mapSlots (fun _ c => c) = n := by
  obtain ⟨type, fields⟩ := n
  simp [mapSlots]

/-- Changing children twice is changing them once. -/
@[simp]
theorem mapSlots_mapSlots (change other : Slot → Node → Node) (n : Node) :
    (n.mapSlots change).mapSlots other = n.mapSlots fun slot c => other slot (change slot c) := by
  refine congrArg (Node.mk n.type) ((List.map_map ..).trans (List.map_congr_left fun field _ => ?_))
  exact congrArg (Prod.mk field.1) (Value.mapNodes_mapNodes (fun index => change ⟨field.1, index⟩)
    (fun index => other ⟨field.1, index⟩) field.2)

@[simp]
theorem map_fst_mapSlots (change : Slot → Node → Node) (n : Node) :
    (n.mapSlots change).fields.map Prod.fst = n.fields.map Prod.fst := by
  rw [mapSlots, List.map_map]
  rfl

@[simp]
theorem field?_mapSlots (change : Slot → Node → Node) (n : Node) (name : FieldName) :
    (n.mapSlots change).field? name =
      (n.field? name).map (Value.mapNodes fun index => change ⟨name, index⟩) := by
  obtain ⟨type, fields⟩ := n
  rw [field?, field?, mapSlots]
  dsimp only
  induction fields with
  | nil => rfl
  | cons field fields ih =>
      rw [List.map_cons, List.find?_cons, List.find?_cons]
      cases same : field.1 == name with
      | false => exact ih
      | true =>
          rw [beq_iff_eq] at same
          rw [same]
          rfl

@[simp]
theorem inSlot?_mapSlots (change : Slot → Node → Node) (n : Node) (slot : Slot) :
    (n.mapSlots change).inSlot? slot = (n.inSlot? slot).map (change slot) := by
  cases held : n.field? slot.field with
  | none =>
      have absent : (n.mapSlots change).field? slot.field = none := by
        rw [field?_mapSlots, held]
        rfl
      rw [inSlot?, inSlot?, held, absent]
      cases slot.index <;> rfl
  | some value =>
      have heldAfter : (n.mapSlots change).field? slot.field =
          some (value.mapNodes fun index => change ⟨slot.field, index⟩) := by
        rw [field?_mapSlots, held]
        rfl
      rw [inSlot?_of_field? held, inSlot?_of_field? heldAfter, Value.pick?_mapNodes]

@[simp]
theorem child?_mapSlots (change : Slot → Node → Node) (n : Node) (key : String) :
    (n.mapSlots change).child? key = (n.child? key).map (change ⟨.declared key, none⟩) :=
  inSlot?_mapSlots change n ⟨.declared key, none⟩

@[simp]
theorem text?_mapSlots (change : Slot → Node → Node) (n : Node) (key : String) :
    (n.mapSlots change).text? key = n.text? key := by
  rw [text?, text?, get?, get?, field?_mapSlots]
  rcases n.field? (.declared key) with _ | ⟨_ | _ | _⟩ <;> rfl

@[simp]
theorem flag_mapSlots (change : Slot → Node → Node) (n : Node) (key : String) :
    (n.mapSlots change).flag key = n.flag key := by
  rw [flag, flag, get?, get?, field?_mapSlots]
  rcases n.field? (.declared key) with _ | ⟨_ | _ | _⟩ <;> rfl

@[simp]
theorem number?_mapSlots (change : Slot → Node → Node) (n : Node) (key : String) :
    (n.mapSlots change).number? key = n.number? key := by
  rw [number?, number?, get?, get?, field?_mapSlots]
  rcases n.field? (.declared key) with _ | ⟨_ | _ | _⟩ <;> rfl

@[simp]
theorem hasType_mapSlots (change : Slot → Node → Node) (n : Node) (type : String) :
    (n.mapSlots change).hasType type = n.hasType type := by
  rw [hasType, hasType, type_mapSlots, child?_mapSlots, Option.isNone_map]

/-- The value of a field that is there, where no two fields have the same name. -/
theorem field?_of_mem (nodup : (n.fields.map Prod.fst).Nodup) {field : FieldName × Value}
    (mem : field ∈ n.fields) : n.field? field.1 = some field.2 := by
  obtain ⟨name, value⟩ := field
  rw [field?, find?_of_mem nodup mem]
  rfl

/-- Only the children in slots matter when all children are changed. -/
theorem mapSlots_congr (nodup : (n.fields.map Prod.fst).Nodup)
    (same : ∀ slot c, n.inSlot? slot = some c → change slot c = other slot c) :
    n.mapSlots change = n.mapSlots other := by
  refine congrArg (Node.mk n.type) (List.map_congr_left fun field mem => ?_)
  refine congrArg (Prod.mk field.1) (Value.mapNodes_congr fun index c picked => ?_)
  refine same ⟨field.1, index⟩ c ?_
  rw [inSlot?_of_field? (field?_of_mem nodup mem), picked]

theorem mem_childrenInList {field : FieldName} {items : List Value} {start : Nat} :
    (slot, c) ∈ childrenInList field start items ↔
      ∃ i, slot = ⟨field, some (start + i)⟩ ∧ items[i]? = some (.node c) := by
  induction items generalizing start with
  | nil => simp [childrenInList]
  | cons item items ih =>
      have rest : (slot, c) ∈ childrenInList field (start + 1) items ↔
          ∃ i, slot = ⟨field, some (start + (i + 1))⟩ ∧
            (item :: items)[i + 1]? = some (.node c) := by
        rw [ih]
        simp only [List.getElem?_cons_succ, Nat.add_assoc, Nat.add_comm 1]
      have split : (∃ i, slot = ⟨field, some (start + i)⟩ ∧ (item :: items)[i]? = some (.node c)) ↔
          (slot = ⟨field, some start⟩ ∧ item = .node c) ∨
            ∃ i, slot = ⟨field, some (start + (i + 1))⟩ ∧
              (item :: items)[i + 1]? = some (.node c) := by
        constructor
        · rintro ⟨_ | i, slotEq, itemEq⟩
          · exact .inl ⟨slotEq, by simpa using itemEq⟩
          · exact .inr ⟨i, slotEq, itemEq⟩
        · rintro (⟨slotEq, itemEq⟩ | ⟨i, slotEq, itemEq⟩)
          · exact ⟨0, slotEq, congrArg some itemEq⟩
          · exact ⟨i + 1, slotEq, itemEq⟩
      rw [split, ← rest]
      cases item with
      | node m => simp [childrenInList, eq_comm]
      | list others => simp [childrenInList]
      | data data => simp [childrenInList]

/-- A child in a slot stands in the value of a field. -/
theorem exists_held_of_inSlot? (found : n.inSlot? slot = some c) :
    ∃ value, n.field? slot.field = some value ∧ value.pick? slot.index = some c := by
  cases held : n.field? slot.field with
  | some value =>
      rw [inSlot?_of_field? held] at found
      exact ⟨value, rfl, found⟩
  | none =>
      rw [inSlot?, held] at found
      cases index : slot.index <;> simp [index] at found

theorem exists_mem_of_inSlot? (found : n.inSlot? slot = some c) :
    ∃ value, (slot.field, value) ∈ n.fields ∧ value.pick? slot.index = some c := by
  obtain ⟨value, held, picked⟩ := exists_held_of_inSlot? found
  obtain ⟨⟨name, _⟩, fieldFound, rfl⟩ := Option.map_eq_some_iff.mp held
  obtain rfl : name = slot.field := by simpa using List.find?_some fieldFound
  exact ⟨_, List.mem_of_find?_eq_some fieldFound, picked⟩

/-- The children and their slots are those that are found in slots. -/
theorem mem_slots_iff (nodup : (n.fields.map Prod.fst).Nodup) :
    (slot, c) ∈ n.slots ↔ n.inSlot? slot = some c := by
  have inField : ∀ field : FieldName × Value, (slot, c) ∈ (match field.2 with
      | .node child => [((⟨field.1, none⟩ : Slot), child)]
      | .list items => childrenInList field.1 0 items
      | .data _ => []) ↔ slot.field = field.1 ∧ field.2.pick? slot.index = some c := by
    rintro ⟨name, value⟩
    obtain ⟨slotField, index⟩ := slot
    cases value with
    | node child =>
        rw [List.mem_singleton, Prod.mk.injEq, Slot.mk.injEq]
        cases index <;> simp [Value.pick?, Value.node?, Value.list?, eq_comm]
    | list items =>
        rw [mem_childrenInList]
        cases index with
        | none => simp [Value.pick?, Value.node?]
        | some i =>
            simp only [Slot.mk.injEq, Nat.zero_add, Option.some_inj]
            constructor
            · rintro ⟨_, ⟨rfl, rfl⟩, itemEq⟩
              refine ⟨rfl, ?_⟩
              rw [Value.pick?, Value.list?, Option.getD_some, itemEq]
              rfl
            · rintro ⟨rfl, picked⟩
              obtain ⟨item, itemEq, node⟩ := Option.bind_eq_some_iff.mp picked
              exact ⟨i, ⟨rfl, rfl⟩, eq_node_of_node? node ▸ itemEq⟩
    | data json => cases index <;> simp [Value.pick?, Value.node?, Value.list?]
  rw [slots, List.mem_flatMap]
  constructor
  · rintro ⟨field, mem, inside⟩
    obtain ⟨fieldEq, picked⟩ := (inField field).mp inside
    rw [inSlot?_of_field? (fieldEq ▸ field?_of_mem nodup mem), picked]
  · intro found
    obtain ⟨value, mem, picked⟩ := exists_mem_of_inSlot? found
    exact ⟨(slot.field, value), mem, (inField _).mpr ⟨rfl, picked⟩⟩

/-- A field that is there is set in its place. -/
theorem fields_setField (layout : Layout n.kind (n.fields.map Prod.fst)) {name : FieldName}
    (mem : name ∈ n.fields.map Prod.fst) (value : Value) :
    (n.setField name value).fields =
      n.fields.map fun field => if field.1 = name then (name, value) else field := by
  have nodup := layout.nodup
  obtain ⟨before, old, after, fieldsEq, -, putEq⟩ :=
    exists_putField_of_mem (pairwise_rank_of_layout layout) mem value
  rw [setField, putEq]
  rw [fieldsEq, List.map_append, List.map_cons] at nodup
  rw [fieldsEq, List.map_append, List.map_cons, if_pos rfl]
  have apart : ∀ field ∈ before ++ after, field.1 ≠ name := by
    rintro field fieldMem rfl
    rw [List.nodup_append, List.nodup_cons] at nodup
    rcases List.mem_append.mp fieldMem with inBefore | inAfter
    · exact nodup.2.2 _ (List.mem_map_of_mem inBefore) _ List.mem_cons_self rfl
    · exact nodup.2.1.1 (show field.1 ∈ after.map Prod.fst from List.mem_map_of_mem inAfter)
  rw [List.forall_mem_append] at apart
  have kept : ∀ fields : List (FieldName × Value), (∀ field ∈ fields, field.1 ≠ name) →
      (fields.map fun field => if field.1 = name then (name, value) else field) = fields := by
    intro fields others
    conv_rhs => rw [← List.map_id fields]
    exact List.map_congr_left fun field mem => if_neg (others field mem)
  rw [kept before apart.1, kept after apart.2]

/-- Filling a slot of a field puts the new child among the changed nodes of its value. -/
theorem fill_eq_setField {name : FieldName} {index : Option Nat} {value : Value}
    {change : Option Nat → Node → Node} (held : n.field? name = some (value.mapNodes change))
    (picked : value.pick? index = some c) (new : Node) :
    n.fill ⟨name, index⟩ new =
      n.setField name (value.mapNodes fun i c => if i = index then new else change i c) := by
  rcases Value.pick?_eq_some picked with ⟨rfl, rfl⟩ | ⟨i, items, rfl, rfl, itemEq⟩
  · rfl
  · rw [fill]
    dsimp only
    rw [held]
    refine congrArg (fun items => n.setField name (.list items)) (List.ext_getElem? fun j => ?_)
    rw [List.getElem?_set, List.getElem?_mapIdx, List.getElem?_mapIdx, List.length_mapIdx]
    by_cases same : i = j
    · subst same
      have inside : i < items.length := (List.getElem?_eq_some_iff.mp itemEq).1
      rw [if_pos rfl, if_pos inside, itemEq]
      simp [Value.mapNode]
    · have notSame : ¬(some j = some i) := fun eq => same (Option.some_inj.mp eq).symm
      simp only [if_neg same, if_neg notSame]

/-- Filling a slot with a child in it changes that child after all others. -/
theorem fill_mapSlots (layout : Layout n.kind (n.fields.map Prod.fst))
    (found : n.inSlot? slot = some c) (new : Node) :
    (n.mapSlots change).fill slot new =
      n.mapSlots fun other c => if other = slot then new else change other c := by
  obtain ⟨value, held, picked⟩ := exists_held_of_inSlot? found
  obtain ⟨name, index⟩ := slot
  have heldAfter : (n.mapSlots change).field? name =
      some (value.mapNodes fun i => change ⟨name, i⟩) := by
    rw [field?_mapSlots, held]
    rfl
  have layoutAfter : Layout (n.mapSlots change).kind ((n.mapSlots change).fields.map Prod.fst) := by
    rw [map_fst_mapSlots]
    exact layout
  have mem : name ∈ (n.mapSlots change).fields.map Prod.fst := by
    obtain ⟨other, fieldMem, -⟩ := exists_mem_of_inSlot? found
    rw [map_fst_mapSlots]
    exact List.mem_map_of_mem fieldMem
  rw [fill_eq_setField heldAfter picked]
  refine congrArg (Node.mk n.type) ((fields_setField layoutAfter mem _).trans ?_)
  rw [mapSlots, List.map_map]
  refine List.map_congr_left fun field fieldMem => ?_
  rw [Function.comp_apply]
  split
  · rename_i same
    dsimp only at same
    subst same
    have valueEq : field.2 = value := by
      rw [field?_of_mem layout.nodup fieldMem] at held
      exact Option.some_inj.mp held
    rw [valueEq]
    refine congrArg (Prod.mk field.1) (Value.mapNodes_congr fun i c _ => ?_)
    simp only [Slot.mk.injEq, true_and]
  · rename_i other
    dsimp only at other
    refine congrArg (Prod.mk field.1) (Value.mapNodes_congr fun i c _ => ?_)
    simp only [Slot.mk.injEq, other, false_and, if_false]

theorem Sound.of_inSlot? (sound : n.Sound) (found : n.inSlot? slot = some c) : c.Sound := by
  obtain ⟨value, held, picked⟩ := exists_held_of_inSlot? found
  have fits := sound.fits_of_field? held
  rcases Value.pick?_eq_some picked with ⟨-, rfl⟩ | ⟨i, items, -, rfl, itemEq⟩
  · exact fits.2
  · obtain ⟨itemType, -, itemsFit⟩ := fits
    exact (fitItems_iff.mp itemsFit _ (List.mem_of_getElem? itemEq)).2

private theorem fitsNode_item {type item : Option FieldType}
    (itemEq : FieldType.item? type = some item) (nodeType : String) :
    FieldType.FitsNode item nodeType := by
  cases type with
  | none =>
      cases itemEq
      trivial
  | some type =>
      cases type <;> cases itemEq <;> trivial

/-- A sound node whose children are changed into sound nodes that may stand there is sound. -/
theorem Sound.mapSlots (sound : n.Sound)
    (each : ∀ slot c, n.inSlot? slot = some c → (change slot c).Sound ∧
      (FieldType.FitsNode (n.kind.typeOfField? slot.field) c.type →
        FieldType.FitsNode (n.kind.typeOfField? slot.field) (change slot c).type)) :
    (n.mapSlots change).Sound := by
  obtain ⟨layout, fits⟩ := Node.sound_iff.mp sound
  refine Node.sound_iff.mpr ⟨?_, ?_⟩
  · rw [map_fst_mapSlots]
    exact layout
  · intro after mem
    obtain ⟨⟨name, value⟩, fieldMem, rfl⟩ := List.mem_map.mp mem
    have held := field?_of_mem layout.nodup fieldMem
    have changed : ∀ index c, value.pick? index = some c → (change ⟨name, index⟩ c).Sound ∧ _ :=
      fun index c picked => each ⟨name, index⟩ c ((inSlot?_of_field? held).trans picked)
    have valueFits := fits _ fieldMem
    cases value with
    | data json => exact valueFits
    | node c => exact ⟨(changed none c rfl).2 valueFits.1, (changed none c rfl).1⟩
    | list items =>
        obtain ⟨item, itemEq, itemsFit⟩ := valueFits
        refine ⟨item, itemEq, fitItems_iff.mpr fun changedItem itemMem => ?_⟩
        obtain ⟨i, lt, rfl⟩ := List.mem_mapIdx.mp itemMem
        have itemFits := fitItems_iff.mp itemsFit _ (List.getElem_mem lt)
        have there := List.getElem?_eq_getElem lt
        generalize items[i] = old at itemFits there
        cases old with
        | data json => exact itemFits
        | list others => exact itemFits
        | node c =>
            have picked : (Value.list items).pick? (some i) = some c := by
              rw [Value.pick?, Value.list?, Option.getD_some, there]
              rfl
            exact ⟨fitsNode_item itemEq _, (changed (some i) c picked).1⟩

end Node

end PropValidators.Ast
