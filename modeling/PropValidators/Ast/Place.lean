import PropValidators.Ast.Node
import PropValidators.Fault

/-!
# Places in a syntax tree

A slot is a position under a node that can hold a child: a field, or an item of
the list in a field.  A place is the sequence of slots from the root of a tree
down to a node.  The nodes of a tree are visited in pre-order, every node before
those below it and the fields of a node in their order.  Nodes in a list within a
list belong to the tree when it is written, but have no slot and are not visited.
-/

namespace PropValidators.Ast

/-- A position under a node. -/
structure Slot where
  field : FieldName
  /-- The index in the list that the field holds; none if the field holds the node
  itself. -/
  index : Option Nat
deriving DecidableEq, Repr

/-- The way from the root of a tree down to a node. -/
abbrev Place := List Slot

/-- The way from one place down to another, if the other lies at or below it. -/
def Place.below? : Place → Place → Option Place
  | [], place => some place
  | _ :: _, [] => none
  | slot :: outer, step :: place => if slot = step then Place.below? outer place else none

mutual

/-- All nodes of a tree with their places, in pre-order.  The argument is the
place of the root. -/
def Node.places (at' : Place) : Node → List (Place × Node)
  | ⟨type, fields⟩ => (at', ⟨type, fields⟩) :: fieldPlaces at' fields
termination_by structural n => n

/-- The nodes below the value of a field. -/
def Value.places (at' : Place) (field : FieldName) : Value → List (Place × Node)
  | .node n => n.places (at' ++ [⟨field, none⟩])
  | .list items => itemPlaces at' field 0 items
  | .data _ => []
termination_by structural value => value

/-- The nodes below an item of a list. -/
def Value.placesInList (at' : Place) (field : FieldName) (index : Nat) :
    Value → List (Place × Node)
  | .node n => n.places (at' ++ [⟨field, some index⟩])
  | .list _ => []
  | .data _ => []
termination_by structural value => value

/-- The nodes below the items of a list, the first of which has the given
index. -/
def itemPlaces (at' : Place) (field : FieldName) (index : Nat) :
    List Value → List (Place × Node)
  | [] => []
  | item :: items =>
      item.placesInList at' field index ++ itemPlaces at' field (index + 1) items
termination_by structural items => items

/-- The nodes below the fields of a node. -/
def fieldPlaces (at' : Place) : List (FieldName × Value) → List (Place × Node)
  | [] => []
  | (name, value) :: fields => value.places at' name ++ fieldPlaces at' fields
termination_by structural fields => fields

end

namespace Node

/-- The nodes of a tree in pre-order. -/
def walk (n : Node) : List Node :=
  (n.places []).map Prod.snd

/-- The nodes directly in the items of a list. -/
def childrenInList (field : FieldName) : Nat → List Value → List (Slot × Node)
  | _, [] => []
  | index, .node n :: items =>
      (⟨field, some index⟩, n) :: childrenInList field (index + 1) items
  | index, _ :: items => childrenInList field (index + 1) items

/-- The children of a node and their slots. -/
def slots (n : Node) : List (Slot × Node) :=
  n.fields.flatMap fun field =>
    match field.2 with
    | .node child => [(⟨field.1, none⟩, child)]
    | .list items => childrenInList field.1 0 items
    | .data _ => []

/-- The child in a slot. -/
def inSlot? (n : Node) (slot : Slot) : Option Node :=
  let value := n.field? slot.field
  match slot.index with
  | none => value.bind Value.node?
  | some i => ((value.bind Value.list?).getD [])[i]?.bind Value.node?

/-- The node at a place. -/
def at? (n : Node) : Place → Option Node
  | [] => some n
  | slot :: rest => (n.inSlot? slot).bind fun child => child.at? rest

/-- A reported position: the label of a field, and an index in its list.  No child stands
at a negative index. -/
abbrev Position := String × Option Int

/-- The place reached by way of reported positions, if they lead to a node. -/
def placeOf? (n : Node) : List Position → Option Place
  | [] => some []
  | (label, index) :: rest => do
      let (slot, child) ← n.slots.find? fun (slot, _) =>
        n.kind.labelOf slot.field == label && slot.index.map Int.ofNat == index
      let inner ← child.placeOf? rest
      return slot :: inner

/-- The slot in which a child can be put at a label and an index.  A negative index
counts from the end of the list. -/
def slotAt (n : Node) (label : String) (index : Option Int) : Except Fault Slot :=
  let field := n.kind.nameOf label
  match index with
  | none => .ok ⟨field, none⟩
  | some index =>
      match n.held? field with
      | none => .error (.noKey (Text.displayed label))
      | some (.node child) => .error (.misused .assigned child.kind.modelName)
      | some (.data json) => .error (.misused .assigned json.kindName)
      | some (.list items) =>
          let index := if index < 0 then index + items.length else index
          if 0 ≤ index ∧ index < items.length then .ok ⟨field, some index.toNat⟩
          else .error .unassignable

/-- The node with a child put into a slot.  An index beyond the end of the list, or
in a field that holds no list, changes nothing. -/
def fill (n : Node) (slot : Slot) (child : Node) : Node :=
  match slot.index with
  | none => n.setField slot.field (.node child)
  | some i =>
      match n.field? slot.field with
      | some (.list items) => n.setField slot.field (.list (items.set i (.node child)))
      | _ => n

/-- The tree with the node at a place changed. -/
def modifyAt (n : Node) (change : Node → Node) : Place → Node
  | [] => change n
  | slot :: rest =>
      match n.inSlot? slot with
      | some child => n.fill slot (child.modifyAt change rest)
      | none => n

end Node

end PropValidators.Ast
