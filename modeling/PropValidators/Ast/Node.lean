import PropValidators.Ast.Kind
import PropValidators.Json.Basic

/-!
# Syntax nodes

A node is its type and its fields.  A field is present only when the tree says
something about it: a declared field that was left out is not stored, and its
default is supplied where it is read.  Declared fields stand first, in the order
of the kind, and the unknown ones follow in the order in which they came.  So a
tree that has only been read is written again with exactly the fields it had.

An unknown field may hold nodes too, directly or in lists.  An object that is not
a node is kept as it is, with everything inside it.

In a tree that has been changed a node may stand in any field, whatever its kind declares
for it.  Even in the place of the type there may be a node, as a declared field `type`; the
kind is then still that of the type before.
-/

namespace PropValidators.Ast

mutual

/-- A node of a syntax tree. -/
structure Node where
  type : String
  /-- Names and values of the fields that are present. -/
  fields : List (FieldName × Value)

/-- The value of a field. -/
inductive Value where
  | node (node : Node)
  | list (items : List Value)
  /-- Any value without nodes: a constant, or an object that is not a node. -/
  | data (data : Json)

end

namespace Value

/-- The null value. -/
def null : Value := .data .null

/-- A string as a value. -/
def text (s : String) : Value := .data (.string s)

/-- A truth value as a value. -/
def flag (b : Bool) : Value := .data (.bool b)

/-- A list of nodes as a value. -/
def nodes (ns : List Node) : Value := .list (ns.map .node)

/-- The node a value is, if it is one. -/
def node? : Value → Option Node
  | .node n => some n
  | _ => none

/-- The items of a value that is a list. -/
def list? : Value → Option (List Value)
  | .list vs => some vs
  | _ => none

/-- Whether a value is null. -/
def isNull : Value → Bool
  | .data .null => true
  | _ => false

/-- The string a value is, if it is one. -/
def text? : Value → Option String
  | .data (.string s) => some s
  | _ => none

/-- What an absent field of a type holds; a required field has nothing to hold then. -/
def ofAbsent : FieldType → Value
  | .nodes | .elements => .list []
  | .flag | .optionalFlag => .flag false
  | .optionalText default => .text default
  | .text => .text ""
  | .node | .optionalNode | .optionalNodes | .number | .name | .body _ => .null

end Value

namespace Node

/-- The kind of a node. -/
def kind (n : Node) : Kind := Kind.ofType n.type

/-- A node with declared fields only. -/
def ofDeclared (type : String) (fields : List (String × Value)) : Node :=
  ⟨type, fields.map fun field => (.declared field.1, field.2)⟩

/-- The value of a field that is present. -/
def field? (n : Node) (name : FieldName) : Option Value :=
  (n.fields.find? (fun field => field.1 == name)).map Prod.snd

/-- The value of a declared field that is present. -/
def get? (n : Node) (key : String) : Option Value :=
  n.field? (.declared key)

/-- What a field holds: an absent field that the kind declares holds its default, and an
absent unknown one nothing.  Every node has a type. -/
def held? (n : Node) : FieldName → Option Value
  | .declared key =>
      n.get? key <|>
        if key = "type" then some (.text n.type)
        else (n.kind.specOfKey? key).map fun spec => Value.ofAbsent spec.type
  | .unknown key => n.field? (.unknown key)

/-- What a node holds, under the names that its fields are reported by: its type, then the
declared fields with their defaults, and then the unknown ones. -/
def contents (n : Node) : List (String × Value) :=
  let declared (key : String) : Value := (n.held? (.declared key)).getD .null
  let unknown := n.fields.filterMap fun field =>
    match field.1 with
    | .declared _ => none
    | .unknown key => some (key, field.2)
  ("type", declared "type") ::
    (n.kind.fields.map fun spec => (spec.label, declared spec.key)) ++ unknown

end Node

namespace Value

/-- A name and a value, as a list of the two. -/
def pair (name : String) (value : Value) : Value := .list [.text name, value]

/-- What is met in going through a value: the items of a list, the contents of a node as
pairs, the characters of a string and the keys of an object; nothing in other constants. -/
def items : Value → List Value
  | .list vs => vs
  | .node n => n.contents.map fun field => pair field.1 field.2
  | .data (.string s) => s.toList.map fun c => text (String.singleton c)
  | .data (.object members) => members.map fun field => text field.1
  | .data _ => []

/-- The constant that a value is, if nothing can be met in going through it. -/
def loneConstant? : Value → Option Json
  | .data (.string _) | .data (.object _) => none
  | .data constant => some constant
  | _ => none

/-- A node met in going through a value is smaller than the value. -/
theorem sizeOf_items {value item : Value} {n : Node} (hitem : item ∈ value.items)
    (hnode : item.node? = some n) : sizeOf n < sizeOf value := by
  cases value with
  | list vs =>
      have := List.sizeOf_lt_of_mem (show item ∈ vs from hitem)
      cases item with
      | node m =>
          simp only [node?, Option.some.injEq] at hnode
          subst hnode
          simp only [Value.list.sizeOf_spec, Value.node.sizeOf_spec] at this ⊢
          omega
      | list ws => simp [node?] at hnode
      | data d => simp [node?] at hnode
  | node m =>
      simp only [items, List.mem_map] at hitem
      obtain ⟨field, -, rfl⟩ := hitem
      simp [pair, node?] at hnode
  | data d =>
      cases d <;> simp only [items, List.mem_map, List.not_mem_nil] at hitem
      all_goals
        obtain ⟨part, -, rfl⟩ := hitem
        simp [text, node?] at hnode

end Value

namespace Node

/-- The node in a field. -/
def child? (n : Node) (key : String) : Option Node :=
  (n.get? key).bind Value.node?

/-- What is met in going through a field. -/
def items (n : Node) (key : String) : List Value :=
  ((n.get? key).map Value.items).getD []

/-- The nodes that are met in going through a field. -/
def children (n : Node) (key : String) : List Node :=
  (n.items key).filterMap Value.node?

/-- The string in a field. -/
def text? (n : Node) (key : String) : Option String :=
  (n.get? key).bind Value.text?

/-- The truth value in a field, false if it is absent.  A node in its place counts as
true. -/
def flag (n : Node) (key : String) : Bool :=
  match n.get? key with
  | some (.data (.bool b)) => b
  | some (.node _) => true
  | _ => false

/-- The number in a field. -/
def number? (n : Node) (key : String) : Option Number :=
  match n.get? key with
  | some (.data (.number x)) => some x
  | _ => none

/-- Whether the type of a node is the given one; a node in its place is none. -/
def hasType (n : Node) (type : String) : Bool :=
  n.type == type && (n.child? "type").isNone

/-- The value of a field by its label: a declared field, or else an unknown one
with that very key.  Null counts as absent. -/
def attribute? (n : Node) (label : String) : Option Value :=
  (n.field? (n.kind.nameOf label)).filter fun value => !value.isNull

/-- The place of a field among those of a kind: the type, the declared fields in order, and
all unknown ones after them. -/
def rank (kind : Kind) : FieldName → Nat
  | .declared key =>
      if key = "type" then 0 else 1 + kind.fields.findIdx fun spec => spec.key == key
  | .unknown _ => 1 + kind.fields.length

/-- Put a value into a field: in the place of the present value, or else before the
first field of higher rank. -/
def putField (kind : Kind) (name : FieldName) (value : Value) :
    List (FieldName × Value) → List (FieldName × Value)
  | [] => [(name, value)]
  | (other, v) :: rest =>
      if other = name then (name, value) :: rest
      else if rank kind name < rank kind other then (name, value) :: (other, v) :: rest
      else (other, v) :: putField kind name value rest

/-- The node with a field set. -/
def setField (n : Node) (name : FieldName) (value : Value) : Node :=
  ⟨n.type, putField n.kind name value n.fields⟩

/-- The node with a declared field set. -/
def set (n : Node) (key : String) (value : Value) : Node :=
  n.setField (.declared key) value

/-- A value found in a field is smaller than the node. -/
theorem sizeOf_field? {n : Node} {name : FieldName} {value : Value}
    (h : n.field? name = some value) : sizeOf value < sizeOf n := by
  obtain ⟨type, fields⟩ := n
  simp only [field?, Option.map_eq_some_iff] at h
  obtain ⟨⟨k, v⟩, hfind, rfl⟩ := h
  have hmem := List.sizeOf_lt_of_mem (List.mem_of_find?_eq_some hfind)
  simp only [Prod.mk.sizeOf_spec] at hmem
  simp only [Node.mk.sizeOf_spec]
  omega

/-- A value found under a key is smaller than the node. -/
theorem sizeOf_get? {n : Node} {key : String} {value : Value} (h : n.get? key = some value) :
    sizeOf value < sizeOf n :=
  sizeOf_field? h

/-- A value that is read as a node is that node. -/
theorem eq_node_of_node? {value : Value} {n : Node} (node : value.node? = some n) :
    value = .node n := by
  cases value with
  | node m =>
      cases node
      rfl
  | list items => cases node
  | data data => cases node

/-- The node a value is, is smaller than the value. -/
theorem sizeOf_node? {value : Value} {n : Node} (h : value.node? = some n) :
    sizeOf n < sizeOf value := by
  rw [eq_node_of_node? h]
  simp

/-- A child is smaller than the node. -/
theorem sizeOf_child? {n c : Node} {key : String} (h : n.child? key = some c) :
    sizeOf c < sizeOf n := by
  simp only [child?, Option.bind_eq_some_iff] at h
  obtain ⟨value, hvalue, hnode⟩ := h
  have := sizeOf_get? hvalue
  have := sizeOf_node? hnode
  omega

/-- A node met in going through a field is smaller than the node. -/
theorem sizeOf_item {n c : Node} {key : String} {value : Value} (hvalue : value ∈ n.items key)
    (hnode : value.node? = some c) : sizeOf c < sizeOf n := by
  simp only [items] at hvalue
  cases hget : n.get? key with
  | none => simp [hget] at hvalue
  | some held =>
      simp only [hget, Option.map_some, Option.getD_some] at hvalue
      have := sizeOf_get? hget
      have := Value.sizeOf_items hvalue hnode
      omega

/-- A node among the children in a field is smaller than the node. -/
theorem sizeOf_children {n c : Node} {key : String} (h : c ∈ n.children key) :
    sizeOf c < sizeOf n := by
  simp only [children, List.mem_filterMap] at h
  obtain ⟨value, hvalue, hnode⟩ := h
  exact sizeOf_item hvalue hnode

/-- The value of a label is smaller than the node. -/
theorem sizeOf_attribute? {n : Node} {label : String} {value : Value}
    (h : n.attribute? label = some value) : sizeOf value < sizeOf n := by
  simp only [attribute?, Option.filter_eq_some_iff] at h
  exact sizeOf_field? h.1

end Node

end PropValidators.Ast
