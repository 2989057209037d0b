import PropValidators.Ast.Members
import PropValidators.Ast.Names
import PropValidators.Proofs.Syntax.Walk

/-!
# Nodes below a node

The nodes that are read off the fields of a node lie below it in its tree.  The tree of a node
below another is a stretch of the tree of the other, so it has fewer nodes, and nothing is met
in it that is not met in the whole.
-/

namespace PropValidators.Ast

mutual

theorem Node.tree_infix_of_mem : (n : Node) → ∀ m ∈ n.tree, m.tree <:+: n.tree
  | ⟨type, fields⟩, m, mem => by
      rw [Node.tree] at mem
      rcases List.mem_cons.mp mem with rfl | below
      · exact List.infix_rfl
      · rw [Node.tree]
        exact (tree_infix_of_mem_treeOfFields fields m below).trans
          (List.suffix_cons _ _).isInfix
termination_by structural n => n

theorem Value.tree_infix_of_mem : (value : Value) → ∀ m ∈ value.tree, m.tree <:+: value.tree
  | .node n, m, mem => n.tree_infix_of_mem m mem
  | .list items, m, mem => tree_infix_of_mem_treeOfItems items m mem
  | .data _, _, mem => by cases mem
termination_by structural value => value

theorem Value.tree_infix_of_mem_treeInList : (value : Value) → ∀ m ∈ value.treeInList,
    m.tree <:+: value.treeInList
  | .node n, m, mem => n.tree_infix_of_mem m mem
  | .list _, _, mem => by cases mem
  | .data _, _, mem => by cases mem
termination_by structural value => value

private theorem tree_infix_of_mem_treeOfItems : (items : List Value) → ∀ m ∈ treeOfItems items,
    m.tree <:+: treeOfItems items
  | [], _, mem => by cases mem
  | item :: items, m, mem => by
      rw [treeOfItems] at mem ⊢
      rcases List.mem_append.mp mem with inItem | inRest
      · exact (item.tree_infix_of_mem_treeInList m inItem).trans
          (List.prefix_append _ _).isInfix
      · exact (tree_infix_of_mem_treeOfItems items m inRest).trans
          (List.suffix_append _ _).isInfix
termination_by structural items => items

theorem tree_infix_of_mem_treeOfFields : (fields : List (FieldName × Value)) →
    ∀ m ∈ treeOfFields fields, m.tree <:+: treeOfFields fields
  | [], _, mem => by cases mem
  | (_, value) :: fields, m, mem => by
      rw [treeOfFields] at mem ⊢
      rcases List.mem_append.mp mem with inValue | inRest
      · exact (value.tree_infix_of_mem m inValue).trans (List.prefix_append _ _).isInfix
      · exact (tree_infix_of_mem_treeOfFields fields m inRest).trans
          (List.suffix_append _ _).isInfix
termination_by structural fields => fields

end

@[simp]
theorem treeOfFields_eq_flatMap (fields : List (FieldName × Value)) :
    treeOfFields fields = fields.flatMap fun field => field.2.tree := by
  induction fields with
  | nil => rfl
  | cons field fields ih => rw [treeOfFields, ih, List.flatMap_cons]

@[simp]
theorem treeOfItems_eq_flatMap (items : List Value) :
    treeOfItems items = items.flatMap Value.treeInList := by
  induction items with
  | nil => rfl
  | cons item items ih => rw [treeOfItems, ih, List.flatMap_cons]

theorem Node.self_mem_tree (n : Node) : n ∈ n.tree := by
  obtain ⟨type, fields⟩ := n
  exact List.mem_cons_self

namespace Node

/-- A node lies below another in its tree. -/
def Below (m n : Node) : Prop :=
  m ∈ treeOfFields n.fields

variable {n m child : Node}

theorem tree_eq (n : Node) : n.tree = n :: treeOfFields n.fields := by
  cases n
  rfl

theorem Below.mem_tree (below : m.Below n) : m ∈ n.tree := by
  rw [tree_eq]
  exact List.mem_cons_of_mem n below

theorem Below.of_mem_tree (mem : child ∈ m.tree) (below : m.Below n) : child.Below n :=
  (tree_infix_of_mem_treeOfFields n.fields m below).subset mem

theorem mem_tree_trans (outer : m ∈ n.tree) (inner : child ∈ m.tree) : child ∈ n.tree :=
  (n.tree_infix_of_mem m outer).subset inner

theorem Below.trans (inner : child.Below m) (outer : m.Below n) : child.Below n :=
  outer.of_mem_tree inner.mem_tree

/-- There are fewer nodes in the tree of a node below. -/
theorem Below.length_tree_lt (below : m.Below n) : m.tree.length < n.tree.length := by
  rw [n.tree_eq, List.length_cons]
  exact Nat.lt_succ_of_le (tree_infix_of_mem_treeOfFields n.fields m below).length_le

theorem length_tree_pos (n : Node) : 0 < n.tree.length := by
  rw [tree_eq]
  exact Nat.succ_pos _

theorem below_of_field? {name : FieldName} {value : Value} (held : n.field? name = some value)
    (mem : m ∈ value.tree) : m.Below n := by
  obtain ⟨field, found, rfl⟩ := Option.map_eq_some_iff.mp held
  rw [Below, treeOfFields_eq_flatMap]
  exact List.mem_flatMap.mpr ⟨field, List.mem_of_find?_eq_some found, mem⟩

theorem below_of_child? {key : String} (held : n.child? key = some child) : child.Below n := by
  obtain ⟨value, valueEq, node⟩ := Option.bind_eq_some_iff.mp held
  obtain rfl := eq_node_of_node? node
  exact below_of_field? valueEq child.self_mem_tree

theorem below_of_attribute? {label : String} (held : n.attribute? label = some (.node child)) :
    child.Below n := by
  rw [attribute?, Option.filter_eq_some_iff] at held
  exact below_of_field? held.1 child.self_mem_tree

/-- Nodes are met in going through a value only if it is a list. -/
theorem mem_tree_of_mem_items {value : Value} (mem : .node child ∈ value.items) :
    child ∈ value.tree := by
  cases value with
  | list items =>
      change child ∈ treeOfItems items
      rw [treeOfItems_eq_flatMap]
      exact List.mem_flatMap.mpr ⟨.node child, mem, child.self_mem_tree⟩
  | node m =>
      obtain ⟨field, -, eq⟩ := List.mem_map.mp mem
      cases eq
  | data data =>
      cases data with
      | string s =>
          obtain ⟨c, -, eq⟩ := List.mem_map.mp mem
          cases eq
      | object members =>
          obtain ⟨field, -, eq⟩ := List.mem_map.mp mem
          cases eq
      | _ => cases mem

theorem below_of_mem_items {key : String} (mem : .node child ∈ n.items key) : child.Below n := by
  rw [items] at mem
  cases held : n.get? key with
  | none =>
      rw [held] at mem
      cases mem
  | some value =>
      rw [held] at mem
      exact below_of_field? held (mem_tree_of_mem_items mem)

theorem below_of_mem_children {key : String} (mem : child ∈ n.children key) : child.Below n := by
  obtain ⟨item, itemMem, node⟩ := List.mem_filterMap.mp mem
  obtain rfl := eq_node_of_node? node
  exact below_of_mem_items itemMem

private theorem below_of_typeArgumentsValue? (held : n.typeArgumentsValue? = some (.node child)) :
    child.Below n := by
  rw [typeArgumentsValue?] at held
  split at held <;>
    · rw [Option.orElse_eq_orElse, Option.orElse_eq_or, Option.or_eq_some_iff] at held
      rcases held with held | ⟨-, held⟩ <;> exact below_of_attribute? held

/-- A field that is absent holds no node, neither itself nor in a list. -/
theorem field?_of_held? {name : FieldName} {value : Value} (held : n.held? name = some value)
    (some : value = .node m ∨ .node m ∈ value.items) : n.field? name = .some value := by
  cases name with
  | unknown key => exact held
  | declared key =>
      rw [held?, Option.orElse_eq_orElse, Option.orElse_eq_or, Option.or_eq_some_iff] at held
      rcases held with held | ⟨-, absent⟩
      · exact held
      · have none : ¬(value = .node m ∨ .node m ∈ value.items) := by
          split at absent
          · cases absent
            simp [Value.text, Value.items]
          · obtain ⟨spec, -, rfl⟩ := Option.map_eq_some_iff.mp absent
            cases spec.type <;>
              simp [Value.ofAbsent, Value.text, Value.flag, Value.null, Value.items]
        exact absurd some none

private theorem below_of_held? {name : FieldName} (held : n.held? name = some (.node child)) :
    child.Below n :=
  below_of_field? (field?_of_held? held (.inl rfl)) child.self_mem_tree

private theorem below_of_nodesIn {name : FieldName} {nodes : List Node}
    (ok : n.nodesIn name = .ok nodes) (mem : child ∈ nodes) : child.Below n := by
  rw [nodesIn, itemsIn] at ok
  split at ok
  · cases ok
  · rename_i value held
    split at ok
    · cases ok
    · cases ok
      obtain ⟨item, itemMem, node⟩ := List.mem_filterMap.mp mem
      obtain rfl := eq_node_of_node? node
      have found := field?_of_held? held (.inr itemMem)
      exact below_of_field? found (mem_tree_of_mem_items itemMem)

/-- The members of a class or an interface lie below it. -/
theorem below_of_members {nodes : List Node} (ok : n.members = .ok nodes) (mem : child ∈ nodes) :
    child.Below n := by
  rw [members] at ok
  split at ok
  · rename_i body held
    exact (below_of_nodesIn ok mem).trans (below_of_held? held)
  · cases ok

theorem below_of_mem_typeArguments (mem : .node child ∈ n.typeArguments) : child.Below n := by
  rw [typeArguments] at mem
  split at mem
  · rename_i list held
    split at mem
    · exact (below_of_mem_items mem).trans (below_of_typeArgumentsValue? held)
    · cases mem
  · cases mem

end Node

end PropValidators.Ast
