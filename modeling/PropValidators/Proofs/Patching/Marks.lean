import PropValidators.Patch
import PropValidators.Proofs.Syntax.SetField
import PropValidators.Proofs.Syntax.Walk

/-!
# Classes and declarations of a tree

Patching reads two sorts of nodes of a module: its classes and its declarations.  They are
the marked nodes of its tree.  Setting a field of a node does not change the marked nodes
below it as long as those below the value stay the same.
-/

namespace PropValidators

open Ast

/-- A node is a class or a declaration. -/
def isMarked (n : Node) : Bool :=
  n.kind == .classDeclaration || isDeclaration n

/-- Nodes of most kinds are neither classes nor declarations. -/
theorem isMarked_of_kind {n : Node} {kind : Kind} (kindEq : n.kind = kind)
    (other : kind ∉ [.classDeclaration, .interfaceDeclaration, .typeAlias, .enumDeclaration]) :
    isMarked n = false := by
  simp only [List.mem_cons, List.not_mem_nil, or_false, not_or] at other
  obtain ⟨notClass, notInterface, notAlias, notEnum⟩ := other
  rw [isMarked, isDeclaration, kindEq]
  simp [notClass, notInterface, notAlias, notEnum]

/-- The classes and declarations of a tree, in order. -/
def marks (n : Node) : List Node :=
  n.tree.filter isMarked

/-- The classes and declarations below the value of a field. -/
def marksOfValue (value : Value) : List Node :=
  value.tree.filter isMarked

/-- The classes and declarations below an item of a list. -/
def marksOfItem (item : Value) : List Node :=
  item.treeInList.filter isMarked

/-- The classes and declarations below the items of a list. -/
def marksOfItems (items : List Value) : List Node :=
  (treeOfItems items).filter isMarked

/-- The classes and declarations below the fields of a node. -/
def marksOfFields (fields : List (FieldName × Value)) : List Node :=
  (treeOfFields fields).filter isMarked

theorem marks_eq (n : Node) :
    marks n = if isMarked n then n :: marksOfFields n.fields else marksOfFields n.fields := by
  obtain ⟨type, fields⟩ := n
  rw [marks, Node.tree, List.filter_cons]
  rfl

@[simp]
theorem marksOfValue_node (n : Node) : marksOfValue (.node n) = marks n :=
  rfl

@[simp]
theorem marksOfValue_list (items : List Value) : marksOfValue (.list items) = marksOfItems items :=
  rfl

@[simp]
theorem marksOfValue_data (data : Json) : marksOfValue (.data data) = [] :=
  rfl

@[simp]
theorem marksOfItem_node (n : Node) : marksOfItem (.node n) = marks n :=
  rfl

@[simp]
theorem marksOfItems_nil : marksOfItems [] = [] :=
  rfl

@[simp]
theorem marksOfItems_cons (item : Value) (items : List Value) :
    marksOfItems (item :: items) = marksOfItem item ++ marksOfItems items :=
  List.filter_append _ _

@[simp]
theorem marksOfFields_nil : marksOfFields [] = [] :=
  rfl

@[simp]
theorem marksOfFields_cons (field : FieldName × Value) (fields : List (FieldName × Value)) :
    marksOfFields (field :: fields) = marksOfValue field.2 ++ marksOfFields fields :=
  List.filter_append _ _

@[simp]
theorem marksOfItems_append (items more : List Value) :
    marksOfItems (items ++ more) = marksOfItems items ++ marksOfItems more := by
  induction items with
  | nil => rfl
  | cons item items ih =>
      rw [List.cons_append, marksOfItems_cons, ih, marksOfItems_cons, List.append_assoc]

@[simp]
theorem marksOfFields_append (fields more : List (FieldName × Value)) :
    marksOfFields (fields ++ more) = marksOfFields fields ++ marksOfFields more := by
  induction fields with
  | nil => rfl
  | cons field fields ih =>
      rw [List.cons_append, marksOfFields_cons, ih, marksOfFields_cons, List.append_assoc]

/-- The classes of a module are those among the marked nodes. -/
theorem classNodes_eq (root : Node) :
    classNodes root = (marks root).filter fun n => n.kind = .classDeclaration := by
  rw [classNodes, Node.walk_eq_tree, marks, List.filter_filter]
  apply List.filter_congr
  intro n _
  by_cases isClass : n.kind = .classDeclaration <;> simp [isMarked, isClass]

/-- The declarations of a module are those among the marked nodes. -/
theorem declarationNodes_eq (root : Node) :
    declarationNodes root = (marks root).filter isDeclaration := by
  rw [declarationNodes, Node.walk_eq_tree, marks, List.filter_filter]
  apply List.filter_congr
  intro n _
  cases declares : isDeclaration n <;> simp [isMarked, declares]

/-- The classes and declarations below a field of a node. -/
def marksOfField (n : Node) (key : String) : List Node :=
  ((n.get? key).map marksOfValue).getD []

/-- The marked nodes below a node stay the same when a field is set to a value with the same
marked nodes below it as before. -/
theorem marksOfFields_set {n : Node} (sound : n.Sound) {key : String} {value : Value}
    (same : marksOfValue value = marksOfField n key) :
    marksOfFields (n.set key value).fields = marksOfFields n.fields := by
  rw [Node.set, Node.setField]
  by_cases mem : .declared key ∈ n.fields.map Prod.fst
  · obtain ⟨before, old, after, split, found, eq⟩ :=
      Node.exists_putField_of_mem (Node.pairwise_rank_of_layout sound.layout) mem value
    rw [marksOfField, Node.get?, Node.field?, found] at same
    dsimp only [Option.map_some, Option.getD_some] at same
    rw [eq, split, marksOfFields_append, marksOfFields_append, marksOfFields_cons,
      marksOfFields_cons, same]
  · have notFound : n.fields.find? (fun field => field.1 == .declared key) = none := by
      rw [List.find?_eq_none]
      intro field fieldMem nameEq
      rw [beq_iff_eq] at nameEq
      exact mem (nameEq ▸ List.mem_map_of_mem fieldMem)
    obtain ⟨before, after, split, eq⟩ :
        ∃ before after, n.fields = before ++ after ∧
          Node.putField n.kind (.declared key) value n.fields =
            before ++ (.declared key, value) :: after :=
      Node.exists_putField_of_notMem mem value
    rw [marksOfField, Node.get?, Node.field?, notFound] at same
    dsimp only [Option.map_none, Option.getD_none] at same
    rw [eq, split, marksOfFields_append, marksOfFields_append, marksOfFields_cons, same,
      List.nil_append]

/-- Likewise for all marked nodes of the tree, if the node itself is none of them. -/
theorem marks_set {n : Node} (sound : n.Sound) (unmarked : isMarked n = false) {key : String}
    {value : Value} (same : marksOfValue value = marksOfField n key) :
    marks (n.set key value) = marks n := by
  have unmarkedSet : isMarked (n.set key value) = false := unmarked
  rw [marks_eq, marks_eq, unmarked, unmarkedSet, marksOfFields_set sound same]
  rfl

end PropValidators
