import PropValidators.Proofs.Resolution.Admission
import PropValidators.Proofs.Types.FromOutline

/-!
# What accepted modules are read as

In a sound tree there is a node wherever a type must be, except in wrapped elements of tuples,
which are not read as such.  If these are nodes, too, then nothing in the types and declarations of
the tree is malformed, and the literals in them are those that its nodes stand for.
-/

namespace PropValidators.Resolution

open Ast

/-- The type in every wrapped element of a tuple is a node, if it is there. -/
def WrapsNodes (n : Node) : Prop :=
  ∀ m ∈ n.walk, ∀ key value, tupleWrapper? m = some key → m.attribute? key = some value →
    ∃ element : Node, value = .node element

/-- The values that the literals and the enums of a tree stand for are allowed. -/
structure LiteralsAllowed (allowed : Literal → Prop) (n : Node) : Prop where
  literals : ∀ m ∈ n.walk, ∀ value, literalValue? m = some value → allowed value
  enums : ∀ m ∈ n.walk, m.kind = .enumDeclaration → ∀ values,
    enumValues (.int 0) ((m.items "members").map EnumValue.ofValue) = some values →
      ∀ value ∈ values, allowed value

namespace Admission

/-- A tree can be read without faults, and the values in it are admitted. -/
structure AdmitsNode (admission : Admission) (n : Node) : Prop where
  sound : n.Sound
  wraps : WrapsNodes n
  literals : LiteralsAllowed admission.literal n

namespace AdmitsNode

variable {admission : Admission} {n m : Node}

theorem of_mem_walk (admits : admission.AdmitsNode n) (mem : m ∈ n.walk) :
    admission.AdmitsNode m := by
  rw [Node.walk_eq_tree] at mem
  have sub : ∀ other ∈ m.walk, other ∈ n.walk := by
    intro other inner
    rw [Node.walk_eq_tree] at inner ⊢
    exact (n.tree_infix_of_mem m mem).subset inner
  exact ⟨n.sound_of_mem_tree admits.sound m mem,
    fun other inner => admits.wraps other (sub other inner),
    fun other inner => admits.literals.literals other (sub other inner),
    fun other inner => admits.literals.enums other (sub other inner)⟩

theorem below (admits : admission.AdmitsNode n) (below : m.Below n) : admission.AdmitsNode m :=
  admits.of_mem_walk (n.walk_eq_tree ▸ below.mem_tree)

theorem self_mem_walk (n : Node) : n ∈ n.walk :=
  n.walk_eq_tree ▸ n.self_mem_tree

end AdmitsNode

variable {admission : Admission} {n m : Node}

theorem admits_of_parts {type : TypeExpr} (here : admission.here type)
    (below : ∀ part ∈ type.parts, admission.Admits part) : admission.Admits type :=
  .intro here below

theorem admits_leaf {type : TypeExpr} (here : admission.here type) (none : type.parts = []) :
    admission.Admits type :=
  admits_of_parts here fun part mem => by
    rw [none] at mem
    cases mem

theorem admits_untold : admission.Admits .untold :=
  admits_leaf trivial rfl

private theorem admits_ofKeyword (type : String) : admission.Admits (.ofKeyword type) := by
  refine admits_leaf ?_ (parts_ofKeyword type)
  rw [TypeExpr.ofKeyword]
  split
  · trivial
  · split <;> trivial

private theorem admits_ofLiteral (admits : admission.AdmitsNode n) :
    admission.Admits (.ofLiteral n) := by
  refine admits_leaf ?_ (parts_ofLiteral n)
  rw [ofLiteral_of_sound admits.sound]
  split
  · rename_i value valueEq
    exact admits.literals.literals n (AdmitsNode.self_mem_walk n) value valueEq
  · split <;> trivial

/-- Members that are read off sound nodes are not malformed, and their types are those of nodes
below. -/
theorem admitsMembers_filterMap {nodes : List Node}
    (types : ∀ m ∈ nodes, admission.Admits (.ofChild m "typeAnnotation")) :
    admission.AdmitsMembers (nodes.filterMap TypeMember.ofNode?) := by
  have read : ∀ member ∈ nodes.filterMap TypeMember.ofNode?,
      (∃ name type optional, member = .property name type optional ∧ admission.Admits type) ∨
        ∃ name optional, member = .method name optional := by
    intro member mem
    obtain ⟨m, nodeMem, memberEq⟩ := List.mem_filterMap.mp mem
    rw [TypeMember.ofNode?] at memberEq
    split at memberEq
    · obtain ⟨name, -, rfl⟩ := Option.map_eq_some_iff.mp memberEq
      exact .inl ⟨name, _, _, rfl, types m nodeMem⟩
    · obtain ⟨name, -, rfl⟩ := Option.map_eq_some_iff.mp memberEq
      exact .inr ⟨name, _, rfl⟩
    · cases memberEq
  constructor
  · intro fault mem
    rcases read _ mem with ⟨_, _, _, eq, -⟩ | ⟨_, _, eq⟩ <;> cases eq
  · intro type mem
    obtain ⟨name, optional, memberMem⟩ := exists_property_of_mem_memberTypes mem
    rcases read _ memberMem with ⟨_, _, _, eq, typeAdmits⟩ | ⟨_, _, eq⟩
    · cases eq
      exact typeAdmits
    · cases eq

/-- The type of the node in a field is admitted if the types of the nodes below are. -/
theorem admits_ofChild {key : String}
    (nodes : ∀ child, n.child? key = some child → admission.Admits (.ofNode child)) :
    admission.Admits (.ofChild n key) := by
  rw [ofChild_eq]
  cases held : n.child? key with
  | none => exact admits_untold
  | some child => exact nodes child held

/-- The type of an element of a tuple is admitted likewise. -/
theorem admits_ofElement (wraps : WrapsNodes n)
    (self : admission.Admits (.ofNode n))
    (inner : ∀ label element, n.attribute? label = some (.node element) →
      admission.Admits (.ofNode element)) :
    admission.Admits (.ofElement n) := by
  rw [TypeExpr.ofElement]
  cases wrapper : tupleWrapper? n with
  | none => exact self
  | some label =>
      dsimp only
      cases held : n.attribute? label with
      | none => exact admits_untold
      | some value =>
          obtain ⟨element, rfl⟩ := wraps n (AdmitsNode.self_mem_walk n) label value wrapper held
          exact inner label element held

/-- The type of a node that can be read is admitted. -/
theorem admits_ofNode (admits : admission.AdmitsNode n) : admission.Admits (.ofNode n) := by
  -- The wrappers of tuple elements and type arguments are skipped, so parts are types of nodes
  -- further below than children, and the induction is on the number of nodes in the tree.
  induction sizeEq : n.tree.length using Nat.strong_induction_on generalizing n with
  | _ size ih =>
      subst sizeEq
      have node : ∀ {m : Node}, m.Below n → admission.Admits (.ofNode m) := fun below =>
        ih _ below.length_tree_lt (admits.below below) rfl
      have child : ∀ key, ∀ part ∈ [TypeExpr.ofChild n key], admission.Admits part := by
        intro key part mem
        obtain rfl := List.mem_singleton.mp mem
        exact admits_ofChild fun child held => node (Node.below_of_child? held)
      have children : ∀ key, ∀ part ∈ (n.children key).map TypeExpr.ofNode,
          admission.Admits part := by
        intro key part mem
        obtain ⟨m, nodeMem, rfl⟩ := List.mem_map.mp mem
        exact node (Node.below_of_mem_children nodeMem)
      rw [ofNode_of_sound admits.sound, TypeExpr.ofSound]
      split
      · exact admits_of_parts trivial (child _)
      · exact admits_ofKeyword n.type
      · refine admits_of_parts trivial fun part mem => ?_
        obtain ⟨value, valueMem, rfl⟩ := List.mem_map.mp mem
        obtain ⟨argument, rfl, -⟩ := Node.exists_node_of_mem_typeArguments admits.sound valueMem
        exact node (Node.below_of_mem_typeArguments valueMem)
      · have members : admission.AdmitsMembers
            ((n.children "members").filterMap TypeMember.ofNode?) :=
          admitsMembers_filterMap fun m mem => admits_ofChild fun child held =>
            node ((Node.below_of_child? held).trans (Node.below_of_mem_children mem))
        exact admits_of_parts members.faults members.types
      · exact admits_of_parts trivial (child _)
      · refine admits_of_parts trivial fun part mem => ?_
        obtain ⟨element, elementMem, rfl⟩ := List.mem_map.mp mem
        have below := Node.below_of_mem_children elementMem
        exact admits_ofElement (admits.below below).wraps (node below)
          fun label inner held => node ((Node.below_of_attribute? held).trans below)
      · exact admits_of_parts trivial (children _)
      · exact admits_of_parts trivial (children _)
      · split
        · rename_i value held
          exact admits_ofLiteral (admits.below (Node.below_of_child? held))
        · exact admits_untold
      · exact admits_of_parts trivial (child _)
      · split <;> exact admits_of_parts trivial (child _)
      · split <;> exact admits_leaf trivial rfl

/-- The members that nodes declare are admitted. -/
theorem admitsMembers_ofNodes {nodes : List Node}
    (admits : ∀ m ∈ nodes, admission.AdmitsNode m) :
    admission.AdmitsMembers (TypeMember.ofNodes nodes) := by
  rw [ofNodes_of_sound fun m mem => (admits m mem).sound]
  exact admitsMembers_filterMap fun m mem => admits_ofChild fun child held =>
    admits_ofNode ((admits m mem).below (Node.below_of_child? held))

private theorem admitsMembers_ofBody (admits : admission.AdmitsNode n)
    (isInterface : n.kind = .interfaceDeclaration) :
    admission.AdmitsMembers (TypeMember.ofBody n) := by
  obtain ⟨body, -, -, -, -, membersEq⟩ := admits.sound.exists_body (.inr isInterface)
  rw [TypeMember.ofBody, membersEq]
  exact admitsMembers_ofNodes fun m mem => admits.below (Node.below_of_members membersEq mem)

/-- The arguments of what is inherited are admitted. -/
theorem admits_of_mem_heritage {clause : Heritage} {argument : TypeExpr}
    (admits : admission.AdmitsNode n) (clauseEq : Heritage.ofNode? n = some clause)
    (mem : argument ∈ clause.arguments) : admission.Admits argument := by
  have written : clause.arguments = n.typeArguments.map TypeExpr.ofValue := by
    rw [Heritage.ofNode?] at clauseEq
    split at clauseEq
    · cases clauseEq
    · rename_i expression held
      have sound : expression.Sound := by
        obtain ⟨value, valueEq, isNode⟩ := Option.bind_eq_some_iff.mp held
        obtain rfl := Node.eq_node_of_node? isNode
        exact admits.sound.of_attribute? valueEq
      rw [sound.entityFault?_eq_none] at clauseEq
      dsimp only at clauseEq
      split at clauseEq
      · contradiction
      · cases clauseEq
      · split at clauseEq
        · cases clauseEq
        · cases clauseEq
          rfl
  rw [written] at mem
  obtain ⟨value, valueMem, rfl⟩ := List.mem_map.mp mem
  obtain ⟨m, rfl, -⟩ := Node.exists_node_of_mem_typeArguments admits.sound valueMem
  exact admits_ofNode (admits.below (Node.below_of_mem_typeArguments valueMem))

/-- The declaration that a node makes is admitted. -/
theorem admitsDeclaration_ofNode (admits : admission.AdmitsNode n)
    (declares : isDeclaration n = true) :
    admission.AdmitsDeclaration (Declaration.ofNode n) := by
  simp only [isDeclaration, Bool.or_eq_true, beq_iff_eq] at declares
  rcases declares with (isInterface | isAlias) | isEnum
  · rw [Declaration.ofNode, isInterface]
    dsimp only
    rw [Node.typeParameterFault?_eq_none admits.sound]
    refine ⟨fun clause clauseMem argument mem => ?_, admitsMembers_ofBody admits isInterface⟩
    obtain ⟨m, nodeMem, clauseEq⟩ := List.mem_filterMap.mp clauseMem
    exact admits_of_mem_heritage (admits.below (Node.below_of_mem_children nodeMem)) clauseEq mem
  · rw [Declaration.ofNode, isAlias]
    dsimp only
    rw [Node.typeParameterFault?_eq_none admits.sound]
    exact admits_ofChild fun child held => admits_ofNode (admits.below (Node.below_of_child? held))
  · have specEq : n.kind.specOfKey? "members" = some ⟨"members", "members", .nodes⟩ :=
      Node.specOfKey?_of_kind isEnum rfl
    have valuesEq : (n.items "members").map EnumValue.ofValue =
        (n.children "members").map fun member => EnumValue.ofValue (.node member) := by
      rw [admits.sound.items_eq_map_node specEq rfl, List.map_map]
      rfl
    rw [ofNode_of_enum admits.sound isEnum, ← valuesEq]
    exact admits.literals.enums n (AdmitsNode.self_mem_walk n) isEnum

end Admission

end PropValidators.Resolution
