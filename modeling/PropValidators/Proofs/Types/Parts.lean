import PropValidators.Proofs.Divisions
import PropValidators.Proofs.Syntax.Below
import PropValidators.Proofs.Types.OfSound
import PropValidators.Registry

/-!
# Parts of types

A type is divided into the types that are written directly in it.  The parts of the type of a
node are the types of nodes below it; where there is no node, they say nothing or cannot be
resolved.  So the ways down through the parts of a type are no longer than those down the tree.
-/

namespace PropValidators

open Ast

/-- The type of a member; a method has none. -/
def TypeMember.type? : TypeMember → Option TypeExpr
  | .property _ type _ => some type
  | .method _ _ => none
  | .malformed _ => none

/-- The types of members. -/
def memberTypes (members : List TypeMember) : List TypeExpr :=
  members.filterMap TypeMember.type?

theorem mem_memberTypes_of_property {members : List TypeMember} {name : String} {type : TypeExpr}
    {optional : Bool} (mem : .property name type optional ∈ members) :
    type ∈ memberTypes members :=
  List.mem_filterMap.mpr ⟨_, mem, rfl⟩

theorem exists_property_of_mem_memberTypes {members : List TypeMember} {type : TypeExpr}
    (mem : type ∈ memberTypes members) :
    ∃ name optional, .property name type optional ∈ members := by
  obtain ⟨member, memberMem, typeEq⟩ := List.mem_filterMap.mp mem
  cases member with
  | property name type optional =>
      cases typeEq
      exact ⟨name, optional, memberMem⟩
  | method name optional => cases typeEq
  | malformed fault => cases typeEq

namespace TypeExpr

/-- The types that are written directly in a type. -/
def parts : TypeExpr → List TypeExpr
  | .reference _ arguments => arguments
  | .object members => memberTypes members
  | .tuple types | .union types | .intersection types => types
  | .array type | .parenthesized type | .annotated type | .keyof type | .modified type => [type]
  | .primitive _ | .nullish | .function | .literal _ | .template | .untold | .malformed _ => []

theorem sizeOf_lt_of_mem_parts {type part : TypeExpr} (mem : part ∈ type.parts) :
    sizeOf part < sizeOf type := by
  have inList : ∀ {types : List TypeExpr}, part ∈ types → sizeOf part < sizeOf types :=
    fun mem => List.sizeOf_lt_of_mem mem
  cases type with
  | object members =>
      obtain ⟨name, optional, memberMem⟩ := exists_property_of_mem_memberTypes mem
      have := List.sizeOf_lt_of_mem memberMem
      simp only [TypeMember.property.sizeOf_spec, TypeExpr.object.sizeOf_spec] at this ⊢
      omega
  | reference name arguments =>
      have := @inList arguments mem
      simp only [TypeExpr.reference.sizeOf_spec]
      omega
  | tuple elements => exact (@inList elements mem).trans (by simp)
  | union alternatives => exact (@inList alternatives mem).trans (by simp)
  | intersection operands => exact (@inList operands mem).trans (by simp)
  | array inner => exact List.mem_singleton.mp mem ▸ (by simp)
  | parenthesized inner => exact List.mem_singleton.mp mem ▸ (by simp)
  | annotated inner => exact List.mem_singleton.mp mem ▸ (by simp)
  | keyof target => exact List.mem_singleton.mp mem ▸ (by simp)
  | modified inner => exact List.mem_singleton.mp mem ▸ (by simp)
  | _ => cases mem

/-- The division of types into the types written directly in them. -/
def division : Division TypeExpr :=
  ⟨parts, sizeOf_lt_of_mem_parts⟩

end TypeExpr

/-- A heritage clause as a reference to the type it names. -/
def Heritage.reference (clause : Heritage) : TypeExpr :=
  .reference (some clause.name) clause.arguments

/-- The types that are written directly in a declaration. -/
def Declaration.parts : Declaration → List TypeExpr
  | .interface _ heritage members => heritage.map Heritage.reference ++ memberTypes members
  | .alias _ body => [body]
  | .enumeration _ => []

/-- A type is that of a node below another, or of no node. -/
def OfBelow (n : Node) (type : TypeExpr) : Prop :=
  (∃ m : Node, m.Below n ∧ type = .ofNode m) ∨ type = .untold ∨ ∃ fault, type = .malformed fault

namespace OfBelow

variable {n m : Node} {type : TypeExpr}

theorem node (below : m.Below n) : OfBelow n (.ofNode m) :=
  .inl ⟨m, below, rfl⟩

theorem untold : OfBelow n .untold :=
  .inr (.inl rfl)

theorem malformed (fault : Fault) : OfBelow n (.malformed fault) :=
  .inr (.inr ⟨fault, rfl⟩)

theorem mono (ofBelow : OfBelow m type) (below : m.Below n) : OfBelow n type := by
  rcases ofBelow with ⟨child, inner, rfl⟩ | rfl | ⟨fault, rfl⟩
  · exact node (inner.trans below)
  · exact untold
  · exact malformed fault

theorem ofChild (n : Node) (key : String) : OfBelow n (.ofChild n key) := by
  rw [TypeExpr.ofChild]
  split
  · rename_i child held
    exact node (Node.below_of_child? held)
  · exact untold

theorem ofValue {value : Value} (below : ∀ m, value = .node m → m.Below n) :
    OfBelow n (.ofValue value) := by
  cases value with
  | node m => exact node (below m rfl)
  | list items => exact malformed _
  | data data => exact malformed _

theorem ofElement (below : m.Below n) : OfBelow n (.ofElement m) := by
  rw [TypeExpr.ofElement]
  split
  · exact node below
  · split
    · exact untold
    · rename_i held
      exact node ((Node.below_of_attribute? held).trans below)
    · exact malformed _

/-- What a list of alternatives or elements is read as, if every node in it is read as
something below. -/
theorem of_mem_alternatives {values : List Value} {ofNode : Node → TypeExpr}
    {faults : List Fault} (every : ∀ m, .node m ∈ values → OfBelow n (ofNode m))
    (mem : type ∈ values.filterMap (alternative? ofNode) ++ faults.map .malformed) :
    OfBelow n type := by
  rcases List.mem_append.mp mem with read | faulty
  · obtain ⟨value, valueMem, typeEq⟩ := List.mem_filterMap.mp read
    rw [alternative?] at typeEq
    cases value with
    | node m =>
        dsimp only [Value.node?] at typeEq
        split at typeEq
        · cases typeEq
        · cases typeEq
          exact every m valueMem
    | list items =>
        cases typeEq
        exact malformed _
    | data data =>
        cases typeEq
        exact malformed _
  · obtain ⟨fault, -, rfl⟩ := List.mem_map.mp faulty
    exact malformed fault

theorem of_mem_memberTypes {nodes : List Node} (below : ∀ m ∈ nodes, m.Below n)
    (mem : type ∈ memberTypes (TypeMember.ofNodes nodes)) : OfBelow n type := by
  obtain ⟨name, optional, memberMem⟩ := exists_property_of_mem_memberTypes mem
  rw [TypeMember.ofNodes] at memberMem
  rcases List.mem_append.mp memberMem with read | faulty
  · obtain ⟨m, nodeMem, memberEq⟩ := List.mem_filterMap.mp read
    rw [TypeMember.ofNode?] at memberEq
    split at memberEq
    · obtain ⟨_, -, eq⟩ := Option.map_eq_some_iff.mp memberEq
      cases eq
      exact (ofChild m "typeAnnotation").mono (below m nodeMem)
    · obtain ⟨_, -, eq⟩ := Option.map_eq_some_iff.mp memberEq
      cases eq
    · cases memberEq
  · obtain ⟨fault, -, eq⟩ := List.mem_map.mp faulty
    cases eq

end OfBelow

/-- The members of an object type are those that the nodes in it declare. -/
theorem ofNode_of_typeLiteral {n : Node} (isLiteral : n.kind = .typeLiteral) :
    TypeExpr.ofNode n = .object (TypeMember.ofNodes (n.children "members")) := by
  rw [TypeExpr.ofNode, isLiteral]
  dsimp only
  rw [TypeMember.ofNodes]
  congr 2
  apply filterMap_attach_eq
  rintro ⟨member, mem⟩
  rfl

@[simp]
theorem parts_ofKeyword (type : String) : (TypeExpr.ofKeyword type).parts = [] := by
  rw [TypeExpr.ofKeyword]
  split
  · rfl
  · split <;> rfl

@[simp]
theorem parts_ofLiteral (n : Node) : (TypeExpr.ofLiteral n).parts = [] := by
  rw [TypeExpr.ofLiteral]
  split
  · rfl
  · rfl
  · rfl
  · split <;> rfl

/-- The parts of the type of a node are types of nodes below it. -/
theorem ofBelow_of_mem_parts {n : Node} {part : TypeExpr}
    (mem : part ∈ (TypeExpr.ofNode n).parts) : OfBelow n part := by
  have ofOnly : ∀ {key}, part ∈ [TypeExpr.ofChild n key] → OfBelow n part := by
    intro key mem
    obtain rfl := List.mem_singleton.mp mem
    exact .ofChild n key
  have ofValues : ∀ {values : List Value}, (∀ m, .node m ∈ values → m.Below n) →
      part ∈ values.map TypeExpr.ofValue → OfBelow n part := by
    intro values below mem
    obtain ⟨value, valueMem, rfl⟩ := List.mem_map.mp mem
    exact .ofValue fun m valueEq => below m (valueEq ▸ valueMem)
  by_cases isLiteral : n.kind = .typeLiteral
  · rw [ofNode_of_typeLiteral isLiteral] at mem
    exact .of_mem_memberTypes (fun _ => Node.below_of_mem_children) mem
  · rw [TypeExpr.ofNode] at mem
    split at mem
    · exact ofOnly mem
    · cases faultEq : n.typeFault? with
      | none =>
          rw [faultEq, Option.map_none, Option.getD_none, parts_ofKeyword] at mem
          cases mem
      | some fault =>
          rw [faultEq] at mem
          cases mem
    · split at mem
      · cases mem
      · rw [TypeExpr.parts, map_attach_eq TypeExpr.ofValue] at mem
        · exact ofValues (fun _ => Node.below_of_mem_typeArguments) mem
        · rintro ⟨value, _⟩
          cases value <;> rfl
    · contradiction
    · exact ofOnly mem
    · rw [TypeExpr.parts, ofElements_eq] at mem
      exact .of_mem_alternatives (fun _ inItems => .ofElement (Node.below_of_mem_items inItems)) mem
    · split at mem
      · cases mem
      · rw [TypeExpr.parts, ofAlternatives_eq] at mem
        exact .of_mem_alternatives (fun _ inItems => .node (Node.below_of_mem_items inItems)) mem
    · rw [TypeExpr.parts, map_attach_eq TypeExpr.ofValue] at mem
      · exact ofValues (fun _ => Node.below_of_mem_items) mem
      · rintro ⟨value, _⟩
        cases value <;> rfl
    · split at mem
      · rw [parts_ofLiteral] at mem
        cases mem
      · cases mem
    · exact ofOnly mem
    · split at mem <;> exact ofOnly mem
    · split at mem
      · cases mem
      · split at mem <;> cases mem

/-- The arguments of a heritage clause are types of nodes below it. -/
theorem ofBelow_of_mem_heritage_arguments {n : Node} {clause : Heritage} {argument : TypeExpr}
    (clauseEq : Heritage.ofNode? n = some clause) (mem : argument ∈ clause.arguments) :
    OfBelow n argument := by
  have ofArguments : argument ∈ n.typeArguments.map TypeExpr.ofValue → OfBelow n argument := by
    intro mem
    obtain ⟨value, valueMem, rfl⟩ := List.mem_map.mp mem
    exact .ofValue fun m valueEq => Node.below_of_mem_typeArguments (valueEq ▸ valueMem)
  rw [Heritage.ofNode?] at clauseEq
  split at clauseEq
  · cases clauseEq
  · split at clauseEq
    · cases clauseEq
      rcases List.mem_append.mp mem with written | faulty
      · exact ofArguments written
      · obtain rfl := List.mem_singleton.mp faulty
        exact .malformed _
    · cases clauseEq
    · split at clauseEq
      · cases clauseEq
      · cases clauseEq
        exact ofArguments mem

private theorem ofBelow_of_mem_ofBody {n : Node} {type : TypeExpr}
    (mem : type ∈ memberTypes (TypeMember.ofBody n)) : OfBelow n type := by
  rw [TypeMember.ofBody] at mem
  split at mem
  · rename_i nodes membersEq
    exact .of_mem_memberTypes (fun _ => Node.below_of_members membersEq) mem
  · cases mem

/-- The parts of the declaration that a node makes are types of nodes below it, or references to
what is inherited whose arguments are. -/
theorem ofBelow_of_mem_declaration_parts {n : Node} {part : TypeExpr}
    (mem : part ∈ (Declaration.ofNode n).parts) :
    OfBelow n part ∨ ∃ clause : Heritage, part = clause.reference ∧
      ∀ argument ∈ clause.arguments, OfBelow n argument := by
  rw [Declaration.ofNode] at mem
  split at mem
  · split at mem
    · cases mem
    · rcases List.mem_append.mp mem with inherited | own
      · obtain ⟨clause, clauseMem, rfl⟩ := List.mem_map.mp inherited
        obtain ⟨m, nodeMem, clauseEq⟩ := List.mem_filterMap.mp clauseMem
        refine .inr ⟨clause, rfl, fun argument argumentMem => ?_⟩
        exact (ofBelow_of_mem_heritage_arguments clauseEq argumentMem).mono
          (Node.below_of_mem_children nodeMem)
      · exact .inl (ofBelow_of_mem_ofBody own)
  · split at mem
    · obtain rfl := List.mem_singleton.mp mem
      exact .inl (.malformed _)
    · obtain rfl := List.mem_singleton.mp mem
      exact .inl (.ofChild n _)
  · split at mem
    · obtain rfl := List.mem_singleton.mp mem
      exact .inl (.malformed _)
    · cases mem

section Height

variable {weigh : TypeExpr → Nat} {bound : Nat}

/-- The heaviest of the ways down from some types. -/
def heightOf (weigh : TypeExpr → Nat) (types : List TypeExpr) : Nat :=
  greatest (types.map (TypeExpr.division.height weigh))

@[simp]
theorem heightOf_le_iff {types : List TypeExpr} :
    heightOf weigh types ≤ bound ↔ ∀ type ∈ types, TypeExpr.division.height weigh type ≤ bound := by
  rw [heightOf, greatest_le_iff, List.forall_mem_map]

theorem height_le_heightOf {types : List TypeExpr} {type : TypeExpr} (mem : type ∈ types) :
    TypeExpr.division.height weigh type ≤ heightOf weigh types :=
  heightOf_le_iff.mp le_rfl type mem

theorem heightOf_mono {types others : List TypeExpr} (subset : types ⊆ others) :
    heightOf weigh types ≤ heightOf weigh others :=
  heightOf_le_iff.mpr fun _ mem => height_le_heightOf (subset mem)

theorem height_eq_add_heightOf (type : TypeExpr) :
    TypeExpr.division.height weigh type = weigh type + heightOf weigh type.parts :=
  Division.height_eq weigh type

/-- The parts below weigh less than the tree has nodes, if the types of the nodes below weigh no
more than their own trees have. -/
theorem OfBelow.height_lt {n : Node} {part : TypeExpr} (ofBelow : OfBelow n part)
    (untold : weigh .untold = 0) (malformed : ∀ fault, weigh (.malformed fault) = 0)
    (nodes : ∀ m : Node, m.Below n →
      TypeExpr.division.height weigh (.ofNode m) ≤ m.tree.length) :
    TypeExpr.division.height weigh part < n.tree.length := by
  have positive := n.length_tree_pos
  rcases ofBelow with ⟨m, below, rfl⟩ | rfl | ⟨fault, rfl⟩
  · exact (nodes m below).trans_lt below.length_tree_lt
  · rw [height_eq_add_heightOf, untold]
    exact positive
  · rw [height_eq_add_heightOf, malformed]
    exact positive

/-- The ways down the type of a node are no heavier than the tree of the node has nodes, if no
type weighs more than one node. -/
theorem height_ofNode_le (light : ∀ type, weigh type ≤ 1) (untold : weigh .untold = 0)
    (malformed : ∀ fault, weigh (.malformed fault) = 0) (n : Node) :
    TypeExpr.division.height weigh (.ofNode n) ≤ n.tree.length := by
  induction sizeEq : n.tree.length using Nat.strong_induction_on generalizing n with
  | _ size ih =>
      subst sizeEq
      have positive := n.length_tree_pos
      have below : heightOf weigh (TypeExpr.ofNode n).parts ≤ n.tree.length - 1 := by
        rw [heightOf_le_iff]
        intro part mem
        have lighter := (ofBelow_of_mem_parts mem).height_lt untold malformed fun m below =>
          ih m.tree.length below.length_tree_lt m rfl
        omega
      have := light (.ofNode n)
      rw [height_eq_add_heightOf]
      omega

/-- The same for the parts of the declaration that a node makes, if references weigh nothing. -/
theorem heightOf_parts_ofNode_lt (light : ∀ type, weigh type ≤ 1) (untold : weigh .untold = 0)
    (malformed : ∀ fault, weigh (.malformed fault) = 0)
    (reference : ∀ name arguments, weigh (.reference name arguments) = 0) (n : Node) :
    heightOf weigh (Declaration.ofNode n).parts < n.tree.length := by
  have positive := n.length_tree_pos
  have lighter : ∀ {part}, OfBelow n part →
      TypeExpr.division.height weigh part < n.tree.length := fun ofBelow =>
    ofBelow.height_lt untold malformed fun m _ => height_ofNode_le light untold malformed m
  have every : heightOf weigh (Declaration.ofNode n).parts ≤ n.tree.length - 1 := by
    rw [heightOf_le_iff]
    intro part mem
    rcases ofBelow_of_mem_declaration_parts mem with ofBelow | ⟨clause, rfl, arguments⟩
    · have := lighter ofBelow
      omega
    · rw [height_eq_add_heightOf, Heritage.reference, reference, Nat.zero_add, heightOf_le_iff]
      intro argument argumentMem
      have := lighter (arguments argument argumentMem)
      omega
  omega

end Height

end PropValidators
