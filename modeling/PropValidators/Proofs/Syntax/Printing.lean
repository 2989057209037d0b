import PropValidators.Ast.Builder
import PropValidators.Ast.Source
import PropValidators.Proofs.Syntax.Below
import PropValidators.Proofs.Syntax.Parts
import PropValidators.Types.FromAst

/-!
# Expressions that can be printed

A sound expression is printed unless there is an integer in it that has too many digits to be
written.
-/

namespace PropValidators.Ast

/-- A tree has a value in it that cannot be written. -/
def Node.HasUnwritable (n : Node) : Prop :=
  ∃ m ∈ n.tree, ∃ value, literalValue? m = some value ∧ value.isUnwritable = true

/-- There is no fault but that of a value in a tree that cannot be written. -/
def Node.Blames (n : Node) (fault? : Option Fault) : Prop :=
  ∀ fault, fault? = some fault → fault = .unwritableInteger ∧ n.HasUnwritable

namespace Node

variable {n m : Node} {first second : Option Fault}

theorem blames_none : n.Blames none :=
  fun _ absurd => nomatch absurd

theorem blames_orElse (firstBlames : n.Blames first) (secondBlames : n.Blames second) :
    n.Blames (first <|> second) := by
  cases first with
  | none => exact secondBlames
  | some fault => exact firstBlames

theorem blames_findSome? {α : Type} {items : List α} {fault? : α → Option Fault}
    (each : ∀ item ∈ items, n.Blames (fault? item)) : n.Blames (items.findSome? fault?) := by
  intro fault found
  obtain ⟨item, mem, here⟩ := List.exists_of_findSome?_eq_some found
  exact each item mem fault here

theorem Blames.of_mem_tree (blames : m.Blames first) (mem : m ∈ n.tree) : n.Blames first := by
  intro fault found
  obtain ⟨rfl, value, valueMem, rest⟩ := blames fault found
  exact ⟨rfl, value, mem_tree_trans mem valueMem, rest⟩

/-- No name in a list is a node. -/
theorem blames_joinFault? (sound : n.Sound) (key : String) :
    n.Blames (joinFault? (n.items key)) := by
  rw [joinFault?]
  refine blames_findSome? fun indexed mem => ?_
  obtain ⟨item, i⟩ := indexed
  dsimp only
  cases isNode : item.node? with
  | none => exact blames_none
  | some c =>
      have itemMem : item ∈ n.items key := List.fst_mem_of_mem_zipIdx mem
      have childMem : c ∈ n.children key := List.mem_filterMap.mpr ⟨item, itemMem, isNode⟩
      rw [Option.bind_some, (sound.of_mem_children childMem).misnamed?_eq_none]
      exact blames_none

/-- A part of an expression is blamed for nothing else. -/
def PartsBlamed (n : Node) : Prop :=
  ∀ m : Node, sizeOf m < sizeOf n → m.Sound →
    m.Blames m.sourceFault? ∧ m.Blames m.propertySourceFault?

/-- The elements of an array are nodes or left out. -/
theorem eq_null_or_node_of_mem_elements (sound : n.Sound) {key : String} {spec : FieldSpec}
    (specEq : n.kind.specOfKey? key = some spec) (elements : spec.type = .elements)
    {element : Value} (mem : element ∈ n.items key) :
    element = .null ∨ ∃ c : Node, element = .node c := by
  rw [items] at mem
  cases held : n.get? key with
  | none =>
      rw [held] at mem
      cases mem
  | some value =>
      rw [held] at mem
      have fits := sound.fits_of_get? specEq held
      rw [elements] at fits
      cases value with
      | list items =>
          obtain ⟨_, ⟨⟩, itemsFit⟩ := fits
          rcases Value.eq_null_or_node_of_fits (fitItems_iff.mp itemsFit element mem) with
            isNull | ⟨c, isNode, -⟩
          · exact .inl isNull
          · exact .inr ⟨c, isNode⟩
      | node m => exact fits.1.elim
      | data json => exact fits.elim

section Parts

variable {key : String} (sound : n.Sound) (parts : n.PartsBlamed)

include sound parts

theorem blames_childFault? (key : String) : n.Blames (n.childFault? key) := by
  rw [childFault?]
  split
  · rename_i child held
    exact (parts child (sizeOf_child? held) (sound.of_child? held)).1.of_mem_tree
      (below_of_child? held).mem_tree
  · exact blames_none

theorem blames_of_mem_items {item : Value} {c : Node} (mem : item ∈ n.items key)
    (isNode : item.node? = some c) :
    n.Blames c.sourceFault? ∧ n.Blames c.propertySourceFault? := by
  have childMem : c ∈ n.children key := List.mem_filterMap.mpr ⟨item, mem, isNode⟩
  have inTree := (below_of_mem_children childMem).mem_tree
  obtain ⟨fault, propertyFault⟩ :=
    parts c (sizeOf_children childMem) (sound.of_mem_children childMem)
  exact ⟨fault.of_mem_tree inTree, propertyFault.of_mem_tree inTree⟩

/-- Every item of a list of nodes is a node, and no other item is blamed. -/
theorem blames_nodes {spec : FieldSpec} (specEq : n.kind.specOfKey? key = some spec)
    (nodes : spec.type.holdsNodes = true) {item : Value} (mem : item ∈ n.items key) :
    ∃ c : Node, item = .node c ∧ n.Blames c.sourceFault? ∧ n.Blames c.propertySourceFault? := by
  have itemMem := mem
  rw [sound.items_eq_map_node specEq nodes] at itemMem
  obtain ⟨c, -, rfl⟩ := List.mem_map.mp itemMem
  exact ⟨c, rfl, blames_of_mem_items sound parts mem rfl⟩

private theorem blames_propertySourceFault? (here : n.Blames n.sourceFault?) :
    n.Blames n.propertySourceFault? := by
  have noMatch : ((n.child? "key").bind matchFault?) = none := by
    cases held : n.child? "key" with
    | none => rfl
    | some k =>
        rw [Option.bind_some, matchFault?]
        split
        · rename_i isString
          have specEq : k.kind.specOfKey? "value" = some ⟨"value", "value", .text⟩ :=
            Node.specOfKey?_of_kind isString rfl
          rw [(sound.of_child? held).child?_eq_none specEq rfl]
          rfl
        · rfl
  rw [propertySourceFault?, noMatch, ite_self]
  have child := blames_childFault? sound parts
  split
  · exact blames_orElse (blames_orElse blames_none (child "key")) (child "value")
  · exact blames_orElse blames_none (child "key")
  · exact here

private theorem blames_sourceFault?_of_parts : n.Blames n.sourceFault? := by
  have child := blames_childFault? sound parts
  rw [sourceFault?.eq_def]
  split
  case h_1 isString =>
    have specEq : n.kind.specOfKey? "value" = some ⟨"value", "value", .text⟩ :=
      Node.specOfKey?_of_kind isString rfl
    rw [sound.child?_eq_none specEq rfl]
    exact blames_none
  case h_2 isNumber =>
    split
    · rename_i unwritable
      rintro fault ⟨⟩
      cases numberEq : n.number? "value" with
      | none =>
          rw [numberEq] at unwritable
          cases unwritable
      | some x =>
          rw [numberEq] at unwritable
          refine ⟨rfl, n, n.self_mem_tree, .number x, ?_, unwritable⟩
          rw [literalValue?, isNumber]
          dsimp only
          rw [numberEq]
          rfl
    · exact blames_none
  case h_3 => exact blames_orElse (child "object") (child "property")
  case h_4 isCall =>
    have specEq : n.kind.specOfKey? "arguments" = some ⟨"arguments", "arguments", .nodes⟩ :=
      Node.specOfKey?_of_kind isCall rfl
    refine blames_orElse (blames_findSome? fun argument _ => ?_)
      (blames_orElse (blames_joinFault? sound "arguments") (child "callee"))
    obtain ⟨argument, mem⟩ := argument
    obtain ⟨c, rfl, blames, -⟩ := blames_nodes sound parts specEq rfl mem
    exact blames
  case h_5 isArray =>
    have specEq : n.kind.specOfKey? "elements" = some ⟨"elements", "elements", .elements⟩ :=
      Node.specOfKey?_of_kind isArray rfl
    refine blames_orElse (blames_findSome? fun element _ => ?_)
      (blames_joinFault? sound "elements")
    obtain ⟨element, mem⟩ := element
    rcases eq_null_or_node_of_mem_elements sound specEq rfl mem with rfl | ⟨c, rfl⟩
    · exact blames_none
    · exact (blames_of_mem_items sound parts mem rfl).1
  case h_6 => exact blames_orElse (child "left") (child "right")
  case h_7 isObject =>
    have specEq : n.kind.specOfKey? "properties" = some ⟨"properties", "properties", .nodes⟩ :=
      Node.specOfKey?_of_kind isObject rfl
    refine blames_findSome? fun p _ => ?_
    obtain ⟨p, mem⟩ := p
    obtain ⟨c, rfl, -, blames⟩ := blames_nodes sound parts specEq rfl mem
    exact blames
  case h_8 => exact child "argument"
  case h_9 => exact blames_none

end Parts

/-- A sound expression can be printed, unless a value in it cannot be written. -/
theorem blames_sourceFault? (sound : n.Sound) : n.Blames n.sourceFault? := by
  suffices n.Blames n.sourceFault? ∧ n.Blames n.propertySourceFault? from this.1
  induction sizeEq : sizeOf n using Nat.strong_induction_on generalizing n with
  | _ size ih =>
      subst sizeEq
      have parts : n.PartsBlamed := fun m smaller mSound => ih _ smaller mSound rfl
      have here := blames_sourceFault?_of_parts sound parts
      exact ⟨here, blames_propertySourceFault? sound parts here⟩

/-- What is rendered is the text of an expression. -/
theorem rendered_eq_ok_iff {level : Int} {text : String} :
    n.rendered level = .ok text ↔ n.sourceFault? = none ∧ n.source level = text := by
  rw [rendered]
  cases n.sourceFault? <;> simp

/-- A name is rendered as it is. -/
@[simp]
theorem source_identifier (name : String) (level : Int) :
    (identifier name).source level = name := by
  rw [source.eq_def]
  rfl

@[simp]
theorem sourceFault?_identifier (name : String) : (identifier name).sourceFault? = none := by
  rw [sourceFault?.eq_def]
  rfl

end Node

end PropValidators.Ast
