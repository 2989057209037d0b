import PropValidators.Proofs.Printing.Telling

/-!
# Expressions read off their texts

Texts of expressions are compared without their trees, as far as the text of an expression says
what the expression is.  Two legible expressions have the same text exactly if they are put
together alike from the same names and equal literals.
-/

namespace PropValidators

open Ast Node

namespace Ast.Node

variable {n m : Node} {level : Int}

theorem Legible.exists_elements (legible : n.Legible) (isArray : n.kind = .arrayExpression) :
    n.items "elements" = (n.children "elements").map .node ∧
      ∀ element ∈ n.children "elements", element.Legible := by
  cases legible with
  | array kind items each => exact ⟨by rw [children_of_items items, items],
      by rwa [children_of_items items]⟩
  | other notWritten =>
      rw [isArray] at notWritten
      exact absurd (by decide) notWritten
  | _ => simp_all

/-- Names after a point are the same if they are congruent, whatever words they are. -/
theorem source_eq_of_congruent_identifier (kind : n.kind = .identifier)
    (congruent : n.Congruent m) :
    n.source level = m.source level := by
  cases congruent with
  | identifier _ otherKind ownText otherText =>
      simp [kind, otherKind, ownText, otherText]
  | other notWritten =>
      rw [kind] at notWritten
      exact absurd (by decide) notWritten
  | _ => simp_all

theorem map_source_eq {nodes others : List Node} (related : List.Forall₂ Congruent nodes others)
    (legible : ∀ c ∈ nodes, c.Legible) (otherLegible : ∀ d ∈ others, d.Legible)
    (each : ∀ c ∈ nodes, c.Legible → ∀ d : Node, d.Legible → c.Congruent d →
      c.source level = d.source level) :
    nodes.map (fun c => (c.source level).toList) =
      others.map fun d => (d.source level).toList := by
  induction related with
  | nil => rfl
  | cons congruent _ ih =>
      rw [List.forall_mem_cons] at legible otherLegible each
      rw [List.map_cons, List.map_cons, each.1 legible.1 _ otherLegible.1 congruent,
        ih legible.2 otherLegible.2 each.2]

/-- Steps that are the same have the same text if congruent indices and arguments have. -/
theorem stepText_eq_of_sameStep {opener other : Char} (nStep : n.Step level opener)
    (mStep : m.Step level other) (same : SameStep n m)
    (parts : ∀ c : Node, sizeOf c < sizeOf n → c.Legible → ∀ d : Node, d.Legible → c.Congruent d →
      c.source level = d.source level) : n.stepText level = m.stepText level := by
  rcases same with ⟨kind, otherKind, flags, key, otherKey, keyEq, otherKeyEq, keys⟩ |
      ⟨kind, otherKind, arguments⟩
  · have keyTexts : key.source level = otherKey.source level := by
      cases nStep with
      | property _ _ held keyKind =>
          cases held.symm.trans keyEq
          exact source_eq_of_congruent_identifier keyKind keys
      | index _ computed held legible =>
          cases held.symm.trans keyEq
          cases mStep with
          | property _ plain => simp_all
          | index _ _ otherHeld otherLegible =>
              cases otherHeld.symm.trans otherKeyEq
              exact parts key (sizeOf_child? keyEq) legible otherKey otherLegible keys
          | call otherCall => simp_all
      | call ownCall => simp_all
    rw [stepText, stepText, if_pos kind, if_pos otherKind, flags, childSource_of_child? level keyEq,
      childSource_of_child? level otherKeyEq, keyTexts]
  · cases nStep with
    | property own => simp_all
    | index own => simp_all
    | call _ each stepEq =>
        cases mStep with
        | property own => simp_all
        | index own => simp_all
        | call _ otherEach otherStepEq =>
            rw [stepEq, otherStepEq, map_source_eq arguments each otherEach fun c mem =>
              parts c (sizeOf_children mem)]

/-- What is reached by the same steps from what has the same text has the same text. -/
theorem source_eq_of_sameStep {inside other : Node} (nLegible : n.Legible) (mLegible : m.Legible)
    (found : n.inner? = some inside) (otherFound : m.inner? = some other)
    (texts : inside.source level = other.source level) (same : SameStep n m)
    (parts : ∀ c : Node, sizeOf c < sizeOf n → c.Legible → ∀ d : Node, d.Legible → c.Congruent d →
      c.source level = d.source level) : n.source level = m.source level := by
  obtain ⟨opener, nStep⟩ := nLegible.exists_step level (by simp [found])
  obtain ⟨otherOpener, mStep⟩ := mLegible.exists_step level (by simp [otherFound])
  rw [← String.toList_inj, source_of_inner? level found, source_of_inner? level otherFound, texts,
    stepText_eq_of_sameStep nStep mStep same parts]

theorem source_eq_of_congruent (nLegible : n.Legible) (mLegible : m.Legible)
    (congruent : n.Congruent m) :
    n.source level = m.source level := by
  induction sizeEq : sizeOf n using Nat.strong_induction_on generalizing n m with
  | _ size ih =>
      subst sizeEq
      have parts : ∀ c : Node, sizeOf c < sizeOf n → c.Legible → ∀ d : Node, d.Legible →
          c.Congruent d → c.source level = d.source level :=
        fun c smaller cLegible d dLegible congruent => ih _ smaller cLegible dLegible congruent rfl
      have reached : ∀ {inner other : Node}, n.inner? = some inner → m.inner? = some other →
          inner.Congruent other → SameStep n m → n.source level = m.source level := by
        intro inner other found otherFound inners same
        have texts := parts inner (sizeOf_inner? found) (nLegible.inner found).1 other
          (mLegible.inner otherFound).1 inners
        exact source_eq_of_sameStep nLegible mLegible found otherFound texts same parts
      cases congruent with
      | identifier kind otherKind text otherText =>
          simp [kind, otherKind, text, otherText]
      | string kind otherKind text otherText =>
          simp [kind, otherKind, text, otherText]
      | number kind otherKind value otherValue equal =>
          obtain ⟨x, held, finite, -, text⟩ := nLegible.exists_number level kind
          obtain ⟨y, otherHeld, otherFinite, -, otherText⟩ :=
            mLegible.exists_number level otherKind
          cases held.symm.trans value
          cases otherHeld.symm.trans otherValue
          rw [text, otherText, Number.sourceText_eq_of_equals finite otherFinite equal]
      | truth kind otherKind same =>
          simp [kind, otherKind, same]
      | null kind otherKind => simp [kind, otherKind]
      | member kind otherKind flags held otherHeld keyEq otherKeyEq objects keys =>
          exact reached (by rw [inner?, kind]; exact held)
            (by rw [inner?, otherKind]; exact otherHeld) objects
            (.inl ⟨kind, otherKind, flags, _, _, keyEq, otherKeyEq, keys⟩)
      | call kind otherKind held otherHeld callees arguments =>
          exact reached (by rw [inner?, kind]; exact held)
            (by rw [inner?, otherKind]; exact otherHeld) callees (.inr ⟨kind, otherKind, arguments⟩)
      | array kind otherKind elements =>
          obtain ⟨items, each⟩ := nLegible.exists_elements kind
          obtain ⟨otherItems, otherEach⟩ := mLegible.exists_elements otherKind
          rw [← String.toList_inj, source_of_array level kind items,
            source_of_array level otherKind otherItems, map_source_eq elements each otherEach
              fun c mem => parts c (sizeOf_children mem)]
      | other kind otherKind same =>
          simp [kind, otherKind, same]

/-- Legible expressions have the same text exactly if they are congruent. -/
theorem source_eq_iff_congruent (nLegible : n.Legible) (mLegible : m.Legible) :
    n.source level = m.source level ↔ n.Congruent m := by
  constructor
  · intro eq
    exact (tells_source nLegible mLegible [] [] (goesOn_nil _) (goesOn_nil _) (by rw [eq])).1
  · exact source_eq_of_congruent nLegible mLegible

theorem child?_eq_none_of_text? {key s : String} (text : n.text? key = some s) :
    n.child? key = none := by
  rw [text?, Option.bind_eq_some_iff] at text
  obtain ⟨value, held, text⟩ := text
  rw [child?, held, Option.bind_some]
  cases value with
  | node c => cases text
  | list items => rfl
  | data data => rfl

theorem Legible.misnamed?_eq_none (legible : n.Legible) : n.misnamed? = none := by
  rw [misnamed?]
  split
  · rename_i isIdentifier
    cases legible with
    | identifier kind text => exact child?_eq_none_of_text? text
    | other notWritten =>
        rw [isIdentifier] at notWritten
        exact absurd (by decide) notWritten
    | _ => simp_all
  · rfl

private theorem joinFault?_eq_none {nodes : List Node} (each : ∀ c ∈ nodes, c.Legible) :
    joinFault? (nodes.map .node) = none := by
  rw [joinFault?, List.findSome?_eq_none_iff]
  rintro ⟨item, i⟩ mem
  have itemMem : item ∈ nodes.map Value.node := (List.mem_zipIdx mem).2.2 ▸ List.getElem_mem _
  obtain ⟨c, cMem, rfl⟩ := List.mem_map.mp itemMem
  simp [Value.node?, (each c cMem).misnamed?_eq_none]

private theorem findSome?_attach_eq_none {nodes : List Node} {items : List Value}
    (itemsEq : items = nodes.map .node) {fault? : {item // item ∈ items} → Option Fault}
    (each : ∀ c ∈ nodes, ∀ mem, fault? ⟨.node c, mem⟩ = none) :
    items.attach.findSome? fault? = none := by
  rw [List.findSome?_eq_none_iff]
  rintro ⟨item, mem⟩ -
  have itemMem := mem
  rw [itemsEq] at itemMem
  obtain ⟨c, cMem, rfl⟩ := List.mem_map.mp itemMem
  exact each c cMem mem

private theorem childFault?_eq_none {key : String} {child : Node} (held : n.child? key = some child)
    (noFault : child.sourceFault? = none) : n.childFault? key = none := by
  rw [childFault?.eq_def]
  split
  · rename_i other otherHeld
    cases otherHeld.symm.trans held
    exact noFault
  · rfl

/-- Legible expressions can be written. -/
theorem Legible.sourceFault?_eq_none (legible : n.Legible) : n.sourceFault? = none := by
  induction legible with
  | identifier kind => rw [sourceFault?.eq_def, kind]
  | string kind text =>
      rw [sourceFault?.eq_def, kind]
      dsimp only
      rw [child?_eq_none_of_text? text]
      rfl
  | number kind value noNode finite writable =>
      rw [sourceFault?.eq_def, kind]
      dsimp only
      rw [value, Option.any_some, writable]
      rfl
  | truth kind => rw [sourceFault?.eq_def, kind]
  | null kind => rw [sourceFault?.eq_def, kind]
  | property kind plain held keyEq noNumber keyKind text isWord legible ih =>
      rw [sourceFault?.eq_def, kind]
      dsimp only
      rw [childFault?_eq_none held ih, childFault?_eq_none keyEq
        (by rw [sourceFault?.eq_def, keyKind])]
      rfl
  | index kind computed held keyEq noNumber legible keyLegible ih keyIh =>
      rw [sourceFault?.eq_def, kind]
      dsimp only
      rw [childFault?_eq_none held ih, childFault?_eq_none keyEq keyIh]
      rfl
  | call kind held items noNumber legible each ih eachIh =>
      rw [sourceFault?.eq_def, kind]
      dsimp only
      rw [findSome?_attach_eq_none items fun c mem _ => eachIh c mem, items,
        joinFault?_eq_none each, childFault?_eq_none held ih]
      rfl
  | array kind items each eachIh =>
      rw [sourceFault?.eq_def, kind]
      dsimp only
      rw [findSome?_attach_eq_none items fun c mem _ => eachIh c mem, items,
        joinFault?_eq_none each]
      rfl
  | other kind noBlank =>
      simp only [writtenKinds, List.mem_cons, List.not_mem_nil, or_false, not_or] at kind
      rw [sourceFault?.eq_def]
      split <;> first | rfl | simp_all

end Ast.Node

end PropValidators
