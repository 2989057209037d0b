import PropValidators.Proofs.Printing.Expressions

/-!
# How expressions start and go on

A text is read as an expression from its start.  Steps are told one after the other, and what an
expression is reached from is told by the character that it starts with.
-/

namespace PropValidators

open Ast Node

namespace Ast.Node

/-- Two steps are to the same property, by congruent indices or with congruent arguments. -/
def SameStep (n m : Node) : Prop :=
  (n.kind = .memberExpression ∧ m.kind = .memberExpression ∧
      n.flag "computed" = m.flag "computed" ∧
      ∃ key other, n.child? "property" = some key ∧ m.child? "property" = some other ∧
        Congruent key other) ∨
    n.kind = .callExpression ∧ m.kind = .callExpression ∧
      List.Forall₂ Congruent (n.children "arguments") (m.children "arguments")

theorem exists_stepText (level : Int) (n : Node) :
    ∃ c rest, n.stepText level = c :: rest ∧ c ∈ openers := by
  rw [stepText]
  split
  · split
    · exact ⟨_, _, rfl, by decide⟩
    · exact ⟨_, _, rfl, by decide⟩
  · exact ⟨_, _, rfl, by decide⟩

theorem goesOn_steps {level : Int} (steps : List Node) {xs : List Char} (on : GoesOn closers xs) :
    GoesOn (openers ++ closers) (steps.flatMap (stepText level) ++ xs) := by
  cases steps with
  | nil => exact fun c head => List.mem_append_right _ (on c head)
  | cons n steps =>
      obtain ⟨c, rest, eq, opens⟩ := exists_stepText level n
      rw [List.flatMap_cons, eq]
      exact goesOn_cons.mpr (List.mem_append_left _ opens)

/-- Steps are told one after the other, up to the end of the expression. -/
theorem tells_steps {level : Int} {steps others : List Node}
    (each : ∀ a ∈ steps, ∀ b ∈ others,
      Tells (openers ++ closers) (a.stepText level) (b.stepText level) (SameStep a b)) :
    Tells closers (steps.flatMap (stepText level)) (others.flatMap (stepText level))
      (List.Forall₂ SameStep steps others) := by
  have longer : ∀ (n : Node) (rest : List Node),
      Tells closers [] ((n :: rest).flatMap (stepText level)) False := by
    intro n rest xs ys xsOn _ eq
    obtain ⟨c, tail, textEq, opens⟩ := exists_stepText level n
    rw [List.nil_append, List.flatMap_cons, textEq] at eq
    have closes := xsOn c (by rw [eq]; rfl)
    revert opens closes
    simp only [openers, closers, List.mem_cons, List.not_mem_nil, or_false]
    rintro (rfl | rfl | rfl) <;> simp
  induction steps generalizing others with
  | nil =>
      cases others with
      | nil => exact tells_self .nil
      | cons m others => exact (longer m others).imp False.elim
  | cons n steps ih =>
      cases others with
      | nil => exact (longer n steps).symm.imp False.elim
      | cons m others =>
          have rest := ih fun a aMem b bMem =>
            each a (List.mem_cons_of_mem _ aMem) b (List.mem_cons_of_mem _ bMem)
          have first := each n List.mem_cons_self m List.mem_cons_self
          rw [List.flatMap_cons, List.flatMap_cons]
          exact (first.append (fun _ => rest) (fun xs on => goesOn_steps steps on)
            fun xs on => goesOn_steps others on).imp fun both => .cons both.1 both.2

variable {n m : Node} (level : Int)

/-- The word that is written for a name or a constant. -/
def word? (n : Node) : Option String :=
  match n.kind with
  | .identifier => n.text? "name"
  | .booleanLiteral => some (if n.flag "value" then "true" else "false")
  | .nullLiteral => some "null"
  | _ => none

/-- The characters that start strings, arrays and what is not known here, and no words. -/
def marks : List Char :=
  ['"', '[', '/']

/-- What a legible expression is that is reached from nothing else, with the mark that it starts
with, if it is no word. -/
inductive Base (level : Int) (n : Node) : Option Char → Prop
  | word {word : String} (found : n.word? = some word) (isWord : IsWord word)
      (text : (n.source level).toList = word.toList) : Base level n none
  | string {s : String} (kind : n.kind = .stringLiteral) (value : n.text? "value" = some s)
      (text : (n.source level).toList = (quotedSource s).toList) : Base level n (some '"')
  | array {elements : List Node} (kind : n.kind = .arrayExpression)
      (items : n.items "elements" = elements.map .node)
      (each : ∀ element ∈ elements, element.Legible)
      (text : (n.source level).toList =
        arrayText (elements.map fun element => (element.source level).toList)) :
      Base level n (some '[')
  | other (kind : n.kind ∉ writtenKinds) (noBlank : ' ' ∉ n.typeText.toList)
      (text : (n.source level).toList =
        '/' :: '*' :: ' ' :: (n.typeText.toList ++ ' ' :: ['*', '/'])) : Base level n (some '/')

theorem Legible.exists_base (legible : n.Legible) (absent : n.inner? = none)
    (noNumber : n.kind ≠ .numericLiteral) : ∃ mark, n.Base level mark := by
  cases legible with
  | identifier kind text isWord free =>
      refine ⟨_, .word ?_ isWord (congrArg _ (source_of_identifier level kind text))⟩
      rw [word?, kind]
      exact text
  | string kind text =>
      exact ⟨_, .string kind text (congrArg _ (source_of_string level kind text))⟩
  | number kind => exact absurd kind noNumber
  | truth kind =>
      refine ⟨_, .word (by rw [word?, kind]) ?_ (congrArg _ (source_of_truth level kind))⟩
      refine isWord_of_mem_constantWords ?_
      split <;> decide
  | null kind =>
      exact ⟨_, .word (by rw [word?, kind]) (isWord_of_mem_constantWords (by decide))
        (congrArg _ (source_of_null level kind))⟩
  | property kind plain held =>
      rw [inner?, kind] at absent
      cases held.symm.trans absent
  | index kind computed held =>
      rw [inner?, kind] at absent
      cases held.symm.trans absent
  | call kind held =>
      rw [inner?, kind] at absent
      cases held.symm.trans absent
  | array kind items each =>
      exact ⟨_, .array kind items each (source_of_array level kind items)⟩
  | other kind noBlank =>
      refine ⟨_, .other kind noBlank ?_⟩
      rw [source_of_other level kind]
      simp

variable {level} {mark : Option Char}

/-- An expression that is reached from nothing else starts with its mark, or like a word, and not
like a number or with what closes lists. -/
theorem Base.exists_head (isBase : n.Base level mark) :
    ∃ c rest, (n.source level).toList = c :: rest ∧
      (some c).filter (· ∈ marks) = mark ∧ c ∉ closers ∧ c.isDigit = false ∧ c ≠ '-' := by
  cases isBase with
  | @word word found isWord text =>
      obtain ⟨c, rest, wordEq⟩ := List.exists_cons_of_ne_nil isWord.nonempty
      have mem : c ∈ word.toList := wordEq ▸ List.mem_cons_self
      have apart : c ∉ separators := fun separates => isWord.notMem separates mem
      simp only [separators, openers, closers, List.cons_append, List.nil_append, List.mem_cons,
        List.not_mem_nil, or_false, not_or] at apart
      have noDigit : c.isDigit = false := isWord.start c (by rw [wordEq]; rfl)
      have noMark : c ∉ marks := by simp [marks, apart]
      have noCloser : c ∉ closers := by simp [closers, apart]
      refine ⟨c, rest, text.trans wordEq, ?_, noCloser, noDigit, by simp [apart]⟩
      rw [Option.filter_some, if_neg (by simpa using noMark)]
  | string kind value text =>
      rw [toList_quotedSource] at text
      exact ⟨_, _, text, by decide, by decide, by decide, by decide⟩
  | array kind items each text =>
      exact ⟨_, _, text, by decide, by decide, by decide, by decide⟩
  | other kind noBlank text =>
      exact ⟨_, _, text, by decide, by decide, by decide, by decide⟩

/-- No name is written like a constant. -/
theorem Legible.free {name : String} (legible : n.Legible) (kind : n.kind = .identifier)
    (text : n.text? "name" = some name) : name ∉ constantWords := by
  cases legible with
  | identifier _ ownText _ free =>
      cases ownText.symm.trans text
      exact free
  | other notWritten =>
      rw [kind] at notWritten
      exact absurd (by decide) notWritten
  | _ => simp_all

theorem Legible.word_cases {word : String} (legible : n.Legible) (found : n.word? = some word) :
    (n.kind = .identifier ∧ n.text? "name" = some word ∧ word ∉ constantWords) ∨
      (n.kind = .booleanLiteral ∧ word = if n.flag "value" then "true" else "false") ∨
      (n.kind = .nullLiteral ∧ word = "null") := by
  rw [word?] at found
  split at found
  · rename_i kind
    exact .inl ⟨kind, found, legible.free kind found⟩
  · rename_i kind
    cases found
    exact .inr (.inl ⟨kind, rfl⟩)
  · rename_i kind
    cases found
    exact .inr (.inr ⟨kind, rfl⟩)
  · cases found

private theorem congruent_of_word (nLegible : n.Legible) (mLegible : m.Legible) {word : String}
    (found : n.word? = some word) (otherFound : m.word? = some word) : n.Congruent m := by
  have truths : ∀ a b : Bool, (if a then "true" else "false") = (if b then "true" else "false") →
      a = b := by decide
  have notNull : ∀ a : Bool, (if a then "true" else "false") ≠ "null" := by decide
  have constant : ∀ a : Bool, (if a then "true" else "false") ∈ constantWords := by decide
  rcases nLegible.word_cases found with
      ⟨kind, text, free⟩ | ⟨kind, wordEq⟩ | ⟨kind, wordEq⟩ <;>
    rcases mLegible.word_cases otherFound with
      ⟨otherKind, otherText, otherFree⟩ | ⟨otherKind, otherEq⟩ | ⟨otherKind, otherEq⟩
  · exact .identifier kind otherKind text otherText
  · exact absurd (otherEq ▸ constant _) free
  · exact absurd (otherEq ▸ by decide) free
  · exact absurd (wordEq ▸ constant _) otherFree
  · exact .truth kind otherKind (truths _ _ (wordEq.symm.trans otherEq))
  · exact absurd (wordEq.symm.trans otherEq) (notNull _)
  · exact absurd (wordEq ▸ by decide) otherFree
  · exact absurd (otherEq.symm.trans wordEq) (notNull _)
  · exact .null kind otherKind

theorem children_of_items {key : String} {nodes : List Node}
    (items : n.items key = nodes.map .node) : n.children key = nodes := by
  rw [children, items, filterMap_node?_map_node]

/-- Expressions that are reached from nothing else are told by their texts. -/
theorem tells_base {otherMark : Option Char} (nLegible : n.Legible) (mLegible : m.Legible)
    (nBase : n.Base level mark) (mBase : m.Base level otherMark)
    (starts : ∀ a : Node, a.Legible → (a.source level).toList ≠ [] ∧
      (a.source level).toList.head? ≠ some ']')
    (elements : ∀ a ∈ n.children "elements", ∀ b ∈ m.children "elements", a.Legible → b.Legible →
      Tells closers (a.source level).toList (b.source level).toList (a.Congruent b)) :
    Tells (openers ++ closers) (n.source level).toList (m.source level).toList (n.Congruent m) := by
  obtain ⟨c, rest, nEq, cMark, -⟩ := nBase.exists_head
  obtain ⟨d, others, mEq, dMark, -⟩ := mBase.exists_head
  by_cases heads : c = d
  · -- expressions that start alike are of one form
    obtain rfl : mark = otherMark := by rw [← cMark, ← dMark, heads]
    cases nBase with
    | word found isWord text =>
        cases mBase with
        | word otherFound otherIsWord otherText =>
            rw [text, otherText]
            refine (tells_of_disjoint isWord.disjoint otherIsWord.disjoint).imp fun eq => ?_
            rw [String.toList_inj] at eq
            exact congruent_of_word nLegible mLegible found (eq ▸ otherFound)
    | string kind value text =>
        cases mBase with
        | string otherKind otherValue otherText =>
            rw [text, otherText]
            exact (tells_quotedSource _ _ _).imp fun eq =>
              .string kind otherKind value (eq ▸ otherValue)
    | @array items kind itemsEq each text =>
        cases mBase with
        | @array others otherKind othersEq otherEach otherText =>
            rw [children_of_items itemsEq, children_of_items othersEq] at elements
            rw [text, otherText]
            have tellsElements : ∀ a ∈ items, ∀ b ∈ others,
                Tells closers (a.source level).toList (b.source level).toList (a.Congruent b) :=
              fun a aMem b bMem => elements a aMem b bMem (each a aMem) (otherEach b bMem)
            refine (tells_arrayText (by decide) (by decide)
              (List.forall_mem_append.mpr ⟨fun a mem => starts a (each a mem),
                fun b mem => starts b (otherEach b mem)⟩) tellsElements).imp
              fun congruent => .array kind otherKind ?_
            rw [children_of_items itemsEq, children_of_items othersEq]
            exact congruent
    | other kind noBlank text =>
        cases mBase with
        | other otherKind otherNoBlank otherText =>
            have types := tells_of_disjoint (List.disjoint_singleton.mpr noBlank)
              (List.disjoint_singleton.mpr otherNoBlank)
            rw [text, otherText]
            refine Tells.append_left (.append_right (.imp types fun eq => ?_)
              (List.mem_singleton_self _) ['*', '/']) ['/', '*', ' ']
            exact .other kind otherKind (String.toList_inj.mp eq)
  · rw [nEq, mEq]
    exact tells_of_head_ne (List.cons_ne_nil _ _) (List.cons_ne_nil _ _) fun eq =>
      heads (Option.some_inj.mp eq)

end Ast.Node

end PropValidators
