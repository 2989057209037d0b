import PropValidators.Proofs.Printing.Starts

/-!
# Expressions told by their texts

Two legible expressions with the same text are congruent.  The bases are told first, then the steps
from them, and inside of these the indices and the arguments.
-/

namespace PropValidators

open Ast Node

namespace Ast.Node

variable {n m : Node} {level : Int}

@[simp]
theorem inner?_base (n : Node) : n.base.inner? = none := by
  induction sizeEq : sizeOf n using Nat.strong_induction_on generalizing n with
  | _ size ih =>
      subst sizeEq
      cases found : n.inner? with
      | none => rw [base_of_no_inner found, found]
      | some inner =>
          rw [base_of_inner? found]
          exact ih _ (sizeOf_inner? found) inner rfl

/-- What a legible expression is reached from is legible, and no number. -/
theorem Legible.inner (legible : n.Legible) {inner : Node} (found : n.inner? = some inner) :
    inner.Legible ∧ inner.kind ≠ .numericLiteral := by
  cases legible with
  | property kind plain held keyEq noNumber keyKind text isWord legible =>
      rw [inner?, kind] at found
      cases held.symm.trans found
      exact ⟨legible, noNumber⟩
  | index kind computed held keyEq noNumber legible keyLegible =>
      rw [inner?, kind] at found
      cases held.symm.trans found
      exact ⟨legible, noNumber⟩
  | call kind held items noNumber legible each =>
      rw [inner?, kind] at found
      cases held.symm.trans found
      exact ⟨legible, noNumber⟩
  | other kind =>
      rw [inner?_of_other kind] at found
      cases found
  | _ => simp_all [inner?]

theorem Legible.base (legible : n.Legible) (noNumber : n.kind ≠ .numericLiteral) :
    n.base.Legible ∧ n.base.kind ≠ .numericLiteral := by
  induction sizeEq : sizeOf n using Nat.strong_induction_on generalizing n with
  | _ size ih =>
      subst sizeEq
      cases found : n.inner? with
      | none =>
          rw [base_of_no_inner found]
          exact ⟨legible, noNumber⟩
      | some inner =>
          rw [base_of_inner? found]
          obtain ⟨innerLegible, innerNoNumber⟩ := legible.inner found
          exact ih _ (sizeOf_inner? found) innerLegible innerNoNumber rfl

/-- Every step is a legible expression that is no larger, and is reached from something. -/
theorem Legible.of_mem_steps (legible : n.Legible) {step : Node} (mem : step ∈ n.steps) :
    step.Legible ∧ sizeOf step ≤ sizeOf n ∧ step.inner? ≠ none := by
  induction sizeEq : sizeOf n using Nat.strong_induction_on generalizing n with
  | _ size ih =>
      subst sizeEq
      cases found : n.inner? with
      | none =>
          rw [steps_of_no_inner found] at mem
          cases mem
      | some inner =>
          rw [steps_of_inner? found, List.mem_append, List.mem_singleton] at mem
          have smaller := sizeOf_inner? found
          rcases mem with inside | rfl
          · obtain ⟨stepLegible, size, reached⟩ := ih _ smaller (legible.inner found).1 inside rfl
            exact ⟨stepLegible, size.trans smaller.le, reached⟩
          · exact ⟨legible, le_rfl, by rw [found]; exact Option.some_ne_none _⟩

private theorem congruent_of_step {inside other : Node} (found : n.inner? = some inside)
    (otherFound : m.inner? = some other) (inners : inside.Congruent other) (step : SameStep n m) :
    n.Congruent m := by
  rw [inner?] at found otherFound
  rcases step with ⟨kind, otherKind, flags, key, otherKey, keyEq, otherKeyEq, keys⟩ |
      ⟨kind, otherKind, arguments⟩
  · rw [kind] at found
    rw [otherKind] at otherFound
    exact .member kind otherKind flags found otherFound keyEq otherKeyEq inners keys
  · rw [kind] at found
    rw [otherKind] at otherFound
    exact .call kind otherKind found otherFound inners arguments

@[simp]
theorem inner?_eq_none_iff : n.inner? = none ↔ n.steps = [] := by
  constructor
  · exact steps_of_no_inner
  · intro noSteps
    cases found : n.inner? with
    | none => rfl
    | some inner =>
        rw [steps_of_inner? found] at noSteps
        exact absurd noSteps (by simp)

/-- Expressions with congruent bases that are reached by the same steps are congruent. -/
theorem congruent_of_steps (bases : n.base.Congruent m.base)
    (steps : List.Forall₂ SameStep n.steps m.steps) : n.Congruent m := by
  induction sizeEq : sizeOf n using Nat.strong_induction_on generalizing n m with
  | _ size ih =>
      subst sizeEq
      cases found : n.inner? with
      | none =>
          rw [steps_of_no_inner found, List.forall₂_nil_left_iff, ← inner?_eq_none_iff] at steps
          rwa [base_of_no_inner found, base_of_no_inner steps] at bases
      | some inner =>
          cases otherFound : m.inner? with
          | none =>
              rw [steps_of_no_inner otherFound, List.forall₂_nil_right_iff,
                ← inner?_eq_none_iff, found] at steps
              cases steps
          | some other =>
              rw [steps_of_inner? found, steps_of_inner? otherFound, ← List.forall₂_reverse_iff,
                List.reverse_concat, List.reverse_concat, List.forall₂_cons,
                List.forall₂_reverse_iff] at steps
              rw [base_of_inner? found, base_of_inner? otherFound] at bases
              exact congruent_of_step found otherFound
                (ih _ (sizeOf_inner? found) bases steps.2 rfl) steps.1

/-- What a legible number is. -/
theorem Legible.exists_number (level : Int) (legible : n.Legible)
    (isNumber : n.kind = .numericLiteral) :
    ∃ x : Number, n.number? "value" = some x ∧ x.IsFinite ∧ x.isUnwritable = false ∧
      n.source level = x.sourceText := by
  cases legible with
  | number kind value noNode finite writable =>
      exact ⟨_, value, finite, writable, source_of_number level kind value noNode⟩
  | other notWritten =>
      rw [isNumber] at notWritten
      exact absurd (by decide) notWritten
  | _ => simp_all

/-- How legible expressions start: none like the end of a list, and only numbers with a digit or a
minus sign. -/
theorem Legible.exists_head (level : Int) (legible : n.Legible) :
    ∃ c rest, (n.source level).toList = c :: rest ∧ c ∉ closers ∧
      ((c.isDigit = true ∨ c = '-') ↔ n.kind = .numericLiteral) := by
  by_cases isNumber : n.kind = .numericLiteral
  · obtain ⟨x, -, finite, -, text⟩ := legible.exists_number level isNumber
    obtain ⟨c, rest, eq, initial⟩ := Number.exists_head_sourceText finite
    refine ⟨c, rest, by rw [text, eq], ?_, by simp [isNumber, initial]⟩
    intro closes
    obtain ⟨noDigit, noMark⟩ := noDigit_of_mem_closers closes
    rcases initial with digit | minus
    · exact Bool.false_ne_true (noDigit.symm.trans digit)
    · exact noMark (minus ▸ List.mem_cons_self)
  · obtain ⟨baseLegible, baseNoNumber⟩ := legible.base isNumber
    obtain ⟨mark, isBase⟩ := baseLegible.exists_base level (inner?_base n) baseNoNumber
    obtain ⟨c, rest, eq, -, noCloser, noDigit, noMinus⟩ := isBase.exists_head
    refine ⟨c, rest ++ n.steps.flatMap (stepText level), ?_, noCloser, ?_⟩
    · rw [source_eq_steps, eq]
      rfl
    · simp [isNumber, noDigit, noMinus]

theorem Legible.starts (legible : n.Legible) {c : Char} (closes : c ∈ closers) :
    (n.source level).toList ≠ [] ∧ (n.source level).toList.head? ≠ some c := by
  obtain ⟨d, rest, eq, noCloser, -⟩ := legible.exists_head level
  rw [eq]
  exact ⟨List.cons_ne_nil _ _, fun head => noCloser (Option.some_inj.mp head ▸ closes)⟩

/-- What a step in a legible expression is, with the character that it starts with. -/
inductive Step (level : Int) (n : Node) : Char → Prop
  | property {key : Node} {name : String} (kind : n.kind = .memberExpression)
      (plain : n.flag "computed" = false) (keyEq : n.child? "property" = some key)
      (keyKind : key.kind = .identifier) (text : key.text? "name" = some name)
      (isWord : IsWord name) (stepEq : n.stepText level = '.' :: name.toList) : Step level n '.'
  | index {key : Node} (kind : n.kind = .memberExpression) (computed : n.flag "computed" = true)
      (keyEq : n.child? "property" = some key) (legible : key.Legible)
      (stepEq : n.stepText level = '[' :: (key.source level).toList ++ [']']) : Step level n '['
  | call (kind : n.kind = .callExpression)
      (each : ∀ argument ∈ n.children "arguments", argument.Legible)
      (stepEq : n.stepText level =
        '(' :: ([',', ' '].intercalate ((n.children "arguments").map fun argument =>
          (argument.source level).toList) ++ [')'])) : Step level n '('

theorem Legible.exists_step (level : Int) (legible : n.Legible) (reached : n.inner? ≠ none) :
    ∃ opener, n.Step level opener := by
  cases legible with
  | property kind plain held keyEq noNumber keyKind text isWord legible =>
      refine ⟨_, .property kind plain keyEq keyKind text isWord ?_⟩
      rw [stepText, if_pos kind, plain, childSource_of_child? level keyEq,
        source_of_identifier level keyKind text]
      rfl
  | index kind computed held keyEq noNumber legible keyLegible =>
      refine ⟨_, .index kind computed keyEq keyLegible ?_⟩
      rw [stepText, if_pos kind, computed, childSource_of_child? level keyEq]
      rfl
  | call kind held items noNumber legible each =>
      refine ⟨_, .call kind ?_ ?_⟩
      · rwa [children_of_items items]
      · rw [stepText, if_neg (by rw [kind]; decide)]
  | other kind => exact absurd (inner?_of_other kind) reached
  | _ => simp_all [inner?]

theorem Step.exists_text {opener : Char} (step : n.Step level opener) :
    ∃ rest, n.stepText level = opener :: rest := by
  cases step with
  | property kind plain keyEq keyKind text isWord stepEq => exact ⟨_, stepEq⟩
  | index kind computed keyEq legible stepEq => exact ⟨_, stepEq⟩
  | call kind each stepEq => exact ⟨_, stepEq⟩

/-- Steps are told by their texts if the indices and the arguments are. -/
theorem tells_step {a b : Node} {opener other : Char} (aStep : a.Step level opener)
    (bStep : b.Step level other)
    (parts : ∀ c : Node, sizeOf c < sizeOf a → c.Legible → ∀ d : Node, d.Legible →
      Tells closers (c.source level).toList (d.source level).toList (c.Congruent d)) :
    Tells (openers ++ closers) (a.stepText level) (b.stepText level) (SameStep a b) := by
  by_cases heads : opener = other
  · subst heads
    cases aStep with
    | property kind plain keyEq keyKind text isWord stepEq =>
        cases bStep with
        | property otherKind otherPlain otherKeyEq otherKeyKind otherText otherIsWord otherStepEq =>
            rw [stepEq, otherStepEq]
            refine ((tells_of_disjoint isWord.disjoint otherIsWord.disjoint).cons '.').imp
              fun eq => ?_
            rw [String.toList_inj] at eq
            exact .inl ⟨kind, otherKind, plain.trans otherPlain.symm, _, _, keyEq, otherKeyEq,
              .identifier keyKind otherKeyKind text (eq ▸ otherText)⟩
    | index kind computed keyEq legible stepEq =>
        cases bStep with
        | index otherKind otherComputed otherKeyEq otherLegible otherStepEq =>
            have keys := parts _ (sizeOf_child? keyEq) legible _ otherLegible
            have mem : ']' ∈ closers := by decide
            rw [stepEq, otherStepEq]
            exact ((keys.append_right mem []).cons '[').imp fun congruent => .inl ⟨kind, otherKind,
              computed.trans otherComputed.symm, _, _, keyEq, otherKeyEq, congruent⟩
    | call kind each stepEq =>
        cases bStep with
        | call otherKind otherEach otherStepEq =>
            have tellsArguments : ∀ c ∈ a.children "arguments", ∀ d ∈ b.children "arguments",
                Tells closers (c.source level).toList (d.source level).toList (c.Congruent d) :=
              fun c cMem d dMem => parts c (sizeOf_children cMem) (each c cMem) d (otherEach d dMem)
            have starts : ∀ c ∈ a.children "arguments" ++ b.children "arguments",
                (c.source level).toList ≠ [] ∧ (c.source level).toList.head? ≠ some ')' :=
              List.forall_mem_append.mpr ⟨fun c mem => (each c mem).starts (by decide),
                fun c mem => (otherEach c mem).starts (by decide)⟩
            rw [stepEq, otherStepEq]
            exact ((tells_closed (by decide) (by decide) (by decide) starts tellsArguments).cons
              '(').imp fun congruent => .inr ⟨kind, otherKind, congruent⟩
  · obtain ⟨rest, aEq⟩ := aStep.exists_text
    obtain ⟨others, bEq⟩ := bStep.exists_text
    rw [aEq, bEq]
    exact tells_of_head_ne (List.cons_ne_nil _ _) (List.cons_ne_nil _ _) fun eq =>
      heads (Option.some_inj.mp eq)

private theorem tells_number (nLegible : n.Legible) (mLegible : m.Legible)
    (isNumber : n.kind = .numericLiteral) (otherNumber : m.kind = .numericLiteral) :
    Tells closers (n.source level).toList (m.source level).toList (n.Congruent m) := by
  obtain ⟨x, value, finite, -, text⟩ := nLegible.exists_number level isNumber
  obtain ⟨y, otherValue, otherFinite, -, otherText⟩ :=
    mLegible.exists_number level otherNumber
  have free : ∀ {z : Number}, z.IsFinite → z.sourceText.toList.Disjoint closers := by
    intro z zFinite c mem closes
    obtain ⟨noDigit, noMark⟩ := noDigit_of_mem_closers closes
    rcases Number.mem_sourceText zFinite mem with digit | mark
    · exact Bool.false_ne_true (noDigit.symm.trans digit)
    · exact noMark mark
  rw [text, otherText]
  exact (tells_of_disjoint (free finite) (free otherFinite)).imp fun eq =>
    .number isNumber otherNumber value otherValue
      (Number.equals_of_sourceText_eq finite otherFinite (String.toList_inj.mp eq))

private theorem sizeOf_base_le (n : Node) : sizeOf n.base ≤ sizeOf n := by
  induction sizeEq : sizeOf n using Nat.strong_induction_on generalizing n with
  | _ size ih =>
      subst sizeEq
      cases found : n.inner? with
      | none => rw [base_of_no_inner found]
      | some inner =>
          have smaller := sizeOf_inner? found
          rw [base_of_inner? found]
          exact (ih _ smaller inner rfl).trans smaller.le

/-- The texts of legible expressions tell what the expressions are. -/
theorem tells_source (nLegible : n.Legible) (mLegible : m.Legible) :
    Tells closers (n.source level).toList (m.source level).toList (n.Congruent m) := by
  induction sizeEq : sizeOf n using Nat.strong_induction_on generalizing n m with
  | _ size ih =>
      subst sizeEq
      have parts : ∀ c : Node, sizeOf c < sizeOf n → c.Legible → ∀ d : Node, d.Legible →
          Tells closers (c.source level).toList (d.source level).toList (c.Congruent d) :=
        fun c smaller cLegible d dLegible => ih _ smaller cLegible dLegible rfl
      by_cases kinds : (n.kind = .numericLiteral ↔ m.kind = .numericLiteral)
      · by_cases isNumber : n.kind = .numericLiteral
        · exact tells_number nLegible mLegible isNumber (kinds.mp isNumber)
        · obtain ⟨nBaseLegible, nNoNumber⟩ := nLegible.base isNumber
          obtain ⟨mBaseLegible, mNoNumber⟩ := mLegible.base fun eq => isNumber (kinds.mpr eq)
          obtain ⟨mark, nBase⟩ := nBaseLegible.exists_base level (inner?_base n) nNoNumber
          obtain ⟨otherMark, mBase⟩ := mBaseLegible.exists_base level (inner?_base m) mNoNumber
          have bases := tells_base nBaseLegible mBaseLegible nBase mBase
            (fun a legible => legible.starts (by decide))
            fun a aMem b _ aLegible bLegible =>
              parts a ((sizeOf_children aMem).trans_le (sizeOf_base_le n)) aLegible b bLegible
          have steps : Tells closers (n.steps.flatMap (stepText level))
              (m.steps.flatMap (stepText level)) (List.Forall₂ SameStep n.steps m.steps) := by
            refine tells_steps fun a aMem b bMem => ?_
            obtain ⟨aLegible, aSize, aReached⟩ := nLegible.of_mem_steps aMem
            obtain ⟨bLegible, -, bReached⟩ := mLegible.of_mem_steps bMem
            obtain ⟨opener, aStep⟩ := aLegible.exists_step level aReached
            obtain ⟨other, bStep⟩ := bLegible.exists_step level bReached
            exact tells_step aStep bStep fun c smaller => parts c (smaller.trans_le aSize)
          rw [source_eq_steps, source_eq_steps level m]
          exact (bases.append (fun _ => steps) (fun xs on => goesOn_steps n.steps on)
            fun xs on => goesOn_steps m.steps on).imp fun both => congruent_of_steps both.1 both.2
      · -- only one of the two starts like a number
        obtain ⟨c, rest, nEq, -, nInitial⟩ := nLegible.exists_head level
        obtain ⟨d, others, mEq, -, mInitial⟩ := mLegible.exists_head level
        rw [nEq, mEq]
        refine tells_of_head_ne (List.cons_ne_nil _ _) (List.cons_ne_nil _ _) fun eq => kinds ?_
        rw [← nInitial, ← mInitial, Option.some_inj.mp eq]

end Ast.Node

end PropValidators
