import PropValidators.Proofs.Outcomes
import PropValidators.Proofs.Resolution.Agreement
import PropValidators.Proofs.Shapes.WellFormed

/-!
# The alternatives of unions

The shape of a union is made of the shapes of its types.  Unions among these are opened, all
literal values come together in one set, and every other alternative is a member, unless one
before it is equal.  Nothing else is a member.

Equality does not look at the kinds of values, so of two alternatives that differ in nothing but
the kinds of values inside them only the first is there.  This is the only way in which an
alternative is lost.
-/

namespace PropValidators

namespace Shape

/-- What the members are that alternatives are combined to. -/
structure Gathered (alternatives members : List Shape) : Prop where
  /-- No two members are equal. -/
  apart : Apart equals members
  /-- There is one set of literals at most. -/
  grouped : members.countP isOneOf ≤ 1
  /-- Each literal value is in the set, or one of its kind that is the same. -/
  literal : ∀ v ∈ alternatives.flatMap values,
    ∃ w ∈ members.flatMap values, w = v ∨ w.same v = true
  /-- Each other alternative is a member, or one is that is equal. -/
  other : ∀ a ∈ alternatives, a.isOneOf = false → ∃ m ∈ members, m = a ∨ m.equals a = true
  /-- There is a set of literals only where there was one, and no value is new in it. -/
  onlyLiterals : ∀ m ∈ members, m.isOneOf = true →
    (∃ a ∈ alternatives, a.isOneOf = true) ∧ ∀ w ∈ m.values, w ∈ alternatives.flatMap values
  /-- All other members are alternatives. -/
  onlyOthers : ∀ m ∈ members, m.isOneOf = false → m ∈ alternatives

/-- Alternatives are gathered by grouping the literals and dropping what is repeated. -/
theorem gathered_dedupe (opened : List Shape) :
    let literals := dedupe Literal.same (opened.flatMap values)
    Gathered opened (dedupe equals (groupLiterals (.oneOf literals) opened)) := by
  intro literals
  have kept := dedupe_sublist equals (groupLiterals (.oneOf literals) opened)
  -- The only set among the members is that of all literals.
  have set_eq : ∀ m ∈ dedupe equals (groupLiterals (.oneOf literals) opened),
      m.isOneOf = true → m = .oneOf literals ∧ ∃ a ∈ opened, a.isOneOf = true := by
    intro m mem isSet
    rcases mem_groupLiterals_iff.mp (kept.subset mem) with grouped | ⟨-, notSet⟩
    · exact grouped
    · rw [notSet] at isSet
      cases isSet
  constructor
  · exact dedupe_apart equals_comm _
  · exact Nat.le_trans kept.countP_le (countP_groupLiterals _ _)
  · intro v mem
    obtain ⟨w, wMem, same⟩ := exists_mem_dedupe Literal.same mem
    obtain ⟨set, setMem, inSet⟩ := List.mem_flatMap.mp mem
    have groupedMem : .oneOf literals ∈ groupLiterals (.oneOf literals) opened :=
      mem_groupLiterals_iff.mpr (.inl ⟨rfl, set, setMem, isOneOf_of_mem_values inSet⟩)
    obtain ⟨m, mMem, equal⟩ := exists_mem_dedupe equals groupedMem
    have isSet : m.isOneOf = true := by
      rcases equal with rfl | equal
      · rfl
      · exact isOneOf_eq_of_equals equal
    obtain ⟨rfl, -⟩ := set_eq m mMem isSet
    exact ⟨w, List.mem_flatMap.mpr ⟨_, mMem, wMem⟩, same⟩
  · intro a mem notSet
    exact exists_mem_dedupe equals (mem_groupLiterals_iff.mpr (.inr ⟨mem, notSet⟩))
  · intro m mem isSet
    obtain ⟨rfl, some⟩ := set_eq m mem isSet
    exact ⟨some, fun w wMem => (dedupe_sublist Literal.same _).subset wMem⟩
  · intro m mem notSet
    rcases mem_groupLiterals_iff.mp (kept.subset mem) with ⟨rfl, -⟩ | ⟨alternative, -⟩
    · cases notSet
    · exact alternative

/-- Combined alternatives are the members of a union, or there is one member only. -/
theorem exists_gathered_combine (shapes : List Shape) :
    ∃ members, (combine shapes = .union members ∨ members = [combine shapes]) ∧
      Gathered (shapes.flatMap alternatives) members := by
  refine ⟨_, ?_, gathered_dedupe (shapes.flatMap alternatives)⟩
  rw [combine]
  split
  · rename_i single eq
    exact .inr eq
  · exact .inl rfl

/-- Members that are the same as equal alternatives, kinds of values included, are one. -/
theorem same_of_present {members : List Shape} (apart : Apart equals members) {a b m n : Shape}
    (mMem : m ∈ members) (nMem : n ∈ members) (forA : m = a ∨ m.same a = true)
    (forB : n = b ∨ n.same b = true) (equal : a.equals b = true) : a = b ∨ a.same b = true := by
  have left : m.equals b = true := by
    rcases forA with rfl | same
    · exact equal
    · rw [equals_congr same, equal]
  have both : m.equals n = true := by
    rcases forB with rfl | same
    · exact left
    · rw [equals_comm, equals_congr same, equals_comm, left]
  obtain rfl := apart.eq_of_same mMem nMem both
  rcases forA with rfl | sameA
  · exact forB
  · rcases forB with rfl | sameB
    · exact .inr ((same_comm a m).trans sameA)
    · exact .inr ((same_congr sameA b).symm.trans sameB)

/-- All alternatives are there, with the kinds of the values in them, exactly if those that are
equal are the same. -/
theorem Gathered.present_iff {opened members : List Shape} (gathered : Gathered opened members) :
    (∀ a ∈ opened, a.isOneOf = false → ∃ m ∈ members, m = a ∨ m.same a = true) ↔
      ∀ a ∈ opened, ∀ b ∈ opened, a.isOneOf = false → b.isOneOf = false → a.equals b = true →
        a = b ∨ a.same b = true := by
  constructor
  · intro present a aMem b bMem aOther bOther equal
    obtain ⟨m, mMem, forA⟩ := present a aMem aOther
    obtain ⟨n, nMem, forB⟩ := present b bMem bOther
    exact same_of_present gathered.apart mMem nMem forA forB equal
  · intro distinguished a aMem aOther
    obtain ⟨m, mMem, rfl | equal⟩ := gathered.other a aMem aOther
    · exact ⟨m, mMem, .inl rfl⟩
    · have mOther : m.isOneOf = false := (isOneOf_eq_of_equals equal).trans aOther
      exact ⟨m, mMem, distinguished m (gathered.onlyOthers m mMem mOther) a aMem mOther aOther
        equal⟩

end Shape

namespace Resolution

open Shape

variable {context : Context}

theorem forall₂_of_resolveAll {types : List TypeExpr} {shapes : List Shape}
    (returned : (resolveAll context types).outcome = .ok shapes) :
    List.Forall₂ (fun type s => (resolveType context type).outcome = .ok s) types shapes := by
  induction types generalizing shapes with
  | nil =>
      rw [resolveAll] at returned
      cases returned
      exact .nil
  | cons type more ih =>
      rw [resolveAll, Traced.outcome_bind, bind_eq_ok] at returned
      obtain ⟨s, head, rest⟩ := returned
      rw [Traced.outcome_bind, bind_eq_ok] at rest
      obtain ⟨others, tail, eq⟩ := rest
      cases eq
      exact .cons head (ih tail)

/-- The shape of a union has all literal values of its alternatives in one set, and every other
alternative as a member or one that is equal; it has nothing else.  All alternatives are there
with the kinds of the values in them exactly if no two of them, which are not sets of literals,
differ in nothing but these kinds. -/
theorem alternatives_of_union {types : List TypeExpr} {shape : Shape}
    (returned : (resolveType context (.union types)).outcome = .ok shape) :
    ∃ shapes, List.Forall₂ (fun type s => (resolveType context type).outcome = .ok s)
        (types.filter fun type => !type.isNullish) shapes ∧
      (shapes = [] → shape = .unknown) ∧
      (shapes ≠ [] →
        let opened := shapes.flatMap alternatives
        ∃ members, (shape = .union members ∨ members = [shape]) ∧ Gathered opened members ∧
          ((∀ a ∈ opened, a.isOneOf = false → ∃ m ∈ members, m = a ∨ m.same a = true) ↔
            ∀ a ∈ opened, ∀ b ∈ opened, a.isOneOf = false → b.isOneOf = false →
              a.equals b = true → a = b ∨ a.same b = true)) := by
  rw [resolveType, resolveAlternatives_eq, Traced.outcome_bind, bind_eq_ok] at returned
  obtain ⟨shapes, shapesEq, eq⟩ := returned
  have shapeEq : unionShape shapes = shape := Except.ok.inj eq
  refine ⟨shapes, forall₂_of_resolveAll shapesEq, ?_, fun some => ?_⟩
  · rintro rfl
    exact shapeEq.symm
  · have combined : shape = combine shapes := by
      rw [← shapeEq, unionShape, if_neg (by simpa using some)]
    obtain ⟨members, forms, gathered⟩ := exists_gathered_combine shapes
    rw [← combined] at forms
    exact ⟨members, forms, gathered, gathered.present_iff⟩

/-- Values of different kinds are all there where they stand in a set of literals. -/
theorem alternatives_of_union_literals :
    let context : Context := { registry := ⟨[]⟩, maxDepth := .int 5 }
    let types : List TypeExpr :=
      [.literal (.number (.int 1)), .nullish, .array (.primitive .string), .literal (.truth true)]
    let opened : List Shape :=
      [.oneOf [.number (.int 1)], .array (.primitive .string), .oneOf [.truth true]]
    let members : List Shape :=
      [.oneOf [.number (.int 1), .truth true], .array (.primitive .string)]
    (resolveType context (.union types)).outcome = .ok (.union members) ∧
      Gathered opened members := by
  intro context types opened members
  have returned : (resolveType context (.union types)).outcome = .ok (.union members) := by
    simp [types, resolveType, resolveAlternatives, TypeExpr.isNullish]
    rfl
  obtain ⟨shapes, each, -, several⟩ := alternatives_of_union returned
  have opens : List.Forall₂ (fun type s => (resolveType context type).outcome = .ok s)
      (types.filter fun type => !type.isNullish) opened :=
    .cons (by simp [resolveType])
      (.cons (by simp [resolveType]) (.cons (by simp [resolveType]) .nil))
  obtain rfl : shapes = opened :=
    List.right_unique_forall₂' (fun _ _ _ one other => Except.ok.inj (one.symm.trans other)) each
      opens
  obtain ⟨others, forms, gathered, -⟩ := several (List.cons_ne_nil _ _)
  refine ⟨returned, ?_⟩
  rcases forms with forms | rfl
  · cases forms
    exact gathered
  · -- No alternative is a union.
    have contrary := gathered.onlyOthers _ (List.mem_singleton_self _) rfl
    simp [opened, alternatives] at contrary

/-- Of arrays whose items are `1` and `true` only the first is there. -/
theorem array_of_truth_lost :
    let context : Context := { registry := ⟨[]⟩, maxDepth := .int 5 }
    let one : TypeExpr := .array (.literal (.number (.int 1)))
    let truth : TypeExpr := .array (.literal (.truth true))
    let kept : Shape := .array (.oneOf [.number (.int 1)])
    let lost : Shape := .array (.oneOf [.truth true])
    (resolveType context one).outcome = .ok kept ∧
      (resolveType context truth).outcome = .ok lost ∧
      (resolveType context (.union [one, truth])).outcome = .ok kept ∧
      kept.equals lost = true ∧ kept.same lost = false ∧
      ¬ ∀ (context : Context) (types : List TypeExpr) (shape : Shape) (shapes : List Shape),
        (resolveType context (.union types)).outcome = .ok shape →
        List.Forall₂ (fun type s => (resolveType context type).outcome = .ok s)
          (types.filter fun type => !type.isNullish) shapes →
        shapes ≠ [] →
        ∃ members, (shape = .union members ∨ members = [shape]) ∧
          ∀ a ∈ shapes.flatMap alternatives, a.isOneOf = false →
            ∃ m ∈ members, m.same a = true := by
  intro context one truth kept lost
  have oneEq : (resolveType context one).outcome = .ok kept := by
    simp [one, resolveType, kept]
  have truthEq : (resolveType context truth).outcome = .ok lost := by
    simp [truth, resolveType, lost]
  have unionEq : (resolveType context (.union [one, truth])).outcome = .ok kept := by
    simp [one, truth, resolveType, resolveAlternatives, TypeExpr.isNullish]
    rfl
  refine ⟨oneEq, truthEq, unionEq, by rfl, by rfl, fun claim => ?_⟩
  obtain ⟨members, forms, present⟩ := claim context [one, truth] kept [kept, lost] unionEq
    (.cons oneEq (.cons truthEq .nil)) (List.cons_ne_nil _ _)
  obtain ⟨m, mem, same⟩ := present lost (by simp [kept, lost, alternatives]) rfl
  rcases forms with forms | rfl
  · change Shape.array _ = .union _ at forms
    cases forms
  · obtain rfl := List.mem_singleton.mp mem
    cases same

end Resolution

end PropValidators
