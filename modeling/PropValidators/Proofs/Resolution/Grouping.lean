import PropValidators.Proofs.Resolution.Shapes
import PropValidators.Proofs.Resolution.Unions
import PropValidators.Proofs.Shapes.Grouping

/-!
# Unions and intersections in parentheses

Types in a row are resolved one after the other, whether or not some of them stand in parentheses
of their own.  So a union that has some of its types grouped into a union in parentheses gives
the same notices in the same order, and in the end the same shape, and so does an intersection.

Null has to be left out of the group of a union: alone in parentheses it is not seen from outside.
The parts of an intersection may be anything.
-/

namespace PropValidators.Resolution

open Shape

variable {context : Context}

theorem resolveAll_append (context : Context) (before after : List TypeExpr) :
    resolveAll context (before ++ after) = (do
      let shapes ← resolveAll context before
      let others ← resolveAll context after
      return shapes ++ others) := by
  induction before with
  | nil => simp [resolveAll]
  | cons type more ih =>
      simp only [List.cons_append, resolveAll, ih, bind_assoc, pure_bind]

theorem wellFormed_of_resolveAll (formed : context.BindingsWellFormed) {types : List TypeExpr}
    {shapes : List Shape} (returned : (resolveAll context types).outcome = .ok shapes) :
    ∀ shape ∈ shapes, shape.WellFormed := by
  have each := forall₂_of_resolveAll returned
  clear returned
  induction each with
  | nil => simp
  | cons typeEq _ ih =>
      have shapeFormed := answerWellFormed_of_resolved (.type _) formed trivial typeEq
      exact List.forall_mem_cons.mpr ⟨shapeFormed, ih⟩

/-- A group may be resolved for itself, if its shape is gathered from those of its types and
stands for them in what is made of all shapes. -/
theorem map_resolveAll_grouped {β : Type} {group : TypeExpr} {run : List TypeExpr}
    {gather : List Shape → Shape} {finish : List Shape → β}
    (groupEq : resolveType context group = gather <$> resolveAll context run)
    (law : ∀ shapes, (resolveAll context run).outcome = .ok shapes → ∀ before after,
      finish (before ++ gather shapes :: after) = finish (before ++ shapes ++ after))
    (before after : List TypeExpr) :
    finish <$> resolveAll context (before ++ group :: after) =
      finish <$> resolveAll context (before ++ run ++ after) := by
  simp only [List.append_assoc, resolveAll_append, resolveAll, groupEq, map_eq_pure_bind,
    bind_assoc, pure_bind]
  congr 1
  funext earlier
  apply Traced.bind_congr
  intro shapes returned
  congr 1
  funext later
  rw [law shapes returned, List.append_assoc]

theorem resolveType_union (context : Context) (types : List TypeExpr) :
    resolveType context (.union types) =
      unionShape <$> resolveAll context (types.filter fun type => !type.isNullish) := by
  rw [resolveType, resolveAlternatives_eq, map_eq_pure_bind]

/-- Types that are not null and resolve to well-formed shapes can be grouped in a union. -/
theorem map_resolveAll_union {β : Type} (formed : context.BindingsWellFormed) {run : List TypeExpr}
    (some : run ≠ []) (present : ∀ type ∈ run, type.isNullish = false) {finish : List Shape → β}
    (law : ∀ shapes, shapes ≠ [] → (∀ shape ∈ shapes, shape.IsFlat) → ∀ before after,
      finish (before ++ unionShape shapes :: after) = finish (before ++ shapes ++ after))
    (before after : List TypeExpr) :
    finish <$> resolveAll context ((before ++ .parenthesized (.union run) :: after).filter
        fun type => !type.isNullish) =
      finish <$> resolveAll context ((before ++ run ++ after).filter
        fun type => !type.isNullish) := by
  have runKept : run.filter (fun type => !type.isNullish) = run := by
    rw [List.filter_eq_self]
    intro type mem
    rw [present type mem]
    rfl
  have groupEq : resolveType context (.parenthesized (.union run)) =
      unionShape <$> resolveAll context run := by
    rw [resolveType, resolveType_union, runKept]
  rw [List.filter_append, List.filter_cons_of_pos rfl, List.filter_append, List.filter_append,
    runKept]
  refine map_resolveAll_grouped groupEq (fun shapes returned => ?_) _ _
  apply law shapes
  · rw [ne_eq, ← List.length_eq_zero_iff, length_of_resolveAll returned, List.length_eq_zero_iff]
    exact some
  · intro shape mem
    exact (wellFormed_of_resolveAll formed returned shape mem).isFlat

theorem resolveNullable_union (context : Context) (types : List TypeExpr) :
    resolveNullable context (.union types) =
      (fun shapes => (unionShape shapes, types.any TypeExpr.isNullish || shapes.isEmpty)) <$>
        resolveAll context (types.filter fun type => !type.isNullish) := by
  rw [resolveNullable_eq]
  simp only [bare, withoutParentheses, resolveUnwrapped, resolveAlternatives_eq, map_eq_pure_bind]

/-- It makes no difference how a union is grouped.  Shapes may be combined in groups before they
are combined; and types of a union that are not null may stand in a union of their own, in
parentheses, without any difference to the shape, to the notices on the way or to what null in
the union makes optional. -/
theorem union_grouped :
    (∀ before run after : List Shape, (∀ shape ∈ run, shape.IsFlat) →
        combine (before ++ combine run :: after) = combine (before ++ run ++ after)) ∧
      ∀ context : Context, context.BindingsWellFormed →
        ∀ before run after : List TypeExpr, run ≠ [] →
          (∀ type ∈ run, type.isNullish = false) →
          let grouped : TypeExpr := .union (before ++ .parenthesized (.union run) :: after)
          let flat : TypeExpr := .union (before ++ run ++ after)
          resolveType context grouped = resolveType context flat ∧
            resolveNullable context grouped = resolveNullable context flat := by
  refine ⟨fun before run after flat => combine_grouped flat before after, ?_⟩
  intro context formed before run after some present grouped flat
  constructor
  · rw [resolveType_union, resolveType_union]
    exact map_resolveAll_union formed some present (fun _ => unionShape_grouped) before after
  · have nullEq : (before ++ .parenthesized (.union run) :: after).any TypeExpr.isNullish =
        (before ++ run ++ after).any TypeExpr.isNullish := by
      have none : run.any TypeExpr.isNullish = false := by
        rw [List.any_eq_false]
        intro type mem
        rw [present type mem]
        exact Bool.false_ne_true
      rw [List.any_append, List.any_cons, List.any_append, List.any_append, none, Bool.or_false]
      rfl
    rw [resolveNullable_union, resolveNullable_union, nullEq]
    refine map_resolveAll_union formed some present (fun shapes some flat earlier later => ?_)
      before after
    have bothSome : (earlier ++ unionShape shapes :: later).isEmpty =
        (earlier ++ shapes ++ later).isEmpty := by
      rw [Bool.eq_iff_iff]
      simp [some]
    rw [unionShape_grouped some flat, bothSome]

/-- A type parameter stands for a union, which is opened in the group and again with the group.
The text that is in it and before it comes to stand in the one set, in the place of the first. -/
theorem union_grouped_bound :
    let bound : Shape := .union [.primitive .number, .oneOf [.text "b", .text "a"]]
    let context : Context := { registry := ⟨[]⟩, maxDepth := .int 5, bindings := [[("T", bound)]] }
    let before : List TypeExpr := [.literal (.text "a"), .nullish]
    let run : List TypeExpr := [.reference (some "T") [], .literal (.text "c")]
    let after : List TypeExpr := [.primitive .number]
    let shape : Shape :=
      .union [.oneOf [.text "a", .text "b", .text "c"], .primitive .number]
    combine ([.oneOf [.text "a"]] ++ combine [bound, .oneOf [.text "c"]] :: [.primitive .number]) =
        shape ∧
      (resolveType context (.union (before ++ run ++ after))).outcome = .ok shape ∧
      resolveType context (.union (before ++ .parenthesized (.union run) :: after)) =
        resolveType context (.union (before ++ run ++ after)) ∧
      resolveNullable context (.union (before ++ .parenthesized (.union run) :: after)) =
        resolveNullable context (.union (before ++ run ++ after)) := by
  intro bound context before run after shape
  have boundFormed : bound.WellFormed := by
    refine .union ⟨by decide, by decide, by decide, by decide⟩ ?_
    rw [List.forall_mem_cons, List.forall_mem_singleton]
    exact ⟨.primitive .number, .oneOf (by decide)⟩
  have formed : context.BindingsWellFormed := by
    rw [Context.BindingsWellFormed, List.forall_mem_singleton, List.forall_mem_singleton]
    exact boundFormed
  have flat : ∀ member ∈ [bound, .oneOf [.text "c"]], member.IsFlat := by
    rw [List.forall_mem_cons, List.forall_mem_singleton]
    exact ⟨boundFormed.isFlat, (wellFormed_singleton _).isFlat⟩
  have combined : combine ([.oneOf [.text "a"]] ++ [bound, .oneOf [.text "c"]] ++
      [.primitive .number]) = shape := rfl
  have returned : (resolveType context (.union (before ++ run ++ after))).outcome =
      .ok shape := by
    have bound? : context.bound? "T" = some bound := rfl
    have whole : unionShape [.oneOf [.text "a"], bound, .oneOf [.text "c"],
      .primitive .number] = shape := rfl
    simp [before, run, after, resolveType, resolveAlternatives, TypeExpr.isNullish, bound?, whole]
  refine ⟨?_, returned, ?_⟩
  · rw [← combined]
    exact union_grouped.1 _ _ _ flat
  · exact union_grouped.2 context formed before run after (List.cons_ne_nil _ _) (by decide)

/-- Types that have some runs among them grouped into intersections in parentheses, and inside
the groups again. -/
inductive Grouped : List TypeExpr → List TypeExpr → Prop
  | none : Grouped [] []
  | single (type : TypeExpr) {flat grouped : List TypeExpr} :
      Grouped flat grouped → Grouped (type :: flat) (type :: grouped)
  | group {run inner flat grouped : List TypeExpr} : Grouped run inner → Grouped flat grouped →
      Grouped (run ++ flat) (.parenthesized (.intersection inner) :: grouped)

@[simp]
theorem resolveType_intersection (context : Context) (operands : List TypeExpr) :
    resolveType context (.intersection operands) =
      intersect <$> resolveAll context operands := by
  rw [resolveType, map_eq_pure_bind]

/-- A run of operands may be grouped. -/
theorem intersection_grouped (before run after : List TypeExpr) :
    resolveType context
        (.intersection (before ++ .parenthesized (.intersection run) :: after)) =
      resolveType context (.intersection (before ++ run ++ after)) := by
  have groupEq : resolveType context (.parenthesized (.intersection run)) =
      intersect <$> resolveAll context run := by
    rw [resolveType, resolveType_intersection]
  rw [resolveType_intersection, resolveType_intersection]
  exact map_resolveAll_grouped groupEq (fun shapes _ earlier later =>
    intersect_grouped earlier shapes later) before after

/-- Operands may be grouped in the midst of others, and grouped again. -/
theorem intersection_of_grouped {flat grouped : List TypeExpr} (groups : Grouped flat grouped)
    (before after : List TypeExpr) :
    resolveType context (.intersection (before ++ grouped ++ after)) =
      resolveType context (.intersection (before ++ flat ++ after)) := by
  induction groups generalizing before after with
  | none => rfl
  | @single type flat grouped _ ih =>
      rw [List.append_cons before type grouped, List.append_cons before type flat]
      exact ih (before ++ [type]) after
  | @group run inner flat grouped _ _ innerIh restIh =>
      have opened : resolveType context (.intersection
            (before ++ .parenthesized (.intersection inner) :: grouped ++ after)) =
          resolveType context (.intersection (before ++ inner ++ (grouped ++ after))) := by
        rw [List.append_assoc, List.cons_append, intersection_grouped]
      rw [opened, innerIh, ← List.append_assoc, restIh, List.append_assoc before run flat]

/-- Merging fields leaves each name once, in the order in which they came first, with the field
that came last.  So it makes no difference how groups of fields are merged; nor, in any context,
how the operands of an intersection are grouped, whatever they are and however deep the groups
go: the shape is the same, and so are the notices on the way. -/
theorem merging_grouped :
    (∀ groups : List (List Field),
        ((mergeFields groups).map Field.name).Nodup ∧
          (mergeFields groups).map Field.name = (groups.flatten.map Field.name).eraseDups ∧
          ∀ name, fieldNamed? (mergeFields groups) name =
            fieldNamed? groups.flatten.reverse name) ∧
      (∀ before run after : List (List Field),
        mergeFields (before ++ mergeFields run :: after) = mergeFields (before ++ run ++ after)) ∧
      ∀ (context : Context) (flat grouped : List TypeExpr), Grouped flat grouped →
        resolveType context (.intersection grouped) =
          resolveType context (.intersection flat) := by
  refine ⟨fun groups => ⟨?_, ?_, ?_⟩, mergeFields_grouped, ?_⟩
  · exact nodup_mergeFields_names groups
  · exact mergeFields_names groups
  · exact fieldNamed?_mergeFields groups
  · intro context flat grouped groups
    have whole : resolveType context (.intersection ([] ++ grouped ++ [])) =
        resolveType context (.intersection ([] ++ flat ++ [])) :=
      intersection_of_grouped groups [] []
    rwa [List.append_nil, List.append_nil] at whole

/-- The group holds a group that has no object in it, and is left out; the field that is in the
group and before it stands where it is first, as it is declared last. -/
theorem merging_grouped_nested :
    let context : Context := { registry := ⟨[]⟩, maxDepth := .int 5 }
    let first : TypeExpr :=
      .object [.property "a" (.primitive .string) false, .method "b" false]
    let second : TypeExpr := .object [.property "a" (.primitive .number) true]
    let inner : List TypeExpr :=
      [.parenthesized (.intersection [.primitive .string, .untold]), second]
    let grouped : TypeExpr :=
      .intersection [first, .parenthesized (.intersection inner), .primitive .number]
    let flat : TypeExpr :=
      .intersection [first, .primitive .string, .untold, second, .primitive .number]
    resolveType context grouped = resolveType context flat ∧
      (resolveType context flat).outcome = .ok (.object
        [⟨"a", .primitive .number, true, false⟩, ⟨"b", .primitive .function, false, false⟩]) := by
  intro context first second inner grouped flat
  constructor
  · exact merging_grouped.2.2 context _ _
      (.single first (.group (.group (.single _ (.single _ .none)) (.single second .none))
        (.single _ .none)))
  · have shallow : context.tooDeep = false := rfl
    simp only [flat, first, second, resolveType, resolveAll, shallow, resolveMembers,
      resolveNullable, resolveUnwrapped, Bool.false_eq_true, if_false]
    rfl

end PropValidators.Resolution
