import PropValidators.Proofs.Resolution.Bounds
import PropValidators.Proofs.Resolution.Inheritance

/-!
# What the depth limit bounds

The limit bounds how deep a shape is, but it is not the bound itself.  Where no registered name is
applied to arguments, a shape nests no more objects than there are levels left.  An application
puts shapes that have used up levels of their own into a body that uses up levels again, so there
the bound grows with the applications inside one another: as a power with each level, for those in
the declarations.
-/

namespace PropValidators.Resolution

open Admission Contract

private theorem nesting_le_reach {context : Context} {type : TypeExpr} {shape : Shape}
    (returned : (resolveType context type).outcome = .ok shape) :
    shape.nesting ≤ context.reach
      (TypeExpr.division.height context.registry.applications type) := by
  have asks : (boundContract all).Asks context (.type type) :=
    ⟨⟨fun _ declaration _ => admitsDeclaration_all declaration, fun _ _ => trivial⟩,
      fun _ _ _ binding _ => values_all binding.2, admits_all type⟩
  have arrives : (boundContract all).Arrives (Shape.Within all.literal
      ((Query.type type).bound context)) (resolveType context type).outcome := arrives_within asks
  rw [returned] at arrives
  have within : shape.nesting ≤ (Query.type type).bound context := arrives.nesting_le
  rwa [Query.bound, Query.parts, heightOf_singleton] at within

/-- The limit bounds how deep a shape is.  What is bound to parameters is there from the start.
The levels left add one object each if no registered name is applied to arguments, neither in the
type nor in a declaration; and with applications inside one another, each level adds in turn what
the levels below it can add. -/
theorem nesting_le_of_resolveType {context : Context} {type : TypeExpr} {shape : Shape}
    (returned : (resolveType context type).outcome = .ok shape) :
    shape.nesting ≤ nestingOf context.boundShapes +
        (TypeExpr.division.height context.registry.applications type + 1) *
          ∑ i ∈ Finset.range (context.limit - context.depth).toNat,
            (context.registry.deepest + 1) ^ i ∧
      (TypeExpr.division.height context.registry.applications type = 0 →
        context.registry.deepest = 0 →
        shape.nesting ≤ nestingOf context.boundShapes + (context.limit - context.depth).toNat) := by
  have within := nesting_le_reach returned
  rw [Context.reach, Context.growth, Context.room] at within
  refine ⟨within, fun typeFlat declarationsFlat => ?_⟩
  rw [typeFlat, declarationsFlat] at within
  simpa using within

/-- A generic interface with one field. -/
def boxDeclaration : Declaration :=
  .interface ["T"] [] [.property "value" (.reference (some "T") []) false]

/-- The context that declares it and nothing else, with one level. -/
def boxContext : Context where
  registry := ⟨[("Box", [boxDeclaration])]⟩
  maxDepth := .int 1

/-- An object with a value. -/
def boxed (shape : Shape) : Shape :=
  .object [⟨"value", shape, false, false⟩]

/-- The box of an argument holds the argument as it is. -/
@[simp]
theorem outcome_resolveName_box (shape : Shape) :
    (resolveName boxContext "Box" [shape]).outcome = .ok (boxed shape) := by
  have declared : boxContext.registry.get "Box" = [boxDeclaration] := rfl
  have bound? : ((boxContext.entering "Box").nested.binding
      (Frame.ofArguments ["T"] [shape])).bound? "T" = some (shape.passed 0) := rfl
  have own : (resolveMembers
      ((boxContext.entering "Box").nested.binding (Frame.ofArguments ["T"] [shape]))
      [.property "value" (.reference (some "T") []) false]).outcome =
        .ok [⟨"value", shape.passed 0, false, false⟩] := by
    simp [resolveMembers, resolveNullable, resolveUnwrapped, resolveType, bound?]
  have fieldEq : Field.returned ⟨"value", shape.passed 0, false, false⟩ =
      ⟨"value", shape, false, false⟩ :=
    congrArg (fun inner => Field.mk "value" inner false false) (Shape.returned_passed shape 0)
  rw [outcome_resolveName_of_interfaces declared (List.cons_ne_nil _ _) rfl rfl rfl,
    boxDeclaration, resolveInterfaces, resolveHeritage]
  simp only [Traced.outcome_bind, Traced.outcome_within, Traced.outcome_pure, own, Except.bind,
    resolveInterfaces]
  change Except.ok (Shape.object [Field.returned ⟨"value", shape.passed 0, false, false⟩]) = _
  rw [fieldEq, boxed]

/-- Arguments are resolved where the name is referred to, with the same level left. -/
theorem outcome_resolveType_box {type : TypeExpr} {shape : Shape}
    (returned : (resolveType boxContext type).outcome = .ok shape) :
    (resolveType boxContext (.reference (some "Box") [type])).outcome = .ok (boxed shape) := by
  have unbound : boxContext.bound? "Box" = none := rfl
  have registered : boxContext.registry.contains "Box" = true := rfl
  simp only [resolveType, unbound, registered, if_true, resolveAll, Traced.outcome_bind, returned,
    Traced.outcome_pure, Except.bind, outcome_resolveName_box]

@[simp]
theorem nesting_boxed (shape : Shape) : (boxed shape).nesting = 1 + shape.nesting := by
  rw [Shape.nesting, Division.height_eq]
  exact congrArg (1 + ·) (Nat.max_zero shape.nesting)

/-- The type of a box in a box. -/
def boxInBox : TypeExpr :=
  .reference (some "Box") [.reference (some "Box") [.primitive .string]]

@[simp]
theorem outcome_resolveType_boxInBox :
    (resolveType boxContext boxInBox).outcome = .ok (boxed (boxed (.primitive .string))) := by
  have innermost : (resolveType boxContext (.primitive .string)).outcome =
      .ok (.primitive .string) := by
    rw [resolveType]
    rfl
  exact outcome_resolveType_box (outcome_resolveType_box innermost)

@[simp]
theorem nesting_boxInBox : (boxed (boxed (.primitive .string))).nesting = 2 := by
  have flat : (Shape.primitive .string).nesting = 0 := by
    rw [Shape.nesting, Division.height_eq]
    rfl
  rw [nesting_boxed, nesting_boxed, flat]

/-- A box in a box has two applications inside one another. -/
theorem nesting_le_of_resolveType_boxInBox :
    (resolveType boxContext boxInBox).outcome = .ok (boxed (boxed (.primitive .string))) ∧
      TypeExpr.division.height boxContext.registry.applications boxInBox = 2 ∧
      boxContext.registry.deepest = 0 ∧
      (boxed (boxed (.primitive .string))).nesting ≤ 3 := by
  have twice : TypeExpr.division.height boxContext.registry.applications boxInBox = 2 := by
    simp only [boxInBox, height_eq_add_heightOf, TypeExpr.parts, heightOf_singleton]
    rfl
  have flat : boxContext.registry.deepest = 0 := by
    change max (heightOf boxContext.registry.applications [.reference (some "T") []]) 0 = 0
    rw [heightOf_singleton, height_eq_add_heightOf]
    rfl
  have bound := (nesting_le_of_resolveType outcome_resolveType_boxInBox).1
  rw [twice, flat] at bound
  exact ⟨outcome_resolveType_boxInBox, twice, flat, bound⟩

/-- The limit alone is no bound: with one level, a box in a box is two objects deep. -/
theorem nesting_gt_limit_boxInBox :
    ¬ ∀ (registry : Registry Declaration) (limit : Int) (type : TypeExpr) (shape : Shape),
      (resolveType { registry := registry, maxDepth := .int limit } type).outcome = .ok shape →
        shape.nesting ≤ limit.toNat := by
  intro bounded
  have le := bounded boxContext.registry 1 boxInBox _ outcome_resolveType_boxInBox
  rw [nesting_boxInBox] at le
  exact absurd le (by decide)

end PropValidators.Resolution
