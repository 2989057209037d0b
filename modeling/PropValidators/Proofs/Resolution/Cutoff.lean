import PropValidators.Ast.Builder
import PropValidators.Proofs.Resolution.Matching

/-!
# Limits out of reach

Every level that a resolution goes down is that of a node: of an object type, or of a declaration
that is not entered again further down.  So a limit that is as far away as there are nodes is
never reached, and it makes no difference how far away it is.
-/

namespace PropValidators.Resolution

open Ast

/-- All nodes of registered declarations. -/
def registeredNodes (registered : Registry Node) : List Node :=
  registered.entries.flatMap fun entry => entry.2.flatMap Node.walk

private theorem levels_ofNode_le (n : Node) :
    TypeExpr.division.height TypeExpr.levels (.ofNode n) ≤ n.walk.length := by
  rw [Node.walk_eq_tree]
  refine height_ofNode_le (fun type => ?_) rfl (fun _ => rfl) n
  cases type <;> simp [TypeExpr.levels]

private theorem declaration_levels_ofNode_le (n : Node) :
    (Declaration.ofNode n).levels ≤ n.walk.length := by
  rw [Node.walk_eq_tree]
  refine heightOf_parts_ofNode_lt (fun type => ?_) rfl (fun _ => rfl) (fun _ _ => rfl) n
  cases type <;> simp [TypeExpr.levels]

/-- The declarations that are still to come have no more levels than nodes. -/
theorem levelsLeft_le {context : Context} {registered : Registry Node}
    (declared : context.registry = registered.map Declaration.ofNode) :
    context.levelsLeft ≤ (registeredNodes registered).length := by
  have everyEntry : (context.registry.entries.map fun entry =>
      (entry.2.map Declaration.levels).sum).sum ≤ (registeredNodes registered).length := by
    rw [declared, Registry.map, registeredNodes, List.length_flatMap, List.map_map]
    refine List.sum_le_sum fun entry _ => ?_
    rw [Function.comp_apply, List.map_map, List.length_flatMap]
    exact List.sum_le_sum fun n _ => declaration_levels_ofNode_le n
  refine le_trans ?_ everyEntry
  exact (List.filter_sublist.map _).sum_le_sum fun _ _ => Nat.zero_le _

/-- A limit is only a cut-off.  Two limits that are as far from the depth of the context as there
are nodes in the type and in all registered declarations give the same outcome, however the
declarations refer to each other. -/
theorem outcome_resolveType_of_distant_limits {registered : Registry Node} {context : Context}
    (declared : context.registry = registered.map Declaration.ofNode) (n : Node)
    {first second : Number}
    (firstDistant :
      context.depth + n.walk.length + (registeredNodes registered).length ≤ first.reachedFrom)
    (secondDistant :
      context.depth + n.walk.length + (registeredNodes registered).length ≤ second.reachedFrom) :
    (resolveType { context with maxDepth := first } (.ofNode n)).outcome =
      (resolveType { context with maxDepth := second } (.ofNode n)).outcome := by
  have typeLevels := levels_ofNode_le n
  have left := levelsLeft_le declared
  refine resolved_eq_of_matching (.type (.ofNode n)) ⟨⟨rfl, fun _ => rfl, rfl, ?_⟩, fun _ => rfl⟩
  rw [Query.parts, heightOf_singleton]
  change first = second ∨
    (context.depth + _ + context.levelsLeft : Nat) ≤ first.reachedFrom ∧
      (context.depth + _ + context.levelsLeft : Nat) ≤ second.reachedFrom
  omega

/-- An interface with a member of its own type. -/
def chainDeclaration : Node :=
  interfaceDeclaration "Chain" [propertySignature "next" (reference "Chain" []) true] [] []

/-- The type that refers to it has two nodes, and the declaration has eight. -/
theorem outcome_resolveType_of_distant_limits_chain :
    let registered : Registry Node := ⟨[("Chain", [chainDeclaration])]⟩
    let context : Context := { registry := registered.map Declaration.ofNode, maxDepth := .int 10 }
    (reference "Chain" []).walk.length = 2 ∧ (registeredNodes registered).length = 8 ∧
      (resolveType context (.ofNode (reference "Chain" []))).outcome =
        (resolveType { context with maxDepth := .int 1000 }
          (.ofNode (reference "Chain" []))).outcome := by
  intro registered context
  have typeNodes : (reference "Chain" []).walk.length = 2 := by decide
  have declarationNodes : (registeredNodes registered).length = 8 := by decide
  have distant : (context.depth + (reference "Chain" []).walk.length +
      (registeredNodes registered).length : Int) ≤ 10 := by
    rw [typeNodes, declarationNodes]
    decide
  have declared : context.registry = registered.map Declaration.ofNode := rfl
  exact ⟨typeNodes, declarationNodes, outcome_resolveType_of_distant_limits declared
    (reference "Chain" []) distant (distant.trans (by decide))⟩

end PropValidators.Resolution
