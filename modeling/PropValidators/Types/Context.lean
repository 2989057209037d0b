import PropValidators.Options
import PropValidators.Registry
import PropValidators.Types.Expr
import PropValidators.Types.Guard

/-!
# Resolution contexts

What the shape of a type depends on besides the type: the declarations in sight, the
limit on the depth of expansion, the names that are being resolved on the current
branch, the depth reached, and the shapes bound to type parameters.  Only the
innermost frame of bindings is ever looked at.
-/

namespace PropValidators

/-- The context of a resolution. -/
structure Context where
  registry : Registry Declaration
  /-- The depth of types from which on they are no longer expanded, as it was given. -/
  maxDepth : Number
  /-- Names being resolved on this branch. -/
  visited : List String := []
  depth : Nat := 0
  /-- Frames of bindings, innermost first. -/
  bindings : List Frame := []

namespace Context

/-- The first depth that is too deep. -/
def limit (context : Context) : Int :=
  context.maxDepth.reachedFrom

/-- Whether the limit is reached. -/
def tooDeep (context : Context) : Bool :=
  context.limit ≤ context.depth

/-- The context one level deeper. -/
def nested (context : Context) : Context :=
  { context with depth := context.depth + 1 }

/-- The context inside a named type. -/
def entering (context : Context) (name : String) : Context :=
  { context with
    visited := if context.visited.contains name then context.visited else name :: context.visited }

/-- The context inside a declaration with bound parameters. -/
def binding (context : Context) (frame : Frame) : Context :=
  { context with bindings := frame :: context.bindings }

/-- The shape bound to a name in the innermost frame. -/
def bound? (context : Context) (name : String) : Option Shape :=
  (context.bindings.head?).bind fun frame => frame.get? name

/-- The context inside a guard. -/
def opened (context : Context) : Guard → Context
  | .entered name => context.entering name
  | .nested => context.nested
  | .bound frame => context.binding frame

/-- The context after a guard.  A name that was guarded is free again, even if an
earlier guard of that name is still open. -/
def closed (context : Context) : Guard → Context
  | .entered name => { context with visited := context.visited.filter (· ≠ name) }
  | .nested => { context with depth := context.depth - 1 }
  | .bound _ => { context with bindings := context.bindings.drop 1 }

/-- The number of registered names that are not being resolved. -/
def unvisited (context : Context) : Nat :=
  (context.registry.names.filter fun name => !context.visited.contains name).length

@[simp]
theorem unvisited_nested (context : Context) : context.nested.unvisited = context.unvisited :=
  rfl

@[simp]
theorem unvisited_binding (context : Context) (frame : Frame) :
    (context.binding frame).unvisited = context.unvisited :=
  rfl

/-- Entering a registered name that is not being resolved leaves fewer names. -/
theorem unvisited_entering_lt {context : Context} {name : String}
    (hname : name ∈ context.registry.names) (hfresh : context.visited.contains name = false) :
    (context.entering name).unvisited < context.unvisited := by
  simp only [unvisited, entering, hfresh, Bool.false_eq_true, if_false]
  generalize context.registry.names = names at hname
  induction names with
  | nil => simp at hname
  | cons head rest ih =>
      have hle : ∀ rest : List String,
          (rest.filter fun n => !(name :: context.visited).contains n).length ≤
            (rest.filter fun n => !context.visited.contains n).length := by
        intro rest
        induction rest with
        | nil => simp
        | cons n rest ih =>
            simp only [List.contains_cons, List.filter_cons] at ih ⊢
            by_cases hn : n = name
            · subst hn
              simp only [beq_self_eq_true, Bool.true_or, Bool.not_true, Bool.false_eq_true,
                if_false, hfresh, Bool.not_false, if_true, List.length_cons]
              omega
            · have hbeq : (n == name) = false := by simp [hn]
              simp only [hbeq, Bool.false_or] at ih ⊢
              split
              · simp only [List.length_cons]
                omega
              · exact ih
      rcases List.mem_cons.mp hname with rfl | htail
      · have := hle rest
        simp only [List.contains_cons, List.filter_cons, beq_self_eq_true, Bool.true_or,
          Bool.not_true, Bool.false_eq_true, if_false, hfresh, Bool.not_false, if_true,
          List.length_cons] at this ⊢
        omega
      · have := ih htail
        simp only [List.contains_cons, List.filter_cons] at this ⊢
        by_cases hn : head = name
        · subst hn
          simp only [beq_self_eq_true, Bool.true_or, Bool.not_true, Bool.false_eq_true,
            if_false, hfresh, Bool.not_false, if_true, List.length_cons]
          omega
        · have hbeq : (head == name) = false := by simp [hn]
          simp only [hbeq, Bool.false_or] at this ⊢
          split
          · simp only [List.length_cons]
            omega
          · exact this

end Context

end PropValidators
