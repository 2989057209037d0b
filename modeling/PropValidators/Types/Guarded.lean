import PropValidators.Types.Resolve

/-!
# Guarded contexts

A context that is changed by guards: those opened and closed one by one, and those that
a resolution opens and closes on its way.  Replaying the trace of a resolution on a
context shows what the resolution does to it.
-/

namespace PropValidators

namespace Context

/-- Closing a guard just opened restores the context, if the guard is not for a name
that was being resolved already. -/
theorem closed_opened {context : Context} {guard : Guard}
    (hfresh : ∀ name, guard = .entered name → name ∉ context.visited) :
    (context.opened guard).closed guard = context := by
  cases guard with
  | nested => rfl
  | bound frame => rfl
  | entered name =>
      have hname := hfresh name rfl
      have hkept : context.visited.filter (· ≠ name) = context.visited := by
        simp only [List.filter_eq_self, decide_eq_true_eq]
        rintro other hother rfl
        exact hname hother
      simp only [opened, closed, entering, List.contains_iff_mem, hname, if_false,
        List.filter_cons, ne_eq, not_true_eq_false, decide_false, Bool.false_eq_true]
      rw [show (context.visited.filter fun other => decide ¬other = name) = context.visited
        from hkept]

/-- The context after an event. -/
def after (context : Context) : Event → Context
  | .noted _ => context
  | .opened guard => context.opened guard
  | .closed guard => context.closed guard

/-- The context after a trace. -/
def replay (context : Context) (trace : List Event) : Context :=
  trace.foldl after context

end Context

/-- A context and the guards that are open, innermost first. -/
structure Guarded where
  context : Context
  guards : List Guard := []

namespace Guarded

/-- Open a guard. -/
def push (guarded : Guarded) (guard : Guard) : Guarded :=
  ⟨guarded.context.opened guard, guard :: guarded.guards⟩

/-- Close the innermost guard, if any is open. -/
def pop (guarded : Guarded) : Guarded :=
  match guarded.guards with
  | [] => guarded
  | guard :: outer => ⟨guarded.context.closed guard, outer⟩

/-- Run a computation in the context as it is, and let it change the context as its
trace says. -/
def run {α : Type} (guarded : Guarded) (computation : Context → Traced α) :
    Guarded × Traced α :=
  let traced := computation guarded.context
  ({ guarded with context := guarded.context.replay traced.trace }, traced)

end Guarded

end PropValidators
