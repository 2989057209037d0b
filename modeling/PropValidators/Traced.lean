import PropValidators.Fault
import PropValidators.Notice
import PropValidators.Types.Guard

/-!
# Traced computations

A computation that leaves a trace on its way and may end in a fault.  The trace holds
the notices that were given and the guards that were opened and closed.  What was traced
before a fault is kept, and guards are closed also when a fault ends what they hold for.
-/

namespace PropValidators

/-- A step in a trace. -/
inductive Event where
  | noted (notice : Notice)
  | opened (guard : Guard)
  | closed (guard : Guard)

/-- The notice that an event is, if it is one. -/
def Event.notice? : Event → Option Notice
  | .noted notice => some notice
  | _ => none

/-- The outcome of a computation and its trace. -/
structure Traced (α : Type) where
  outcome : Except Fault α
  trace : List Event := []

namespace Traced

/-- The notices that were given. -/
def notices {α : Type} (t : Traced α) : List Notice :=
  t.trace.filterMap Event.notice?

/-- A result without a trace. -/
protected def pure {α : Type} (a : α) : Traced α := ⟨.ok a, []⟩

/-- One computation after the other; a fault ends both. -/
protected def bind {α β : Type} (t : Traced α) (next : α → Traced β) : Traced β :=
  match t.outcome with
  | .error fault => ⟨.error fault, t.trace⟩
  | .ok a =>
      let rest := next a
      ⟨rest.outcome, t.trace ++ rest.trace⟩

instance : Monad Traced where
  pure := Traced.pure
  bind := Traced.bind

/-- Give a notice. -/
def note (notice : Notice) : Traced Unit := ⟨.ok (), [.noted notice]⟩

/-- Stop with a fault. -/
def stop {α : Type} (fault : Fault) : Traced α := ⟨.error fault, []⟩

/-- Stop if there is a fault. -/
def check (fault : Option Fault) : Traced Unit :=
  match fault with
  | some fault => stop fault
  | none => ⟨.ok (), []⟩

/-- An outcome without a trace. -/
def ofExcept {α : Type} (outcome : Except Fault α) : Traced α := ⟨outcome, []⟩

/-- A computation inside a guard. -/
def within {α : Type} (guard : Guard) (t : Traced α) : Traced α :=
  ⟨t.outcome, .opened guard :: t.trace ++ [.closed guard]⟩

@[simp]
theorem outcome_pure {α : Type} (a : α) : (pure a : Traced α).outcome = .ok a :=
  rfl

@[simp]
theorem outcome_bind {α β : Type} (t : Traced α) (next : α → Traced β) :
    (t >>= next).outcome = t.outcome.bind fun a => (next a).outcome := by
  obtain ⟨outcome, trace⟩ := t
  cases outcome <;> rfl

@[simp]
theorem outcome_within {α : Type} (guard : Guard) (t : Traced α) :
    (within guard t).outcome = t.outcome :=
  rfl

instance : LawfulMonad Traced :=
  LawfulMonad.mk' Traced
    (by
      rintro α ⟨outcome, trace⟩
      cases outcome <;> simp [Functor.map, Traced.bind, Traced.pure])
    (by
      intro α β a next
      simp [bind, Traced.bind, pure, Traced.pure])
    (by
      rintro α β γ ⟨outcome, trace⟩ f g
      cases outcome with
      | error fault => rfl
      | ok a =>
          simp only [bind, Traced.bind]
          cases (f a).outcome <;> simp [List.append_assoc])

end Traced

end PropValidators
