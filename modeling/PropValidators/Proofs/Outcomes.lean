import Mathlib.Data.List.Forall2
import PropValidators.Traced

/-!
# Outcomes of computations

What can be told of the parts of a computation when the whole of it has returned.
-/

namespace PropValidators

universe u

variable {ε : Type u} {α β : Type u}

/-- Two computations in a row return when the first one returns and the second one returns
on its result. -/
theorem bind_eq_ok {x : Except ε α} {next : α → Except ε β} {b : β} :
    x.bind next = .ok b ↔ ∃ a, x = .ok a ∧ next a = .ok b := by
  cases x with
  | error fault => simp [Except.bind]
  | ok a => simp [Except.bind]

theorem monadBind_eq_ok {x : Except ε α} {next : α → Except ε β} {b : β} :
    (x >>= next) = .ok b ↔ ∃ a, x = .ok a ∧ next a = .ok b :=
  bind_eq_ok

theorem map_eq_ok {x : Except ε α} {f : α → β} {b : β} :
    x.map f = .ok b ↔ ∃ a, x = .ok a ∧ f a = b := by
  cases x with
  | error fault => simp [Except.map]
  | ok a => simp [Except.map]

/-- What comes next matters only on the result of what came first. -/
theorem Traced.bind_congr {γ δ : Type} {t : Traced γ} {next other : γ → Traced δ}
    (agree : ∀ c, t.outcome = .ok c → next c = other c) : t >>= next = t >>= other := by
  obtain ⟨outcome, trace⟩ := t
  cases outcome with
  | error fault => rfl
  | ok c => simp only [bind, Traced.bind, agree c rfl]

/-- Computations one after the other return when each of them returns. -/
theorem mapM_eq_ok {f : α → Except ε β} {as : List α} {bs : List β} :
    as.mapM f = .ok bs ↔ List.Forall₂ (fun a b => f a = .ok b) as bs := by
  induction as generalizing bs with
  | nil =>
      constructor
      · rintro ⟨⟩
        exact .nil
      · rintro ⟨⟩
        rfl
  | cons a as ih =>
      rw [List.mapM_cons, monadBind_eq_ok]
      constructor
      · rintro ⟨b, head, rest⟩
        obtain ⟨others, tail, eq⟩ := monadBind_eq_ok.mp rest
        cases eq
        exact .cons head (ih.mp tail)
      · intro each
        cases each with
        | cons head tail => exact ⟨_, head, monadBind_eq_ok.mpr ⟨_, ih.mpr tail, rfl⟩⟩

/-- Each of some outcomes is a result if all of them together are. -/
theorem exists_ok_of_mapM {f : α → Except ε β} {as : List α} {bs : List β}
    (returned : as.mapM f = .ok bs) {a : α} (mem : a ∈ as) : ∃ b, f a = .ok b := by
  have each := mapM_eq_ok.mp returned
  induction each with
  | nil => cases mem
  | cons head tail ih =>
      rcases List.mem_cons.mp mem with rfl | rest
      · exact ⟨_, head⟩
      · exact ih (mapM_eq_ok.mpr tail) rest

end PropValidators
