import PropValidators.Proofs.Resolution.Agreement

/-!
# Questions that are asked alike

Two resolutions are compared through their scripts.  Scripts are alike if they ask the same
questions in contexts that match and make the same of every answer.  If matching contexts have
scripts that are alike for every question, then they have the same answers.
-/

namespace PropValidators.Resolution

open Script

variable {α β : Type} {matching : Context → Context → Query → Prop}

/-- Two scripts ask the same questions in contexts that match, and go on alike whatever they are
answered. -/
inductive Alike (matching : Context → Context → Query → Prop) : Script α → Script α → Prop
  | done (outcome : Except Fault α) : Alike matching (.done outcome) (.done outcome)
  | ask {first second : Context} {query : Query} {next other : query.Answer → Script α}
      (same : matching first second query)
      (rest : ∀ answer, Alike matching (next answer) (other answer)) :
      Alike matching (.ask first query next) (.ask second query other)

namespace Alike

theorem pure (a : α) : Alike matching (pure a : Script α) (Pure.pure a) :=
  .done (.ok a)

theorem check (fault : Option Fault) : Alike matching (check fault) (Script.check fault) := by
  cases fault <;> exact .done _

theorem question {first second : Context} {query : Query} (same : matching first second query) :
    Alike matching (question first query) (question second query) :=
  .ask same fun answer => .pure answer

theorem bind {first second : Script α} {next other : α → Script β}
    (alike : Alike matching first second) (rest : ∀ a, Alike matching (next a) (other a)) :
    Alike matching (first >>= next) (second >>= other) := by
  induction alike with
  | done outcome =>
      cases outcome with
      | ok a => exact rest a
      | error fault => exact .done (.error fault)
  | ask same _ ih => exact .ask same ih

theorem collect {each other : α → Script β} {items : List α}
    (every : ∀ a ∈ items, Alike matching (each a) (other a)) :
    Alike matching (collect each items) (collect other items) := by
  induction items with
  | nil => exact .pure []
  | cons a as ih =>
      rw [List.forall_mem_cons] at every
      exact every.1.bind fun b => (ih every.2).bind fun bs => .pure (b :: bs)

/-- Scripts that are alike come to the same if matching questions of the first have the same
answers. -/
theorem runWith_eq {first second : Script α} (alike : Alike matching first second)
    (answered : first.AllAsk fun context query => ∀ other, matching context other query →
      resolved context query = resolved other query) :
    first.runWith resolved = second.runWith resolved := by
  induction alike with
  | done outcome => rfl
  | ask same _ ih =>
      rw [runWith, runWith, answered.1 _ same]
      congr 1
      funext answer
      exact ih answer (answered.2 answer)

end Alike

/-- Contexts that match have the same answers, if their scripts are alike. -/
theorem resolved_eq_of_alike
    (alike : ∀ {first second query}, matching first second query →
      Alike matching (script Context.tooDeep first query) (script Context.tooDeep second query))
    {first second : Context} {query : Query} (same : matching first second query) :
    resolved first query = resolved second query := by
  refine below_wellFounded.induction
    (C := fun asked => ∀ other, matching asked.1 other asked.2 →
      resolved asked.1 asked.2 = resolved other asked.2) (first, query) ?_ second same
  rintro ⟨context, query⟩ ih other same
  rw [← runWith_script, ← runWith_script]
  refine (alike same).runWith_eq ?_
  exact (script_below Context.tooDeep context query).imp fun inner asked below =>
    ih (inner, asked) below

end PropValidators.Resolution
