import PropValidators.Proofs.Resolution.Agreement

/-!
# Contracts on answers

What is to hold of all answers of the library is shown one script at a time.  A contract says in
which contexts a question may be asked, what its answer is held to, and which faults may take the
place of an answer.  A script keeps a contract if it asks only what may be asked, and arrives at
its goal or at such a fault whenever the answers on its way are as the contract says.  If the
scripts of all questions keep a contract, then so do the answers.
-/

namespace PropValidators.Resolution

open Script

/-- What is asked of questions and of their answers. -/
structure Contract where
  /-- A question may be asked in a context. -/
  Asks : Context → Query → Prop
  /-- An answer to a question is as it should be. -/
  Holds : Context → (query : Query) → query.Answer → Prop
  /-- A fault may take the place of an answer. -/
  Admits : Fault → Prop := fun _ => True

namespace Contract

variable {α β : Type} (contract : Contract)

/-- An outcome is at a goal, or it is a fault that is admitted. -/
def Arrives (goal : α → Prop) : Except Fault α → Prop
  | .ok a => goal a
  | .error fault => contract.Admits fault

/-- A script asks what it may and arrives at a goal or at a fault that is admitted, if it is
answered as the contract says. -/
def Keeps (goal : α → Prop) : Script α → Prop
  | .done outcome => contract.Arrives goal outcome
  | .ask context query next =>
      contract.Asks context query ∧
        ∀ answer, contract.Holds context query answer → Keeps goal (next answer)

variable {contract}

theorem keeps_pure {goal : α → Prop} {a : α} (arrives : goal a) :
    contract.Keeps goal (pure a : Script α) :=
  arrives

theorem keeps_fault {goal : α → Prop} {fault : Fault} (admits : contract.Admits fault) :
    contract.Keeps goal (.done (.error fault) : Script α) :=
  admits

theorem keeps_check {fault? : Option Fault}
    (admits : ∀ fault, fault? = some fault → contract.Admits fault) :
    contract.Keeps (fun _ => True) (check fault?) := by
  cases fault? with
  | none => trivial
  | some fault => exact admits fault rfl

theorem keeps_question {context : Context} {query : Query} (asks : contract.Asks context query) :
    contract.Keeps (contract.Holds context query) (question context query) :=
  ⟨asks, fun _ holds => holds⟩

theorem Keeps.imp {goal other : α → Prop} {script : Script α} (keeps : contract.Keeps goal script)
    (implies : ∀ a, goal a → other a) : contract.Keeps other script := by
  induction script with
  | done outcome =>
      cases outcome with
      | ok a => exact implies a keeps
      | error fault => exact keeps
  | ask context query next ih =>
      exact ⟨keeps.1, fun answer holds => ih answer (keeps.2 answer holds)⟩

theorem keeps_bind {goal : β → Prop} {midway : α → Prop} {script : Script α}
    {next : α → Script β} (first : contract.Keeps midway script)
    (second : ∀ a, midway a → contract.Keeps goal (next a)) :
    contract.Keeps goal (script >>= next) := by
  induction script with
  | done outcome =>
      cases outcome with
      | ok a => exact second a first
      | error fault => exact first
  | ask context query more ih =>
      exact ⟨first.1, fun answer holds => ih answer (first.2 answer holds)⟩

/-- Scripts that are run one after the other all arrive at their goals. -/
theorem keeps_collect {goal : β → Prop} {each : α → Script β} {items : List α}
    (every : ∀ a ∈ items, contract.Keeps goal (each a)) :
    contract.Keeps (fun bs => bs.length = items.length ∧ ∀ b ∈ bs, goal b)
      (collect each items) := by
  induction items with
  | nil => exact ⟨rfl, fun b mem => by cases mem⟩
  | cons a as ih =>
      rw [List.forall_mem_cons] at every
      refine keeps_bind every.1 fun b arrives => keeps_bind (ih every.2) fun bs rest => ?_
      refine keeps_pure ⟨congrArg Nat.succ rest.1, ?_⟩
      exact List.forall_mem_cons.mpr ⟨arrives, rest.2⟩

/-- A script that keeps the contract arrives, if its questions do. -/
theorem Keeps.arrives {goal : α → Prop} {script : Script α} (keeps : contract.Keeps goal script)
    (answered : script.AllAsk fun context query => contract.Asks context query →
      contract.Arrives (contract.Holds context query) (resolved context query)) :
    contract.Arrives goal (script.runWith resolved) := by
  induction script with
  | done outcome => exact keeps
  | ask context query next ih =>
      have arrives := answered.1 keeps.1
      rw [runWith]
      cases answerEq : resolved context query with
      | ok answer =>
          rw [answerEq] at arrives
          exact ih answer (keeps.2 answer arrives) (answered.2 answer)
      | error fault =>
          rw [answerEq] at arrives
          exact arrives

/-- The outcomes of the library keep a contract that is kept by all its scripts. -/
theorem arrives_resolved
    (kept : ∀ context query, contract.Asks context query →
      contract.Keeps (contract.Holds context query) (script Context.tooDeep context query))
    {context : Context} {query : Query} (asks : contract.Asks context query) :
    contract.Arrives (contract.Holds context query) (resolved context query) := by
  refine below_wellFounded.induction
    (C := fun asked => contract.Asks asked.1 asked.2 →
      contract.Arrives (contract.Holds asked.1 asked.2) (resolved asked.1 asked.2))
    (context, query) ?_ asks
  rintro ⟨context, query⟩ ih asks
  rw [← runWith_script]
  refine (kept context query asks).arrives ?_
  exact (script_below Context.tooDeep context query).imp fun inner asked below =>
    ih (inner, asked) below

/-- The answers of the library keep a contract that is kept by all its scripts. -/
theorem holds_of_resolved
    (kept : ∀ context query, contract.Asks context query →
      contract.Keeps (contract.Holds context query) (script Context.tooDeep context query))
    {context : Context} {query : Query} (asks : contract.Asks context query)
    {answer : query.Answer} (returned : resolved context query = .ok answer) :
    contract.Holds context query answer := by
  have arrives := arrives_resolved kept asks
  rwa [returned] at arrives

end Contract

end PropValidators.Resolution
