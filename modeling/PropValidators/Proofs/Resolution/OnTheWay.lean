import PropValidators.Proofs.Outcomes
import PropValidators.Proofs.Resolution.Agreement
import PropValidators.Proofs.Resolution.Contract
import PropValidators.Proofs.Shapes.Visible

/-!
# Questions on the way

Which questions a script asks where they are answered by the library, and which are met on the way
to the answer of another.  Nothing is left out on the way if it is told of every operand of an
intersection and of every parent of an interface whether it is an object, and if no union is one
object that several alternatives come together in.
-/

namespace PropValidators.Resolution

open Script

/-- A script asks a question on its way, where it is answered by the library. -/
inductive Script.Asked {α : Type} : Script α → Context → Query → Prop
  | here {context : Context} {query : Query} {next : query.Answer → Script α} :
      Asked (.ask context query next) context query
  | later {context inner : Context} {query asked : Query} {next : query.Answer → Script α}
      {answer : query.Answer} (returned : resolved context query = .ok answer)
      (rest : Asked (next answer) inner asked) : Asked (.ask context query next) inner asked

/-- A question is met on the way to the answer of another, or it is that other one.  What the
members of an object are is no part of the way: only their names matter. -/
inductive Meets : Context → Query → Context → Query → Prop
  | self (context : Context) (query : Query) : Meets context query context query
  | step {context inner last : Context} {query asked final : Query}
      (noMembers : ∀ members, query ≠ .members members)
      (onTheWay : (script Context.tooDeep context query).Asked inner asked)
      (meets : Meets inner asked last final) : Meets context query last final

section Asked

variable {α β : Type} {context inner : Context} {query asked : Query}

theorem Script.Asked.of_allAsk {property : Context → Query → Prop} {script : Script α}
    (onTheWay : script.Asked inner asked) (all : script.AllAsk property) :
    property inner asked := by
  induction onTheWay with
  | here => exact all.1
  | later _ _ ih => exact ih (all.2 _)

theorem Script.not_asked_done {outcome : Except Fault α} :
    ¬ (done outcome).Asked inner asked := by
  intro onTheWay
  cases onTheWay

@[simp]
theorem Script.asked_question_iff :
    (question context query).Asked inner asked ↔ inner = context ∧ asked = query := by
  constructor
  · intro onTheWay
    cases onTheWay with
    | here => exact ⟨rfl, rfl⟩
    | later _ rest => exact absurd rest not_asked_done
  · rintro ⟨rfl, rfl⟩
    exact .here

@[simp]
theorem asked_askType_iff {type : TypeExpr} :
    (askType context type).Asked inner asked ↔ inner = context ∧ asked = .type type :=
  asked_question_iff

@[simp]
theorem asked_askMembers_iff {members : List TypeMember} :
    (askMembers context members).Asked inner asked ↔
      inner = context ∧ asked = .members members :=
  asked_question_iff

@[simp]
theorem not_asked_pure {a : α} : ¬ (pure a : Script α).Asked inner asked :=
  not_asked_done

/-- One script after the other asks what the first one asks, and what the second one does. -/
@[simp]
theorem Script.asked_bind_iff {script : Script α} {next : α → Script β} :
    (script >>= next).Asked inner asked ↔ script.Asked inner asked ∨
      ∃ a, script.runWith resolved = .ok a ∧ (next a).Asked inner asked := by
  induction script with
  | done outcome =>
      cases outcome with
      | ok a =>
          constructor
          · exact fun onTheWay => .inr ⟨a, rfl, onTheWay⟩
          · rintro (first | ⟨_, ⟨⟩, onTheWay⟩)
            · exact absurd first not_asked_done
            · exact onTheWay
      | error fault =>
          constructor
          · exact fun onTheWay => absurd onTheWay not_asked_done
          · rintro (first | ⟨_, ⟨⟩, _⟩)
            exact absurd first not_asked_done
  | ask context query more ih =>
      constructor
      · intro onTheWay
        cases onTheWay with
        | here => exact .inl .here
        | later returned rest =>
            rcases (ih _).mp rest with first | ⟨a, aEq, second⟩
            · exact .inl (.later returned first)
            · exact .inr ⟨a, bind_eq_ok.mpr ⟨_, returned, aEq⟩, second⟩
      · rintro (first | ⟨a, aEq, second⟩)
        · cases first with
          | here => exact .here
          | later returned rest => exact .later returned ((ih _).mpr (.inl rest))
        · obtain ⟨answer, answerEq, rest⟩ := bind_eq_ok.mp aEq
          exact .later answerEq ((ih _).mpr (.inr ⟨a, rest, second⟩))

/-- What is asked on the way of a script that keeps a contract may be asked. -/
theorem Script.Asked.of_keeps {contract : Contract} {goal : α → Prop} {script : Script α}
    (onTheWay : script.Asked inner asked) (keeps : contract.Keeps goal script)
    (holds : ∀ context query answer, contract.Asks context query →
      resolved context query = .ok answer → contract.Holds context query answer) :
    contract.Asks inner asked := by
  induction onTheWay with
  | here => exact keeps.1
  | later returned _ ih => exact ih (keeps.2 _ (holds _ _ _ keeps.1 returned))

end Asked

/-- Nothing is left out where a question puts shapes together: it is told of all operands of an
intersection and of all parents of an interface whether they are objects, and a union is one
object only if that is its only alternative. -/
def Whole (context : Context) : Query → Prop
  | .type (.intersection operands) => ∀ shapes,
      (resolveAll context operands).outcome = .ok shapes → ∀ shape ∈ shapes, shape.IsTold
  | .interface parameters heritage _ arguments =>
      let scope := context.binding (Frame.ofArguments parameters arguments)
      ∀ clause ∈ heritage, ∀ shapes parent,
        (resolveAll scope clause.arguments).outcome = .ok shapes →
        (resolveName scope clause.name shapes).outcome = .ok parent → parent.IsTold
  | .nullable type => ∀ types, bare type = .union types → ∀ shapes fields,
      (resolveAll context (types.filter fun type => !type.isNullish)).outcome = .ok shapes →
        unionShape shapes = .object fields → shapes = [.object fields]
  | _ => True

/-- Nothing is left out on the way to the answer of a question. -/
def WholeThroughout (context : Context) (query : Query) : Prop :=
  ∀ inner asked, Meets context query inner asked → Whole inner asked

theorem wholeThroughout_members (context : Context) (members : List TypeMember) :
    WholeThroughout context (.members members) := by
  intro inner asked meets
  cases meets with
  | self => trivial
  | step noMembers => exact absurd rfl (noMembers members)

theorem wholeThroughout_of_asked {context : Context} {query : Query} (whole : Whole context query)
    (each : ∀ inner asked, (script Context.tooDeep context query).Asked inner asked →
      WholeThroughout inner asked) : WholeThroughout context query := by
  intro last final meets
  cases meets with
  | self => exact whole
  | step _ onTheWay rest => exact each _ _ onTheWay last final rest

end PropValidators.Resolution
