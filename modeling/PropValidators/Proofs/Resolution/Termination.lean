import PropValidators.Proofs.Resolution.Script
import Mathlib.Data.Prod.Lex
import Mathlib.Order.WellFounded

/-!
# Resolution ends without a depth limit

Every question that a script asks is smaller than the question it is the script of, first
in the number of registered names that are not being resolved, then in the size of what is
asked about.  The decision to cut a branch off plays no part in this.  So every question
has exactly one outcome, whatever that decision is.
-/

namespace PropValidators.Resolution

/-! ## Sizes of questions -/

/-- The size of what a question is about.  A name has none: its declarations are not part
of the question. -/
noncomputable def Query.size : Query → Nat
  | .name _ _ => 0
  | .interface _ clauses own _ => 1 + sizeOf clauses + sizeOf own
  | .members own => sizeOf own
  | .nullable t => sizeOf t
  | .type t => sizeOf t

/-- The rank among questions about one type.  The type of a member is asked about as a type
unless it is a union, and a union is asked about as the type of a member. -/
def Query.rank : Query → Nat
  | .nullable t => match bare t with
    | .union _ => 0
    | _ => 2
  | .type _ => 1
  | _ => 0

/-- The measure that goes down from a question to those its script asks. -/
noncomputable def measure (asked : Context × Query) : Nat ×ₗ Nat ×ₗ Nat :=
  toLex (asked.1.unvisited, toLex (asked.2.size, asked.2.rank))

/-- A question lies below another. -/
def Below (callee caller : Context × Query) : Prop :=
  measure callee < measure caller

theorem below_wellFounded : WellFounded Below :=
  InvImage.wf measure wellFounded_lt

/-- Fewer names are left to resolve. -/
theorem below_of_unvisited_lt {callee caller : Context} {query asked : Query}
    (fewer : callee.unvisited < caller.unvisited) : Below (callee, asked) (caller, query) :=
  Prod.Lex.toLex_lt_toLex.mpr (.inl fewer)

/-- As many names are left to resolve, and what is asked about is smaller. -/
theorem below_of_size_lt {callee caller : Context} {query asked : Query}
    (same : callee.unvisited = caller.unvisited) (smaller : asked.size < query.size) :
    Below (callee, asked) (caller, query) :=
  Prod.Lex.toLex_lt_toLex.mpr (.inr ⟨same, Prod.Lex.toLex_lt_toLex.mpr (.inl smaller)⟩)

/-- The same is asked about in another way. -/
theorem below_of_rank_lt {callee caller : Context} {query asked : Query}
    (same : callee.unvisited = caller.unvisited) (equal : asked.size = query.size)
    (lower : asked.rank < query.rank) : Below (callee, asked) (caller, query) :=
  Prod.Lex.toLex_lt_toLex.mpr
    (.inr ⟨same, Prod.Lex.toLex_lt_toLex.mpr (.inr ⟨equal, lower⟩)⟩)

/-! ## The questions of a script -/

namespace Script

variable {α β : Type}

/-- All questions that a script can ask have a property, whatever the answers are. -/
def AllAsk (property : Context → Query → Prop) : Script α → Prop
  | .done _ => True
  | .ask context query next =>
      property context query ∧ ∀ answer, (next answer).AllAsk property

variable {property : Context → Query → Prop}

@[simp]
theorem allAsk_pure (a : α) : (pure a : Script α).AllAsk property :=
  trivial

@[simp]
theorem allAsk_done (outcome : Except Fault α) : (Script.done outcome).AllAsk property :=
  trivial

@[simp]
theorem allAsk_check (fault : Option Fault) : (check fault).AllAsk property := by
  cases fault <;> trivial

@[simp]
theorem allAsk_question {context : Context} {query : Query} :
    (question context query).AllAsk property ↔ property context query :=
  and_iff_left fun _ => trivial

theorem AllAsk.imp {other : Context → Query → Prop} {script : Script α}
    (implies : ∀ context query, property context query → other context query)
    (asks : script.AllAsk property) : script.AllAsk other := by
  induction script with
  | done outcome => trivial
  | ask context query next ih =>
      exact ⟨implies context query asks.1, fun answer => ih answer (asks.2 answer)⟩

theorem allAsk_bind {script : Script α} {next : α → Script β} (first : script.AllAsk property)
    (rest : ∀ a, (next a).AllAsk property) : (script >>= next).AllAsk property := by
  induction script with
  | done outcome =>
      cases outcome with
      | ok a => exact rest a
      | error fault => trivial
  | ask context query more ih => exact ⟨first.1, fun answer => ih answer (first.2 answer)⟩

theorem allAsk_collect {each : α → Script β} {items : List α}
    (every : ∀ a ∈ items, (each a).AllAsk property) : (collect each items).AllAsk property := by
  induction items with
  | nil => trivial
  | cons a as ih =>
      refine allAsk_bind (every a List.mem_cons_self) fun b => ?_
      refine allAsk_bind (ih fun other mem => every other (List.mem_cons_of_mem a mem)) fun bs => ?_
      exact allAsk_pure _

end Script

open Script

theorem allAsk_askTypes {property : Context → Query → Prop} {context : Context}
    {types : List TypeExpr} (every : ∀ type ∈ types, property context (.type type)) :
    (askTypes context types).AllAsk property :=
  allAsk_collect fun type mem => allAsk_question.mpr (every type mem)

/-! ## Questions go down -/

private theorem sizeOf_withoutParentheses_le (type : TypeExpr) :
    sizeOf (withoutParentheses type) ≤ sizeOf type := by
  fun_induction withoutParentheses type with
  | case1 inner ih =>
      simp only [TypeExpr.parenthesized.sizeOf_spec]
      omega
  | case2 => exact le_refl _

private theorem sizeOf_bare_le (type : TypeExpr) : sizeOf (bare type) ≤ sizeOf type := by
  unfold bare
  split
  · rename_i inner
    have := sizeOf_withoutParentheses_le inner
    simp only [TypeExpr.annotated.sizeOf_spec]
    omega
  · exact sizeOf_withoutParentheses_le type

variable (cut : Context → Bool) (context : Context)

private theorem scriptOfName_below (name : String) (arguments : List Shape) :
    (scriptOfName cut context name arguments).AllAsk
      fun inner asked => Below (inner, asked) (context, .name name arguments) := by
  unfold scriptOfName
  split
  · exact allAsk_pure _
  · rename_i fresh
    split
    · exact allAsk_pure _
    · rename_i first more found
      have registered : name ∈ context.registry.names :=
        Registry.mem_names_of_get_ne_nil (by rw [found]; exact List.cons_ne_nil _ _)
      have fewer : (context.entering name).unvisited < context.unvisited :=
        Context.unvisited_entering_lt registered (Bool.eq_false_iff.mpr fresh)
      split
      · exact allAsk_bind (allAsk_check _) fun _ => allAsk_pure _
      · split
        · refine allAsk_bind (allAsk_collect fun declaration _ => ?_) fun _ => allAsk_pure _
          cases declaration with
          | interface => exact allAsk_question.mpr (below_of_unvisited_lt fewer)
          | _ => exact allAsk_pure _
        · split
          · refine allAsk_bind (allAsk_question.mpr ?_) fun _ => allAsk_pure _
            exact below_of_unvisited_lt fewer
          · exact allAsk_pure _
          · exact allAsk_pure _

private theorem scriptOfInterface_below (parameters : List String) (heritage : List Heritage)
    (members : List TypeMember) (arguments : List Shape) :
    (scriptOfInterface context parameters heritage members arguments).AllAsk
      fun inner asked =>
        Below (inner, asked) (context, .interface parameters heritage members arguments) := by
  refine allAsk_bind (allAsk_collect fun clause clauseMem => ?_) fun parents =>
    allAsk_bind (allAsk_question.mpr ?_) fun own => allAsk_pure _
  · refine allAsk_bind (allAsk_askTypes fun type typeMem => ?_) fun shapes =>
      allAsk_question.mpr ?_
    · apply below_of_size_lt rfl
      have := List.sizeOf_lt_of_mem clauseMem
      have := List.sizeOf_lt_of_mem typeMem
      cases clause
      simp only [Query.size, Heritage.mk.sizeOf_spec] at *
      omega
    · apply below_of_size_lt rfl
      simp only [Query.size]
      omega
  · apply below_of_size_lt rfl
    simp only [Query.size]
    omega

private theorem scriptOfMembers_below (members : List TypeMember) :
    (scriptOfMembers context members).AllAsk
      fun inner asked => Below (inner, asked) (context, .members members) := by
  refine allAsk_bind (allAsk_collect fun member memberMem => ?_) fun _ => allAsk_pure _
  cases member with
  | property name type optional =>
      refine allAsk_bind (allAsk_question.mpr ?_) fun _ => allAsk_pure _
      apply below_of_size_lt rfl
      have := List.sizeOf_lt_of_mem memberMem
      simp only [Query.size, TypeMember.property.sizeOf_spec] at *
      omega
  | method name optional => exact allAsk_pure _
  | malformed fault => exact allAsk_done _

private theorem scriptOfNullable_below (type : TypeExpr) :
    (scriptOfNullable context type).AllAsk
      fun inner asked => Below (inner, asked) (context, .nullable type) := by
  have le := sizeOf_bare_le type
  unfold scriptOfNullable
  split
  · exact allAsk_pure _
  · rename_i types bareEq
    rw [bareEq, TypeExpr.union.sizeOf_spec] at le
    refine allAsk_bind (allAsk_askTypes fun member memberMem => ?_) fun _ => allAsk_pure _
    apply below_of_size_lt rfl
    have := List.sizeOf_lt_of_mem ((List.mem_filter.mp memberMem).1)
    simp only [Query.size]
    omega
  · rename_i notNullish notUnion
    refine allAsk_bind (allAsk_question.mpr ?_) fun _ => allAsk_pure _
    rcases Nat.lt_or_eq_of_le le with smaller | equal
    · exact below_of_size_lt rfl smaller
    · refine below_of_rank_lt rfl equal ?_
      have rankEq : Query.rank (.nullable type) = 2 := by
        simp only [Query.rank]
      rw [rankEq]
      exact Nat.lt_succ_self 1

private theorem scriptOfSelection_below (name : String) (keep : Bool) (shape : Shape)
    (target : TypeExpr) (keys : List TypeExpr) :
    (scriptOfSelection context keep shape keys).AllAsk fun inner asked =>
      Below (inner, asked) (context, .type (.reference (some name) (target :: keys))) := by
  refine allAsk_bind ?_ fun names => allAsk_bind (allAsk_check _) fun _ => allAsk_pure _
  cases keys with
  | nil => exact allAsk_pure _
  | cons first rest =>
      apply allAsk_question.mpr
      apply below_of_size_lt rfl
      simp only [Query.size, TypeExpr.reference.sizeOf_spec, List.cons.sizeOf_spec]
      omega

private theorem scriptOfUtility_below (utility : Utility) (name : String) (target : TypeExpr)
    (keys : List TypeExpr) :
    (scriptOfUtility context utility target keys).AllAsk fun inner asked =>
      Below (inner, asked) (context, .type (.reference (some name) (target :: keys))) := by
  refine allAsk_bind (allAsk_question.mpr ?_) fun shape => ?_
  · apply below_of_size_lt rfl
    simp only [Query.size, TypeExpr.reference.sizeOf_spec, List.cons.sizeOf_spec]
    omega
  · split
    · exact allAsk_pure _
    · exact allAsk_pure _
    · exact allAsk_pure _
    · exact scriptOfSelection_below context name true shape target keys
    · exact scriptOfSelection_below context name false shape target keys

private theorem scriptOfReference_below (name : String) (arguments : List TypeExpr) :
    (scriptOfReference context name arguments).AllAsk fun inner asked =>
      Below (inner, asked) (context, .type (.reference (some name) arguments)) := by
  have nameBelow : ∀ shapes, Below (context, .name name shapes)
      (context, .type (.reference (some name) arguments)) := by
    intro shapes
    apply below_of_size_lt rfl
    simp only [Query.size, TypeExpr.reference.sizeOf_spec]
    omega
  unfold scriptOfReference
  split
  · exact allAsk_pure _
  · split
    · refine allAsk_bind (allAsk_askTypes fun type typeMem => ?_) fun shapes =>
        allAsk_question.mpr (nameBelow shapes)
      apply below_of_size_lt rfl
      have := List.sizeOf_lt_of_mem typeMem
      simp only [Query.size, TypeExpr.reference.sizeOf_spec]
      omega
    · split
      · split
        · exact allAsk_pure _
        · refine allAsk_bind (allAsk_question.mpr ?_) fun _ => allAsk_pure _
          apply below_of_size_lt rfl
          simp only [Query.size, TypeExpr.reference.sizeOf_spec, List.cons.sizeOf_spec]
          omega
      · split
        · exact scriptOfUtility_below context _ name _ _
        · split
          · exact allAsk_pure _
          · exact allAsk_question.mpr (nameBelow [])

private theorem scriptOfType_below (type : TypeExpr) :
    (scriptOfType cut context type).AllAsk
      fun inner asked => Below (inner, asked) (context, .type type) := by
  have inside : ∀ {inner : TypeExpr}, sizeOf inner < sizeOf type →
      Below (context, .type inner) (context, .type type) :=
    fun smaller => below_of_size_lt rfl smaller
  cases type with
  | primitive kind => exact allAsk_pure _
  | nullish => exact allAsk_pure _
  | function => exact allAsk_pure _
  | literal value => exact allAsk_pure _
  | template => exact allAsk_pure _
  | reference name arguments =>
      cases name with
      | none => exact allAsk_pure _
      | some name => exact scriptOfReference_below context name arguments
  | object members =>
      simp only [scriptOfType]
      split
      · exact allAsk_pure _
      · refine allAsk_bind (allAsk_question.mpr ?_) fun _ => allAsk_pure _
        apply below_of_size_lt (Context.unvisited_nested context)
        simp only [Query.size, TypeExpr.object.sizeOf_spec]
        omega
  | array element =>
      refine allAsk_bind (allAsk_question.mpr (inside ?_)) fun _ => allAsk_pure _
      simp
  | tuple elements =>
      refine allAsk_bind (allAsk_askTypes fun element mem => inside ?_) fun _ => allAsk_pure _
      have := List.sizeOf_lt_of_mem mem
      simp only [TypeExpr.tuple.sizeOf_spec]
      omega
  | union types =>
      refine allAsk_bind (allAsk_question.mpr ?_) fun _ => allAsk_pure _
      exact below_of_rank_lt rfl rfl Nat.zero_lt_one
  | intersection operands =>
      refine allAsk_bind (allAsk_askTypes fun operand mem => inside ?_) fun _ => allAsk_pure _
      have := List.sizeOf_lt_of_mem mem
      simp only [TypeExpr.intersection.sizeOf_spec]
      omega
  | parenthesized inner => exact allAsk_question.mpr (inside (by simp))
  | annotated inner =>
      cases inner with
      | annotated deeper => exact allAsk_pure _
      | _ => exact allAsk_question.mpr (inside (by simp))
  | keyof target =>
      refine allAsk_bind (allAsk_question.mpr (inside ?_)) fun _ => allAsk_pure _
      simp
  | modified inner => exact allAsk_question.mpr (inside (by simp))
  | untold => exact allAsk_pure _
  | malformed fault => exact allAsk_done _

/-- Every question that a script asks lies below the question it is the script of. -/
theorem script_below (query : Query) :
    (script cut context query).AllAsk fun inner asked => Below (inner, asked) (context, query) := by
  cases query with
  | name name arguments => exact scriptOfName_below cut context name arguments
  | interface parameters heritage members arguments =>
      exact scriptOfInterface_below context parameters heritage members arguments
  | members members => exact scriptOfMembers_below context members
  | nullable type => exact scriptOfNullable_below context type
  | type type => exact scriptOfType_below cut context type

/-! ## Outcomes of questions -/

namespace Script

variable {α β : Type}

/-- A script with its questions answered by an oracle. -/
def runWith (oracle : Context → (query : Query) → Except Fault query.Answer) :
    Script α → Except Fault α
  | .done outcome => outcome
  | .ask context query next =>
      (oracle context query).bind fun answer => (next answer).runWith oracle

variable {oracle : Context → (query : Query) → Except Fault query.Answer}

@[simp]
theorem runWith_pure (a : α) : (pure a : Script α).runWith oracle = .ok a :=
  rfl

@[simp]
theorem runWith_question (context : Context) (query : Query) :
    (question context query).runWith oracle = oracle context query := by
  change (oracle context query).bind (fun answer => .ok answer) = oracle context query
  cases oracle context query <;> rfl

@[simp]
theorem runWith_bind (script : Script α) (next : α → Script β) :
    (script >>= next).runWith oracle =
      (script.runWith oracle).bind fun a => (next a).runWith oracle := by
  induction script with
  | done outcome => cases outcome <;> rfl
  | ask context query more ih =>
      change (oracle context query).bind (fun answer => (more answer >>= next).runWith oracle) = _
      simp only [ih, runWith]
      cases oracle context query <;> rfl

@[simp]
theorem runWith_check (fault : Option Fault) :
    (check fault).runWith oracle = (Traced.check fault).outcome := by
  cases fault <;> rfl

end Script

variable {cut}

/-- A script ends with what an oracle makes of it, if the answers of the oracle to all its
questions are their outcomes. -/
theorem ends_runWith {α : Type} {script : Script α}
    {oracle : Context → (query : Query) → Except Fault query.Answer}
    (answered : script.AllAsk fun context query =>
      Answered cut context query (oracle context query)) :
    Ends cut script (script.runWith oracle) := by
  induction script with
  | done outcome => exact .done
  | ask context query next ih =>
      have first : Answered cut context query (oracle context query) := answered.1
      simp only [runWith]
      cases answerEq : oracle context query with
      | ok answer =>
          rw [answerEq] at first
          exact .answered first (ih answer (answered.2 answer))
      | error fault =>
          rw [answerEq] at first
          exact .failed first

/-- The outcomes of a script agree if those of its questions do. -/
theorem ends_unique {α : Type} {script : Script α} {first second : Except Fault α}
    (unique : script.AllAsk fun context query =>
      ∀ a b, Answered cut context query a → Answered cut context query b → a = b)
    (firstEnds : Ends cut script first) (secondEnds : Ends cut script second) :
    first = second := by
  induction script with
  | done outcome =>
      cases firstEnds
      cases secondEnds
      rfl
  | ask context query next ih =>
      cases firstEnds with
      | answered firstAnswered firstRest =>
          cases secondEnds with
          | answered secondAnswered secondRest =>
              have answersEq := unique.1 _ _ firstAnswered secondAnswered
              cases answersEq
              exact ih _ (unique.2 _) firstRest secondRest
          | failed secondFailed => cases unique.1 _ _ firstAnswered secondFailed
      | failed firstFailed =>
          cases secondEnds with
          | answered secondAnswered secondRest => cases unique.1 _ _ firstFailed secondAnswered
          | failed secondFailed =>
              cases unique.1 _ _ firstFailed secondFailed
              rfl

/-- Every question has exactly one outcome. -/
theorem existsUnique_answered (cut : Context → Bool) (context : Context) (query : Query) :
    ∃! outcome, Answered cut context query outcome := by
  refine below_wellFounded.induction
    (C := fun asked => ∃! outcome, Answered cut asked.1 asked.2 outcome) (context, query) ?_
  rintro ⟨context, query⟩ ih
  have asks := script_below cut context query
  let oracle (inner : Context) (asked : Query) : Except Fault asked.Answer :=
    @Classical.epsilon _ ⟨.error .notANode⟩ (Answered cut inner asked)
  have answered : (script cut context query).AllAsk fun inner asked =>
      Answered cut inner asked (oracle inner asked) :=
    asks.imp fun inner asked below => Classical.epsilon_spec (ih (inner, asked) below).exists
  refine ⟨(script cut context query).runWith oracle, .intro (ends_runWith answered), ?_⟩
  rintro outcome ⟨ends⟩
  refine ends_unique (asks.imp fun inner asked below => ?_) ends (ends_runWith answered)
  exact fun _ _ => (ih (inner, asked) below).unique

end PropValidators.Resolution
