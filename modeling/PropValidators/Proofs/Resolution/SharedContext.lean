import PropValidators.Proofs.Resolution.Agreement
import PropValidators.Types.Guarded

/-!
# A shared context is left as it was

Resolving opens guards on the context and closes them again, and all resolutions of a module
share one context.  The guards of a resolution come in pairs, one inside the other, and a name
is entered only when it is not being resolved already.  So closing a guard restores the context
as it was when the guard was opened, whether what it holds for returned or stopped, and a
resolution answers as if it were the first on its context.
-/

namespace PropValidators

/-! ## Nested traces -/

/-- A guard is not for a name that is being resolved already. -/
def Guard.FreshIn (context : Context) (guard : Guard) : Prop :=
  ∀ name, guard = .entered name → name ∉ context.visited

/-- A trace closes the guards it opens, the inner ones first, and enters no name that is being
resolved already. -/
inductive Nested : Context → List Event → Prop
  | nil {context : Context} : Nested context []
  | noted {context : Context} {notice : Notice} {rest : List Event} :
      Nested context rest → Nested context (.noted notice :: rest)
  | guarded {context : Context} {guard : Guard} {inner rest : List Event} :
      guard.FreshIn context → Nested (context.opened guard) inner → Nested context rest →
        Nested context (.opened guard :: (inner ++ .closed guard :: rest))

namespace Context

@[simp]
theorem replay_append (context : Context) (first second : List Event) :
    context.replay (first ++ second) = (context.replay first).replay second :=
  List.foldl_append

/-- A nested trace leaves the context as it was. -/
theorem replay_of_nested {context : Context} {trace : List Event}
    (nested : Nested context trace) : context.replay trace = context := by
  induction nested with
  | nil => rfl
  | noted _ ih => exact ih
  | @guarded context guard inner rest fresh _ _ innerIH restIH =>
      calc
        context.replay (.opened guard :: (inner ++ .closed guard :: rest))
            = ((context.opened guard).replay inner).replay (.closed guard :: rest) :=
          replay_append _ inner _
        _ = ((context.opened guard).closed guard).replay rest := by
          rw [innerIH]
          rfl
        _ = context := by rw [closed_opened fresh, restIH]

end Context

namespace Nested

variable {context : Context} {α β : Type}

theorem append {first second : List Event} (firstNested : Nested context first)
    (secondNested : Nested context second) : Nested context (first ++ second) := by
  induction firstNested with
  | nil => exact secondNested
  | noted _ ih => exact .noted (ih secondNested)
  | @guarded context guard inner rest fresh innerNested _ _ restIH =>
      rw [List.cons_append, List.append_assoc, List.cons_append]
      exact .guarded fresh innerNested (restIH secondNested)

theorem pure (a : α) : Nested context (Pure.pure a : Traced α).trace :=
  .nil

theorem stop (fault : Fault) : Nested context (Traced.stop (α := α) fault).trace :=
  .nil

theorem check (fault : Option Fault) : Nested context (Traced.check fault).trace := by
  cases fault <;> exact .nil

theorem unresolved (notice : Notice) :
    Nested context (PropValidators.unresolved notice).trace :=
  .noted .nil

/-- A fault of the first computation ends the trace between two guards. -/
theorem bind {t : Traced α} {next : α → Traced β} (first : Nested context t.trace)
    (second : ∀ a, Nested context (next a).trace) : Nested context (t >>= next).trace := by
  obtain ⟨outcome, trace⟩ := t
  cases outcome with
  | error fault => exact first
  | ok a => exact first.append (second a)

theorem map {t : Traced α} {f : α → β} (nested : Nested context t.trace) :
    Nested context (f <$> t).trace := by
  rw [map_eq_pure_bind]
  exact nested.bind fun _ => .pure _

theorem within {guard : Guard} {t : Traced α} (fresh : guard.FreshIn context)
    (inner : Nested (context.opened guard) t.trace) :
    Nested context (Traced.within guard t).trace :=
  .guarded fresh inner .nil

end Nested

/-! ## The traces of resolutions -/

namespace Resolution

theorem freshIn_nested (context : Context) : Guard.nested.FreshIn context := by
  intro name eq
  cases eq

theorem freshIn_bound (context : Context) (frame : Frame) :
    (Guard.bound frame).FreshIn context := by
  intro name eq
  cases eq

theorem freshIn_entered {context : Context} {name : String}
    (fresh : context.visited.contains name = false) : (Guard.entered name).FreshIn context := by
  intro other eq
  cases eq
  simpa using fresh

mutual

theorem nested_resolveName (context : Context) (name : String) (arguments : List Shape) :
    Nested context (resolveName context name arguments).trace := by
  rw [resolveName]
  split
  · exact .unresolved _
  · rename_i fresh
    split
    · exact .unresolved _
    · rename_i first more found
      have registered : name ∈ context.registry.names :=
        Registry.mem_names_of_get_ne_nil (by rw [found]; exact List.cons_ne_nil _ _)
      have fewer : (context.entering name).unvisited < context.unvisited :=
        Context.unvisited_entering_lt registered fresh
      split
      · exact .bind (.check _) fun _ => .unresolved _
      · refine .within (freshIn_entered fresh) (.within (freshIn_nested _) ?_)
        dsimp only [Context.opened]
        split
        · exact .bind (nested_resolveInterfaces _ arguments _) fun _ => .pure _
        · split
          · exact .map (.within (freshIn_bound _ _) (nested_resolveType _ _))
          · exact .pure _
          · exact .pure _
termination_by (context.unvisited, 0, 0)

theorem nested_resolveInterfaces (context : Context) (arguments : List Shape) :
    (declarations : List Declaration) →
      Nested context (resolveInterfaces context arguments declarations).trace
  | [] => by
      rw [resolveInterfaces]
      exact .pure _
  | .interface parameters heritage members :: more => by
      rw [resolveInterfaces]
      refine .bind (.within (freshIn_bound _ _) ?_) fun _ =>
        .bind (nested_resolveInterfaces context arguments more) fun _ => .pure _
      refine .bind (nested_resolveHeritage _ heritage) fun _ =>
        .bind (nested_resolveMembers _ members) fun _ => .pure _
  | .alias _ _ :: more => by
      rw [resolveInterfaces]
      · exact nested_resolveInterfaces context arguments more
      · simp
  | .enumeration _ :: more => by
      rw [resolveInterfaces]
      · exact nested_resolveInterfaces context arguments more
      · simp
termination_by declarations => (context.unvisited, sizeOf declarations, 0)

private theorem nested_resolveHeritage (context : Context) :
    (clauses : List Heritage) → Nested context (resolveHeritage context clauses).trace
  | [] => by
      rw [resolveHeritage]
      exact .pure _
  | ⟨name, arguments⟩ :: more => by
      rw [resolveHeritage]
      exact .bind (nested_resolveAll context arguments) fun shapes =>
        .bind (nested_resolveName context name shapes) fun _ =>
          .bind (nested_resolveHeritage context more) fun _ => .pure _
termination_by clauses => (context.unvisited, sizeOf clauses, 0)

theorem nested_resolveMembers (context : Context) :
    (members : List TypeMember) → Nested context (resolveMembers context members).trace
  | [] => by
      rw [resolveMembers]
      exact .pure _
  | .property name type optional :: more => by
      rw [resolveMembers]
      exact .bind (nested_resolveNullable context type) fun _ =>
        .bind (nested_resolveMembers context more) fun _ => .pure _
  | .method name optional :: more => by
      rw [resolveMembers]
      exact .bind (nested_resolveMembers context more) fun _ => .pure _
  | .malformed fault :: more => by
      rw [resolveMembers]
      exact .stop fault
termination_by members => (context.unvisited, sizeOf members, 0)

theorem nested_resolveNullable (context : Context) (type : TypeExpr) :
    Nested context (resolveNullable context type).trace := by
  rw [resolveNullable.eq_def]
  split
  · exact nested_resolveUnwrapped context _
  · exact nested_resolveUnwrapped context type
termination_by (context.unvisited, sizeOf type, 2)

private theorem nested_resolveUnwrapped (context : Context) (type : TypeExpr) :
    Nested context (resolveUnwrapped context type).trace := by
  rw [resolveUnwrapped.eq_def]
  split
  · exact nested_resolveUnwrapped context _
  · exact .pure _
  · exact .bind (nested_resolveAlternatives context _) fun _ => .pure _
  · exact .bind (nested_resolveType context type) fun _ => .pure _
termination_by (context.unvisited, sizeOf type, 1)

theorem nested_resolveType (context : Context) :
    (type : TypeExpr) → Nested context (resolveType context type).trace
  | .primitive _ | .nullish | .function | .literal _ | .template | .reference none _ | .untold => by
      rw [resolveType]
      exact .pure _
  | .reference (some name) arguments => by
      rw [resolveType.eq_def]
      dsimp only
      split
      · exact .pure _
      · split
        · exact .bind (nested_resolveAll context arguments) fun shapes =>
            nested_resolveName context name shapes
        · split
          · split
            · exact .pure _
            · exact .bind (nested_resolveType context _) fun _ => .pure _
          · split
            · rename_i utility target keys _
              refine .bind (nested_resolveType context target) fun shape => ?_
              have selected (keep : Bool) : Nested context (do
                  let names ← resolveFirst context keys
                  Traced.check (Shape.selectFault? shape names)
                  return Shape.select keep shape names : Traced Shape).trace :=
                .bind (nested_resolveFirst context keys) fun _ => .bind (.check _) fun _ => .pure _
              match utility with
              | .same | .optional | .required => exact .pure _
              | .pick => exact selected true
              | .omit => exact selected false
            · split
              · exact .pure _
              · exact nested_resolveName context name []
  | .object members => by
      rw [resolveType]
      split
      · exact .pure _
      · exact .bind (.within (freshIn_nested _) (nested_resolveMembers _ members)) fun _ => .pure _
  | .array element => by
      rw [resolveType]
      exact .bind (nested_resolveType context element) fun _ => .pure _
  | .tuple elements => by
      rw [resolveType]
      exact .bind (nested_resolveAll context elements) fun _ => .pure _
  | .union alternatives => by
      rw [resolveType]
      exact .bind (nested_resolveAlternatives context alternatives) fun _ => .pure _
  | .intersection operands => by
      rw [resolveType]
      exact .bind (nested_resolveAll context operands) fun _ => .pure _
  | .parenthesized inner | .modified inner => by
      rw [resolveType]
      exact nested_resolveType context inner
  | .annotated inner => by
      cases inner with
      | annotated deeper =>
          rw [resolveType]
          exact .pure _
      | _ =>
          rw [resolveType]
          · exact nested_resolveType context _
          · simp
  | .keyof target => by
      rw [resolveType]
      exact .bind (nested_resolveType context target) fun _ => .pure _
  | .malformed fault => by
      rw [resolveType]
      exact .stop fault
termination_by type => (context.unvisited, sizeOf type, 0)

private theorem nested_resolveFirst (context : Context) :
    (types : List TypeExpr) → Nested context (resolveFirst context types).trace
  | [] => by
      rw [resolveFirst]
      exact .pure _
  | type :: more => by
      rw [resolveFirst]
      exact nested_resolveType context type
termination_by types => (context.unvisited, sizeOf types, 0)

theorem nested_resolveAll (context : Context) :
    (types : List TypeExpr) → Nested context (resolveAll context types).trace
  | [] => by
      rw [resolveAll]
      exact .pure _
  | type :: more => by
      rw [resolveAll]
      exact .bind (nested_resolveType context type) fun _ =>
        .bind (nested_resolveAll context more) fun _ => .pure _
termination_by types => (context.unvisited, sizeOf types, 0)

theorem nested_resolveAlternatives (context : Context) :
    (types : List TypeExpr) → Nested context (resolveAlternatives context types).trace
  | [] => by
      rw [resolveAlternatives]
      exact .pure _
  | type :: more => by
      rw [resolveAlternatives]
      split
      · exact nested_resolveAlternatives context more
      · exact .bind (nested_resolveType context type) fun _ =>
          .bind (nested_resolveAlternatives context more) fun _ => .pure _
termination_by types => (context.unvisited, sizeOf types, 0)

end

/-! ## Sessions -/

/-- Answer a question with the functions of the library. -/
def answer (context : Context) : (query : Query) → Traced query.Answer
  | .name name arguments => resolveName context name arguments
  | .interface parameters heritage members arguments =>
      List.flatten <$> resolveInterfaces context arguments [.interface parameters heritage members]
  | .members members => memberFields context members
  | .nullable type => resolveNullable context type
  | .type type => resolveType context type

private theorem nested_answer (context : Context) (query : Query) :
    Nested context (answer context query).trace := by
  cases query with
  | name name arguments => exact nested_resolveName context name arguments
  | interface parameters heritage members arguments =>
      exact .map (nested_resolveInterfaces context arguments _)
  | members members => exact .bind (nested_resolveMembers context members) fun _ => .pure _
  | nullable type => exact nested_resolveNullable context type
  | type type => exact nested_resolveType context type

/-- A question with the computation that answered it. -/
abbrev Reply := (query : Query) × Traced query.Answer

/-- What is done with a shared context: questions are asked one after the other, and guards
hold for parts of it. -/
inductive Session where
  | done
  | ask (query : Query) (rest : Session)
  | within (guard : Guard) (inner rest : Session)

namespace Session

/-- A session in which questions are asked and no guards are opened. -/
def ofQueries (queries : List Query) : Session :=
  queries.foldr .ask .done

/-- Every guard that is opened is fresh when it is opened. -/
def Proper : Session → Context → Prop
  | .done, _ => True
  | .ask _ rest, context => rest.Proper context
  | .within guard inner rest, context =>
      guard.FreshIn context ∧ inner.Proper (context.opened guard) ∧ rest.Proper context

/-- Go through a session on one context, which every guard and every question changes. -/
def run : Session → Guarded → Guarded × List Reply
  | .done, guarded => (guarded, [])
  | .ask query rest, guarded =>
      let (after, answered) := guarded.run (answer · query)
      let (last, replies) := rest.run after
      (last, ⟨query, answered⟩ :: replies)
  | .within guard inner rest, guarded =>
      let (inside, first) := inner.run (guarded.push guard)
      let (last, second) := rest.run inside.pop
      (last, first ++ second)

/-- The replies to the questions of a session, if each is asked on a context of its own in which
only the guards around it have been opened. -/
def replies : Session → Context → List Reply
  | .done, _ => []
  | .ask query rest, context => ⟨query, answer context query⟩ :: rest.replies context
  | .within guard inner rest, context =>
      inner.replies (context.opened guard) ++ rest.replies context

end Session

/-- Answering a question leaves a shared context as it was, also when it stops with a fault. -/
@[simp]
theorem run_query (guarded : Guarded) (query : Query) :
    guarded.run (answer · query) = (guarded, answer guarded.context query) := by
  rw [Guarded.run, Context.replay_of_nested (nested_answer guarded.context query)]

@[simp]
theorem pop_push {guarded : Guarded} {guard : Guard} (fresh : guard.FreshIn guarded.context) :
    (guarded.push guard).pop = guarded := by
  rw [Guarded.push, Guarded.pop]
  exact congrArg (Guarded.mk · guarded.guards) (Context.closed_opened fresh)

@[simp]
theorem run_session {session : Session} {guarded : Guarded}
    (proper : session.Proper guarded.context) :
    session.run guarded = (guarded, session.replies guarded.context) := by
  induction session generalizing guarded with
  | done => rfl
  | ask query rest ih =>
      have after : rest.run guarded = (guarded, rest.replies guarded.context) := ih proper
      simp only [Session.run, run_query, after, Session.replies]
  | within guard inner rest innerIH restIH =>
      obtain ⟨fresh, innerProper, restProper⟩ := proper
      have inside : inner.run (guarded.push guard) =
          (guarded.push guard, inner.replies (guarded.context.opened guard)) :=
        innerIH innerProper
      simp only [Session.run, inside, pop_push fresh, restIH restProper, Session.replies]

theorem proper_ofQueries (queries : List Query) (context : Context) :
    (Session.ofQueries queries).Proper context := by
  induction queries with
  | nil => trivial
  | cons query rest ih => exact ih

@[simp]
theorem replies_ofQueries (queries : List Query) (context : Context) :
    (Session.ofQueries queries).replies context =
      queries.map fun query => ⟨query, answer context query⟩ := by
  induction queries with
  | nil => rfl
  | cons query rest ih => exact congrArg (_ :: ·) ih

/-- Resolving leaves no trace in the context.  A question leaves it as it was, whatever comes of
the question.  So do guards with questions and further guards inside them, if none is for a name
that is being resolved already: closing a guard restores the context at its opening.  Hence
every question is answered as if it were the first to be asked there. -/
theorem resolution_leaves_no_trace (guarded : Guarded) :
    (∀ query : Query, (guarded.run (answer · query)).1 = guarded) ∧
      (∀ session : Session, session.Proper guarded.context →
        session.run guarded = (guarded, session.replies guarded.context)) ∧
      (∀ (guard : Guard) (inner : Session), guard.FreshIn guarded.context →
        inner.Proper (guarded.context.opened guard) →
        (inner.run (guarded.push guard)).1.pop = guarded) ∧
      ∀ queries : List Query,
        (Session.ofQueries queries).run guarded =
          (guarded, queries.map fun query => ⟨query, answer guarded.context query⟩) := by
  refine ⟨?_, ?_, ?_, ?_⟩
  · intro query
    rw [run_query]
  · intro session proper
    exact run_session proper
  · intro guard inner fresh proper
    have inside : inner.run (guarded.push guard) =
        (guarded.push guard, inner.replies (guarded.context.opened guard)) := run_session proper
    rw [inside, pop_push fresh]
  · intro queries
    rw [run_session (proper_ofQueries queries guarded.context), replies_ofQueries]

/-- A question that stops with a fault is asked while a name is being resolved, before the same
name is asked for outside. -/
theorem resolution_leaves_no_trace_after_fault :
    let guarded : Guarded :=
      ⟨{ registry := ⟨[("A", [.alias [] .function])]⟩, maxDepth := .int 5 }, []⟩
    let session : Session :=
      .within (.entered "A") (.ask (.type (.object [.malformed .notANode])) .done)
        (.ask (.name "A" []) .done)
    session.Proper guarded.context ∧
      session.run guarded = (guarded, session.replies guarded.context) := by
  intro guarded session
  have proper : session.Proper guarded.context := by
    refine ⟨?_, trivial, trivial⟩
    intro name _
    exact List.not_mem_nil
  exact ⟨proper, (resolution_leaves_no_trace guarded).2.1 session proper⟩

end Resolution

end PropValidators
