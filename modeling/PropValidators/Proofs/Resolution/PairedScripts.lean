import PropValidators.Proofs.Resolution.Grouping
import PropValidators.Proofs.Resolution.MoreDeclarations
import PropValidators.Proofs.Resolution.Nullable
import PropValidators.Proofs.Resolution.OnTheWay

/-!
# The same question where more can be seen

A question is asked in a context and in one with more declarations.  The two scripts are paired:
what is left of the answer of the first is kept in the answer of the second, provided that this
holds of the questions on the way of the first one and that it leaves nothing out.
-/

namespace PropValidators.Resolution

open Script

/-- The same question, about arguments that keep what is left. -/
inductive Query.KeptIn : Query → Query → Prop
  | name (name : String) {arguments others : List Shape}
      (kept : List.Forall₂ Shape.KeptIn arguments others) :
      KeptIn (.name name arguments) (.name name others)
  | interface (parameters : List String) (heritage : List Heritage) (members : List TypeMember)
      {arguments others : List Shape} (kept : List.Forall₂ Shape.KeptIn arguments others) :
      KeptIn (.interface parameters heritage members arguments)
        (.interface parameters heritage members others)
  | members (members : List TypeMember) : KeptIn (.members members) (.members members)
  | nullable (type : TypeExpr) : KeptIn (.nullable type) (.nullable type)
  | type (type : TypeExpr) : KeptIn (.type type) (.type type)

/-- What is left of an answer is kept in the answer to the same question.  Of fields, the names
are left. -/
def AnswerKept : (query other : Query) → query.Answer → other.Answer → Prop
  | .name _ _, .name _ _, shape, another => Shape.KeptIn shape another
  | .interface _ _ _ _, .interface _ _ _ _, fields, others =>
      List.map Field.name fields = List.map Field.name others
  | .members _, .members _, fields, others =>
      List.map Field.name fields = List.map Field.name others
  | .nullable _, .nullable _, answer, another => Shape.KeptIn answer.1 another.1
  | .type _, .type _, shape, another => Shape.KeptIn shape another
  | _, _, _, _ => False

/-- What is left of the answer to a question is kept where more can be seen. -/
def Persists (context : Context) (query : Query) : Prop :=
  ∀ other another, context.ExtendedBy other → query.KeptIn another → ∀ answer reply,
    resolved context query = .ok answer → resolved other another = .ok reply →
      AnswerKept query another answer reply

/-- Two scripts come to related results if they return, provided that the questions on the way of
the first one persist. -/
def Paired {α β : Type} (goal : α → β → Prop) (script : Script α) (other : Script β) : Prop :=
  (∀ context query, script.Asked context query → Persists context query) → ∀ a b,
    script.runWith resolved = .ok a → other.runWith resolved = .ok b → goal a b

namespace Paired

variable {α β γ δ : Type} {goal : γ → δ → Prop} {midway : α → β → Prop}

theorem pure {c : γ} {d : δ} (related : goal c d) :
    Paired goal (pure c : Script γ) (Pure.pure d) := by
  rintro - _ _ ⟨⟩ ⟨⟩
  exact related

theorem question {context other : Context} {query another : Query}
    (extended : context.ExtendedBy other) (kept : query.KeptIn another) :
    Paired (AnswerKept query another) (question context query) (question other another) := by
  intro persist a b returned otherReturned
  rw [runWith_question] at returned otherReturned
  exact persist context query .here other another extended kept a b returned otherReturned

theorem bind {script : Script α} {other : Script β} {next : α → Script γ} {more : β → Script δ}
    (first : Paired midway script other)
    (rest : ∀ a b, script.runWith resolved = .ok a → midway a b →
      Paired goal (next a) (more b)) :
    Paired goal (script >>= next) (other >>= more) := by
  intro persist c d returned otherReturned
  rw [runWith_bind, bind_eq_ok] at returned otherReturned
  obtain ⟨a, aEq, cEq⟩ := returned
  obtain ⟨b, bEq, dEq⟩ := otherReturned
  have related := first (fun _ _ asked => persist _ _ (asked_bind_iff.mpr (.inl asked))) a b aEq bEq
  exact rest a b aEq related
    (fun _ _ asked => persist _ _ (asked_bind_iff.mpr (.inr ⟨a, aEq, asked⟩))) c d cEq dEq

theorem collect {each : α → Script γ} {other : α → Script δ} {items : List α}
    (every : ∀ a ∈ items, Paired goal (each a) (other a)) :
    Paired (List.Forall₂ goal) (collect each items) (collect other items) := by
  induction items with
  | nil => exact .pure .nil
  | cons a as ih =>
      rw [List.forall_mem_cons] at every
      exact every.1.bind fun b c _ head => (ih every.2).bind fun bs cs _ tail =>
        .pure (.cons head tail)

/-- Nothing is asked of the second script where the first one leaves nothing. -/
theorem of_returned {script : Script γ} {other : Script δ} {c : γ}
    (returned : script.runWith resolved = .ok c) (always : ∀ d, goal c d) :
    Paired goal script other := by
  intro _ a b aEq _
  rw [returned] at aEq
  cases aEq
  exact always b

/-- What is checked is no part of a result. -/
theorem check (fault? another? : Option Fault) :
    Paired (fun _ _ => True) (check fault?) (Script.check another?) :=
  fun _ _ _ _ _ => trivial

theorem unknown (other : Script Shape) :
    Paired Shape.KeptIn (Pure.pure .unknown : Script Shape) other :=
  of_returned rfl Shape.keptIn_unknown

end Paired

section Scripts

variable {context other : Context} (extended : context.ExtendedBy other)

include extended

theorem paired_askType (type : TypeExpr) :
    Paired Shape.KeptIn (askType context type) (askType other type) :=
  .question extended (.type type)

theorem paired_askTypes (types : List TypeExpr) :
    Paired (List.Forall₂ Shape.KeptIn) (askTypes context types) (askTypes other types) :=
  .collect fun type _ => paired_askType extended type

theorem paired_askName (name : String) {arguments others : List Shape}
    (kept : List.Forall₂ Shape.KeptIn arguments others) :
    Paired Shape.KeptIn (askName context name arguments) (askName other name others) :=
  .question extended (.name name kept)

theorem paired_askMembers (members : List TypeMember) :
    Paired (fun fs gs => fs.map Field.name = gs.map Field.name) (askMembers context members)
      (askMembers other members) :=
  .question extended (.members members)

theorem paired_askNullable (type : TypeExpr) :
    Paired (fun answer reply => answer.1.KeptIn reply.1) (askNullable context type)
      (askNullable other type) :=
  .question extended (.nullable type)

theorem paired_askFirst (types : List TypeExpr) :
    Paired Shape.KeptIn (askFirst context types) (askFirst other types) := by
  cases types with
  | nil => exact .unknown _
  | cons first rest => exact paired_askType extended first

theorem paired_askGroup {arguments others : List Shape}
    (kept : List.Forall₂ Shape.KeptIn arguments others) (declaration : Declaration) :
    Paired (fun fs gs => fs.map Field.name = gs.map Field.name)
      (askGroup context arguments declaration) (askGroup other others declaration) := by
  cases declaration with
  | interface parameters heritage members =>
      exact .question extended (.interface parameters heritage members kept)
  | _ => exact .pure rfl

theorem paired_scriptOfName (name : String) {arguments others : List Shape}
    (kept : List.Forall₂ Shape.KeptIn arguments others) :
    Paired Shape.KeptIn (scriptOfName Context.tooDeep context name arguments)
      (scriptOfName Context.tooDeep other name others) := by
  rw [scriptOfName, scriptOfName, ← extended.visited]
  split
  · exact .unknown _
  · cases declared : context.registry.get name with
    | nil => exact .unknown _
    | cons first more =>
        have same := extended.registry.get name (Registry.contains_of_get declared)
        have inner := (extended.entering name).nested
        rw [same, declared, ← extended.tooDeep_eq]
        dsimp only
        split
        · exact (Paired.check _ _).bind fun _ _ _ _ => .unknown _
        · split
          · refine (Paired.collect fun declaration _ =>
              paired_askGroup inner kept declaration).bind fun groups others _ names => .pure ?_
            exact Shape.keptIn_object (names_mergeFields_congr names)
          · split
            · rename_i parameters body _
              have scope := inner.binding (Frame.keptIn_ofArguments parameters kept)
              exact (paired_askType scope body).bind fun shape another _ shapeKept =>
                .pure (shapeKept.mapOrigins _ _)
            · exact .pure (Shape.keptIn_refl _)
            · exact .unknown _

theorem paired_askParent (clause : Heritage)
    (told : ∀ shapes parent, (resolveAll context clause.arguments).outcome = .ok shapes →
      (resolveName context clause.name shapes).outcome = .ok parent → parent.IsTold) :
    Paired (fun parent another => parent.IsTold ∧ parent.KeptIn another)
      (do
        let shapes ← askTypes context clause.arguments
        askName context clause.name shapes)
      (do
        let shapes ← askTypes other clause.arguments
        askName other clause.name shapes) := by
  refine (paired_askTypes extended clause.arguments).bind fun shapes others returned kept => ?_
  rw [runWith_askTypes] at returned
  intro persist parent another parentEq anotherEq
  have parentKept := paired_askName extended clause.name kept persist parent another parentEq
    anotherEq
  rw [runWith_askName] at parentEq
  exact ⟨told shapes parent returned parentEq, parentKept⟩

theorem paired_scriptOfInterface (parameters : List String) (heritage : List Heritage)
    (members : List TypeMember) {arguments others : List Shape}
    (kept : List.Forall₂ Shape.KeptIn arguments others)
    (whole : Whole context (.interface parameters heritage members arguments)) :
    Paired (fun fs gs => fs.map Field.name = gs.map Field.name)
      (scriptOfInterface context parameters heritage members arguments)
      (scriptOfInterface other parameters heritage members others) := by
  have scope := extended.binding (Frame.keptIn_ofArguments parameters kept)
  rw [scriptOfInterface, scriptOfInterface]
  refine (Paired.collect fun clause mem => paired_askParent scope clause
    (whole clause mem)).bind fun parents others _ parentsKept => ?_
  refine (paired_askMembers scope members).bind fun own another _ ownNames => .pure ?_
  obtain ⟨told, related⟩ := (List.forall₂_and_left _ _).mp parentsKept
  have groups := Shape.forall₂_filterMap_fields? related told
  rw [← List.filterMap_eq_flatMap_toList, ← List.filterMap_eq_flatMap_toList,
    names_map_returned, names_map_returned]
  exact names_mergeFields_congr (List.rel_append groups (.cons ownNames .nil))

theorem paired_scriptOfNullable (formed : context.BindingsWellFormed) (type : TypeExpr)
    (whole : Whole context (.nullable type)) :
    Paired (fun answer reply => answer.1.KeptIn reply.1) (scriptOfNullable context type)
      (scriptOfNullable other type) := by
  unfold scriptOfNullable
  split
  · exact .pure (Shape.keptIn_refl _)
  · rename_i types bareEq
    refine (paired_askTypes extended _).bind fun shapes others returned kept => .pure ?_
    rw [runWith_askTypes] at returned
    exact Shape.keptIn_unionShape kept (wellFormed_of_resolveAll formed returned)
      fun fields object => whole types bareEq shapes fields returned object
  · exact (paired_askType extended _).bind fun shape another _ kept => .pure kept

theorem paired_scriptOfSelection (keep : Bool) {shape another : Shape}
    (kept : shape.KeptIn another) (keys : List TypeExpr) :
    Paired Shape.KeptIn (scriptOfSelection context keep shape keys)
      (scriptOfSelection other keep another keys) := by
  refine (paired_askFirst extended keys).bind fun names others _ namesKept => ?_
  exact (Paired.check _ _).bind fun _ _ _ _ => .pure (kept.select namesKept keep)

theorem paired_scriptOfUtility (utility : Utility) (target : TypeExpr) (keys : List TypeExpr) :
    Paired Shape.KeptIn (scriptOfUtility context utility target keys)
      (scriptOfUtility other utility target keys) := by
  refine (paired_askType extended target).bind fun shape another _ kept => ?_
  split
  · exact .pure kept
  · exact .pure (kept.markOptional true)
  · exact .pure (kept.markOptional false)
  · exact paired_scriptOfSelection extended true kept keys
  · exact paired_scriptOfSelection extended false kept keys

theorem paired_scriptOfReference (name : String) (arguments : List TypeExpr) :
    Paired Shape.KeptIn (scriptOfReference context name arguments)
      (scriptOfReference other name arguments) := by
  have bound := extended.bound? name
  rw [scriptOfReference.eq_def, scriptOfReference.eq_def]
  generalize context.bound? name = shape at bound ⊢
  generalize other.bound? name = another at bound ⊢
  cases bound with
  | some kept => exact .pure kept
  | none =>
      dsimp only
      cases registered : context.registry.contains name with
      | true =>
          rw [if_pos rfl, if_pos (extended.registry.contains name registered)]
          exact (paired_askTypes extended arguments).bind fun shapes others _ kept =>
            paired_askName extended name kept
      | false =>
          rw [if_neg Bool.false_ne_true]
          cases added : other.registry.contains name with
          | true =>
              -- what has no meaning without a declaration is unknown
              obtain ⟨noArray, noFunction, noWellKnown⟩ :=
                extended.registry.free name added registered
              rw [noArray, noFunction, noWellKnown]
              refine .of_returned ?_ Shape.keptIn_unknown
              exact (runWith_askName _ _ _).trans (outcome_resolveName_of_undeclared registered [])
          | false =>
              rw [if_neg Bool.false_ne_true]
              split
              · split
                · exact .pure (Shape.keptIn_refl _)
                · exact (paired_askType extended _).bind fun shape another _ _ =>
                    .pure (Shape.keptIn_array shape another)
              · split
                · exact paired_scriptOfUtility extended _ _ _
                · split
                  · exact .pure (Shape.keptIn_refl _)
                  · exact paired_askName extended name .nil

theorem paired_scriptOfType (type : TypeExpr) (whole : Whole context (.type type)) :
    Paired Shape.KeptIn (scriptOfType Context.tooDeep context type)
      (scriptOfType Context.tooDeep other type) := by
  cases type with
  | reference name arguments =>
      cases name with
      | none => exact .unknown _
      | some name => exact paired_scriptOfReference extended name arguments
  | object members =>
      rw [scriptOfType, scriptOfType, ← extended.tooDeep_eq]
      split
      · exact .unknown _
      · exact (paired_askMembers extended.nested members).bind fun fs gs _ names =>
          .pure (Shape.keptIn_object names)
  | array element =>
      exact (paired_askType extended element).bind fun shape another _ _ =>
        .pure (Shape.keptIn_array shape another)
  | tuple elements =>
      exact (paired_askTypes extended elements).bind fun shapes others _ _ =>
        .pure (Shape.keptIn_array _ _)
  | union types =>
      exact (paired_askNullable extended (.union types)).bind fun answer reply _ kept => .pure kept
  | intersection operands =>
      refine (paired_askTypes extended operands).bind fun shapes others returned kept => .pure ?_
      rw [runWith_askTypes] at returned
      exact Shape.keptIn_intersect kept (whole shapes returned)
  | parenthesized inner => exact paired_askType extended inner
  | annotated inner =>
      cases inner with
      | annotated deeper => exact .unknown _
      | _ => exact paired_askType extended _
  | keyof target =>
      exact (paired_askType extended target).bind fun shape another _ kept => .pure kept.keys
  | modified inner => exact paired_askType extended inner
  | malformed fault => rintro - _ _ ⟨⟩
  | _ => exact .pure (Shape.keptIn_refl _)

end Scripts

theorem paired_script {context other : Context} {query another : Query}
    (extended : context.ExtendedBy other) (formed : context.BindingsWellFormed)
    (noMembers : ∀ members, query ≠ .members members) (whole : Whole context query)
    (kept : query.KeptIn another) :
    Paired (AnswerKept query another) (script Context.tooDeep context query)
      (script Context.tooDeep other another) := by
  cases kept with
  | name name kept => exact paired_scriptOfName extended name kept
  | interface parameters heritage members kept =>
      exact paired_scriptOfInterface extended parameters heritage members kept whole
  | members members => exact absurd rfl (noMembers members)
  | nullable type => exact paired_scriptOfNullable extended formed type whole
  | type type => exact paired_scriptOfType extended type whole

end PropValidators.Resolution
