import PropValidators.Proofs.Resolution.Termination

/-!
# The library answers as its scripts do

The functions that resolve types are recursive themselves.  Here each of them is shown to
give what the script of its question gives when the questions on the way are answered by
the same functions.  So what the library answers is the one outcome of the question.
-/

namespace PropValidators.Resolution

open Script

/-- What the functions of the library answer. -/
def resolved (context : Context) : (query : Query) → Except Fault query.Answer
  | .name name arguments => (resolveName context name arguments).outcome
  | .interface parameters heritage members arguments =>
      (resolveInterfaces context arguments [.interface parameters heritage members]).outcome.map
        List.flatten
  | .members members => (memberFields context members).outcome
  | .nullable type => (resolveNullable context type).outcome
  | .type type => (resolveType context type).outcome

@[simp]
theorem runWith_askName (context : Context) (name : String) (arguments : List Shape) :
    (askName context name arguments).runWith resolved =
      (resolveName context name arguments).outcome :=
  runWith_question context _

@[simp]
theorem runWith_askInterface (context : Context) (parameters : List String)
    (heritage : List Heritage) (members : List TypeMember) (arguments : List Shape) :
    (askInterface context parameters heritage members arguments).runWith resolved =
      (resolveInterfaces context arguments
        [.interface parameters heritage members]).outcome.map List.flatten :=
  runWith_question context _

@[simp]
theorem runWith_askMembers (context : Context) (members : List TypeMember) :
    (askMembers context members).runWith resolved = (memberFields context members).outcome :=
  runWith_question context _

@[simp]
theorem runWith_askNullable (context : Context) (type : TypeExpr) :
    (askNullable context type).runWith resolved = (resolveNullable context type).outcome :=
  runWith_question context _

@[simp]
theorem runWith_askType (context : Context) (type : TypeExpr) :
    (askType context type).runWith resolved = (resolveType context type).outcome :=
  runWith_question context _

@[simp]
theorem runWith_askTypes (context : Context) (types : List TypeExpr) :
    (askTypes context types).runWith resolved = (resolveAll context types).outcome := by
  induction types with
  | nil =>
      rw [resolveAll]
      rfl
  | cons type more ih =>
      simp only [askTypes, collect] at ih ⊢
      simp only [resolveAll, runWith_bind, runWith_askType, runWith_pure, ih,
        Traced.outcome_bind, Traced.outcome_pure]

@[simp]
theorem runWith_askFirst (context : Context) (types : List TypeExpr) :
    (askFirst context types).runWith resolved = (resolveFirst context types).outcome := by
  cases types <;> simp [askFirst, resolveFirst]

/-- The alternatives of a union that are looked at are those that are not null or
undefined. -/
theorem resolveAlternatives_eq (context : Context) (types : List TypeExpr) :
    resolveAlternatives context types =
      resolveAll context (types.filter fun type => !type.isNullish) := by
  induction types with
  | nil => simp [resolveAlternatives, resolveAll]
  | cons type more ih =>
      rw [resolveAlternatives]
      by_cases nullish : type.isNullish
      · simp [nullish, ih]
      · simp [nullish, ih, resolveAll]

@[simp]
theorem runWith_scriptOfMembers (context : Context) (members : List TypeMember) :
    (scriptOfMembers context members).runWith resolved =
      (memberFields context members).outcome := by
  simp only [scriptOfMembers, memberFields, runWith_bind, Traced.outcome_bind, runWith_pure,
    Traced.outcome_pure]
  congr 1
  induction members with
  | nil =>
      rw [resolveMembers]
      rfl
  | cons member more ih =>
      cases member with
      | property name type optional =>
          simp only [collect, resolveMembers, runWith_bind, runWith_askNullable,
            runWith_pure, ih, Traced.outcome_bind, Traced.outcome_pure]
          cases (resolveNullable context type).outcome <;> rfl
      | method name optional =>
          simp only [collect, resolveMembers, runWith_bind, runWith_pure, ih,
            Traced.outcome_bind, Traced.outcome_pure]
          rfl
      | malformed fault =>
          rw [resolveMembers]
          rfl

/-- The number of shapes is that of the types. -/
theorem length_of_resolveAll {context : Context} {types : List TypeExpr} {shapes : List Shape}
    (returned : (resolveAll context types).outcome = .ok shapes) :
    shapes.length = types.length := by
  induction types generalizing shapes with
  | nil =>
      simp only [resolveAll, Traced.outcome_pure, Except.ok.injEq] at returned
      simp [← returned]
  | cons type more ih =>
      simp only [resolveAll, Traced.outcome_bind, Traced.outcome_pure] at returned
      cases typeEq : (resolveType context type).outcome with
      | error fault => simp [typeEq, Except.bind] at returned
      | ok shape =>
          cases moreEq : (resolveAll context more).outcome with
          | error fault => simp [typeEq, moreEq, Except.bind] at returned
          | ok others =>
              simp only [typeEq, moreEq, Except.bind, Except.ok.injEq] at returned
              simp [← returned, ih moreEq]

/-- Parentheses make no difference to what a type admits. -/
@[simp]
theorem resolveUnwrapped_withoutParentheses (context : Context) (type : TypeExpr) :
    resolveUnwrapped context (withoutParentheses type) = resolveUnwrapped context type := by
  fun_induction withoutParentheses type with
  | case1 inner ih => rw [ih, resolveUnwrapped]
  | case2 => rfl

theorem resolveNullable_eq (context : Context) (type : TypeExpr) :
    resolveNullable context type = resolveUnwrapped context (bare type) := by
  cases type with
  | annotated inner => rw [resolveNullable, bare, resolveUnwrapped_withoutParentheses]
  | _ =>
      rw [resolveNullable, bare, resolveUnwrapped_withoutParentheses] <;> simp

private theorem withoutParentheses_ne_parenthesized (type inner : TypeExpr) :
    withoutParentheses type ≠ .parenthesized inner := by
  fun_induction withoutParentheses type with
  | case1 deeper ih => exact ih
  | case2 type notParenthesized => exact notParenthesized inner

theorem bare_ne_parenthesized (type inner : TypeExpr) : bare type ≠ .parenthesized inner := by
  cases type <;> exact withoutParentheses_ne_parenthesized _ inner

@[simp]
theorem runWith_scriptOfNullable (context : Context) (type : TypeExpr) :
    (scriptOfNullable context type).runWith resolved = (resolveNullable context type).outcome := by
  have notParenthesized := bare_ne_parenthesized type
  rw [resolveNullable_eq, scriptOfNullable]
  cases bareEq : bare type with
  | nullish =>
      rw [resolveUnwrapped]
      rfl
  | union types =>
      simp only [resolveUnwrapped, resolveAlternatives_eq, runWith_bind, runWith_askTypes,
        runWith_pure, Traced.outcome_bind, Traced.outcome_pure]
      cases shapesEq : (resolveAll context (types.filter fun type => !type.isNullish)).outcome with
      | error fault => rfl
      | ok shapes =>
          have lengthEq := length_of_resolveAll shapesEq
          have emptyEq : shapes.isEmpty = (types.filter fun type => !type.isNullish).isEmpty := by
            rw [Bool.eq_iff_iff, List.isEmpty_iff_length_eq_zero, lengthEq,
              List.isEmpty_iff_length_eq_zero]
          simp only [Except.bind, emptyEq]
  | parenthesized inner => exact absurd bareEq (notParenthesized inner)
  | _ => simp [resolveUnwrapped, -bind_pure_comp]

@[simp]
theorem runWith_parents (scope : Context) (clauses : List Heritage) :
    ((collect (fun clause : Heritage => do
      let shapes ← askTypes scope clause.arguments
      askName scope clause.name shapes) clauses).runWith resolved).map
        (fun parents => parents.flatMap fun parent => parent.fields?.toList) =
      (resolveHeritage scope clauses).outcome := by
  induction clauses with
  | nil =>
      rw [resolveHeritage]
      rfl
  | cons clause more ih =>
      obtain ⟨name, arguments⟩ := clause
      simp only [collect, resolveHeritage, runWith_bind, runWith_askTypes, runWith_askName,
        runWith_pure, Traced.outcome_bind, Traced.outcome_pure, ← ih]
      cases (resolveAll scope arguments).outcome with
      | error fault => rfl
      | ok shapes =>
          simp only [Except.bind]
          cases (resolveName scope name shapes).outcome with
          | error fault => rfl
          | ok parent =>
              generalize (collect _ more).runWith resolved = others
              cases others <;> rfl

@[simp]
theorem runWith_scriptOfInterface (context : Context) (parameters : List String)
    (heritage : List Heritage) (members : List TypeMember) (arguments : List Shape) :
    (scriptOfInterface context parameters heritage members arguments).runWith resolved =
      (resolveInterfaces context arguments
        [.interface parameters heritage members]).outcome.map List.flatten := by
  simp only [scriptOfInterface, resolveInterfaces, memberFields, runWith_bind,
    runWith_askMembers, runWith_pure, Traced.outcome_bind, Traced.outcome_within,
    Traced.outcome_pure, ← runWith_parents]
  generalize (collect _ heritage).runWith resolved = parents
  cases parents with
  | error fault => rfl
  | ok parents =>
      simp only [Except.bind, Except.map]
      cases (resolveMembers _ members).outcome with
      | error fault => rfl
      | ok own => simp

/-- The interfaces of a name are resolved one by one. -/
theorem outcome_resolveInterfaces_cons (context : Context) (arguments : List Shape)
    (parameters : List String) (heritage : List Heritage) (members : List TypeMember)
    (more : List Declaration) :
    (resolveInterfaces context arguments
        (.interface parameters heritage members :: more)).outcome =
      ((resolveInterfaces context arguments
        [.interface parameters heritage members]).outcome.map List.flatten).bind fun group =>
          (resolveInterfaces context arguments more).outcome.bind fun others =>
            .ok (group :: others) := by
  simp only [resolveInterfaces, Traced.outcome_bind, Traced.outcome_within, Traced.outcome_pure]
  cases (resolveHeritage _ heritage).outcome with
  | error fault => rfl
  | ok inherited =>
      simp only [Except.bind]
      cases (resolveMembers _ members).outcome with
      | error fault => rfl
      | ok own => simp [Except.map]

@[simp]
theorem runWith_groups (context : Context) (arguments : List Shape)
    (declarations : List Declaration) (interfaces : declarations.all Declaration.isInterface) :
    (collect (askGroup context arguments) declarations).runWith resolved =
      (resolveInterfaces context arguments declarations).outcome := by
  induction declarations with
  | nil =>
      rw [resolveInterfaces]
      rfl
  | cons declaration more ih =>
      rw [List.all_cons, Bool.and_eq_true] at interfaces
      cases declaration with
      | interface parameters heritage members =>
          rw [outcome_resolveInterfaces_cons, ← ih interfaces.2]
          simp only [collect, askGroup, runWith_bind, runWith_askInterface, runWith_pure]
      | _ => simp [Declaration.isInterface] at interfaces

@[simp]
theorem runWith_scriptOfName (context : Context) (name : String) (arguments : List Shape) :
    (scriptOfName Context.tooDeep context name arguments).runWith resolved =
      (resolveName context name arguments).outcome := by
  rw [scriptOfName, resolveName]
  cases context.visited.contains name with
  | true => rfl
  | false =>
      simp only [Bool.false_eq_true, ↓reduceIte]
      generalize context.registry.get name = declarations
      cases declarations with
      | nil => rfl
      | cons first more =>
          dsimp only
          by_cases deep : context.tooDeep
          · rw [if_pos deep, if_pos deep, runWith_bind, runWith_check, Traced.outcome_bind]
            rfl
          · rw [if_neg deep, if_neg deep]
            simp only [apply_ite (runWith resolved), apply_ite Traced.outcome,
              Traced.outcome_within]
            split
            · rename_i interfaces
              simp only [runWith_bind, runWith_groups _ _ _ interfaces, runWith_pure,
                Traced.outcome_bind, Traced.outcome_pure]
            · cases more.getLast?.getD first with
              | interface parameters heritage members => rfl
              | enumeration members => rfl
              | _ parameters body =>
                  simp only [runWith_bind, runWith_askType, runWith_pure, map_eq_pure_bind,
                    Traced.outcome_bind, Traced.outcome_within, Traced.outcome_pure]

private theorem runWith_scriptOfUtility (context : Context) (utility : Utility) (target : TypeExpr)
    (keys : List TypeExpr) :
    (scriptOfUtility context utility target keys).runWith resolved =
      ((resolveType context target).outcome.bind fun shape =>
        match utility with
        | .same => .ok shape
        | .optional => .ok (shape.markOptional true)
        | .required => .ok (shape.markOptional false)
        | .pick => (resolveFirst context keys).outcome.bind fun wanted =>
            (Traced.check (Shape.selectFault? shape wanted)).outcome.bind fun _ =>
              .ok (Shape.select true shape wanted)
        | .omit => (resolveFirst context keys).outcome.bind fun unwanted =>
            (Traced.check (Shape.selectFault? shape unwanted)).outcome.bind fun _ =>
              .ok (Shape.select false shape unwanted)) := by
  rw [scriptOfUtility, runWith_bind, runWith_askType]
  congr 1
  funext shape
  cases utility <;> simp [scriptOfSelection]

@[simp]
theorem runWith_scriptOfReference (context : Context) (name : String)
    (arguments : List TypeExpr) :
    (scriptOfReference context name arguments).runWith resolved =
      (resolveType context (.reference (some name) arguments)).outcome := by
  rw [scriptOfReference.eq_def, resolveType.eq_def]
  dsimp only
  cases context.bound? name with
  | some shape => rfl
  | none =>
      dsimp only
      by_cases registered : context.registry.contains name
      · rw [if_pos registered, if_pos registered, runWith_bind, runWith_askTypes,
          Traced.outcome_bind]
        simp only [runWith_askName]
      · rw [if_neg registered, if_neg registered]
        by_cases generic : arrayGenerics.contains name
        · rw [if_pos generic, if_pos generic]
          cases arguments with
          | nil => rfl
          | cons element more =>
              rw [runWith_bind, runWith_askType, Traced.outcome_bind]
              rfl
        · rw [if_neg generic, if_neg generic]
          cases utilities.lookup name with
          | none => cases wellKnownTypes.lookup name <;> simp
          | some utility =>
              cases arguments with
              | nil => cases wellKnownTypes.lookup name <;> simp
              | cons target keys =>
                  dsimp only
                  rw [runWith_scriptOfUtility, Traced.outcome_bind]
                  congr 1
                  funext shape
                  cases utility <;> simp [-bind_pure_comp]

@[simp]
theorem runWith_scriptOfType (context : Context) (type : TypeExpr) :
    (scriptOfType Context.tooDeep context type).runWith resolved =
      (resolveType context type).outcome := by
  cases type with
  | reference name arguments =>
      cases name with
      | none =>
          rw [resolveType]
          rfl
      | some name => exact runWith_scriptOfReference context name arguments
  | object members =>
      rw [scriptOfType, resolveType]
      split
      · rfl
      · simp only [memberFields, runWith_bind, runWith_askMembers, runWith_pure,
          Traced.outcome_bind, Traced.outcome_within, Traced.outcome_pure]
        cases (resolveMembers context.nested members).outcome <;> rfl
  | union types =>
      rw [scriptOfType, runWith_bind, runWith_askNullable, resolveNullable_eq]
      simp only [bare, withoutParentheses, resolveUnwrapped, resolveType, runWith_pure,
        Traced.outcome_bind, Traced.outcome_pure]
      cases (resolveAlternatives context types).outcome <;> rfl
  | annotated inner =>
      cases inner with
      | _ => simp [scriptOfType, resolveType]
  | malformed fault =>
      rw [resolveType]
      rfl
  | _ => simp [scriptOfType, resolveType, -bind_pure_comp]

/-- The answers of the library are those its scripts make of them. -/
@[simp]
theorem runWith_script (context : Context) (query : Query) :
    (script Context.tooDeep context query).runWith resolved = resolved context query := by
  cases query with
  | name name arguments => exact runWith_scriptOfName context name arguments
  | interface parameters heritage members arguments =>
      exact runWith_scriptOfInterface context parameters heritage members arguments
  | members members => exact runWith_scriptOfMembers context members
  | nullable type => exact runWith_scriptOfNullable context type
  | type type => exact runWith_scriptOfType context type

private theorem answered_resolved (context : Context) (query : Query) :
    Answered Context.tooDeep context query (resolved context query) := by
  refine below_wellFounded.induction
    (C := fun asked => Answered Context.tooDeep asked.1 asked.2 (resolved asked.1 asked.2))
    (context, query) ?_
  rintro ⟨context, query⟩ ih
  constructor
  rw [← runWith_script]
  apply ends_runWith
  exact (script_below Context.tooDeep context query).imp fun inner asked below =>
    ih (inner, asked) below

/-- Resolution ends without help from the depth limit.  What a question asks for lies below
it in a well-founded order that knows nothing of the limit, for every way of cutting
branches off, and so for none.  Every question has one outcome then, and with the limit of
the context the library finds it. -/
theorem resolution_terminates :
    WellFounded Below ∧
      (∀ cut context query, (script cut context query).AllAsk fun inner asked =>
        Below (inner, asked) (context, query)) ∧
      (∀ cut context query, ∃! outcome, Answered cut context query outcome) ∧
      ∀ context query, Answered Context.tooDeep context query (resolved context query) := by
  refine ⟨below_wellFounded, ?_, ?_, ?_⟩
  · exact script_below
  · exact existsUnique_answered
  · exact answered_resolved

end PropValidators.Resolution
