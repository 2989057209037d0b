import PropValidators.Proofs.Outcomes
import PropValidators.Proofs.Resolution.Agreement

/-!
# Inheriting from a name and referring to it

An interface inherits through a heritage clause, which reads like a reference: a name with type
arguments.  The name of a reference is looked up among the type parameters in scope, then among
the declarations, and then it may be the name of a type function.  The name of a clause is looked
up among the declarations only.  So a clause contributes the fields of the reference it reads
like when its name has no other meaning than that of a declaration, and nothing when its name is
not declared.
-/

namespace PropValidators.Resolution

/-- The groups of fields that a heritage clause contributes. -/
def inherited (context : Context) (clause : Heritage) : Except Fault (List (List Field)) :=
  (resolveHeritage context [clause]).outcome

/-- The fields of the reference that a heritage clause reads like, if its shape is an object. -/
def referred (context : Context) (clause : Heritage) : Except Fault (List (List Field)) :=
  (resolveType context (.reference (some clause.name) clause.arguments)).outcome.map
    fun shape => shape.fields?.toList

/-- If the name of a clause means an object at all, it does so by a declaration: it is bound to no
shape, and it is declared or not that of a type function with arguments. -/
def MeansDeclaration (context : Context) (clause : Heritage) : Prop :=
  context.bound? clause.name = none ∧
    (context.registry.contains clause.name = true ∨ utilities.lookup clause.name = none ∨
      clause.arguments = [])

variable {context : Context} {clause : Heritage}

/-- A clause contributes the fields of what its name is declared as. -/
theorem inherited_eq (context : Context) (clause : Heritage) :
    inherited context clause =
      (resolveAll context clause.arguments).outcome.bind fun shapes =>
        (resolveName context clause.name shapes).outcome.map fun parent =>
          parent.fields?.toList := by
  obtain ⟨name, arguments⟩ := clause
  rw [inherited, resolveHeritage, resolveHeritage]
  simp only [Traced.outcome_bind, Traced.outcome_pure]
  cases (resolveAll context arguments).outcome with
  | error fault => rfl
  | ok shapes =>
      simp only [Except.bind]
      cases (resolveName context name shapes).outcome with
      | error fault => rfl
      | ok parent => simp [Except.map]

theorem outcome_resolveHeritage_cons (context : Context) (clause : Heritage)
    (more : List Heritage) :
    (resolveHeritage context (clause :: more)).outcome =
      (inherited context clause).bind fun own =>
        (resolveHeritage context more).outcome.map fun others => own ++ others := by
  rw [inherited_eq]
  obtain ⟨name, arguments⟩ := clause
  rw [resolveHeritage]
  simp only [Traced.outcome_bind, Traced.outcome_pure]
  cases (resolveAll context arguments).outcome with
  | error fault => rfl
  | ok shapes =>
      simp only [Except.bind]
      cases (resolveName context name shapes).outcome with
      | error fault => rfl
      | ok parent => cases (resolveHeritage context more).outcome <;> rfl

/-- The clauses of an interface contribute one after the other. -/
theorem outcome_resolveHeritage (context : Context) (clauses : List Heritage) :
    (resolveHeritage context clauses).outcome =
      (clauses.mapM (inherited context)).map List.flatten := by
  induction clauses with
  | nil =>
      rw [resolveHeritage]
      rfl
  | cons clause more ih =>
      rw [outcome_resolveHeritage_cons, ih, List.mapM_cons]
      cases inherited context clause with
      | error fault => rfl
      | ok own => cases more.mapM (inherited context) <;> rfl

theorem get_eq_nil_of_undeclared {registry : Registry Declaration} {name : String}
    (undeclared : registry.contains name = false) : registry.get name = [] := by
  by_contra declared
  have registered := Registry.mem_names_of_get_ne_nil declared
  rw [Registry.contains, ← Bool.not_eq_true, List.contains_iff_mem] at undeclared
  exact undeclared registered

theorem outcome_resolveName_of_undeclared {name : String}
    (undeclared : context.registry.contains name = false) (arguments : List Shape) :
    (resolveName context name arguments).outcome = .ok .unknown := by
  have noDeclarations := get_eq_nil_of_undeclared undeclared
  rw [resolveName]
  split
  · rfl
  · split
    · rfl
    · rename_i found
      rw [noDeclarations] at found
      cases found

/-- A clause with a name that is not declared contributes nothing. -/
theorem inherited_of_undeclared {shapes : List Shape}
    (returned : (resolveAll context clause.arguments).outcome = .ok shapes)
    (undeclared : context.registry.contains clause.name = false) :
    inherited context clause = .ok [] := by
  rw [inherited_eq, returned]
  simp only [Except.bind]
  rw [outcome_resolveName_of_undeclared undeclared]
  rfl

/-- A reference to a name that has no meaning is no object. -/
theorem referred_of_meaningless {shapes : List Shape}
    (returned : (resolveAll context clause.arguments).outcome = .ok shapes)
    (unbound : context.bound? clause.name = none)
    (undeclared : context.registry.contains clause.name = false)
    (noFunction : utilities.lookup clause.name = none ∨ clause.arguments = []) :
    referred context clause = .ok [] := by
  obtain ⟨name, arguments⟩ := clause
  dsimp only at returned unbound undeclared noFunction
  rw [referred, resolveType.eq_def]
  simp only [unbound, undeclared, Bool.false_eq_true, if_false]
  split
  · split
    · rfl
    · rename_i element more
      simp only [resolveAll, Traced.outcome_bind, bind_eq_ok] at returned
      obtain ⟨shape, elementEq, -⟩ := returned
      rw [Traced.outcome_bind, elementEq]
      rfl
  · split
    · rename_i found
      rcases noFunction with noUtility | noArguments
      · rw [noUtility] at found
        cases found
      · cases noArguments
    · split
      · rfl
      · rw [outcome_resolveName_of_undeclared undeclared]
        rfl

private theorem inherited_of_declared (unbound : context.bound? clause.name = none)
    (declared : context.registry.contains clause.name = true) :
    inherited context clause = referred context clause := by
  rw [inherited_eq, referred, resolveType.eq_def]
  simp only [unbound, declared, if_true, Traced.outcome_bind]
  cases (resolveAll context clause.arguments).outcome <;> rfl

/-- A name that is declared by interfaces is an object with their fields. -/
theorem outcome_resolveName_of_interfaces {name : String} {declarations : List Declaration}
    (declared : context.registry.get name = declarations) (nonempty : declarations ≠ [])
    (interfaces : declarations.all Declaration.isInterface = true)
    (fresh : context.visited.contains name = false) (shallow : context.tooDeep = false)
    (arguments : List Shape) :
    (resolveName context name arguments).outcome =
      (resolveInterfaces (context.entering name).nested arguments declarations).outcome.map
        fun groups => .object (mergeFields groups) := by
  rw [resolveName]
  split
  · rename_i visited
    rw [fresh] at visited
    cases visited
  · split
    · rename_i found
      exact absurd (declared.symm.trans found) nonempty
    · rename_i first more found
      rw [← declared, found] at interfaces
      simp only [← declared, found, shallow, interfaces, Bool.false_eq_true, if_false, if_true,
        Traced.outcome_within, Traced.outcome_bind]
      rfl

/-- Of a name that is not declared by interfaces only, the last declaration counts: an alias has
the shape of what it stands for, and an enum that of its values. -/
theorem outcome_resolveName_of_last {name : String} {first : Declaration} {more : List Declaration}
    (declared : context.registry.get name = first :: more)
    (mixed : (first :: more).all Declaration.isInterface = false)
    (fresh : context.visited.contains name = false) (shallow : context.tooDeep = false)
    (arguments : List Shape) :
    (resolveName context name arguments).outcome =
      match (more.getLast?).getD first with
      | .alias parameters body =>
          let scope :=
            (context.entering name).nested.binding (Frame.ofArguments parameters arguments)
          (resolveType scope body).outcome.map Shape.returned
      | .enumeration members => .ok (enumShape members)
      | .interface _ _ _ => .ok .unknown := by
  rw [resolveName]
  split
  · rename_i visited
    rw [fresh] at visited
    cases visited
  · split
    · rename_i found
      rw [declared] at found
      cases found
    · rename_i found
      rw [declared] at found
      cases found
      simp only [mixed, shallow, Bool.false_eq_true, if_false, Traced.outcome_within]
      cases (more.getLast?).getD first with
      | interface parameters heritage members => rfl
      | enumeration members => rfl
      | «alias» parameters body =>
          dsimp only
          rw [map_eq_pure_bind, Traced.outcome_bind, Traced.outcome_within]
          cases (resolveType _ body).outcome <;> rfl

/-- The clauses of an interface contribute one after the other, and each the fields of the
reference it reads like, if its name means a declaration.  A name that is not declared
contributes nothing, although it may be bound to an object or be the name of a type function. -/
theorem heritage_contributions {clauses : List Heritage}
    (returned : ∀ clause ∈ clauses,
      ∃ shapes, (resolveAll context clause.arguments).outcome = .ok shapes) :
    (resolveHeritage context clauses).outcome =
        (clauses.mapM (inherited context)).map List.flatten ∧
      ∀ clause ∈ clauses,
        (MeansDeclaration context clause →
          inherited context clause = referred context clause) ∧
        (context.registry.contains clause.name = false → inherited context clause = .ok []) := by
  refine ⟨outcome_resolveHeritage context clauses, ?_⟩
  intro clause mem
  obtain ⟨shapes, shapesEq⟩ := returned clause mem
  constructor
  · rintro ⟨unbound, meaning⟩
    cases declared : context.registry.contains clause.name with
    | true => exact inherited_of_declared unbound declared
    | false =>
        have noFunction := meaning.resolve_left (by simp [declared])
        rw [inherited_of_undeclared shapesEq declared,
          referred_of_meaningless shapesEq unbound declared noFunction]
  · exact inherited_of_undeclared shapesEq

/-- A context in which an interface with one field is declared. -/
def baseContext : Context where
  registry := ⟨[("Base", [.interface [] [] [.property "a" (.primitive .string) false]])]⟩
  maxDepth := .int 10

/-- A clause that names the interface. -/
def baseClause : Heritage := ⟨"Base", []⟩

/-- A clause that names the interface with its fields made optional. -/
def partialClause : Heritage := ⟨"Partial", [.reference (some "Base") []]⟩

/-- The shape of a reference to the interface. -/
@[simp]
theorem outcome_resolveType_base :
    (resolveType baseContext (.reference (some "Base") [])).outcome =
      .ok (.object [⟨"a", .primitive .string, false, false⟩]) := by
  have unbound : baseContext.bound? "Base" = none := rfl
  have contained : baseContext.registry.contains "Base" = true := by decide
  have fields (context : Context) : (resolveInterfaces context []
      [.interface [] [] [.property "a" (.primitive .string) false]]).outcome =
        .ok [[⟨"a", .primitive .string, false, false⟩]] := by
    simp only [resolveInterfaces, resolveHeritage, resolveMembers, resolveNullable,
      resolveUnwrapped, resolveType, Traced.outcome_bind, Traced.outcome_within,
      Traced.outcome_pure]
    rfl
  rw [resolveType]
  simp only [unbound, contained, if_true, resolveAll, pure_bind]
  have declared : baseContext.registry.get "Base" =
      [.interface [] [] [.property "a" (.primitive .string) false]] := rfl
  rw [outcome_resolveName_of_interfaces declared (List.cons_ne_nil _ _) rfl rfl rfl, fields]
  rfl

@[simp]
theorem resolveAll_partialClause :
    (resolveAll baseContext partialClause.arguments).outcome =
      .ok [.object [⟨"a", .primitive .string, false, false⟩]] := by
  simp only [partialClause, resolveAll, Traced.outcome_bind, outcome_resolveType_base]
  rfl

/-- The interface is inherited from like it is referred to, and nothing is inherited through the
type function. -/
theorem heritage_contributions_base :
    (∀ clause ∈ [baseClause, partialClause],
        ∃ shapes, (resolveAll baseContext clause.arguments).outcome = .ok shapes) ∧
      MeansDeclaration baseContext baseClause ∧
      baseContext.registry.contains partialClause.name = false ∧
      (resolveHeritage baseContext [baseClause, partialClause]).outcome =
        ([baseClause, partialClause].mapM (inherited baseContext)).map List.flatten ∧
      inherited baseContext baseClause = referred baseContext baseClause ∧
      inherited baseContext partialClause = .ok [] := by
  have returned : ∀ clause ∈ [baseClause, partialClause],
      ∃ shapes, (resolveAll baseContext clause.arguments).outcome = .ok shapes := by
    rw [List.forall_mem_cons, List.forall_mem_singleton]
    exact ⟨⟨[], by rw [baseClause, resolveAll]; rfl⟩, ⟨_, resolveAll_partialClause⟩⟩
  have means : MeansDeclaration baseContext baseClause := ⟨rfl, .inl (by decide)⟩
  have undeclared : baseContext.registry.contains partialClause.name = false := by decide
  obtain ⟨contributions, each⟩ := heritage_contributions returned
  exact ⟨returned, means, undeclared, contributions, (each baseClause (by simp)).1 means,
    (each partialClause (by simp)).2 undeclared⟩

/-- Nothing is inherited from the interface with its fields made optional. -/
theorem nothing_inherited_from_type_function :
    ¬ ∀ (context : Context) (clause : Heritage) (shapes : List Shape),
      (resolveAll context clause.arguments).outcome = .ok shapes →
        inherited context clause = referred context clause := by
  intro claim
  have nothing : inherited baseContext partialClause = .ok [] :=
    inherited_of_undeclared resolveAll_partialClause (by decide)
  have optional : referred baseContext partialClause =
      .ok [[⟨"a", .primitive .string, true, false⟩]] := by
    have unbound : baseContext.bound? "Partial" = none := rfl
    have undeclared : baseContext.registry.contains "Partial" = false := by decide
    have noArray : arrayGenerics.contains "Partial" = false := by decide
    have function : utilities.lookup "Partial" = some .optional := by decide
    rw [referred, resolveType.eq_def]
    simp only [partialClause, unbound, undeclared, noArray, function, Bool.false_eq_true, if_false,
      Traced.outcome_bind, outcome_resolveType_base]
    rfl
  have same := claim baseContext partialClause _ resolveAll_partialClause
  rw [nothing, optional] at same
  cases same

end PropValidators.Resolution
