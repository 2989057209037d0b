import PropValidators.Proofs.Resolution.Inheritance
import PropValidators.Proofs.Resolution.Nullable

/-!
# Own and inherited members of interfaces

An interface may be declared more than once, and each declaration may have parents.  What it
inherits comes before its own members and gives way to them; and what a declaration contributes
gives way to the declarations after it.  These are two merges, one inside the other.  So a member
overrides what its own declaration and those before it inherit, but not what a later declaration
does.
-/

namespace PropValidators

open Resolution

/-- What a declaration of an interface contributes. -/
structure Contribution where
  /-- The fields of the parents, one parent after the other. -/
  inherited : List Field
  /-- The field of each signature, in order and with repetitions. -/
  own : List Field

/-- The fields of a contribution, of which the later win. -/
def Contribution.fields (contribution : Contribution) : List Field :=
  contribution.inherited ++ contribution.own

namespace Resolution

variable {context : Context}

/-- What a declaration contributes to a name with the given arguments.  Only an interface
contributes anything. -/
def contribution (context : Context) (arguments : List Shape) :
    Declaration → Except Fault Contribution
  | .interface parameters heritage members => do
      let scope := context.binding (Frame.ofArguments parameters arguments)
      let inherited ← (resolveHeritage scope heritage).outcome
      let own ← members.mapM (signedField scope)
      return ⟨inherited.flatten.map Field.returned, own.map Field.returned⟩
  | _ => return ⟨[], []⟩

@[simp]
theorem name_returned (field : Field) : field.returned.name = field.name := by
  cases field
  rfl

/-- The merges inside a declaration make no difference to that of the declarations. -/
theorem merged_interface (inherited : List (List Field)) (own : List Field) :
    (mergeFields (inherited ++ [mergeFields [own]])).map Field.returned =
      mergeFields [(inherited.flatten.map Field.returned) ++ own.map Field.returned] := by
  have merged : mergeFields (inherited ++ [mergeFields [own]]) =
      mergeFields [inherited.flatten ++ own] := by
    rw [mergeFields_grouped, List.append_nil, ← mergeFields_flatten, List.flatten_append,
      List.flatten_singleton]
  rw [merged, map_mergeFields name_returned, List.map_singleton, List.map_append]

private theorem outcome_resolveInterfaces (context : Context) (arguments : List Shape)
    {declarations : List Declaration}
    (interfaces : declarations.all Declaration.isInterface = true) :
    (resolveInterfaces context arguments declarations).outcome =
      (declarations.mapM (contribution context arguments)).map
        (List.map fun contribution => mergeFields [contribution.fields]) := by
  induction declarations with
  | nil =>
      rw [resolveInterfaces]
      rfl
  | cons declaration more ih =>
      rw [List.all_cons, Bool.and_eq_true] at interfaces
      cases declaration with
      | interface parameters heritage members =>
          rw [resolveInterfaces, List.mapM_cons, contribution]
          simp only [Traced.outcome_bind, Traced.outcome_within, Traced.outcome_pure,
            outcome_resolveMembers, ih interfaces.2]
          cases (resolveHeritage _ heritage).outcome with
          | error fault => rfl
          | ok inherited =>
              cases members.mapM (signedField _) with
              | error fault => rfl
              | ok own =>
                  simp only [Except.bind, merged_interface]
                  cases more.mapM (contribution context arguments) <;> rfl
      | _ => cases interfaces.1

/-- The fields of an interface are those its declarations contribute. -/
theorem outcome_resolveName_of_contributions {name : String} {declarations : List Declaration}
    (declared : context.registry.get name = declarations) (nonempty : declarations ≠ [])
    (interfaces : declarations.all Declaration.isInterface = true)
    (fresh : context.visited.contains name = false) (shallow : context.tooDeep = false)
    (arguments : List Shape) :
    (resolveName context name arguments).outcome =
      (declarations.mapM (contribution (context.entering name).nested arguments)).map
        fun contributions => .object (mergeFields (contributions.map Contribution.fields)) := by
  have each (contributions : List Contribution) :
      mergeFields (contributions.map fun contribution => mergeFields [contribution.fields]) =
        mergeFields (contributions.map Contribution.fields) := by
    rw [← mergeFields_each (contributions.map Contribution.fields), List.map_map]
    rfl
  rw [outcome_resolveName_of_interfaces declared nonempty interfaces fresh shallow,
    outcome_resolveInterfaces _ _ interfaces]
  cases declarations.mapM (contribution (context.entering name).nested arguments) with
  | error fault => rfl
  | ok contributions => simp only [Except.map, each]

/-- Of a name that no declaration has itself, the field is the last that is inherited. -/
theorem fieldNamed?_of_inherited {contributions : List Contribution} {name : String}
    (inheritedOnly : ∀ c ∈ contributions, name ∉ c.own.map Field.name) :
    fieldNamed? (contributions.flatMap Contribution.fields).reverse name =
      fieldNamed? (contributions.flatMap Contribution.inherited).reverse name := by
  induction contributions with
  | nil => rfl
  | cons c more ih =>
      rw [List.forall_mem_cons] at inheritedOnly
      have notOwn : fieldNamed? c.own.reverse name = none := by
        rw [fieldNamed?_eq_none_iff, List.map_reverse, List.mem_reverse]
        exact inheritedOnly.1
      simp only [List.flatMap_cons, Contribution.fields, List.reverse_append, fieldNamed?_append,
        ih inheritedOnly.2, notOwn, Option.none_or]

/-- Of a name that a declaration has itself, and no later one, the field is the last of its own,
unless a later declaration inherits one. -/
theorem fieldNamed?_of_own {before after : List Contribution} {c : Contribution} {name : String}
    {field : Field} (own : fieldNamed? c.own.reverse name = some field)
    (lastOwn : ∀ later ∈ after, name ∉ later.own.map Field.name) :
    fieldNamed? ((before ++ c :: after).flatMap Contribution.fields).reverse name =
      some ((fieldNamed? (after.flatMap Contribution.inherited).reverse name).getD field) := by
  rw [List.flatMap_append, List.flatMap_cons, List.reverse_append, List.reverse_append,
    fieldNamed?_append, fieldNamed?_append, fieldNamed?_of_inherited lastOwn, Contribution.fields,
    List.reverse_append, fieldNamed?_append, own, Option.some_or]
  cases fieldNamed? (after.flatMap Contribution.inherited).reverse name <;> rfl

/-- Where resolution is not cut off, a name whose declarations are interfaces resolves to the
object of the fields they contribute.  A field that none of them has itself is the last of those
inherited.  The last own field of a name is overridden by what later declarations inherit under
the name, and by nothing else; so it is the field of the object exactly if these inherit no other
one last. -/
theorem own_overrides_iff {name : String} {declarations : List Declaration}
    (declared : context.registry.get name = declarations) (nonempty : declarations ≠ [])
    (interfaces : declarations.all Declaration.isInterface = true)
    (fresh : context.visited.contains name = false) (shallow : context.tooDeep = false)
    (arguments : List Shape) :
    (resolveName context name arguments).outcome =
        (declarations.mapM (contribution (context.entering name).nested arguments)).map
          (fun contributions => .object (mergeFields (contributions.map Contribution.fields))) ∧
      ∀ contributions,
        declarations.mapM (contribution (context.entering name).nested arguments) =
            .ok contributions →
          let fields := mergeFields (contributions.map Contribution.fields)
          (∀ n, (∀ c ∈ contributions, n ∉ c.own.map Field.name) →
            fieldNamed? fields n =
              fieldNamed? (contributions.flatMap Contribution.inherited).reverse n) ∧
          ∀ before c after n field, contributions = before ++ c :: after →
            fieldNamed? c.own.reverse n = some field →
            (∀ later ∈ after, n ∉ later.own.map Field.name) →
            let inheritedLater :=
              fieldNamed? (after.flatMap Contribution.inherited).reverse n
            fieldNamed? fields n = some (inheritedLater.getD field) ∧
              (fieldNamed? fields n = some field ↔
                ∀ other, inheritedLater = some other → other = field) := by
  refine ⟨outcome_resolveName_of_contributions declared nonempty interfaces fresh shallow
    arguments, ?_⟩
  intro contributions _ fields
  have found (n : String) : fieldNamed? fields n =
      fieldNamed? (contributions.flatMap Contribution.fields).reverse n := by
    rw [fieldNamed?_mergeFields, List.flatMap_def]
  refine ⟨fun n inheritedOnly => ?_, ?_⟩
  · rw [found, fieldNamed?_of_inherited inheritedOnly]
  · rintro before c after n field rfl own lastOwn inheritedLater
    have fieldEq : fieldNamed? fields n = some (inheritedLater.getD field) := by
      rw [found, fieldNamed?_of_own own lastOwn]
    refine ⟨fieldEq, ?_⟩
    rw [fieldEq]
    cases inheritedLater with
    | none => simp
    | some other => simp

/-- An interface with two fields. -/
def parent : Declaration :=
  .interface [] [] [.property "n" (.primitive .number) false, .method "m" false]

/-- A declaration with a field that the parent has too. -/
def withField : Declaration := .interface [] [] [.property "n" (.primitive .string) true]

/-- A declaration with nothing but the parent. -/
def withParent : Declaration := .interface [] [⟨"P", []⟩] []

/-- A context in which a name is declared beside the parent. -/
def familyContext (declarations : List Declaration) : Context where
  registry := ⟨[("P", [parent]), ("I", declarations)]⟩
  maxDepth := .int 5

/-- The fields of the parent. -/
def parentFields : List Field :=
  [⟨"n", .primitive .number, false, false⟩, ⟨"m", .primitive .function, false, false⟩]

@[simp]
theorem signedField_property (context : Context) (name : String) (kind : PrimitiveKind)
    (optional : Bool) :
    signedField context (.property name (.primitive kind) optional) =
      .ok ⟨name, .primitive kind, optional, false⟩ := by
  have answer : (resolveNullable context (.primitive kind)).outcome =
      .ok (.primitive kind, false) := by
    simp [resolveNullable, resolveUnwrapped, resolveType]
  rw [signedField, answer]
  exact congrArg (fun marked => Except.ok (Field.mk name _ marked false)) (Bool.or_false optional)

@[simp]
theorem contribution_parent (context : Context) :
    contribution context [] parent = .ok ⟨[], parentFields⟩ := by
  rw [parent, contribution, resolveHeritage]
  simp only [List.mapM_cons, signedField_property]
  rfl

@[simp]
theorem contribution_withField (context : Context) :
    contribution context [] withField =
      .ok ⟨[], [⟨"n", .primitive .string, true, false⟩]⟩ := by
  rw [withField, contribution, resolveHeritage]
  simp only [List.mapM_cons, signedField_property]
  rfl

theorem contribution_withParent {context : Context} (declared : context.registry.get "P" = [parent])
    (fresh : context.visited.contains "P" = false) (shallow : context.tooDeep = false) :
    contribution context [] withParent = .ok ⟨parentFields, []⟩ := by
  have parentEq (bindings : Frame) : (resolveName (context.binding bindings) "P" []).outcome =
      .ok (.object parentFields) := by
    have declaredInside : (context.binding bindings).registry.get "P" = [parent] := declared
    rw [outcome_resolveName_of_contributions declaredInside (List.cons_ne_nil _ _) rfl fresh
      shallow, List.mapM_cons, contribution_parent]
    rfl
  rw [withParent, contribution, outcome_resolveHeritage, List.mapM_cons, inherited_eq, resolveAll]
  simp only [Traced.outcome_pure, Except.bind, parentEq]
  rfl

/-- The field of the last declaration overrides that of the parent of the first. -/
theorem own_overrides_iff_withField :
    let context := familyContext [withParent, withField]
    let object : Shape := .object
      [⟨"n", .primitive .string, true, false⟩, ⟨"m", .primitive .function, false, false⟩]
    context.registry.get "I" = [withParent, withField] ∧
      context.visited.contains "I" = false ∧ context.tooDeep = false ∧
      (resolveName context "I" []).outcome = .ok object := by
  intro context object
  have fresh : context.visited.contains "I" = false := rfl
  have shallow : context.tooDeep = false := rfl
  have declared : context.registry.get "I" = [withParent, withField] := rfl
  refine ⟨declared, fresh, shallow, ?_⟩
  rw [(own_overrides_iff declared (List.cons_ne_nil _ _) rfl fresh shallow []).1, List.mapM_cons,
    List.mapM_cons, contribution_withParent rfl rfl rfl, contribution_withField]
  rfl

/-- The parent of the last declaration overrides the field of the first. -/
theorem own_overridden_of_later_parent :
    let context := familyContext [withField, withParent]
    (resolveName context "I" []).outcome = .ok (.object parentFields) ∧
      ¬ ∀ (context : Context) (name : String) (declarations : List Declaration)
        (arguments : List Shape) (contributions : List Contribution) (fields : List Field),
        context.registry.get name = declarations → declarations ≠ [] →
        declarations.all Declaration.isInterface = true →
        context.visited.contains name = false → context.tooDeep = false →
        declarations.mapM (contribution (context.entering name).nested arguments) =
          .ok contributions →
        (resolveName context name arguments).outcome = .ok (.object fields) →
        ∀ before c after n field, contributions = before ++ c :: after →
          fieldNamed? c.own.reverse n = some field →
          (∀ later ∈ after, n ∉ later.own.map Field.name) → fieldNamed? fields n = some field := by
  intro context
  let contributions : List Contribution :=
    [⟨[], [⟨"n", .primitive .string, true, false⟩]⟩, ⟨parentFields, []⟩]
  have declared : context.registry.get "I" = [withField, withParent] := rfl
  have contributionsEq :
      [withField, withParent].mapM (contribution (context.entering "I").nested []) =
        .ok contributions := by
    rw [List.mapM_cons, List.mapM_cons, contribution_withParent rfl rfl rfl,
      contribution_withField]
    rfl
  have returned : (resolveName context "I" []).outcome = .ok (.object parentFields) := by
    rw [outcome_resolveName_of_contributions declared (List.cons_ne_nil _ _) rfl rfl rfl]
    exact congrArg (Except.map _) contributionsEq
  refine ⟨returned, fun claim => ?_⟩
  have own := claim context "I" _ [] contributions parentFields declared (List.cons_ne_nil _ _) rfl
    rfl rfl contributionsEq returned [] _ _ "n" _ rfl rfl (by simp)
  cases own

end Resolution

end PropValidators
