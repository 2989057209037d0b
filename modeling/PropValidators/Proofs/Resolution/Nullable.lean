import PropValidators.Proofs.Outcomes
import PropValidators.Proofs.Resolution.Agreement
import PropValidators.Proofs.Shapes.Merging

/-!
# Members whose types admit null

A member of a type that admits null or undefined need not be given.  Whether a type admits
null depends on what its names stand for, and on the members of unions in it at any depth.
What is found out about the type of a member is less: null has to show in the union at the
top of the type, once annotation and parentheses are taken off.
-/

namespace PropValidators.Resolution

open Script

/-- A type admits null or undefined in a context.  A name does if it stands for an alias
that can be expanded and whose body admits them. -/
inductive AdmitsNull : Context → TypeExpr → Prop
  | nullish {context : Context} : AdmitsNull context .nullish
  | parenthesized {context : Context} {type : TypeExpr} :
      AdmitsNull context type → AdmitsNull context (.parenthesized type)
  | union {context : Context} {type : TypeExpr} {types : List TypeExpr} :
      type ∈ types → AdmitsNull context type → AdmitsNull context (.union types)
  | named {context : Context} {name : String} {arguments : List TypeExpr} {body : TypeExpr} :
      context.bound? name = none → context.visited.contains name = false →
        context.tooDeep = false → (context.registry.get name).getLast? = some (.alias [] body) →
        AdmitsNull ((context.entering name).nested.binding []) body →
        AdmitsNull context (.reference (some name) arguments)

/-- Whether null or undefined shows at the top of a type.  A union of nothing counts, as it
has no alternative that is not null. -/
def showsNull (type : TypeExpr) : Bool :=
  match bare type with
  | .nullish => true
  | .union types => types.any TypeExpr.isNullish || types.isEmpty
  | _ => false

/-- The name of a member. -/
def memberName? : TypeMember → Option String
  | .property name _ _ => some name
  | .method name _ => some name
  | .malformed _ => none

/-- Nothing is left of a union without its null alternatives only if it has some, or if it
has no alternatives at all. -/
@[simp]
theorem any_isNullish_or_isEmpty_filter (types : List TypeExpr) :
    (types.any TypeExpr.isNullish || (types.filter fun type => !type.isNullish).isEmpty) =
      (types.any TypeExpr.isNullish || types.isEmpty) := by
  cases anyEq : types.any TypeExpr.isNullish with
  | true => rfl
  | false =>
      have none : ∀ type ∈ types, (!type.isNullish) = true := by
        intro type mem
        rw [List.any_eq_false] at anyEq
        simpa using anyEq type mem
      rw [List.filter_eq_self.mpr none]

/-- The nullability that comes with a resolved type is what shows in the type. -/
theorem nullable_eq_showsNull {context : Context} {type : TypeExpr} {shape : Shape}
    {nullable : Bool} (returned : (resolveNullable context type).outcome = .ok (shape, nullable)) :
    nullable = showsNull type := by
  have notParenthesized := bare_ne_parenthesized type
  rw [← runWith_scriptOfNullable, scriptOfNullable] at returned
  rw [showsNull]
  cases bareEq : bare type with
  | nullish =>
      simp only [bareEq, runWith_pure, Except.ok.injEq, Prod.mk.injEq] at returned
      exact returned.2.symm
  | union types =>
      simp only [bareEq, runWith_bind, runWith_askTypes, runWith_pure, bind_eq_ok] at returned
      obtain ⟨shapes, _, returned⟩ := returned
      rw [any_isNullish_or_isEmpty_filter, Except.ok.injEq, Prod.mk.injEq] at returned
      exact returned.2.symm
  | _ =>
      simp only [bareEq, runWith_bind, runWith_askType, runWith_pure, bind_eq_ok] at returned
      obtain ⟨_, _, returned⟩ := returned
      rw [Except.ok.injEq, Prod.mk.injEq] at returned
      exact returned.2.symm

/-- The field of a signature: a property has the shape of its type, and a method is a function. -/
def signedField (context : Context) : TypeMember → Except Fault Field
  | .property name type optional => do
      let (shape, nullable) ← (resolveNullable context type).outcome
      return ⟨name, shape, optional || nullable, false⟩
  | .method name optional => return ⟨name, .primitive .function, optional, false⟩
  | .malformed fault => .error fault

/-- Members are resolved one after the other. -/
@[simp]
theorem outcome_resolveMembers (context : Context) (members : List TypeMember) :
    (resolveMembers context members).outcome = members.mapM (signedField context) := by
  induction members with
  | nil =>
      rw [resolveMembers]
      rfl
  | cons member more ih =>
      cases member with
      | property name type optional =>
          rw [resolveMembers, List.mapM_cons, ← ih, signedField]
          simp only [Traced.outcome_bind, Traced.outcome_pure]
          cases (resolveNullable context type).outcome with
          | error fault => rfl
          | ok answer => rfl
      | method name optional =>
          rw [resolveMembers, List.mapM_cons, ← ih, signedField]
          simp only [Traced.outcome_bind, Traced.outcome_pure]
          rfl
      | malformed fault =>
          rw [resolveMembers]
          rfl

theorem outcome_resolveMembers_append (context : Context) (before after : List TypeMember) :
    (resolveMembers context (before ++ after)).outcome =
      (resolveMembers context before).outcome.bind fun fields =>
        (resolveMembers context after).outcome.bind fun others => .ok (fields ++ others) := by
  rw [outcome_resolveMembers, outcome_resolveMembers, outcome_resolveMembers, List.mapM_append]
  rfl

private theorem memberName?_of_signedField {context : Context} {member : TypeMember} {field : Field}
    (signed : signedField context member = .ok field) :
    some field.name = memberName? member := by
  cases member with
  | property name type optional =>
      rw [signedField, monadBind_eq_ok] at signed
      obtain ⟨_, _, eq⟩ := signed
      cases eq
      rfl
  | method name optional =>
      cases signed
      rfl
  | malformed fault => cases signed

/-- The fields of members have the names of the members. -/
theorem names_of_resolveMembers {context : Context} {members : List TypeMember}
    {fields : List Field} (returned : (resolveMembers context members).outcome = .ok fields) :
    fields.map (fun field => some field.name) = members.map memberName? := by
  rw [outcome_resolveMembers, mapM_eq_ok] at returned
  induction returned with
  | nil => rfl
  | cons signed _ ih =>
      rw [List.map_cons, List.map_cons, memberName?_of_signedField signed, ih]

/-- The field of the last member of a name, when that is a property, is optional exactly
if the property is declared so or null shows in its type.  It makes no difference then which
of the two it is: the fields are those of members with the property declared optional. -/
theorem optional_iff_showsNull {context : Context} {before after : List TypeMember}
    {name : String} {type : TypeExpr} {optional : Bool} {fields : List Field}
    (last : ∀ member ∈ after, memberName? member ≠ some name)
    (returned : (memberFields context
      (before ++ .property name type optional :: after)).outcome = .ok fields) :
    (∃ field, fieldNamed? fields name = some field ∧
      (field.optional = true ↔ optional = true ∨ showsNull type = true)) ∧
      (memberFields context
        (before ++ .property name type (optional || showsNull type) :: after)).outcome =
          .ok fields := by
  simp only [memberFields, outcome_resolveMembers_append, resolveMembers, Traced.outcome_bind,
    Traced.outcome_pure, bind_eq_ok, Except.ok.injEq] at returned ⊢
  obtain ⟨_, ⟨earlier, beforeEq, _, ⟨⟨shape, nullable⟩, nullableEq, later, afterEq, rfl⟩, rfl⟩,
    rfl⟩ := returned
  have nullableIs : nullable = showsNull type := nullable_eq_showsNull nullableEq
  subst nullableIs
  constructor
  · refine ⟨⟨name, shape, optional || showsNull type, false⟩, ?_, ?_⟩
    · apply fieldNamed?_mergeFields_of_last
      intro other mem same
      have nameMem : some other.name ∈ after.map memberName? := by
        rw [← names_of_resolveMembers afterEq]
        exact List.mem_map_of_mem mem
      obtain ⟨member, memberMem, memberEq⟩ := List.mem_map.mp nameMem
      exact last member memberMem (memberEq.trans (congrArg some same))
    · exact Bool.or_eq_true_iff
  · refine ⟨_, ⟨earlier, beforeEq, _, ⟨_, nullableEq, later, afterEq, rfl⟩, rfl⟩, ?_⟩
    rw [Bool.or_assoc, Bool.or_self]

/-- Null shows in a union with it. -/
theorem optional_iff_showsNull_union_nullish :
    (memberFields { registry := .empty, maxDepth := .int 5 }
        ([] ++ .property "x" (.annotated (.union [.primitive .string, .nullish])) false ::
          [.method "y" false])).outcome =
        .ok [⟨"x", .primitive .string, true, false⟩, ⟨"y", .primitive .function, false, false⟩] ∧
      ∃ field,
        fieldNamed? [⟨"x", .primitive .string, true, false⟩,
          ⟨"y", .primitive .function, false, false⟩] "x" = some field ∧
        (field.optional = true ↔
          false = true ∨
            showsNull (.annotated (.union [.primitive .string, .nullish])) = true) := by
  have returned : (memberFields { registry := .empty, maxDepth := .int 5 }
      ([] ++ .property "x" (.annotated (.union [.primitive .string, .nullish])) false ::
        [.method "y" false])).outcome =
      .ok [⟨"x", .primitive .string, true, false⟩, ⟨"y", .primitive .function, false, false⟩] := by
    have combined : unionShape [.primitive .string] = .primitive .string := rfl
    simp [memberFields, resolveMembers, resolveNullable, resolveUnwrapped, resolveAlternatives,
      resolveType, TypeExpr.isNullish, combined, mergeFields, Assoc.ofPairs, Assoc.put]
  refine ⟨returned, (optional_iff_showsNull ?_ returned).1⟩
  simp [memberName?]

/-- Null deeper in a union is admitted, but makes no member optional. -/
theorem required_of_nested_union :
    ¬ ∀ (context : Context) (before after : List TypeMember) (name : String) (type : TypeExpr)
      (optional : Bool) (fields : List Field),
      (∀ member ∈ after, memberName? member ≠ some name) → AdmitsNull context type →
      (memberFields context
        (before ++ .property name (.annotated type) optional :: after)).outcome = .ok fields →
      ∃ field, fieldNamed? fields name = some field ∧ field.optional = true := by
  intro claim
  let type : TypeExpr :=
    .union [.parenthesized (.union [.primitive .string, .nullish]), .primitive .number]
  let context : Context := { registry := .empty, maxDepth := .int 5 }
  have admits : AdmitsNull context type :=
    .union List.mem_cons_self (.parenthesized (.union (by simp) .nullish))
  have returned : (memberFields context ([] ++ [.property "x" (.annotated type) false])).outcome =
      .ok [⟨"x", .union [.primitive .string, .primitive .number], false, false⟩] := by
    have inner : unionShape [.primitive .string] = .primitive .string := rfl
    have outer : unionShape [.primitive .string, .primitive .number] =
        .union [.primitive .string, .primitive .number] := rfl
    simp [type, memberFields, resolveMembers, resolveNullable, resolveUnwrapped,
      resolveAlternatives, resolveType, TypeExpr.isNullish, inner, outer, mergeFields,
      Assoc.ofPairs, Assoc.put]
  obtain ⟨field, found, optional⟩ := claim context [] [] "x" type false _ (by simp) admits returned
  cases found
  cases optional

end PropValidators.Resolution
