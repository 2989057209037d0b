import PropValidators.Proofs.Resolution.Contract
import PropValidators.Proofs.Shapes.Passing

/-!
# Resolution gives well-formed shapes

Shapes that are resolved where all bound shapes are well-formed are well-formed themselves.
Fields, members of unions and values of sets are put together from the answers to other
questions, which are asked in contexts that differ in their bindings; so the statement is a
contract on all questions at once.
-/

namespace PropValidators

namespace Context

variable {context : Context}

/-- All shapes bound to type parameters are well-formed, in whichever frame. -/
def BindingsWellFormed (context : Context) : Prop :=
  ∀ frame ∈ context.bindings, ∀ binding ∈ frame, binding.2.WellFormed

theorem BindingsWellFormed.binding (formed : context.BindingsWellFormed)
    (parameters : List String) {arguments : List Shape}
    (argumentsFormed : ∀ shape ∈ arguments, shape.WellFormed) :
    (context.binding (Frame.ofArguments parameters arguments)).BindingsWellFormed := by
  refine List.forall_mem_cons.mpr ⟨fun binding mem => ?_, formed⟩
  obtain ⟨⟨name, index⟩, _, rfl⟩ := List.mem_map.mp mem
  refine Shape.WellFormed.passed ?_ index
  cases found : arguments[index]? with
  | none => exact .unknown
  | some shape => exact argumentsFormed shape (List.mem_of_getElem? found)

theorem BindingsWellFormed.bound (formed : context.BindingsWellFormed) {name : String}
    {shape : Shape} (found : context.bound? name = some shape) : shape.WellFormed := by
  obtain ⟨frame, head, inFrame⟩ := Option.bind_eq_some_iff.mp found
  obtain ⟨⟨other, held⟩, find, rfl⟩ := Option.map_eq_some_iff.mp inFrame
  exact formed frame (List.mem_of_mem_head? head) _
    (List.mem_reverse.mp (List.mem_of_find?_eq_some find))

end Context

namespace Resolution

open Script Contract

/-- The arguments of a question are well-formed. -/
def Query.WellFormed : Query → Prop
  | .name _ arguments => ∀ shape ∈ arguments, shape.WellFormed
  | .interface _ _ _ arguments => ∀ shape ∈ arguments, shape.WellFormed
  | .members _ => True
  | .nullable _ => True
  | .type _ => True

/-- The shape in an answer is well-formed; fields are well-formed as those of an object. -/
def Query.AnswerWellFormed : (query : Query) → query.Answer → Prop
  | .name _ _, shape => Shape.WellFormed shape
  | .interface _ _ _ _, fields => (Shape.object fields).WellFormed
  | .members _, fields => (Shape.object fields).WellFormed
  | .nullable _, answer => Shape.WellFormed answer.1
  | .type _, shape => Shape.WellFormed shape

/-- Where all shapes in sight are well-formed, answers are. -/
def shapeContract : Contract where
  Asks context query := context.BindingsWellFormed ∧ query.WellFormed
  Holds _ query answer := query.AnswerWellFormed answer

section Scripts

variable {cut : Context → Bool} {context : Context} (formed : context.BindingsWellFormed)

include formed

theorem keeps_askType (type : TypeExpr) :
    shapeContract.Keeps Shape.WellFormed (askType context type) :=
  keeps_question ⟨formed, trivial⟩

theorem keeps_askTypes (types : List TypeExpr) :
    shapeContract.Keeps (fun shapes => ∀ shape ∈ shapes, shape.WellFormed)
      (askTypes context types) :=
  (keeps_collect fun type _ => keeps_askType formed type).imp fun _ every => every.2

theorem keeps_askName (name : String) {arguments : List Shape}
    (argumentsFormed : ∀ shape ∈ arguments, shape.WellFormed) :
    shapeContract.Keeps Shape.WellFormed (askName context name arguments) :=
  keeps_question ⟨formed, argumentsFormed⟩

theorem keeps_askMembers (members : List TypeMember) :
    shapeContract.Keeps (fun fields => (Shape.object fields).WellFormed)
      (askMembers context members) :=
  keeps_question ⟨formed, trivial⟩

theorem keeps_askGroup {arguments : List Shape}
    (argumentsFormed : ∀ shape ∈ arguments, shape.WellFormed) (declaration : Declaration) :
    shapeContract.Keeps (fun fields => (Shape.object fields).WellFormed)
      (askGroup context arguments declaration) := by
  have none : (Shape.object []).WellFormed := .object List.nodup_nil (by simp)
  cases declaration with
  | interface parameters heritage members => exact keeps_question ⟨formed, argumentsFormed⟩
  | _ => exact keeps_pure none

theorem keeps_scriptOfName (name : String) {arguments : List Shape}
    (argumentsFormed : ∀ shape ∈ arguments, shape.WellFormed) :
    shapeContract.Keeps Shape.WellFormed (scriptOfName cut context name arguments) := by
  -- Neither guard has to do with bindings.
  have innerFormed : (context.entering name).nested.BindingsWellFormed := formed
  unfold scriptOfName
  split
  · exact keeps_pure .unknown
  · split
    · exact keeps_pure .unknown
    · split
      · exact keeps_bind (keeps_check fun _ _ => trivial) fun _ _ => keeps_pure .unknown
      · split
        · refine keeps_bind (keeps_collect fun declaration _ =>
            keeps_askGroup innerFormed argumentsFormed declaration) fun groups groupsFormed => ?_
          exact keeps_pure (Shape.wellFormed_mergeFields fun group mem =>
            (groupsFormed.2 group mem).fields.2)
        · split
          · rename_i parameters body _
            refine keeps_bind (keeps_askType (innerFormed.binding parameters argumentsFormed) body)
              fun shape shapeFormed => ?_
            exact keeps_pure shapeFormed.returned
          · exact keeps_pure (Shape.wellFormed_enumShape _)
          · exact keeps_pure .unknown

theorem keeps_askParent (clause : Heritage) :
    shapeContract.Keeps Shape.WellFormed (do
      let shapes ← askTypes context clause.arguments
      askName context clause.name shapes) :=
  keeps_bind (keeps_askTypes formed clause.arguments) fun _ shapesFormed =>
    keeps_askName formed clause.name shapesFormed

theorem keeps_scriptOfInterface (parameters : List String) (heritage : List Heritage)
    (members : List TypeMember) {arguments : List Shape}
    (argumentsFormed : ∀ shape ∈ arguments, shape.WellFormed) :
    shapeContract.Keeps (fun fields => (Shape.object fields).WellFormed)
      (scriptOfInterface context parameters heritage members arguments) := by
  have scopeFormed := formed.binding parameters argumentsFormed
  refine keeps_bind (keeps_collect fun clause _ => keeps_askParent scopeFormed clause)
    fun parents parentsFormed => ?_
  refine keeps_bind (keeps_askMembers scopeFormed members) fun own ownFormed => ?_
  refine keeps_pure (Shape.WellFormed.returned_fields (Shape.wellFormed_mergeFields ?_))
  intro group mem
  rcases List.mem_append.mp mem with mem | mem
  · obtain ⟨parent, parentMem, mem⟩ := List.mem_flatMap.mp mem
    cases parent with
    | object fields =>
        obtain rfl := List.mem_singleton.mp mem
        exact (parentsFormed.2 _ parentMem).fields.2
    | _ => cases mem
  · obtain rfl := List.mem_singleton.mp mem
    exact ownFormed.fields.2

theorem keeps_memberField (member : TypeMember) :
    shapeContract.Keeps (fun field => field.shape.WellFormed)
      (match member with
        | .property name type optional => do
            let (shape, nullable) ← askNullable context type
            return ⟨name, shape, optional || nullable, false⟩
        | .method name optional => return ⟨name, .primitive .function, optional, false⟩
        | .malformed fault => .done (.error fault) : Script Field) := by
  cases member with
  | property name type optional =>
      exact keeps_bind (keeps_question ⟨formed, trivial⟩) fun answer answerFormed =>
        keeps_pure answerFormed
  | method name optional => exact keeps_pure (.primitive .function)
  | malformed fault => exact keeps_fault trivial

theorem keeps_scriptOfMembers (members : List TypeMember) :
    shapeContract.Keeps (fun fields => (Shape.object fields).WellFormed)
      (scriptOfMembers context members) := by
  refine keeps_bind (keeps_collect fun member _ => keeps_memberField formed member)
    fun fields fieldsFormed => ?_
  refine keeps_pure (Shape.wellFormed_mergeFields fun group mem => ?_)
  obtain rfl := List.mem_singleton.mp mem
  exact fieldsFormed.2

theorem keeps_scriptOfNullable (type : TypeExpr) :
    shapeContract.Keeps (fun answer => answer.1.WellFormed) (scriptOfNullable context type) := by
  unfold scriptOfNullable
  split
  · exact keeps_pure .unknown
  · exact keeps_bind (keeps_askTypes formed _) fun shapes shapesFormed =>
      keeps_pure (Shape.wellFormed_unionShape shapesFormed)
  · exact keeps_bind (keeps_askType formed _) fun shape shapeFormed => keeps_pure shapeFormed

theorem keeps_askFirst (types : List TypeExpr) :
    shapeContract.Keeps Shape.WellFormed (askFirst context types) := by
  cases types with
  | nil => exact keeps_pure .unknown
  | cons first rest => exact keeps_askType formed first

theorem keeps_scriptOfSelection (keep : Bool) {shape : Shape} (shapeFormed : shape.WellFormed)
    (keys : List TypeExpr) :
    shapeContract.Keeps Shape.WellFormed (scriptOfSelection context keep shape keys) := by
  refine keeps_bind (keeps_askFirst formed keys) fun names _ => ?_
  exact keeps_bind (keeps_check fun _ _ => trivial) fun _ _ =>
    keeps_pure (Shape.wellFormed_select shapeFormed keep names)

theorem keeps_scriptOfUtility (utility : Utility) (target : TypeExpr) (keys : List TypeExpr) :
    shapeContract.Keeps Shape.WellFormed (scriptOfUtility context utility target keys) := by
  refine keeps_bind (keeps_askType formed target) fun shape shapeFormed => ?_
  split
  · exact keeps_pure shapeFormed
  · exact keeps_pure (Shape.wellFormed_markOptional shapeFormed true)
  · exact keeps_pure (Shape.wellFormed_markOptional shapeFormed false)
  · exact keeps_scriptOfSelection formed true shapeFormed keys
  · exact keeps_scriptOfSelection formed false shapeFormed keys

theorem keeps_scriptOfReference (name : String) (arguments : List TypeExpr) :
    shapeContract.Keeps Shape.WellFormed (scriptOfReference context name arguments) := by
  unfold scriptOfReference
  split
  · rename_i shape found
    exact keeps_pure (formed.bound found)
  · split
    · exact keeps_bind (keeps_askTypes formed arguments) fun shapes shapesFormed =>
        keeps_askName formed name shapesFormed
    · split
      · split
        · exact keeps_pure (.array .unknown)
        · exact keeps_bind (keeps_askType formed _) fun shape shapeFormed =>
            keeps_pure (.array shapeFormed)
      · split
        · exact keeps_scriptOfUtility formed _ _ _
        · split
          · exact keeps_pure (.primitive _)
          · exact keeps_askName formed name (by simp)

theorem keeps_scriptOfType (type : TypeExpr) :
    shapeContract.Keeps Shape.WellFormed (scriptOfType cut context type) := by
  cases type with
  | primitive kind => exact keeps_pure (.primitive kind)
  | nullish => exact keeps_pure .unknown
  | function => exact keeps_pure (.primitive .function)
  | literal value => exact keeps_pure (Shape.wellFormed_singleton value)
  | template => exact keeps_pure (.primitive .string)
  | reference name arguments =>
      cases name with
      | none => exact keeps_pure .unknown
      | some name => exact keeps_scriptOfReference formed name arguments
  | object members =>
      simp only [scriptOfType]
      split
      · exact keeps_pure .unknown
      · have nestedFormed : context.nested.BindingsWellFormed := formed
        exact keeps_bind (keeps_askMembers nestedFormed members) fun fields fieldsFormed =>
          keeps_pure fieldsFormed
  | array element =>
      exact keeps_bind (keeps_askType formed element) fun shape shapeFormed =>
        keeps_pure (.array shapeFormed)
  | tuple elements =>
      exact keeps_bind (keeps_askTypes formed elements) fun shapes shapesFormed =>
        keeps_pure (.array (Shape.wellFormed_unionShape shapesFormed))
  | union types =>
      exact keeps_bind (keeps_question ⟨formed, trivial⟩) fun answer answerFormed =>
        keeps_pure answerFormed
  | intersection operands =>
      exact keeps_bind (keeps_askTypes formed operands) fun shapes shapesFormed =>
        keeps_pure (Shape.wellFormed_intersect shapesFormed)
  | parenthesized inner => exact keeps_askType formed inner
  | annotated inner =>
      cases inner with
      | annotated deeper => exact keeps_pure .unknown
      | _ => exact keeps_askType formed _
  | keyof target =>
      exact keeps_bind (keeps_askType formed target) fun shape shapeFormed =>
        keeps_pure (Shape.wellFormed_keys shapeFormed)
  | modified inner => exact keeps_askType formed inner
  | untold => exact keeps_pure .unknown
  | malformed fault => exact keeps_fault trivial

omit formed in
theorem keeps_script (query : Query) (asks : shapeContract.Asks context query) :
    shapeContract.Keeps (shapeContract.Holds context query) (script cut context query) := by
  obtain ⟨formed, queryFormed⟩ := asks
  cases query with
  | name name arguments => exact keeps_scriptOfName formed name queryFormed
  | interface parameters heritage members arguments =>
      exact keeps_scriptOfInterface formed parameters heritage members queryFormed
  | members members => exact keeps_scriptOfMembers formed members
  | nullable type => exact keeps_scriptOfNullable formed type
  | type type => exact keeps_scriptOfType formed type

end Scripts

/-- The answers to questions with well-formed arguments are well-formed. -/
theorem answerWellFormed_of_resolved {context : Context} (query : Query)
    (formed : context.BindingsWellFormed) (queryFormed : query.WellFormed) {answer : query.Answer}
    (returned : resolved context query = .ok answer) : query.AnswerWellFormed answer := by
  have kept : ∀ context query, shapeContract.Asks context query →
      shapeContract.Keeps (shapeContract.Holds context query)
        (script Context.tooDeep context query) := fun _ => keeps_script
  exact holds_of_resolved kept ⟨formed, queryFormed⟩ returned

/-- Where only well-formed shapes are bound, the shape of every type is well-formed, whether or
not null is taken out of it, and so is the shape of every name with well-formed arguments.  The
fields of members are those of a well-formed object. -/
theorem resolution_wellFormed {context : Context} (formed : context.BindingsWellFormed) :
    (∀ (name : String) (arguments : List Shape) (shape : Shape),
        (∀ argument ∈ arguments, argument.WellFormed) →
        (resolveName context name arguments).outcome = .ok shape → shape.WellFormed) ∧
      (∀ (type : TypeExpr) (shape : Shape),
        (resolveType context type).outcome = .ok shape → shape.WellFormed) ∧
      (∀ (type : TypeExpr) (shape : Shape) (nullable : Bool),
        (resolveNullable context type).outcome = .ok (shape, nullable) → shape.WellFormed) ∧
      ∀ (members : List TypeMember) (fields : List Field),
        (memberFields context members).outcome = .ok fields →
          (Shape.object fields).WellFormed := by
  refine ⟨?_, ?_, ?_, ?_⟩
  · intro name arguments shape argumentsFormed returned
    exact answerWellFormed_of_resolved (.name name arguments) formed argumentsFormed returned
  · intro type shape returned
    exact answerWellFormed_of_resolved (.type type) formed trivial returned
  · intro type shape nullable returned
    exact answerWellFormed_of_resolved (.nullable type) formed trivial returned
  · intro members fields returned
    exact answerWellFormed_of_resolved (.members members) formed trivial returned

/-- A union is bound to a parameter, and opened where it is one of several alternatives.  The
literals in it and beside it come together, and the number type that is in both counts once. -/
theorem resolution_wellFormed_bound_union :
    let bound : Shape := .union [.oneOf [.text "a", .text "b"], .primitive .number]
    let context : Context :=
      { registry := ⟨[("Box", [.alias ["T"] (.object
          [.property "value" (.reference (some "T") []) false])])]⟩
        maxDepth := .int 5
        bindings := [[("T", bound)]] }
    let type : TypeExpr :=
      .union [.reference (some "T") [], .literal (.text "c"), .nullish, .primitive .number]
    let opened : Shape :=
      .union [.oneOf [.text "a", .text "b", .text "c"], .primitive .number]
    context.BindingsWellFormed ∧
      (resolveType context type).outcome = .ok opened ∧
      (resolveNullable context type).outcome = .ok (opened, true) ∧ opened.WellFormed ∧
      (resolveName context "Box" [opened]).outcome =
        .ok (.object [⟨"value", opened, false, false⟩]) ∧
      (Shape.object [⟨"value", opened, false, false⟩]).WellFormed := by
  intro bound context type opened
  have formed : context.BindingsWellFormed := by
    rw [Context.BindingsWellFormed, List.forall_mem_singleton, List.forall_mem_singleton]
    refine .union ⟨by decide, ?_, ?_, ?_⟩ ?_
    · decide
    · decide
    · decide
    · rw [List.forall_mem_cons, List.forall_mem_singleton]
      exact ⟨.oneOf (by decide), .primitive .number⟩
  have combined : unionShape [bound, .oneOf [.text "c"], .primitive .number] = opened := rfl
  have typeEq : (resolveType context type).outcome = .ok opened := by
    have bound? : context.bound? "T" = some bound := rfl
    simp [type, resolveType, resolveAlternatives, TypeExpr.isNullish, bound?, combined]
  have nullableEq : (resolveNullable context type).outcome = .ok (opened, true) := by
    have bound? : context.bound? "T" = some bound := rfl
    simp [type, resolveNullable, resolveUnwrapped, resolveType, resolveAlternatives,
      TypeExpr.isNullish, bound?, combined]
  have openedFormed : opened.WellFormed := (resolution_wellFormed formed).2.1 type opened typeEq
  have nameEq : (resolveName context "Box" [opened]).outcome =
      .ok (.object [⟨"value", opened, false, false⟩]) := by
    let scope := ((context.entering "Box").nested.binding [("T", opened)])
    have shallow : scope.tooDeep = false := rfl
    have bound? : scope.nested.bound? "T" = some opened := rfl
    have script : scriptOfName Context.tooDeep context "Box" [opened] = (do
        let shape ← askType scope (.object [.property "value" (.reference (some "T") []) false])
        return shape.returned) := rfl
    rw [← runWith_scriptOfName, script]
    simp only [runWith_bind, runWith_askType, resolveType, shallow, bound?, resolveMembers,
      resolveNullable, resolveUnwrapped, Traced.outcome_bind, Traced.outcome_within,
      Traced.outcome_pure, Bool.false_eq_true, if_false]
    rfl
  refine ⟨formed, typeEq, nullableEq, openedFormed, nameEq, ?_⟩
  refine (resolution_wellFormed formed).1 "Box" [opened] _ ?_ nameEq
  rw [List.forall_mem_singleton]
  exact openedFormed

end Resolution

end PropValidators
