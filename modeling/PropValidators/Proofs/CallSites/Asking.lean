import PropValidators.Proofs.CallSites.Components
import PropValidators.Proofs.CallSites.Exact
import PropValidators.Proofs.Validators.OfShape

/-!
# What a component call asks for

A component call asks for the validators of a component if it names one and its type argument is an
object of one of whose fields something is known.  It is then replaced by the assignment of one
validator per field, and by nothing else.
-/

namespace PropValidators

open Ast Node

/-- A call asks for validators of a component: that is its first argument, a name or a member of
something, and its first type argument resolves to an object, of one field of which something is
known at least. -/
structure AsksFor (context : Context) (call component : Node) (fields : List Field) : Prop where
  about : (call.children "arguments").head? = some component
  named : component.kind = .identifier ∨ component.kind = .memberExpression
  type : ∃ argument others, call.typeArguments = argument :: others ∧
    (resolveType context (TypeExpr.ofValue argument)).outcome = .ok (.object fields)
  known : ∃ f ∈ fields, f.shape.isUnknown = false

/-- A prop of a component, which is told by its text, is required: it is neither optional nor
unknown, and no assignment in the module gives it a default. -/
def Field.RequiredIn (root : Node) (property component : String) (f : Field) : Prop :=
  f.optional = false ∧ f.shape.isUnknown = false ∧
    ∀ n ∈ root.walk, ¬GivesDefault property component f.name n

instance (root : Node) (property component : String) (f : Field) :
    Decidable (f.RequiredIn root property component) :=
  inferInstanceAs (Decidable (_ ∧ _ ∧ _))

/-- The property that checks a prop of a component in a module. -/
def fieldCheck (options : Options) (root component : Node) (f : Field) : Node :=
  let check := (Validator.ofShape f.shape).toNode options.validatorNamespace
  property f.name
    (if f.RequiredIn root options.defaultsProperty (component.source 0) then
      member check "isRequired"
    else check)

/-- The assignment that checks the props of a component in a module, one after the other. -/
def fieldChecks (options : Options) (root component : Node) (fields : List Field) : Node :=
  assign (member component options.validatorProperty)
    (objectOf (fields.map (fieldCheck options root component)))

/-- What is reported for a call: the text of the component, if the call is replaced. -/
def reportedComponent? (workspace : Workspace) (call : Node) : Option String :=
  (componentAssignment? workspace call).bind fun _ =>
    call.component?.map fun component => component.source 0

variable {context : Context} {workspace : Workspace} {root c component : Node}
  {fields : List Field}

private theorem outcome_argumentShape_eq_some_iff {shape : Shape} :
    (argumentShape context c).outcome = .ok (some shape) ↔
      ∃ argument others, c.typeArguments = argument :: others ∧
        (resolveType context (TypeExpr.ofValue argument)).outcome = .ok shape := by
  rw [argumentShape]
  cases c.typeArguments with
  | nil =>
      constructor
      · rintro ⟨⟩
      · rintro ⟨argument, others, ⟨⟩, -⟩
  | cons argument others =>
      dsimp only
      rw [map_eq_pure_bind, Traced.outcome_bind, bind_eq_ok]
      constructor
      · rintro ⟨_, resolved, ⟨⟩⟩
        exact ⟨argument, others, rfl, resolved⟩
      · rintro ⟨_, _, ⟨⟩, resolved⟩
        exact ⟨shape, resolved, rfl⟩

theorem asksFor_iff :
    AsksFor context c component fields ↔
      c.component? = some component ∧
        (argumentShape context c).outcome = .ok (some (.object fields)) ∧
        ∃ f ∈ fields, f.shape.isUnknown = false := by
  rw [component?_eq_some_iff, outcome_argumentShape_eq_some_iff]
  constructor
  · rintro ⟨about, named, type, known⟩
    exact ⟨⟨about, named⟩, type, known⟩
  · rintro ⟨⟨about, named⟩, type, known⟩
    exact ⟨about, named, type, known⟩

/-- The entry of a field becomes the property that checks it, if the names of the props with
defaults are those that are assigned. -/
theorem toProperty_ofField {options : Options} {defaults : List String}
    (collected : ∀ name, name ∈ defaults ↔
      ∃ n ∈ root.walk, GivesDefault options.defaultsProperty (component.source 0) name n)
    (f : Field) :
    (Entry.ofField { f with hasDefault := defaults.contains f.name }).toProperty
        options.validatorNamespace = fieldCheck options root component f := by
  have defaulted : defaults.contains f.name = true ↔
      ∃ n ∈ root.walk, GivesDefault options.defaultsProperty (component.source 0) f.name n := by
    rw [List.contains_eq_mem, decide_eq_true_iff, collected]
  have requiredEq : (Entry.ofField { f with hasDefault := defaults.contains f.name }).required =
      decide (f.RequiredIn root options.defaultsProperty (component.source 0)) := by
    rw [Entry.required_ofField, Bool.eq_iff_iff, decide_eq_true_iff, Field.RequiredIn,
      Bool.and_eq_true, Bool.and_eq_true, Bool.not_eq_true', Bool.not_eq_true', Bool.not_eq_true',
      ← Bool.not_eq_true (defaults.contains f.name), defaulted, and_right_comm, and_assoc]
    simp only [not_exists, not_and]
  rw [Entry.toProperty, Entry.prop_ofField, Entry.validator_ofField, requiredEq, fieldCheck]
  by_cases required : f.RequiredIn root options.defaultsProperty (component.source 0)
  · rw [if_pos (decide_eq_true required), if_pos required, Validator.toNode]
  · rw [if_neg (by simpa using required), if_neg required]

theorem validatorAssignment_eq {options : Options} {defaults : List String}
    (collected : (assignedDefaults options.defaultsProperty root (component.source 0)).outcome =
      .ok defaults) (fields : List Field) :
    validatorAssignment options component (Entry.ofProps fields defaults) =
      fieldChecks options root component fields := by
  have each := toProperty_ofField fun name => mem_iff_of_assignedDefaults collected
  rw [validatorAssignment, mergeEntries, Entry.ofProps, List.map_map, fieldChecks]
  exact congrArg (fun properties => assign _ (objectOf properties))
    (List.map_congr_left fun f _ => each f)

section Replacement

variable (sound : c.Sound) (calls : c.calls componentHelper = true)
  {found : Option (Expansion String)}
  (returned : (expandComponent workspace c).outcome = .ok found)

include sound calls returned

/-- A call that is expanded asks for what it is replaced by. -/
theorem exists_asksFor_of_expansion {expansion : Expansion String} (some : found = some expansion) :
    ∃ component fields, AsksFor workspace.context c component fields ∧
      expansion.node = fieldChecks workspace.options workspace.root component fields ∧
      expansion.report = component.source 0 := by
  subst some
  obtain ⟨component, name, fields, defaults, componentEq, nameEq, shapeEq, defaultsEq,
    expansionEq⟩ :=
    (outcome_expandComponent_eq_some_iff sound (kind_of_calls calls)).mp returned
  obtain ⟨-, rfl⟩ := rendered_eq_ok_iff.mp nameEq
  obtain ⟨usable, rfl⟩ := eq_of_componentExpansion? expansionEq
  exact ⟨component, fields,
    asksFor_iff.mpr ⟨componentEq, shapeEq, (Entry.anyUsable_ofProps fields defaults).mp usable⟩,
    validatorAssignment_eq defaultsEq fields, rfl⟩

/-- A call that asks for validators is expanded. -/
theorem exists_expansion_of_asksFor (asks : AsksFor workspace.context c component fields) :
    ∃ expansion, found = some expansion ∧
      expansion.node = fieldChecks workspace.options workspace.root component fields := by
  obtain ⟨componentEq, shapeEq, known⟩ := asksFor_iff.mp asks
  rw [outcome_expandComponent sound (kind_of_calls calls), componentEq] at returned
  obtain ⟨name, nameEq, rest⟩ := bind_eq_ok.mp returned
  rw [shapeEq] at rest
  obtain ⟨defaults, defaultsEq, rfl⟩ := map_eq_ok.mp rest
  obtain ⟨-, rfl⟩ := rendered_eq_ok_iff.mp nameEq
  exact ⟨_, if_pos ((Entry.anyUsable_ofProps fields defaults).mpr known),
    validatorAssignment_eq defaultsEq fields⟩

/-- A call is replaced by what it asks for, and by nothing else. -/
theorem componentAssignment?_eq_some_iff {new : Node} :
    componentAssignment? workspace c = some new ↔
      ∃ component fields, AsksFor workspace.context c component fields ∧
        new = fieldChecks workspace.options workspace.root component fields := by
  rw [componentAssignment?_of_outcome calls returned, Option.map_eq_some_iff]
  constructor
  · rintro ⟨expansion, someEq, rfl⟩
    obtain ⟨component, fields, asks, nodeEq, -⟩ :=
      exists_asksFor_of_expansion sound calls returned someEq
    exact ⟨component, fields, asks, nodeEq⟩
  · rintro ⟨component, fields, asks, rfl⟩
    obtain ⟨expansion, someEq, nodeEq⟩ := exists_expansion_of_asksFor sound calls returned asks
    exact ⟨expansion, someEq, nodeEq⟩

theorem map_report_eq : found.map Expansion.report = reportedComponent? workspace c := by
  rw [reportedComponent?, componentAssignment?_of_outcome calls returned]
  cases foundEq : found with
  | none => rfl
  | some expansion =>
      obtain ⟨component, fields, asks, -, reportEq⟩ :=
        exists_asksFor_of_expansion sound calls returned foundEq
      rw [Option.map_some, Option.map_some, Option.bind_some, (asksFor_iff.mp asks).1, reportEq,
        Option.map_some]

end Replacement

end PropValidators
