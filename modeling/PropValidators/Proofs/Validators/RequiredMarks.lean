import PropValidators.Proofs.Validators.OfShape

/-!
# Where marks as required stand

Validators that are made from shapes are marked as required in the entries of objects and nowhere
else.  The entries stand for the fields of the objects one by one, at every depth, and an entry is
marked just where its field must be given and something is known of it.  Defaults that are known
for the props of a component matter for the entries of those props only, and not for what is inside
them.
-/

namespace PropValidators

namespace Validator

/-- The validators that are directly in a validator. -/
def parts : Validator → List Validator
  | .shape entries => entries.map Entry.validator
  | .arrayOf element => [element]
  | .oneOfType members => members
  | .required inner => [inner]
  | .primitive _ | .oneOf _ | .any => []

theorem sizeOf_lt_of_mem_parts {validator part : Validator} (mem : part ∈ validator.parts) :
    sizeOf part < sizeOf validator := by
  cases validator with
  | shape entries =>
      obtain ⟨⟨prop, inner, required⟩, entryMem, rfl⟩ := List.mem_map.mp mem
      have := List.sizeOf_lt_of_mem entryMem
      simp only [Entry.mk.sizeOf_spec, Validator.shape.sizeOf_spec] at this ⊢
      omega
  | arrayOf element =>
      obtain rfl := List.mem_singleton.mp mem
      simp
  | oneOfType members =>
      have := List.sizeOf_lt_of_mem (show part ∈ members from mem)
      simp only [Validator.oneOfType.sizeOf_spec]
      omega
  | required inner =>
      obtain rfl := List.mem_singleton.mp mem
      simp
  | _ => cases mem

/-- The division of validators into the validators directly in them. -/
def division : Division Validator :=
  ⟨parts, sizeOf_lt_of_mem_parts⟩

/-- The marks directly in a validator are where they belong: none is on an element or on a member,
and none is around a validator that is marked itself or accepts everything. -/
def MarksInPlace : Validator → Prop
  | .arrayOf element => element.isRequired = false
  | .oneOfType members => ∀ member ∈ members, member.isRequired = false
  | .required inner => inner.isRequired = false ∧ inner.isAny = false
  | .shape _ | .primitive _ | .oneOf _ | .any => True

end Validator

section Correspond

variable (property : Field → Entry → Prop)

mutual

/-- A shape and a validator are put together alike, and so are the fields and the entries in them,
which correspond one to one. -/
def Validator.Corresponds : Shape → Validator → Prop
  | .primitive _, .primitive _ | .oneOf _, .oneOf _ | .unknown, .any => True
  | .object fields, .shape entries => EntriesCorrespond fields entries
  | .array shape, .arrayOf element => Validator.Corresponds shape element
  | .union shapes, .oneOfType members => ValidatorsCorrespond shapes members
  | _, _ => False
termination_by structural shape => shape

/-- Shapes and validators correspond one by one. -/
def ValidatorsCorrespond : List Shape → List Validator → Prop
  | [], [] => True
  | shape :: shapes, validator :: validators =>
      Validator.Corresponds shape validator ∧ ValidatorsCorrespond shapes validators
  | _, _ => False
termination_by structural shapes => shapes

/-- An entry is for a field as the property says, and so are the entries below it for the fields
below the field. -/
def Entry.Corresponds : Field → Entry → Prop
  | ⟨name, shape, optional, hasDefault⟩, entry =>
      property ⟨name, shape, optional, hasDefault⟩ entry ∧
        Validator.Corresponds shape entry.validator.base
termination_by structural field => field

/-- Fields and entries correspond one by one. -/
def EntriesCorrespond : List Field → List Entry → Prop
  | [], [] => True
  | field :: fields, entry :: entries =>
      Entry.Corresponds field entry ∧ EntriesCorrespond fields entries
  | _, _ => False
termination_by structural fields => fields

end

end Correspond

/-- An entry is for a field and marked as it should be: its validator is marked if the entry says
that the prop is required, and that is so if the field is neither optional nor has a default nor is
unknown. -/
structure Entry.MarkedFor (field : Field) (entry : Entry) : Prop where
  prop_eq : entry.prop = field.name
  required_iff_marked : entry.required = true ↔ entry.validator.isRequired = true
  required_iff : entry.required = true ↔
    field.optional = false ∧ field.hasDefault = false ∧ field.shape.isUnknown = false

theorem Entry.markedFor_ofField (field : Field) : MarkedFor field (ofField field) where
  prop_eq := prop_ofField field
  required_iff_marked := by rw [isRequired_validator_ofField]
  required_iff := by
    rw [required_ofField]
    simp [and_assoc]

@[simp]
theorem Entry.base_validator_ofField (field : Field) :
    (ofField field).validator.base = Validator.ofShape field.shape := by
  cases field
  exact base_of _ _ _ _

mutual

theorem Validator.corresponds_ofShape :
    (shape : Shape) → Validator.Corresponds Entry.MarkedFor shape (Validator.ofShape shape)
  | .primitive _ => trivial
  | .object fields => entriesCorrespond_ofFields fields
  | .array element => Validator.corresponds_ofShape element
  | .union members => validatorsCorrespond_ofShapes members
  | .oneOf _ => trivial
  | .unknown => trivial
termination_by structural shape => shape

private theorem validatorsCorrespond_ofShapes :
    (shapes : List Shape) →
      ValidatorsCorrespond Entry.MarkedFor shapes (Validator.ofShapes shapes)
  | [] => trivial
  | shape :: shapes =>
      ⟨Validator.corresponds_ofShape shape, validatorsCorrespond_ofShapes shapes⟩
termination_by structural shapes => shapes

/-- An entry that is made for a field is marked as it should be, and so are the entries below. -/
theorem Entry.corresponds_ofField :
    (field : Field) → Entry.Corresponds Entry.MarkedFor field (Entry.ofField field)
  | ⟨name, shape, optional, hasDefault⟩ => by
      refine ⟨Entry.markedFor_ofField ⟨name, shape, optional, hasDefault⟩, ?_⟩
      rw [Entry.base_validator_ofField]
      exact Validator.corresponds_ofShape shape
termination_by structural field => field

private theorem entriesCorrespond_ofFields :
    (fields : List Field) → EntriesCorrespond Entry.MarkedFor fields (Entry.ofFields fields)
  | [] => trivial
  | field :: fields => ⟨Entry.corresponds_ofField field, entriesCorrespond_ofFields fields⟩
termination_by structural fields => fields

end

open Validator in
/-- A mark may be put around a validator that is not marked and does not accept everything. -/
theorem Entry.everywhere_validator_ofField {field : Field}
    (inner : division.Everywhere MarksInPlace (ofShape field.shape)) :
    division.Everywhere MarksInPlace (Entry.ofField field).validator := by
  rw [Entry.validator_ofField]
  split
  · rename_i required
    have known : field.shape.isUnknown = false :=
      ((Entry.markedFor_ofField field).required_iff.mp required).2.2
    refine .intro ⟨isRequired_ofShape field.shape, ?_⟩ (List.forall_mem_singleton.mpr inner)
    rw [isAny_ofShape, known]
  · exact inner

namespace Validator

private theorem everywhere_marksInPlace_ofShape (shape : Shape) :
    division.Everywhere MarksInPlace (ofShape shape) := by
  induction sizeEq : sizeOf shape using Nat.strong_induction_on generalizing shape with
  | _ size ih =>
      subst sizeEq
      have part : ∀ inner ∈ shape.parts, division.Everywhere MarksInPlace (ofShape inner) :=
        fun inner mem => ih _ (Shape.sizeOf_lt_of_mem_parts mem) inner rfl
      cases shape with
      | primitive kind => exact .intro trivial (List.forall_mem_nil _)
      | object fields =>
          refine .intro trivial ?_
          intro inner mem
          obtain ⟨entry, entryMem, rfl⟩ := List.mem_map.mp mem
          rw [Entry.ofFields_eq_map] at entryMem
          obtain ⟨field, fieldMem, rfl⟩ := List.mem_map.mp entryMem
          exact Entry.everywhere_validator_ofField (part _ (List.mem_map_of_mem fieldMem))
      | array element =>
          exact .intro (isRequired_ofShape element)
            (List.forall_mem_singleton.mpr (part element (List.mem_singleton_self element)))
      | union members =>
          have each : ∀ inner ∈ ofShapes members,
              inner.isRequired = false ∧ division.Everywhere MarksInPlace inner := by
            intro inner mem
            rw [ofShapes_eq_map] at mem
            obtain ⟨member, memberMem, rfl⟩ := List.mem_map.mp mem
            exact ⟨isRequired_ofShape member, part member memberMem⟩
          exact .intro (fun inner mem => (each inner mem).1) fun inner mem => (each inner mem).2
      | oneOf values => exact .intro trivial (List.forall_mem_nil _)
      | unknown => exact .intro trivial (List.forall_mem_nil _)

end Validator

/-- An entry whose prop has a default: it is not required, and checked the same otherwise. -/
def Entry.relaxed (entry : Entry) : Entry :=
  ⟨entry.prop, entry.validator.base, false⟩

theorem Entry.ofField_relaxed (field : Field) :
    ofField { field with hasDefault := true } =
      (ofField { field with hasDefault := false }).relaxed := by
  have base := base_validator_ofField { field with hasDefault := false }
  rw [relaxed, base, prop_ofField]
  obtain ⟨name, shape, optional, hasDefault⟩ := field
  simp [ofField, Entry.of]

/-- Defaults relax the entries of their own props, and no others. -/
theorem Entry.ofProps_eq_map (fields : List Field) (defaults : List String) :
    ofProps fields defaults =
      (ofProps fields []).map fun entry =>
        if entry.prop ∈ defaults then entry.relaxed else entry := by
  rw [ofProps, ofProps, List.map_map]
  apply List.map_congr_left
  intro field _
  rw [Function.comp_apply, prop_ofField]
  by_cases given : field.name ∈ defaults
  · simp [given, ofField_relaxed]
  · simp [given]

/-- The entry of a field and all entries in it, at every depth, are marked as they should be: they
correspond to the fields one to one and in order, an entry is required if and only if its validator
is marked, and that is if and only if the field is neither optional nor has a default nor is
unknown.  There are no marks but those, and none around a marked validator or one that accepts
everything.  The entries of props are those of the fields with the defaults that are given, whatever
their own defaults are: a default relaxes the entry of its prop and changes nothing else, and
whether some entry is usable does not depend on it. -/
theorem Entry.required_where_due (field : Field) (fields : List Field) (defaults : List String) :
    Corresponds MarkedFor field (ofField field) ∧
      Validator.division.Everywhere Validator.MarksInPlace (ofField field).validator ∧
      List.Forall₂ (fun f entry =>
          Corresponds MarkedFor { f with hasDefault := defaults.contains f.name } entry ∧
            Validator.division.Everywhere Validator.MarksInPlace entry.validator)
        fields (ofProps fields defaults) ∧
      ofProps fields defaults = (ofProps fields []).map (fun entry =>
        if entry.prop ∈ defaults then entry.relaxed else entry) ∧
      (anyUsable (ofProps fields defaults) = true ↔ ∃ f ∈ fields, f.shape.isUnknown = false) := by
  have inPlace : ∀ f : Field,
      Validator.division.Everywhere Validator.MarksInPlace (ofField f).validator := fun f =>
    everywhere_validator_ofField (Validator.everywhere_marksInPlace_ofShape f.shape)
  refine ⟨corresponds_ofField field, inPlace field, ?_, ofProps_eq_map fields defaults,
    anyUsable_ofProps fields defaults⟩
  rw [ofProps, List.forall₂_map_right_iff, List.forall₂_same]
  intro f _
  exact ⟨corresponds_ofField _, inPlace _⟩

end PropValidators
