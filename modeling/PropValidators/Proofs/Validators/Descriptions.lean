import PropValidators.Proofs.Shapes.Descriptions
import PropValidators.Proofs.Validators.OfShape

/-!
# Descriptions of validators

The description of a shape and the validator of a shape are made from it in two recursions of
their own, and each decides for itself which props are required.  They describe the same type:
the description of a shape can be made from its validator alone, where no field has a default.
-/

namespace PropValidators

mutual

/-- The members of the description of what a validator accepts. -/
def Validator.description : Validator → List (String × Json)
  | .primitive kind => described kind.name []
  | .shape entries => described "object" [("properties", .object (describeEntries entries))]
  | .arrayOf element => described "array" [("items", .object element.description)]
  | .oneOf values => described "enum" [("values", .array (values.map Literal.toJson))]
  | .oneOfType members => described "union" [("types", .array (describeValidators members))]
  | .any => described "any" []
  | .required inner => inner.description
termination_by structural validator => validator

/-- The descriptions of what validators accept. -/
def describeValidators : List Validator → List Json
  | [] => []
  | validator :: validators => .object validator.description :: describeValidators validators
termination_by structural validators => validators

/-- The prop of an entry and its description, with the mark of the entry. -/
def Entry.description : Entry → String × Json
  | ⟨prop, validator, required⟩ =>
      (prop, .object (validator.description ++ [("required", .bool required)]))
termination_by structural entry => entry

/-- The props of entries and their descriptions, in order. -/
def describeEntries : List Entry → List (String × Json)
  | [] => []
  | entry :: entries => entry.description :: describeEntries entries
termination_by structural entries => entries

end

@[simp]
theorem describeValidators_eq_map (validators : List Validator) :
    describeValidators validators = validators.map fun v => .object v.description := by
  induction validators with
  | nil => rfl
  | cons v validators ih => exact congrArg (Json.object v.description :: ·) ih

@[simp]
theorem describeEntries_eq_map (entries : List Entry) :
    describeEntries entries = entries.map Entry.description := by
  induction entries with
  | nil => rfl
  | cons entry entries ih => exact congrArg (entry.description :: ·) ih

namespace Validator

/-- The entries of an object of validators. -/
def entries : Validator → List Entry
  | .shape entries => entries
  | _ => []

/-- The values that a validator accepts, if it accepts a set of values. -/
def values : Validator → List Literal
  | .oneOf values => values
  | _ => []

end Validator

section Fields

@[simp]
theorem Validator.description_validator_ofField (field : Field) :
    (Entry.ofField field).validator.description =
      (Validator.ofShape field.shape).description := by
  rw [Entry.validator_ofField]
  split
  · rw [Validator.description]
  · rfl

variable {field : Field}

/-- A description marks a field as required exactly if its validator is. -/
theorem truthAt?_required_description (plain : field.hasDefault = false) :
    field.description.2.truthAt? "required" = some (Entry.ofField field).required := by
  rw [Entry.required_ofField, plain, Bool.not_false, Bool.and_true]
  obtain ⟨name, shape, optional, hasDefault⟩ := field
  cases shape <;> rfl

/-- The description of a field can be made from its entry, if that of its shape can be made from
the validator of the shape. -/
theorem Entry.description_ofField (plain : field.hasDefault = false)
    (same : field.shape.description = (Validator.ofShape field.shape).description) :
    (Entry.ofField field).description = field.description := by
  have required := Entry.required_ofField field
  have validatorSame := Validator.description_validator_ofField field
  have propEq := Entry.prop_ofField field
  rw [plain, Bool.not_false, Bool.and_true] at required
  generalize Entry.ofField field = entry at required validatorSame propEq ⊢
  obtain ⟨prop, validator, marked⟩ := entry
  obtain ⟨name, shape, optional, hasDefault⟩ := field
  dsimp only at required validatorSame propEq same
  rw [Entry.description, validatorSame, ← same, required, propEq, Field.description]

end Fields

namespace Shape

variable {shape : Shape}

/-- The description of a shape can be made from its validator. -/
theorem description_eq_of_ofShape (named : shape.UniquelyNamed) (plain : shape.WithoutDefaults) :
    shape.description = (Validator.ofShape shape).description := by
  induction named with
  | @intro shape here _ ih =>
      obtain ⟨plainHere, plainBelow⟩ := Division.everywhere_iff.mp plain
      have part : ∀ inner ∈ shape.parts,
          inner.description = (Validator.ofShape inner).description :=
        fun inner mem => ih inner mem (plainBelow inner mem)
      cases shape with
      | primitive kind => rfl
      | object fields =>
          have each : ∀ field ∈ fields,
              field.description = (Entry.ofField field).description := fun field mem =>
            (Entry.description_ofField (plainHere field mem)
              (part _ (List.mem_map_of_mem mem))).symm
          have pairs : Assoc.ofPairs (describeFields fields) = fields.map Field.description :=
            ofPairs_describeFields here
          rw [Shape.description, pairs, Validator.ofShape, Validator.description,
            describeEntries_eq_map, Entry.ofFields_eq_map, List.map_map,
            List.map_congr_left each]
          rfl
      | array element =>
          rw [Shape.description, Validator.ofShape, Validator.description,
            part element (List.mem_singleton_self element)]
      | union members =>
          have each : ∀ member ∈ members, describe member =
              .object (Validator.ofShape member).description :=
            fun member mem => congrArg Json.object (part member mem)
          rw [Shape.description, Validator.ofShape, Validator.description, describeShapes_eq_map,
            describeValidators_eq_map, Validator.ofShapes_eq_map, List.map_map,
            List.map_congr_left each]
          rfl
      | oneOf values => rfl
      | unknown => rfl

/-- The description of a shape agrees with its validator: it can be made from the validator, it
has the same names in the same order and the same values, and it marks the same fields as
required. -/
structure Agrees (shape : Shape) : Prop where
  description_eq : shape.description = (Validator.ofShape shape).description
  names_eq : ((describe shape).membersAt "properties").map Prod.fst =
    (Validator.ofShape shape).entries.map Entry.prop
  order_eq : (Validator.ofShape shape).entries.map Entry.prop = shape.ownFields.map Field.name
  values_eq : (describe shape).itemsAt "values" =
    (Validator.ofShape shape).values.map Literal.toJson
  required_eq : ∀ field ∈ shape.ownFields,
    field.description.2.truthAt? "required" = some (Entry.ofField field).required

theorem agrees (named : shape.UniquelyNamed) (plain : shape.WithoutDefaults) : shape.Agrees := by
  have namedHere := (Division.everywhere_iff.mp named).1
  have plainHere := (Division.everywhere_iff.mp plain).1
  have order : (Validator.ofShape shape).entries.map Entry.prop =
      shape.ownFields.map Field.name := by
    cases shape with
    | object fields => exact Entry.map_prop_ofFields fields
    | _ => rfl
  refine ⟨description_eq_of_ofShape named plain, ?_, order, ?_,
    fun field mem => truthAt?_required_description (plainHere field mem)⟩
  · rw [order]
    cases shape with
    | object fields =>
        have pairs : Assoc.ofPairs (describeFields fields) = describeFields fields :=
          Assoc.ofPairs_of_nodup ((keys_describeFields fields).symm ▸ namedHere)
        change (Assoc.keys (Assoc.ofPairs (describeFields fields))) = _
        rw [pairs, keys_describeFields]
        rfl
    | primitive kind => cases kind <;> rfl
    | _ => rfl
  · cases shape with
    | primitive kind => cases kind <;> rfl
    | _ => rfl

/-- Descriptions and validators describe the same type.  At every depth of a shape whose objects
have different names in them and no defaults, the description of what is there agrees with its
validator. -/
theorem everywhere_agrees (named : shape.UniquelyNamed) (plain : shape.WithoutDefaults) :
    division.Everywhere Agrees shape := by
  induction named with
  | @intro shape here below ih =>
      have plainBelow := (Division.everywhere_iff.mp plain).2
      exact .intro (agrees (.intro here below) plain)
        fun part mem => ih part mem (plainBelow part mem)

theorem everywhere_agrees_leveled :
    leveled.UniquelyNamed ∧ leveled.WithoutDefaults ∧ division.Everywhere Agrees leveled :=
  ⟨uniquelyNamed_leveled, withoutDefaults_leveled,
    everywhere_agrees uniquelyNamed_leveled withoutDefaults_leveled⟩

end Shape

end PropValidators
