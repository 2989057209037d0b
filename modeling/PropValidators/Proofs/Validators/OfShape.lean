import PropValidators.Proofs.Shapes.Named
import PropValidators.Validator

/-!
# Validators that are made from shapes

A validator that is made from a shape is not marked as required itself, and it accepts everything
only if nothing is known about the shape.  So the entry of a field says that the prop is required
exactly if its validator is marked so, and what is below the mark is the validator of the shape.
-/

namespace PropValidators

@[simp]
theorem Validator.ofShapes_eq_map (shapes : List Shape) :
    ofShapes shapes = shapes.map ofShape := by
  induction shapes with
  | nil => rfl
  | cons shape shapes ih => exact congrArg (ofShape shape :: ·) ih

@[simp]
theorem Entry.ofFields_eq_map (fields : List Field) : ofFields fields = fields.map ofField := by
  induction fields with
  | nil => rfl
  | cons field fields ih => exact congrArg (ofField field :: ·) ih

@[simp]
theorem Validator.toNodes_eq_map (library : String) (validators : List Validator) :
    toNodes library validators = validators.map (toNode library) := by
  induction validators with
  | nil => rfl
  | cons validator validators ih => exact congrArg (validator.toNode library :: ·) ih

@[simp]
theorem Entry.toPairs_eq_map (library : String) (entries : List Entry) :
    toPairs library entries =
      entries.map fun entry => (entry.prop, entry.validator.toNode library) := by
  induction entries with
  | nil => rfl
  | cons entry entries ih =>
      obtain ⟨prop, validator, required⟩ := entry
      exact congrArg ((prop, validator.toNode library) :: ·) ih

/-- Whether a validator is marked as required. -/
def Validator.isRequired : Validator → Bool
  | .required _ => true
  | _ => false

@[simp]
theorem Validator.isRequired_ofShape (shape : Shape) : (ofShape shape).isRequired = false := by
  cases shape <;> rfl

@[simp]
theorem Validator.isAny_ofShape (shape : Shape) : (ofShape shape).isAny = shape.isUnknown := by
  cases shape <;> rfl

@[simp]
theorem base_ofShape (shape : Shape) :
    (Validator.ofShape shape).base = Validator.ofShape shape := by
  cases shape <;> rfl

@[simp]
theorem base_of (name : String) (optional hasDefault : Bool) (shape : Shape) :
    (Entry.of name optional hasDefault (Validator.ofShape shape)).validator.base =
      Validator.ofShape shape := by
  rw [Entry.of]
  dsimp only
  split
  · rfl
  · exact base_ofShape shape

namespace Entry

variable (field : Field)

@[simp]
theorem prop_ofField : (ofField field).prop = field.name := by
  cases field
  rfl

/-- The props of entries are the names of the fields. -/
@[simp]
theorem map_prop_ofFields (fields : List Field) :
    (ofFields fields).map prop = fields.map Field.name := by
  rw [ofFields_eq_map, List.map_map]
  exact List.map_congr_left fun field _ => prop_ofField field

/-- A prop is required unless its field is optional or has a default or is unknown. -/
@[simp]
theorem required_ofField :
    (ofField field).required =
      (!field.optional && !field.hasDefault && !field.shape.isUnknown) := by
  obtain ⟨name, shape, optional, hasDefault⟩ := field
  exact congrArg (!optional && !hasDefault && ! ·) (Validator.isAny_ofShape shape)

/-- The validator of a required prop is marked, and that of another prop is not. -/
theorem validator_ofField :
    (ofField field).validator =
      if (ofField field).required then .required (Validator.ofShape field.shape)
      else Validator.ofShape field.shape := by
  cases field
  rfl

/-- The mark says whether the prop is required. -/
@[simp]
theorem isRequired_validator_ofField :
    (ofField field).validator.isRequired = (ofField field).required := by
  rw [validator_ofField]
  cases (ofField field).required with
  | true => rfl
  | false => exact Validator.isRequired_ofShape field.shape

/-- Some entry is usable if something is known of a field. -/
@[simp]
theorem anyUsable_ofProps (fields : List Field) (defaults : List String) :
    anyUsable (ofProps fields defaults) = true ↔ ∃ f ∈ fields, f.shape.isUnknown = false := by
  rw [anyUsable, ofProps, List.any_map, List.any_eq_true]
  refine exists_congr fun f => and_congr_right fun _ => ?_
  change (!(Entry.of f.name f.optional (defaults.contains f.name)
    (Validator.ofShape f.shape)).validator.base.isAny) = true ↔ _
  rw [base_of, Validator.isAny_ofShape, Bool.not_eq_true']

end Entry

end PropValidators
