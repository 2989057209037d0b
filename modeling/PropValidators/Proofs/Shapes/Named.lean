import PropValidators.Proofs.Shapes.Within

/-!
# Fields of the objects in a shape

What can be said of the fields of every object in a shape, at any depth: that their names are
different, and that none of them has a default.
-/

namespace PropValidators.Shape

section Everywhere

variable {property : Shape → Prop}

@[simp]
theorem everywhere_object (fields : List Field) :
    division.Everywhere property (object fields) ↔
      property (object fields) ∧ ∀ field ∈ fields, division.Everywhere property field.shape :=
  Division.everywhere_iff.trans (and_congr_right fun _ => List.forall_mem_map)

@[simp]
theorem everywhere_array (element : Shape) :
    division.Everywhere property (array element) ↔
      property (array element) ∧ division.Everywhere property element :=
  Division.everywhere_iff.trans (and_congr_right fun _ => List.forall_mem_singleton)

@[simp]
theorem everywhere_union (members : List Shape) :
    division.Everywhere property (union members) ↔
      property (union members) ∧ ∀ member ∈ members, division.Everywhere property member :=
  Division.everywhere_iff

@[simp]
theorem everywhere_primitive (kind : PrimitiveKind) :
    division.Everywhere property (primitive kind) ↔ property (primitive kind) :=
  Division.everywhere_iff.trans (and_iff_left (List.forall_mem_nil _))

@[simp]
theorem everywhere_oneOf (values : List Literal) :
    division.Everywhere property (oneOf values) ↔ property (oneOf values) :=
  Division.everywhere_iff.trans (and_iff_left (List.forall_mem_nil _))

@[simp]
theorem everywhere_unknown : division.Everywhere property unknown ↔ property unknown :=
  Division.everywhere_iff.trans (and_iff_left (List.forall_mem_nil _))

end Everywhere

/-- The fields of a shape, if it is an object. -/
def ownFields (shape : Shape) : List Field :=
  shape.fields?.getD []

/-- At every depth the fields of an object have different names. -/
def UniquelyNamed (shape : Shape) : Prop :=
  division.Everywhere (fun inner => (inner.ownFields.map Field.name).Nodup) shape

/-- At no depth has a field a default. -/
def WithoutDefaults (shape : Shape) : Prop :=
  division.Everywhere (fun inner => ∀ field ∈ inner.ownFields, field.hasDefault = false) shape

/-- An object with a set of values of different kinds and a list of alternatives. -/
def leveled : Shape :=
  .object
    [⟨"aria-level", .oneOf [.number (.int 1), .truth true, .text "1"], false, false⟩,
      ⟨"items", .array (.union [.primitive .object, .object [⟨"key", .unknown, false, false⟩]]),
        true, false⟩]

theorem uniquelyNamed_leveled : leveled.UniquelyNamed := by
  simp [UniquelyNamed, leveled, ownFields, fields?]

theorem withoutDefaults_leveled : leveled.WithoutDefaults := by
  simp [WithoutDefaults, leveled, ownFields, fields?]

end PropValidators.Shape
