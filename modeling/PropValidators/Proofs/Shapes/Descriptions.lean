import PropValidators.Description
import PropValidators.Proofs.KeyedLists
import PropValidators.Proofs.Shapes.Named
import PropValidators.Proofs.Syntax.Expressions

/-!
# Shapes read back from descriptions

A description does not say which construct of shapes it is for: an object of unknown fields has
the same type in it as one with fields, and a description of a field has one more member than
that of its shape.  The type and the members that are there tell them apart all the same.  So a
shape is read back from its description, except that a description does not say which fields have
defaults, and counts a field about which nothing is known as optional.
-/

namespace PropValidators

open Ast Node

@[simp]
theorem describeShapes_eq_map (shapes : List Shape) :
    describeShapes shapes = shapes.map describe := by
  induction shapes with
  | nil => rfl
  | cons shape shapes ih => exact congrArg (describe shape :: ·) ih

@[simp]
theorem describeFields_eq_map (fields : List Field) :
    describeFields fields = fields.map Field.description := by
  induction fields with
  | nil => rfl
  | cons field fields ih => exact congrArg (field.description :: ·) ih

/-- The names in the description of fields are those of the fields. -/
@[simp]
theorem keys_describeFields (fields : List Field) :
    Assoc.keys (describeFields fields) = fields.map Field.name := by
  rw [describeFields_eq_map, Assoc.keys, List.map_map]
  refine List.map_congr_left fun field _ => ?_
  cases field
  rfl

/-- Fields with different names are described one by one. -/
theorem ofPairs_describeFields {fields : List Field} (named : (fields.map Field.name).Nodup) :
    Assoc.ofPairs (describeFields fields) = fields.map Field.description := by
  rw [Assoc.ofPairs_of_nodup ((keys_describeFields fields).symm ▸ named), describeFields_eq_map]

namespace Json

/-- The items of the list under a key. -/
def itemsAt (json : Json) (key : String) : List Json :=
  match json.get? key with
  | some (.array items) => items
  | _ => []

/-- The members of the object under a key. -/
def membersAt (json : Json) (key : String) : List (String × Json) :=
  match json.get? key with
  | some (.object members) => members
  | _ => []

/-- The truth value under a key. -/
def truthAt? (json : Json) (key : String) : Option Bool :=
  match json.get? key with
  | some (.bool b) => some b
  | _ => none

theorem sizeOf_get? {json value : Json} {key : String} (found : json.get? key = some value) :
    sizeOf value < sizeOf json := by
  cases json with
  | object members =>
      rw [get?, Option.map_eq_some_iff] at found
      obtain ⟨⟨name, held⟩, find, rfl⟩ := found
      have := List.sizeOf_lt_of_mem (List.mem_of_find?_eq_some find)
      simp only [Json.object.sizeOf_spec, Prod.mk.sizeOf_spec] at this ⊢
      omega
  | _ => cases found

private theorem sizeOf_itemsAt {json item : Json} {key : String} (mem : item ∈ json.itemsAt key) :
    sizeOf item < sizeOf json := by
  rw [itemsAt] at mem
  split at mem
  · rename_i found
    have below := sizeOf_get? found
    have := List.sizeOf_lt_of_mem mem
    rw [Json.array.sizeOf_spec] at below
    omega
  · cases mem

private theorem sizeOf_membersAt {json : Json} {member : String × Json} {key : String}
    (mem : member ∈ json.membersAt key) : sizeOf member.2 < sizeOf json := by
  rw [membersAt] at mem
  split at mem
  · rename_i found
    have below := sizeOf_get? found
    have inside := List.sizeOf_lt_of_mem mem
    obtain ⟨name, value⟩ := member
    simp only [Json.object.sizeOf_spec, Prod.mk.sizeOf_spec] at below inside ⊢
    omega
  · cases mem

end Json

/-- The literal value that a constant stands for. -/
def Literal.ofJson? : Json → Option Literal
  | .string s => some (.text s)
  | .number n => some (.number n)
  | .bool b => some (.truth b)
  | _ => none

@[simp]
theorem Literal.ofJson?_toJson (value : Literal) : Literal.ofJson? value.toJson = some value := by
  cases value <;> rfl

/-- The run-time kind with a name. -/
def PrimitiveKind.named? (name : String) : Option PrimitiveKind :=
  [.string, .number, .boolean, .function, .object, .symbol, .node, .element].find?
    fun kind : PrimitiveKind => kind.name == name

@[simp]
theorem PrimitiveKind.named?_name (kind : PrimitiveKind) :
    PrimitiveKind.named? kind.name = some kind := by
  cases kind <;> rfl

namespace Shape

/-- The shape that a description is for. -/
def ofDescription? (json : Json) : Option Shape :=
  match (json.get? "type").bind Json.string? with
  | none => none
  | some type =>
      if type = "array" then
        ((json.get? "items").attach.bind fun element => ofDescription? element.1).map .array
      else if type = "enum" then ((json.itemsAt "values").mapM Literal.ofJson?).map .oneOf
      else if type = "union" then
        ((json.itemsAt "types").attach.mapM fun member => ofDescription? member.1).map .union
      else if type = "any" then some .unknown
      else if (json.get? "properties").isSome then
        let fields := (json.membersAt "properties").attach.mapM fun property => do
          let shape ← ofDescription? property.1.2
          let required ← property.1.2.truthAt? "required"
          return (⟨property.1.1, shape, !required, false⟩ : Field)
        fields.map .object
      else (PrimitiveKind.named? type).map .primitive
termination_by sizeOf json
decreasing_by
  · exact Json.sizeOf_get? element.2
  · exact Json.sizeOf_itemsAt member.2
  · exact Json.sizeOf_membersAt property.2

end Shape

/-- The field that a property of a description is for. -/
def Field.ofDescription? (property : String × Json) : Option Field := do
  let shape ← Shape.ofDescription? property.2
  let required ← property.2.truthAt? "required"
  return ⟨property.1, shape, !required, false⟩

mutual

/-- What a description says of a shape: which fields have defaults is left out, and a field about
which nothing is known counts as optional. -/
def Shape.asDescribed : Shape → Shape
  | .object fields => .object (fieldsAsDescribed fields)
  | .array element => .array element.asDescribed
  | .union members => .union (shapesAsDescribed members)
  | shape => shape
termination_by structural shape => shape

/-- What descriptions say of shapes. -/
def shapesAsDescribed : List Shape → List Shape
  | [] => []
  | shape :: shapes => shape.asDescribed :: shapesAsDescribed shapes
termination_by structural shapes => shapes

/-- What a description says of a field. -/
def Field.asDescribed : Field → Field
  | ⟨name, shape, optional, _⟩ => ⟨name, shape.asDescribed, optional || shape.isUnknown, false⟩
termination_by structural field => field

/-- What descriptions say of fields. -/
def fieldsAsDescribed : List Field → List Field
  | [] => []
  | field :: fields => field.asDescribed :: fieldsAsDescribed fields
termination_by structural fields => fields

end

@[simp]
theorem shapesAsDescribed_eq_map (shapes : List Shape) :
    shapesAsDescribed shapes = shapes.map Shape.asDescribed := by
  induction shapes with
  | nil => rfl
  | cons shape shapes ih => exact congrArg (shape.asDescribed :: ·) ih

@[simp]
theorem fieldsAsDescribed_eq_map (fields : List Field) :
    fieldsAsDescribed fields = fields.map Field.asDescribed := by
  induction fields with
  | nil => rfl
  | cons field fields ih => exact congrArg (field.asDescribed :: ·) ih

namespace Shape

@[simp]
theorem get?_described_type (type : String) (members : List (String × Json)) :
    (Json.object (described type members)).get? "type" = some (.string type) :=
  rfl

/-- A description is read by its type, an object by whether it has properties. -/
theorem ofDescription?_described (type : String) (members : List (String × Json)) :
    ofDescription? (.object (described type members)) =
      let json := Json.object (described type members)
      if type = "array" then ((json.get? "items").bind ofDescription?).map .array
      else if type = "enum" then ((json.itemsAt "values").mapM Literal.ofJson?).map .oneOf
      else if type = "union" then ((json.itemsAt "types").mapM ofDescription?).map .union
      else if type = "any" then some .unknown
      else if (json.get? "properties").isSome then
        ((json.membersAt "properties").mapM Field.ofDescription?).map .object
      else (PrimitiveKind.named? type).map .primitive := by
  have readField : ∀ property : String × Json, (do
      let shape ← ofDescription? property.2
      let required ← property.2.truthAt? "required"
      return (⟨property.1, shape, !required, false⟩ : Field)) =
        Field.ofDescription? property := fun _ => rfl
  rw [ofDescription?, get?_described_type]
  dsimp only [Option.bind_some, Json.string?]
  rw [bind_attach_eq ofDescription? fun _ => rfl,
    mapM_attach_eq ofDescription? fun _ => rfl,
    mapM_attach_eq Field.ofDescription? fun property => readField property.1]

section Types

variable (marks : List (String × Json))

@[simp]
theorem ofDescription?_array (element : Json) :
    ofDescription? (.object (described "array" (("items", element) :: marks))) =
      (ofDescription? element).map .array := by
  rw [ofDescription?_described]
  rfl

@[simp]
theorem ofDescription?_enum (values : List Json) :
    ofDescription? (.object (described "enum" (("values", .array values) :: marks))) =
      (values.mapM Literal.ofJson?).map .oneOf := by
  rw [ofDescription?_described]
  rfl

@[simp]
theorem ofDescription?_union (members : List Json) :
    ofDescription? (.object (described "union" (("types", .array members) :: marks))) =
      (members.mapM ofDescription?).map .union := by
  rw [ofDescription?_described]
  rfl

@[simp]
theorem ofDescription?_any : ofDescription? (.object (described "any" marks)) = some .unknown := by
  rw [ofDescription?_described]
  rfl

@[simp]
theorem ofDescription?_object (properties : List (String × Json)) :
    ofDescription? (.object (described "object" (("properties", .object properties) :: marks))) =
      (properties.mapM Field.ofDescription?).map .object := by
  rw [ofDescription?_described]
  rfl

/-- A run-time kind is read where there are no properties. -/
theorem ofDescription?_primitive (kind : PrimitiveKind)
    (unmarked : (Json.object marks).get? "properties" = none) :
    ofDescription? (.object (described kind.name marks)) = some (.primitive kind) := by
  have ne : "type" ≠ "properties" := by decide
  have propertyless : (Json.object (described kind.name marks)).get? "properties" = none :=
    (Assoc.get?_cons_of_ne ne (.string kind.name) marks).trans unmarked
  rw [ofDescription?_described]
  dsimp only
  rw [propertyless, PrimitiveKind.named?_name]
  cases kind <;> rfl

end Types

section Described

variable {shape : Shape} {field : Field}

/-- A field is read back from its description, if its shape is read back from its own. -/
theorem ofDescription?_field
    (read : ∀ marks : List (String × Json), (Json.object marks).get? "properties" = none →
      ofDescription? (.object (field.shape.description ++ marks)) =
        some field.shape.asDescribed) :
    Field.ofDescription? field.description = some field.asDescribed := by
  obtain ⟨name, shape, optional, hasDefault⟩ := field
  have marked : (Json.object (shape.description ++
      [("required", .bool (!optional && !shape.isUnknown))])).truthAt? "required" =
        some (!optional && !shape.isUnknown) := by
    cases shape <;> rfl
  dsimp only at read
  rw [Field.description, Field.ofDescription?, read _ rfl, marked]
  change some (⟨name, shape.asDescribed, !(!optional && !shape.isUnknown), false⟩ : Field) = _
  rw [Bool.not_and, Bool.not_not, Bool.not_not]
  rfl

/-- A shape is read back from its description, also where a mark was added to it. -/
theorem ofDescription?_description (named : shape.UniquelyNamed) :
    ∀ marks : List (String × Json), (Json.object marks).get? "properties" = none →
      ofDescription? (.object (shape.description ++ marks)) = some shape.asDescribed := by
  induction named with
  | @intro shape here _ ih =>
      intro marks unmarked
      have alone : ∀ part ∈ division.parts shape,
          ofDescription? (describe part) = some part.asDescribed := by
        intro part mem
        have read := ih part mem [] rfl
        rwa [List.append_nil] at read
      cases shape with
      | primitive kind => exact ofDescription?_primitive marks kind unmarked
      | object fields =>
          have read : ∀ field ∈ fields,
              Field.ofDescription? field.description = some field.asDescribed :=
            fun field mem => ofDescription?_field (ih _ (List.mem_map_of_mem mem))
          have pairs : Assoc.ofPairs (describeFields fields) = fields.map Field.description :=
            ofPairs_describeFields here
          refine (ofDescription?_object marks (Assoc.ofPairs (describeFields fields))).trans ?_
          rw [pairs, mapM_map_eq_some read, Option.map_some, Shape.asDescribed,
            fieldsAsDescribed_eq_map]
      | array element =>
          refine (ofDescription?_array marks (describe element)).trans ?_
          rw [alone element (List.mem_singleton_self element), Option.map_some, Shape.asDescribed]
      | union members =>
          have read : ∀ member ∈ members,
              ofDescription? (describe member) = some member.asDescribed := alone
          refine (ofDescription?_union marks (describeShapes members)).trans ?_
          rw [describeShapes_eq_map, mapM_map_eq_some read, Option.map_some, Shape.asDescribed,
            shapesAsDescribed_eq_map]
      | oneOf values =>
          refine (ofDescription?_enum marks (values.map Literal.toJson)).trans ?_
          rw [mapM_map_eq_some fun value _ => Literal.ofJson?_toJson value, List.map_id',
            Option.map_some]
          rfl
      | unknown => exact ofDescription?_any marks

/-- A shape is read back from its description. -/
@[simp]
theorem ofDescription?_describe (named : shape.UniquelyNamed) :
    ofDescription? (describe shape) = some shape.asDescribed := by
  have read := ofDescription?_description named [] rfl
  rwa [List.append_nil] at read

end Described

end Shape

@[simp]
theorem Shape.isUnknown_asDescribed (shape : Shape) :
    shape.asDescribed.isUnknown = shape.isUnknown := by
  cases shape <;> rfl

mutual

/-- A description says nothing more of a shape than what it is said to say. -/
theorem Shape.description_asDescribed : (shape : Shape) →
    shape.asDescribed.description = shape.description
  | .primitive _ => rfl
  | .oneOf _ => rfl
  | .unknown => rfl
  | .array element => by
      rw [Shape.asDescribed, Shape.description, element.description_asDescribed, Shape.description]
  | .object fields => by
      rw [Shape.asDescribed, Shape.description, describeFields_asDescribed fields,
        Shape.description]
  | .union members => by
      rw [Shape.asDescribed, Shape.description, describeShapes_asDescribed members,
        Shape.description]

private theorem describeShapes_asDescribed : (shapes : List Shape) →
    describeShapes (shapesAsDescribed shapes) = describeShapes shapes
  | [] => rfl
  | shape :: shapes => by
      rw [shapesAsDescribed, describeShapes, shape.description_asDescribed,
        describeShapes_asDescribed shapes, describeShapes]

theorem Field.description_asDescribed : (field : Field) →
    field.asDescribed.description = field.description
  | ⟨name, shape, optional, hasDefault⟩ => by
      rw [Field.asDescribed, Field.description, shape.description_asDescribed,
        Shape.isUnknown_asDescribed, Field.description, Bool.not_or, Bool.and_assoc, Bool.and_self]

private theorem describeFields_asDescribed : (fields : List Field) →
    describeFields (fieldsAsDescribed fields) = describeFields fields
  | [] => rfl
  | field :: fields => by
      rw [fieldsAsDescribed, describeFields, field.description_asDescribed,
        describeFields_asDescribed fields, describeFields]

end

/-- A shape is read back from the expression of its description, as far as the description goes. -/
theorem Shape.ofDescription?_data?_ofJson {shape : Shape} (named : shape.UniquelyNamed) :
    (data? (ofJson (describe shape))).bind Shape.ofDescription? = some shape.asDescribed := by
  rw [data?_ofJson, Option.bind_some, Shape.ofDescription?_describe named]

/-- Nothing is lost when data is written as an expression.  So the expression of a description
tells which shape it was made from, but for the fields that have defaults and for the fields about
which nothing is known, which count as optional; other shapes have other expressions. -/
theorem ofJson_describe_lossless :
    (∀ json : Json, data? (ofJson json) = some json) ∧
      ∀ shape : Shape, shape.UniquelyNamed →
        (data? (ofJson (describe shape))).bind Shape.ofDescription? = some shape.asDescribed ∧
          ∀ other : Shape, other.UniquelyNamed →
            (ofJson (describe other) = ofJson (describe shape) ↔
              other.asDescribed = shape.asDescribed) := by
  refine ⟨data?_ofJson, fun shape named => ⟨Shape.ofDescription?_data?_ofJson named, ?_⟩⟩
  intro other otherNamed
  constructor
  · intro same
    have read := Shape.ofDescription?_data?_ofJson otherNamed
    rw [same, Shape.ofDescription?_data?_ofJson named] at read
    exact (Option.some_inj.mp read).symm
  · intro same
    rw [describe, describe, ← other.description_asDescribed, same, shape.description_asDescribed]

/-- A field named like a member of descriptions and a kind named like a type of theirs are told
apart. -/
theorem ofJson_describe_lossless_leveled :
    Shape.leveled.UniquelyNamed ∧
      (data? (ofJson (describe .leveled))).bind Shape.ofDescription? =
        some Shape.leveled.asDescribed :=
  ⟨Shape.uniquelyNamed_leveled,
    (ofJson_describe_lossless.2 .leveled Shape.uniquelyNamed_leveled).1⟩

end PropValidators
