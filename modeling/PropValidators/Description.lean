import PropValidators.Shape

/-!
# Descriptions of shapes

A shape described as plain data:

* a primitive shape by its kind;
* an array by the description of its items;
* an object by the descriptions of its properties, each with a mark whether it is
  required;
* a set of values by the values, and a union by the descriptions of its members;
* an unknown shape as `any`.
-/

namespace PropValidators

/-- A description of a given type with further members. -/
def described (type : String) (members : List (String × Json)) : List (String × Json) :=
  ("type", .string type) :: members

mutual

/-- The members of the description of a shape. -/
def Shape.description : Shape → List (String × Json)
  | .primitive kind => described kind.name []
  | .array element => described "array" [("items", .object element.description)]
  | .object fields =>
      described "object" [("properties", .object (Assoc.ofPairs (describeFields fields)))]
  | .oneOf values => described "enum" [("values", .array (values.map Literal.toJson))]
  | .union members => described "union" [("types", .array (describeShapes members))]
  | .unknown => described "any" []
termination_by structural shape => shape

/-- The descriptions of shapes. -/
def describeShapes : List Shape → List Json
  | [] => []
  | shape :: shapes => .object shape.description :: describeShapes shapes
termination_by structural shapes => shapes

/-- The name of a field and its description.  A field is required unless it is
optional or nothing is known about it. -/
def Field.description : Field → String × Json
  | ⟨name, shape, optional, _⟩ =>
      (name, .object (shape.description ++
        [("required", .bool (!optional && !shape.isUnknown))]))
termination_by structural field => field

/-- The names of fields and their descriptions, in order. -/
def describeFields : List Field → List (String × Json)
  | [] => []
  | field :: fields => field.description :: describeFields fields
termination_by structural fields => fields

end

/-- The description of a shape. -/
def describe (shape : Shape) : Json := .object shape.description

/-- The description of the fields of an object, by name. -/
def describeProps (fields : List Field) : Json := .object (Assoc.ofPairs (describeFields fields))

end PropValidators
