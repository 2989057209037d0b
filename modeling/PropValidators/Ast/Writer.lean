import PropValidators.Assoc
import PropValidators.Ast.Node

/-!
# Writing syntax trees

A node is written as an object: its type first, and then the fields that are
present, in order.  An unknown field with the key of an earlier one takes its place.
-/

namespace PropValidators.Ast

mutual

/-- The JSON value of a node. -/
def Node.toJson : Node → Json
  | ⟨type, fields⟩ => .object (Assoc.ofPairs (("type", .string type) :: fieldsToJson fields))
termination_by structural n => n

/-- The JSON value of a field. -/
def Value.toJson : Value → Json
  | .node n => n.toJson
  | .list items => .array (itemsToJson items)
  | .data json => json
termination_by structural value => value

/-- The JSON values of the items of a list. -/
def itemsToJson : List Value → List Json
  | [] => []
  | item :: items => item.toJson :: itemsToJson items
termination_by structural items => items

/-- The keys and JSON values of fields. -/
def fieldsToJson : List (FieldName × Value) → List (String × Json)
  | [] => []
  | (name, value) :: fields => (name.key, value.toJson) :: fieldsToJson fields
termination_by structural fields => fields

end

end PropValidators.Ast
