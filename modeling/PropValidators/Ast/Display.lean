import PropValidators.Ast.Node
import PropValidators.Json.Writer

/-!
# Displayed nodes

The forms in which a node is shown where a text, a number or a list was: by the name of its
model and what it holds, or in running text by what it holds alone.  Only a tree that has
been changed calls for them.
-/

namespace PropValidators.Ast

namespace Node

/-- What a node of a kind and a type holds, as assignments to the names that its fields are
reported by.  The displayed forms of the fields that are present are given. -/
def assignments (type : String) (present : List (FieldName × String)) : List String :=
  let kind := Kind.ofType type
  let declared (key label : String) (absent : Value) : String :=
    let default := match absent with
      | .data json => json.displayed
      | _ => "[]"
    label ++ "=" ++ (present.lookup (.declared key)).getD default
  let unknown := present.filterMap fun field =>
    match field.1 with
    | .declared _ => none
    | .unknown key => some (key ++ "=" ++ field.2)
  declared "type" "type" (.text type) ::
    (kind.fields.map fun spec => declared spec.key spec.label (Value.ofAbsent spec.type)) ++
    unknown

end Node

mutual

/-- The displayed form of a node. -/
def Node.displayed : Node → String
  | ⟨type, fields⟩ =>
      (Kind.ofType type).modelName ++ "(" ++
        ", ".intercalate (Node.assignments type (displayedFields fields)) ++ ")"
termination_by structural n => n

/-- The displayed form of the value of a field. -/
def Value.displayed : Value → String
  | .node n => n.displayed
  | .list items => "[" ++ ", ".intercalate (displayedValues items) ++ "]"
  | .data json => json.displayed
termination_by structural value => value

/-- The displayed forms of the items of a list. -/
def displayedValues : List Value → List String
  | [] => []
  | item :: items => item.displayed :: displayedValues items
termination_by structural items => items

/-- The displayed forms of fields. -/
def displayedFields : List (FieldName × Value) → List (FieldName × String)
  | [] => []
  | (name, value) :: fields => (name, value.displayed) :: displayedFields fields
termination_by structural fields => fields

end

namespace Node

/-- A node in running text. -/
def inText (n : Node) : String :=
  " ".intercalate (assignments n.type (displayedFields n.fields))

/-- The text in a field, with a node in running text; where there is neither, the default of
the field. -/
def textOr (n : Node) (key default : String) : String :=
  match n.get? key with
  | some (.data (.string s)) => s
  | some (.node m) => m.inText
  | _ => default

/-- The type of a node in running text. -/
def typeText (n : Node) : String :=
  n.textOr "type" n.type

end Node

end PropValidators.Ast
