import PropValidators.Json.Basic
import PropValidators.Text.Quoted

/-!
# Writing JSON text

JSON text in one line, with a blank after every comma and colon, or spread over
lines with an indentation.  Empty arrays and objects stay in one line either way.

The displayed form is the one of messages: it shows strings in the displayed form, and has
words of its own for the constants.
-/

namespace PropValidators.Json

/-- How JSON text is laid out. -/
structure Layout where
  charset : Text.Charset
  /-- Blanks of one level of indentation; without it the text is one line. -/
  indent : Option Nat

/-- One line, with characters outside ASCII as they are. -/
def Layout.line : Layout := ⟨.unicode, none⟩

/-- Two blanks per level, and ASCII only. -/
def Layout.pretty : Layout := ⟨.ascii, some 2⟩

/-- The text of a number. -/
def numberText : Number → String
  | .float (.nan _) => "NaN"
  | .float (.infinite negative) => if negative then "-Infinity" else "Infinity"
  | n => n.text

/-- Start a new line at a level, if the layout has lines. -/
def Layout.newline (layout : Layout) (level : Nat) : String :=
  match layout.indent with
  | none => ""
  | some width => String.ofList ('\n' :: List.replicate (width * level) ' ')

/-- What stands between two items. -/
def Layout.separator (layout : Layout) (level : Nat) : String :=
  match layout.indent with
  | none => ", "
  | some _ => "," ++ layout.newline level

mutual

/-- The text of a value inside `level` open containers. -/
def write (layout : Layout) (level : Nat) : Json → String
  | .null => "null"
  | .bool b => if b then "true" else "false"
  | .number n => numberText n
  | .string s => Text.doubleQuoted layout.charset s
  | .array [] => "[]"
  | .array (item :: items) =>
      "[" ++ layout.newline (level + 1) ++ write layout (level + 1) item ++
        writeItems layout (level + 1) items ++ layout.newline level ++ "]"
  | .object [] => "\x7b\x7d"
  | .object ((key, value) :: members) =>
      "\x7b" ++ layout.newline (level + 1) ++ Text.doubleQuoted layout.charset key ++ ": " ++
        write layout (level + 1) value ++
        writeMembers layout (level + 1) members ++ layout.newline level ++ "\x7d"
termination_by structural value => value

/-- The text of further items of an array. -/
def writeItems (layout : Layout) (level : Nat) : List Json → String
  | [] => ""
  | item :: items =>
      layout.separator level ++ write layout level item ++ writeItems layout level items
termination_by structural items => items

/-- The text of further members of an object. -/
def writeMembers (layout : Layout) (level : Nat) : List (String × Json) → String
  | [] => ""
  | (key, value) :: members =>
      layout.separator level ++ Text.doubleQuoted layout.charset key ++ ": " ++
        write layout level value ++ writeMembers layout level members
termination_by structural members => members

end

/-- The text of a value. -/
def text (layout : Layout) (value : Json) : String :=
  write layout 0 value

mutual

/-- The displayed form of a value. -/
def displayed : Json → String
  | .null => "None"
  | .bool b => if b then "True" else "False"
  | .number n => n.text
  | .string s => Text.displayed s
  | .array items => "[" ++ ", ".intercalate (displayedItems items) ++ "]"
  | .object members => "\x7b" ++ ", ".intercalate (displayedMembers members) ++ "\x7d"
termination_by structural value => value

/-- The displayed forms of the items of an array. -/
def displayedItems : List Json → List String
  | [] => []
  | item :: items => item.displayed :: displayedItems items
termination_by structural items => items

/-- The displayed forms of the members of an object. -/
def displayedMembers : List (String × Json) → List String
  | [] => []
  | (key, value) :: members =>
      (Text.displayed key ++ ": " ++ value.displayed) :: displayedMembers members
termination_by structural members => members

end

end PropValidators.Json
