import PropValidators.Fault
import PropValidators.Text.Blank
import PropValidators.Text.Word

/-!
# Update markers

A source file whose helper calls depend on types declared elsewhere carries a marker
line with a time before every line that calls a helper, so that the file changes when
the types do.  Writing markers first removes all old ones, wherever they are.  A marker cannot
be written if its time has too many digits, but a text without calls needs none.
-/

namespace PropValidators.Marker

/-- What a marker line starts with. -/
def opening : String := "// typescript-type-transformer:update="

/-- The helpers whose calls are marked. -/
def helpers : List String :=
  ["transformTypeToKeys", "transformTypeToPropTypes", "transformTypeToSchema"]

/-- What a marker tells. -/
inductive Stamp where
  /-- A time in milliseconds. -/
  | time (milliseconds : Int)
  /-- No time at all. -/
  | blank
deriving DecidableEq, Repr

/-- The text of what a marker tells, if it can be written. -/
def Stamp.text : Stamp → Except Fault String
  | .time milliseconds => (Number.int milliseconds).written
  | .blank => .ok "[]"

/-- A marker line with an indentation. -/
def markerLine (stamp : Stamp) (indent : List Char) : Except Fault (List Char) :=
  stamp.text.map fun told => indent ++ opening.toList ++ told.toList

/-- Whether a line is a marker, whatever its time and indentation. -/
def isMarker (line : List Char) : Bool :=
  opening.toList.isPrefixOf (Text.trim Text.isBlank line)

/-- Whether a line imports something. -/
def isImport (line : List Char) : Bool :=
  let word := "import".toList
  let text := Text.trimLeft Text.isBlank line
  word.isPrefixOf text && !((text.drop word.length).head?.any Text.isWord)

/-- Whether a text goes on with a call of a function: its name, blanks, and an opening
bracket. -/
def startsCall (name : List Char) (text : List Char) : Bool :=
  name.isPrefixOf text &&
    match (text.drop name.length).dropWhile Text.isBlank with
    | c :: _ => c == '<' || c == '('
    | [] => false

/-- Whether a helper is called in a text.  The name must not continue a word; `inWord`
tells whether the character before the text belongs to one. -/
def callsHelper (inWord : Bool) : List Char → Bool
  | [] => false
  | c :: cs =>
      (!inWord && helpers.any fun name => startsCall name.toList (c :: cs)) ||
        callsHelper (Text.isWord c) cs

/-- Whether a line gets a marker. -/
def needsMarker (line : List Char) : Bool :=
  !isImport line && callsHelper false line

/-- The blanks at the start of a line. -/
def indentOf (line : List Char) : List Char :=
  line.takeWhile Text.isBlank

/-- The lines that a line becomes. -/
def stampLine (stamp : Stamp) (line : List Char) : Except Fault (List (List Char)) :=
  if isMarker line then .ok []
  else if needsMarker line then
    (markerLine stamp (indentOf line)).map fun marker => [marker, line]
  else .ok [line]

/-- Lines with their markers. -/
def stampLines (stamp : Stamp) (lines : List (List Char)) : Except Fault (List (List Char)) :=
  (lines.mapM (stampLine stamp)).map List.flatten

/-- The lines of a text. -/
def linesOf : List Char → List (List Char)
  | [] => [[]]
  | c :: cs =>
      if c = '\n' then [] :: linesOf cs
      else
        match linesOf cs with
        | line :: rest => (c :: line) :: rest
        | [] => [[c]]

/-- The text of lines. -/
def textOf (lines : List (List Char)) : List Char :=
  ['\n'].intercalate lines

/-- A text with old markers removed and one marker before each line that calls a
helper. -/
def stampText (text : String) (stamp : Stamp) : Except Fault String :=
  (stampLines stamp (linesOf text.toList)).map fun lines => String.ofList (textOf lines)

/-- A text with every line break written as a single line feed. -/
def normalizeNewlines : List Char → List Char
  | [] => []
  | '\r' :: '\n' :: cs => '\n' :: normalizeNewlines cs
  | '\r' :: cs => '\n' :: normalizeNewlines cs
  | c :: cs => c :: normalizeNewlines cs

/-- The contents of a file after stamping.  Line breaks are normalised first; a file
that then needs no change is not written at all. -/
def stampContents? (contents : String) (stamp : Stamp) : Except Fault (Option String) :=
  let text := String.ofList (normalizeNewlines contents.toList)
  (stampText text stamp).map fun stamped => if stamped = text then none else some stamped

end PropValidators.Marker
