import PropValidators.Number.Reader
import PropValidators.Text.Digit

/-!
# Command-line arguments

Arguments are options and operands.  An option is written by one of its names, long
ones shortened as long as they stay unambiguous.  Its value follows as the next
argument, after an equals sign, or directly after a short name.  The argument `--`
makes operands of everything after it, and numbers below zero are operands too.  All
operands must stand together.

Arguments are taken in order: a value that does not suit its option ends the reading,
and so does the option that asks for help.  Whether operands are missing or too many,
and whether there were unknown options, is only seen at the end.
-/

namespace PropValidators.CommandLine

/-- The values that an option takes. -/
inductive ValueKind where
  | text
  | integer
  | oneOf (choices : List String)
deriving DecidableEq, Repr

/-- The value of an option. -/
inductive OptionValue where
  /-- No value at all, which is written as two dashes attached to the option. -/
  | blank
  | word (text : String)
  | integer (value : Int)
deriving DecidableEq, Repr

/-- The value that a text gives, if it suits. -/
def ValueKind.value? (kind : ValueKind) (text : String) : Option OptionValue :=
  if text = "--" then some .blank
  else
    match kind with
    | .text => some (.word text)
    | .integer => (Number.integer? text).map .integer
    | .oneOf choices => if choices.contains text then some (.word text) else none

/-- The text that a value is, if it is one. -/
def OptionValue.text? : OptionValue → Option String
  | .word text => some text
  | _ => none

/-- An option. -/
structure OptionSpec where
  /-- The name under which its uses are reported. -/
  key : String
  /-- The names by which it is written, dashes included. -/
  names : List String
  /-- What its value must be; none if it takes no value. -/
  value : Option ValueKind
deriving DecidableEq, Repr

/-- The operands that a command takes. -/
inductive Operands where
  | none
  | one
  | oneOrMore
deriving DecidableEq, Repr

/-- The arguments that a command takes. -/
structure Grammar where
  options : List OptionSpec
  operands : Operands
deriving Repr

/-- An argument by its form. -/
inductive Word where
  | operand (text : String)
  /-- The mark after which all arguments are operands. -/
  | terminator
  /-- An option with the value attached to it; it may be an unknown one. -/
  | option (spec : Option OptionSpec) (attached : Option String)
  /-- The short option asking for help, with more letters attached to it. -/
  | helpCluster (letters : List Char)
deriving DecidableEq, Repr

/-- The option asking for help, which every command has.  It is the only short option
without a value. -/
def helpOption : OptionSpec := ⟨"help", ["-h", "--help"], none⟩

/-- All options of a command. -/
def Grammar.allOptions (grammar : Grammar) : List OptionSpec :=
  helpOption :: grammar.options

/-- The option with a name. -/
def Grammar.named? (grammar : Grammar) (name : String) : Option OptionSpec :=
  grammar.allOptions.find? fun spec => spec.names.contains name

/-- Split a text at its first equals sign. -/
def splitEquals? (text : List Char) : Option (String × String) :=
  match text.dropWhile (· ≠ '=') with
  | _ :: value => some (String.ofList (text.takeWhile (· ≠ '=')), String.ofList value)
  | [] => none

/-- Whether a text is a number below zero: a minus sign before digits, or before a
fraction. -/
def isNegativeNumber (text : List Char) : Bool :=
  let isDigit (c : Char) : Bool := (Text.decimalDigit? c).isSome
  match text with
  | '-' :: rest =>
      let body := if rest.getLast? = some '\n' then rest.dropLast else rest
      match body.dropWhile isDigit with
      | [] => !body.isEmpty
      | c :: fraction => c == '.' && !fraction.isEmpty && fraction.all isDigit
  | _ => false

/-- The options that an argument may abbreviate, with attached values.  A long name may
be cut short; a short name may be followed by its value. -/
def Grammar.candidates (grammar : Grammar) (text : List Char) :
    List (OptionSpec × Option String) :=
  let names := grammar.allOptions.flatMap fun spec => spec.names.map fun name => (spec, name)
  match text with
  | '-' :: '-' :: _ =>
      let (start, attached) :=
        match splitEquals? text with
        | some (name, value) => (name.toList, some value)
        | none => (text, none)
      (names.filter fun (_, name) => start.isPrefixOf name.toList).map fun (spec, _) =>
        (spec, attached)
  | '-' :: letter :: value =>
      names.filterMap fun (spec, name) =>
        if name.toList = ['-', letter] then some (spec, some (String.ofList value))
        else if text.isPrefixOf name.toList then some (spec, none)
        else none
  | _ => []

/-- An argument that is an option with a value attached. -/
def Word.attach (text : List Char) (spec : OptionSpec) (attached : String) : Word :=
  if spec = helpOption ∧ attached ≠ "" ∧ ['-', 'h'].isPrefixOf text then
    .helpCluster attached.toList
  else .option (some spec) (some attached)

/-- The form of an argument; none if it abbreviates several options. -/
def Grammar.classify? (grammar : Grammar) (argument : String) : Option Word :=
  let text := argument.toList
  match text with
  | '-' :: _ :: _ =>
      match grammar.named? argument with
      | some spec => some (.option spec none)
      | none =>
          let attached := (splitEquals? text).bind fun (name, value) =>
            (grammar.named? name).map fun spec => (spec, value)
          match attached with
          | some (spec, value) => some (Word.attach text spec value)
          | none =>
              match grammar.candidates text with
              | [(spec, some value)] => some (Word.attach text spec value)
              | [(spec, none)] => some (.option spec none)
              | _ :: _ :: _ => none
              | [] =>
                  if isNegativeNumber text || text.contains ' ' then some (.operand argument)
                  else some (.option none none)
  | _ => some (.operand argument)

/-- The forms of arguments. -/
def Grammar.words? (grammar : Grammar) : List String → Option (List Word)
  | [] => some []
  | argument :: rest =>
      if argument = "--" then some (.terminator :: rest.map .operand)
      else do
        let word ← grammar.classify? argument
        return word :: (← grammar.words? rest)

/-- What the arguments of a command say. -/
structure Arguments where
  /-- Uses of options with a value, in order. -/
  values : List (String × OptionValue) := []
  /-- Uses of options without a value. -/
  flags : List String := []
  operands : List String := []
deriving Repr

/-- The outcome of reading arguments. -/
inductive Reading where
  | arguments (arguments : Arguments)
  /-- Help was asked for. -/
  | help
  /-- The arguments do not fit the command. -/
  | misuse
deriving Repr

/-- How the reading of operands stands. -/
inductive Stage where
  /-- No operands were read yet. -/
  | before
  /-- The last argument was one of the operands, and more may follow. -/
  | within
  /-- Operands are complete. -/
  | after
deriving DecidableEq, Repr

/-- Whether operands may be missing or are there. -/
def Stage.complete (stage : Stage) (operands : Operands) : Bool :=
  stage != .before || operands == .none

/-- Whether letters attached to a short option without a value are short options too.
One that takes a value ends them: what is left of the letters is its value, or else the
argument after them, which must be an operand then. -/
def Grammar.soundCluster (grammar : Grammar) (operandFollows : Bool) : List Char → Bool
  | [] => true
  | letter :: letters =>
      match grammar.named? (String.ofList ['-', letter]) with
      | none => false
      | some spec =>
          if spec.value.isSome then !letters.isEmpty || operandFollows
          else grammar.soundCluster operandFollows letters

/-- Whether arguments start with an operand. -/
def operandFollows : List Word → Bool
  | .operand _ :: _ => true
  | _ => false

/-- The arguments found with one more use of an option. -/
def Arguments.use (found : Arguments) (spec : OptionSpec) (value : OptionValue) : Arguments :=
  { found with values := found.values ++ [(spec.key, value)] }

/-- Read arguments.  `terminated` tells that a terminator stands before the operands and
none of them was read yet, and `sound` that nothing unexpected was met so far. -/
def Grammar.read (grammar : Grammar) (stage : Stage) (terminated sound : Bool)
    (found : Arguments) : List Word → Reading
  | [] =>
      if sound && !terminated && stage.complete grammar.operands then .arguments found
      else .misuse
  | .terminator :: rest =>
      match stage with
      | .before => grammar.read .before true sound found rest
      | .within => grammar.read .within false sound found rest
      | .after => grammar.read .after false false found rest
  | .operand text :: rest =>
      let found' := { found with operands := found.operands ++ [text] }
      match stage, grammar.operands with
      | .before, .one => grammar.read .within false sound found' rest
      | .before, .oneOrMore => grammar.read .within false sound found' rest
      | .within, .oneOrMore => grammar.read .within false sound found' rest
      | _, _ => grammar.read stage false false found rest
  | .helpCluster letters :: rest =>
      if grammar.soundCluster (operandFollows rest) letters then .help else .misuse
  | .option none _ :: rest => grammar.read (closed stage) false false found rest
  | .option (some spec) attached :: rest =>
      let stage := closed stage
      let sound := sound && !terminated
      match spec.value with
      | none =>
          if attached.isSome then .misuse
          else if spec = helpOption then .help
          else grammar.read stage false sound { found with flags := spec.key :: found.flags } rest
      | some kind =>
          match attached, rest with
          | some text, rest =>
              match kind.value? text with
              | some value => grammar.read stage false sound (found.use spec value) rest
              | none => .misuse
          | none, .operand text :: rest =>
              match kind.value? text with
              | some value => grammar.read stage false sound (found.use spec value) rest
              | none => .misuse
          | none, _ => .misuse
where
  /-- The stage after an option. -/
  closed : Stage → Stage
    | .within => .after
    | stage => stage

/-- Read the arguments of a command. -/
def Grammar.parse (grammar : Grammar) (arguments : List String) : Reading :=
  match grammar.words? arguments with
  | some words => grammar.read .before false true {} words
  | none => .misuse

namespace Arguments

/-- Whether an option was used. -/
def uses (arguments : Arguments) (key : String) : Bool :=
  arguments.flags.contains key

/-- The values of an option, in order. -/
def valuesOf (arguments : Arguments) (key : String) : List OptionValue :=
  (arguments.values.filter fun use => use.1 == key).map Prod.snd

/-- The last value of an option. -/
def last? (arguments : Arguments) (key : String) : Option OptionValue :=
  (arguments.valuesOf key).getLast?

end Arguments

end PropValidators.CommandLine
