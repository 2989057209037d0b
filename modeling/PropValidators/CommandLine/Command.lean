import PropValidators.CommandLine.Arguments
import PropValidators.CommandLine.Folder
import PropValidators.Marker
import PropValidators.Settings
import PropValidators.Transform

/-!
# Commands

What the command line can be asked to do, and how that is read off its arguments.
-/

namespace PropValidators.CommandLine

/-- A module in a file, and the modules that it imports.  An import may have been given
without a path. -/
structure ModulePaths where
  path : String
  imports : List (Option String)
deriving DecidableEq, Repr

/-- A command. -/
inductive Command where
  /-- Patch the classes of a module and replace its helper calls.  The outcome is
  printed unless it goes to a file.  Production may be asked for. -/
  | transform (modules : ModulePaths) (output : Option String) (choice : HelperChoice)
      (production : Bool)
  /-- Print the validators that the classes of a module would receive. -/
  | preview (modules : ModulePaths)
  /-- Refresh the markers in source files, with a given stamp or the current time. -/
  | stamp (paths : List String) (stamp : Option Marker.Stamp)
  /-- List some of the settings. -/
  | listSettings (settings : List Setting)
deriving Repr

/-- What a command line says. -/
inductive Request where
  /-- Nothing at all. -/
  | empty
  /-- Help on the command line. -/
  | help
  | unknown (command : String)
  /-- Help on a command. -/
  | commandHelp
  /-- A command with arguments that do not fit it. -/
  | misuse
  | command (command : Command)
deriving Repr

/-- The option naming an imported module. -/
def importOption : OptionSpec := ⟨"import", ["--import", "-i"], some .text⟩

/-- An option without a value, written in full. -/
def flagOption (key : String) : OptionSpec := ⟨key, ["--" ++ key], none⟩

/-- The arguments of the command that transforms a module. -/
def transformGrammar : Grammar :=
  ⟨[importOption, ⟨"output", ["--output", "-o"], some .text⟩, flagOption "keys",
    flagOption "components", flagOption "schema", flagOption "production"], .one⟩

/-- The arguments of the command that previews validators. -/
def previewGrammar : Grammar := ⟨[importOption], .one⟩

/-- The arguments of the command that stamps files. -/
def stampGrammar : Grammar :=
  ⟨[⟨"timestamp", ["--timestamp", "-t"], some .integer⟩], .oneOrMore⟩

/-- The arguments of the command that lists settings. -/
def settingsGrammar : Grammar :=
  ⟨[⟨"category", ["--category", "-c"], some (.oneOf Setting.categories)⟩], .none⟩

/-- The path that an option gives, if it gives one. -/
def pathOfValue? (value : OptionValue) : Option String :=
  value.text?.map normalPath

/-- The modules named by arguments. -/
def modulesOf (arguments : Arguments) : ModulePaths :=
  { path := normalPath (arguments.operands.headD "")
    imports := (arguments.valuesOf "import").map pathOfValue? }

/-- A command to transform a module.  The last output counts; without a path the outcome
is printed. -/
def transformOf (arguments : Arguments) : Command :=
  .transform (modulesOf arguments) ((arguments.last? "output").bind pathOfValue?)
    { components := arguments.uses "components"
      keys := arguments.uses "keys"
      schemas := arguments.uses "schema" }
    (arguments.uses "production")

/-- A command to preview the validators of a module. -/
def previewOf (arguments : Arguments) : Command :=
  .preview (modulesOf arguments)

/-- A command to stamp files.  The last time counts. -/
def stampOf (arguments : Arguments) : Command :=
  .stamp (arguments.operands.map normalPath)
    ((arguments.last? "timestamp").map fun value =>
      match value with
      | .integer time => .time time
      | _ => .blank)

/-- A command to list settings: those of the last category given, or all of them. -/
def listSettingsOf (arguments : Arguments) : Command :=
  .listSettings <|
    match arguments.last? "category" with
    | none => Setting.all
    | some value =>
        match value.text? with
        | some category => Setting.inCategory (some category)
        | none => []

/-- The request made by the arguments of a command. -/
def Grammar.request (grammar : Grammar) (command : Arguments → Command)
    (arguments : List String) : Request :=
  match grammar.parse arguments with
  | .help => .commandHelp
  | .misuse => .misuse
  | .arguments found => .command (command found)

/-- The request that a command line makes. -/
def Request.ofArguments : List String → Request
  | [] => .empty
  | name :: arguments =>
      match name with
      | "-h" | "--help" => .help
      | "transform" => transformGrammar.request transformOf arguments
      | "preview" => previewGrammar.request previewOf arguments
      | "stamp" => stampGrammar.request stampOf arguments
      | "env" => settingsGrammar.request listSettingsOf arguments
      | _ => .unknown name

/-- The paths of a module and its imports. -/
def ModulePaths.paths (modules : ModulePaths) : List String :=
  modules.path :: modules.imports.filterMap id

/-- The paths that a command reads or writes. -/
def Command.paths : Command → List String
  | .transform modules output _ _ => modules.paths ++ output.toList
  | .preview modules => modules.paths
  | .stamp paths _ => paths
  | .listSettings _ => []

end PropValidators.CommandLine
