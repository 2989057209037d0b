import PropValidators.CommandLine.Command
import PropValidators.Json.Reader
import PropValidators.Json.Writer

/-!
# Running commands

What a command does to a folder, what it prints, and which notices it gives.  Modules
are syntax trees in JSON files.  Whatever is wrong with a file ends a command with a
notice and a status; a fault in a module, met while its types are resolved, ends it
without one.
-/

namespace PropValidators.CommandLine

open Ast

/-- How a command line ends. -/
inductive Exit where
  /-- With a status: zero for success, one for failure. -/
  | status (code : Nat)
  /-- With help on a command. -/
  | help
  /-- With a complaint about arguments. -/
  | misuse
deriving DecidableEq, Repr

/-- The exit code of a process. -/
def Exit.code : Exit → Nat
  | .status code => code
  | .help => 0
  | .misuse => 2

/-- What a command line brings about. -/
structure Outcome where
  exit : Exit
  /-- The text printed. -/
  output : String
  folder : Folder
deriving Repr

/-- What commands depend on besides their arguments. -/
structure Setup where
  environment : Environment := []
  /-- The time in milliseconds with which files are stamped when none is given. -/
  now : Int := 0
deriving Repr

/-- Why a module could not be loaded. -/
inductive LoadError where
  /-- There is no such file, or it does not hold JSON. -/
  | unreadable
  /-- The JSON is no syntax tree. -/
  | malformed
  /-- Loading had to stop. -/
  | fault (fault : Fault)
deriving DecidableEq, Repr

/-- The fault of opening a path with the character zero. -/
def pathFault? (path : String) : Option Fault :=
  if path.toList.any fun c => c.toNat == 0 then some .zeroInPath else none

/-- The fault of writing a value with an integer that cannot be written. -/
def writingFault? (json : Json) : Option Fault :=
  if json.isUnwritable then some .unwritableInteger else none

namespace Folder

/-- The module in a file.  Modules that are loaded together have different numbers. -/
def loadModule (folder : Folder) (number : Nat) (path : String) : Except LoadError Node :=
  match pathFault? path, folder.read? path with
  | some fault, _ => .error (.fault fault)
  | none, none => .error .unreadable
  | none, some text =>
      match Json.ofText text with
      | .error .malformed => .error .unreadable
      | .error (.overlong digits) => .error (.fault (.overlongInteger digits))
      | .ok json => (readDocument number json).mapError fun _ => .malformed

/-- Imported modules, the first of which has the given number. -/
def loadImports (folder : Folder) (number : Nat) :
    List (Option String) → Except LoadError (List Node)
  | [] => return []
  | none :: _ => throw (.fault .noPath)
  | some path :: paths => do
      let first ← folder.loadModule number path
      let others ← folder.loadImports (number + 1) paths
      return first :: others

/-- A module and the modules it imports. -/
def loadModules (folder : Folder) (modules : ModulePaths) :
    Except LoadError (Node × List Node) := do
  let root ← folder.loadModule 0 modules.path
  let imports ← folder.loadImports 1 modules.imports
  return (root, imports)

end Folder

/-- End with a notice of failure. -/
def fail (folder : Folder) (notice : Notice) : Traced Outcome := do
  Traced.note notice
  return ⟨.status 1, "", folder⟩

/-- Go on with a module and its imports.  If they cannot be loaded, end with a notice of
failure: one for syntax trees that are malformed, and the given one for files that cannot
be read. -/
def withModules (folder : Folder) (modules : ModulePaths) (unreadable : Notice)
    (next : Node → List Node → Traced Outcome) : Traced Outcome :=
  match folder.loadModules modules with
  | .error .malformed => fail folder .invalidAst
  | .error .unreadable => fail folder unreadable
  | .error (.fault fault) => Traced.stop fault
  | .ok (root, imports) => next root imports

/-- Lines of text. -/
def linesText (lines : List String) : String :=
  String.join (lines.map fun line => line ++ "\n")

/-- The module that a transformation makes, and the reports on its classes. -/
def transformed (setup : Setup) (root : Node) (imports : List Node) (choice : HelperChoice)
    (production : Bool) : Traced (Node × List PatchResult) := do
  let options := Options.ofEnvironment setup.environment
  let run := transformModule options imports root
  let results ← run.report
  results.forM fun result => Traced.note (.classStatus result.className result.status.name)
  let workspace := Workspace.ofModule imports run.root options
  Traced.note workspace.opened
  let production :=
    isProduction setup.environment (if production then some (.bool true) else none)
  let (workspace, report) := workspace.replaceHelpers choice production
  let _ ← report
  return (workspace.root, results)

/-- Transform a module.  The outcome is written to a file, or else printed. -/
def runTransform (setup : Setup) (folder : Folder) (modules : ModulePaths)
    (output : Option String) (choice : HelperChoice) (production : Bool) : Traced Outcome :=
  withModules folder modules .transformFailed fun root imports => do
    let (root, results) ← transformed setup root imports choice production
    Traced.check (writingFault? root.toJson)
    let text := root.toJson.text .pretty
    let summary := Notice.moduleSummary (patchedCount results) results.length
    match output with
    | none => do
        Traced.note summary
        return ⟨.status 0, linesText [text], folder⟩
    | some path => do
        Traced.check (pathFault? path)
        match folder.write? path text with
        | none => fail folder .transformFailed
        | some written => do
            Traced.note (.fileWritten path)
            Traced.note summary
            return ⟨.status 0, "", written⟩

/-- The lines that show the validators of a class after it was patched. -/
def previewClass (property : String) (classNode : Node) (result : PatchResult) :
    Traced (List String) := do
  let name :=
    match (classNode.child? "id").bind Node.entityText? with
    | some name => if name = "" then "<anonymous>" else name
    | none => "<anonymous>"
  if result.patched then do
    let value := staticValue? (← Traced.ofExcept (staticProperty? classNode property))
    let text ← match value with
      | some value => Traced.ofExcept (value.rendered 0)
      | none => pure ""
    return ["// " ++ name, name ++ "." ++ property ++ " = " ++ text ++ ";"]
  else return ["// " ++ name ++ ": " ++ result.status.name]

/-- Print the validators that the classes of a module would receive. -/
def runPreview (setup : Setup) (folder : Folder) (modules : ModulePaths) : Traced Outcome :=
  withModules folder modules .unreadableAst fun root imports => do
    let options := Options.ofEnvironment setup.environment
    let run := transformModule options imports root
    let results ← run.report
    let lines ← ((classNodes run.root).zip results).mapM fun (classNode, result) =>
      previewClass options.validatorProperty classNode result
    return ⟨.status 0, linesText lines.flatten, folder⟩

/-- Stamp files one after the other.  Files that cannot be read are passed over, and the
status tells that there were some. -/
def stampFiles (stamp : Marker.Stamp) (folder : Folder) (status : Nat) :
    List String → Traced Outcome
  | [] => return ⟨.status status, "", folder⟩
  | path :: paths => do
      Traced.check (pathFault? path)
      match folder.read? path with
      | none => do
          Traced.note (.unstampable path)
          stampFiles stamp folder 1 paths
      | some contents => do
          match ← Traced.ofExcept (Marker.stampContents? contents stamp) with
          | none => stampFiles stamp folder status paths
          | some stamped =>
              match folder.write? path stamped with
              | none => do
                  Traced.note (.unstampable path)
                  stampFiles stamp folder 1 paths
              | some written => do
                  Traced.note (.stampWritten path (← Traced.ofExcept stamp.text))
                  Traced.note (.fileStamped path)
                  stampFiles stamp written status paths

/-- The line that shows a setting: its value, where the value comes from, and what it is
for. -/
def settingLine (environment : Environment) (setting : Setting) : String :=
  let origin := if (environment.lookup setting.name).isSome then "env" else "default"
  setting.name ++ "=" ++ (setting.value environment).displayed ++ "  [" ++ origin ++ "] " ++
    setting.description

/-- The help text. -/
def helpText : String :=
  linesText
    ["Usage: python -m typeprops <command> [args]",
      "",
      "Commands:",
      "  transform AST_JSON [-i JSON] [-o PATH] [--keys]  Patch classes in an AST",
      "            [--components] [--schema]              and helper call sites",
      "  preview AST_JSON [-i JSON]                       Print derived validators",
      "  stamp FILE... [-t MS]                            Refresh update markers",
      "  env                                              Show configuration",
      "  test [--unit|--integration|--all]                Run the test suite"]

/-- Run a command. -/
def Command.run (setup : Setup) (folder : Folder) : Command → Traced Outcome
  | .transform modules output choice production =>
      runTransform setup folder modules output choice production
  | .preview modules => runPreview setup folder modules
  | .stamp paths given => stampFiles (given.getD (.time setup.now)) folder 0 paths
  | .listSettings settings =>
      return ⟨.status 0, linesText (settings.map (settingLine setup.environment)), folder⟩

/-- The rank from which on notices are shown. -/
def shownRank (environment : Environment) : Int :=
  rankOfName (Setting.logLevel.value environment).textD

/-- A computation with only the notices that are shown. -/
def shown {α : Type} (environment : Environment) (traced : Traced α) : Traced α :=
  { traced with
    trace := traced.trace.filter fun event =>
      event.notice?.all fun notice => shownRank environment ≤ notice.level.rank }

/-- Do what a command line asks for. -/
def Request.run (setup : Setup) (folder : Folder) : Request → Traced Outcome
  | .empty => return ⟨.status 1, helpText, folder⟩
  | .help => return ⟨.status 0, helpText, folder⟩
  | .unknown name => do
      Traced.note (.unknownCommand name)
      return ⟨.status 1, helpText, folder⟩
  | .commandHelp => return ⟨.help, "", folder⟩
  | .misuse => return ⟨.misuse, "", folder⟩
  | .command asked => shown setup.environment (asked.run setup folder)

/-- Do what the arguments of a command line ask for. -/
def runArguments (setup : Setup) (folder : Folder) (arguments : List String) : Traced Outcome :=
  (Request.ofArguments arguments).run setup folder

end PropValidators.CommandLine
