import PropValidators.CommandLine.Run
import Std.Time.DateTime

/-!
# The program

Runs the command line on the files of the current directory.  The files that a command
may touch are read first, and those that it changed are written at the end.
-/

namespace PropValidators.CommandLine

/-- The settings that the process environment holds. -/
def processEnvironment : IO Environment := do
  Setting.all.filterMapM fun setting => do
    let text ← IO.getEnv setting.name
    return text.map fun text => (setting.name, text)

/-- The part of the file system that lies at some paths. -/
def folderAt (paths : List String) : IO Folder := do
  let files ← paths.filterMapM fun (path : String) => do
    try
      let text ← IO.FS.readFile path
      return some (path, text)
    catch _ => return none
  let directories ← (paths ++ paths.map parentPath).filterM fun (path : String) => do
    try
      let _ ← IO.FS.realPath (path ++ "/.")
      return true
    catch _ => return false
  return ⟨Assoc.ofPairs files, "." :: directories⟩

/-- Write the files that were changed. -/
def writeChanges (before after : Folder) : IO Unit :=
  after.files.forM fun (path, text) => do
    if before.read? path != some text then
      IO.FS.writeFile path text

/-- Run a command line and return its exit code. -/
def runProcess (arguments : List String) : IO Nat := do
  let request := Request.ofArguments arguments
  let paths :=
    match request with
    | .command asked => asked.paths
    | _ => []
  let environment ← processEnvironment
  let now ← Std.Time.Timestamp.now
  let before ← folderAt paths
  let traced := request.run ⟨environment, now.toMillisecondsSinceUnixEpoch.val⟩ before
  traced.notices.forM fun notice => IO.eprintln notice.line
  match traced.outcome with
  | .error fault => do
      IO.eprintln (fault.message?.getD "A type is not a node")
      return 1
  | .ok outcome => do
      IO.print outcome.output
      writeChanges before outcome.folder
      return outcome.exit.code

end PropValidators.CommandLine

/-- The entry point. -/
def main (arguments : List String) : IO UInt32 := do
  return (← PropValidators.CommandLine.runProcess arguments).toUInt32
