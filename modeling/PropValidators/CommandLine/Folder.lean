import PropValidators.Assoc

/-!
# Folders

The files that a command works on, by path.  Paths are written in normal form: without
empty steps and steps to the same directory.  Relative ones start from the folder.
-/

namespace PropValidators.CommandLine

/-- The steps of a path, without those that lead nowhere. -/
def pathSteps (path : String) : List String :=
  (path.splitOn "/").filter fun step => step != "" && step != "."

/-- What a path starts with: nothing if it is relative.  Two slashes differ from one, and
more than two do not. -/
def pathRoot (path : String) : String :=
  match path.toList with
  | '/' :: '/' :: '/' :: _ => "/"
  | '/' :: '/' :: _ => "//"
  | '/' :: _ => "/"
  | _ => ""

/-- The normal form of the path with some steps. -/
def pathOf (root : String) (steps : List String) : String :=
  if root = "" ∧ steps = [] then "." else root ++ "/".intercalate steps

/-- The normal form of a path. -/
def normalPath (path : String) : String :=
  pathOf (pathRoot path) (pathSteps path)

/-- The directory that a path lies in. -/
def parentPath (path : String) : String :=
  pathOf (pathRoot path) (pathSteps path).dropLast

/-- The directories that lead to a path. -/
def ancestorPaths (path : String) : List String :=
  let steps := pathSteps path
  (List.range steps.length).map fun count => pathOf (pathRoot path) (steps.take count)

/-- The number of bytes that a step of a path may have. -/
def longestStep : Nat := 255

/-- Whether a file may have a path, as far as the lengths of its steps go. -/
def isWritablePath (path : String) : Bool :=
  (pathSteps path).all fun step => step.utf8ByteSize ≤ longestStep

/-- Files with their texts, and the directories that exist. -/
structure Folder where
  files : List (String × String)
  directories : List String := ["."]
deriving Repr

namespace Folder

/-- The folder with some files, and with the directories that they lie in. -/
def ofFiles (files : List (String × String)) : Folder :=
  let named := files.map fun (path, text) => (normalPath path, text)
  ⟨named, "." :: named.flatMap fun (path, _) => ancestorPaths path⟩

/-- The text of a file; none if there is no such file. -/
def read? (folder : Folder) (path : String) : Option String :=
  Assoc.get? folder.files path

/-- Whether a file can be written at a path: neither in the place of a directory nor
outside all directories, nor with too long a name. -/
def isWritable (folder : Folder) (path : String) : Bool :=
  isWritablePath path && !folder.directories.contains path &&
    folder.directories.contains (parentPath path)

/-- The folder with a file written, where that is possible. -/
def write? (folder : Folder) (path text : String) : Option Folder :=
  if !folder.isWritable path then none
  else some { folder with files := Assoc.put path text folder.files }

end Folder

end PropValidators.CommandLine
