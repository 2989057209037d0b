import PropValidators.Number.Basic
import PropValidators.Text.Quoted

/-!
# Notices

What the library reports while it works.  Every notice has a source, which is the
part of the library that gives it, a level, and a message.
-/

namespace PropValidators

/-- How important a notice is. -/
inductive Level where
  | debug
  | info
  | warning
  | error
  | critical
deriving DecidableEq, Repr

namespace Level

/-- The rank of a level; notices below the rank of a threshold are not shown. -/
def rank : Level → Int
  | .debug => 10
  | .info => 20
  | .warning => 30
  | .error => 40
  | .critical => 50

/-- The name of a level. -/
def name : Level → String
  | .debug => "DEBUG"
  | .info => "INFO"
  | .warning => "WARNING"
  | .error => "ERROR"
  | .critical => "CRITICAL"

end Level

/-- What is reported. -/
inductive Notice where
  /-- A type refers back to itself. -/
  | cycle (name : String)
  /-- A name that no declaration is known for. -/
  | undeclared (name : String)
  /-- A named type beyond the depth limit. -/
  | tooDeep (name limit : String)
  /-- The number of names a registry holds. -/
  | registered (count : Nat)
  /-- Properties with defaults on a class. -/
  | defaultsDeclared (names : List String)
  /-- Properties with defaults assigned to a component. -/
  | defaultsAssigned (component : String) (names : List String)
  | noPropsType (className : Option String)
  | noValidators (className : Option String)
  | notObjectLiteral (className : Option String) (property : String)
  | validatorsAdded (className : Option String) (property : String) (added : List String)
  | validatorsComplete (className : Option String) (property : String)
  | classesPatched (patched total : Nat)
  /-- A helper call in a group of call sites whose type does not resolve. -/
  | callKept (group helper : String)
  | callsReplaced (group helper : String) (count : Nat)
  /-- A component call without a usable component. -/
  | componentMissing (helper : String)
  | componentUnresolved (component : String)
  | componentWithoutValidators (component : String)
  | componentAssigned (component property : String)
  /-- A source file was stamped, with a marker of the given text. -/
  | stampWritten (path stamp : String)
  | fileStamped (path : String)
  | fileWritten (path : String)
  | classStatus (className : Option String) (status : String)
  | moduleSummary (patched total : Nat)
  | unknownCommand (command : String)
  | invalidAst
  | transformFailed
  | unreadableAst
  | unstampable (path : String)
deriving DecidableEq, Repr

namespace Notice

/-- The part of the library that gives a notice. -/
def source : Notice → String
  | .cycle _ | .undeclared _ | .tooDeep _ _ => "resolve"
  | .registered _ => "registry"
  | .defaultsDeclared _ | .defaultsAssigned _ _ => "defaults"
  | .noPropsType _ | .noValidators _ | .notObjectLiteral _ _ | .validatorsAdded _ _ _
  | .validatorsComplete _ _ | .classesPatched _ _ => "patch"
  | .callKept group _ | .callsReplaced group _ _ => group
  | .componentMissing _ | .componentUnresolved _ | .componentWithoutValidators _
  | .componentAssigned _ _ => "component"
  | .stampWritten _ _ => "marker"
  | .fileStamped _ | .fileWritten _ | .classStatus _ _ | .moduleSummary _ _
  | .unknownCommand _ | .invalidAst | .transformFailed | .unreadableAst
  | .unstampable _ => "cli"

/-- The level of a notice. -/
def level : Notice → Level
  | .validatorsAdded _ _ _ | .callsReplaced _ _ _ | .componentAssigned _ _ | .fileStamped _
  | .fileWritten _ | .moduleSummary _ _ => .info
  | .unknownCommand _ | .invalidAst | .transformFailed | .unreadableAst | .unstampable _ => .error
  | _ => .debug

/-- The name of a class in messages. -/
def className (name : Option String) : String := name.getD "None"

/-- The text of a count of classes. -/
def patchedOf (patched total : Nat) : String :=
  "Patched " ++ Number.digitsText patched ++ " of " ++ Number.digitsText total ++ " classes"

/-- The text of a notice. -/
def message : Notice → String
  | .cycle name => "Cycle through '" ++ name ++ "' resolved as unknown"
  | .undeclared name => "Type '" ++ name ++ "' is not declared in this module"
  | .tooDeep name limit => "Type '" ++ name ++ "' exceeds max depth " ++ limit
  | .registered count => "Registered " ++ Number.digitsText count ++ " type names"
  | .defaultsDeclared names => "Defaults declared for: " ++ Text.displayedList names
  | .defaultsAssigned component names =>
      "Defaults assigned to " ++ component ++ ": " ++ Text.displayedList names
  | .noPropsType name =>
      let shown := match name with
        | some name => if name = "" then "<anonymous>" else name
        | none => "<anonymous>"
      shown ++ ": no props type argument"
  | .noValidators name => className name ++ ": no usable validators derived"
  | .notObjectLiteral name property =>
      className name ++ ": existing " ++ property ++ " is not an object literal"
  | .validatorsAdded name property added =>
      className name ++ ": added " ++ property ++ " for " ++ ", ".intercalate added
  | .validatorsComplete name property => className name ++ ": " ++ property ++ " already complete"
  | .classesPatched patched total => patchedOf patched total
  | .callKept _ helper => helper ++ ": type argument does not resolve, call kept"
  | .callsReplaced _ helper count =>
      "Replaced " ++ Number.digitsText count ++ " " ++ helper ++ " call(s)"
  | .componentMissing helper => helper ++ ": component argument missing, call kept"
  | .componentUnresolved component => component ++ ": type argument does not resolve, call kept"
  | .componentWithoutValidators component =>
      component ++ ": no usable validators derived, call kept"
  | .componentAssigned component property => component ++ ": assigned " ++ property
  | .stampWritten path stamp => "Stamped " ++ path ++ " with " ++ stamp
  | .fileStamped path => "Stamped " ++ path
  | .fileWritten path => "Wrote " ++ path
  | .classStatus name status => className name ++ ": " ++ status
  | .moduleSummary patched total => patchedOf patched total
  | .unknownCommand command => "Unknown command: " ++ command
  | .invalidAst => "Invalid AST input"
  | .transformFailed => "Transform failed"
  | .unreadableAst => "Could not read AST"
  | .unstampable path => "Could not stamp " ++ path

end Notice

/-- The name under which the library reports, with that of a part below it. -/
def loggerName (part : String) : String :=
  if part = "" then "typeprops" else "typeprops." ++ part

/-- A notice in one line: who gives it, its level and its message. -/
def Notice.line (notice : Notice) : String :=
  loggerName notice.source ++ " " ++ notice.level.name ++ " " ++ notice.message

end PropValidators
