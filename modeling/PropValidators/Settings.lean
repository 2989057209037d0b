import PropValidators.Literal
import PropValidators.Notice
import PropValidators.Number.Reader
import PropValidators.Options
import PropValidators.Text.Blank

/-!
# Settings

Settings come from environment variables.  A variable that is not set, or whose text
does not suit its setting, leaves the setting at its default.
-/

namespace PropValidators

/-- Environment variables and their texts. -/
abbrev Environment := List (String × String)

/-- A setting. -/
structure Setting where
  /-- The name of its variable. -/
  name : String
  /-- The default, which also tells what kind of value the setting has. -/
  fallback : Literal
  description : String
  category : String
deriving Repr

namespace Setting

/-- The static property that receives the validators. -/
def validatorProperty : Setting :=
  ⟨"TYPEPROPS_VALIDATOR_PROPERTY", .text "propTypes",
    "Static class property that receives the validator object", "transform"⟩

/-- The static property that holds default values. -/
def defaultsProperty : Setting :=
  ⟨"TYPEPROPS_DEFAULTS_PROPERTY", .text "defaultProps",
    "Static class property holding default prop values", "transform"⟩

/-- The identifier through which validators are reached. -/
def validatorNamespace : Setting :=
  ⟨"TYPEPROPS_VALIDATOR_NAMESPACE", .text "PropTypes",
    "Identifier the generated validators are accessed on", "transform"⟩

/-- The limit on the depth of types. -/
def maxDepth : Setting :=
  ⟨"TYPEPROPS_MAX_DEPTH", .number (.int 10),
    "Maximum type nesting depth before a branch becomes 'any'", "transform"⟩

/-- Whether the build is for production. -/
def production : Setting :=
  ⟨"TYPEPROPS_PRODUCTION", .truth false,
    "Build targets production (type-keys calls become null)", "build"⟩

/-- The level from which on the command line shows notices. -/
def logLevel : Setting :=
  ⟨"TYPEPROPS_LOG_LEVEL", .text "INFO",
    "Log level for the command line (DEBUG, INFO, WARNING)", "logging"⟩

/-- All settings, in order. -/
def all : List Setting :=
  [validatorProperty, defaultsProperty, validatorNamespace, maxDepth, production, logLevel]

/-- The categories of settings, in order. -/
def categories : List String := ["transform", "build", "logging"]

/-- The setting of a variable. -/
def named? (name : String) : Option Setting :=
  all.find? fun setting => setting.name == name

/-- The settings of a category, or all settings. -/
def inCategory (category : Option String) : List Setting :=
  match category with
  | none => all
  | some category => all.filter fun setting => setting.category == category

/-- The truth value that a text stands for, in any case and with blanks around. -/
def flagOfText? (text : String) : Option Bool :=
  let word := String.ofList (Text.trim Text.isBlank (text.toList.map Char.toLower))
  if ["true", "1", "yes"].contains word then some true
  else if ["false", "0", "no"].contains word then some false
  else none

/-- The value that a text gives to a setting, if it suits. -/
def valueOfText? (setting : Setting) (text : String) : Option Literal :=
  match setting.fallback with
  | .text _ => some (.text text)
  | .number _ => (Number.integer? text).map fun n => .number (.int n)
  | .truth _ => (flagOfText? text).map .truth

/-- The value of a setting in an environment. -/
def value (setting : Setting) (environment : Environment) : Literal :=
  ((environment.lookup setting.name).bind setting.valueOfText?).getD setting.fallback

/-- The value of a setting, unless another value is given, which may be any. -/
def valueOr (setting : Setting) (environment : Environment) (override : Option Json) : Json :=
  override.getD (setting.value environment).toJson

end Setting

namespace Literal

/-- The displayed form of a value. -/
def displayed : Literal → String
  | .text s => Text.displayed s
  | value => value.propertyName

/-- The text a value is, empty for other values. -/
def textD : Literal → String
  | .text s => s
  | _ => ""

/-- The integer a value is, zero for other values. -/
def intD : Literal → Int
  | .number (.int n) => n
  | _ => 0

end Literal

/-- Whether the build is for production, unless told otherwise. -/
def isProduction (environment : Environment) (override : Option Json) : Bool :=
  (Setting.production.valueOr environment override).isTrue

/-- The options that an environment sets. -/
def Options.ofEnvironment (environment : Environment) : Options :=
  { validatorProperty := (Setting.validatorProperty.value environment).textD
    defaultsProperty := (Setting.defaultsProperty.value environment).textD
    validatorNamespace := (Setting.validatorNamespace.value environment).textD
    maxDepth := .int (Setting.maxDepth.value environment).intD }

/-- The upper-case form of a character as far as level names go: ASCII letters, and
the letters outside ASCII whose upper-case form is an ASCII letter. -/
def upperLetter (c : Char) : Char :=
  if c = 'ı' then 'I' else if c = 'ſ' then 'S' else c.toUpper

/-- The names of levels and their ranks. -/
def levelRanks : List (String × Int) :=
  [("CRITICAL", 50), ("FATAL", 50), ("ERROR", 40), ("WARN", 30), ("WARNING", 30), ("INFO", 20),
    ("DEBUG", 10), ("NOTSET", 0)]

/-- The rank that a level name stands for, in any case; that of `INFO` for other
names. -/
def rankOfName (name : String) : Int :=
  (levelRanks.lookup (String.ofList (name.toList.map upperLetter))).getD Level.info.rank

end PropValidators
