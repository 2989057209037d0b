import PropValidators.Number.Basic

/-!
# Options

The names and limits that a transformation works with.  A depth limit need not be whole;
what it says is from which depth on types are too deep.
-/

namespace PropValidators

/-- Names and limits of a transformation. -/
structure Options where
  /-- The static property that receives the validators. -/
  validatorProperty : String := "propTypes"
  /-- The static property that holds default values. -/
  defaultsProperty : String := "defaultProps"
  /-- The identifier through which validators are reached. -/
  validatorNamespace : String := "PropTypes"
  /-- The depth of types from which on they are no longer expanded. -/
  maxDepth : Number := .int 10
deriving DecidableEq, Repr

instance : Inhabited Options := ⟨{}⟩

/-- A depth beyond that of all types, which stands for a limit that is never reached. -/
def unreachedDepth : Int := Int.pow 2 1024

/-- The first depth that reaches a limit. -/
def Number.reachedFrom : Number → Int
  | .int n => n
  | .float (.infinite true) => 0
  | .float x => x.ceiling?.getD unreachedDepth

end PropValidators
