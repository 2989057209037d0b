import PropValidators.Types.Passing

/-!
# Guards

While a type is resolved, names are marked as being resolved, the depth of nesting is
counted, and type parameters are bound to shapes.  Each of these is a guard that holds
for a part of the resolution.
-/

namespace PropValidators

/-- Shapes bound to the type parameters of one declaration.  Of several bindings of a
name the last one counts. -/
abbrev Frame := List (String × Shape)

/-- The shape bound to a name. -/
def Frame.get? (frame : Frame) (name : String) : Option Shape :=
  (frame.reverse.find? fun binding => binding.1 == name).map Prod.snd

/-- Bind type parameters to arguments, in order; a parameter without an argument is
unknown. -/
def Frame.ofArguments (parameters : List String) (arguments : List Shape) : Frame :=
  parameters.zipIdx.map fun (name, i) => (name, (arguments[i]?.getD .unknown).passed i)

/-- A guard. -/
inductive Guard where
  /-- A name is being resolved. -/
  | entered (name : String)
  /-- One level deeper. -/
  | nested
  /-- Type parameters are bound. -/
  | bound (frame : Frame)

end PropValidators
