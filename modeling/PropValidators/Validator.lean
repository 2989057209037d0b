import PropValidators.Ast.Builder
import PropValidators.Shape

/-!
# Validators

A validator checks a prop at run time.  Validators are made from shapes, and lowered
to expressions that reach the checks of a validator library through a namespace:

* a primitive shape becomes `PropTypes.string` and the like;
* an object shape becomes `PropTypes.shape` of an object with an entry per field;
* arrays, sets of values and unions become `PropTypes.arrayOf`, `oneOf` and
  `oneOfType`;
* an unknown shape becomes `PropTypes.any`;
* a required validator ends in `isRequired`.
-/

namespace PropValidators

mutual

/-- A validator. -/
inductive Validator where
  | primitive (kind : PrimitiveKind)
  | shape (entries : List Entry)
  | arrayOf (element : Validator)
  | oneOf (values : List Literal)
  | oneOfType (members : List Validator)
  | any
  | required (inner : Validator)

/-- One property of an object of validators. -/
structure Entry where
  /-- The prop that is checked. -/
  prop : String
  /-- The whole validator, with its mark when the prop is required. -/
  validator : Validator
  required : Bool

end

instance : Inhabited Validator := ⟨.any⟩

namespace Validator

/-- Whether a validator accepts everything. -/
def isAny : Validator → Bool
  | .any => true
  | _ => false

/-- A validator without its mark as required. -/
def base : Validator → Validator
  | .required inner => inner
  | validator => validator

end Validator

/-- The entry of a prop.  It is required unless the field is optional or has a default
or nothing is known about it. -/
def Entry.of (name : String) (optional hasDefault : Bool) (base : Validator) : Entry :=
  let required := !optional && !hasDefault && !base.isAny
  ⟨name, if required then .required base else base, required⟩

mutual

/-- The validator of a shape, not marked as required. -/
def Validator.ofShape : Shape → Validator
  | .primitive kind => .primitive kind
  | .object fields => .shape (Entry.ofFields fields)
  | .array element => .arrayOf (Validator.ofShape element)
  | .oneOf values => .oneOf values
  | .union members => .oneOfType (Validator.ofShapes members)
  | .unknown => .any
termination_by structural shape => shape

/-- The validators of shapes. -/
def Validator.ofShapes : List Shape → List Validator
  | [] => []
  | shape :: shapes => Validator.ofShape shape :: Validator.ofShapes shapes
termination_by structural shapes => shapes

/-- The entry of a field. -/
def Entry.ofField : Field → Entry
  | ⟨name, shape, optional, hasDefault⟩ =>
      Entry.of name optional hasDefault (Validator.ofShape shape)
termination_by structural field => field

/-- The entries of fields, in order. -/
def Entry.ofFields : List Field → List Entry
  | [] => []
  | field :: fields => Entry.ofField field :: Entry.ofFields fields
termination_by structural fields => fields

end

namespace Entry

/-- The entries of the fields of a props type, given the names of the props that have
defaults. -/
def ofProps (fields : List Field) (defaults : List String) : List Entry :=
  fields.map fun f => ofField { f with hasDefault := defaults.contains f.name }

/-- Whether some entry says more than `any`. -/
def anyUsable (entries : List Entry) : Bool :=
  entries.any fun entry => !entry.validator.base.isAny

end Entry

/-- The name of the check for a run-time kind. -/
def PrimitiveKind.checkName : PrimitiveKind → String
  | .boolean => "bool"
  | .function => "func"
  | kind => kind.name

open Ast in
/-- The call of a check of the validator library. -/
def checkCall (library check : String) (argument : Node) : Node :=
  call (member (identifier library) check) [argument]

open Ast in
mutual

/-- The expression of a validator, with the checks reached through a namespace. -/
def Validator.toNode (library : String) : Validator → Node
  | .primitive kind => member (identifier library) kind.checkName
  | .shape entries =>
      checkCall library "shape" (object (Assoc.ofPairs (Entry.toPairs library entries)))
  | .arrayOf element => checkCall library "arrayOf" (element.toNode library)
  | .oneOf values => checkCall library "oneOf" (array (values.map literal))
  | .oneOfType members => checkCall library "oneOfType" (array (Validator.toNodes library members))
  | .required inner => member (inner.toNode library) "isRequired"
  | .any => member (identifier library) "any"
termination_by structural validator => validator

/-- The expressions of validators. -/
def Validator.toNodes (library : String) : List Validator → List Node
  | [] => []
  | validator :: validators => validator.toNode library :: Validator.toNodes library validators
termination_by structural validators => validators

/-- The prop of an entry and the expression of its validator. -/
def Entry.toPair (library : String) : Entry → String × Node
  | ⟨prop, validator, _⟩ => (prop, validator.toNode library)
termination_by structural entry => entry

/-- The props of entries and the expressions of their validators. -/
def Entry.toPairs (library : String) : List Entry → List (String × Node)
  | [] => []
  | entry :: entries => entry.toPair library :: Entry.toPairs library entries
termination_by structural entries => entries

end

end PropValidators
