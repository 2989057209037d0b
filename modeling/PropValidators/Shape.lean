import PropValidators.Assoc
import PropValidators.Fault
import PropValidators.Literal

/-!
# Shapes of types

A shape is a resolved type, free of syntax: what a value of the type looks like at
run time.  Object shapes hold their fields in order.  Shapes are compared by value,
where literal values are compared across kinds: the shapes of the literal types `1`
and `true` are equal, although the two values are different members of a set.
-/

namespace PropValidators

/-- The run-time kinds that can be told apart. -/
inductive PrimitiveKind where
  | string
  | number
  | boolean
  | function
  | object
  | symbol
  /-- Anything that can be rendered. -/
  | node
  /-- A single rendered element. -/
  | element
deriving DecidableEq, Repr

/-- The name of a run-time kind. -/
def PrimitiveKind.name : PrimitiveKind → String
  | .string => "string"
  | .number => "number"
  | .boolean => "boolean"
  | .function => "function"
  | .object => "object"
  | .symbol => "symbol"
  | .node => "node"
  | .element => "element"

mutual

/-- The shape of a type. -/
inductive Shape where
  | primitive (kind : PrimitiveKind)
  | object (fields : List Field)
  | array (element : Shape)
  | union (members : List Shape)
  /-- One of a closed set of values. -/
  | oneOf (values : List Literal)
  /-- A type that cannot be seen or is not expanded. -/
  | unknown

/-- A field of an object shape. -/
structure Field where
  name : String
  shape : Shape
  /-- The field may be left out, or may be null. -/
  optional : Bool := false
  /-- A default is supplied for the field. -/
  hasDefault : Bool := false

end

instance : Inhabited Shape := ⟨.unknown⟩

/-- Equality of lists of values, across kinds. -/
def equalLiterals : List Literal → List Literal → Bool
  | [], [] => true
  | a :: as, b :: bs => a.equals b && equalLiterals as bs
  | _, _ => false

mutual

/-- Equality of shapes, with literal values compared across kinds. -/
def Shape.equals : Shape → Shape → Bool
  | .primitive a, .primitive b => a == b
  | .object fs, .object gs => equalFields fs gs
  | .array a, .array b => a.equals b
  | .union ss, .union ts => equalShapes ss ts
  | .oneOf vs, .oneOf ws => equalLiterals vs ws
  | .unknown, .unknown => true
  | _, _ => false
termination_by structural s => s

/-- Equality of fields. -/
def Field.equals : Field → Field → Bool
  | ⟨n, s, o, d⟩, ⟨m, t, p, e⟩ => n == m && s.equals t && o == p && d == e
termination_by structural f => f

/-- Equality of lists of shapes. -/
def equalShapes : List Shape → List Shape → Bool
  | [], [] => true
  | s :: ss, t :: ts => s.equals t && equalShapes ss ts
  | _, _ => false
termination_by structural ss => ss

/-- Equality of lists of fields. -/
def equalFields : List Field → List Field → Bool
  | [], [] => true
  | f :: fs, g :: gs => f.equals g && equalFields fs gs
  | _, _ => false
termination_by structural fs => fs

end

/-- Combine groups of fields.  A later field replaces an earlier one of the same
name and takes its position. -/
def mergeFields (groups : List (List Field)) : List Field :=
  (Assoc.ofPairs (groups.flatten.map fun f => (f.name, f))).map Prod.snd

/-- The first field with a name. -/
def fieldNamed? (fields : List Field) (name : String) : Option Field :=
  fields.find? fun f => f.name == name

/-- Drop every item that is the same as an earlier one. -/
def dedupe {α : Type} (same : α → α → Bool) (items : List α) : List α :=
  (items.foldl (fun kept item => if kept.any (same · item) then kept else item :: kept) []).reverse

namespace Shape

/-- The fields of an object shape. -/
def fields? : Shape → Option (List Field)
  | .object fields => some fields
  | _ => none

/-- Whether a shape says nothing. -/
def isUnknown : Shape → Bool
  | .unknown => true
  | _ => false

/-- The alternatives of a union, and any other shape as its only alternative. -/
def alternatives : Shape → List Shape
  | .union members => members
  | shape => [shape]

/-- The values of a set of literals. -/
def values : Shape → List Literal
  | .oneOf values => values
  | _ => []

/-- Whether a shape is a set of literals. -/
def isOneOf : Shape → Bool
  | .oneOf _ => true
  | _ => false

/-- Group literals: the first set of literals among the members is replaced by the
given one, and all others are dropped. -/
def groupLiterals (grouped : Shape) : List Shape → List Shape
  | [] => []
  | .oneOf _ :: members => grouped :: members.filter fun s => !s.isOneOf
  | member :: members => member :: groupLiterals grouped members

/-- The shape of alternatives.  Unions among them are opened, and all literals are
put together in one set in the place of the first.  A single remaining shape stands
for itself. -/
def combine (shapes : List Shape) : Shape :=
  let members := shapes.flatMap alternatives
  let literals := dedupe Literal.same (members.flatMap values)
  match dedupe equals (groupLiterals (.oneOf literals) members) with
  | [single] => single
  | distinct => .union distinct

/-- The shape of an intersection: the fields of all object shapes, of which the
later win.  Other shapes are left out. -/
def intersect (shapes : List Shape) : Shape :=
  match shapes.filterMap fields? with
  | [] => .unknown
  | groups => .object (mergeFields groups)

/-- An object shape with all fields marked optional or not; any other shape as it
is. -/
def markOptional (optional : Bool) : Shape → Shape
  | .object fields => .object (fields.map fun f => { f with optional })
  | shape => shape

/-- The fields of an object whose names are among the keys, or not among them. -/
def select (keep : Bool) : Shape → Shape → Shape
  | .object fields, .oneOf keys =>
      let wanted := keys.map Literal.propertyName
      .object (fields.filter fun f => wanted.contains f.name == keep)
  | _, _ => .unknown

/-- The fault of selecting fields by keys one of which cannot be written. -/
def selectFault? : Shape → Shape → Option Fault
  | .object _, .oneOf keys =>
      if keys.any Literal.isUnwritable then some .unwritableInteger else none
  | _, _ => none

/-- The names of an object's fields as a set of literals. -/
def keys : Shape → Shape
  | .object fields => .oneOf (fields.map fun f => .text f.name)
  | _ => .unknown

end Shape

end PropValidators
