import PropValidators.Shape

/-!
# Passing shapes to type parameters

Every computation of a value that is not a number makes a value of its own.  A shape that
is bound to a type parameter is computed once, though, and all uses of the parameter see
the same values.  So such values get an origin while they are bound, by which they are
found to be the same; the origin tells the values of different bindings apart.  It is
taken away when the result leaves the scope of the parameter.
-/

namespace PropValidators

/-- The origin of a value that is bound to a parameter. -/
def Origin.passed (place : List Nat) : Origin → Origin
  | .computed => .bound 0 place
  | .bound scopes place => .bound (scopes + 1) place
  | origin => origin

/-- The origin of a value that leaves the scope of a parameter. -/
def Origin.returned : Origin → Origin
  | .bound 0 _ => .computed
  | .bound (scopes + 1) place => .bound scopes place
  | origin => origin

/-- Leaving the scope that a value was passed to restores its origin. -/
@[simp]
theorem Origin.returned_passed (place : List Nat) (origin : Origin) :
    (origin.passed place).returned = origin := by
  cases origin <;> rfl

/-- A literal value with another origin, if it is not a number. -/
def Literal.mapOrigin (change : Origin → Origin) : Literal → Literal
  | .number (.float (.nan origin)) => .number (.float (.nan (change origin)))
  | value => value

/-- Values of a set with other origins.  The change depends on the place of the value,
and the first value has the given index. -/
def mapOriginsOfLiterals (change : List Nat → Origin → Origin) (place : List Nat) :
    Nat → List Literal → List Literal
  | _, [] => []
  | index, value :: values =>
      value.mapOrigin (change (index :: place)) ::
        mapOriginsOfLiterals change place (index + 1) values

mutual

/-- A shape whose values that are not numbers have other origins.  The change depends on
the place of the value, which is a list of indices from the value up to the given
place. -/
def Shape.mapOrigins (change : List Nat → Origin → Origin) (place : List Nat) : Shape → Shape
  | .primitive kind => .primitive kind
  | .object fields => .object (mapOriginsOfFields change place 0 fields)
  | .array element => .array (element.mapOrigins change (0 :: place))
  | .union members => .union (mapOriginsOfShapes change place 0 members)
  | .oneOf values => .oneOf (mapOriginsOfLiterals change place 0 values)
  | .unknown => .unknown
termination_by structural s => s

/-- A field with other origins. -/
def Field.mapOrigins (change : List Nat → Origin → Origin) (place : List Nat) : Field → Field
  | ⟨name, shape, optional, hasDefault⟩ =>
      ⟨name, shape.mapOrigins change place, optional, hasDefault⟩
termination_by structural f => f

/-- Fields with other origins, the first of which has the given index. -/
def mapOriginsOfFields (change : List Nat → Origin → Origin) (place : List Nat)
    (index : Nat) : List Field → List Field
  | [] => []
  | field :: fields =>
      field.mapOrigins change (index :: place) ::
        mapOriginsOfFields change place (index + 1) fields
termination_by structural fields => fields

/-- Shapes with other origins, the first of which has the given index. -/
def mapOriginsOfShapes (change : List Nat → Origin → Origin) (place : List Nat)
    (index : Nat) : List Shape → List Shape
  | [] => []
  | shape :: shapes =>
      shape.mapOrigins change (index :: place) ::
        mapOriginsOfShapes change place (index + 1) shapes
termination_by structural shapes => shapes

end

/-- A literal value that leaves the scope it was passed to is as it was. -/
@[simp]
theorem Literal.mapOrigin_returned_passed (place : List Nat) (value : Literal) :
    (value.mapOrigin (Origin.passed place)).mapOrigin Origin.returned = value := by
  cases value with
  | text s => rfl
  | truth b => rfl
  | number n =>
      cases n with
      | int n => rfl
      | float x => cases x <;> simp [Literal.mapOrigin]

/-- So are the values of a set. -/
@[simp]
theorem mapOriginsOfLiterals_returned_passed (place outer : List Nat) (index start : Nat)
    (values : List Literal) :
    mapOriginsOfLiterals (fun _ => Origin.returned) outer start
      (mapOriginsOfLiterals Origin.passed place index values) = values := by
  induction values generalizing index start with
  | nil => rfl
  | cons value values ih =>
      simp only [mapOriginsOfLiterals, Literal.mapOrigin_returned_passed, ih]

mutual

/-- A shape that leaves the scope it was passed to is as it was. -/
@[simp]
theorem Shape.mapOrigins_returned_passed (place outer : List Nat) (shape : Shape) :
    (shape.mapOrigins Origin.passed place).mapOrigins (fun _ => Origin.returned) outer =
      shape := by
  cases shape with
  | primitive kind => rfl
  | object fields =>
      simp only [Shape.mapOrigins]
      exact congrArg Shape.object (mapOriginsOfFields_returned_passed place outer 0 0 fields)
  | array element =>
      simp only [Shape.mapOrigins]
      exact congrArg Shape.array
        (Shape.mapOrigins_returned_passed (0 :: place) (0 :: outer) element)
  | union members =>
      simp only [Shape.mapOrigins]
      exact congrArg Shape.union (mapOriginsOfShapes_returned_passed place outer 0 0 members)
  | oneOf values =>
      simp only [Shape.mapOrigins, mapOriginsOfLiterals_returned_passed]
  | unknown => rfl
termination_by structural shape

/-- So is a field. -/
@[simp]
theorem Field.mapOrigins_returned_passed (place outer : List Nat) (field : Field) :
    (field.mapOrigins Origin.passed place).mapOrigins (fun _ => Origin.returned) outer =
      field := by
  cases field with
  | mk name shape optional hasDefault =>
      simp only [Field.mapOrigins]
      exact congrArg (Field.mk name · optional hasDefault)
        (Shape.mapOrigins_returned_passed place outer shape)
termination_by structural field

/-- So are the fields of an object. -/
@[simp]
theorem mapOriginsOfFields_returned_passed (place outer : List Nat) (index start : Nat)
    (fields : List Field) :
    mapOriginsOfFields (fun _ => Origin.returned) outer start
      (mapOriginsOfFields Origin.passed place index fields) = fields := by
  cases fields with
  | nil => rfl
  | cons field fields =>
      simp only [mapOriginsOfFields]
      rw [Field.mapOrigins_returned_passed (index :: place) (start :: outer) field,
        mapOriginsOfFields_returned_passed place outer (index + 1) (start + 1) fields]
termination_by structural fields

/-- So are the members of a union. -/
@[simp]
theorem mapOriginsOfShapes_returned_passed (place outer : List Nat) (index start : Nat)
    (shapes : List Shape) :
    mapOriginsOfShapes (fun _ => Origin.returned) outer start
      (mapOriginsOfShapes Origin.passed place index shapes) = shapes := by
  cases shapes with
  | nil => rfl
  | cons shape shapes =>
      simp only [mapOriginsOfShapes]
      rw [Shape.mapOrigins_returned_passed (index :: place) (start :: outer) shape,
        mapOriginsOfShapes_returned_passed place outer (index + 1) (start + 1) shapes]
termination_by structural shapes

end

/-- The shape of an argument as it is bound to the parameter with an index. -/
def Shape.passed (shape : Shape) (index : Nat) : Shape :=
  shape.mapOrigins Origin.passed [index]

/-- A shape that leaves the scope of parameters. -/
def Shape.returned (shape : Shape) : Shape :=
  shape.mapOrigins (fun _ => Origin.returned) []

/-- A field that leaves the scope of parameters. -/
def Field.returned (field : Field) : Field :=
  field.mapOrigins (fun _ => Origin.returned) []

/-- An argument that is returned through a parameter is as it was. -/
@[simp]
theorem Shape.returned_passed (shape : Shape) (index : Nat) :
    (shape.passed index).returned = shape :=
  Shape.mapOrigins_returned_passed [index] [] shape

end PropValidators
