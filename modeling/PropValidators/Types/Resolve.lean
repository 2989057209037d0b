import PropValidators.Traced
import PropValidators.Types.Context

/-!
# Resolving types to shapes

The shape of a type expression in a context.  Whatever cannot be seen is unknown:
names that are not declared, names that refer back to themselves, and types beyond
the depth limit.  A limit that a name is too deep for is reported, and so it has to be
one that can be written.

A named type is expanded at most once on every branch, so resolution ends whatever
the limit is: each step either enters a name that was not yet being resolved, or goes
on with a smaller type.
-/

namespace PropValidators

/-- Generic types that are arrays. -/
def arrayGenerics : List String := ["Array", "ReadonlyArray"]

/-- Global and library names of a fixed run-time kind. -/
def wellKnownTypes : List (String × PrimitiveKind) :=
  [("String", .string), ("Number", .number), ("Boolean", .boolean), ("Symbol", .symbol),
    ("Function", .function), ("Object", .object), ("Record", .object), ("ReactNode", .node),
    ("React.ReactNode", .node), ("ReactElement", .element), ("React.ReactElement", .element),
    ("JSX.Element", .element)]

/-- Type functions with a meaning of their own. -/
inductive Utility where
  /-- All fields optional. -/
  | optional
  /-- No field optional. -/
  | required
  /-- The type itself. -/
  | same
  /-- The fields with the given names. -/
  | pick
  /-- The fields without the given names. -/
  | omit
deriving DecidableEq, Repr

/-- The type functions by name. -/
def utilities : List (String × Utility) :=
  [("Partial", .optional), ("Required", .required), ("Readonly", .same), ("NonNullable", .same),
    ("Pick", .pick), ("Omit", .omit)]

/-- The values of enum members.  A member without an initializer follows the last
number, and the first one is zero; an enum with a member whose value is not known is
unknown as a whole. -/
def enumValues : Number → List EnumValue → Option (List Literal)
  | _, [] => some []
  | next, .implicit :: members => (enumValues next.succ members).map (.number next :: ·)
  | _, .literal (.number n) :: members => (enumValues n.succ members).map (.number n :: ·)
  | next, .literal (.text s) :: members => (enumValues next members).map (.text s :: ·)
  | _, .literal (.truth _) :: _ => none
  | _, .computed :: _ => none

/-- The shape of an enum. -/
def enumShape (members : List EnumValue) : Shape :=
  match enumValues (.int 0) members with
  | some values => .oneOf (dedupe Literal.same values)
  | none => .unknown

/-- The shape of the alternatives of a union that are left when null and undefined
are taken out. -/
def unionShape (shapes : List Shape) : Shape :=
  if shapes.isEmpty then .unknown else Shape.combine shapes

/-- Give a notice for a type that cannot be expanded. -/
def unresolved (notice : Notice) : Traced Shape := do
  Traced.note notice
  return .unknown

mutual

/-- The shape of a named type with the given arguments. -/
def resolveName (context : Context) (name : String) (arguments : List Shape) : Traced Shape :=
  match _hfresh : context.visited.contains name with
  | true => unresolved (.cycle name)
  | false =>
      match _hget : context.registry.get name with
      | [] => unresolved (.undeclared name)
      | first :: more =>
          if context.tooDeep then do
            Traced.check context.maxDepth.writingFault?
            unresolved (.tooDeep name context.maxDepth.text)
          else
            let inner := (context.entering name).nested
            Traced.within (.entered name) <| Traced.within .nested <|
              if (first :: more).all Declaration.isInterface then do
                let groups ← resolveInterfaces inner arguments (first :: more)
                return .object (mergeFields groups)
              else
                match (more.getLast?).getD first with
                | .alias parameters body =>
                    let frame := Frame.ofArguments parameters arguments
                    Shape.returned <$>
                      Traced.within (.bound frame) (resolveType (inner.binding frame) body)
                | .enumeration members => return enumShape members
                | .interface _ _ _ => return .unknown
termination_by (context.unvisited, 0, 0)
decreasing_by
  all_goals
    have hmem : name ∈ context.registry.names :=
      Registry.mem_names_of_get_ne_nil (by rw [_hget]; exact List.cons_ne_nil _ _)
    exact Prod.Lex.left _ _ (Context.unvisited_entering_lt hmem _hfresh)

/-- The fields of each of the interfaces of one name, inherited ones first. -/
def resolveInterfaces (context : Context) (arguments : List Shape) :
    List Declaration → Traced (List (List Field))
  | [] => return []
  | .interface parameters heritage members :: more => do
      let frame := Frame.ofArguments parameters arguments
      let scope := context.binding frame
      let (inherited, own) ← Traced.within (.bound frame) do
        let inherited ← resolveHeritage scope heritage
        let own ← resolveMembers scope members
        return (inherited, own)
      let fields := mergeFields (inherited ++ [mergeFields [own]])
      let others ← resolveInterfaces context arguments more
      return fields.map Field.returned :: others
  | _ :: more => resolveInterfaces context arguments more
termination_by declarations => (context.unvisited, sizeOf declarations, 0)

/-- The groups of fields inherited through heritage clauses.  A parent that is no
object contributes nothing. -/
def resolveHeritage (context : Context) : List Heritage → Traced (List (List Field))
  | [] => return []
  | ⟨name, arguments⟩ :: more => do
      let shapes ← resolveAll context arguments
      let parent ← resolveName context name shapes
      let others ← resolveHeritage context more
      return parent.fields?.toList ++ others
termination_by clauses => (context.unvisited, sizeOf clauses, 0)

/-- The fields of members, in order and with repetitions. -/
def resolveMembers (context : Context) : List TypeMember → Traced (List Field)
  | [] => return []
  | .property name type optional :: more => do
      let (shape, nullable) ← resolveNullable context type
      let others ← resolveMembers context more
      return ⟨name, shape, optional || nullable, false⟩ :: others
  | .method name optional :: more => do
      let others ← resolveMembers context more
      return ⟨name, .primitive .function, optional, false⟩ :: others
  | .malformed fault :: _ => Traced.stop fault
termination_by members => (context.unvisited, sizeOf members, 0)

/-- The shape of a type, and whether it admits null or undefined.  One annotation
wrapper and all parentheses are looked through. -/
def resolveNullable (context : Context) : TypeExpr → Traced (Shape × Bool)
  | .annotated type => resolveUnwrapped context type
  | type => resolveUnwrapped context type
termination_by type => (context.unvisited, sizeOf type, 2)

/-- The shape of a type without its annotation wrapper, and whether it admits null or
undefined. -/
def resolveUnwrapped (context : Context) : TypeExpr → Traced (Shape × Bool)
  | .parenthesized type => resolveUnwrapped context type
  | .nullish => return (.unknown, true)
  | .union types => do
      let shapes ← resolveAlternatives context types
      return (unionShape shapes, types.any TypeExpr.isNullish || shapes.isEmpty)
  | type => do
      let shape ← resolveType context type
      return (shape, false)
termination_by type => (context.unvisited, sizeOf type, 1)

/-- The shape of a type. -/
def resolveType (context : Context) : TypeExpr → Traced Shape
  | .primitive kind => return .primitive kind
  | .nullish => return .unknown
  | .function => return .primitive .function
  | .literal value => return .oneOf [value]
  | .template => return .primitive .string
  | .reference none _ => return .unknown
  | .reference (some name) arguments =>
      match context.bound? name with
      | some shape => return shape
      | none =>
          if context.registry.contains name then do
            let shapes ← resolveAll context arguments
            resolveName context name shapes
          else if arrayGenerics.contains name then
            match arguments with
            | [] => return .array .unknown
            | element :: _ => do
                let shape ← resolveType context element
                return .array shape
          else
            match utilities.lookup name, arguments with
            | some utility, target :: keys => do
                let shape ← resolveType context target
                match utility with
                | .same => return shape
                | .optional => return shape.markOptional true
                | .required => return shape.markOptional false
                | .pick => do
                    let wanted ← resolveFirst context keys
                    Traced.check (Shape.selectFault? shape wanted)
                    return Shape.select true shape wanted
                | .omit => do
                    let unwanted ← resolveFirst context keys
                    Traced.check (Shape.selectFault? shape unwanted)
                    return Shape.select false shape unwanted
            | _, _ =>
                match wellKnownTypes.lookup name with
                | some kind => return .primitive kind
                | none => resolveName context name []
  | .object members =>
      if context.tooDeep then return .unknown
      else do
        let fields ← Traced.within .nested (resolveMembers context.nested members)
        return .object (mergeFields [fields])
  | .array element => do
      let shape ← resolveType context element
      return .array shape
  | .tuple elements => do
      let shapes ← resolveAll context elements
      return .array (unionShape shapes)
  | .union types => do
      let shapes ← resolveAlternatives context types
      return unionShape shapes
  | .intersection operands => do
      let shapes ← resolveAll context operands
      return Shape.intersect shapes
  | .parenthesized type => resolveType context type
  | .annotated (.annotated _) => return .unknown
  | .annotated type => resolveType context type
  | .keyof target => do
      let shape ← resolveType context target
      return shape.keys
  | .modified type => resolveType context type
  | .untold => return .unknown
  | .malformed fault => Traced.stop fault
termination_by type => (context.unvisited, sizeOf type, 0)

/-- The shape of the first type of a list; unknown if there is none. -/
def resolveFirst (context : Context) : List TypeExpr → Traced Shape
  | [] => return .unknown
  | type :: _ => resolveType context type
termination_by types => (context.unvisited, sizeOf types, 0)

/-- The shapes of types. -/
def resolveAll (context : Context) : List TypeExpr → Traced (List Shape)
  | [] => return []
  | type :: more => do
      let shape ← resolveType context type
      let others ← resolveAll context more
      return shape :: others
termination_by types => (context.unvisited, sizeOf types, 0)

/-- The shapes of the types that are not null or undefined. -/
def resolveAlternatives (context : Context) : List TypeExpr → Traced (List Shape)
  | [] => return []
  | type :: more =>
      if type.isNullish then resolveAlternatives context more
      else do
        let shape ← resolveType context type
        let others ← resolveAlternatives context more
        return shape :: others
termination_by types => (context.unvisited, sizeOf types, 0)

end

/-- The fields of members in a context.  A repeated name keeps its first position and
takes its last declaration. -/
def memberFields (context : Context) (members : List TypeMember) : Traced (List Field) := do
  let fields ← resolveMembers context members
  return mergeFields [fields]

end PropValidators
