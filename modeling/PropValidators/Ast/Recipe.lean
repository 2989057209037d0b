import PropValidators.Ast.Argument
import PropValidators.Ast.Builder

/-!
# Recipes for nodes

A recipe is plain data in which some objects ask for builders: such an object has the name of
a builder under `fn`, and the arguments by position and by name under `args` and `kwargs`,
which are recipes again.  Everything else stands for itself.

The builders are those of expressions, TypeScript types and declarations, classes and
modules.  A builder whose arguments do not suit reports what it meets first.
-/

namespace PropValidators.Ast

namespace Built

/-- An outcome of reading arguments. -/
def checked {α : Type} (outcome : Checked α) : Built α :=
  outcome.mapError .malformed

/-- An outcome that may be a fault. -/
def faulty {α : Type} (outcome : Except Fault α) : Built α :=
  outcome.mapError .fault

end Built

namespace Argument

/-- The name in an identifier. -/
def name (a : Argument) : Built String :=
  Built.checked (a.textIn ["name"])

/-- The key of a property. -/
def propertyKey (a : Argument) : Built Node :=
  match a with
  | .constant (.string s) => .ok (Ast.propertyKey s)
  | a => .error (.fault (.misused .matched a.kindName))

/-- The node in a field. -/
def nodeAt (place : List String) (a : Argument) : Built Node :=
  Built.checked (a.nodeIn place)

/-- The literal with a value. -/
def literal : Argument → Built Node
  | .constant json => Built.faulty (constant? json)
  | a => .error (.fault (.misused .literal a.kindName))

/-- The keyword type with a name. -/
def keyword : Argument → Built Node
  | .constant (.string name) => Built.faulty (keyword? name)
  | .constant json => .error (.fault (.noKey json.displayed))
  | a => .error (.fault (.misused .keyed a.kindName))

/-- The names in identifiers. -/
def names (a : Argument) : Built (List String) := do
  (← a.items).mapM name

/-- The names of type parameters. -/
def parameters (a : Argument) : Built (List Value) := do
  (← a.items).mapM fun name => Built.checked (name.nameIn "name")

/-- The names and values of enum members. -/
def enumMembers : Argument → Built (List (Argument × Argument))
  | .record members =>
      .ok (members.map fun member => (.constant (.string member.1), member.2))
  | a => do return (← a.items).map fun name => (name, .constant .null)

/-- An enum member.  Without a value it has no initializer. -/
def enumMember (member : Argument × Argument) : Built (String × Option Node) := do
  let name ← member.1.name
  match member.2 with
  | .constant .null => return (name, none)
  | value => return (name, some (← value.literal))

end Argument

namespace Binding

/-- The argument of a parameter that may be left out. -/
def get? (binding : Binding) (parameter : String) : Option Argument :=
  binding.values.lookup parameter

/-- The argument of a parameter that must not be left out. -/
def get (binding : Binding) (parameter : String) : Argument :=
  (binding.get? parameter).getD (.constant .null)

/-- The nodes that the further arguments give to a list in a field. -/
def nodes (binding : Binding) (field : String) : Checked (List Node) :=
  Argument.eachIn Argument.nodeIn field binding.others

end Binding

/-- A builder: its parameters, and what it makes of their arguments. -/
structure Builder where
  signature : Signature
  build : Binding → Built Node

namespace Builder

/-- A builder with parameters that must not be left out. -/
def plain (parameters : List String) (build : Binding → Built Node) : Builder :=
  ⟨{ positional := parameters }, build⟩

/-- A builder with such parameters that takes further arguments. -/
def variadic (parameters : List String) (build : Binding → Built Node) : Builder :=
  ⟨{ positional := parameters, variadic := true }, build⟩

/-- The builders of expressions. -/
def expressions : List (String × Builder) :=
  [("identifier", plain ["name"] fun a => identifier <$> (a.get "name").name),
    ("literal", plain ["value"] fun a => (a.get "value").literal),
    ("member", plain ["obj", "name"] fun a => do
      let name ← (a.get "name").name
      return member (← (a.get "obj").nodeAt ["object"]) name),
    ("call", variadic ["callee"] fun a =>
      Built.checked
        (Checked.both call ((a.get "callee").nodeIn ["callee"]) (a.nodes "arguments"))),
    ("array", plain ["elements"] fun a => do
      let elements ← (a.get "elements").items
      arrayOf <$> Built.checked (Argument.eachIn Argument.orNullIn "elements" elements)),
    ("property_key", plain ["name"] fun a => (a.get "name").propertyKey),
    ("object_property", plain ["name", "value"] fun a => do
      let key ← (a.get "name").propertyKey
      return propertyOf key (← (a.get "value").nodeAt ["value"])),
    ("object_expression", ⟨{ positional := ["properties"], required := 0 }, fun a => do
      match a.get? "properties" with
      | none => return objectOf []
      | some (.record members) =>
          return object (← members.mapM fun (name, value) => do
            return (name, ← value.nodeAt ["value"]))
      | some list =>
          let properties ← list.items
          objectOf <$> Built.checked (Argument.eachIn Argument.nodeIn "properties" properties)⟩),
    ("static_property", plain ["name", "value"] fun a => do
      let name ← (a.get "name").name
      return staticMember name (← Built.checked ((a.get "value").orNullIn ["value"]))),
    ("assign", plain ["left", "right"] fun a =>
      Built.checked
        (Checked.both assign ((a.get "left").nodeIn ["left"])
          ((a.get "right").nodeIn ["right"]))),
    ("statement", plain ["expression"] fun a =>
      statement <$> (a.get "expression").nodeAt ["expression"]),
    ("generic_call", variadic ["callee", "type_argument"] fun a => do
      let callee ← (a.get "callee").name
      let type ← (a.get "type_argument").nodeAt ["params", "0"]
      return genericCall callee type (← Built.checked (a.nodes "arguments"))),
    ("json_value", plain ["value"] fun a => ofJson <$> (a.get "value").data)]

/-- The builders of types. -/
def types : List (String × Builder) :=
  [("ts_keyword", plain ["name"] fun a => (a.get "name").keyword),
    ("ts_ref", variadic ["name"] fun a => do
      let arguments ← Built.checked (a.nodes "params")
      return reference (← (a.get "name").name) arguments),
    ("ts_union", variadic [] fun a => union <$> Built.checked (a.nodes "types")),
    ("ts_intersection", variadic [] fun a => intersection <$> Built.checked (a.nodes "types")),
    ("ts_array", plain ["element"] fun a =>
      arrayType <$> (a.get "element").nodeAt ["element_type"]),
    ("ts_literal", plain ["value"] fun a => literalType <$> (a.get "value").literal),
    ("ts_prop", ⟨{ positional := ["name", "type_node", "optional"], required := 2 }, fun a => do
      let key ← (a.get "name").propertyKey
      let type ← (a.get "type_node").nodeAt ["type_annotation"]
      let optional ← match a.get? "optional" with
        | some flag => Built.checked (flag.flagIn ["optional"])
        | none => pure false
      return propertySignatureOf key type optional⟩),
    ("ts_type_literal", variadic [] fun a => typeLiteral <$> Built.checked (a.nodes "members"))]

/-- The builders of declarations, classes and modules. -/
def declarations : List (String × Builder) :=
  [("ts_interface",
      ⟨{ positional := ["name"], variadic := true, named := ["extends", "type_params"] },
        fun a => do
          let parents ← ((a.get? "extends").map Argument.names).getD (pure [])
          let name ← (a.get "name").name
          let parameters ← ((a.get? "type_params").map Argument.parameters).getD (pure [])
          let members ← Built.checked (a.nodes "body")
          return interfaceDeclaration name members parents parameters⟩),
    ("ts_alias",
      ⟨{ positional := ["name", "type_node", "type_params"], required := 2 }, fun a => do
        let name ← (a.get "name").name
        let parameters ← ((a.get? "type_params").map Argument.parameters).getD (pure [])
        return typeAlias name (← (a.get "type_node").nodeAt ["type_annotation"]) parameters⟩),
    ("ts_enum", plain ["name", "members"] fun a => do
      let members ← (a.get "members").enumMembers
      let name ← (a.get "name").name
      return enumDeclaration name (← members.mapM Argument.enumMember)),
    ("class_declaration",
      ⟨{ positional := ["name", "props_type"], required := 1, variadic := true,
         named := ["superclass"] },
        fun a => do
          let propsType ← match a.get? "props_type" with
            | none | some (.constant .null) => pure none
            | some type => some <$> type.nodeAt ["params", "0"]
          let name ← (a.get "name").name
          let superclass ← ((a.get? "superclass").map Argument.name).getD (pure "Component")
          let body ← Built.checked (a.nodes "body")
          return classDeclaration name propsType body superclass⟩),
    ("program", variadic [] fun a => program <$> Built.checked (a.nodes "body"))]

/-- All builders by their names. -/
def all : List (String × Builder) :=
  expressions ++ types ++ declarations

/-- Run the builder of a name. -/
def run (name : String) (builder : Builder) (positional : List Argument)
    (named : List (String × Argument)) : Built Node := do
  let binding ← (builder.signature.bind positional named).mapError (.misfit name)
  builder.build binding

end Builder

namespace Recipe

/-- The items of an argument that is a list. -/
def listed : Argument → List Argument
  | .list items => items
  | _ => []

/-- The members of an argument that is a record. -/
def recorded : Argument → List (String × Argument)
  | .record members => members
  | _ => []

/-- All outcomes, if none is an error. -/
def together {α : Type} (outcomes : List (String × Built α)) : Built (List (String × α)) :=
  outcomes.mapM fun outcome => do return (outcome.1, ← outcome.2)

/-- What an object asks for, given what its members stand for. -/
def requested (members : List (String × Json)) (outcomes : List (String × Built Argument)) :
    Built Argument :=
  match (Json.object members).get? "fn" with
  | some (.string name) =>
      match Builder.all.lookup name with
      | none => .error (.unknown name)
      | some builder => do
          let positional ← ((outcomes.lookup "args").map (listed <$> ·)).getD (pure [])
          let named ← ((outcomes.lookup "kwargs").map (recorded <$> ·)).getD (pure [])
          .node <$> builder.run name positional named
  | _ => .record <$> together outcomes

mutual

/-- What a recipe stands for. -/
def evaluate : Json → Built Argument
  | .array items => .list <$> evaluateItems items
  | .object members => requested members (evaluateMembers members)
  | constant => .ok (.constant constant)
termination_by structural recipe => recipe

/-- What the items of a list stand for. -/
def evaluateItems : List Json → Built (List Argument)
  | [] => .ok []
  | item :: items => do
      let first ← evaluate item
      let others ← evaluateItems items
      return first :: others
termination_by structural items => items

/-- What the members of an object stand for, each with its own outcome. -/
def evaluateMembers : List (String × Json) → List (String × Built Argument)
  | [] => []
  | (key, value) :: members => (key, evaluate value) :: evaluateMembers members
termination_by structural members => members

end

end Recipe

end PropValidators.Ast
