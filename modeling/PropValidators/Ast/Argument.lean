import PropValidators.Ast.Reader
import PropValidators.Ast.Writer
import PropValidators.Fault

/-!
# Arguments of builders

A builder makes a node from arguments, which are nodes or plain data in any mixture.  It has
parameters that are taken by position or by name, some of which may be left out, and it may
take further arguments by position.  Binding finds the argument of every parameter, or says
why the arguments do not fit.
-/

namespace PropValidators.Ast

/-- An argument of a builder. -/
inductive Argument where
  | node (n : Node)
  /-- Null, a truth value, a number or a string. -/
  | constant (json : Json)
  | list (items : List Argument)
  | record (members : List (String × Argument))

/-- Why arguments do not fit the parameters of a builder. -/
inductive Misfit where
  /-- There is no parameter of a name. -/
  | unexpected (name : String)
  /-- A parameter is given twice. -/
  | repeated (name : String)
  /-- More arguments are given by position than parameters are taken. -/
  | tooMany (least most given : Nat)
  /-- Parameters that may not be left out have no arguments. -/
  | missing (names : List String)
deriving DecidableEq, Repr

/-- Names joined by commas and a conjunction. -/
def enumerated : List String → String
  | [] => ""
  | [name] => name
  | [first, last] => first ++ " and " ++ last
  | names =>
      ", ".intercalate names.dropLast ++ ", and " ++ (names.getLast?.getD "")

/-- The ending of a noun that counts things. -/
def pluralEnding (count : Nat) : String :=
  if count = 1 then "" else "s"

/-- What is wrong with the arguments of a builder. -/
def Misfit.message (builder : String) : Misfit → String
  | .unexpected name =>
      builder ++ "() got an unexpected keyword argument " ++ "'" ++ name ++ "'"
  | .repeated name => builder ++ "() got multiple values for argument '" ++ name ++ "'"
  | .tooMany least most given =>
      let taken :=
        if least = most then
          Number.digitsText most ++ " positional argument" ++ pluralEnding most
        else
          "from " ++ Number.digitsText least ++ " to " ++ Number.digitsText most ++
            " positional arguments"
      builder ++ "() takes " ++ taken ++ " but " ++ Number.digitsText given ++
        (if given = 1 then " was given" else " were given")
  | .missing names =>
      builder ++ "() missing " ++ Number.digitsText names.length ++
        " required positional argument" ++ pluralEnding names.length ++ ": " ++
        enumerated (names.map fun name => "'" ++ name ++ "'")

/-- Why a node could not be built. -/
inductive BuildError where
  /-- There is no builder of a name. -/
  | unknown (builder : String)
  /-- The arguments do not fit the parameters. -/
  | misfit (builder : String) (problem : Misfit)
  /-- The arguments do not suit the fields of the node. -/
  | malformed (issues : List Issue)
  /-- An argument does not allow a use. -/
  | fault (fault : Fault)
deriving DecidableEq, Repr

/-- An outcome of building. -/
abbrev Built (α : Type) := Except BuildError α

namespace Argument

/-- The name of the kind of an argument in messages. -/
def kindName : Argument → String
  | .node n => n.kind.modelName
  | .constant json => json.kindName
  | .list _ => "list"
  | .record _ => "dict"

mutual

/-- An argument as plain data, with nodes as they are written. -/
def toJson : Argument → Json
  | .node n => n.toJson
  | .constant json => json
  | .list items => .array (itemsToJson items)
  | .record members => .object (membersToJson members)
termination_by structural a => a

/-- The items of a list as plain data. -/
def itemsToJson : List Argument → List Json
  | [] => []
  | item :: items => item.toJson :: itemsToJson items
termination_by structural items => items

/-- The members of a record as plain data. -/
def membersToJson : List (String × Argument) → List (String × Json)
  | [] => []
  | (key, value) :: members => (key, value.toJson) :: membersToJson members
termination_by structural members => members

end

mutual

/-- Plain data.  A node is none. -/
def data : Argument → Built Json
  | .node n => .error (.fault (.misused .literal n.kind.modelName))
  | .constant json => .ok json
  | .list items => (dataOfItems items).map .array
  | .record members => (dataOfMembers members).map .object
termination_by structural a => a

/-- The items of a list as plain data. -/
def dataOfItems : List Argument → Built (List Json)
  | [] => .ok []
  | item :: items => do
      let first ← item.data
      let others ← dataOfItems items
      return first :: others
termination_by structural items => items

/-- The members of a record as plain data. -/
def dataOfMembers : List (String × Argument) → Built (List (String × Json))
  | [] => .ok []
  | (key, value) :: members => do
      let first ← value.data
      let others ← dataOfMembers members
      return (key, first) :: others
termination_by structural members => members

end

/-- What is met in going through an argument: the items of a list, the keys of a record, the
characters of a string, and the contents of a node as pairs. -/
def items : Argument → Built (List Argument)
  | .list items => .ok items
  | .record members => .ok (members.map fun member => .constant (.string member.1))
  | .constant (.string s) =>
      .ok (s.toList.map fun c => .constant (.string (String.singleton c)))
  | .constant json => .error (.fault (.misused .iterated json.kindName))
  | .node n =>
      .ok (n.contents.map fun field =>
        .list [.constant (.string field.1), .constant field.2.toJson])

/-- The node that an argument is, or that it holds as plain data. -/
def node? : Argument → Checked Node
  | .node n => .ok n
  | a => readDocument 0 a.toJson

/-- The node that an argument gives to a field. -/
def nodeIn (place : List String) (a : Argument) : Checked Node :=
  place.foldr Checked.under a.node?

/-- The text that an argument gives to a field. -/
def textIn (place : List String) (a : Argument) : Checked String :=
  place.foldr Checked.under (readText a.toJson)

/-- The truth value that an argument gives to a field. -/
def flagIn (place : List String) (a : Argument) : Checked Bool :=
  place.foldr Checked.under (readFlag a.toJson)

/-- The text or the node that an argument gives to a field. -/
def nameIn (field : String) (a : Argument) : Checked Value :=
  match a with
  | .constant (.string s) => .ok (.text s)
  | a =>
      match a.node? with
      | .ok n => .ok (.node n)
      | .error issues =>
          .error (⟨[field, "str"], .notString⟩ ::
            issues.map fun issue => (issue.under "Node").under field)

/-- The node or the null value that an argument gives to a field. -/
def orNullIn (place : List String) : Argument → Checked Value
  | .constant .null => .ok .null
  | a => (a.nodeIn place).map .node

/-- What arguments give to the items of a list in a field. -/
def eachIn {α : Type} (read : List String → Argument → Checked α) (field : String)
    (list : List Argument) : Checked (List α) :=
  list.zipIdx.foldr
    (fun (a, i) => Checked.both (· :: ·) (read [field, Number.digitsText i] a)) (.ok [])

end Argument

/-- The parameters of a builder. -/
structure Signature where
  /-- The parameters taken by position or by name. -/
  positional : List String := []
  /-- How many of them must not be left out. -/
  required : Nat := positional.length
  /-- Whether further arguments are taken by position. -/
  variadic : Bool := false
  /-- The parameters taken by name only, all of which may be left out. -/
  named : List String := []

/-- The arguments of parameters, and those beyond them. -/
structure Binding where
  values : List (String × Argument)
  others : List Argument

/-- Give a parameter an argument by its name. -/
def Signature.give (signature : Signature) (values : List (String × Argument))
    (argument : String × Argument) : Except Misfit (List (String × Argument)) :=
  if !(signature.positional ++ signature.named).contains argument.1 then
    .error (.unexpected argument.1)
  else if (values.lookup argument.1).isSome then .error (.repeated argument.1)
  else .ok (values ++ [argument])

/-- Bind parameters to arguments given by position and by name. -/
def Signature.bind (signature : Signature) (positional : List Argument)
    (named : List (String × Argument)) : Except Misfit Binding :=
  let taken := signature.positional.length
  match named.foldlM signature.give (signature.positional.zip positional) with
  | .error problem => .error problem
  | .ok values =>
      let missing := (signature.positional.take signature.required).filter fun name =>
        (values.lookup name).isNone
      if taken < positional.length ∧ signature.variadic = false then
        .error (.tooMany signature.required taken positional.length)
      else if missing = [] then .ok ⟨values, positional.drop taken⟩
      else .error (.missing missing)

end PropValidators.Ast
