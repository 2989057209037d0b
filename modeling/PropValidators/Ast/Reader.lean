import PropValidators.Ast.Node
import PropValidators.Number.Reader

/-!
# Reading syntax trees

A JSON value is a node when it is an object with a string under `type`.  Its kind
says which fields it must and may have and what they hold.  A declared field is
found under its key, or under its label when the key is absent; when both are
there, the one under the label counts as unknown.  All declared fields are checked
and every fault is reported with the place where it was found.  A place is reported by
tags and keys; besides it, every value has an address of indices, by which the texts of
literals that write no number are told apart.

Only when the declared fields are sound are the unknown fields read, in order: any
object with a string under `type` must be a sound node, in lists too, and all else
is kept as it is.  The first unsound node among them ends the reading.
-/

namespace PropValidators.Ast

/-- What may be wrong at a place in a tree. -/
inductive Problem where
  /-- A required field is absent. -/
  | missing
  /-- A node is needed: an object with a string as its type. -/
  | noNode
  | notString
  | notList
  /-- A body is needed: an object. -/
  | notBody
  /-- A body has the type of something else. -/
  | wrongType
  | notFlag
  /-- A value of a kind that can say true or false, but says neither. -/
  | unclearFlag
  | notInteger
  | notDecimal
  /-- A text that writes no integer. -/
  | unclearInteger
  /-- A text that writes no integer, and starts with too many digits for one. -/
  | overlongInteger
  /-- A text that writes no decimal. -/
  | unclearDecimal
deriving DecidableEq, Repr

/-- The name of a problem in reports. -/
def Problem.name : Problem → String
  | .missing => "missing"
  | .noNode => "union_tag_not_found"
  | .notString => "string_type"
  | .notList => "list_type"
  | .notBody => "model_type"
  | .wrongType => "literal_error"
  | .notFlag => "bool_type"
  | .unclearFlag => "bool_parsing"
  | .notInteger => "int_type"
  | .notDecimal => "float_type"
  | .unclearInteger => "int_parsing"
  | .overlongInteger => "int_parsing_size"
  | .unclearDecimal => "float_parsing"

/-- A problem and the place where it was found: tags of nodes, keys and indices
from the root down. -/
structure Issue where
  place : List String
  problem : Problem
deriving DecidableEq, Repr

namespace Issue

/-- The same issue seen from further up. -/
def under (step : String) (issue : Issue) : Issue :=
  { issue with place := step :: issue.place }

/-- The text of an issue. -/
def message (issue : Issue) : String :=
  ".".intercalate issue.place ++ ": " ++ issue.problem.name

/-- The text of a list of issues. -/
def report (issues : List Issue) : String :=
  "; ".intercalate (issues.map message)

end Issue

/-- The outcome of reading: a result, or what is wrong. -/
abbrev Checked (α : Type) := Except (List Issue) α

namespace Checked

/-- A single problem at the current place. -/
def fail {α : Type} (problem : Problem) : Checked α := .error [⟨[], problem⟩]

/-- Place the issues of an outcome under a step. -/
def under {α : Type} (step : String) (outcome : Checked α) : Checked α :=
  outcome.mapError (·.map (Issue.under step))

/-- Both outcomes, with the issues of both. -/
def both {α β γ : Type} (combine : α → β → γ) : Checked α → Checked β → Checked γ
  | .ok a, .ok b => .ok (combine a b)
  | .ok _, .error issues => .error issues
  | .error issues, .ok _ => .error issues
  | .error issues, .error more => .error (issues ++ more)

end Checked

/-- The truth value that a whole number stands for.  Only integers of 64 bits are
looked at. -/
def flagOfInt (n : Int) : Checked Bool :=
  if n = 0 then .ok false
  else if n = 1 then .ok true
  else if -Int.pow 2 63 ≤ n ∧ n < Int.pow 2 63 then Checked.fail .unclearFlag
  else Checked.fail .notFlag

/-- The truth value that a binary64 number stands for.  The least integer of 64 bits is
beyond the numbers that are looked at. -/
def flagOfFloat (x : Binary64) : Checked Bool :=
  match x.whole? with
  | some n => if n = -Int.pow 2 63 then Checked.fail .notFlag else flagOfInt n
  | none => Checked.fail .notFlag

/-- The words for false and true. -/
def flagWords : List (String × Bool) :=
  [("0", false), ("off", false), ("f", false), ("false", false), ("n", false), ("no", false),
    ("1", true), ("on", true), ("t", true), ("true", true), ("y", true), ("yes", true)]

/-- Read a truth value: a constant, one of the numbers zero and one, or a word for
either in any case. -/
def readFlag : Json → Checked Bool
  | .bool b => .ok b
  | .number (.int n) => flagOfInt n
  | .number (.float x) => flagOfFloat x
  | .string s =>
      match flagWords.lookup (String.ofList (s.toList.map Char.toLower)) with
      | some b => .ok b
      | none => Checked.fail .unclearFlag
  | _ => Checked.fail .notFlag

/-- Where a value stands in what is read: indices of items and members from the value up
to the root, and last the number of the document. -/
abbrev Address := List Nat

/-- Read a number: a number, a truth value as zero or one, or the text of a
number. -/
def readNumber (address : Address) : Json → Checked Number
  | .number n => .ok n
  | .bool b => .ok (.int (if b then 1 else 0))
  | .string s =>
      match Number.literal? s with
      | some n => .ok (n.located address)
      | none =>
          let problem : Problem :=
            if Number.startsOverlong s.toList then .overlongInteger else .unclearInteger
          .error [⟨["int"], problem⟩, ⟨["float"], .unclearDecimal⟩]
  | _ => .error [⟨["int"], .notInteger⟩, ⟨["float"], .notDecimal⟩]

/-- Read a string. -/
def readText : Json → Checked String
  | .string s => .ok s
  | _ => Checked.fail .notString

/-- What a member of a node object is. -/
inductive Member where
  /-- A declared field, by its key, with the key under which it was found. -/
  | declared (key found : String) (value : Checked Value)
  /-- An unknown field. -/
  | unknown (key : String) (value : Checked Value)

/-- The declared field that a member of an object with the given keys is read as,
if it is one. -/
def specFor? (kind : Kind) (keys : List String) (key : String) : Option FieldSpec :=
  match kind.specOfKey? key with
  | some spec => some spec
  | none => (kind.specOfLabel? key).filter fun spec => !keys.contains spec.key

/-- The member that is read as a declared field: the key under which it was found, and
what it holds. -/
def declaredMember? (members : List Member) (key : String) : Option (String × Checked Value) :=
  members.findSome? fun member =>
    match member with
    | .declared own found value => if own = key then some (found, value) else none
    | .unknown _ _ => none

/-- The declared fields among the members, in the order of the kind, or all that
is wrong with them. -/
def declaredFields (members : List Member) :
    List FieldSpec → Checked (List (FieldName × Value))
  | [] => .ok []
  | spec :: specs =>
      let field : Checked (List (FieldName × Value)) :=
        match declaredMember? members spec.key with
        | some (found, value) =>
            (Checked.under found value).map fun v => [(.declared spec.key, v)]
        | none =>
            if spec.type.required then .error [⟨[spec.key], .missing⟩] else .ok []
      Checked.both (· ++ ·) field (declaredFields members specs)

/-- The unknown fields among the members, or the issues of the first unsound
one. -/
def unknownFields : List Member → Checked (List (FieldName × Value))
  | [] => .ok []
  | .declared _ _ _ :: members => unknownFields members
  | .unknown key value :: members => do
      let v ← value
      return (.unknown key, v) :: (← unknownFields members)

/-- A node from its type and the members of its object. -/
def assemble (type : String) (kind : Kind) (members : List Member) : Checked Node := do
  let declared ← declaredFields members kind.fields
  let unknown ← unknownFields members
  return ⟨type, declared ++ unknown⟩

/-- The type that the members of an object name. -/
def typeOf? (members : List (String × Json)) : Option String :=
  (Json.get? (.object members) "type").bind Json.string?

/-- The keys of the members of an object. -/
def keysOf (members : List (String × Json)) : List String :=
  members.map Prod.fst

/-- A node from the members of its object, which are read once its kind is
known. -/
def nodeOf (members : List (String × Json)) (read : Kind → List Member) : Checked Node :=
  match typeOf? members with
  | none => Checked.fail .noNode
  | some type =>
      let kind := Kind.ofType type
      Checked.under kind.tag (assemble type kind (read kind))

/-- The body of a class or interface from the members of its object.  The type may
be left out; all declared fields are checked even if it is wrong. -/
def bodyOf (kind : Kind) (members : List (String × Json)) (read : List Member) :
    Checked Node := do
  let type : Checked Unit :=
    match Json.get? (.object members) "type" with
    | none => .ok ()
    | some json =>
        if json.string? = some kind.tag then .ok () else .error [⟨["type"], .wrongType⟩]
  let declared ← Checked.both (fun _ fields => fields) type (declaredFields read kind.fields)
  let unknown ← unknownFields read
  return ⟨kind.tag, declared ++ unknown⟩

/-- A field that holds a constant. -/
def readConstant (address : Address) (type : FieldType) (json : Json) : Checked Value :=
  match type with
  | .node | .optionalNode => Checked.fail .noNode
  | .nodes | .optionalNodes | .elements => Checked.fail .notList
  | .text | .optionalText _ => (readText json).map .text
  | .flag | .optionalFlag => (readFlag json).map .flag
  | .number => (readNumber address json).map fun n => .data (.number n)
  | .name =>
      match json.string? with
      | some s => .ok (.text s)
      | none => .error [⟨["str"], .notString⟩, ⟨["Node"], .noNode⟩]
  | .body _ => Checked.fail .notBody

mutual

/-- Read a node. -/
def readNode (address : Address) : Json → Checked Node
  | .object members =>
      nodeOf members fun kind => readMembers address 0 kind (keysOf members) members
  | _ => Checked.fail .noNode
termination_by structural json => json

/-- Read the value of a declared field. -/
def readField (address : Address) (type : FieldType) : Json → Checked Value
  | .object members =>
      match type with
      | .node | .optionalNode =>
          (nodeOf members fun kind =>
            readMembers address 0 kind (keysOf members) members).map .node
      | .name =>
          match nodeOf members fun kind =>
            readMembers address 0 kind (keysOf members) members with
          | .ok n => .ok (.node n)
          | .error issues =>
              .error (⟨["str"], .notString⟩ :: issues.map (Issue.under "Node"))
      | .body kind =>
          (bodyOf kind members (readMembers address 0 kind (keysOf members) members)).map .node
      | _ => readConstant address type (.object members)
  | .array items =>
      match type with
      | .nodes | .optionalNodes => (readNodes address 0 items).map .list
      | .elements => (readElements address 0 items).map .list
      | _ => readConstant address type (.array items)
  | .null =>
      match type with
      | .optionalNode | .optionalNodes => .ok .null
      | _ => readConstant address type .null
  | json => readConstant address type json
termination_by structural json => json

/-- Read a list of nodes, the first of which has the given index. -/
def readNodes (address : Address) (index : Nat) : List Json → Checked (List Value)
  | [] => .ok []
  | item :: items =>
      Checked.both (fun n ns => .node n :: ns)
        (Checked.under (Number.digitsText index) (readNode (index :: address) item))
        (readNodes address (index + 1) items)
termination_by structural items => items

/-- Read a list of nodes and holes. -/
def readElements (address : Address) (index : Nat) : List Json → Checked (List Value)
  | [] => .ok []
  | .null :: items => (readElements address (index + 1) items).map (.null :: ·)
  | item :: items =>
      Checked.both (fun n ns => .node n :: ns)
        (Checked.under (Number.digitsText index) (readNode (index :: address) item))
        (readElements address (index + 1) items)
termination_by structural items => items

/-- Read the members of a node object, given all its keys.  The first of them has the
given index.  The type is not among the fields. -/
def readMembers (address : Address) (index : Nat) (kind : Kind) (keys : List String) :
    List (String × Json) → List Member
  | [] => []
  | (key, json) :: members =>
      let rest := readMembers address (index + 1) kind keys members
      if key = "type" then rest
      else
        match specFor? kind keys key with
        | some spec =>
            .declared spec.key key (readField (index :: address) spec.type json) :: rest
        | none => .unknown key (readLoose (index :: address) json) :: rest
termination_by structural members => members

/-- Read the value of an unknown field. -/
def readLoose (address : Address) : Json → Checked Value
  | .object members =>
      match typeOf? members with
      | none => .ok (.data (.object members))
      | some _ =>
          (nodeOf members fun kind =>
            readMembers address 0 kind (keysOf members) members).map .node
  | .array items => (readLooseItems address 0 items).map .list
  | json => .ok (.data json)
termination_by structural json => json

/-- Read the items of a list in an unknown field, the first of which has the given
index. -/
def readLooseItems (address : Address) (index : Nat) : List Json → Checked (List Value)
  | [] => .ok []
  | item :: items => do
      let v ← readLoose (index :: address) item
      return v :: (← readLooseItems address (index + 1) items)
termination_by structural items => items

end

/-- The node that a document holds.  Documents that are read together have different
numbers. -/
def readDocument (number : Nat) (json : Json) : Checked Node :=
  readNode [number] json

end PropValidators.Ast
