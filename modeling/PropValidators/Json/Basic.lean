import PropValidators.Number.Reader

/-!
# JSON values

JSON values with the order of object members kept and with integers and binary64
numbers told apart.
-/

namespace PropValidators

/-- A JSON value.  Members of an object stand in the order of the text. -/
inductive Json where
  | null
  | bool (value : Bool)
  | number (value : Number)
  | string (value : String)
  | array (items : List Json)
  | object (members : List (String × Json))

instance : Inhabited Json := ⟨.null⟩

namespace Json

/-- The value of a member of an object. -/
def get? : Json → String → Option Json
  | .object members, key => (members.find? (fun member => member.1 == key)).map Prod.snd
  | _, _ => none

/-- The string a value is, if it is one. -/
def string? : Json → Option String
  | .string s => some s
  | _ => none

/-- The name of the kind of a value in messages. -/
def kindName : Json → String
  | .null => "NoneType"
  | .bool _ => "bool"
  | .number (.int _) => "int"
  | .number (.float _) => "float"
  | .string _ => "str"
  | .array _ => "list"
  | .object _ => "dict"

/-- Whether a value counts as true: neither null, nor false, nor zero, nor empty. -/
def isTrue : Json → Bool
  | .null => false
  | .bool b => b
  | .number n => !n.equals (.int 0)
  | .string s => s != ""
  | .array items => !items.isEmpty
  | .object members => !members.isEmpty

/-- The number that a constant counts as: a truth value counts as zero or one. -/
def number? : Json → Option Number
  | .bool b => some (.int (if b then 1 else 0))
  | .number n => some n
  | _ => none

/-- Equality of constants: of texts, of null, and of what counts as a number. -/
def equalConstants (a b : Json) : Bool :=
  match a, b with
  | .null, .null => true
  | .string s, .string t => s == t
  | _, _ =>
      match a.number?, b.number? with
      | some m, some n => m.equals n
      | _, _ => false

mutual

/-- Whether a value holds an integer with too many digits for a text. -/
def isUnwritable : Json → Bool
  | .number n => n.isUnwritable
  | .array items => anyUnwritable items
  | .object members => anyUnwritableMember members
  | _ => false
termination_by structural value => value

/-- Whether some item holds an integer with too many digits for a text. -/
def anyUnwritable : List Json → Bool
  | [] => false
  | item :: items => item.isUnwritable || anyUnwritable items
termination_by structural items => items

/-- Whether some member holds an integer with too many digits for a text. -/
def anyUnwritableMember : List (String × Json) → Bool
  | [] => false
  | (_, value) :: members => value.isUnwritable || anyUnwritableMember members
termination_by structural members => members

end

mutual

/-- Equality of values.  The order of members does not matter. -/
def equals : Json → Json → Bool
  | .array items, .array others => equalItems items others
  | .object members, .object others =>
      members.length == others.length && equalMembers members others
  | a, b => equalConstants a b
termination_by structural a => a

/-- Equality of items in order. -/
def equalItems : List Json → List Json → Bool
  | [], [] => true
  | a :: as, b :: bs => a.equals b && equalItems as bs
  | _, _ => false
termination_by structural items => items

/-- Whether others have each of the members. -/
def equalMembers : List (String × Json) → List (String × Json) → Bool
  | [], _ => true
  | (key, value) :: members, others =>
      (match get? (.object others) key with
        | some other => value.equals other
        | none => false) && equalMembers members others
termination_by structural members => members

end

end Json

end PropValidators
