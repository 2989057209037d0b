import PropValidators.Ast.Node
import PropValidators.Fault

/-!
# Members of classes and interfaces

A class or an interface holds its members in a body, which is a node of its own.  In a
tree that has been changed any node may stand where the body was; it has members if it
has a field for them.
-/

namespace PropValidators.Ast.Node

/-- What is met in going through a field.  Constants that are neither texts nor objects
cannot be gone through. -/
def itemsIn (n : Node) (name : FieldName) : Except Fault (List Value) :=
  match n.held? name with
  | none => .error (.absent name.key)
  | some value =>
      match value.loneConstant? with
      | some constant => .error (.misused .iterated constant.kindName)
      | none => .ok value.items

/-- The nodes that are met in going through a field. -/
def nodesIn (n : Node) (name : FieldName) : Except Fault (List Node) :=
  (n.itemsIn name).map fun items => items.filterMap Value.node?

/-- The field of a body for the members. -/
def memberField (body : Node) : FieldName :=
  body.kind.nameOf "body"

/-- The members in a body. -/
def bodyMembers (body : Node) : Except Fault (List Node) :=
  body.nodesIn body.memberField

/-- The members of a class or an interface. -/
def members (n : Node) : Except Fault (List Node) :=
  match n.held? n.memberField with
  | some (.node body) => body.bodyMembers
  | _ => .error (.absent "body")

/-- A body with its list of members changed, if there is one. -/
def modifyItems? (change : List Value → List Value) (body : Node) : Option Node :=
  match body.held? body.memberField with
  | some (.list items) => some (body.setField body.memberField (.list (change items)))
  | _ => none

/-- A class or an interface with its list of members changed, if there is one. -/
def modifyMembers? (change : List Value → List Value) (n : Node) : Option Node :=
  match n.held? n.memberField with
  | some (.node body) =>
      (body.modifyItems? change).map fun body => n.setField n.memberField (.node body)
  | _ => none

end PropValidators.Ast.Node
