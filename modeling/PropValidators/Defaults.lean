import PropValidators.Ast.Members
import PropValidators.Ast.Place
import PropValidators.Ast.Source
import PropValidators.Traced

/-!
# Props with defaults

The props that a component supplies defaults for: those of the static defaults object
of a class, and those of the objects assigned to the defaults property of a component
anywhere in a module.
-/

namespace PropValidators

open Ast

/-- The names in order of their code points, each once. -/
def sortedNames (names : List String) : List String :=
  (names.eraseDups).mergeSort fun a b => a ≤ b

/-- Whether a class member is the static property of a name. -/
def isStaticProperty (name : String) (member : Node) : Bool :=
  member.kind == .classProperty && member.flag "static" && member.propertyName? == some name

/-- The first static property of a class with a plain name. -/
def staticProperty? (classNode : Node) (name : String) : Except Fault (Option Node) :=
  classNode.members.map fun members => members.find? (isStaticProperty name)

/-- The value of a static property, if it has one. -/
def staticValue? (declared : Option Node) : Option Node :=
  declared.bind fun declared => declared.child? "value"

/-- The plain keys of the properties of an object literal. -/
def objectKeys (object : Node) : List String :=
  ((object.children "properties").filter fun p => p.kind == .objectProperty).filterMap
    Node.propertyName?

/-- The fault of collecting the plain keys of an object literal. -/
def objectKeysFault? (object : Node) : Option Fault :=
  ((object.children "properties").filter fun p => p.kind == .objectProperty).findSome?
    Node.propertyFault?

/-- The props with a default in the static defaults object of a class. -/
def classDefaults (property : String) (classNode : Node) : Traced (List String) := do
  match staticValue? (← Traced.ofExcept (staticProperty? classNode property)) with
  | none => return []
  | some value =>
      if value.kind = .objectExpression then do
        Traced.check (objectKeysFault? value)
        let names := sortedNames (objectKeys value)
        Traced.note (.defaultsDeclared names)
        return names
      else return []

/-- What an assignment to a plain property of a name is about: the node whose property is
assigned, and the value. -/
def assignedTo? (property : String) (n : Node) : Option (Node × Node) :=
  if n.kind = .assignmentExpression ∧ n.textOr "operator" "=" = "=" then
    match n.child? "left", n.child? "right" with
    | some left, some right =>
        let target := (left.child? "property").filter fun p => p.kind == .identifier
        if left.kind = .memberExpression ∧ left.flag "computed" = false ∧
            target.bind (·.text? "name") = some property then
          (left.child? "object").map fun object => (object, right)
        else none
    | _, _ => none
  else none

/-- The object literal that an assignment gives to the property of a component whose
source text is given. -/
def assignedObject? (property component : String) (n : Node) : Option Node :=
  match assignedTo? property n with
  | some (object, value) =>
      if object.source 0 = component ∧ value.kind = .objectExpression then some value else none
  | none => none

/-- The fault of collecting what an assignment gives to the property of a component. -/
def assignmentFault? (property component : String) (n : Node) : Option Fault :=
  ((assignedTo? property n).bind fun (object, _) => object.sourceFault?) <|>
    (assignedObject? property component n).bind objectKeysFault?

/-- The props with a default in an object assigned to the defaults property of a
component, which is given by its source text. -/
def assignedDefaults (property : String) (root : Node) (component : String) :
    Traced (List String) := do
  Traced.check (root.walk.findSome? (assignmentFault? property component))
  let objects := root.walk.filterMap (assignedObject? property component)
  let names := sortedNames (objects.flatMap objectKeys)
  if !names.isEmpty then
    Traced.note (.defaultsAssigned component names)
  return names

end PropValidators
