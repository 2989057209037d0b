import PropValidators.Ast.Members
import PropValidators.Ast.Names
import PropValidators.Options
import PropValidators.Validator

/-!
# Merging validators into an object literal

What is written by hand wins: the properties of an existing object literal are
neither removed nor moved nor changed.  Entries are only added at the end, for props
that the object does not mention yet.  Methods and accessors count as mentions, since
a later property of the same name would take their place.

Any node can be merged into that has properties, not only an object literal.
-/

namespace PropValidators

open Ast

/-- Whether a node is a property or method of an object literal. -/
def isObjectMember (n : Node) : Bool :=
  n.kind == .objectProperty || n.kind == .objectMethod

/-- The field of a node for properties. -/
def propertyField (object : Node) : FieldName :=
  object.kind.nameOf "properties"

/-- What is met in going through the properties of a node. -/
def propertyItems (object : Node) : List Value :=
  ((object.held? (propertyField object)).map Value.items).getD []

/-- The plain names that a node declares by its properties. -/
def declaredNames (object : Node) : List String :=
  (((propertyItems object).filterMap Value.node?).filter isObjectMember).filterMap
    Node.propertyName?

/-- The fault of telling the names that a node declares. -/
def declarationFault? (object : Node) : Option Fault :=
  match object.nodesIn (propertyField object) with
  | .error fault => some fault
  | .ok properties => (properties.filter isObjectMember).findSome? Node.propertyFault?

/-- The entries for props that are not declared. -/
def missingEntries (declared : List String) (entries : List Entry) : List Entry :=
  entries.filter fun entry => !declared.contains entry.prop

/-- The property that an entry adds to an object literal. -/
def Entry.toProperty (library : String) (entry : Entry) : Node :=
  property entry.prop (entry.validator.toNode library)

/-- A node with further properties at its end. -/
def appendProperties (object : Node) (added : List Node) : Node :=
  object.setField (propertyField object) (.list (propertyItems object ++ added.map .node))

/-- Merge entries into an object literal, or into a new one. -/
def mergeEntries (library : String) (existing : Option Node) (entries : List Entry) : Node :=
  match existing with
  | none => objectOf (entries.map (Entry.toProperty library))
  | some object =>
      appendProperties object
        ((missingEntries (declaredNames object) entries).map (Entry.toProperty library))

end PropValidators
