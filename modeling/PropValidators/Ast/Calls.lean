import PropValidators.Ast.Place
import PropValidators.Ast.Names
import PropValidators.Fault

/-!
# Calls of a helper

Finding the calls of a named function in a tree, reading the options object of a
call, and putting an expression in the place of a call.
-/

namespace PropValidators.Ast

/-- A call and where it sits. -/
structure CallSite where
  /-- The place of the parent. -/
  parent : Place
  /-- The parent. -/
  holder : Node
  /-- The slot under the parent. -/
  slot : Slot
  call : Node

namespace Node

/-- Whether a node calls the function with the given name. -/
def calls (n : Node) (callee : String) : Bool :=
  n.kind == .callExpression &&
    match n.child? "callee" with
    | some f => f.kind == .identifier && f.text? "name" == some callee
    | none => false

/-- The calls of a function in a tree, in the order of their parents. -/
def findCalls (root : Node) (callee : String) : List CallSite :=
  (root.places []).flatMap fun (place, parent) =>
    (parent.slots.filter fun (_, child) => child.calls callee).map fun (slot, child) =>
      ⟨place, parent, slot, child⟩

/-- The value that an object literal gives for a plain key, by its first property
with that key. -/
def propertyValue? (options : Node) (name : String) : Option Node :=
  if options.kind = .objectExpression then
    (((options.children "properties").find? fun p =>
      p.kind == .objectProperty && p.propertyName? == some name).bind fun p => p.child? "value")
  else none

/-- The item at a position in what is passed to a call, if there are so many; a negative
position counts from the end and must not lie before the first item. -/
def itemAt {α : Type} (items : List α) (position : Int) (missing : Fault) :
    Except Fault (Option α) :=
  let index := if position < 0 then position + items.length else position
  if index < 0 then .error missing else .ok items[index.toNat]?

/-- The argument at a position of a call, or of any other node with arguments, if it is a
node. -/
def argument? (call : Node) (position : Int) : Except Fault (Option Node) :=
  match call.held? (call.kind.nameOf "arguments") with
  | none => .error (.absent "arguments")
  | some (.list arguments) => do
      return (← itemAt arguments position .outOfRange).bind Value.node?
  | some (.node n) => .error (.misused .measured n.kind.modelName)
  | some (.data (.string s)) => do
      let _ ← itemAt s.toList position .outOfText
      return none
  | some (.data (.object members)) =>
      if members.length ≤ position then .ok none
      else .error (.noKey (Number.intText position))
  | some (.data constant) => .error (.misused .measured constant.kindName)

/-- The value of an option in the object literal at a position among the arguments
of a call. -/
def option? (call : Node) (name : String) (position : Int) : Except Fault (Option Node) := do
  return (← call.argument? position).bind fun options => options.propertyValue? name

end Node

/-- The slot that is written when something is put in the place of a call: it is found by
the reported position of the call, where a declared field goes before an unknown one with
its label as key. -/
def CallSite.writtenSlot (site : CallSite) : Except Fault Slot :=
  site.holder.slotAt (site.holder.kind.labelOf site.slot.field) (site.slot.index.map Int.ofNat)

end PropValidators.Ast
