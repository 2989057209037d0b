import PropValidators.Ast.Builder
import PropValidators.Proofs.Types.OfSound

/-!
# Expressions that are built

What is read off an expression is what it was built from: the elements of an array literal, the
names and values in an object literal, the argument of a call, and the value of a literal.  So
whatever is written as data is read back from its expression.
-/

namespace PropValidators

open Ast Node

@[simp]
theorem filterMap_node?_map_node (nodes : List Node) :
    (nodes.map Value.node).filterMap Value.node? = nodes := by
  induction nodes with
  | nil => rfl
  | cons n nodes ih => exact congrArg (n :: ·) ih

@[simp]
theorem children_array (elements : List Node) : (array elements).children "elements" = elements :=
  filterMap_node?_map_node elements

@[simp]
theorem children_objectOf (properties : List Node) :
    (objectOf properties).children "properties" = properties :=
  filterMap_node?_map_node properties

@[simp]
theorem children_call (callee : Node) (arguments : List Node) :
    (call callee arguments).children "arguments" = arguments :=
  filterMap_node?_map_node arguments

@[simp]
theorem literalValue?_literal (value : Literal) : literalValue? (literal value) = some value := by
  cases value <;> rfl

/-- The key that is written for a name is read back as the name. -/
@[simp]
theorem plainKey?_propertyKey (name : String) : (propertyKey name).plainKey? = some name := by
  rw [propertyKey]
  split <;> rfl

@[simp]
theorem propertyName?_property (name : String) (value : Node) :
    (property name value).propertyName? = some name :=
  plainKey?_propertyKey name

@[simp]
theorem child?_property (name : String) (value : Node) :
    (property name value).child? "value" = some value :=
  rfl

/-- Knowing that items are in a list makes no difference to reading all of them. -/
theorem mapM_attach_eq {α β : Type} {items : List α} {each : {a // a ∈ items} → Option β}
    (read : α → Option β) (eq : ∀ a, each a = read a.1) :
    items.attach.mapM each = items.mapM read := by
  conv_rhs => rw [← List.attach_map_subtype_val items, List.mapM_map]
  exact congrArg (items.attach.mapM ·) (funext eq)

/-- The same for something that may be there. -/
theorem bind_attach_eq {α β : Type} {optional : Option α}
    {each : {a // optional = some a} → Option β} (read : α → Option β)
    (eq : ∀ a, each a = read a.1) : optional.attach.bind each = optional.bind read := by
  cases optional with
  | none => rfl
  | some a => exact eq ⟨a, rfl⟩

/-- Things are read back one by one from what each of them is written as. -/
theorem mapM_map_eq_some {α β γ : Type} {things : List α} {write : α → β} {read : β → Option γ}
    {value : α → γ} (back : ∀ a ∈ things, read (write a) = some (value a)) :
    (things.map write).mapM read = some (things.map value) := by
  induction things with
  | nil => rfl
  | cons a things ih =>
      rw [List.forall_mem_cons] at back
      rw [List.map_cons, List.mapM_cons, back.1, ih back.2]
      rfl

/-- The value that an expression writes: null, a literal, or a list or an object of values. -/
def data? (n : Node) : Option Json :=
  match n.kind with
  | .nullLiteral => some .null
  | .arrayExpression =>
      let items := (n.children "elements").attach.mapM fun element => data? element.1
      items.map .array
  | .objectExpression =>
      let members := (n.children "properties").attach.mapM fun property => do
        let name ← property.1.propertyName?
        let value ← (property.1.child? "value").attach.bind fun value => data? value.1
        return (name, value)
      members.map .object
  | _ => (literalValue? n).map Literal.toJson
termination_by sizeOf n
decreasing_by
  · exact sizeOf_children element.2
  · exact (sizeOf_child? value.2).trans (sizeOf_children property.2)

/-- The name and the value that a property of an object literal writes. -/
def dataMember? (property : Node) : Option (String × Json) := do
  let name ← property.propertyName?
  let value ← (property.child? "value").bind data?
  return (name, value)

@[simp]
theorem data?_array (elements : List Node) :
    data? (array elements) = (elements.mapM data?).map .array := by
  have kindEq : (array elements).kind = .arrayExpression := rfl
  rw [data?, kindEq]
  dsimp only
  rw [mapM_attach_eq data? fun _ => rfl, children_array]

@[simp]
theorem data?_objectOf (properties : List Node) :
    data? (objectOf properties) = (properties.mapM dataMember?).map .object := by
  have kindEq : (objectOf properties).kind = .objectExpression := rfl
  have readMember : ∀ property : Node, (do
      let name ← property.propertyName?
      let value ← (property.child? "value").attach.bind fun value => data? value.1
      return (name, value)) = dataMember? property := by
    intro property
    rw [dataMember?, bind_attach_eq data? fun _ => rfl]
  rw [data?, kindEq]
  dsimp only
  rw [mapM_attach_eq dataMember? fun property => readMember property.1, children_objectOf]

@[simp]
theorem data?_literal (value : Literal) : data? (literal value) = some value.toJson := by
  cases value <;> rw [data?] <;> rfl

theorem dataMember?_property {name : String} {node : Node} {value : Json}
    (read : data? node = some value) : dataMember? (property name node) = some (name, value) := by
  rw [dataMember?, propertyName?_property, child?_property, Option.bind_some, read]
  rfl

mutual

/-- A value is read back from the expression that writes it. -/
theorem data?_ofJson : (json : Json) → data? (ofJson json) = some json
  | .null => by rw [data?]; rfl
  | .bool b => data?_literal (.truth b)
  | .number n => data?_literal (.number n)
  | .string s => data?_literal (.text s)
  | .array items => by rw [ofJson, data?_array, mapM_ofItems items, Option.map_some]
  | .object members => by
      rw [ofJson, data?_objectOf, mapM_ofMembers members, Option.map_some]

private theorem mapM_ofItems : (items : List Json) → (ofItems items).mapM data? = some items
  | [] => rfl
  | item :: items => by
      rw [ofItems, List.mapM_cons, data?_ofJson item, mapM_ofItems items]
      rfl

private theorem mapM_ofMembers :
    (members : List (String × Json)) → (ofMembers members).mapM dataMember? = some members
  | [] => rfl
  | (name, value) :: members => by
      rw [ofMembers, List.mapM_cons, dataMember?_property (data?_ofJson value),
        mapM_ofMembers members]
      rfl

end

end PropValidators
