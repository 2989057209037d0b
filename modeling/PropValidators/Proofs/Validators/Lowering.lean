import PropValidators.Proofs.Syntax.Expressions
import PropValidators.Proofs.Validators.OfShape

/-!
# Validators read back from expressions

The expression of a validator can be read: the check that is reached through the library says
which validator it is, and the argument of the check says the rest.  Whatever is made from a shape
whose objects have different names in them is read back as it was, so that no two validators have
the same expression.
-/

namespace PropValidators

open Ast Node

/-- All run-time kinds. -/
def PrimitiveKind.all : List PrimitiveKind :=
  [.string, .number, .boolean, .function, .object, .symbol, .node, .element]

/-- The name that a member access ends in. -/
def accessed? (n : Node) : Option String :=
  (n.child? "property").bind fun key => key.keyName? (n.flag "computed")

/-- The name of the check that an expression reaches in the library. -/
def reachedCheck? (library : String) (n : Node) : Option String :=
  if (n.child? "object").bind Node.plainKey? = some library then accessed? n else none

/-- The name of the check that an expression calls in the library, and its only argument. -/
def calledCheck? (library : String) (n : Node) : Option (String × Node) :=
  match (n.child? "callee").bind (reachedCheck? library), n.children "arguments" with
  | some check, [argument] => some (check, argument)
  | _, _ => none

private theorem sizeOf_calledCheck? {library check : String} {n argument : Node}
    (called : calledCheck? library n = some (check, argument)) : sizeOf argument < sizeOf n := by
  rw [calledCheck?] at called
  split at called
  · rename_i argumentsEq
    cases called
    exact sizeOf_children (argumentsEq ▸ List.mem_singleton_self argument)
  · cases called

namespace Validator

/-- The validator that a check without an argument stands for. -/
def ofCheck? (check : String) : Option Validator :=
  if check = "any" then some .any
  else (PrimitiveKind.all.find? fun kind => kind.checkName == check).map .primitive

/-- The validator that an expression stands for, with the checks reached through a namespace. -/
def ofNode? (library : String) (n : Node) : Option Validator :=
  match n.kind with
  | .memberExpression =>
      match reachedCheck? library n with
      | some check => ofCheck? check
      | none =>
          let inner := (n.child? "object").attach.bind fun inner => ofNode? library inner.1
          if accessed? n = some "isRequired" then inner.map .required else none
  | .callExpression =>
      match _called : calledCheck? library n with
      | some (check, argument) =>
          if check = "shape" then
            let entries := (argument.children "properties").attach.mapM fun property => do
              let prop ← property.1.propertyName?
              let validator ← (property.1.child? "value").attach.bind fun value =>
                ofNode? library value.1
              return (⟨prop, validator, validator.isRequired⟩ : Entry)
            entries.map .shape
          else if check = "arrayOf" then (ofNode? library argument).map .arrayOf
          else if check = "oneOf" then
            ((argument.children "elements").mapM literalValue?).map .oneOf
          else if check = "oneOfType" then
            let members := (argument.children "elements").attach.mapM fun element =>
              ofNode? library element.1
            members.map .oneOfType
          else none
      | none => none
  | _ => none
termination_by sizeOf n
decreasing_by
  · exact sizeOf_child? inner.2
  · exact (sizeOf_child? value.2).trans
      ((sizeOf_children property.2).trans (sizeOf_calledCheck? _called))
  · exact sizeOf_calledCheck? _called
  · exact (sizeOf_children element.2).trans (sizeOf_calledCheck? _called)

/-- The checks of the run-time kinds have different names. -/
@[simp]
theorem ofCheck?_checkName (kind : PrimitiveKind) :
    ofCheck? kind.checkName = some (.primitive kind) := by
  cases kind <;> rfl

end Validator

/-- The entry that a property of an object of validators stands for. -/
def Entry.ofNode? (library : String) (property : Node) : Option Entry := do
  let prop ← property.propertyName?
  let validator ← (property.child? "value").bind (Validator.ofNode? library)
  return ⟨prop, validator, validator.isRequired⟩

section Reading

variable (library : String)

@[simp]
theorem reachedCheck?_member (check : String) :
    reachedCheck? library (member (identifier library) check) = some check :=
  if_pos rfl

@[simp]
theorem calledCheck?_checkCall (check : String) (argument : Node) :
    calledCheck? library (checkCall library check argument) = some (check, argument) := by
  have checkEq : ((checkCall library check argument).child? "callee").bind
      (reachedCheck? library) = some check := reachedCheck?_member library check
  rw [calledCheck?, checkEq, checkCall, children_call]

/-- A check of the library is read by its name. -/
@[simp]
theorem Validator.ofNode?_check (check : String) :
    Validator.ofNode? library (member (identifier library) check) = Validator.ofCheck? check := by
  have kindEq : (member (identifier library) check).kind = .memberExpression := rfl
  rw [Validator.ofNode?, kindEq]
  simp only [reachedCheck?_member]

/-- A mark on anything but the library itself is read as one. -/
theorem Validator.ofNode?_isRequired {object : Node} (nameless : object.plainKey? = none) :
    Validator.ofNode? library (member object "isRequired") =
      (Validator.ofNode? library object).map .required := by
  have kindEq : (member object "isRequired").kind = .memberExpression := rfl
  have objectEq : (member object "isRequired").child? "object" = some object := rfl
  have unreached : reachedCheck? library (member object "isRequired") = none := by
    rw [reachedCheck?, objectEq, Option.bind_some, nameless]
    rfl
  have accessedEq : accessed? (member object "isRequired") = some "isRequired" := rfl
  rw [Validator.ofNode?, kindEq]
  simp only [unreached, accessedEq, if_true]
  rw [bind_attach_eq (Validator.ofNode? library) fun _ => rfl, objectEq, Option.bind_some]

/-- A call of a check is read by the name of the check. -/
@[simp]
theorem Validator.ofNode?_checkCall (check : String) (argument : Node) :
    Validator.ofNode? library (checkCall library check argument) =
      if check = "shape" then
        ((argument.children "properties").mapM (Entry.ofNode? library)).map .shape
      else if check = "arrayOf" then (Validator.ofNode? library argument).map .arrayOf
      else if check = "oneOf" then ((argument.children "elements").mapM literalValue?).map .oneOf
      else if check = "oneOfType" then
        ((argument.children "elements").mapM (Validator.ofNode? library)).map .oneOfType
      else none := by
  have kindEq : (checkCall library check argument).kind = .callExpression := rfl
  have readEntry : ∀ property : Node, (do
      let prop ← property.propertyName?
      let validator ← (property.child? "value").attach.bind fun value =>
        Validator.ofNode? library value.1
      return (⟨prop, validator, validator.isRequired⟩ : Entry)) =
        Entry.ofNode? library property := by
    intro property
    rw [Entry.ofNode?, bind_attach_eq (Validator.ofNode? library) fun _ => rfl]
  rw [Validator.ofNode?, kindEq]
  dsimp only
  split
  · rename_i called
    rw [calledCheck?_checkCall, Option.some_inj] at called
    cases called
    rw [mapM_attach_eq (Entry.ofNode? library) fun property => readEntry property.1,
      mapM_attach_eq (Validator.ofNode? library) fun _ => rfl]
  · rename_i uncalled
    rw [calledCheck?_checkCall] at uncalled
    cases uncalled

end Reading

/-- The expression of a validator is not a plain name. -/
@[simp]
theorem Validator.plainKey?_toNode (library : String) (v : Validator) :
    (v.toNode library).plainKey? = none := by
  cases v <;> rfl

section OfShape

variable {library : String} {shape : Shape} {field : Field} {fields : List Field}

/-- What is read back of the validator of a field, if the validator of its shape is. -/
@[simp]
theorem ofNode?_validator_ofField
    (read : Validator.ofNode? library ((Validator.ofShape field.shape).toNode library) =
      some (Validator.ofShape field.shape)) :
    Validator.ofNode? library ((Entry.ofField field).validator.toNode library) =
      some (Entry.ofField field).validator := by
  rw [Entry.validator_ofField]
  split
  · rw [Validator.toNode, Validator.ofNode?_isRequired library (Validator.plainKey?_toNode _ _),
      read, Option.map_some]
  · exact read

/-- The entry of a field is read back, if the validator of its shape is. -/
@[simp]
theorem ofNode?_property_ofField
    (read : Validator.ofNode? library ((Validator.ofShape field.shape).toNode library) =
      some (Validator.ofShape field.shape)) :
    Entry.ofNode? library (property (Entry.ofField field).prop
        ((Entry.ofField field).validator.toNode library)) =
      some (Entry.ofField field) := by
  have marked := Entry.isRequired_validator_ofField field
  have validatorRead := ofNode?_validator_ofField read
  generalize Entry.ofField field = entry at marked validatorRead ⊢
  obtain ⟨prop, validator, required⟩ := entry
  obtain rfl : validator.isRequired = required := marked
  rw [Entry.ofNode?, propertyName?_property, child?_property, Option.bind_some, validatorRead]
  rfl

/-- The expression of an object of validators for different props has a property for each. -/
theorem Validator.toNode_shape {entries : List Entry} (named : (entries.map Entry.prop).Nodup) :
    (Validator.shape entries).toNode library =
      checkCall library "shape" (objectOf (entries.map fun entry =>
        property entry.prop (entry.validator.toNode library))) := by
  have nodup : (Assoc.keys (entries.map fun entry =>
      (entry.prop, entry.validator.toNode library))).Nodup := by
    rwa [Assoc.keys, List.map_map]
  rw [Validator.toNode, Entry.toPairs_eq_map, Assoc.ofPairs_of_nodup nodup, object, List.map_map]
  rfl

/-- The validator of a shape is read back from its expression. -/
@[simp]
theorem ofNode?_toNode_ofShape (library : String) (named : shape.UniquelyNamed) :
    Validator.ofNode? library ((Validator.ofShape shape).toNode library) =
      some (Validator.ofShape shape) := by
  induction named with
  | @intro shape here _ ih =>
      cases shape with
      | primitive kind =>
          rw [Validator.ofShape, Validator.toNode, Validator.ofNode?_check,
            Validator.ofCheck?_checkName]
      | object fields =>
          have entries : ∀ entry ∈ Entry.ofFields fields, Entry.ofNode? library
              (property entry.prop (entry.validator.toNode library)) = some entry := by
            rw [Entry.ofFields_eq_map, List.forall_mem_map]
            exact fun field mem => ofNode?_property_ofField (ih _ (List.mem_map_of_mem mem))
          have named : ((Entry.ofFields fields).map Entry.prop).Nodup := by
            rw [Entry.map_prop_ofFields]
            exact here
          rw [Validator.ofShape, Validator.toNode_shape named, Validator.ofNode?_checkCall,
            if_pos rfl, children_objectOf, mapM_map_eq_some entries, List.map_id', Option.map_some]
      | array element =>
          rw [Validator.ofShape, Validator.toNode, Validator.ofNode?_checkCall,
            if_neg (by decide), if_pos rfl, ih element (List.mem_singleton_self element),
            Option.map_some]
      | union shapes =>
          have members : ∀ member ∈ Validator.ofShapes shapes,
              Validator.ofNode? library (member.toNode library) = some member := by
            rw [Validator.ofShapes_eq_map, List.forall_mem_map]
            exact ih
          rw [Validator.ofShape, Validator.toNode, Validator.ofNode?_checkCall,
            if_neg (by decide), if_neg (by decide), if_neg (by decide), if_pos rfl,
            children_array, Validator.toNodes_eq_map, mapM_map_eq_some members, List.map_id',
            Option.map_some]
      | oneOf values =>
          rw [Validator.ofShape, Validator.toNode, Validator.ofNode?_checkCall,
            if_neg (by decide), if_neg (by decide), if_pos rfl, children_array,
            mapM_map_eq_some fun value _ => literalValue?_literal value, List.map_id',
            Option.map_some]
      | unknown =>
          rw [Validator.ofShape, Validator.toNode, Validator.ofNode?_check]
          rfl

end OfShape

/-- The validators that are made: that of a shape, that of a field, and that of a prop whose
default is looked up among the names of a component's defaults.  The objects in the shape have
different names in them. -/
inductive Validator.Made : Validator → Prop
  | ofShape {shape : Shape} (named : shape.UniquelyNamed) : Made (Validator.ofShape shape)
  | ofField {field : Field} (named : field.shape.UniquelyNamed) :
      Made (Entry.ofField field).validator
  | ofProps {fields : List Field} {defaults : List String} {entry : Entry}
      (named : (Shape.object fields).UniquelyNamed) (mem : entry ∈ Entry.ofProps fields defaults) :
      Made entry.validator

/-- A validator that was made is read back from its expression. -/
theorem Validator.Made.ofNode?_toNode {v : Validator} (made : v.Made) (library : String) :
    Validator.ofNode? library (v.toNode library) = some v := by
  cases made with
  | ofShape named => exact ofNode?_toNode_ofShape library named
  | ofField named => exact ofNode?_validator_ofField (ofNode?_toNode_ofShape library named)
  | ofProps named mem =>
      obtain ⟨field, fieldMem, rfl⟩ := List.mem_map.mp mem
      have fieldNamed : field.shape.UniquelyNamed :=
        (Division.everywhere_iff.mp named).2 _ (List.mem_map_of_mem fieldMem)
      exact ofNode?_validator_ofField (ofNode?_toNode_ofShape library fieldNamed)

/-- Nothing is lost when a validator becomes an expression: it is read back as it was, and no
other validator that is made has the same expression. -/
theorem Validator.toNode_lossless (library : String) {v : Validator} (made : v.Made) :
    Validator.ofNode? library (v.toNode library) = some v ∧
      ∀ w : Validator, w.Made → w.toNode library = v.toNode library → w = v := by
  have read := made.ofNode?_toNode library
  refine ⟨read, fun w otherMade same => ?_⟩
  rw [← same, otherMade.ofNode?_toNode library] at read
  exact Option.some_inj.mp read

/-- Required marks, names that are no identifiers and values of every kind are read back. -/
theorem Validator.toNode_lossless_leveled :
    Shape.leveled.UniquelyNamed ∧
      ofNode? "PropTypes" ((ofShape .leveled).toNode "PropTypes") = some (ofShape .leveled) ∧
      ∀ w : Validator, w.Made →
        w.toNode "PropTypes" = (ofShape .leveled).toNode "PropTypes" → w = ofShape .leveled :=
  ⟨Shape.uniquelyNamed_leveled, toNode_lossless "PropTypes" (.ofShape Shape.uniquelyNamed_leveled)⟩

end PropValidators
