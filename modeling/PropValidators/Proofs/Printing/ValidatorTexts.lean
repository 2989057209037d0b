import PropValidators.Proofs.Patching.Fresh
import PropValidators.Proofs.Printing.Keys
import PropValidators.Proofs.Validators.Lowering

/-!
# Texts of validators

The text of a validator is put together from the name of the library, the name of a check, and what
is passed to the check in brackets.  An array is written in one line and an object in many, with
one line at least for every entry.
-/

namespace PropValidators

open Ast Node

namespace Ast

variable (level : Int)

/-- The text of a literal value. -/
def literalText : Literal → List Char
  | .text s => (quotedSource s).toList
  | .number n => n.sourceText.toList
  | .truth b => (if b then "true" else "false").toList

@[simp]
theorem source_literal (value : Literal) :
    ((literal value).source level).toList = literalText value := by
  cases value <;> rw [literal, source.eq_def] <;> rfl

@[simp]
theorem source_member (object : Node) (name : String) :
    ((member object name).source level).toList =
      (object.source level).toList ++ '.' :: name.toList := by
  have objectEq : (member object name).childSource level "object" = object.source level := by
    rw [childSource.eq_def]
    rfl
  have nameEq : (member object name).childSource level "property" = name := by
    rw [childSource.eq_def]
    exact source_identifier name level
  have written : (member object name).source level = object.source level ++ "." ++ name := by
    rw [source.eq_def, objectEq, nameEq]
    rfl
  rw [written]
  simp

@[simp]
theorem source_array (elements : List Node) :
    ((array elements).source level).toList =
      '[' :: [',', ' '].intercalate (elements.map fun element => (element.source level).toList) ++
        [']'] := by
  have written : (array elements).source level =
      "[" ++ ", ".intercalate (elements.map (source level)) ++ "]" := by
    have kindEq : (array elements).kind = .arrayExpression := rfl
    have itemsEq : (array elements).items "elements" = elements.map Value.node := rfl
    let text (element : Value) : String := ((element.node?).map (source level)).getD ""
    have textsEq : ((array elements).items "elements").map text = elements.map (source level) := by
      rw [itemsEq, List.map_map]
      rfl
    rw [source.eq_def, kindEq, ← textsEq]
    dsimp only
    congr 3
    refine Eq.trans (List.map_congr_left ?_) (List.attach_map_val (f := text))
    rintro ⟨element, mem⟩ -
    dsimp only [text]
    split <;> rename_i eq <;> rw [eq] <;> rfl
  rw [written]
  simp [String.toList_intercalate, Function.comp_def]

@[simp]
theorem source_call (callee argument : Node) :
    ((call callee [argument]).source level).toList =
      (callee.source level).toList ++ '(' :: (argument.source level).toList ++ [')'] := by
  have calleeEq : (call callee [argument]).childSource level "callee" = callee.source level := by
    rw [childSource.eq_def]
    rfl
  have written : (call callee [argument]).source level =
      callee.source level ++ "(" ++ argument.source level ++ ")" := by
    have kindEq : (call callee [argument]).kind = .callExpression := rfl
    rw [source.eq_def, kindEq]
    dsimp only
    rw [calleeEq, List.attach_map_val, children_call]
    rfl
  rw [written]
  simp

@[simp]
theorem source_objectOf_nil : ((objectOf []).source level).toList = ['\x7b', '\x7d'] := by
  have kindEq : (objectOf []).kind = .objectExpression := rfl
  rw [source.eq_def, kindEq]
  dsimp only
  rw [children_objectOf, List.isEmpty_nil, if_pos rfl]
  simp

private theorem source_objectOf {properties : List Node} (some : properties ≠ []) :
    ((objectOf properties).source level).toList =
      '\x7b' :: '\n' :: [',', '\n'].intercalate (properties.map fun p =>
        (indentation (level + 1)).toList ++ (p.propertySource (level + 1)).toList) ++
        '\n' :: (indentation level).toList ++ ['\x7d'] := by
  have written : (objectOf properties).source level =
      "\x7b\n" ++ ",\n".intercalate (properties.map fun p =>
        indentation (level + 1) ++ p.propertySource (level + 1)) ++ "\n" ++
        indentation level ++ "\x7d" := by
    have kindEq : (objectOf properties).kind = .objectExpression := rfl
    have nonempty : properties.isEmpty = false := List.isEmpty_eq_false_iff.mpr some
    rw [source.eq_def, kindEq]
    dsimp only
    let line (p : Node) : String := indentation (level + 1) ++ p.propertySource (level + 1)
    rw [children_objectOf, nonempty, if_neg Bool.false_ne_true, List.attach_map_val (f := line)]
  rw [written]
  simp [String.toList_intercalate, Function.comp_def]

@[simp]
theorem propertySource_property (name : String) (value : Node) :
    ((property name value).propertySource level).toList =
      (keySource name).toList ++ ':' :: ' ' :: (value.source level).toList := by
  have valueEq : (property name value).childSource level "value" = value.source level := by
    rw [childSource.eq_def]
    rfl
  rw [propertySource_of_property rfl, keySource_of_isKeyed (isKeyed_property name value), valueEq]
  simp

end Ast

instance (n : Node) : Decidable n.HasUnwritable :=
  decidable_of_iff (n.tree.any fun m => (literalValue? m).any Literal.isUnwritable) <| by
    simp [HasUnwritable, Option.any_eq_true]

section Validator

variable (library : String) (level : Int)

/-- The text of the expression of a validator. -/
def Validator.preview (v : Validator) : List Char :=
  ((v.toNode library).source level).toList

/-- The line of an entry in the text of an object of validators. -/
def Entry.line (entry : Entry) : List Char :=
  (indentation level).toList ++
    ((keySource entry.prop).toList ++ ':' :: ' ' :: entry.validator.preview library level)

/-- The text of an object of validators. -/
def Entry.objectText (entries : List Entry) : List Char :=
  if entries = [] then ['\x7b', '\x7d']
  else '\x7b' :: '\n' :: [',', '\n'].intercalate (entries.map (line library (level + 1))) ++
    '\n' :: (indentation level).toList ++ ['\x7d']

/-- The text of an array of texts. -/
def arrayText (texts : List (List Char)) : List Char :=
  '[' :: [',', ' '].intercalate texts ++ [']']

namespace Validator

/-- The name of the check that a validator is, or is without its mark. -/
def check : Validator → String
  | .primitive kind => kind.checkName
  | .shape _ => "shape"
  | .arrayOf _ => "arrayOf"
  | .oneOf _ => "oneOf"
  | .oneOfType _ => "oneOfType"
  | .any => "any"
  | .required inner => inner.check

/-- What is passed to the check of a validator, in brackets. -/
def argumentText : Validator → List Char
  | .shape entries => '(' :: Entry.objectText library level entries ++ [')']
  | .arrayOf element => '(' :: element.preview library level ++ [')']
  | .oneOf values => '(' :: arrayText (values.map literalText) ++ [')']
  | .oneOfType members => '(' :: arrayText (members.map (preview library level)) ++ [')']
  | _ => []

/-- The text of a mark as required. -/
def markText (required : Bool) : List Char :=
  if required then '.' :: "isRequired".toList else []

/-- A validator is written, unless there is a number in it that cannot be. -/
theorem rendered_toNode {v : Validator} (writable : ¬ (v.toNode library).HasUnwritable) :
    (v.toNode library).rendered level = .ok (String.ofList (v.preview library level)) := by
  rw [rendered_eq_ok_iff, preview, String.ofList_toList]
  refine ⟨Option.eq_none_iff_forall_ne_some.mpr fun fault found => writable ?_, rfl⟩
  exact (blames_sourceFault? (fresh_toNode library v).1 fault found).2

@[simp]
theorem preview_checkCall (check : String) (argument : Node) :
    ((checkCall library check argument).source level).toList =
      library.toList ++
        '.' :: (check.toList ++ '(' :: (argument.source level).toList ++ [')']) := by
  simp [checkCall]

@[simp]
theorem preview_required (v : Validator) :
    (Validator.required v).preview library level = v.preview library level ++ markText true := by
  rw [preview, toNode, source_member]
  rfl

private theorem objectText_eq (entries : List Entry) :
    ((objectOf (entries.map fun entry =>
      property entry.prop (entry.validator.toNode library))).source level).toList =
        Entry.objectText library level entries := by
  rw [Entry.objectText]
  by_cases empty : entries = []
  · rw [if_pos empty, empty, List.map_nil, source_objectOf_nil]
  · rw [if_neg empty, source_objectOf _ (by simpa using empty), List.map_map]
    simp only [Function.comp_def, propertySource_property]
    rfl

/-- The text of a validator of a shape whose objects have different names in them. -/
theorem preview_ofShape {shape : Shape} (named : (shape.ownFields.map Field.name).Nodup) :
    (ofShape shape).preview library level = library.toList ++
      '.' :: ((ofShape shape).check.toList ++ (ofShape shape).argumentText library level) := by
  rw [preview]
  cases shape with
  | primitive kind =>
      have bare : (Validator.primitive kind).argumentText library level = [] := rfl
      rw [ofShape, toNode, source_member, source_identifier, bare, List.append_nil]
      rfl
  | object fields =>
      have props : ((Entry.ofFields fields).map Entry.prop).Nodup := by
        rw [Entry.map_prop_ofFields]
        exact named
      rw [ofShape, toNode_shape props, preview_checkCall, objectText_eq]
      simp [check, argumentText]
  | array element =>
      rw [ofShape, toNode, preview_checkCall]
      simp [check, argumentText, preview]
  | oneOf values =>
      rw [ofShape, toNode]
      simp [Function.comp_def, check, argumentText, arrayText]
  | union members =>
      rw [ofShape, toNode]
      simp [Function.comp_def, check, argumentText, arrayText, preview]
  | unknown =>
      have bare : any.argumentText library level = [] := rfl
      rw [ofShape, toNode, source_member, source_identifier, bare, List.append_nil]
      rfl

end Validator

end Validator

end PropValidators
