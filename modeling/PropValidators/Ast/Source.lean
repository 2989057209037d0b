import PropValidators.Ast.Names
import PropValidators.Text.Quoted

/-!
# Source text of expressions

The text of an expression in JavaScript.  Object literals are spread over lines,
two blanks per level, and none at levels below zero; everything else stays in one
line.  A node that is no expression known here is written as a comment with its type,
so that every node that has been read has a text.

In a tree that has been changed a node may stand in the place of a text, and then is written
as it is displayed.  Some things cannot be written, though: `sourceFault?` finds the first
of them, and `rendered` is the text of an expression unless there is one.
-/

namespace PropValidators.Ast

/-- The indentation of a level. -/
def indentation (level : Int) : String :=
  String.ofList (List.replicate (2 * level).toNat ' ')

/-- A string literal in source text. -/
def quotedSource (s : String) : String :=
  Text.doubleQuoted .ascii s

namespace Node

/-- A key that is not computed and is no string literal prints as an expression;
a string literal prints bare if it is an identifier. -/
def stringKey? (key : Node) : Option String :=
  if key.kind = .stringLiteral then
    let value := (key.text? "value").getD ""
    some (if isIdentifierName value then value else quotedSource value)
  else none

/-- The text of a numeric literal. -/
def numberSource (n : Node) : String :=
  match n.child? "value" with
  | some m => m.displayed
  | none => ((n.number? "value").map Number.sourceText).getD ""

mutual

/-- The text of an expression inside `level` object literals. -/
def source (level : Int) (n : Node) : String :=
  match n.kind with
  | .identifier => n.textOr "name" ""
  | .stringLiteral => quotedSource ((n.text? "value").getD "")
  | .numericLiteral => n.numberSource
  | .booleanLiteral => if n.flag "value" then "true" else "false"
  | .nullLiteral => "null"
  | .memberExpression =>
      let object := n.childSource level "object"
      let property := n.childSource level "property"
      if n.flag "computed" then object ++ "[" ++ property ++ "]" else object ++ "." ++ property
  | .callExpression =>
      let arguments := (n.children "arguments").attach.map fun ⟨argument, _⟩ =>
        argument.source level
      n.childSource level "callee" ++ "(" ++ ", ".intercalate arguments ++ ")"
  | .arrayExpression =>
      let elements := (n.items "elements").attach.map fun ⟨element, _⟩ =>
        match _h : element.node? with
        | some element => element.source level
        | none => ""
      "[" ++ ", ".intercalate elements ++ "]"
  | .assignmentExpression =>
      n.childSource level "left" ++ " " ++ n.textOr "operator" "=" ++ " " ++
        n.childSource level "right"
  | .objectExpression =>
      let properties := n.children "properties"
      if properties.isEmpty then "\x7b\x7d"
      else
        let lines := properties.attach.map fun ⟨p, _⟩ =>
          indentation (level + 1) ++ p.propertySource (level + 1)
        "\x7b\n" ++ ",\n".intercalate lines ++ "\n" ++ indentation level ++ "\x7d"
  | .spreadElement => "..." ++ n.childSource level "argument"
  | _ => "/* " ++ n.typeText ++ " */"
termination_by (sizeOf n, 1)
decreasing_by
  all_goals
    first
    | exact Prod.Lex.right _ (by omega)
    | exact Prod.Lex.left _ _ (sizeOf_children (by assumption))
    | exact Prod.Lex.left _ _ (sizeOf_item (by assumption) _h)

/-- The text of the node in a field, empty if there is none. -/
def childSource (level : Int) (n : Node) (key : String) : String :=
  match _h : n.child? key with
  | some child => child.source level
  | none => ""
termination_by (sizeOf n, 0)
decreasing_by
  exact Prod.Lex.left _ _ (sizeOf_child? _h)

/-- The text of a property of an object literal. -/
def propertySource (level : Int) (p : Node) : String :=
  let key :=
    if p.flag "computed" then "[" ++ p.childSource level "key" ++ "]"
    else ((p.child? "key").bind stringKey?).getD (p.childSource level "key")
  match p.kind with
  | .objectProperty => key ++ ": " ++ p.childSource level "value"
  | .objectMethod =>
      let kind := p.textOr "kind" "method"
      (if kind = "method" then "" else kind ++ " ") ++ key ++ "(...) \x7b...\x7d"
  | _ => p.source level
termination_by (sizeOf p, 2)
decreasing_by
  all_goals exact Prod.Lex.right _ (by omega)

end

/-- The fault of joining the texts of items, one of which is an identifier with a node in
the place of its name. -/
def joinFault? (items : List Value) : Option Fault :=
  items.zipIdx.findSome? fun (item, i) =>
    (item.node?.bind misnamed?).map fun m => .misused (.joined i) m.kind.modelName

/-- The fault of comparing a property key with the form of a name. -/
def matchFault? (key : Node) : Option Fault :=
  if key.kind = .stringLiteral then
    (key.child? "value").map fun m => .misused .matched m.kind.modelName
  else none

mutual

/-- Why an expression cannot be written, by the first part of it that cannot. -/
def sourceFault? (n : Node) : Option Fault :=
  match n.kind with
  | .stringLiteral => (n.child? "value").map fun m => .misused .quoted m.kind.modelName
  | .numericLiteral =>
      if (n.number? "value").any Number.isUnwritable then some .unwritableInteger else none
  | .memberExpression => n.childFault? "object" <|> n.childFault? "property"
  | .callExpression =>
      ((n.items "arguments").attach.findSome? fun ⟨argument, _⟩ =>
        match _h : argument.node? with
        | some argument => argument.sourceFault?
        | none => some .notANode) <|>
      joinFault? (n.items "arguments") <|> n.childFault? "callee"
  | .arrayExpression =>
      ((n.items "elements").attach.findSome? fun ⟨element, _⟩ =>
        match _h : element.node? with
        | some element => element.sourceFault?
        | none => if element.isNull then none else some .notANode) <|>
      joinFault? (n.items "elements")
  | .assignmentExpression => n.childFault? "left" <|> n.childFault? "right"
  | .objectExpression =>
      (n.items "properties").attach.findSome? fun ⟨p, _⟩ =>
        match _h : p.node? with
        | some p => p.propertySourceFault?
        | none => some .notANode
  | .spreadElement => n.childFault? "argument"
  | _ => none
termination_by (sizeOf n, 1)
decreasing_by
  all_goals
    first
    | exact Prod.Lex.right _ (by omega)
    | exact Prod.Lex.left _ _ (sizeOf_item (by assumption) _h)

/-- Why the node in a field cannot be written. -/
def childFault? (n : Node) (key : String) : Option Fault :=
  match _h : n.child? key with
  | some child => child.sourceFault?
  | none => none
termination_by (sizeOf n, 0)
decreasing_by
  exact Prod.Lex.left _ _ (sizeOf_child? _h)

/-- Why a property of an object literal cannot be written. -/
def propertySourceFault? (p : Node) : Option Fault :=
  let keyFault :=
    (if p.flag "computed" then none else (p.child? "key").bind matchFault?) <|>
      p.childFault? "key"
  match p.kind with
  | .objectProperty => keyFault <|> p.childFault? "value"
  | .objectMethod => keyFault
  | _ => p.sourceFault?
termination_by (sizeOf p, 2)
decreasing_by
  all_goals exact Prod.Lex.right _ (by omega)

end

/-- The text of an expression that can be written. -/
def rendered (level : Int) (n : Node) : Except Fault String :=
  match n.sourceFault? with
  | some fault => .error fault
  | none => .ok (n.source level)

end Node

end PropValidators.Ast
