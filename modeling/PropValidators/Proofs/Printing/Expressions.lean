import PropValidators.Proofs.Printing.Previews

/-!
# Texts of expressions

Which expressions are put together alike, and which say by their text what they are: names,
literals, arrays, calls, and what is reached from them by names and by indices.  Two things are not
in the text.  A part that is no expression known here is written by its type alone, and the type
arguments of a call are not written at all.

An expression is written from its start: first what it is reached from, and then each step on the
way, a property, an index or the arguments of a call.
-/

namespace PropValidators

open Ast Node

/-- What a step to a property, by an index or by a call starts with. -/
def openers : List Char :=
  ['.', '[', '(']

/-- What may stand behind an expression in an array or in brackets. -/
def closers : List Char :=
  [',', ']', ')']

/-- A word as names are: letters, digits, underscores, dollar signs and characters beyond ASCII,
and no digit first. -/
structure IsWord (name : String) : Prop where
  nonempty : name.toList ≠ []
  parts : ∀ c ∈ name.toList, isIdentifierPart c = true ∨ 128 ≤ c.toNat
  start : ∀ c, name.toList.head? = some c → c.isDigit = false

theorem isWord_of_all {name : String} (parts : name.toList.all isIdentifierPart = true)
    (start : name.toList.head?.any (fun c => !c.isDigit) = true) : IsWord name where
  nonempty empty := by
    rw [empty] at start
    cases start
  parts c mem := .inl (List.all_eq_true.mp parts c mem)
  start c head := by
    rw [head] at start
    simpa using start

/-- The words that are written for truth values and null. -/
def constantWords : List String :=
  ["true", "false", "null"]

theorem isWord_of_mem_constantWords {word : String} (mem : word ∈ constantWords) : IsWord word := by
  simp only [constantWords, List.mem_cons, List.not_mem_nil, or_false] at mem
  rcases mem with rfl | rfl | rfl <;> exact isWord_of_all (by decide) (by decide)

/-- What is written between the parts of expressions, and what starts those that are no words. -/
def separators : List Char :=
  openers ++ closers ++ ['"', '/', '-']

private theorem noPart_of_mem_separators {c : Char} (separates : c ∈ separators) :
    isIdentifierPart c = false ∧ c.toNat < 128 := by
  simp only [separators, openers, closers, List.cons_append, List.nil_append, List.mem_cons,
    List.not_mem_nil, or_false] at separates
  rcases separates with rfl | rfl | rfl | rfl | rfl | rfl | rfl | rfl | rfl <;> decide

theorem IsWord.notMem {word : String} (isWord : IsWord word) {c : Char}
    (separates : c ∈ separators) : c ∉ word.toList := by
  intro mem
  obtain ⟨noPart, ascii⟩ := noPart_of_mem_separators separates
  rcases isWord.parts c mem with part | beyond
  · exact Bool.false_ne_true (noPart.symm.trans part)
  · omega

theorem IsWord.disjoint {word : String} (isWord : IsWord word) :
    word.toList.Disjoint (openers ++ closers) :=
  fun _ mem stop => isWord.notMem (List.mem_append_left _ stop) mem

/-- No number goes on with what closes lists. -/
theorem noDigit_of_mem_closers {c : Char} (closes : c ∈ closers) :
    c.isDigit = false ∧ c ∉ ['-', '+', '.', 'e'] := by
  simp only [closers, List.mem_cons, List.not_mem_nil, or_false] at closes
  rcases closes with rfl | rfl | rfl <;> decide

namespace Ast.Node

/-- The kinds of expressions that have a text of their own. -/
def writtenKinds : List Kind :=
  [.identifier, .stringLiteral, .numericLiteral, .booleanLiteral, .nullLiteral, .memberExpression,
    .callExpression, .arrayExpression, .assignmentExpression, .objectExpression, .spreadElement]

/-- Expressions that are put together alike from the same names and equal literals.  Of parts that
are no expressions known here only the types are compared, and the type arguments of calls are
not. -/
inductive Congruent : Node → Node → Prop
  | identifier {n m : Node} {name : String} (kind : n.kind = .identifier)
      (otherKind : m.kind = .identifier) (text : n.text? "name" = some name)
      (otherText : m.text? "name" = some name) : Congruent n m
  | string {n m : Node} {s : String} (kind : n.kind = .stringLiteral)
      (otherKind : m.kind = .stringLiteral) (text : n.text? "value" = some s)
      (otherText : m.text? "value" = some s) : Congruent n m
  | number {n m : Node} {x y : Number} (kind : n.kind = .numericLiteral)
      (otherKind : m.kind = .numericLiteral) (value : n.number? "value" = some x)
      (otherValue : m.number? "value" = some y) (equal : x.equals y = true) : Congruent n m
  | truth {n m : Node} (kind : n.kind = .booleanLiteral) (otherKind : m.kind = .booleanLiteral)
      (same : n.flag "value" = m.flag "value") : Congruent n m
  | null {n m : Node} (kind : n.kind = .nullLiteral) (otherKind : m.kind = .nullLiteral) :
      Congruent n m
  | member {n m object other key otherKey : Node} (kind : n.kind = .memberExpression)
      (otherKind : m.kind = .memberExpression) (flags : n.flag "computed" = m.flag "computed")
      (held : n.child? "object" = some object) (otherHeld : m.child? "object" = some other)
      (keyEq : n.child? "property" = some key) (otherKeyEq : m.child? "property" = some otherKey)
      (objects : Congruent object other) (keys : Congruent key otherKey) : Congruent n m
  | call {n m callee other : Node} (kind : n.kind = .callExpression)
      (otherKind : m.kind = .callExpression) (held : n.child? "callee" = some callee)
      (otherHeld : m.child? "callee" = some other) (callees : Congruent callee other)
      (arguments : List.Forall₂ Congruent (n.children "arguments") (m.children "arguments")) :
      Congruent n m
  | array {n m : Node} (kind : n.kind = .arrayExpression) (otherKind : m.kind = .arrayExpression)
      (elements : List.Forall₂ Congruent (n.children "elements") (m.children "elements")) :
      Congruent n m
  | other {n m : Node} (kind : n.kind ∉ writtenKinds) (otherKind : m.kind ∉ writtenKinds)
      (same : n.typeText = m.typeText) : Congruent n m

/-- Expressions whose texts say what they are.  Names are words, and no names are those that are
written for constants; numbers are finite and have few enough digits to be written.  Nothing is
reached from a number, and no array has holes.  The type by which another part is written has no
blank in it. -/
inductive Legible : Node → Prop
  | identifier {n : Node} {name : String} (kind : n.kind = .identifier)
      (text : n.text? "name" = some name) (isWord : IsWord name)
      (free : name ∉ constantWords) : Legible n
  | string {n : Node} {s : String} (kind : n.kind = .stringLiteral)
      (text : n.text? "value" = some s) : Legible n
  | number {n : Node} {x : Number} (kind : n.kind = .numericLiteral)
      (value : n.number? "value" = some x) (noNode : n.child? "value" = none)
      (finite : x.IsFinite) (writable : x.isUnwritable = false) : Legible n
  | truth {n : Node} (kind : n.kind = .booleanLiteral) : Legible n
  | null {n : Node} (kind : n.kind = .nullLiteral) : Legible n
  | property {n object key : Node} {name : String} (kind : n.kind = .memberExpression)
      (plain : n.flag "computed" = false) (held : n.child? "object" = some object)
      (keyEq : n.child? "property" = some key) (noNumber : object.kind ≠ .numericLiteral)
      (keyKind : key.kind = .identifier) (text : key.text? "name" = some name)
      (isWord : IsWord name) (legible : Legible object) : Legible n
  | index {n object key : Node} (kind : n.kind = .memberExpression)
      (computed : n.flag "computed" = true) (held : n.child? "object" = some object)
      (keyEq : n.child? "property" = some key) (noNumber : object.kind ≠ .numericLiteral)
      (legible : Legible object) (keyLegible : Legible key) : Legible n
  | call {n callee : Node} {arguments : List Node} (kind : n.kind = .callExpression)
      (held : n.child? "callee" = some callee) (items : n.items "arguments" = arguments.map .node)
      (noNumber : callee.kind ≠ .numericLiteral) (legible : Legible callee)
      (each : ∀ argument ∈ arguments, Legible argument) : Legible n
  | array {n : Node} {elements : List Node} (kind : n.kind = .arrayExpression)
      (items : n.items "elements" = elements.map .node)
      (each : ∀ element ∈ elements, Legible element) : Legible n
  | other {n : Node} (kind : n.kind ∉ writtenKinds) (noBlank : ' ' ∉ n.typeText.toList) : Legible n

/-- What an expression is reached from by a property, an index or a call. -/
def inner? (n : Node) : Option Node :=
  match n.kind with
  | .memberExpression => n.child? "object"
  | .callExpression => n.child? "callee"
  | _ => none

theorem sizeOf_inner? {n inner : Node} (found : n.inner? = some inner) :
    sizeOf inner < sizeOf n := by
  rw [inner?] at found
  split at found
  · exact sizeOf_child? found
  · exact sizeOf_child? found
  · cases found

@[simp]
theorem inner?_of_other {n : Node} (kind : n.kind ∉ writtenKinds) : n.inner? = none := by
  rw [inner?]
  split
  · rename_i isMember
    exact absurd (isMember ▸ by decide) kind
  · rename_i isCall
    exact absurd (isCall ▸ by decide) kind
  · rfl

/-- What an expression is reached from in the end. -/
def base (n : Node) : Node :=
  match _h : n.inner? with
  | some inner => inner.base
  | none => n
termination_by n
decreasing_by exact sizeOf_inner? _h

/-- The steps by which an expression is reached, each as the expression after it. -/
def steps (n : Node) : List Node :=
  match _h : n.inner? with
  | some inner => inner.steps ++ [n]
  | none => []
termination_by n
decreasing_by exact sizeOf_inner? _h

/-- The text of a step. -/
def stepText (level : Int) (n : Node) : List Char :=
  if n.kind = .memberExpression then
    if n.flag "computed" then '[' :: (n.childSource level "property").toList ++ [']']
    else '.' :: (n.childSource level "property").toList
  else
    '(' :: ([',', ' '].intercalate ((n.children "arguments").map fun argument =>
      (argument.source level).toList) ++ [')'])

variable {n m inner : Node}

theorem base_of_inner? (found : n.inner? = some inner) : n.base = inner.base := by
  rw [base.eq_def n]
  split
  · rename_i other otherFound
    rw [found] at otherFound
    cases otherFound
    rfl
  · rename_i absent
    rw [found] at absent
    cases absent

@[simp]
theorem steps_of_inner? (found : n.inner? = some inner) : n.steps = inner.steps ++ [n] := by
  rw [steps.eq_def n]
  split
  · rename_i other otherFound
    rw [found] at otherFound
    cases otherFound
    rfl
  · rename_i absent
    rw [found] at absent
    cases absent

@[simp]
theorem base_of_no_inner (absent : n.inner? = none) : n.base = n := by
  rw [base.eq_def n]
  split
  · rename_i other found
    rw [absent] at found
    cases found
  · rfl

@[simp]
theorem steps_of_no_inner (absent : n.inner? = none) : n.steps = [] := by
  rw [steps.eq_def n]
  split
  · rename_i other found
    rw [absent] at found
    cases found
  · rfl

section Source

variable (level : Int)

@[simp]
theorem childSource_of_child? {key : String} {child : Node} (held : n.child? key = some child) :
    n.childSource level key = child.source level := by
  rw [childSource.eq_def]
  split
  · rename_i other otherHeld
    rw [held] at otherHeld
    cases otherHeld
    rfl
  · rename_i absent
    rw [held] at absent
    cases absent

theorem textOr_of_text? {key default s : String} (text : n.text? key = some s) :
    n.textOr key default = s := by
  rw [text?, Option.bind_eq_some_iff] at text
  obtain ⟨value, held, text⟩ := text
  rw [textOr, held]
  rw [Value.text?.eq_def] at text
  split at text
  · cases text
    rfl
  · cases text

@[simp]
theorem source_of_identifier {name : String} (kind : n.kind = .identifier)
    (text : n.text? "name" = some name) : n.source level = name := by
  rw [source.eq_def, kind]
  exact textOr_of_text? text

@[simp]
theorem source_of_string {s : String} (kind : n.kind = .stringLiteral)
    (text : n.text? "value" = some s) : n.source level = quotedSource s := by
  rw [source.eq_def, kind]
  dsimp only
  rw [text, Option.getD_some]

@[simp]
theorem source_of_number {x : Number} (kind : n.kind = .numericLiteral)
    (value : n.number? "value" = some x) (noNode : n.child? "value" = none) :
    n.source level = x.sourceText := by
  rw [source.eq_def, kind]
  dsimp only
  rw [numberSource, noNode, value]
  rfl

@[simp]
theorem source_of_truth (kind : n.kind = .booleanLiteral) :
    n.source level = if n.flag "value" then "true" else "false" := by
  rw [source.eq_def, kind]

@[simp]
theorem source_of_null (kind : n.kind = .nullLiteral) : n.source level = "null" := by
  rw [source.eq_def, kind]

@[simp]
theorem source_of_other (kind : n.kind ∉ writtenKinds) :
    n.source level = "/* " ++ n.typeText ++ " */" := by
  simp only [writtenKinds, List.mem_cons, List.not_mem_nil, or_false, not_or] at kind
  rw [source.eq_def]
  split <;> first | rfl | simp_all

@[simp]
theorem source_of_array {elements : List Node} (kind : n.kind = .arrayExpression)
    (items : n.items "elements" = elements.map .node) :
    (n.source level).toList =
      arrayText (elements.map fun element => (element.source level).toList) := by
  let text (element : Value) : String := ((element.node?).map (source level)).getD ""
  have textsEq : (n.items "elements").map text = elements.map (source level) := by
    rw [items, List.map_map]
    rfl
  have written : n.source level = "[" ++ ", ".intercalate (elements.map (source level)) ++ "]" := by
    rw [source.eq_def, kind, ← textsEq]
    dsimp only
    congr 3
    refine Eq.trans (List.map_congr_left ?_) (List.attach_map_val (f := text))
    rintro ⟨element, mem⟩ -
    dsimp only [text]
    split <;> rename_i eq <;> rw [eq] <;> rfl
  rw [written]
  simp [arrayText, String.toList_intercalate, Function.comp_def]

theorem source_of_inner? {inner : Node} (found : n.inner? = some inner) :
    (n.source level).toList = (inner.source level).toList ++ n.stepText level := by
  rw [inner?] at found
  split at found
  · rename_i kind
    rw [source.eq_def, kind]
    dsimp only
    rw [childSource_of_child? level found, stepText, if_pos kind]
    split <;> simp
  · rename_i kind
    rw [source.eq_def, kind]
    dsimp only
    rw [childSource_of_child? level found, stepText, if_neg (by rw [kind]; decide),
      List.attach_map_val]
    simp [String.toList_intercalate, Function.comp_def]
  · cases found

/-- An expression is written from what it is reached from, step by step. -/
theorem source_eq_steps (n : Node) :
    (n.source level).toList =
      (n.base.source level).toList ++ n.steps.flatMap (stepText level) := by
  induction sizeEq : sizeOf n using Nat.strong_induction_on generalizing n with
  | _ size ih =>
      subst sizeEq
      cases found : n.inner? with
      | none => simp [found]
      | some inner =>
          rw [source_of_inner? level found, ih _ (sizeOf_inner? found) inner rfl]
          simp [found, base_of_inner? found]

end Source

end Ast.Node

end PropValidators
