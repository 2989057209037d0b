import PropValidators.Proofs.Printing.Tells

/-!
# Validators read off their texts

The text of a validator determines the validator up to equality of numbers: different validators
have different texts, whatever keys and values they have in them.

Texts are compared from their starts.  The text of a part is followed by one of a few characters,
or by nothing, and these never are in names and numbers, while strings are read up to the quote
that closes them.  So two texts that are the same go on alike behind parts that are alike.
-/

namespace PropValidators

open Ast Node

/-! ## Values -/

/-- Two values are the same text or truth value, or equal as numbers. -/
inductive Literal.Alike : Literal → Literal → Prop
  | text (s : String) : Alike (.text s) (.text s)
  | truth (b : Bool) : Alike (.truth b) (.truth b)
  | number {m n : Number} (equal : m.equals n = true) : Alike (.number m) (.number n)

/-- A value is finite, if it is a number. -/
def Literal.IsFinite : Literal → Prop
  | .number n => n.IsFinite
  | _ => True

/-- The text of a truth value. -/
@[simp]
theorem literalText_truth (b : Bool) :
    literalText (.truth b) = if b then ['t', 'r', 'u', 'e'] else ['f', 'a', 'l', 's', 'e'] := by
  cases b <;> simp [literalText]

/-- What is written without quotes has no quote in it, and ends before a comma or a bracket. -/
theorem literalText_chars {v : Literal} (finite : v.IsFinite) (unquoted : ∀ s, v ≠ .text s) :
    literalText v ≠ [] ∧ ∀ c ∈ literalText v, c ∉ [',', ']', '"'] := by
  cases v with
  | text s => exact absurd rfl (unquoted s)
  | number n =>
      refine ⟨Number.sourceText_ne_nil finite, fun c mem stop => ?_⟩
      have digits : ∀ c ∈ [',', ']', '"'], c.isDigit = false ∧ c ∉ ['-', '+', '.', 'e'] := by
        simp
      obtain ⟨noDigit, noMark⟩ := digits c stop
      rcases Number.mem_sourceText finite mem with digit | mark
      · exact Bool.false_ne_true (noDigit.symm.trans digit)
      · exact noMark mark
  | truth b =>
      rw [literalText_truth]
      cases b <;> simp

/-- A truth value is not written as a number. -/
theorem literalText_truth_ne {n : Number} (finite : n.IsFinite) (b : Bool) :
    literalText (.truth b) ≠ literalText (.number n) := by
  intro eq
  have chars : ∀ c ∈ literalText (.truth b), c.isDigit = true ∨ c ∈ ['-', '+', '.', 'e'] := by
    rw [eq]
    exact fun c mem => Number.mem_sourceText finite mem
  rw [literalText_truth] at chars
  cases b <;> simp at chars

private theorem alike_of_literalText_eq {v w : Literal} (vFinite : v.IsFinite)
    (wFinite : w.IsFinite) (vUnquoted : ∀ s, v ≠ .text s) (wUnquoted : ∀ s, w ≠ .text s)
    (eq : literalText v = literalText w) : v.Alike w := by
  cases v with
  | text s => exact absurd rfl (vUnquoted s)
  | number m =>
      cases w with
      | text s => exact absurd rfl (wUnquoted s)
      | number n => exact .number (Number.equals_of_sourceText_eq vFinite wFinite
          (String.toList_inj.mp eq))
      | truth b => exact absurd eq.symm (literalText_truth_ne vFinite b)
  | truth a =>
      cases w with
      | text s => exact absurd rfl (wUnquoted s)
      | number n => exact absurd eq (literalText_truth_ne wFinite a)
      | truth b =>
          have same : a = b := by
            rw [literalText_truth, literalText_truth] at eq
            revert eq
            cases a <;> cases b <;> decide
          exact same ▸ .truth a

/-- The text of a value does not start with a bracket. -/
theorem literalText_starts {v : Literal} (finite : v.IsFinite) :
    literalText v ≠ [] ∧ (literalText v).head? ≠ some ']' := by
  by_cases isText : ∃ s, v = .text s
  · obtain ⟨s, rfl⟩ := isText
    rw [literalText, toList_quotedSource]
    exact ⟨List.cons_ne_nil _ _, by simp⟩
  · obtain ⟨some, chars⟩ := literalText_chars finite fun s eq => isText ⟨s, eq⟩
    exact ⟨some, fun head => chars ']' (List.mem_of_head? head) (by decide)⟩

/-- Values in an array are read up to the comma or the bracket behind them. -/
theorem tells_literalText {v w : Literal} (vFinite : v.IsFinite) (wFinite : w.IsFinite) :
    Tells [',', ']'] (literalText v) (literalText w) (v.Alike w) := by
  have free : ∀ {v : Literal}, v.IsFinite → (∀ s, v ≠ .text s) →
      (literalText v).Disjoint [',', ']'] := by
    intro v finite unquoted c mem stop
    exact (literalText_chars finite unquoted).2 c mem (List.mem_of_mem_take (i := 2) stop)
  have apart : ∀ {v : Literal} (s : String) (fact : Prop), v.IsFinite → (∀ s, v ≠ .text s) →
      Tells [',', ']'] (literalText v) (literalText (.text s)) fact := by
    intro v s fact finite unquoted
    obtain ⟨some, chars⟩ := literalText_chars finite unquoted
    rw [show literalText (.text s) = _ from toList_quotedSource s]
    refine tells_of_head_ne some (List.cons_ne_nil _ _) fun head => ?_
    exact chars '"' (List.mem_of_head? head) (by decide)
  by_cases vText : ∃ s, v = .text s <;> by_cases wText : ∃ t, w = .text t
  · obtain ⟨s, rfl⟩ := vText
    obtain ⟨t, rfl⟩ := wText
    exact (tells_quotedSource _ s t).imp fun eq => eq ▸ .text s
  · obtain ⟨s, rfl⟩ := vText
    exact (apart s _ wFinite fun t eq => wText ⟨t, eq⟩).symm
  · obtain ⟨t, rfl⟩ := wText
    exact apart t _ vFinite fun s eq => vText ⟨s, eq⟩
  · have vUnquoted : ∀ s, v ≠ .text s := fun s eq => vText ⟨s, eq⟩
    have wUnquoted : ∀ t, w ≠ .text t := fun t eq => wText ⟨t, eq⟩
    exact (tells_of_disjoint (free vFinite vUnquoted) (free wFinite wUnquoted)).imp
      (alike_of_literalText_eq vFinite wFinite vUnquoted wUnquoted)

/-! ## Validators -/

mutual

/-- Two validators are the same up to equality of numbers. -/
inductive Validator.Alike : Validator → Validator → Prop
  | primitive (kind : PrimitiveKind) : Validator.Alike (.primitive kind) (.primitive kind)
  | shape {entries others : List Entry} (each : List.Forall₂ Entry.Alike entries others) :
      Validator.Alike (.shape entries) (.shape others)
  | arrayOf {v w : Validator} (elements : Validator.Alike v w) :
      Validator.Alike (.arrayOf v) (.arrayOf w)
  | oneOf {values others : List Literal} (each : List.Forall₂ Literal.Alike values others) :
      Validator.Alike (.oneOf values) (.oneOf others)
  | oneOfType {members others : List Validator}
      (each : List.Forall₂ Validator.Alike members others) :
      Validator.Alike (.oneOfType members) (.oneOfType others)
  | any : Validator.Alike .any .any
  | required {v w : Validator} (inner : Validator.Alike v w) :
      Validator.Alike (.required v) (.required w)

/-- Two entries are for the same prop, are both required or not, and have validators that are the
same up to equality of numbers. -/
inductive Entry.Alike : Entry → Entry → Prop
  | intro {v w : Validator} (prop : String) (required : Bool)
      (validators : Validator.Alike v w) :
      Entry.Alike ⟨prop, v, required⟩ ⟨prop, w, required⟩

end

namespace Shape

/-- At every depth the numbers among the values of a shape are finite. -/
def FiniteNumbers (shape : Shape) : Prop :=
  division.Everywhere (fun inner => ∀ v ∈ inner.values, v.IsFinite) shape

/-- Two shapes are of the same kind, and of the same run-time kind if they are primitive. -/
inductive SameForm : Shape → Shape → Prop
  | primitive (kind : PrimitiveKind) : SameForm (.primitive kind) (.primitive kind)
  | object (fields others : List Field) : SameForm (.object fields) (.object others)
  | array (element other : Shape) : SameForm (.array element) (.array other)
  | oneOf (values others : List Literal) : SameForm (.oneOf values) (.oneOf others)
  | union (members others : List Shape) : SameForm (.union members) (.union others)
  | unknown : SameForm .unknown .unknown

end Shape

namespace Validator

/-- What may stand behind the check of a validator, or behind what is passed to it. -/
def stops : List Char :=
  [',', ')', ']', '\n', '.']

/-- The name of the check for a run-time kind is none of the others. -/
theorem checkName_notMem {kind : PrimitiveKind} {check : String} (eq : kind.checkName = check) :
    check ∉ ["shape", "arrayOf", "oneOf", "oneOfType", "any"] := by
  subst eq
  cases kind <;> decide

private theorem checkName_injective {kind other : PrimitiveKind}
    (eq : kind.checkName = other.checkName) : kind = other := by
  have read := ofCheck?_checkName kind
  rw [eq, ofCheck?_checkName] at read
  exact (Validator.primitive.inj (Option.some_inj.mp read)).symm

/-- The name of the check tells what kind of shape a validator is made of. -/
theorem sameForm_of_check_eq {shape other : Shape}
    (eq : (ofShape shape).check = (ofShape other).check) : shape.SameForm other := by
  cases shape <;> cases other <;> simp only [ofShape, check] at eq
  case primitive.primitive => exact checkName_injective eq ▸ .primitive _
  case object.object => exact .object _ _
  case array.array => exact .array _ _
  case oneOf.oneOf => exact .oneOf _ _
  case union.union => exact .union _ _
  case unknown.unknown => exact .unknown
  all_goals
    first
    | exact absurd eq (by decide)
    | exact absurd (by decide) (checkName_notMem eq)
    | exact absurd (by decide) (checkName_notMem eq.symm)

private theorem check_disjoint (shape : Shape) :
    (ofShape shape).check.toList.Disjoint ('(' :: stops) := by
  have letters : ∀ c ∈ (ofShape shape).check.toList, c ∉ '(' :: stops := by
    cases shape with
    | primitive kind => cases kind <;> simp [ofShape, check, PrimitiveKind.checkName,
        PrimitiveKind.name, stops]
    | _ => simp [ofShape, check, stops]
  exact fun c mem stop => letters c mem stop

variable (library : String) (level : Int)

private theorem goesOn_argumentText (v : Validator) {xs : List Char} (xsOn : GoesOn stops xs) :
    GoesOn ('(' :: stops) (v.argumentText library level ++ xs) := by
  have bare : GoesOn ('(' :: stops) xs := fun c head => List.mem_cons_of_mem _ (xsOn c head)
  cases v <;> first | exact bare | exact goesOn_cons.mpr List.mem_cons_self

/-- A mark is told from what may stand behind a whole validator. -/
theorem tells_markText (p q : Bool) :
    Tells [',', ')', ']', '\n'] (markText p) (markText q) (p = q) := by
  have unmarked : ∀ {rest xs : List Char}, GoesOn [',', ')', ']', '\n'] xs → '.' :: rest ≠ xs := by
    rintro rest _ xsOn rfl
    exact absurd (goesOn_cons.mp xsOn) (by decide)
  intro xs ys xsOn ysOn eq
  cases p <;> cases q
  · exact ⟨rfl, eq⟩
  · exact absurd eq.symm (unmarked xsOn)
  · exact absurd eq (unmarked ysOn)
  · exact ⟨rfl, List.append_cancel_left eq⟩

/-- Marked validators tell what the validators tell, and whether they are marked. -/
theorem tells_marked {cs ds : List Char} {fact : Prop} (tells : Tells stops cs ds fact)
    (p q : Bool) :
    Tells [',', ')', ']', '\n'] (cs ++ markText p) (ds ++ markText q) (fact ∧ p = q) := by
  have goesOn : ∀ (marked : Bool) (xs : List Char), GoesOn [',', ')', ']', '\n'] xs →
      GoesOn stops (markText marked ++ xs) := by
    intro marked xs xsOn
    cases marked with
    | false => exact fun c head => List.mem_append_left ['.'] (xsOn c head)
    | true => exact goesOn_cons.mpr (by decide)
  exact tells.append (fun _ => tells_markText p q) (goesOn p) (goesOn q)

/-- The text of the validator of a field. -/
@[simp]
theorem preview_validator_ofField (field : Field) :
    (Entry.ofField field).validator.preview library level =
      (ofShape field.shape).preview library level ++ markText (Entry.ofField field).required := by
  rw [Entry.validator_ofField]
  cases (Entry.ofField field).required with
  | true => exact preview_required library level _
  | false => exact (List.append_nil _).symm

/-- The validators of fields are alike if those of the shapes are and both are marked or not. -/
theorem alike_validator_ofField {field other : Field}
    (required : (Entry.ofField field).required = (Entry.ofField other).required)
    (shapes : (ofShape field.shape).Alike (ofShape other.shape)) :
    (Entry.ofField field).validator.Alike (Entry.ofField other).validator := by
  rw [Entry.validator_ofField, Entry.validator_ofField, required]
  cases (Entry.ofField other).required with
  | true => exact .required shapes
  | false => exact shapes

/-- Entries of objects tell their props, their marks and what their validators tell. -/
theorem tells_line {field other : Field}
    (shapes : Tells stops ((ofShape field.shape).preview library level)
      ((ofShape other.shape).preview library level)
      ((ofShape field.shape).Alike (ofShape other.shape))) :
    Tells [',', '\n'] ((Entry.ofField field).line library level)
      ((Entry.ofField other).line library level)
      (Entry.Alike (Entry.ofField field) (Entry.ofField other)) := by
  rw [Entry.line, Entry.line, preview_validator_ofField, preview_validator_ofField]
  have subset : [',', '\n'] ⊆ [',', ')', ']', '\n'] := by simp
  have values := (((tells_marked shapes (Entry.ofField field).required
    (Entry.ofField other).required).mono subset).cons ' ').cons ':'
  refine Tells.append_left (((tells_keySource _ _).append (fun _ => values)
    (fun _ _ => goesOn_cons.mpr List.mem_cons_self)
    (fun _ _ => goesOn_cons.mpr List.mem_cons_self)).imp ?_) _
  rintro ⟨props, validators, required⟩
  have marked := alike_validator_ofField required validators
  generalize Entry.ofField field = entry at props required marked ⊢
  generalize Entry.ofField other = otherEntry at props required marked ⊢
  obtain ⟨prop, validator, mark⟩ := entry
  obtain ⟨otherProp, otherValidator, otherMark⟩ := otherEntry
  obtain rfl : prop = otherProp := props
  obtain rfl : mark = otherMark := required
  exact .intro prop mark marked

/-- Objects tell what their entries tell, one after the other. -/
theorem tells_objectText {library : String} {level : Int} {fields others : List Field}
    {after : List Char}
    (shapes : ∀ field ∈ fields, ∀ other ∈ others,
      Tells stops ((ofShape field.shape).preview library (level + 1))
        ((ofShape other.shape).preview library (level + 1))
        ((ofShape field.shape).Alike (ofShape other.shape))) :
    Tells after (Entry.objectText library level (fields.map Entry.ofField))
      (Entry.objectText library level (others.map Entry.ofField))
      (List.Forall₂ Entry.Alike (fields.map Entry.ofField) (others.map Entry.ofField)) := by
  have textEq : ∀ {fields : List Field}, fields ≠ [] →
      Entry.objectText library level (fields.map Entry.ofField) =
        '\x7b' :: '\n' :: ([',', '\n'].intercalate
          (fields.map fun field => (Entry.ofField field).line library (level + 1)) ++
            '\n' :: ((indentation level).toList ++ ['\x7d'])) := by
    intro fields some
    rw [Entry.objectText, if_neg (by simpa using some), List.map_map]
    simp only [List.cons_append, List.append_assoc]
    rfl
  have emptyEq : Entry.objectText library level [] = ['\x7b', '\x7d'] := if_pos rfl
  by_cases fieldsSome : fields = [] <;> by_cases othersSome : others = []
  · subst fieldsSome othersSome
    exact tells_self .nil
  · subst fieldsSome
    rw [textEq othersSome, List.map_nil, emptyEq]
    exact (tells_of_head_ne (List.cons_ne_nil _ _) (List.cons_ne_nil _ _) (by simp)).cons _
  · subst othersSome
    rw [textEq fieldsSome, List.map_nil, emptyEq]
    exact (tells_of_head_ne (List.cons_ne_nil _ _) (List.cons_ne_nil _ _) (by simp)).cons _
  · rw [textEq fieldsSome, textEq othersSome]
    refine Tells.cons (Tells.cons ?_ '\n') '\x7b'
    refine (tells_intercalate (by decide) (by decide) (by decide) fieldsSome othersSome
      fun field mem other otherMem =>
        tells_line library (level + 1) (shapes field mem other otherMem)).imp fun each => ?_
    rwa [List.forall₂_map_left_iff, List.forall₂_map_right_iff]

/-- The text of the validator of a shape does not start with a bracket. -/
theorem preview_starts {library : String} (isName : IsBareName library) {shape : Shape}
    (named : shape.UniquelyNamed) :
    (ofShape shape).preview library level ≠ [] ∧
      ((ofShape shape).preview library level).head? ≠ some ']' := by
  rw [preview_ofShape library level (Division.everywhere_iff.mp named).1,
    List.head?_append_of_ne_nil _ isName.toList_ne_nil]
  exact ⟨List.append_ne_nil_of_left_ne_nil isName.toList_ne_nil _, isName.head_ne rfl⟩

/-- What is passed to two checks that are the same tells what the values tell, and what the texts of
the parts tell. -/
theorem tells_argumentText {library : String} {level : Int} {shape other : Shape}
    (form : shape.SameForm other) (finite : ∀ v ∈ shape.values ++ other.values, v.IsFinite)
    (starts : ∀ part ∈ shape.parts ++ other.parts, (ofShape part).preview library level ≠ [] ∧
      ((ofShape part).preview library level).head? ≠ some ']')
    (parts : ∀ s ∈ shape.parts, ∀ t ∈ other.parts, ∀ level,
      Tells stops ((ofShape s).preview library level) ((ofShape t).preview library level)
        ((ofShape s).Alike (ofShape t))) :
    Tells stops ((ofShape shape).argumentText library level)
      ((ofShape other).argumentText library level) ((ofShape shape).Alike (ofShape other)) := by
  cases form with
  | primitive kind => exact tells_self (.primitive kind)
  | unknown => exact tells_self .any
  | array element other =>
      have elements := parts element (List.mem_singleton_self _) other
        (List.mem_singleton_self _) level
      exact ((elements.append_right (by decide) []).cons '(').imp .arrayOf
  | oneOf values others =>
      have arrays : Tells [')'] (arrayText (values.map literalText))
          (arrayText (others.map literalText)) (List.Forall₂ Literal.Alike values others) :=
        tells_arrayText (by decide) (by decide) (fun v mem => literalText_starts (finite v mem))
          fun v vMem w wMem => tells_literalText (finite v (List.mem_append_left _ vMem))
            (finite w (List.mem_append_right _ wMem))
      exact ((arrays.append_right (List.mem_singleton_self _) []).cons '(').imp .oneOf
  | union members others =>
      have arrays : Tells [')']
          (arrayText (members.map fun part => (ofShape part).preview library level))
          (arrayText (others.map fun part => (ofShape part).preview library level))
          (List.Forall₂ (fun s t => (ofShape s).Alike (ofShape t)) members others) :=
        tells_arrayText (by decide) (by decide) starts fun s sMem t tMem =>
          parts s sMem t tMem level
      rw [ofShape, ofShape, argumentText, argumentText, ofShapes_eq_map, ofShapes_eq_map,
        List.map_map, List.map_map]
      refine ((arrays.append_right (List.mem_singleton_self _) []).cons '(').imp
        fun each => .oneOfType ?_
      rwa [List.forall₂_map_left_iff, List.forall₂_map_right_iff]
  | object fields others =>
      have objects : Tells [')'] (Entry.objectText library level (Entry.ofFields fields))
          (Entry.objectText library level (Entry.ofFields others))
          (List.Forall₂ Entry.Alike (Entry.ofFields fields) (Entry.ofFields others)) := by
        rw [Entry.ofFields_eq_map, Entry.ofFields_eq_map]
        exact tells_objectText fun field mem other otherMem =>
          parts _ (List.mem_map_of_mem mem) _ (List.mem_map_of_mem otherMem) (level + 1)
      exact ((objects.append_right (List.mem_singleton_self _) []).cons '(').imp .shape

/-- The texts of the validators of shapes tell the validators. -/
theorem tells_preview_ofShape {library : String} (isName : IsBareName library)
    {shape other : Shape} (named : shape.UniquelyNamed) (otherNamed : other.UniquelyNamed)
    (finite : shape.FiniteNumbers) (otherFinite : other.FiniteNumbers) (level : Int) :
    Tells stops ((ofShape shape).preview library level) ((ofShape other).preview library level)
      ((ofShape shape).Alike (ofShape other)) := by
  induction named generalizing other level with
  | @intro shape here below ih =>
      obtain ⟨otherHere, otherBelow⟩ := Division.everywhere_iff.mp otherNamed
      obtain ⟨finiteHere, finiteBelow⟩ := Division.everywhere_iff.mp finite
      obtain ⟨otherFiniteHere, otherFiniteBelow⟩ := Division.everywhere_iff.mp otherFinite
      rw [preview_ofShape library level here, preview_ofShape library level otherHere]
      have values : ∀ v ∈ shape.values ++ other.values, v.IsFinite :=
        List.forall_mem_append.mpr ⟨finiteHere, otherFiniteHere⟩
      have starts : ∀ part ∈ shape.parts ++ other.parts,
          (ofShape part).preview library level ≠ [] ∧
            ((ofShape part).preview library level).head? ≠ some ']' :=
        List.forall_mem_append.mpr ⟨fun _ mem => preview_starts level isName (below _ mem),
          fun _ mem => preview_starts level isName (otherBelow _ mem)⟩
      have arguments (form : shape.SameForm other) :=
        tells_argumentText form values starts fun s sMem t tMem =>
          ih s sMem (otherBelow t tMem) (finiteBelow s sMem) (otherFiniteBelow t tMem)
      -- The check is read first, and says how to read on.
      have checks := (tells_of_disjoint (check_disjoint shape) (check_disjoint other)).imp
        fun eq => sameForm_of_check_eq (String.toList_inj.mp eq)
      exact ((checks.append arguments (fun _ => goesOn_argumentText library level _)
        (fun _ => goesOn_argumentText library level _)).imp And.right).cons '.' |>.append_left _

/-! ## All validators that are made -/

/-- The validators that are made, as `Made` tells, of shapes with no other numbers than finite ones
in them. -/
inductive MadeOfFinite : Validator → Prop
  | ofShape {shape : Shape} (named : shape.UniquelyNamed) (finite : shape.FiniteNumbers) :
      MadeOfFinite (ofShape shape)
  | ofField {field : Field} (named : field.shape.UniquelyNamed)
      (finite : field.shape.FiniteNumbers) : MadeOfFinite (Entry.ofField field).validator
  | ofProps {fields : List Field} {defaults : List String} {entry : Entry}
      (named : (Shape.object fields).UniquelyNamed) (finite : (Shape.object fields).FiniteNumbers)
      (mem : entry ∈ Entry.ofProps fields defaults) : MadeOfFinite entry.validator

/-- What is made of shapes is the validator of a shape, with a mark or without one. -/
theorem MadeOfFinite.exists_shape {v : Validator} (made : v.MadeOfFinite) :
    ∃ (shape : Shape) (marked : Bool), shape.UniquelyNamed ∧ shape.FiniteNumbers ∧
      v = if marked then .required (Validator.ofShape shape) else Validator.ofShape shape := by
  cases made with
  | ofShape named finite => exact ⟨_, false, named, finite, rfl⟩
  | ofField named finite => exact ⟨_, _, named, finite, Entry.validator_ofField _⟩
  | ofProps named finite mem =>
      obtain ⟨field, fieldMem, rfl⟩ := List.mem_map.mp mem
      exact ⟨_, _, (Division.everywhere_iff.mp named).2 _ (List.mem_map_of_mem fieldMem),
        (Division.everywhere_iff.mp finite).2 _ (List.mem_map_of_mem fieldMem),
        Entry.validator_ofField _⟩

private theorem preview_marked (shape : Shape) (marked : Bool) :
    (if marked then Validator.required (ofShape shape) else ofShape shape).preview library level =
      (ofShape shape).preview library level ++ markText marked := by
  cases marked with
  | true => exact preview_required library level _
  | false => exact (List.append_nil _).symm

/-- The text of a validator determines the validator up to equality of the numbers in it.  Where
the library has a plain name, validators that are made of shapes with finite numbers have the same
text at the same level only if they are the same but for numbers that are equal. -/
theorem preview_determines {library : String} (isName : IsBareName library) {v w : Validator}
    (vMade : v.MadeOfFinite) (wMade : w.MadeOfFinite) {level : Int} {text : String}
    (vText : (v.toNode library).rendered level = .ok text)
    (wText : (w.toNode library).rendered level = .ok text) : v.Alike w := by
  have same : v.preview library level = w.preview library level := by
    rw [preview, preview, (rendered_eq_ok_iff.mp vText).2, (rendered_eq_ok_iff.mp wText).2]
  obtain ⟨shape, vMarked, named, finite, rfl⟩ := vMade.exists_shape
  obtain ⟨other, wMarked, otherNamed, otherFinite, rfl⟩ := wMade.exists_shape
  rw [preview_marked, preview_marked] at same
  have tells := tells_preview_ofShape isName named otherNamed finite otherFinite level
  obtain ⟨⟨shapes, marks⟩, -⟩ := tells_marked tells vMarked wMarked [] [] (goesOn_nil _)
    (goesOn_nil _) (by rw [same])
  rw [marks]
  split
  · exact .required shapes
  · exact shapes

/-- An integer and the binary64 number that equals it are written alike. -/
theorem preview_determines_ones :
    let v : Validator := ofShape (.oneOf [.number (.int 1), .text "a"])
    let w : Validator :=
      ofShape (.oneOf [.number (.float (.finite false Binary64.hidden (-52))), .text "a"])
    let text := "PropTypes.oneOf([1, \"a\"])"
    v ≠ w ∧ (v.toNode "PropTypes").rendered 0 = .ok text ∧
      (w.toNode "PropTypes").rendered 0 = .ok text ∧ v.Alike w := by
  intro v w text
  have noFields : ∀ values : List Literal, ((Shape.oneOf values).ownFields.map Field.name).Nodup :=
    fun _ => List.nodup_nil
  have vText : (v.toNode "PropTypes").rendered 0 = .ok text := by
    rw [rendered_toNode "PropTypes" 0 (by decide +kernel), preview_ofShape _ _ (noFields _)]
    rfl
  have wText : (w.toNode "PropTypes").rendered 0 = .ok text := by
    rw [rendered_toNode "PropTypes" 0 (by decide +kernel), preview_ofShape _ _ (noFields _)]
    rfl
  have made : ∀ n : Number, n.IsFinite →
      (ofShape (.oneOf [.number n, .text "a"])).MadeOfFinite := by
    intro n finite
    refine .ofShape ((Shape.everywhere_oneOf _).mpr (noFields _))
      ((Shape.everywhere_oneOf _).mpr ?_)
    exact List.forall_mem_cons.mpr ⟨finite, List.forall_mem_singleton.mpr trivial⟩
  have library : IsBareName "PropTypes" :=
    isBareName_iff.mpr ⟨'P', "ropTypes".toList, rfl, by decide, by decide⟩
  have standard : Binary64.StandardForm Binary64.hidden (-52) :=
    ⟨by decide, by decide, by decide, .inl le_rfl⟩
  refine ⟨?_, vText, wText,
    preview_determines library (made _ trivial) (made _ standard) vText wText⟩
  simp [v, w, ofShape]

end Validator

end PropValidators
