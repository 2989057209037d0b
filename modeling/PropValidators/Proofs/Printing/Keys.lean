import PropValidators.Proofs.Printing.Quoted
import PropValidators.Proofs.Syntax.Expressions
import PropValidators.Proofs.Syntax.Printing

/-!
# Keys of printed objects

The key of a prop is a bare name where the prop can be written so, and a string in double quotes
otherwise.  Both stand for the prop, with one exception.  A line break behind a bare name is
disregarded when it is decided whether the name can stand bare, and then is printed with it, so
that what is printed stands for another prop, the one without the line break.
-/

namespace PropValidators

open Ast Node

/-- A bare name: letters and digits of ASCII, underscores and dollar signs, and no digit first. -/
structure IsBareName (name : String) : Prop where
  nonempty : name ≠ ""
  parts : ∀ c ∈ name.toList, c.isAlphanum = true ∨ c = '_' ∨ c = '$'
  start : ∀ c, name.toList.head? = some c → c.isDigit = false

/-- A bare name with a line break behind it. -/
def IsBrokenName (name : String) : Prop :=
  ∃ bare, IsBareName bare ∧ name = bare ++ "\n"

theorem isIdentifierPart_iff {c : Char} :
    isIdentifierPart c = true ↔ c.isAlphanum = true ∨ c = '_' ∨ c = '$' := by
  simp [isIdentifierPart, or_assoc]

theorem isIdentifierStart_iff {c : Char} :
    isIdentifierStart c = true ↔ isIdentifierPart c = true ∧ c.isDigit = false := by
  have apart : c.isAlpha = true → c.isDigit = false := by
    refine fun letter => Bool.eq_false_iff.mpr fun digit => ?_
    have toNine : c.toNat ≤ '9'.toNat := (Char.isDigit_iff_toNat.mp digit).2
    rcases Bool.or_eq_true_iff.mp letter with upper | lower
    · have fromA : 'A'.val ≤ c.val := (of_decide_eq_true upper).1
      exact absurd ((UInt32.le_iff_toNat_le.mp fromA).trans toNine) (by decide)
    · have fromA : 'a'.val ≤ c.val := of_decide_eq_true (Bool.and_eq_true_iff.mp lower).1
      exact absurd ((UInt32.le_iff_toNat_le.mp fromA).trans toNine) (by decide)
  rw [isIdentifierPart_iff, Char.isAlphanum]
  constructor
  · intro start
    simp only [isIdentifierStart, Bool.or_eq_true, beq_iff_eq] at start
    rcases start with (letter | rfl) | rfl
    · exact ⟨.inl (by rw [letter, Bool.true_or]), apart letter⟩
    · exact ⟨.inr (.inl rfl), rfl⟩
    · exact ⟨.inr (.inr rfl), rfl⟩
  · rintro ⟨part, noDigit⟩
    rw [noDigit, Bool.or_false] at part
    simpa [isIdentifierStart, or_assoc] using part

theorem IsBareName.toList_ne_nil {name : String} (bare : IsBareName name) : name.toList ≠ [] :=
  fun empty => bare.nonempty (String.toList_inj.mp empty)

/-- What is no part of a name is in no bare name. -/
theorem IsBareName.notMem {name : String} (bare : IsBareName name) {c : Char}
    (noPart : isIdentifierPart c = false) : c ∉ name.toList :=
  fun mem => Bool.false_ne_true
    (noPart.symm.trans (isIdentifierPart_iff.mpr (bare.parts c mem)))

/-- What is no start of a name is the start of no bare name. -/
theorem IsBareName.head_ne {name : String} (bare : IsBareName name) {c : Char}
    (noStart : isIdentifierStart c = false) : name.toList.head? ≠ some c := by
  intro head
  have part := isIdentifierPart_iff.mpr (bare.parts c (List.mem_of_head? head))
  have start := isIdentifierStart_iff.mpr ⟨part, bare.start c head⟩
  exact Bool.false_ne_true (noStart.symm.trans start)

/-- A bare name starts with a start and goes on with parts. -/
theorem isBareName_iff {name : String} :
    IsBareName name ↔
      ∃ first rest, name.toList = first :: rest ∧ isIdentifierStart first = true ∧
        rest.all isIdentifierPart = true := by
  constructor
  · intro bare
    obtain ⟨first, rest, eq⟩ := List.exists_cons_of_ne_nil bare.toList_ne_nil
    obtain ⟨-, parts, start⟩ := bare
    rw [eq] at parts start
    rw [List.forall_mem_cons] at parts
    refine ⟨first, rest, eq, ?_, ?_⟩
    · exact isIdentifierStart_iff.mpr ⟨isIdentifierPart_iff.mpr parts.1, start first rfl⟩
    · exact List.all_eq_true.mpr fun c mem => isIdentifierPart_iff.mpr (parts.2 c mem)
  · rintro ⟨first, rest, eq, start, parts⟩
    obtain ⟨part, noDigit⟩ := isIdentifierStart_iff.mp start
    rw [List.all_eq_true] at parts
    refine ⟨?_, ?_, ?_⟩
    · rintro rfl
      cases eq
    · rw [eq, List.forall_mem_cons]
      exact ⟨isIdentifierPart_iff.mp part, fun c mem => isIdentifierPart_iff.mp (parts c mem)⟩
    · rw [eq]
      rintro c ⟨⟩
      exact noDigit

private theorem isIdentifierName_iff_dropFinalNewline {name : String} :
    isIdentifierName name = true ↔ IsBareName (String.ofList (dropFinalNewline name.toList)) := by
  rw [isBareName_iff, String.toList_ofList, isIdentifierName]
  cases dropFinalNewline name.toList with
  | nil => simp
  | cons first rest => simp

/-- What is taken for a bare name is one up to a line break behind it. -/
theorem isIdentifierName_iff {name : String} :
    isIdentifierName name = true ↔ IsBareName name ∨ IsBrokenName name := by
  rw [isIdentifierName_iff_dropFinalNewline]
  by_cases broken : name.toList.getLast? = some '\n'
  · obtain ⟨cs, parted⟩ := List.getLast?_eq_some_iff.mp broken
    have whole : name = String.ofList cs ++ "\n" := by
      rw [← String.toList_inj, parted]
      simp
    have dropped : dropFinalNewline name.toList = cs := by
      rw [dropFinalNewline, if_pos broken, parted, List.dropLast_concat]
    rw [dropped]
    constructor
    · exact fun bare => .inr ⟨_, bare, whole⟩
    · rintro (bare | ⟨bare, isBare, eq⟩)
      · exact absurd (List.mem_of_getLast? broken) (bare.notMem rfl)
      · rw [whole, ← String.toList_inj, String.toList_append, String.toList_append] at eq
        rwa [String.toList_inj.mp (List.append_cancel_right eq)]
  · rw [dropFinalNewline, if_neg broken, String.ofList_toList]
    constructor
    · exact .inl
    · rintro (bare | ⟨bare, -, rfl⟩)
      · exact bare
      · exact absurd (by simp) broken

/-- A bare name is not one with a line break behind it. -/
theorem IsBrokenName.not_isBareName {name : String} (broken : IsBrokenName name) :
    ¬ IsBareName name := by
  rintro whole
  obtain ⟨bare, -, rfl⟩ := broken
  exact whole.notMem (c := '\n') rfl (by simp)

/-- The text of the key for a name. -/
def keySource (name : String) : String :=
  if isIdentifierName name then name else quotedSource name

/-- The text of the key of a property. -/
def Ast.Node.keySource (level : Int) (p : Node) : String :=
  if p.flag "computed" then "[" ++ p.childSource level "key" ++ "]"
  else ((p.child? "key").bind stringKey?).getD (p.childSource level "key")

/-- A property is written with its key first. -/
theorem propertySource_of_property {p : Node} (isProperty : p.kind = .objectProperty)
    (level : Int) :
    p.propertySource level = p.keySource level ++ ": " ++ p.childSource level "value" := by
  rw [propertySource.eq_def, isProperty]
  rfl

/-- A property has the key for a name: the one that is built for it, or a string literal. -/
def Ast.Node.IsKeyed (p : Node) (name : String) : Prop :=
  p.flag "computed" = false ∧ ∃ key, p.child? "key" = some key ∧
    (key = propertyKey name ∨ key.kind = .stringLiteral ∧ key.text? "value" = some name)

theorem isKeyed_property (name : String) (value : Node) : (property name value).IsKeyed name :=
  ⟨rfl, propertyKey name, rfl, .inl rfl⟩

private theorem stringKey?_of_text {key : Node} {name : String}
    (isString : key.kind = .stringLiteral) (text : key.text? "value" = some name) :
    stringKey? key = some (keySource name) := by
  rw [stringKey?, if_pos isString, text]
  rfl

theorem keySource_of_isKeyed {p : Node} {name : String} (keyed : p.IsKeyed name) (level : Int) :
    p.keySource level = keySource name := by
  obtain ⟨plain, key, keyEq, key_of⟩ := keyed
  have written : ((some key).bind stringKey?).getD (key.source level) = keySource name := by
    rcases key_of with rfl | ⟨isString, text⟩
    · rw [propertyKey]
      by_cases identifierName : isIdentifierName name = true
      · rw [if_pos identifierName, source_identifier, keySource, if_pos identifierName]
        rfl
      · rw [if_neg identifierName, Option.bind_some, stringKey?_of_text rfl rfl, Option.getD_some]
    · rw [Option.bind_some, stringKey?_of_text isString text, Option.getD_some]
  rw [Node.keySource, plain, if_neg Bool.false_ne_true, childSource.eq_def, keyEq, ← written]

/-- The text of a key stands for a name: it is the name itself, bare, or a string in double quotes
that is read as the name. -/
def Denotes (key name : String) : Prop :=
  key = name ∧ IsBareName name ∨
    ∃ quoted, key.toList = '"' :: quoted ∧ Json.scanString quoted none [] = some (name, [])

private theorem denotes_quotedSource (name : String) : Denotes (quotedSource name) name := by
  refine .inr ⟨_, ?_, scanString_doubleQuoted .ascii name []⟩
  rw [quotedSource, Text.doubleQuoted, String.toList_ofList]
  rfl

/-- A name with a line break behind it is printed bare, but stands for no prop. -/
theorem IsBrokenName.not_denotes {name : String} (broken : IsBrokenName name) :
    ¬ Denotes name name := by
  rintro (⟨-, bare⟩ | ⟨quoted, eq, -⟩)
  · exact broken.not_isBareName bare
  · obtain ⟨bare, isBare, rfl⟩ := broken
    refine isBare.head_ne (c := '"') rfl ?_
    rw [← List.head?_append_of_ne_nil _ isBare.toList_ne_nil, ← String.toList_append, eq]
    rfl

@[simp]
theorem denotes_keySource_iff {name : String} :
    Denotes (keySource name) name ↔ ¬ IsBrokenName name := by
  rw [keySource]
  by_cases identifierName : isIdentifierName name = true
  · rw [if_pos identifierName]
    rcases isIdentifierName_iff.mp identifierName with bare | broken
    · exact ⟨fun _ broken => broken.not_isBareName bare, fun _ => .inl ⟨rfl, bare⟩⟩
    · exact ⟨fun denotes => absurd denotes broken.not_denotes, absurd broken⟩
  · rw [if_neg identifierName]
    have whole : ¬ IsBrokenName name := fun broken =>
      identifierName (isIdentifierName_iff.mpr (.inr broken))
    exact iff_of_true (denotes_quotedSource name) whole

@[simp]
theorem kind_propertyKey_iff {name : String} :
    (propertyKey name).kind = .identifier ↔ isIdentifierName name = true := by
  rw [propertyKey]
  split
  · rename_i identifierName
    exact iff_of_true rfl identifierName
  · rename_i quoted
    have kindEq : (stringLiteral name).kind = .stringLiteral := rfl
    exact iff_of_false (by rw [kindEq]; decide) quoted

/-- A name is taken for a bare name, and is the name of an identifier as a key, exactly if it is one
or is one with a line break behind it.  The key that is printed for a name, whether it was built or
is a string literal, stands for the name exactly if there is no such line break, and else it is
printed with the line break. -/
theorem keys_denote_iff (name : String) :
    (isIdentifierName name = true ↔ IsBareName name ∨ IsBrokenName name) ∧
      ((propertyKey name).kind = .identifier ↔ IsBareName name ∨ IsBrokenName name) ∧
      (∀ value, (property name value).IsKeyed name) ∧
      ∀ (p : Node) (level : Int), p.IsKeyed name →
        (p.kind = .objectProperty → p.propertySource level =
          p.keySource level ++ ": " ++ p.childSource level "value") ∧
        (Denotes (p.keySource level) name ↔ ¬ IsBrokenName name) ∧
        (IsBrokenName name → p.keySource level = name) := by
  refine ⟨isIdentifierName_iff, kind_propertyKey_iff.trans isIdentifierName_iff,
    isKeyed_property name, fun p level keyed => ?_⟩
  rw [keySource_of_isKeyed keyed]
  refine ⟨fun isProperty => ?_, denotes_keySource_iff, fun broken => ?_⟩
  · rw [propertySource_of_property isProperty, keySource_of_isKeyed keyed]
  · rw [keySource, if_pos (isIdentifierName_iff.mpr (.inr broken))]

/-- A prop with a dash in its name is printed as a string. -/
theorem keys_denote_iff_dashed :
    (property "aria-label" nullLiteral).IsKeyed "aria-label" ∧
      (property "aria-label" nullLiteral).propertySource 1 =
        (property "aria-label" nullLiteral).keySource 1 ++ ": " ++
          (property "aria-label" nullLiteral).childSource 1 "value" ∧
      Denotes ((property "aria-label" nullLiteral).keySource 1) "aria-label" := by
  have keyed := isKeyed_property "aria-label" nullLiteral
  obtain ⟨written, denotes, -⟩ := (keys_denote_iff "aria-label").2.2.2 _ 1 keyed
  refine ⟨keyed, written rfl, denotes.mpr fun broken => ?_⟩
  have identifierName := isIdentifierName_iff.mpr (.inr broken)
  revert identifierName
  decide

/-- A letter with a line break behind it is no bare name, but it is taken for one, and what is
printed as its key does not stand for it. -/
theorem line_break_in_bare_key :
    isIdentifierName "a\n" = true ∧ ¬ IsBareName "a\n" ∧
      (propertyKey "a\n").kind = .identifier ∧
      (property "a\n" nullLiteral).keySource 1 = "a\n" ∧
      ¬ Denotes ((property "a\n" nullLiteral).keySource 1) "a\n" := by
  have broken : IsBrokenName "a\n" :=
    ⟨"a", isBareName_iff.mpr ⟨'a', [], rfl, by decide, rfl⟩, rfl⟩
  have printed : (property "a\n" nullLiteral).keySource 1 = "a\n" :=
    keySource_of_isKeyed (isKeyed_property "a\n" nullLiteral) 1
  refine ⟨by decide, broken.not_isBareName, by decide, printed, ?_⟩
  rw [printed]
  exact broken.not_denotes

end PropValidators
