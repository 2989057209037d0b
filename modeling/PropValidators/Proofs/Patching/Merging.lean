import PropValidators.Proofs.Patching.Plan
import PropValidators.Proofs.Syntax.Documents
import PropValidators.Proofs.Syntax.Expressions

/-!
# Merging into object literals

Merging sets the field for the properties and nothing else: the properties that are there come
first, and the entries for props that no plain name declares follow in their order.  The name that
is written for a prop is read back as that prop, so a prop that was added is declared from then
on.  Entries may be merged all at once or one part after the other.

A new object literal is the empty one with everything added to it.
-/

namespace PropValidators

open Ast Node

@[simp]
theorem missingEntries_nil (entries : List Entry) : missingEntries [] entries = entries :=
  List.filter_eq_self.mpr fun _ _ => rfl

theorem missingEntries_eq_nil {names : List String} {entries : List Entry}
    (declared : ∀ entry ∈ entries, entry.prop ∈ names) : missingEntries names entries = [] := by
  rw [missingEntries, List.filter_eq_nil_iff]
  intro entry mem
  simp [declared entry mem]

/-- The names of the missing entries make up for those that are not declared. -/
@[simp]
theorem mem_append_missingEntries_iff {names : List String} {entries : List Entry}
    {name : String} :
    name ∈ names ++ (missingEntries names entries).map (·.prop) ↔
      name ∈ names ∨ name ∈ entries.map (·.prop) := by
  rw [List.mem_append]
  constructor
  · rintro (declared | missing)
    · exact .inl declared
    · exact .inr ((List.filter_sublist.map _).subset missing)
  · rintro (declared | added)
    · exact .inl declared
    · by_cases declared : name ∈ names
      · exact .inl declared
      · obtain ⟨entry, mem, rfl⟩ := List.mem_map.mp added
        refine .inr (List.mem_map_of_mem ?_)
        rw [missingEntries, List.mem_filter]
        exact ⟨mem, by simp [declared]⟩

theorem mem_append_missingEntries (names : List String) {entries : List Entry} {entry : Entry}
    (mem : entry ∈ entries) :
    entry.prop ∈ names ++ (missingEntries names entries).map (·.prop) :=
  mem_append_missingEntries_iff.mpr (.inr (List.mem_map_of_mem mem))

/-- What is missing of entries once others are added are those that neither were declared nor
have been added. -/
theorem missingEntries_append (names : List String) (es fs : List Entry) :
    missingEntries names (es ++ missingEntries (es.map (·.prop)) fs) =
      missingEntries names es ++
        missingEntries (names ++ (missingEntries names es).map (·.prop)) fs := by
  have same : ∀ f ∈ fs, (!names.contains f.prop && !(es.map (·.prop)).contains f.prop) =
      !(names ++ (missingEntries names es).map (·.prop)).contains f.prop := by
    intro f _
    rw [Bool.eq_iff_iff]
    simp only [Bool.and_eq_true, Bool.not_eq_true', ← Bool.not_eq_true, List.contains_iff_mem,
      mem_append_missingEntries_iff, not_or]
  rw [missingEntries, List.filter_append]
  congr 1
  rw [missingEntries, List.filter_filter, missingEntries]
  exact List.filter_congr same

@[simp]
theorem propertyName?_toProperty (library : String) (entry : Entry) :
    (entry.toProperty library).propertyName? = some entry.prop := by
  have keyEq : (entry.toProperty library).child? "key" = some (propertyKey entry.prop) := rfl
  have flagEq : (entry.toProperty library).flag "computed" = false := rfl
  rw [propertyName?, keyEq, flagEq]
  exact plainKey?_propertyKey entry.prop

@[simp]
theorem isObjectMember_toProperty (library : String) (entry : Entry) :
    isObjectMember (entry.toProperty library) = true := by
  rfl

/-- The names that added properties declare are those of the entries. -/
@[simp]
theorem propertyNames_toProperty (library : String) (entries : List Entry) :
    ((entries.map (Entry.toProperty library)).filter isObjectMember).filterMap propertyName? =
      entries.map (·.prop) := by
  induction entries with
  | nil => rfl
  | cons entry entries ih =>
      rw [List.map_cons, List.filter_cons_of_pos (isObjectMember_toProperty library entry),
        List.filterMap_cons, propertyName?_toProperty, List.map_cons, ih]

theorem fresh_toProperties (library : String) (entries : List Entry) :
    ∀ p ∈ entries.map (Entry.toProperty library), Fresh p := by
  intro p mem
  obtain ⟨entry, -, rfl⟩ := List.mem_map.mp mem
  exact entry.fresh_toProperty library

/-- What is met in going through the properties afterwards. -/
@[simp]
theorem propertyItems_appendProperties (object : Node) (added : List Node) :
    propertyItems (appendProperties object added) = propertyItems object ++ added.map .node := by
  have fieldEq : propertyField (appendProperties object added) = propertyField object := rfl
  rw [propertyItems, fieldEq, appendProperties, held?_setField_self]
  rfl

@[simp]
theorem declaredNames_appendProperties (object : Node) (library : String) (entries : List Entry) :
    declaredNames (appendProperties object (entries.map (Entry.toProperty library))) =
      declaredNames object ++ entries.map (·.prop) := by
  rw [declaredNames, propertyItems_appendProperties, List.filterMap_append, List.filter_append,
    List.filterMap_append, filterMap_node?_map_node, propertyNames_toProperty, declaredNames]

@[simp]
theorem appendProperties_appendProperties (object : Node) (added more : List Node) :
    appendProperties (appendProperties object added) more =
      appendProperties object (added ++ more) := by
  have fieldEq : propertyField (appendProperties object added) = propertyField object := rfl
  rw [appendProperties, fieldEq, propertyItems_appendProperties, appendProperties,
    setField_setField, appendProperties, List.map_append, List.append_assoc]

theorem objectOf_eq_appendProperties (added : List Node) :
    objectOf added = appendProperties (.ofDeclared "ObjectExpression" []) added := by
  rw [appendProperties_of_object fresh_emptyObject.1 (by decide)]
  rfl

/-- The object literal without properties. -/
def emptyObject : Node := .ofDeclared "ObjectExpression" []

/-- Merging adds what is missing to the object literal that is there, or to the empty one. -/
theorem mergeEntries_eq (library : String) (existing : Option Node) (entries : List Entry) :
    mergeEntries library existing entries =
      let object := existing.getD emptyObject
      appendProperties object
        ((missingEntries (declaredNames object) entries).map (Entry.toProperty library)) := by
  cases existing with
  | none =>
      have noNames : declaredNames emptyObject = [] := rfl
      rw [mergeEntries, objectOf_eq_appendProperties, Option.getD_none]
      dsimp only
      rw [noNames, missingEntries_nil]
      rfl
  | some object => rfl

theorem declaredNames_mergeEntries (library : String) (existing : Option Node)
    (entries : List Entry) :
    declaredNames (mergeEntries library existing entries) =
      let names := declaredNames (existing.getD emptyObject)
      names ++ (missingEntries names entries).map (·.prop) := by
  rw [mergeEntries_eq]
  exact declaredNames_appendProperties _ _ _

/-- Entries may be merged in two steps. -/
theorem mergeEntries_mergeEntries (library : String) (existing : Option Node)
    (es fs : List Entry) :
    mergeEntries library (some (mergeEntries library existing es)) fs =
      mergeEntries library existing (es ++ missingEntries (es.map (·.prop)) fs) := by
  rw [mergeEntries, declaredNames_mergeEntries, mergeEntries_eq library existing es,
    mergeEntries_eq library existing (es ++ _)]
  dsimp only
  rw [appendProperties_appendProperties, missingEntries_append, List.map_append]

/-- A sound object literal stays one, and its names can be told before and afterwards. -/
theorem sound_mergeEntries {object : Node} (sound : object.Sound)
    (isObject : object.kind = .objectExpression) (library : String) (entries : List Entry) :
    (mergeEntries library (some object) entries).Sound ∧
      (mergeEntries library (some object) entries).kind = .objectExpression ∧
      declarationFault? (mergeEntries library (some object) entries) = none := by
  have mergedSound : (mergeEntries library (some object) entries).Sound :=
    sound_appendProperties sound isObject (fresh_toProperties library _)
  exact ⟨mergedSound, isObject, declarationFault?_of_sound mergedSound isObject⟩

/-- What merging does to an object literal, or to the empty one if there is none.  Its type and
all fields but the properties stay as they are.  The properties are those that were there, as
they were, and after them the entries in order whose props no plain name declared.  The plain
names are then those that were declared and those of the entries.  Entries merged later are
merged as if they had come with the first ones, without those of the same props; so nothing is
added when the same entries are merged again.  A sound object literal can be merged into, and the
result is one too. -/
theorem merging_laws (library : String) (existing : Option Node) (es fs : List Entry) :
    let object := existing.getD emptyObject
    let merged := mergeEntries library existing es
    merged.type = object.type ∧
      (merged.fields.filter fun field => field.1 != propertyField object) =
        (object.fields.filter fun field => field.1 != propertyField object) ∧
      propertyItems merged = propertyItems object ++
        ((missingEntries (declaredNames object) es).map (Entry.toProperty library)).map .node ∧
      (∀ name, name ∈ declaredNames merged ↔
        name ∈ declaredNames object ∨ name ∈ es.map (·.prop)) ∧
      mergeEntries library (some merged) fs =
        mergeEntries library existing (es ++ missingEntries (es.map (·.prop)) fs) ∧
      mergeEntries library (some merged) es = merged ∧
      (object.Sound → object.kind = .objectExpression →
        declarationFault? object = none ∧ merged.Sound ∧ merged.kind = .objectExpression ∧
          declarationFault? merged = none) := by
  intro object merged
  have mergedEq : merged = appendProperties object
      ((missingEntries (declaredNames object) es).map (Entry.toProperty library)) :=
    mergeEntries_eq library existing es
  refine ⟨?_, ?_, ?_, fun name => ?_, ?_, ?_, fun sound isObject => ?_⟩
  · rw [mergedEq]
    rfl
  · rw [mergedEq]
    exact filter_putField _ _ _ _
  · rw [mergedEq, propertyItems_appendProperties]
  · rw [mergedEq, declaredNames_appendProperties, mem_append_missingEntries_iff]
  · exact mergeEntries_mergeEntries library existing es fs
  · have nothing : missingEntries (es.map (·.prop)) es = [] :=
      missingEntries_eq_nil fun entry mem => List.mem_map_of_mem mem
    rw [mergeEntries_mergeEntries, nothing, List.append_nil]
  · have asObject : merged = mergeEntries library (some object) es := mergedEq
    rw [asObject]
    exact ⟨declarationFault?_of_sound sound isObject,
      sound_mergeEntries sound isObject library es⟩

/-- A property `[key]: true`. -/
def computedProperty : Node :=
  .ofDeclared "ObjectProperty"
    [("key", .node (identifier "key")), ("value", .node (booleanLiteral true)),
      ("computed", .flag true)]

/-- A property `7: true`. -/
def numericProperty : Node :=
  propertyOf (numericLiteral (.int 7)) (booleanLiteral true)

/-- A method. -/
def methodMember : Node :=
  .ofDeclared "ObjectMethod" [("key", .node (identifier "render"))]

/-- An object literal with all kinds of members, and a field that its kind does not know. -/
def handWrittenObject : Node :=
  ⟨"ObjectExpression",
    [(.declared "properties", .nodes
        [.ofDeclared "SpreadElement" [("argument", .node (identifier "base"))], computedProperty,
          numericProperty, methodMember, property "data-id" (booleanLiteral true)]),
      (.unknown "extra", .flag true)]⟩

/-- The object literal as it is written. -/
def handWrittenJson : Json :=
  nodeJson "ObjectExpression" [("properties", .array [
      nodeJson "SpreadElement" [("argument", identifierJson "base")],
      nodeJson "ObjectProperty" [("key", identifierJson "key"), ("value", booleanLiteralJson true),
        ("computed", .bool true)],
      propertyOfJson (numericLiteralJson 7) (booleanLiteralJson true),
      nodeJson "ObjectMethod" [("key", identifierJson "render")],
      propertyOfJson (stringLiteralJson "data-id") (booleanLiteralJson true)]),
    ("extra", .bool true)]

private theorem sound_handWrittenObject : handWrittenObject.Sound := by
  have distinct : handWrittenJson.Distinct := by
    simp [handWrittenJson]
  have read : readNode [] handWrittenJson = .ok handWrittenObject := by rfl
  exact sound_of_readNode distinct read

/-- The method and the property with a quoted name count as declared.  The computed key and the
number do not, nor what the spread may hold; their names are added once. -/
theorem merging_laws_handWrittenObject :
    let es : List Entry := [⟨"data-id", .any, false⟩, ⟨"key", .any, false⟩]
    let fs : List Entry := [⟨"key", .primitive .string, false⟩, ⟨"7", .any, false⟩,
      ⟨"render", .any, false⟩]
    let merged := mergeEntries "PropTypes" (some handWrittenObject) es
    handWrittenObject.Sound ∧ handWrittenObject.kind = .objectExpression ∧
      declaredNames handWrittenObject = ["render", "data-id"] ∧
      propertyItems merged = propertyItems handWrittenObject ++
        [.node (Entry.toProperty "PropTypes" ⟨"key", .any, false⟩)] ∧
      mergeEntries "PropTypes" (some merged) fs =
        mergeEntries "PropTypes" (some handWrittenObject)
          (es ++ [⟨"7", .any, false⟩, ⟨"render", .any, false⟩]) ∧
      merged.Sound ∧ declarationFault? merged = none := by
  intro es fs merged
  have isObject : handWrittenObject.kind = .objectExpression := by rfl
  obtain ⟨-, -, items, -, twice, -, kept⟩ :=
    merging_laws "PropTypes" (some handWrittenObject) es fs
  obtain ⟨-, mergedSound, -, noFault⟩ := kept sound_handWrittenObject isObject
  exact ⟨sound_handWrittenObject, isObject, by rfl, items, twice, mergedSound, noFault⟩

end PropValidators
