import PropValidators.Proofs.Patching.Reports
import PropValidators.Proofs.Patching.Rewritten
import PropValidators.Proofs.Resolution.Shapes

/-!
# Complete validators

A class that is reported to have all its validators has them in one object literal.  What was
written in it by hand stays in front, and one property for every other prop comes after it, in
the order of the fields of the props type.  A class of any other status stays as it is.
-/

namespace PropValidators

open Ast Node

/-! ## The object of validators -/

/-- The object literal with the validators of a class: the value of the static property, or the
first argument of a call there. -/
def validatorObject? (property : String) (c : Node) : Option Node :=
  (staticValue? (staticMember? property c)).bind fun value => mergeTarget? (some value)

/-- The properties of the object literal with the validators, if there is one. -/
def writtenProperties (property : String) (c : Node) : List Node :=
  ((validatorObject? property c).map fun object => object.children "properties").getD []

/-- The plain names of properties and methods. -/
def memberNames (properties : List Node) : List String :=
  (properties.filter isObjectMember).filterMap propertyName?

@[simp]
theorem memberNames_append (properties more : List Node) :
    memberNames (properties ++ more) = memberNames properties ++ memberNames more := by
  rw [memberNames, List.filter_append, List.filterMap_append]
  rfl

private theorem declaredNames_eq_memberNames {object : Node} (sound : object.Sound)
    (isObject : object.kind = .objectExpression) :
    declaredNames object = memberNames (object.children "properties") :=
  declaredNames_of_object sound isObject

section Written

variable {property : String} {c declared target : Node}

theorem validatorObject?_of_value {value : Node}
    (found : staticMember? property c = some declared)
    (held : declared.child? "value" = some value) :
    validatorObject? property c = mergeTarget? (some value) := by
  have valueEq : staticValue? (staticMember? property c) = some value := by
    rw [found]
    exact held
  rw [validatorObject?, valueEq, Option.bind_some]

/-- What is merged into has the properties that are written in the class. -/
theorem writtenProperties_of_target (found : staticMember? property c = some declared)
    (targetEq : mergeTarget? (declared.child? "value") = some target) :
    writtenProperties property c = target.children "properties" := by
  cases held : declared.child? "value" with
  | none =>
      have valueEq : staticValue? (staticMember? property c) = none := by
        rw [found]
        exact held
      rw [held] at targetEq
      cases targetEq
      rw [writtenProperties, validatorObject?, valueEq]
      rfl
  | some value =>
      rw [held] at targetEq
      rw [writtenProperties, validatorObject?_of_value found held, targetEq]
      rfl

private theorem writtenProperties_of_absent (absent : staticMember? property c = none) :
    writtenProperties property c = [] := by
  rw [writtenProperties, validatorObject?, absent]
  rfl

end Written

/-! ## The object after a change -/

section Added

variable {c target : Node} {property : String}

/-- The new static property holds the new object literal. -/
theorem validatorObject?_insert (sound : c.Sound) (isClass : c.kind = .classDeclaration)
    {properties : List Node} (fresh : ∀ p ∈ properties, Fresh p) :
    validatorObject? property
        (ClassEdit.apply (.insert (staticProperty property (objectOf properties))) c) =
      some (objectOf properties) := by
  have freshEdit : (ClassEdit.insert (staticProperty property (objectOf properties))).IsFresh :=
    fresh_staticProperty property (fresh_objectOf fresh)
  have found := staticMember?_insert sound isClass freshEdit
    (isStaticProperty_staticProperty property (objectOf properties))
  rw [validatorObject?_of_value found rfl]
  rfl

/-- The properties are added to the object literal that is found. -/
theorem validatorObject?_extend (sound : c.Sound) (isClass : c.kind = .classDeclaration)
    {declared : Node} (found : staticMember? property c = some declared)
    (targetEq : mergeTarget? (declared.child? "value") = some target) {added : List Node}
    (fresh : ∀ p ∈ added, Fresh p) :
    validatorObject? property (ClassEdit.apply (.extend property added) c) =
      some (appendProperties target added) := by
  have declaredSound := (sound_staticMember? sound isClass found).1
  have isObject := (sound_mergeTarget? (fun _ => declaredSound.of_child?) targetEq).2
  have extended : staticMember? property (ClassEdit.apply (.extend property added) c) =
      some (extendProperty added declared) := by
    rw [staticMember?_extend sound isClass fresh, found, Option.map_some]
  have held : (extendProperty added declared).child? "value" =
      some (rewrap (declared.child? "value") (appendProperties target added)) := by
    rw [extendProperty_eq, targetEq]
    exact child?_set_node declared "value" _
  rw [validatorObject?_of_value extended held]
  exact mergeTarget?_rewrap targetEq ((kind_setField ..).trans isObject)

end Added

section Planned

variable {options : Options} {name : Option String} {typeNames : List String}
  {entries : List Entry} {result : PatchResult} {edit : Option ClassEdit} {c : Node}

/-- Where the status is `patched`, the entries for which nothing is written have been added at
the end, and they are what the report says. -/
theorem exists_object_of_patched (sound : c.Sound) (isClass : c.kind = .classDeclaration)
    (needed : entries ≠ [])
    (planEq : (result, edit) = plannedEntries options name typeNames entries
      (.of options.validatorProperty c))
    (patched : result.patched = true) :
    let written := writtenProperties options.validatorProperty c
    let missing := missingEntries (memberNames written) entries
    result.added = missing.map (·.prop) ∧
      ∃ object, validatorObject? options.validatorProperty (applyEdit edit c) = some object ∧
        object.children "properties" =
          written ++ missing.map (Entry.toProperty options.validatorNamespace) := by
  intro written missing
  rw [Standing.of] at planEq
  cases found : staticMember? options.validatorProperty c with
  | none =>
      rw [found] at planEq
      cases planEq
      have writtenEq : written = [] := writtenProperties_of_absent found
      have missingEq : missing = entries := by
        change missingEntries (memberNames written) entries = entries
        rw [writtenEq]
        exact missingEntries_nil entries
      refine ⟨congrArg (List.map Entry.prop) missingEq.symm, _,
        validatorObject?_insert sound isClass (fresh_toProperties _ entries), ?_⟩
      rw [children_objectOf, writtenEq, missingEq, List.nil_append]
  | some declared =>
      rw [found, Option.map_some, Option.getD_some, Standing.ofValue] at planEq
      cases targetEq : mergeTarget? (declared.child? "value") with
      | none =>
          rw [targetEq] at planEq
          cases planEq
          cases patched
      | some target =>
          have declaredSound := (sound_staticMember? sound isClass found).1
          obtain ⟨targetSound, isObject⟩ :=
            sound_mergeTarget? (fun _ => declaredSound.of_child?) targetEq
          have writtenEq : written = target.children "properties" :=
            writtenProperties_of_target found targetEq
          have missingEq : missing = missingEntries (declaredNames target) entries := by
            rw [declaredNames_eq_memberNames targetSound isObject, ← writtenEq]
          rw [targetEq] at planEq
          by_cases complete : missing = []
          · -- Nothing is added, and there is a value, since some entry is written in it.
            rw [missingEq] at complete
            have hasValue := isSome_of_complete targetEq needed complete
            dsimp only at planEq
            rw [hasValue, plannedEntries_of_complete complete] at planEq
            cases planEq
            obtain ⟨value, held⟩ := Option.isSome_iff_exists.mp hasValue
            rw [held] at targetEq
            rw [missingEq, complete]
            refine ⟨rfl, target, (validatorObject?_of_value found held).trans targetEq, ?_⟩
            rw [writtenEq, List.map_nil, List.append_nil]
          · rw [missingEq] at complete
            dsimp only [plannedEntries] at planEq
            rw [if_pos (by simp [complete])] at planEq
            cases planEq
            rw [missingEq]
            refine ⟨rfl, _, validatorObject?_extend sound isClass found targetEq
              (fresh_toProperties _ _), ?_⟩
            rw [children_appendProperties targetSound isObject, writtenEq]

/-- Where the status is not `patched`, nothing is changed. -/
theorem edit_eq_none_of_unpatched {standing : Standing}
    (planEq : (result, edit) = plannedEntries options name typeNames entries standing)
    (unpatched : result.patched = false) : edit = none := by
  cases standing with
  | absent =>
      cases planEq
      cases unpatched
  | closed => exact congrArg Prod.snd planEq
  | listed names hasValue =>
      cases planEq
      cases unpatched

end Planned

/-! ## The properties of fields -/

/-- Whether a name is a plain key of the static defaults object of a class. -/
def HasDefault (property : String) (c : Node) (name : String) : Prop :=
  ∃ value, staticValue? (staticMember? property c) = some value ∧
    value.kind = .objectExpression ∧ name ∈ objectKeys value

@[simp]
theorem mem_defaultNames {property : String} {c : Node} {name : String} :
    name ∈ defaultNames property c ↔ HasDefault property c name := by
  rw [defaultNames, HasDefault]
  cases staticValue? (staticMember? property c) with
  | none => simp
  | some value =>
      rw [Option.map_some, Option.getD_some, valueNames]
      split
      · rename_i isObject
        simp [isObject]
      · rename_i notObject
        simp [notObject]

/-- Whether the prop of a field has to be given to a class. -/
def Field.RequiredBy (options : Options) (c : Node) (field : Field) : Prop :=
  field.optional = false ∧ field.shape.isUnknown = false ∧
    ¬ HasDefault options.defaultsProperty c field.name

/-- Whether an expression ends in the access to a member of a name. -/
def EndsIn (name : String) (n : Node) : Prop :=
  ∃ object, n = member object name

/-- A property that checks the prop of a field in a class: its value is the validator of the
shape of the field, which is marked exactly if the prop is required. -/
structure ChecksField (options : Options) (c : Node) (field : Field) (p : Node) : Prop where
  named : p.propertyName? = some field.name
  valued : ∃ value, p = property field.name value ∧
    (value = (Validator.ofShape field.shape).toNode options.validatorNamespace ∨
      value = member ((Validator.ofShape field.shape).toNode options.validatorNamespace)
        "isRequired") ∧
    (EndsIn "isRequired" value ↔ field.RequiredBy options c)

private theorem member_inj {object other : Node} {name key : String}
    (same : member object name = member other key) : object = other ∧ name = key := by
  simp only [member, ofDeclared, mk.injEq] at same
  simp_all [identifier, ofDeclared, Value.text]

/-- The validator of a shape is not marked. -/
theorem not_endsIn_toNode_ofShape (library : String) (shape : Shape) :
    ¬ EndsIn "isRequired" ((Validator.ofShape shape).toNode library) := by
  rintro ⟨object, same⟩
  have notCall {check : String} {argument : Node} :
      checkCall library check argument ≠ member object "isRequired" := by
    intro callEq
    have types : "CallExpression" = "MemberExpression" := congrArg Node.type callEq
    exact absurd types (by decide)
  cases shape with
  | primitive kind =>
      have checkEq := (member_inj same).2
      cases kind <;> exact absurd checkEq (by decide)
  | unknown => exact absurd (member_inj same).2 (by decide)
  | object fields => exact notCall same
  | array element => exact notCall same
  | oneOf values => exact notCall same
  | union members => exact notCall same

/-- The entry that is planned for a field. -/
def entryFor (options : Options) (c : Node) (field : Field) : Entry :=
  .ofField { field with hasDefault :=
    (defaultNames options.defaultsProperty c).contains field.name }

@[simp]
theorem prop_entryFor (options : Options) (c : Node) (field : Field) :
    (entryFor options c field).prop = field.name :=
  Entry.prop_ofField _

@[simp]
theorem required_entryFor {options : Options} {c : Node} {field : Field} :
    (entryFor options c field).required = true ↔ field.RequiredBy options c := by
  rw [entryFor, Entry.required_ofField, Field.RequiredBy, ← mem_defaultNames]
  simp only [Bool.and_eq_true, Bool.not_eq_true', List.contains_eq_mem, decide_eq_false_iff_not]
  tauto

/-- The property that is added for a field checks its prop. -/
theorem checksField_toProperty (options : Options) (c : Node) (field : Field) :
    ChecksField options c field
      ((entryFor options c field).toProperty options.validatorNamespace) := by
  constructor
  · rw [propertyName?_toProperty, prop_entryFor]
  · have propertyEq : (entryFor options c field).toProperty options.validatorNamespace =
        property field.name
          ((entryFor options c field).validator.toNode options.validatorNamespace) := by
      rw [Entry.toProperty, prop_entryFor]
    have validatorEq : (entryFor options c field).validator =
        if (entryFor options c field).required then .required (.ofShape field.shape)
        else .ofShape field.shape :=
      Entry.validator_ofField _
    refine ⟨_, propertyEq, ?_⟩
    rw [validatorEq, ← required_entryFor]
    split
    · rename_i required
      exact ⟨.inr rfl, iff_of_true ⟨_, rfl⟩ required⟩
    · rename_i optional
      exact ⟨.inl rfl, iff_of_false (not_endsIn_toNode_ofShape _ _) optional⟩

/-- The entries that are missing are those of the fields whose names are not written. -/
@[simp]
theorem missingEntries_ofProps (options : Options) (c : Node) (names : List String)
    (fields : List Field) :
    missingEntries names (Entry.ofProps fields (defaultNames options.defaultsProperty c)) =
      (fields.filter fun field => !names.contains field.name).map (entryFor options c) := by
  rw [missingEntries, Entry.ofProps, List.filter_map]
  rfl

/-! ## Completing the validators of a class -/

section Completion

variable {options : Options} {context : Context} {c : Node} {result : PatchResult}
  {edit : Option ClassEdit}

private theorem exists_fields_of_usable {shape : Shape} {defaults : List String}
    (usable : Entry.anyUsable (entriesOf shape defaults) = true) :
    ∃ fields, shape = .object fields := by
  cases shape with
  | object fields => exact ⟨fields, rfl⟩
  | _ => cases usable

/-- The change of a class alone is made in that class. -/
theorem editClasses_singleton (isClass : c.kind = .classDeclaration) (edit : Option ClassEdit) :
    (editClasses [edit] c).1 = applyEdit edit c := by
  have same := (editFields_of_idle c.fields [] fun _ mem => absurd mem List.not_mem_nil).1
  rw [editClasses_of_class isClass]
  change applyEdit edit ⟨c.type, (editFields [] c.fields).1⟩ = _
  rw [same]
  cases c
  rfl

/-- The object literal after a change that was planned for fields. -/
theorem exists_object_of_fields (sound : c.Sound) (isClass : c.kind = .classDeclaration)
    {fields : List Field} {name : Option String} {typeNames : List String}
    (usable : Entry.anyUsable
      (Entry.ofProps fields (defaultNames options.defaultsProperty c)) = true)
    (planEq : (result, edit) = plannedEntries options name typeNames
      (Entry.ofProps fields (defaultNames options.defaultsProperty c))
      (.of options.validatorProperty c))
    (patched : result.patched = true) :
    let written := writtenProperties options.validatorProperty c
    let missing := fields.filter fun field => field.name ∉ memberNames written
    result.added = missing.map Field.name ∧
      ∃ object added, validatorObject? options.validatorProperty (applyEdit edit c) = some object ∧
        object.children "properties" = written ++ added ∧
        List.Forall₂ (ChecksField options c) missing added := by
  intro written missing
  have needed : Entry.ofProps fields (defaultNames options.defaultsProperty c) ≠ [] := by
    intro noEntries
    rw [noEntries] at usable
    cases usable
  obtain ⟨addedEq, object, objectEq, childrenEq⟩ :=
    exists_object_of_patched sound isClass needed planEq patched
  have missingEq : missingEntries (memberNames written)
      (Entry.ofProps fields (defaultNames options.defaultsProperty c)) =
        missing.map (entryFor options c) := by
    rw [missingEntries_ofProps]
    simp only [missing, List.contains_eq_mem, decide_not]
  rw [missingEq] at addedEq childrenEq
  rw [List.map_map] at addedEq childrenEq
  refine ⟨addedEq.trans (List.map_congr_left fun field _ => prop_entryFor options c field), object,
    _, objectEq, childrenEq, ?_⟩
  rw [List.forall₂_map_right_iff, List.forall₂_same]
  exact fun field _ => checksField_toProperty options c field

/-- The names of the properties that check fields are those of the fields. -/
theorem memberNames_of_checksField {fields : List Field} {properties : List Node}
    (checks : List.Forall₂ (ChecksField options c) fields properties) :
    memberNames properties = fields.map Field.name := by
  induction checks with
  | nil => rfl
  | cons head rest ih =>
      rename_i field p fields properties
      obtain ⟨value, rfl, -⟩ := head.valued
      have isMember : isObjectMember (property field.name value) = true := by rfl
      rw [memberNames, List.filter_cons_of_pos isMember, List.filterMap_cons_some head.named,
        ← memberNames, ih, List.map_cons]

/-- Patching a class leaves it as it is, unless it says that all validators are there.  Then the
object literal with the validators has what was written in it before, and after that a property
for every field whose name was not the plain name of a property or method in it.  These are
the names in the report, in the order of the fields and each once. -/
theorem patching_completes (sound : c.Sound) (isClass : c.kind = .classDeclaration)
    (formed : context.BindingsWellFormed)
    (returned : (planClass options context c).outcome = .ok (result, edit)) :
    let after := (editClasses [edit] c).1
    let written := writtenProperties options.validatorProperty c
    (result.patched = false → after = c) ∧
      (result.patched = true → ∃ argument rest fields object added,
        c.typeArguments = argument :: rest ∧
        (resolveType context (TypeExpr.ofValue argument)).outcome = .ok (.object fields) ∧
        validatorObject? options.validatorProperty after = some object ∧
        object.children "properties" = written ++ added ∧
        (∀ field ∈ fields, field.name ∈ memberNames (object.children "properties")) ∧
        result.added = (fields.map Field.name).filter (fun name => name ∉ memberNames written) ∧
        result.added.Nodup ∧
        List.Forall₂ (ChecksField options c)
          (fields.filter fun field => field.name ∉ memberNames written) added) := by
  intro after written
  have afterEq : after = applyEdit edit c := editClasses_singleton isClass edit
  rw [outcome_planClass sound isClass] at returned
  rcases planReading_cases returned with
    ⟨rfl, -, -, unpatched⟩ | ⟨propsType, shape, propsEq, shapeEq, usable, planEq⟩
  · refine ⟨fun _ => afterEq, fun patched => ?_⟩
    rw [unpatched] at patched
    cases patched
  refine ⟨fun unpatched => ?_, fun patched => ?_⟩
  · rw [afterEq, edit_eq_none_of_unpatched planEq unpatched]
    rfl
  obtain ⟨argument, rest, argumentsEq, rfl⟩ : ∃ argument rest,
      c.typeArguments = argument :: rest ∧ TypeExpr.ofValue argument = propsType := by
    change c.typeArguments.head?.map TypeExpr.ofValue = some propsType at propsEq
    cases argumentsEq : c.typeArguments with
    | nil =>
        rw [argumentsEq] at propsEq
        cases propsEq
    | cons argument rest =>
        rw [argumentsEq] at propsEq
        exact ⟨argument, rest, rfl, Option.some.inj propsEq⟩
  obtain ⟨fields, rfl⟩ := exists_fields_of_usable usable
  obtain ⟨addedEq, object, added, objectEq, childrenEq, checks⟩ :=
    exists_object_of_fields sound isClass usable planEq patched
  have distinct : (fields.map Field.name).Nodup := by
    cases Resolution.answerWellFormed_of_resolved (.type _) formed trivial shapeEq with
    | object names _ => exact names
  refine ⟨argument, rest, fields, object, added, argumentsEq, shapeEq, afterEq ▸ objectEq,
    childrenEq, ?_, ?_, ?_, checks⟩
  · intro field mem
    rw [childrenEq, memberNames_append, memberNames_of_checksField checks, List.mem_append]
    by_cases declared : field.name ∈ memberNames written
    · exact .inl declared
    · exact .inr (List.mem_map_of_mem (List.mem_filter.mpr ⟨mem, by simpa using declared⟩))
  · rw [addedEq, List.filter_map]
    rfl
  · rw [addedEq]
    exact distinct.sublist (List.filter_sublist.map Field.name)

end Completion

/-- In the gallery a validator is added after the one that is written in the call, and the prop
is required. -/
theorem patching_completes_galleryClass :
    galleryClass.Sound ∧ galleryClass.kind = .classDeclaration ∧
      galleryContext.BindingsWellFormed ∧
      ∃ edit, (planClass {} galleryContext galleryClass).outcome =
          .ok (⟨.patched, some "Gallery", ["Props"], ["text"]⟩, edit) ∧
        ∃ object,
          validatorObject? "propTypes" (editClasses [edit] galleryClass).1 = some object ∧
          object.children "properties" =
            [property "panel" titledClass,
              property "text"
                (member (member (identifier "PropTypes") "string") "isRequired")] := by
  obtain ⟨sound, isClass⟩ := sound_galleryClass
  have formed : galleryContext.BindingsWellFormed := List.forall_mem_nil _
  obtain ⟨edit, returned⟩ := exists_plan_galleryClass
  obtain ⟨argument, rest, fields, object, added, argumentsEq, fieldsEq, objectEq, childrenEq, -, -,
    -, checks⟩ := (patching_completes sound isClass formed returned).2 rfl
  have typeEq : TypeExpr.ofValue argument = .reference (some "Props") [] := by
    have propsEq := congrArg ClassReading.propsType readClass_galleryClass
    change galleryClass.typeArguments.head?.map TypeExpr.ofValue = _ at propsEq
    rw [argumentsEq] at propsEq
    exact Option.some.inj propsEq
  rw [typeEq, outcome_resolveType_galleryProps] at fieldsEq
  cases fieldsEq
  have writtenEq : writtenProperties "propTypes" galleryClass = [property "panel" titledClass] := by
    rfl
  have required : titledField.RequiredBy {} galleryClass := by
    refine ⟨rfl, rfl, ?_⟩
    rintro ⟨value, valueEq, -⟩
    cases valueEq
  have missingEq : ([titledField].filter fun field => field.name ∉
      memberNames (writtenProperties "propTypes" galleryClass)) = [titledField] := by
    rw [writtenEq]
    rfl
  rw [missingEq] at checks
  obtain ⟨p, others, check, none, rfl⟩ := List.forall₂_cons_left_iff.mp checks
  cases none
  obtain ⟨value, rfl, forms, marked⟩ := check.valued
  have valueEq : value = member (member (identifier "PropTypes") "string") "isRequired" := by
    rcases forms with rfl | valueEq
    · exact absurd (marked.mpr required) (not_endsIn_toNode_ofShape _ _)
    · exact valueEq
  refine ⟨sound, isClass, formed, edit, returned, object, objectEq, ?_⟩
  rw [childrenEq, valueEq]
  exact congrArg (· ++ _) writtenEq

end PropValidators
