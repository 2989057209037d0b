import PropValidators.Proofs.Patching.Merging
import PropValidators.Proofs.Patching.Traversal
import PropValidators.Proofs.Types.FromOutline
import PropValidators.Proofs.Validators.OfShape

/-!
# Readings of changed classes

Two things are shown about the reading of a class.  It can be told from the sketch of the
class, so it does not depend on the members of the classes below.  And after the class was
changed as planned, its reading says that the validators are written for every prop that the
plan was about, while its name and the type of its props are as before.
-/

namespace PropValidators

open Ast Node

/-! ## Readings from sketches -/

theorem declaredNames_of_object {n : Node} (sound : n.Sound)
    (isObject : n.kind = .objectExpression) :
    declaredNames n =
      ((n.children "properties").filter isObjectMember).filterMap propertyName? := by
  rw [declaredNames, propertyItems_of_object sound isObject]
  rfl

theorem propertyNames_outline {keep : Node → Bool} (same : ∀ n : Node, keep n.outline = keep n)
    (nodes : List Node) :
    ((nodes.map Node.outline).filter keep).filterMap propertyName? =
      (nodes.filter keep).filterMap propertyName? := by
  have keepOutline : keep ∘ Node.outline = keep := funext same
  have nameOutline : propertyName? ∘ Node.outline = propertyName? := funext propertyName?_outline
  rw [List.filter_map, keepOutline, List.filterMap_map, nameOutline]

theorem declaredNames_outline {n : Node} (sound : n.Sound)
    (isObject : n.kind = .objectExpression) :
    declaredNames n.outline = declaredNames n := by
  rw [declaredNames_of_object sound isObject,
    declaredNames_of_object sound.outline ((kind_outline n).trans isObject),
    children_outline (by decide), propertyNames_outline fun n => by
      rw [isObjectMember, isObjectMember, kind_outline]]

@[simp]
theorem objectKeys_outline (n : Node) : objectKeys n.outline = objectKeys n := by
  rw [objectKeys, objectKeys, children_outline (by decide), propertyNames_outline fun n => by
    rw [kind_outline]]

@[simp]
theorem mergeTarget?_outline (value : Option Node) :
    mergeTarget? (value.map Node.outline) = (mergeTarget? value).map Node.outline := by
  cases value with
  | none => rfl
  | some v =>
      rw [Option.map_some, mergeTarget?, mergeTarget?, kind_outline]
      split
      · rfl
      · split
        · rw [children_outline (by decide), List.head?_map]
          cases (v.children "arguments").head? with
          | none => rfl
          | some first =>
              simp only [Option.map_some, Option.filter_some, kind_outline]
              split <;> rfl
        · rfl

theorem Standing.ofValue_outline {value : Option Node} (sound : ∀ v, value = some v → v.Sound) :
    Standing.ofValue (value.map Node.outline) = Standing.ofValue value := by
  rw [Standing.ofValue, Standing.ofValue, mergeTarget?_outline, Option.isSome_map]
  cases found : mergeTarget? value with
  | none => rfl
  | some target =>
      obtain ⟨targetSound, isObject⟩ := sound_mergeTarget? sound found
      dsimp only [Option.map_some]
      rw [declaredNames_outline targetSound isObject]

@[simp]
theorem isStaticProperty_outline (name : String) (n : Node) :
    isStaticProperty name n.outline = isStaticProperty name n := by
  rw [isStaticProperty, isStaticProperty, kind_outline, flag_outline (by decide),
    propertyName?_outline]

section Sketch

variable {c d : Node}

/-- The members of classes with the same sketch have the same outlines. -/
theorem staticMember?_sketch (cSound : c.Sound) (dSound : d.Sound)
    (cClass : c.kind = .classDeclaration) (dClass : d.kind = .classDeclaration)
    (same : c.sketch = d.sketch) (name : String) :
    (staticMember? name c).map Node.outline = (staticMember? name d).map Node.outline := by
  obtain ⟨cBody, cHas⟩ := HasBody.exists_of_sound cSound cClass
  obtain ⟨dBody, dHas⟩ := HasBody.exists_of_sound dSound dClass
  have bodies : (c.get? "body").map Value.outline = (d.get? "body").map Value.outline := by
    rw [get?, get?, ← field?_sketch, ← field?_sketch, same]
  rw [cHas.held, dHas.held] at bodies
  have outlineEq : cBody.outline = dBody.outline := by
    simpa using bodies
  have visible : ∀ {body : Node}, body.kind = .classBody →
      ¬ Hidden body.kind (.declared "body") := by
    rintro body isBody ⟨isClass, -⟩
    rw [isBody] at isClass
    cases isClass
  have members : (cBody.children "body").map Node.outline =
      (dBody.children "body").map Node.outline := by
    rw [← children_outline_of_visible (visible cHas.kind_eq),
      ← children_outline_of_visible (visible dHas.kind_eq), outlineEq]
  have testOutline : isStaticProperty name ∘ Node.outline = isStaticProperty name :=
    funext (isStaticProperty_outline name)
  have found : ∀ nodes : List Node, (nodes.find? (isStaticProperty name)).map Node.outline =
      (nodes.map Node.outline).find? (isStaticProperty name) := by
    intro nodes
    rw [List.find?_map, testOutline]
  rw [staticMember?_eq_find? name cHas.members_eq, staticMember?_eq_find? name dHas.members_eq,
    found, found, members]

/-- What is read off nodes with the same outline is the same. -/
theorem read_congr {α : Type} {read : Node → α}
    (same : ∀ n : Node, n.Sound → read n.outline = read n) {a b : Option Node}
    (aSound : ∀ n, a = some n → n.Sound) (bSound : ∀ n, b = some n → n.Sound)
    (outlines : a.map Node.outline = b.map Node.outline) : a.map read = b.map read := by
  cases a with
  | none =>
      cases b with
      | none => rfl
      | some m => cases outlines
  | some n =>
      cases b with
      | none => cases outlines
      | some m =>
          have outlineEq : n.outline = m.outline := Option.some.inj outlines
          rw [Option.map_some, Option.map_some, ← same n (aSound n rfl), ← same m (bSound m rfl),
            outlineEq]

theorem entityText?_outline {n : Node} (sound : n.Sound) :
    n.outline.entityText? = n.entityText? := by
  rw [sound.entityText?_eq, sound.outline.entityText?_eq, entityName?_outline sound]

/-- The name and the type of the props of a class can be told from its outline. -/
theorem readClass_heading_congr (cSound : c.Sound) (dSound : d.Sound)
    (same : c.outline = d.outline) (options : Options) :
    (readClass options c).name = (readClass options d).name ∧
      (readClass options c).propsType = (readClass options d).propsType := by
  have ids : (c.child? "id").map Node.outline = (d.child? "id").map Node.outline := by
    rw [← child?_outline (by decide), ← child?_outline (by decide), same]
  have names := read_congr (fun _ => entityText?_outline) (fun _ => cSound.of_child?)
    (fun _ => dSound.of_child?) ids
  have arguments : c.typeArguments.map TypeExpr.ofValue = d.typeArguments.map TypeExpr.ofValue := by
    rw [← map_ofValue_typeArguments_outline cSound, ← map_ofValue_typeArguments_outline dSound,
      same]
  constructor
  · rw [readClass, readClass]
    dsimp only
    have bindEq : ∀ id : Option Node, id.bind entityText? = (id.map entityText?).join := by
      intro id
      cases id <;> rfl
    rw [bindEq, bindEq (d.child? "id"), names]
  · rw [readClass, readClass]
    dsimp only
    rw [← List.head?_map, ← List.head?_map, arguments]

@[simp]
theorem valueNames_outline (value : Node) : valueNames value.outline = valueNames value := by
  rw [valueNames, valueNames, kind_outline, objectKeys_outline]

@[simp]
theorem staticValue?_outline (declared : Option Node) :
    staticValue? (declared.map Node.outline) = (staticValue? declared).map Node.outline := by
  cases declared with
  | none => rfl
  | some declared => exact child?_outline (by decide) declared

/-- The reading of a class can be told from its sketch. -/
theorem readClass_congr (cSound : c.Sound) (dSound : d.Sound)
    (cClass : c.kind = .classDeclaration) (dClass : d.kind = .classDeclaration)
    (same : c.sketch = d.sketch) (options : Options) :
    readClass options c = readClass options d := by
  obtain ⟨nameEq, propsTypeEq⟩ :=
    readClass_heading_congr cSound dSound (outline_congr same) options
  have declared := staticMember?_sketch cSound dSound cClass dClass same
  have defaultsEq : defaultNames options.defaultsProperty c =
      defaultNames options.defaultsProperty d := by
    have fromOutline : ∀ value : Option Node,
        value.map valueNames = (value.map Node.outline).map valueNames := by
      intro value
      rw [Option.map_map]
      congr 1
      exact (funext valueNames_outline).symm
    rw [defaultNames, defaultNames, fromOutline, fromOutline (staticValue? _),
      ← staticValue?_outline, ← staticValue?_outline, declared]
  have standingEq : Standing.of options.validatorProperty c =
      Standing.of options.validatorProperty d := by
    rw [Standing.of, Standing.of, read_congr _
      (fun _ found => (sound_staticMember? cSound cClass found).1)
      (fun _ found => (sound_staticMember? dSound dClass found).1)
      (declared options.validatorProperty)]
    intro n nSound
    rw [child?_outline (by decide), Standing.ofValue_outline fun _ => nSound.of_child?]
  exact ClassReading.ext nameEq propsTypeEq defaultsEq standingEq

end Sketch

/-! ## Readings after a change -/

/-- The validators are written for all entries as well. -/
def Standing.covering (entries : List Entry) : Standing → Standing
  | .absent => .listed (entries.map (·.prop)) true
  | .closed => .closed
  | .listed names _ => .listed (names ++ (missingEntries names entries).map (·.prop)) true

theorem children_appendProperties {n : Node} (sound : n.Sound)
    (isObject : n.kind = .objectExpression) (added : List Node) :
    (appendProperties n added).children "properties" = n.children "properties" ++ added := by
  rw [appendProperties_of_object sound isObject, children_set_list, List.filterMap_append,
    filterMap_node?_map_node]
  rfl

/-- The new static property has an object literal with all entries. -/
@[simp]
theorem standing_mergeEntries (library : String) (entries : List Entry) :
    Standing.ofValue (some (mergeEntries library none entries)) =
      .listed (entries.map (·.prop)) true := by
  have sound : (objectOf (entries.map (Entry.toProperty library))).Sound :=
    (fresh_objectOf (fresh_toProperties library entries)).1
  rw [mergeEntries, Standing.ofValue, mergeTarget?, if_pos (by rfl)]
  dsimp only
  rw [declaredNames_of_object sound (by rfl), children_objectOf, propertyNames_toProperty]
  rfl

@[simp]
theorem isStaticProperty_staticProperty (name : String) (value : Node) :
    isStaticProperty name (staticProperty name value) = true := by
  have nameEq : (staticProperty name value).propertyName? = some name := rfl
  have kindEq : (staticProperty name value).kind = .classProperty := by rfl
  have flagEq : (staticProperty name value).flag "static" = true := rfl
  rw [isStaticProperty, nameEq, kindEq, flagEq, Bool.and_true, beq_self_eq_true, beq_self_eq_true,
    Bool.and_true]

/-- The members after a change. -/
theorem members_apply {c body : Node} (sound : c.Sound) (isClass : c.kind = .classDeclaration)
    (hasBody : HasBody c body) {edit : ClassEdit} (fresh : edit.IsFresh) :
    (edit.apply c).members = .ok ((edit.onMembers (body.items "body")).filterMap Value.node?) := by
  have fits := hasBody.sound.fitItems (bodySpec hasBody.kind_eq) rfl
  have changed := hasBody.withMembers sound isClass (ClassEdit.fitItems_onMembers fresh fits)
  rw [edit.apply_eq, changed.members_eq, children_set_list]

theorem staticMember?_insert {c : Node} (sound : c.Sound) (isClass : c.kind = .classDeclaration)
    {member : Node} (fresh : (ClassEdit.insert member).IsFresh) {name : String}
    (isStatic : isStaticProperty name member = true) :
    staticMember? name (ClassEdit.apply (.insert member) c) = some member := by
  obtain ⟨body, hasBody⟩ := HasBody.exists_of_sound sound isClass
  rw [staticMember?_eq_find? name (members_apply sound isClass hasBody fresh)]
  exact List.find?_cons_of_pos isStatic

theorem staticMember?_extend {c : Node} (sound : c.Sound) (isClass : c.kind = .classDeclaration)
    {added : List Node} {name : String} (fresh : (ClassEdit.extend name added).IsFresh) :
    staticMember? name (ClassEdit.apply (.extend name added) c) =
      (staticMember? name c).map (extendProperty added) := by
  obtain ⟨body, hasBody⟩ := HasBody.exists_of_sound sound isClass
  rw [staticMember?_eq_find? name (members_apply sound isClass hasBody fresh),
    staticMember?_eq_find? name hasBody.members_eq]
  exact find?_modifyFirst fun n => isStaticProperty_extendProperty name n added

/-- An object literal with further properties is found in the value of a static property. -/
theorem ofValue_extendProperty {declared target : Node} (sound : declared.Sound)
    (found : mergeTarget? (declared.child? "value") = some target) (added : List Node) :
    Standing.ofValue ((extendProperty added declared).child? "value") =
      .listed (declaredNames (appendProperties target added)) true := by
  have mergedObject : (appendProperties target added).kind = .objectExpression :=
    (sound_mergeTarget? (fun _ => sound.of_child?) found).2
  rw [extendProperty_eq, found]
  dsimp only
  rw [child?_set_node, Standing.ofValue, mergeTarget?_rewrap found mergedObject]
  rfl

section Planned

variable {options : Options} {name : Option String} {typeNames : List String}
  {entries : List Entry}

/-- What a plan puts into a class is fresh. -/
theorem isFresh_plannedEntries {standing : Standing} {edit : ClassEdit}
    (planned : (plannedEntries options name typeNames entries standing).2 = some edit) :
    edit.IsFresh := by
  cases standing with
  | absent =>
      cases planned
      exact fresh_staticProperty _ (fresh_objectOf (fresh_toProperties _ entries))
  | closed => cases planned
  | listed names hasValue =>
      rw [plannedEntries] at planned
      dsimp only at planned
      split at planned
      · cases planned
        exact fresh_toProperties _ _
      · cases planned

/-- After the planned change the validators are written for all entries. -/
theorem standing_applyEdit {c : Node} (sound : c.Sound) (isClass : c.kind = .classDeclaration) :
    Standing.of options.validatorProperty
        (applyEdit (plannedEntries options name typeNames entries
          (.of options.validatorProperty c)).2 c) =
      (Standing.of options.validatorProperty c).covering entries := by
  rw [Standing.of, Standing.of]
  cases found : staticMember? options.validatorProperty c with
  | none =>
      have fresh : (ClassEdit.insert (staticProperty options.validatorProperty
          (mergeEntries options.validatorNamespace none entries))).IsFresh :=
        fresh_staticProperty _ (fresh_objectOf (fresh_toProperties _ entries))
      dsimp only [Option.map_none, Option.getD_none, plannedEntries, applyEdit, Option.map_some,
        Option.getD_some]
      rw [staticMember?_insert sound isClass fresh (isStaticProperty_staticProperty _ _)]
      exact standing_mergeEntries _ entries
  | some declared =>
      have declaredSound := (sound_staticMember? sound isClass found).1
      have valueSound : ∀ v, declared.child? "value" = some v → v.Sound :=
        fun _ => declaredSound.of_child?
      dsimp only [Option.map_some, Option.getD_some]
      rw [Standing.ofValue]
      cases targetEq : mergeTarget? (declared.child? "value") with
      | none =>
          dsimp only [plannedEntries, applyEdit, Option.map_none, Option.getD_none]
          rw [found, Option.map_some, Option.getD_some, Standing.ofValue, targetEq]
          rfl
      | some target =>
          obtain ⟨targetSound, isObject⟩ := sound_mergeTarget? valueSound targetEq
          dsimp only [plannedEntries]
          split
          · have fresh : (ClassEdit.extend options.validatorProperty
                ((missingEntries (declaredNames target) entries).map
                  (Entry.toProperty options.validatorNamespace))).IsFresh :=
              fresh_toProperties _ _
            dsimp only [applyEdit, Option.map_some, Option.getD_some]
            rw [staticMember?_extend sound isClass fresh, found, Option.map_some, Option.map_some,
              Option.getD_some, ofValue_extendProperty declaredSound targetEq,
              declaredNames_appendProperties, Standing.covering]
          · rename_i complete
            dsimp only [applyEdit, Option.map_none, Option.getD_none]
            rw [found, Option.map_some, Option.getD_some, Standing.ofValue, targetEq]
            simp only [Bool.or_eq_true, Bool.not_eq_true', not_or, Bool.not_eq_false,
              List.isEmpty_iff] at complete
            dsimp only
            rw [Standing.covering, complete.1, complete.2, List.map_nil, List.append_nil]

end Planned

/-! ## Planning again -/

private theorem mem_props_of_same {entries again : List Entry}
    (same : again.map (·.prop) = entries.map (·.prop)) {entry : Entry} (mem : entry ∈ again) :
    ∃ original ∈ entries, original.prop = entry.prop := by
  have propMem : entry.prop ∈ again.map (·.prop) := List.mem_map_of_mem mem
  rw [same] at propMem
  exact List.mem_map.mp propMem

theorem plannedEntries_of_complete {options : Options} {name : Option String}
    {typeNames names : List String} {entries : List Entry}
    (complete : missingEntries names entries = []) :
    plannedEntries options name typeNames entries (.listed names true) =
      (⟨.patched, name, typeNames, []⟩, none) := by
  rw [plannedEntries, complete]
  rfl

/-- Once the validators are written for all entries, nothing is left to be done. -/
theorem plannedEntries_again {options : Options} {name : Option String} {typeNames : List String}
    {entries again : List Entry} (same : again.map (·.prop) = entries.map (·.prop))
    (standing : Standing) :
    plannedEntries options name typeNames again (standing.covering entries) =
      ({ (plannedEntries options name typeNames entries standing).1 with added := [] }, none) := by
  have complete : ∀ names, (∀ entry ∈ entries, entry.prop ∈ names) →
      missingEntries names again = [] := by
    intro names declared
    apply missingEntries_eq_nil
    intro entry mem
    obtain ⟨original, originalMem, propEq⟩ := mem_props_of_same same mem
    exact propEq ▸ declared original originalMem
  cases standing with
  | absent => exact plannedEntries_of_complete (complete _ fun _ => List.mem_map_of_mem)
  | closed => rfl
  | listed names hasValue =>
      exact plannedEntries_of_complete (complete _ fun _ => mem_append_missingEntries names)

/-- The props of entries do not depend on which props have defaults. -/
@[simp]
theorem map_prop_entriesOf (shape : Shape) (defaults more : List String) :
    (entriesOf shape more).map (·.prop) = (entriesOf shape defaults).map (·.prop) := by
  rw [entriesOf, entriesOf]
  cases shape.fields? with
  | none => rfl
  | some fields =>
      dsimp only [Entry.ofProps]
      rw [List.map_map, List.map_map]
      rfl

/-- Nor does it whether some entry can be used. -/
@[simp]
theorem anyUsable_entriesOf (shape : Shape) (defaults more : List String) :
    Entry.anyUsable (entriesOf shape more) = Entry.anyUsable (entriesOf shape defaults) := by
  rw [entriesOf, entriesOf]
  cases shape.fields? with
  | none => rfl
  | some fields =>
      dsimp only [Entry.ofProps, Entry.anyUsable]
      rw [List.any_map, List.any_map]
      congr 1
      funext field
      obtain ⟨name, shape, optional, hasDefault⟩ := field
      rw [Function.comp_apply, Function.comp_apply, Entry.ofField, Entry.ofField, base_of, base_of]

section Reading

variable {options : Options} {context : Context} {reading : ClassReading}

theorem planReading_of_shape {propsType : TypeExpr} {shape : Shape}
    (propsEq : reading.propsType = some propsType)
    (shapeEq : (resolveType context propsType).outcome = .ok shape) :
    planReading options context reading =
      .ok (if Entry.anyUsable (entriesOf shape reading.defaults) then
          plannedEntries options reading.name propsType.referencedNames
            (entriesOf shape reading.defaults) reading.standing
        else (⟨.skippedEmpty, reading.name, propsType.referencedNames, []⟩, none)) := by
  rw [planReading, propsEq]
  dsimp only
  rw [shapeEq]
  rfl

/-- A plan either leaves the class as it is and adds nothing, or it is about the entries that
the shape of the props type calls for. -/
theorem planReading_cases {result : PatchResult} {edit : Option ClassEdit}
    (planned : planReading options context reading = .ok (result, edit)) :
    (edit = none ∧ result.added = [] ∧ result.className = reading.name ∧
        result.patched = false) ∨
      ∃ propsType shape, reading.propsType = some propsType ∧
        (resolveType context propsType).outcome = .ok shape ∧
        Entry.anyUsable (entriesOf shape reading.defaults) = true ∧
        (result, edit) = plannedEntries options reading.name propsType.referencedNames
          (entriesOf shape reading.defaults) reading.standing := by
  cases propsEq : reading.propsType with
  | none =>
      rw [planReading, propsEq] at planned
      cases planned
      exact .inl ⟨rfl, rfl, rfl, rfl⟩
  | some propsType =>
      cases shapeEq : (resolveType context propsType).outcome with
      | error fault =>
          rw [planReading, propsEq] at planned
          dsimp only at planned
          rw [shapeEq] at planned
          cases planned
      | ok shape =>
          rw [planReading_of_shape propsEq shapeEq, Except.ok.injEq] at planned
          by_cases usable : Entry.anyUsable (entriesOf shape reading.defaults) = true
          · rw [if_pos usable] at planned
            exact .inr ⟨propsType, shape, rfl, shapeEq, usable, planned.symm⟩
          · rw [if_neg usable] at planned
            cases planned
            exact .inl ⟨rfl, rfl, rfl, rfl⟩

/-- What a plan puts into a class is fresh. -/
theorem isFresh_planReading {result : PatchResult} {edit : Option ClassEdit}
    (planned : planReading options context reading = .ok (result, edit)) :
    ∀ e, edit = some e → e.IsFresh := by
  rintro e rfl
  rcases planReading_cases planned with ⟨noEdit, -⟩ | ⟨propsType, shape, -, -, -, eq⟩
  · cases noEdit
  · exact isFresh_plannedEntries (congrArg Prod.snd eq).symm

/-- A class changed as planned is not changed again. -/
theorem planReading_again {c : Node} (sound : c.Sound) (isClass : c.kind = .classDeclaration)
    {result : PatchResult} {edit : Option ClassEdit}
    (planned : planReading options context (readClass options c) = .ok (result, edit)) :
    planReading options context (readClass options (applyEdit edit c)) =
      .ok ({ result with added := [] }, none) := by
  have kept := kept_applyEdit (isFresh_planReading planned) sound isClass
  rcases planReading_cases planned with
    ⟨rfl, noneAdded, -⟩ | ⟨propsType, shape, propsEq, shapeEq, usable, eq⟩
  · change planReading options context (readClass options c) = _
    rw [planned, ← noneAdded]
  · obtain ⟨nameEq, propsTypeEq⟩ :=
      readClass_heading_congr kept.sound sound kept.outline_eq options
    have standingEq : (readClass options (applyEdit edit c)).standing =
        (readClass options c).standing.covering
          (entriesOf shape (readClass options c).defaults) := by
      rw [show edit = _ from congrArg Prod.snd eq]
      exact standing_applyEdit sound isClass
    rw [planReading_of_shape (propsTypeEq.trans propsEq) shapeEq,
      anyUsable_entriesOf shape (readClass options c).defaults, if_pos usable, nameEq, standingEq,
      plannedEntries_again (map_prop_entriesOf shape _ _), ← eq]

end Reading

end PropValidators
