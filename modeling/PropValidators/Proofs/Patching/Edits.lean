import PropValidators.Proofs.Patching.Fresh
import PropValidators.Proofs.Syntax.Outline

/-!
# Changing a class

A change of a class reaches into its body only.  It either puts a static property in front
of the members or adds properties to the object literal that one of them holds.  A sound
class stays sound, and the classes and declarations below it stay the same.
-/

namespace PropValidators

open Ast Node

/-! ## Lists in fields -/

namespace Ast.Node

/-- A sound node has a list in a field for nodes, even if the field is not there. -/
theorem Sound.held?_eq_list {n : Node} (sound : n.Sound) {key : String} {spec : FieldSpec}
    (notType : key ≠ "type") (specEq : n.kind.specOfKey? key = some spec)
    (nodes : spec.type = .nodes) : n.held? (.declared key) = some (.list (n.items key)) := by
  rw [held?, items]
  cases held : n.get? key with
  | none =>
      simp only [Option.orElse_eq_orElse, Option.orElse_none, if_neg notType, specEq,
        Option.map_some, nodes]
      rfl
  | some value =>
      have fits := sound.fits_of_get? specEq held
      rw [nodes] at fits
      cases value with
      | list items => rfl
      | node m => exact fits.1.elim
      | data data => exact fits.elim

/-- The items in a field for nodes are sound nodes. -/
theorem Sound.fitItems {n : Node} (sound : n.Sound) {key : String} {spec : FieldSpec}
    (specEq : n.kind.specOfKey? key = some spec) (nodes : spec.type = .nodes) :
    FitItems (some .node) (n.items key) := by
  rw [sound.items_eq_map_node specEq (by rw [nodes]; rfl)]
  exact fitItems_map_node (fun _ => sound.of_mem_children) fun _ => trivial

@[simp]
theorem items_set_self (n : Node) (key : String) (value : Value) :
    (n.set key value).items key = value.items := by
  rw [items, get?_set_self]
  rfl

@[simp]
theorem children_set_list (n : Node) (key : String) (items : List Value) :
    (n.set key (.list items)).children key = items.filterMap Value.node? := by
  rw [children, items_set_self]
  rfl

@[simp]
theorem child?_set_node (n : Node) (key : String) (m : Node) :
    (n.set key (.node m)).child? key = some m := by
  rw [child?, get?_set_self]
  rfl

theorem child?_set_of_ne {key other : String} (ne : other ≠ key) (n : Node) (value : Value) :
    (n.set key value).child? other = n.child? other := by
  rw [child?, child?, get?_set_of_ne ne]

theorem flag_set_of_ne {key other : String} (ne : other ≠ key) (n : Node) (value : Value) :
    (n.set key value).flag other = n.flag other := by
  rw [flag, flag, get?_set_of_ne ne]

end Ast.Node

/-- The classes and declarations below a field for a list of nodes are those of its items. -/
theorem marksOfField_of_nodes {n : Node} (sound : n.Sound) {key : String} {spec : FieldSpec}
    (specEq : n.kind.specOfKey? key = some spec) (nodes : spec.type = .nodes) :
    marksOfField n key = marksOfItems (n.items key) := by
  rw [marksOfField, items]
  cases held : n.get? key with
  | none => rfl
  | some value =>
      have fits := sound.fits_of_get? specEq held
      rw [nodes] at fits
      cases value with
      | list items => rfl
      | node m => exact fits.1.elim
      | data data => exact fits.elim

/-- The classes and declarations below a field for a node are those of the node. -/
theorem marksOfField_of_optionalNode {n : Node} (sound : n.Sound) {key : String}
    {spec : FieldSpec} (specEq : n.kind.specOfKey? key = some spec)
    (optional : spec.type = .optionalNode) :
    marksOfField n key = ((n.child? key).map marks).getD [] := by
  rw [marksOfField, child?]
  cases held : n.get? key with
  | none => rfl
  | some value =>
      have fits := sound.fits_of_get? specEq held
      rw [optional] at fits
      rcases Value.eq_null_or_node_of_fits fits with rfl | ⟨m, rfl, -⟩ <;> rfl

/-! ## Adding properties to an object literal -/

theorem propertiesSpec {n : Node} (isObject : n.kind = .objectExpression) :
    n.kind.specOfKey? "properties" = some ⟨"properties", "properties", .nodes⟩ :=
  Node.specOfKey?_of_kind isObject rfl

theorem propertyField_of_object {n : Node} (isObject : n.kind = .objectExpression) :
    propertyField n = .declared "properties" := by
  rw [propertyField, isObject]
  decide

theorem propertyItems_of_object {n : Node} (sound : n.Sound)
    (isObject : n.kind = .objectExpression) : propertyItems n = n.items "properties" := by
  rw [propertyItems, propertyField_of_object isObject,
    sound.held?_eq_list (by decide) (propertiesSpec isObject) rfl]
  rfl

theorem appendProperties_of_object {n : Node} (sound : n.Sound)
    (isObject : n.kind = .objectExpression) (added : List Node) :
    appendProperties n added =
      n.set "properties" (.list (n.items "properties" ++ added.map .node)) := by
  rw [appendProperties, propertyItems_of_object sound isObject, propertyField_of_object isObject]
  rfl

theorem fitItems_append {type : Option FieldType} {items more : List Value}
    (fits : FitItems type items) (moreFits : FitItems type more) :
    FitItems type (items ++ more) := by
  rw [fitItems_iff] at fits moreFits ⊢
  exact List.forall_mem_append.mpr ⟨fits, moreFits⟩

theorem sound_appendProperties {n : Node} (sound : n.Sound) (isObject : n.kind = .objectExpression)
    {added : List Node} (fresh : ∀ p ∈ added, Fresh p) : (appendProperties n added).Sound := by
  rw [appendProperties_of_object sound isObject]
  apply sound.set (propertiesSpec isObject)
  refine ⟨_, rfl, fitItems_append (sound.fitItems (propertiesSpec isObject) rfl) ?_⟩
  exact fitItems_map_node (fun p mem => (fresh p mem).1) fun _ => trivial

theorem marks_appendProperties {n : Node} (sound : n.Sound) (isObject : n.kind = .objectExpression)
    {added : List Node} (fresh : ∀ p ∈ added, Fresh p) :
    marks (appendProperties n added) = marks n := by
  have unmarked : isMarked n = false := isMarked_of_kind isObject (by decide)
  rw [appendProperties_of_object sound isObject]
  apply marks_set sound unmarked
  rw [marksOfField_of_nodes sound (propertiesSpec isObject) rfl, marksOfValue_list,
    marksOfItems_append, marksOfItems_map_node fresh, List.append_nil]

/-! ## The object literal inside a value -/

/-- The ways in which an object literal is found inside the value of a static property. -/
theorem mergeTarget?_eq_some {value : Option Node} {target : Node}
    (found : mergeTarget? value = some target) :
    value = none ∧ target = .ofDeclared "ObjectExpression" [] ∨
      value = some target ∧ target.kind = .objectExpression ∨
      ∃ v, value = some v ∧ v.kind = .callExpression ∧
        (v.children "arguments").head? = some target ∧ target.kind = .objectExpression := by
  cases value with
  | none => exact .inl ⟨rfl, (Option.some.inj found).symm⟩
  | some v =>
      rw [mergeTarget?] at found
      split at found
      · rename_i isObject
        cases found
        exact .inr (.inl ⟨rfl, isObject⟩)
      · split at found
        · rename_i isCall
          rw [Option.filter_eq_some_iff] at found
          exact .inr (.inr ⟨v, rfl, isCall, found.1, of_decide_eq_true found.2⟩)
        · cases found

theorem argumentsSpec {n : Node} (isCall : n.kind = .callExpression) :
    n.kind.specOfKey? "arguments" = some ⟨"arguments", "arguments", .nodes⟩ :=
  Node.specOfKey?_of_kind isCall rfl

/-- The arguments of a call whose first node is known are that node and others. -/
theorem exists_arguments {v target : Node} (sound : v.Sound) (isCall : v.kind = .callExpression)
    (first : (v.children "arguments").head? = some target) :
    ∃ rest, v.children "arguments" = target :: rest ∧
      v.items "arguments" = .node target :: rest.map .node := by
  cases childrenEq : v.children "arguments" with
  | nil =>
      rw [childrenEq] at first
      cases first
  | cons head rest =>
      rw [childrenEq] at first
      cases first
      refine ⟨rest, rfl, ?_⟩
      rw [sound.items_eq_map_node (argumentsSpec isCall) rfl, childrenEq, List.map_cons]

theorem fresh_emptyObject : Fresh (.ofDeclared "ObjectExpression" []) :=
  fresh_ofDeclared [] (by decide) .nil

/-- The object literal inside a sound value is sound. -/
theorem sound_mergeTarget? {value : Option Node} (sound : ∀ v, value = some v → v.Sound)
    {target : Node} (found : mergeTarget? value = some target) :
    target.Sound ∧ target.kind = .objectExpression := by
  rcases mergeTarget?_eq_some found with
    ⟨-, rfl⟩ | ⟨rfl, isObject⟩ | ⟨v, rfl, -, first, isObject⟩
  · exact ⟨fresh_emptyObject.1, by decide⟩
  · exact ⟨sound target rfl, isObject⟩
  · exact ⟨(sound v rfl).of_mem_children (List.mem_of_mem_head? first), isObject⟩

theorem rewrap_of_call {v : Node} (isCall : v.kind = .callExpression) (merged : Node) :
    rewrap (some v) merged =
      v.set "arguments" (.list (.node merged :: (v.items "arguments").drop 1)) := by
  rw [rewrap, if_pos isCall]

theorem rewrap_of_object {v : Node} (isObject : v.kind = .objectExpression) (merged : Node) :
    rewrap (some v) merged = merged := by
  rw [rewrap, if_neg (by rw [isObject]; decide)]

section Rewrap

variable {value : Option Node} {target merged : Node}

/-- A sound object literal put in the place of the one that was found makes a sound value. -/
theorem sound_rewrap (sound : ∀ v, value = some v → v.Sound)
    (found : mergeTarget? value = some target) (mergedSound : merged.Sound) :
    (rewrap value merged).Sound := by
  rcases mergeTarget?_eq_some found with
    ⟨rfl, -⟩ | ⟨rfl, isObject⟩ | ⟨v, rfl, isCall, first, -⟩
  · exact mergedSound
  · rw [rewrap_of_object isObject]
    exact mergedSound
  · have vSound := sound v rfl
    obtain ⟨rest, -, itemsEq⟩ := exists_arguments vSound isCall first
    have fits := vSound.fitItems (argumentsSpec isCall) rfl
    rw [rewrap_of_call isCall, itemsEq]
    rw [itemsEq] at fits
    exact vSound.set (argumentsSpec isCall) ⟨_, rfl, ⟨trivial, mergedSound⟩, fits.2⟩

/-- The classes and declarations stay the same if they do in the object literal. -/
theorem marks_rewrap (sound : ∀ v, value = some v → v.Sound)
    (found : mergeTarget? value = some target) (same : marks merged = marks target) :
    marks (rewrap value merged) = (value.map marks).getD [] := by
  rcases mergeTarget?_eq_some found with
    ⟨rfl, rfl⟩ | ⟨rfl, isObject⟩ | ⟨v, rfl, isCall, first, -⟩
  · exact same.trans fresh_emptyObject.2
  · rw [rewrap_of_object isObject]
    exact same
  · have vSound := sound v rfl
    obtain ⟨rest, -, itemsEq⟩ := exists_arguments vSound isCall first
    have unmarked : isMarked v = false := isMarked_of_kind isCall (by decide)
    rw [rewrap_of_call isCall]
    apply marks_set vSound unmarked
    rw [marksOfField_of_nodes vSound (argumentsSpec isCall) rfl, marksOfValue_list, itemsEq,
      marksOfItems_cons, marksOfItems_cons, marksOfItem_node, marksOfItem_node, same]
    rfl

/-- The object literal that was put in is found again. -/
theorem mergeTarget?_rewrap (found : mergeTarget? value = some target)
    (mergedObject : merged.kind = .objectExpression) :
    mergeTarget? (some (rewrap value merged)) = some merged := by
  rcases mergeTarget?_eq_some found with
    ⟨rfl, -⟩ | ⟨rfl, isObject⟩ | ⟨v, rfl, isCall, -, -⟩
  · rw [rewrap, mergeTarget?, if_pos mergedObject]
  · rw [rewrap_of_object isObject, mergeTarget?, if_pos mergedObject]
  · have notObject : v.kind ≠ .objectExpression := by
      rw [isCall]
      decide
    rw [rewrap_of_call isCall, mergeTarget?, kind_set, if_neg notObject, if_pos isCall,
      children_set_list, List.filterMap_cons]
    simp only [Value.node?, List.head?_cons, Option.filter_some, mergedObject, decide_true, if_true]

end Rewrap

/-! ## Adding properties to a static property -/

theorem valueSpec {n : Node} (isProperty : n.kind = .classProperty) :
    n.kind.specOfKey? "value" = some ⟨"value", "value", .optionalNode⟩ :=
  Node.specOfKey?_of_kind isProperty rfl

theorem kind_of_isStaticProperty {name : String} {n : Node}
    (isStatic : isStaticProperty name n = true) : n.kind = .classProperty := by
  simp only [isStaticProperty, Bool.and_eq_true, beq_iff_eq] at isStatic
  exact isStatic.1.1

section ExtendProperty

variable {declared : Node} {added : List Node}

/-- Adding properties sets the value of a static property, or does nothing. -/
theorem extendProperty_eq (declared : Node) (added : List Node) :
    extendProperty added declared =
      match mergeTarget? (declared.child? "value") with
      | some target => declared.set "value"
          (.node (rewrap (declared.child? "value") (appendProperties target added)))
      | none => declared :=
  rfl

@[simp]
theorem isStaticProperty_extendProperty (name : String) (declared : Node) (added : List Node) :
    isStaticProperty name (extendProperty added declared) = isStaticProperty name declared := by
  rw [extendProperty_eq]
  split
  · rw [isStaticProperty, isStaticProperty, kind_set, flag_set_of_ne (by decide), propertyName?,
      propertyName?, child?_set_of_ne (by decide), flag_set_of_ne (by decide)]
  · rfl

theorem sound_extendProperty (sound : declared.Sound) (isProperty : declared.kind = .classProperty)
    (fresh : ∀ p ∈ added, Fresh p) : (extendProperty added declared).Sound := by
  have valueSound : ∀ v, declared.child? "value" = some v → v.Sound := fun _ => sound.of_child?
  rw [extendProperty_eq]
  split
  · rename_i target found
    obtain ⟨targetSound, isObject⟩ := sound_mergeTarget? valueSound found
    have mergedSound := sound_appendProperties targetSound isObject fresh
    exact sound.set (valueSpec isProperty) ⟨trivial, sound_rewrap valueSound found mergedSound⟩
  · exact sound

theorem marks_extendProperty (sound : declared.Sound) (isProperty : declared.kind = .classProperty)
    (fresh : ∀ p ∈ added, Fresh p) : marks (extendProperty added declared) = marks declared := by
  have valueSound : ∀ v, declared.child? "value" = some v → v.Sound := fun _ => sound.of_child?
  have unmarked : isMarked declared = false := isMarked_of_kind isProperty (by decide)
  rw [extendProperty_eq]
  split
  · rename_i target found
    obtain ⟨targetSound, isObject⟩ := sound_mergeTarget? valueSound found
    apply marks_set sound unmarked
    rw [marksOfField_of_optionalNode sound (valueSpec isProperty) rfl, marksOfValue_node]
    exact marks_rewrap valueSound found (marks_appendProperties targetSound isObject fresh)
  · rfl

end ExtendProperty

/-! ## Changing the first node of a list -/

section ModifyFirst

variable {test : Node → Bool} {change : Node → Node} {items : List Value}

private theorem fitItems_modifyFirst {type : Option FieldType}
    (keeps : ∀ n : Node, test n = true → (Value.node n).Fits type →
      (Value.node (change n)).Fits type)
    (fits : FitItems type items) : FitItems type (modifyFirst test change items) := by
  induction items with
  | nil => trivial
  | cons item items ih =>
      cases item with
      | node n =>
          rw [modifyFirst]
          split
          · rename_i passes
            exact ⟨keeps n passes fits.1, fits.2⟩
          · exact ⟨fits.1, ih fits.2⟩
      | list others => exact ⟨fits.1, ih fits.2⟩
      | data data => exact ⟨fits.1, ih fits.2⟩

theorem marksOfItems_modifyFirst {type : Option FieldType}
    (keeps : ∀ n : Node, test n = true → n.Sound → marks (change n) = marks n)
    (fits : FitItems type items) :
    marksOfItems (modifyFirst test change items) = marksOfItems items := by
  induction items with
  | nil => rfl
  | cons item items ih =>
      cases item with
      | node n =>
          rw [modifyFirst]
          split
          · rename_i passes
            simp [keeps n passes fits.1.2]
          · simp [ih fits.2]
      | list others =>
          change marksOfItems (.list others :: modifyFirst test change items) = _
          rw [marksOfItems_cons, marksOfItems_cons, ih fits.2]
      | data data =>
          change marksOfItems (.data data :: modifyFirst test change items) = _
          rw [marksOfItems_cons, marksOfItems_cons, ih fits.2]

/-- The first node that passes the test is the changed one. -/
theorem find?_modifyFirst (keeps : ∀ n : Node, test (change n) = test n) :
    ((modifyFirst test change items).filterMap Value.node?).find? test =
      ((items.filterMap Value.node?).find? test).map change := by
  induction items with
  | nil => rfl
  | cons item items ih =>
      cases item with
      | node n =>
          rw [modifyFirst]
          split
          · rename_i passes
            simp only [List.filterMap_cons, Value.node?, List.find?_cons, keeps, passes,
              Option.map_some]
          · rename_i fails
            rw [Bool.not_eq_true] at fails
            simp only [List.filterMap_cons, Value.node?, List.find?_cons, fails]
            exact ih
      | list others => exact ih
      | data data => exact ih

end ModifyFirst

/-! ## Changing the members -/

theorem bodySpec {n : Node} (isBody : n.kind = .classBody) :
    n.kind.specOfKey? "body" = some ⟨"body", "body", .nodes⟩ :=
  Node.specOfKey?_of_kind isBody rfl

theorem classBodySpec {n : Node} (isClass : n.kind = .classDeclaration) :
    n.kind.specOfKey? "body" = some ⟨"body", "body", .body .classBody⟩ :=
  Node.specOfKey?_of_kind isClass rfl

/-- A sound class has a body. -/
structure HasBody (c body : Node) : Prop where
  held : c.get? "body" = some (.node body)
  sound : body.Sound
  type_eq : body.type = Kind.classBody.tag
  field_eq : c.memberField = .declared "body"
  members_eq : c.members = .ok (body.children "body")

namespace HasBody

variable {c body : Node}

theorem kind_eq (hasBody : HasBody c body) : body.kind = .classBody := by
  rw [kind, hasBody.type_eq, Kind.ofType_tag]

theorem exists_of_sound (sound : c.Sound) (isClass : c.kind = .classDeclaration) :
    ∃ body, HasBody c body := by
  obtain ⟨body, held, bodySound, -, fieldEq, membersEq⟩ := sound.exists_body (.inl isClass)
  have fits := sound.fits_of_get? (classBodySpec isClass) held
  exact ⟨body, held, bodySound, fits.1, fieldEq, membersEq⟩

/-- The members of a class are changed in its body. -/
theorem modifyMembers?_eq (hasBody : HasBody c body) (change : List Value → List Value) :
    c.modifyMembers? change =
      some (c.set "body" (.node (body.set "body" (.list (change (body.items "body")))))) := by
  have heldBody : c.held? (.declared "body") = some (.node body) := by
    rw [held?, hasBody.held]
    rfl
  have bodyField : body.memberField = .declared "body" := by
    rw [memberField, hasBody.kind_eq]
    decide
  have heldItems : body.held? (.declared "body") = some (.list (body.items "body")) :=
    hasBody.sound.held?_eq_list (by decide) (bodySpec hasBody.kind_eq) rfl
  rw [modifyMembers?, hasBody.field_eq, heldBody]
  dsimp only
  rw [modifyItems?, bodyField, heldItems]
  rfl

theorem withMembers_eq (hasBody : HasBody c body) (change : List Value → List Value) :
    withMembers change c =
      c.set "body" (.node (body.set "body" (.list (change (body.items "body"))))) := by
  rw [withMembers, hasBody.modifyMembers?_eq]
  rfl

/-- The changed members are those of the changed body. -/
theorem withMembers (hasBody : HasBody c body) (sound : c.Sound)
    (isClass : c.kind = .classDeclaration) {change : List Value → List Value}
    (fits : FitItems (some .node) (change (body.items "body"))) :
    HasBody (withMembers change c) (body.set "body" (.list (change (body.items "body")))) := by
  have bodySound : (body.set "body" (.list (change (body.items "body")))).Sound :=
    hasBody.sound.set (bodySpec hasBody.kind_eq) ⟨_, rfl, fits⟩
  have changedSound :
      (c.set "body" (.node (body.set "body" (.list (change (body.items "body")))))).Sound :=
    sound.set (classBodySpec isClass) ⟨hasBody.type_eq, bodySound⟩
  rw [hasBody.withMembers_eq]
  obtain ⟨changed, changedBody⟩ := exists_of_sound changedSound isClass
  have heldEq := changedBody.held
  rw [get?_set_self] at heldEq
  cases heldEq
  exact changedBody

end HasBody

/-- A changed class keeps to its fields. -/
theorem sound_withMembers {c body : Node} (sound : c.Sound) (isClass : c.kind = .classDeclaration)
    (hasBody : HasBody c body) {change : List Value → List Value}
    (fits : FitItems (some .node) (change (body.items "body"))) :
    (withMembers change c).Sound := by
  rw [hasBody.withMembers_eq]
  exact sound.set (classBodySpec isClass)
    ⟨hasBody.type_eq, hasBody.sound.set (bodySpec hasBody.kind_eq) ⟨_, rfl, fits⟩⟩

/-- Changing the members is not seen in the outline. -/
theorem outline_withMembers {c body : Node} (sound : c.Sound)
    (isClass : c.kind = .classDeclaration) (hasBody : HasBody c body)
    (change : List Value → List Value) : (withMembers change c).outline = c.outline := by
  have mem : .declared "body" ∈ c.fields.map Prod.fst :=
    sound.layout.mem_of_required (Kind.mem_of_specOfKey? (classBodySpec isClass)) rfl
  obtain ⟨before, old, after, split, -, eq⟩ := exists_putField_of_mem
    (pairwise_rank_of_layout sound.layout) mem
    (.node (body.set "body" (.list (change (body.items "body")))))
  have hidden : Hidden c.kind (.declared "body") := ⟨isClass, rfl⟩
  rw [hasBody.withMembers_eq, outline_eq, outline_eq c, kind_set, type_set, Node.set, setField,
    eq, split, List.map_append, List.map_append, List.map_cons, List.map_cons, if_pos hidden,
    if_pos hidden]

/-- The classes and declarations below a class stay the same if they do in the members. -/
theorem marksOfFields_withMembers {c body : Node} (sound : c.Sound) (hasBody : HasBody c body)
    {change : List Value → List Value}
    (same : marksOfItems (change (body.items "body")) = marksOfItems (body.items "body")) :
    marksOfFields (withMembers change c).fields = marksOfFields c.fields := by
  have unmarked : isMarked body = false := isMarked_of_kind hasBody.kind_eq (by decide)
  rw [hasBody.withMembers_eq]
  apply marksOfFields_set sound
  rw [marksOfField, hasBody.held, marksOfValue_node]
  apply marks_set hasBody.sound unmarked
  rw [marksOfValue_list, marksOfField_of_nodes hasBody.sound (bodySpec hasBody.kind_eq) rfl]
  exact same

/-! ## Changes of classes -/

namespace ClassEdit

/-- What a change puts into a class is fresh. -/
def IsFresh : ClassEdit → Prop
  | .insert added => Fresh added
  | .extend _ added => ∀ p ∈ added, Fresh p

/-- What a change does to the members. -/
def onMembers : ClassEdit → List Value → List Value
  | .insert added => (.node added :: ·)
  | .extend property added => modifyFirst (isStaticProperty property) (extendProperty added)

theorem apply_eq (edit : ClassEdit) (c : Node) : edit.apply c = withMembers edit.onMembers c := by
  cases edit <;> rfl

variable {edit : ClassEdit} {items : List Value}

theorem fitItems_onMembers (fresh : edit.IsFresh) (fits : FitItems (some .node) items) :
    FitItems (some .node) (edit.onMembers items) := by
  cases edit with
  | insert added =>
      change Fresh added at fresh
      exact ⟨⟨trivial, fresh.1⟩, fits⟩
  | extend property added =>
      apply fitItems_modifyFirst _ fits
      intro n isStatic nFits
      exact ⟨trivial, sound_extendProperty nFits.2 (kind_of_isStaticProperty isStatic) fresh⟩

@[simp]
theorem marksOfItems_onMembers (fresh : edit.IsFresh) (fits : FitItems (some .node) items) :
    marksOfItems (edit.onMembers items) = marksOfItems items := by
  cases edit with
  | insert added =>
      change marksOfItems (.node added :: items) = _
      rw [marksOfItems_cons, marksOfItem_node, show marks added = [] from fresh.2,
        List.nil_append]
  | extend property added =>
      apply marksOfItems_modifyFirst _ fits
      intro n isStatic sound
      exact marks_extendProperty sound (kind_of_isStaticProperty isStatic) fresh

end ClassEdit

/-- A change of a class leaves it sound, and is seen neither in the outline nor among the
classes and declarations below. -/
structure Kept (before after : Node) : Prop where
  sound : after.Sound
  type_eq : after.type = before.type
  outline_eq : after.outline = before.outline
  marks_eq : marksOfFields after.fields = marksOfFields before.fields

theorem kept_apply {edit : ClassEdit} (fresh : edit.IsFresh) {c : Node} (sound : c.Sound)
    (isClass : c.kind = .classDeclaration) : Kept c (edit.apply c) := by
  obtain ⟨body, hasBody⟩ := HasBody.exists_of_sound sound isClass
  have fits := hasBody.sound.fitItems (bodySpec hasBody.kind_eq) rfl
  rw [edit.apply_eq]
  constructor
  · exact sound_withMembers sound isClass hasBody (ClassEdit.fitItems_onMembers fresh fits)
  · rw [hasBody.withMembers_eq]
    rfl
  · exact outline_withMembers sound isClass hasBody _
  · exact marksOfFields_withMembers sound hasBody (ClassEdit.marksOfItems_onMembers fresh fits)

end PropValidators
