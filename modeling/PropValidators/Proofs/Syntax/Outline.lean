import PropValidators.Proofs.Syntax.Parts

/-!
# Outlines of trees

The outline of a tree is the tree with the bodies of its classes emptied.  Whatever is read
off a node for resolving types is the same for its outline, so two trees that differ in the
bodies of their classes only give the same types and the same declarations.

The sketch of a class keeps its own body, and empties those of the classes below it.
-/

namespace PropValidators.Ast

/-- A field is not shown in an outline: it holds the body of a class. -/
def Hidden (kind : Kind) (name : FieldName) : Prop :=
  kind = .classDeclaration ∧ name = .declared "body"

instance (kind : Kind) (name : FieldName) : Decidable (Hidden kind name) :=
  inferInstanceAs (Decidable (_ ∧ _))

/-- The body of a class without members. -/
def emptyBody : Node :=
  ⟨Kind.classBody.tag, []⟩

mutual

/-- A node with the bodies of classes emptied. -/
def Node.outline : Node → Node
  | ⟨type, fields⟩ => ⟨type, outlineFields (Kind.ofType type) fields⟩
termination_by structural n => n

/-- A value with the bodies of classes emptied. -/
def Value.outline : Value → Value
  | .node n => .node n.outline
  | .list items => .list (outlineItems items)
  | .data data => .data data
termination_by structural value => value

/-- Items of a list with the bodies of classes emptied. -/
def outlineItems : List Value → List Value
  | [] => []
  | item :: items => item.outline :: outlineItems items
termination_by structural items => items

/-- Fields of a node with the bodies of classes emptied. -/
def outlineFields (kind : Kind) : List (FieldName × Value) → List (FieldName × Value)
  | [] => []
  | (name, value) :: fields =>
      (name, if Hidden kind name then .node emptyBody else value.outline) ::
        outlineFields kind fields
termination_by structural fields => fields

end

/-- A node with the bodies of the classes below it emptied. -/
def Node.sketch (n : Node) : Node :=
  ⟨n.type, n.fields.map fun field => (field.1, field.2.outline)⟩

@[simp]
theorem outlineItems_eq_map (items : List Value) :
    outlineItems items = items.map Value.outline := by
  induction items with
  | nil => rfl
  | cons item items ih => rw [outlineItems, ih, List.map_cons]

@[simp]
theorem outlineFields_eq_map (kind : Kind) (fields : List (FieldName × Value)) :
    outlineFields kind fields = fields.map fun field =>
      (field.1, if Hidden kind field.1 then .node emptyBody else field.2.outline) := by
  induction fields with
  | nil => rfl
  | cons field fields ih => rw [outlineFields, ih, List.map_cons]

theorem Node.outline_eq (n : Node) :
    n.outline = ⟨n.type, n.fields.map fun field =>
      (field.1, if Hidden n.kind field.1 then .node emptyBody else field.2.outline)⟩ := by
  obtain ⟨type, fields⟩ := n
  rw [outline, outlineFields_eq_map, kind]

/-- What is seen in a sketch is all that is seen in an outline. -/
theorem Node.outline_congr {n m : Node} (same : n.sketch = m.sketch) : n.outline = m.outline := by
  have fromSketch : ∀ n : Node, n.outline = ⟨n.sketch.type, n.sketch.fields.map fun field =>
      (field.1, if Hidden n.sketch.kind field.1 then .node emptyBody else field.2)⟩ := by
    intro n
    rw [outline_eq, sketch, List.map_map]
    rfl
  rw [fromSketch n, fromSketch m, same]

private theorem emptyBody_sound : emptyBody.Sound := by
  have noFields : Layout .classBody [] :=
    ⟨fun _ => false, [], rfl, by decide, List.nodup_nil, by simp⟩
  exact ⟨noFields, trivial⟩

/-- Only the field for the body of a class is hidden. -/
theorem typeOfField?_of_hidden {kind : Kind} {name : FieldName} (hidden : Hidden kind name) :
    kind.typeOfField? name = some (.body .classBody) := by
  rw [hidden.1, hidden.2]
  decide

@[simp]
theorem fst_map_outlineFields (kind : Kind) (fields : List (FieldName × Value)) :
    (outlineFields kind fields).map Prod.fst = fields.map Prod.fst := by
  rw [outlineFields_eq_map, List.map_map]
  rfl

mutual

theorem Node.Sound.outline : {n : Node} → n.Sound → n.outline.Sound
  | ⟨type, fields⟩, sound => by
      refine ⟨?_, soundFields_outlineFields fields sound.2⟩
      rw [fst_map_outlineFields]
      exact sound.1

theorem Value.Fits.outline {type : Option FieldType} :
    {value : Value} → value.Fits type → value.outline.Fits type
  | .node ⟨_, _⟩, fits => ⟨fits.1, Node.Sound.outline fits.2⟩
  | .list items, ⟨item, itemEq, fits⟩ => ⟨item, itemEq, fitItems_outlineItems items fits⟩
  | .data _, fits => fits

private theorem fitItems_outlineItems {type : Option FieldType} :
    (items : List Value) → FitItems type items → FitItems type (outlineItems items)
  | [], _ => trivial
  | _ :: items, fits => ⟨Value.Fits.outline fits.1, fitItems_outlineItems items fits.2⟩

private theorem soundFields_outlineFields {kind : Kind} :
    (fields : List (FieldName × Value)) → SoundFields kind fields →
      SoundFields kind (outlineFields kind fields)
  | [], _ => trivial
  | (name, value) :: fields, sound => by
      refine ⟨?_, soundFields_outlineFields fields sound.2⟩
      by_cases hidden : Hidden kind name
      · rw [if_pos hidden, typeOfField?_of_hidden hidden]
        exact ⟨rfl, emptyBody_sound⟩
      · rw [if_neg hidden]
        exact Value.Fits.outline sound.1

end

namespace Value

@[simp]
theorem outline_node (n : Node) : (node n).outline = node n.outline :=
  rfl

@[simp]
theorem outline_list (items : List Value) : (list items).outline = list (items.map outline) :=
  congrArg list (outlineItems_eq_map items)

@[simp]
theorem outline_data (data : Json) : (Value.data data).outline = .data data :=
  rfl

@[simp]
theorem node?_outline (value : Value) : value.outline.node? = value.node?.map Node.outline := by
  cases value <;> rfl

@[simp]
theorem isNull_outline (value : Value) : value.outline.isNull = value.isNull := by
  cases value <;> rfl

@[simp]
theorem text?_outline (value : Value) : value.outline.text? = value.text? := by
  cases value <;> rfl

@[simp]
theorem filterMap_node?_outline (items : List Value) :
    (items.map outline).filterMap node? = (items.filterMap node?).map Node.outline := by
  induction items with
  | nil => rfl
  | cons item items ih =>
      rw [List.map_cons, List.filterMap_cons, List.filterMap_cons, node?_outline]
      cases item.node? with
      | none => exact ih
      | some n => exact congrArg _ ih

/-- Nothing but the items of a list are nodes that are met in going through a value. -/
theorem filterMap_node?_items_of_list?_eq_none {value : Value} (notList : value.list? = none) :
    value.items.filterMap node? = [] := by
  cases value with
  | list items => cases notList
  | node n =>
      rw [List.filterMap_eq_nil_iff]
      intro item mem
      obtain ⟨field, -, rfl⟩ := List.mem_map.mp mem
      rfl
  | data data =>
      rw [List.filterMap_eq_nil_iff]
      intro item mem
      cases data with
      | string s =>
          obtain ⟨c, -, rfl⟩ := List.mem_map.mp mem
          rfl
      | object members =>
          obtain ⟨field, -, rfl⟩ := List.mem_map.mp mem
          rfl
      | _ => cases mem

@[simp]
theorem filterMap_node?_items_outline (value : Value) :
    value.outline.items.filterMap node? = (value.items.filterMap node?).map Node.outline := by
  cases value with
  | list items =>
      rw [outline_list]
      exact filterMap_node?_outline items
  | node n =>
      rw [outline_node, filterMap_node?_items_of_list?_eq_none rfl,
        filterMap_node?_items_of_list?_eq_none rfl, List.map_nil]
  | data data =>
      rw [outline_data, filterMap_node?_items_of_list?_eq_none rfl, List.map_nil]

end Value

namespace Node

@[simp]
theorem type_outline (n : Node) : n.outline.type = n.type := by
  cases n
  rfl

@[simp]
theorem kind_outline (n : Node) : n.outline.kind = n.kind :=
  congrArg Kind.ofType n.type_outline

theorem find?_map_snd (change : FieldName → Value → Value) (name : FieldName)
    (fields : List (FieldName × Value)) :
    ((fields.map fun field => (field.1, change field.1 field.2)).find?
      fun field => field.1 == name).map Prod.snd =
      ((fields.find? fun field => field.1 == name).map Prod.snd).map (change name) := by
  induction fields with
  | nil => rfl
  | cons field fields ih =>
      rw [List.map_cons, List.find?_cons, List.find?_cons]
      cases same : field.1 == name with
      | false => exact ih
      | true =>
          rw [beq_iff_eq] at same
          simp [same]

theorem field?_outline {n : Node} {name : FieldName} (visible : ¬ Hidden n.kind name) :
    n.outline.field? name = (n.field? name).map Value.outline := by
  obtain ⟨type, fields⟩ := n
  rw [field?, outline, outlineFields_eq_map, find?_map_snd fun name value =>
    if Hidden (Kind.ofType type) name then .node emptyBody else value.outline]
  rw [field?]
  congr 1
  funext value
  exact if_neg visible

@[simp]
theorem field?_sketch (n : Node) (name : FieldName) :
    n.sketch.field? name = (n.field? name).map Value.outline :=
  find?_map_snd (fun _ value => value.outline) name n.fields

theorem not_hidden_of_ne {kind : Kind} {key : String} (ne : key ≠ "body") :
    ¬ Hidden kind (.declared key) := by
  rintro ⟨-, nameEq⟩
  exact ne (FieldName.declared.inj nameEq)

theorem get?_outline {key : String} (ne : key ≠ "body") (n : Node) :
    n.outline.get? key = (n.get? key).map Value.outline :=
  field?_outline (not_hidden_of_ne ne)

theorem child?_outline {key : String} (ne : key ≠ "body") (n : Node) :
    n.outline.child? key = (n.child? key).map Node.outline := by
  rw [child?, child?, get?_outline ne]
  cases n.get? key with
  | none => rfl
  | some value => exact value.node?_outline

theorem text?_outline {key : String} (ne : key ≠ "body") (n : Node) :
    n.outline.text? key = n.text? key := by
  rw [text?, text?, get?_outline ne]
  cases n.get? key with
  | none => rfl
  | some value => exact value.text?_outline

theorem flag_outline {key : String} (ne : key ≠ "body") (n : Node) :
    n.outline.flag key = n.flag key := by
  rw [flag, flag, get?_outline ne]
  cases n.get? key with
  | none => rfl
  | some value => cases value <;> rfl

theorem number?_outline {key : String} (ne : key ≠ "body") (n : Node) :
    n.outline.number? key = n.number? key := by
  rw [number?, number?, get?_outline ne]
  cases n.get? key with
  | none => rfl
  | some value => cases value <;> rfl

theorem children_outline_of_visible {n : Node} {key : String}
    (visible : ¬ Hidden n.kind (.declared key)) :
    n.outline.children key = (n.children key).map Node.outline := by
  rw [children, children, items, items, get?, get?, field?_outline visible]
  cases n.field? (.declared key) with
  | none => rfl
  | some value => exact value.filterMap_node?_items_outline

theorem children_outline {key : String} (ne : key ≠ "body") (n : Node) :
    n.outline.children key = (n.children key).map Node.outline :=
  children_outline_of_visible (not_hidden_of_ne ne)

@[simp]
theorem hasType_outline (n : Node) (type : String) : n.outline.hasType type = n.hasType type := by
  rw [hasType, hasType, type_outline, child?_outline (by decide), Option.isNone_map]

/-- The only label of the field for the body is its key. -/
theorem nameOf_ne_body {label : String} (ne : label ≠ "body") (kind : Kind) :
    kind.nameOf label ≠ .declared "body" := by
  have labels : ∀ spec ∈ kind.fields, spec.key = "body" → spec.label = "body" := by
    cases kind <;> decide
  rw [Kind.nameOf]
  split
  · simp
  · split
    · rename_i spec found
      intro nameEq
      have labelEq : spec.label = label := by simpa using List.find?_some found
      exact ne (labelEq ▸ labels spec (List.mem_of_find?_eq_some found)
        (FieldName.declared.inj nameEq))
    · simp

theorem attribute?_outline {label : String} (ne : label ≠ "body") (n : Node) :
    n.outline.attribute? label = (n.attribute? label).map Value.outline := by
  have visible : ¬ Hidden n.kind (n.kind.nameOf label) := fun hidden =>
    nameOf_ne_body ne n.kind hidden.2
  rw [attribute?, attribute?, kind_outline, field?_outline visible]
  cases n.field? (n.kind.nameOf label) with
  | none => rfl
  | some value =>
      simp only [Option.map_some, Option.filter_some, Value.isNull_outline]
      split <;> rfl

end Node

end PropValidators.Ast
