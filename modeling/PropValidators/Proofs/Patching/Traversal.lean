import PropValidators.Proofs.Patching.Edits

/-!
# Changing the classes of a tree

The changes of classes are handed through a tree from one class to the next.  What this does
to the tree is described by what it does to the list of its classes and declarations: each of
them is changed with the changes that are left when it is met, and a class uses up one.
Everything else stays as it is, so the outline of the tree is the same.
-/

namespace PropValidators

open Ast

/-- All changes put only fresh nodes into a tree. -/
def AllFresh (edits : List (Option ClassEdit)) : Prop :=
  ∀ edit, some edit ∈ edits → edit.IsFresh

theorem AllFresh.drop {edits : List (Option ClassEdit)} (fresh : AllFresh edits) (n : Nat) :
    AllFresh (edits.drop n) :=
  fun edit mem => fresh edit (List.mem_of_mem_drop mem)

/-- A class after a change, if there is one. -/
def applyEdit (edit : Option ClassEdit) (c : Node) : Node :=
  (edit.map fun edit => edit.apply c).getD c

/-- The changes that are left after a node was met. -/
def editsAfter (edits : List (Option ClassEdit)) (n : Node) : List (Option ClassEdit) :=
  if n.kind = .classDeclaration then edits.drop 1 else edits

/-- The classes and declarations of a tree after its classes were changed. -/
def editMarks (edits : List (Option ClassEdit)) : List Node → List Node
  | [] => []
  | m :: ms => (editClasses edits m).1 :: editMarks (editsAfter edits m) ms

/-- The changes that are left after all classes and declarations of a tree were met. -/
def editsLeft (edits : List (Option ClassEdit)) : List Node → List (Option ClassEdit)
  | [] => edits
  | m :: ms => editsLeft (editsAfter edits m) ms

theorem AllFresh.editsAfter {edits : List (Option ClassEdit)} (fresh : AllFresh edits) (n : Node) :
    AllFresh (editsAfter edits n) := by
  rw [PropValidators.editsAfter]
  split
  · exact fresh.drop 1
  · exact fresh

theorem AllFresh.editsLeft {edits : List (Option ClassEdit)} (fresh : AllFresh edits)
    (nodes : List Node) : AllFresh (editsLeft edits nodes) := by
  induction nodes generalizing edits with
  | nil => exact fresh
  | cons n nodes ih => exact ih (fresh.editsAfter n)

theorem editMarks_append (edits : List (Option ClassEdit)) (nodes more : List Node) :
    editMarks edits (nodes ++ more) =
      editMarks edits nodes ++ editMarks (editsLeft edits nodes) more := by
  induction nodes generalizing edits with
  | nil => rfl
  | cons n nodes ih => rw [List.cons_append, editMarks, editMarks, editsLeft, ih, List.cons_append]

theorem editsLeft_append (edits : List (Option ClassEdit)) (nodes more : List Node) :
    editsLeft edits (nodes ++ more) = editsLeft (editsLeft edits nodes) more := by
  induction nodes generalizing edits with
  | nil => rfl
  | cons n nodes ih => rw [List.cons_append, editsLeft, editsLeft, ih]

/-- Nodes became others, with some changes left. -/
structure Handed (edits : List (Option ClassEdit)) (before after : List Node)
    (left : List (Option ClassEdit)) : Prop where
  marks_eq : after = editMarks edits before
  left_eq : left = editsLeft edits before

theorem Handed.nil (edits : List (Option ClassEdit)) : Handed edits [] [] edits :=
  ⟨rfl, rfl⟩

/-- Changes are handed on from some nodes to the ones after them. -/
theorem Handed.append {edits mid left : List (Option ClassEdit)}
    {before after moreBefore moreAfter : List Node} (first : Handed edits before after mid)
    (second : Handed mid moreBefore moreAfter left) :
    Handed edits (before ++ moreBefore) (after ++ moreAfter) left := by
  obtain ⟨rfl, rfl⟩ := first
  obtain ⟨rfl, rfl⟩ := second
  exact ⟨(editMarks_append edits before moreBefore).symm,
    (editsLeft_append edits before moreBefore).symm⟩

theorem Handed.allFresh {edits left : List (Option ClassEdit)} {before after : List Node}
    (handed : Handed edits before after left) (fresh : AllFresh edits) : AllFresh left :=
  handed.left_eq ▸ fresh.editsLeft before

theorem editClasses_of_class {n : Node} (isClass : n.kind = .classDeclaration)
    (edits : List (Option ClassEdit)) :
    editClasses edits n =
      (applyEdit edits.head?.join ⟨n.type, (editFields (edits.drop 1) n.fields).1⟩,
        (editFields (edits.drop 1) n.fields).2) := by
  obtain ⟨type, fields⟩ := n
  change Kind.ofType type = .classDeclaration at isClass
  rw [editClasses, if_pos isClass]
  rfl

theorem editClasses_of_other {n : Node} (notClass : n.kind ≠ .classDeclaration)
    (edits : List (Option ClassEdit)) :
    editClasses edits n =
      (⟨n.type, (editFields edits n.fields).1⟩, (editFields edits n.fields).2) := by
  obtain ⟨type, fields⟩ := n
  change Kind.ofType type ≠ .classDeclaration at notClass
  rw [editClasses, if_neg notClass]

theorem kept_applyEdit {edit : Option ClassEdit} (fresh : ∀ e, edit = some e → e.IsFresh) {c : Node}
    (sound : c.Sound) (isClass : c.kind = .classDeclaration) : Kept c (applyEdit edit c) := by
  cases edit with
  | none => exact ⟨sound, rfl, rfl, rfl⟩
  | some e => exact kept_apply (fresh e rfl) sound isClass

private theorem isMarked_congr {n m : Node} (same : n.type = m.type) : isMarked n = isMarked m := by
  simp only [isMarked, isDeclaration, Node.kind, same]

/-- Marked nodes of a node whose type stays the same. -/
theorem handed_node {edits : List (Option ClassEdit)} {n : Node}
    (type_eq : (editClasses edits n).1.type = n.type)
    (below : Handed (editsAfter edits n) (marksOfFields n.fields)
      (marksOfFields (editClasses edits n).1.fields) (editClasses edits n).2) :
    Handed edits (marks n) (marks (editClasses edits n).1) (editClasses edits n).2 := by
  rw [marks_eq, marks_eq (editClasses edits n).1, isMarked_congr type_eq]
  split
  · obtain ⟨marksEq, leftEq⟩ := below
    exact ⟨by rw [marksEq]; rfl, leftEq⟩
  · rename_i unmarked
    have notClass : n.kind ≠ .classDeclaration := by
      intro isClass
      rw [isMarked, isClass] at unmarked
      exact unmarked rfl
    rw [editsAfter, if_neg notClass] at below
    exact below

/-- A node after the classes in it were changed. -/
structure NodeEdited (edits : List (Option ClassEdit)) (n : Node) : Prop where
  sound : (editClasses edits n).1.Sound
  type_eq : (editClasses edits n).1.type = n.type
  outline_eq : (editClasses edits n).1.outline = n.outline
  handed : Handed edits (marks n) (marks (editClasses edits n).1) (editClasses edits n).2

/-- A value of a field after the classes in it were changed. -/
structure ValueEdited (type : Option FieldType) (edits : List (Option ClassEdit)) (value : Value) :
    Prop where
  fits : (editValue edits value).1.Fits type
  outline_eq : (editValue edits value).1.outline = value.outline
  handed : Handed edits (marksOfValue value) (marksOfValue (editValue edits value).1)
    (editValue edits value).2

/-- An item of a list after the classes in it were changed. -/
structure ItemEdited (type : Option FieldType) (edits : List (Option ClassEdit)) (item : Value) :
    Prop where
  fits : (editItem edits item).1.Fits type
  outline_eq : (editItem edits item).1.outline = item.outline
  handed : Handed edits (marksOfItem item) (marksOfItem (editItem edits item).1)
    (editItem edits item).2

/-- The items of a list after the classes in them were changed. -/
structure ItemsEdited (type : Option FieldType) (edits : List (Option ClassEdit))
    (items : List Value) : Prop where
  fits : FitItems type (editItems edits items).1
  outline_eq : outlineItems (editItems edits items).1 = outlineItems items
  handed : Handed edits (marksOfItems items) (marksOfItems (editItems edits items).1)
    (editItems edits items).2

/-- The fields of a node after the classes in them were changed. -/
structure FieldsEdited (kind : Kind) (edits : List (Option ClassEdit))
    (fields : List (FieldName × Value)) : Prop where
  sound : SoundFields kind (editFields edits fields).1
  names_eq : (editFields edits fields).1.map Prod.fst = fields.map Prod.fst
  sketch_eq : ((editFields edits fields).1.map fun field => (field.1, field.2.outline)) =
    fields.map fun field => (field.1, field.2.outline)
  handed : Handed edits (marksOfFields fields) (marksOfFields (editFields edits fields).1)
    (editFields edits fields).2

/-- A node with the classes in its fields changed is sound, and has the same sketch. -/
theorem FieldsEdited.node {edits : List (Option ClassEdit)} {n : Node} (sound : n.Sound)
    (edited : FieldsEdited n.kind edits n.fields) :
    Node.Sound ⟨n.type, (editFields edits n.fields).1⟩ ∧
      Node.sketch ⟨n.type, (editFields edits n.fields).1⟩ = n.sketch := by
  constructor
  · refine ⟨?_, edited.sound⟩
    rw [edited.names_eq]
    exact sound.layout
  · rw [Node.sketch, Node.sketch, edited.sketch_eq]

/-- The changes made to the fields of a class come before that of the class itself. -/
theorem nodeEdited_of_class {edits : List (Option ClassEdit)} (fresh : AllFresh edits) {n : Node}
    (sound : n.Sound) (isClass : n.kind = .classDeclaration)
    (edited : FieldsEdited n.kind (edits.drop 1) n.fields) : NodeEdited edits n := by
  obtain ⟨innerSound, innerSketch⟩ := edited.node sound
  have headFresh : ∀ e, edits.head?.join = some e → e.IsFresh := by
    intro e headEq
    rw [Option.join_eq_some_iff] at headEq
    exact fresh e (List.mem_of_mem_head? headEq)
  have kept := kept_applyEdit headFresh innerSound isClass
  have editedEq := editClasses_of_class isClass edits
  have type_eq : (editClasses edits n).1.type = n.type := by
    rw [editedEq]
    exact kept.type_eq
  refine ⟨?_, type_eq, ?_, ?_⟩
  · rw [editedEq]
    exact kept.sound
  · rw [editedEq]
    exact kept.outline_eq.trans (Node.outline_congr innerSketch)
  · apply handed_node type_eq
    rw [editedEq, editsAfter, if_pos isClass]
    dsimp only
    rw [kept.marks_eq]
    exact edited.handed

private theorem nodeEdited_of_other {edits : List (Option ClassEdit)} {n : Node} (sound : n.Sound)
    (notClass : n.kind ≠ .classDeclaration) (edited : FieldsEdited n.kind edits n.fields) :
    NodeEdited edits n := by
  obtain ⟨innerSound, innerSketch⟩ := edited.node sound
  have editedEq := editClasses_of_other notClass edits
  have type_eq : (editClasses edits n).1.type = n.type := by rw [editedEq]
  refine ⟨?_, type_eq, ?_, ?_⟩
  · rw [editedEq]
    exact innerSound
  · rw [editedEq]
    exact Node.outline_congr innerSketch
  · apply handed_node type_eq
    rw [editedEq, editsAfter, if_neg notClass]
    exact edited.handed

mutual

theorem nodeEdited : (n : Node) → n.Sound → ∀ edits, AllFresh edits → NodeEdited edits n
  | ⟨type, fields⟩, sound, edits, fresh => by
      by_cases isClass : Kind.ofType type = .classDeclaration
      · exact nodeEdited_of_class fresh sound isClass
          (fieldsEdited fields sound.2 (edits.drop 1) (fresh.drop 1))
      · exact nodeEdited_of_other sound isClass (fieldsEdited fields sound.2 edits fresh)
termination_by structural n => n

private theorem valueEdited : (value : Value) → ∀ {type}, value.Fits type →
    ∀ edits, AllFresh edits → ValueEdited type edits value
  | .node n, _, fits, edits, fresh => by
      have edited := nodeEdited n fits.2 edits fresh
      refine ⟨⟨?_, edited.sound⟩, congrArg Value.node edited.outline_eq, edited.handed⟩
      rw [edited.type_eq]
      exact fits.1
  | .list items, _, ⟨item, itemEq, fits⟩, edits, fresh => by
      have edited := itemsEdited items fits edits fresh
      exact ⟨⟨item, itemEq, edited.fits⟩, congrArg Value.list edited.outline_eq, edited.handed⟩
  | .data _, _, fits, edits, _ => ⟨fits, rfl, Handed.nil edits⟩
termination_by structural value => value

private theorem itemEdited : (item : Value) → ∀ {type}, item.Fits type → ∀ edits, AllFresh edits →
    ItemEdited type edits item
  | .node n, _, fits, edits, fresh => by
      have edited := nodeEdited n fits.2 edits fresh
      refine ⟨⟨?_, edited.sound⟩, congrArg Value.node edited.outline_eq, edited.handed⟩
      rw [edited.type_eq]
      exact fits.1
  | .list _, _, fits, edits, _ => ⟨fits, rfl, Handed.nil edits⟩
  | .data _, _, fits, edits, _ => ⟨fits, rfl, Handed.nil edits⟩
termination_by structural item => item

private theorem itemsEdited : (items : List Value) → ∀ {type}, FitItems type items → ∀ edits,
    AllFresh edits → ItemsEdited type edits items
  | [], _, _, edits, _ => ⟨trivial, rfl, Handed.nil edits⟩
  | item :: items, _, fits, edits, fresh => by
      have head := itemEdited item fits.1 edits fresh
      have rest := itemsEdited items fits.2 _ (head.handed.allFresh fresh)
      refine ⟨⟨head.fits, rest.fits⟩, ?_, ?_⟩
      · rw [editItems, outlineItems, outlineItems, head.outline_eq, rest.outline_eq]
      · rw [editItems, marksOfItems_cons, marksOfItems_cons]
        exact head.handed.append rest.handed
termination_by structural items => items

theorem fieldsEdited : (fields : List (FieldName × Value)) → ∀ {kind}, SoundFields kind fields →
    ∀ edits, AllFresh edits → FieldsEdited kind edits fields
  | [], _, _, edits, _ => ⟨trivial, rfl, rfl, Handed.nil edits⟩
  | (name, value) :: fields, _, sound, edits, fresh => by
      have head := valueEdited value sound.1 edits fresh
      have rest := fieldsEdited fields sound.2 _ (head.handed.allFresh fresh)
      refine ⟨⟨head.fits, rest.sound⟩, ?_, ?_, ?_⟩
      · rw [editFields, List.map_cons, List.map_cons, rest.names_eq]
      · rw [editFields, List.map_cons, List.map_cons, rest.sketch_eq, head.outline_eq]
      · rw [editFields, marksOfFields_cons, marksOfFields_cons]
        exact head.handed.append rest.handed
termination_by structural fields => fields

end

/-- Classes after each was changed, with one change used up by each. -/
def editEach (edits : List (Option ClassEdit)) : List Node → List Node
  | [] => []
  | c :: cs => (editClasses edits c).1 :: editEach (edits.drop 1) cs

private theorem filter_class_editMarks {edits : List (Option ClassEdit)} (fresh : AllFresh edits)
    {nodes : List Node} (sound : ∀ n ∈ nodes, n.Sound) :
    (editMarks edits nodes).filter (fun n => n.kind = .classDeclaration) =
      editEach edits (nodes.filter fun n => n.kind = .classDeclaration) := by
  induction nodes generalizing edits with
  | nil => rfl
  | cons n nodes ih =>
      rw [List.forall_mem_cons] at sound
      have kindEq : (editClasses edits n).1.kind = n.kind :=
        congrArg Kind.ofType (nodeEdited n sound.1 edits fresh).type_eq
      have rest := ih (fresh.editsAfter n) sound.2
      rw [editMarks]
      by_cases isClass : n.kind = .classDeclaration
      · rw [List.filter_cons_of_pos (by simp [kindEq, isClass]),
          List.filter_cons_of_pos (by simp [isClass]), editEach, rest, editsAfter, if_pos isClass]
      · rw [List.filter_cons_of_neg (by simp [kindEq, isClass]),
          List.filter_cons_of_neg (by simp [isClass]), rest, editsAfter, if_neg isClass]

private theorem map_outline_editMarks {edits : List (Option ClassEdit)} (fresh : AllFresh edits)
    {nodes : List Node} (sound : ∀ n ∈ nodes, n.Sound) :
    (editMarks edits nodes).map Node.outline = nodes.map Node.outline := by
  induction nodes generalizing edits with
  | nil => rfl
  | cons n nodes ih =>
      rw [List.forall_mem_cons] at sound
      rw [editMarks, List.map_cons, List.map_cons, ih (fresh.editsAfter n) sound.2,
        (nodeEdited n sound.1 edits fresh).outline_eq]

theorem sound_of_mem_marks {n m : Node} (sound : n.Sound) (mem : m ∈ marks n) : m.Sound :=
  n.sound_of_mem_tree sound m (List.mem_filter.mp mem).1

theorem sound_of_mem_classNodes {root c : Node} (sound : root.Sound) (mem : c ∈ classNodes root) :
    c.Sound := by
  rw [classNodes_eq] at mem
  exact sound_of_mem_marks sound (List.mem_filter.mp mem).1

/-- The classes of a module after a change are the classes before, each changed. -/
theorem classNodes_editClasses {edits : List (Option ClassEdit)} (fresh : AllFresh edits)
    {root : Node} (sound : root.Sound) :
    classNodes (editClasses edits root).1 = editEach edits (classNodes root) := by
  rw [classNodes_eq, classNodes_eq, (nodeEdited root sound edits fresh).handed.marks_eq,
    filter_class_editMarks fresh fun _ => sound_of_mem_marks sound]

@[simp]
theorem isDeclaration_outline (n : Node) : isDeclaration n.outline = isDeclaration n := by
  rw [isDeclaration, isDeclaration, Node.kind_outline]

private theorem map_outline_filter_isDeclaration (nodes : List Node) :
    (nodes.filter isDeclaration).map Node.outline =
      (nodes.map Node.outline).filter isDeclaration := by
  rw [List.filter_map]
  congr 1
  exact List.filter_congr fun n _ => (isDeclaration_outline n).symm

/-- The declarations of a module have the same outlines after a change. -/
theorem declarationNodes_editClasses {edits : List (Option ClassEdit)} (fresh : AllFresh edits)
    {root : Node} (sound : root.Sound) :
    (declarationNodes (editClasses edits root).1).map Node.outline =
      (declarationNodes root).map Node.outline := by
  rw [declarationNodes_eq, declarationNodes_eq, map_outline_filter_isDeclaration,
    map_outline_filter_isDeclaration, (nodeEdited root sound edits fresh).handed.marks_eq,
    map_outline_editMarks fresh fun _ => sound_of_mem_marks sound]

/-- A class is changed after those below it, which leaves its sketch as it is. -/
theorem exists_sketched {edits : List (Option ClassEdit)} (fresh : AllFresh edits) {c : Node}
    (sound : c.Sound) (isClass : c.kind = .classDeclaration) :
    ∃ inner : Node, inner.Sound ∧ inner.kind = .classDeclaration ∧ inner.sketch = c.sketch ∧
      (editClasses edits c).1 = applyEdit edits.head?.join inner := by
  have edited := fieldsEdited c.fields sound.soundFields (edits.drop 1) (fresh.drop 1)
  obtain ⟨innerSound, innerSketch⟩ := edited.node sound
  refine ⟨_, innerSound, isClass, innerSketch, ?_⟩
  rw [editClasses_of_class isClass]

/-- There is no change among the changes. -/
def Idle (edits : List (Option ClassEdit)) : Prop :=
  ∀ edit ∈ edits, edit = none

theorem Idle.head?_join {edits : List (Option ClassEdit)} (idle : Idle edits) :
    edits.head?.join = none := by
  cases edits with
  | nil => rfl
  | cons edit edits => exact idle edit List.mem_cons_self

theorem Idle.drop {edits : List (Option ClassEdit)} (idle : Idle edits) (n : Nat) :
    Idle (edits.drop n) :=
  fun edit mem => idle edit (List.mem_of_mem_drop mem)

mutual

theorem editClasses_of_idle : (n : Node) → ∀ edits, Idle edits →
    (editClasses edits n).1 = n ∧ Idle (editClasses edits n).2
  | ⟨type, fields⟩, edits, idle => by
      by_cases isClass : Node.kind ⟨type, fields⟩ = .classDeclaration
      · obtain ⟨same, rest⟩ := editFields_of_idle fields _ (idle.drop 1)
        rw [editClasses_of_class isClass, idle.head?_join]
        dsimp only
        rw [same]
        exact ⟨rfl, rest⟩
      · obtain ⟨same, rest⟩ := editFields_of_idle fields _ idle
        rw [editClasses_of_other isClass]
        dsimp only
        rw [same]
        exact ⟨rfl, rest⟩
termination_by structural n => n

private theorem editValue_of_idle : (value : Value) → ∀ edits, Idle edits →
    (editValue edits value).1 = value ∧ Idle (editValue edits value).2
  | .node n, edits, idle => by
      obtain ⟨same, rest⟩ := editClasses_of_idle n edits idle
      exact ⟨congrArg Value.node same, rest⟩
  | .list items, edits, idle => by
      obtain ⟨same, rest⟩ := editItems_of_idle items edits idle
      exact ⟨congrArg Value.list same, rest⟩
  | .data _, _, idle => ⟨rfl, idle⟩
termination_by structural value => value

private theorem editItem_of_idle : (item : Value) → ∀ edits, Idle edits →
    (editItem edits item).1 = item ∧ Idle (editItem edits item).2
  | .node n, edits, idle => by
      obtain ⟨same, rest⟩ := editClasses_of_idle n edits idle
      exact ⟨congrArg Value.node same, rest⟩
  | .list _, _, idle => ⟨rfl, idle⟩
  | .data _, _, idle => ⟨rfl, idle⟩
termination_by structural item => item

private theorem editItems_of_idle : (items : List Value) → ∀ edits, Idle edits →
    (editItems edits items).1 = items ∧ Idle (editItems edits items).2
  | [], _, idle => ⟨rfl, idle⟩
  | item :: items, edits, idle => by
      obtain ⟨headSame, headRest⟩ := editItem_of_idle item edits idle
      obtain ⟨same, rest⟩ := editItems_of_idle items _ headRest
      exact ⟨congrArg₂ List.cons headSame same, rest⟩
termination_by structural items => items

theorem editFields_of_idle : (fields : List (FieldName × Value)) → ∀ edits, Idle edits →
    (editFields edits fields).1 = fields ∧ Idle (editFields edits fields).2
  | [], _, idle => ⟨rfl, idle⟩
  | (name, value) :: fields, edits, idle => by
      obtain ⟨headSame, headRest⟩ := editValue_of_idle value edits idle
      obtain ⟨same, rest⟩ := editFields_of_idle fields _ headRest
      exact ⟨congrArg₂ (fun value rest => (name, value) :: rest) headSame same, rest⟩
termination_by structural fields => fields

end

end PropValidators
