import PropValidators.Ast.Members
import PropValidators.Proofs.Syntax.Sound
import PropValidators.Types.FromAst
import Mathlib.Data.List.Forall2

/-!
# Parts of sound nodes

What is met in a sound node is sound, and it is what the kind of the node says: no node
stands in the place of a text, a number or a list.  So none of the faults that come from
misplaced nodes is met in a sound tree.
-/

namespace PropValidators.Ast

theorem Value.Fits.sound {type : Option FieldType} {n : Node} (fits : (Value.node n).Fits type) :
    n.Sound :=
  fits.2

/-- The nodes that are met in a value that fits somewhere are sound. -/
theorem Value.Fits.sound_of_mem_items {type : Option FieldType} {value item : Value} {n : Node}
    (fits : value.Fits type) (mem : item ∈ value.items) (node : item.node? = some n) :
    n.Sound := by
  cases value with
  | list items =>
      obtain ⟨itemType, -, itemsFit⟩ := fits
      have itemFits := fitItems_iff.mp itemsFit item mem
      cases item with
      | node m =>
          cases node
          exact itemFits.2
      | list others => cases node
      | data data => cases node
  | node m =>
      obtain ⟨field, -, rfl⟩ := List.mem_map.mp mem
      cases node
  | data data =>
      cases data with
      | string s =>
          obtain ⟨c, -, rfl⟩ := List.mem_map.mp mem
          cases node
      | object members =>
          obtain ⟨field, -, rfl⟩ := List.mem_map.mp mem
          cases node
      | _ => cases mem

namespace FieldType

/-- A node may stand in a field of a type. -/
def holdsNode : FieldType → Bool
  | .node | .optionalNode | .name | .body _ => true
  | _ => false

/-- A list of nodes may stand in a field of a type, and nothing else but null. -/
def holdsNodes : FieldType → Bool
  | .nodes | .optionalNodes => true
  | _ => false

end FieldType

theorem Value.Fits.node?_eq_none {type : FieldType} {value : Value}
    (fits : value.Fits (some type)) (noNode : type.holdsNode = false) : value.node? = none := by
  cases value with
  | node n =>
      cases type with
      | node => cases noNode
      | optionalNode => cases noNode
      | name => cases noNode
      | body kind => cases noNode
      | _ => exact fits.1.elim
  | list items => rfl
  | data data => rfl

/-- In a list of nodes nothing but nodes is met. -/
theorem Value.Fits.items_eq_map_node {type : FieldType} {value : Value}
    (fits : value.Fits (some type)) (nodes : type.holdsNodes = true) :
    value.items = (value.items.filterMap node?).map .node := by
  cases value with
  | list items =>
      obtain ⟨itemType, itemEq, itemsFit⟩ := fits
      have nodeType : itemType = some .node := by
        cases type with
        | nodes =>
            cases itemEq
            rfl
        | optionalNodes =>
            cases itemEq
            rfl
        | _ => cases nodes
      subst nodeType
      rw [fitItems_iff] at itemsFit
      change items = (items.filterMap node?).map .node
      induction items with
      | nil => rfl
      | cons item items ih =>
          rw [List.forall_mem_cons] at itemsFit
          obtain ⟨n, rfl, -⟩ := Value.exists_node_of_fits itemsFit.1
          rw [List.filterMap_cons]
          exact congrArg _ (ih itemsFit.2)
  | node n =>
      cases type with
      | nodes => exact fits.1.elim
      | optionalNodes => exact fits.1.elim
      | _ => cases nodes
  | data data =>
      cases type with
      | nodes => exact fits.elim
      | optionalNodes =>
          cases fits
          rfl
      | _ => cases nodes

namespace Node.Sound

variable {n : Node}

theorem layout (sound : n.Sound) : Layout n.kind (n.fields.map Prod.fst) :=
  (Node.sound_iff.mp sound).1

theorem soundFields (sound : n.Sound) : SoundFields n.kind n.fields :=
  soundFields_iff.mpr (Node.sound_iff.mp sound).2

theorem fits_of_field? (sound : n.Sound) {name : FieldName} {value : Value}
    (held : n.field? name = some value) : value.Fits (n.kind.typeOfField? name) := by
  rw [field?, Option.map_eq_some_iff] at held
  obtain ⟨field, found, rfl⟩ := held
  have nameEq : field.1 = name := by simpa using List.find?_some found
  rw [← nameEq]
  exact (Node.sound_iff.mp sound).2 field (List.mem_of_find?_eq_some found)

theorem fits_of_get? (sound : n.Sound) {key : String} {spec : FieldSpec} {value : Value}
    (specEq : n.kind.specOfKey? key = some spec) (held : n.get? key = some value) :
    value.Fits (some spec.type) := by
  have fits := sound.fits_of_field? held
  rwa [Kind.typeOfField?, specEq] at fits

theorem of_child? (sound : n.Sound) {key : String} {child : Node}
    (held : n.child? key = some child) : child.Sound := by
  rw [child?, Option.bind_eq_some_iff] at held
  obtain ⟨value, valueEq, node⟩ := held
  have fits := sound.fits_of_field? valueEq
  rw [eq_node_of_node? node] at fits
  exact fits.2

theorem of_mem_children (sound : n.Sound) {key : String} {child : Node}
    (mem : child ∈ n.children key) : child.Sound := by
  rw [children, List.mem_filterMap] at mem
  obtain ⟨item, itemMem, node⟩ := mem
  rw [items] at itemMem
  cases held : n.get? key with
  | none =>
      rw [held] at itemMem
      cases itemMem
  | some value =>
      rw [held] at itemMem
      exact (sound.fits_of_field? held).sound_of_mem_items itemMem node

theorem of_attribute? (sound : n.Sound) {label : String} {child : Node}
    (held : n.attribute? label = some (.node child)) : child.Sound := by
  rw [attribute?, Option.filter_eq_some_iff] at held
  exact (sound.fits_of_field? held.1).2

/-- No node stands in a field that is not for nodes. -/
theorem child?_eq_none (sound : n.Sound) {key : String} {spec : FieldSpec}
    (specEq : n.kind.specOfKey? key = some spec) (noNode : spec.type.holdsNode = false) :
    n.child? key = none := by
  rw [child?]
  cases held : n.get? key with
  | none => rfl
  | some value => exact (sound.fits_of_get? specEq held).node?_eq_none noNode

/-- No node stands in the place of the type. -/
theorem child?_type (sound : n.Sound) : n.child? "type" = none := by
  rw [child?, get?, field?]
  have notFound : n.fields.find? (fun field => field.1 == .declared "type") = none := by
    rw [List.find?_eq_none]
    intro field mem same
    rw [beq_iff_eq] at same
    exact sound.layout.declared_type_notMem (same ▸ List.mem_map_of_mem mem)
  rw [notFound]
  rfl

theorem items_eq_map_node (sound : n.Sound) {key : String} {spec : FieldSpec}
    (specEq : n.kind.specOfKey? key = some spec) (nodes : spec.type.holdsNodes = true) :
    n.items key = (n.children key).map .node := by
  rw [children, items]
  cases held : n.get? key with
  | none => rfl
  | some value => exact (sound.fits_of_get? specEq held).items_eq_map_node nodes

/-- A required field of a node is there. -/
theorem exists_of_required (sound : n.Sound) {spec : FieldSpec} (mem : spec ∈ n.kind.fields)
    (required : spec.type.required = true) : ∃ value, n.get? spec.key = some value := by
  have nameMem := sound.layout.mem_of_required mem required
  obtain ⟨⟨name, value⟩, fieldMem, rfl⟩ := List.mem_map.mp nameMem
  refine ⟨value, ?_⟩
  rw [get?, field?, find?_of_mem sound.layout.nodup fieldMem]
  rfl

/-- What is met in going through a list of nodes in a field are the nodes in it. -/
theorem nodesIn_eq (sound : n.Sound) {key : String} {spec : FieldSpec} (notType : key ≠ "type")
    (specEq : n.kind.specOfKey? key = some spec) (nodes : spec.type = .nodes) :
    n.nodesIn (.declared key) = .ok (n.children key) := by
  rw [nodesIn, itemsIn, held?, children, items]
  cases held : n.get? key with
  | none =>
      simp only [Option.orElse_eq_orElse, Option.orElse_none, if_neg notType, specEq,
        Option.map_some, nodes]
      rfl
  | some value =>
      have fits := sound.fits_of_get? specEq held
      rw [nodes] at fits
      cases value with
      | list items => rfl
      | node m => exact fits.1.elim
      | data data => exact fits.elim

/-- A class or an interface has a body, and its members are the nodes in that. -/
theorem exists_body (sound : n.Sound)
    (hasBody : n.kind = .classDeclaration ∨ n.kind = .interfaceDeclaration) :
    ∃ body : Node, n.get? "body" = some (.node body) ∧ body.Sound ∧
      body.kind = (if n.kind = .classDeclaration then .classBody else .interfaceBody) ∧
      n.memberField = .declared "body" ∧ n.members = .ok (body.children "body") := by
  let bodyKind : Kind := if n.kind = .classDeclaration then .classBody else .interfaceBody
  have specEq : n.kind.specOfKey? "body" = some ⟨"body", "body", .body bodyKind⟩ := by
    rcases hasBody with kindEq | kindEq <;>
      · simp only [bodyKind, kindEq]
        decide
  have memberFieldEq : n.memberField = .declared "body" := by
    rw [memberField]
    rcases hasBody with kindEq | kindEq <;>
      · rw [kindEq]
        decide
  obtain ⟨value, held⟩ := sound.exists_of_required (Kind.mem_of_specOfKey? specEq) rfl
  have fits := sound.fits_of_get? specEq held
  cases value with
  | list items =>
      obtain ⟨item, itemEq, -⟩ := fits
      cases itemEq
  | data data => exact fits.elim
  | node body =>
      have bodyKindEq : body.kind = bodyKind := by
        rw [kind, fits.1, Kind.ofType_tag]
      have bodySpecEq : body.kind.specOfKey? "body" = some ⟨"body", "body", .nodes⟩ := by
        rw [bodyKindEq]
        simp only [bodyKind]
        split <;> decide
      have bodyFieldEq : body.memberField = .declared "body" := by
        rw [memberField, bodyKindEq]
        simp only [bodyKind]
        split <;> decide
      refine ⟨body, held, fits.2, bodyKindEq, memberFieldEq, ?_⟩
      rw [members, memberFieldEq, held?, held]
      change body.bodyMembers = _
      rw [bodyMembers, bodyFieldEq, fits.2.nodesIn_eq (by decide) bodySpecEq rfl]

theorem misnamed?_eq_none (sound : n.Sound) : n.misnamed? = none := by
  rw [misnamed?]
  split
  · rename_i isIdentifier
    have specEq : n.kind.specOfKey? "name" = some ⟨"name", "name", .text⟩ :=
      Node.specOfKey?_of_kind isIdentifier rfl
    exact sound.child?_eq_none specEq rfl
  · rfl

theorem entityFault?_eq_none (sound : n.Sound) : n.entityFault? = none := by
  rw [entityFault?, sound.misnamed?_eq_none]
  rfl

theorem entityText?_eq (sound : n.Sound) : n.entityText? = n.entityName? := by
  rw [entityText?, sound.misnamed?_eq_none]
  simp

theorem typeFault?_eq_none (sound : n.Sound) : n.typeFault? = none := by
  rw [typeFault?, sound.child?_type]
  rfl

private theorem miskeyed?_eq_none (sound : n.Sound) : n.miskeyed? = none := by
  rw [miskeyed?]
  split
  · rename_i isIdentifier
    have specEq : n.kind.specOfKey? "name" = some ⟨"name", "name", .text⟩ :=
      Node.specOfKey?_of_kind isIdentifier rfl
    exact sound.child?_eq_none specEq rfl
  · rename_i isString
    have specEq : n.kind.specOfKey? "value" = some ⟨"value", "value", .text⟩ :=
      Node.specOfKey?_of_kind isString rfl
    exact sound.child?_eq_none specEq rfl
  · rfl

theorem propertyFault?_eq_none (sound : n.Sound) : n.propertyFault? = none := by
  rw [propertyFault?]
  split
  · rfl
  · cases keyEq : n.child? "key" with
    | none => rfl
    | some key =>
        rw [Option.bind_some, (sound.of_child? keyEq).miskeyed?_eq_none]
        rfl

end Node.Sound

namespace Node

variable {R : Node → Node → Prop} {nodes others : List Node}

/-- What is read off each of some nodes is read off those that they are related to, if that makes
no difference for any of them. -/
theorem map_eq_of_forall₂ {β : Type} {read : Node → β} (related : List.Forall₂ R nodes others)
    (same : ∀ c ∈ nodes, ∀ other, R c other → read other = read c) :
    others.map read = nodes.map read := by
  induction related with
  | nil => rfl
  | cons head _ ih =>
      rw [List.forall_mem_cons] at same
      rw [List.map_cons, List.map_cons, same.1 _ head, ih same.2]

theorem filterMap_eq_of_forall₂ {β : Type} {read : Node → Option β}
    (related : List.Forall₂ R nodes others)
    (same : ∀ c ∈ nodes, ∀ other, R c other → read other = read c) :
    others.filterMap read = nodes.filterMap read := by
  have mapped := congrArg (List.filterMap id) (map_eq_of_forall₂ related same)
  rwa [List.filterMap_map, List.filterMap_map] at mapped

end Node

end PropValidators.Ast
