import PropValidators.Proofs.KeyedLists
import PropValidators.Proofs.Patching.Marks

/-!
# Nodes that patching makes

The nodes that patching puts into a tree are fresh: they are sound, and there are neither
classes nor declarations among them.  So a tree stays sound when they are put into it, and
its classes and declarations stay the same.
-/

namespace PropValidators

open Ast

/-- A node is sound, and has neither classes nor declarations in it. -/
def Fresh (n : Node) : Prop :=
  n.Sound ∧ marks n = []

/-- A value fits into a field of a type, and has neither classes nor declarations in it. -/
def FreshIn (type : FieldType) (value : Value) : Prop :=
  value.Fits (some type) ∧ marksOfValue value = []

/-- The keys and the types of some fields are those of a node type: they come in the order of
the kind, and none that is required is left out.  The node type is neither that of a class nor
that of a declaration. -/
def Filled (type : String) (parts : List (String × FieldType)) : Prop :=
  ((Kind.ofType type).fields.filter fun spec => (parts.map Prod.fst).contains spec.key).map
      (fun spec => (spec.key, spec.type)) = parts ∧
    (∀ spec ∈ (Kind.ofType type).fields, spec.type.required = true →
      (parts.map Prod.fst).contains spec.key = true) ∧
    isMarked ⟨type, []⟩ = false

instance (type : String) (parts : List (String × FieldType)) : Decidable (Filled type parts) :=
  inferInstanceAs (Decidable (_ ∧ _ ∧ _))

theorem Fresh.freshIn {n : Node} (fresh : Fresh n) : FreshIn .node (.node n) :=
  ⟨⟨trivial, fresh.1⟩, fresh.2⟩

theorem Fresh.freshIn_optional {n : Node} (fresh : Fresh n) : FreshIn .optionalNode (.node n) :=
  ⟨⟨trivial, fresh.1⟩, fresh.2⟩

theorem freshIn_optionalNull : FreshIn .optionalNode .null :=
  ⟨rfl, rfl⟩

theorem freshIn_text (s : String) : FreshIn .text (.text s) :=
  ⟨⟨s, rfl⟩, rfl⟩

theorem freshIn_number (x : Number) : FreshIn .number (.data (.number x)) :=
  ⟨⟨x, rfl⟩, rfl⟩

theorem freshIn_flag (b : Bool) : FreshIn .flag (.flag b) :=
  ⟨⟨b, rfl⟩, rfl⟩

theorem freshIn_optionalFlag (b : Bool) : FreshIn .optionalFlag (.flag b) :=
  ⟨⟨b, rfl⟩, rfl⟩

theorem marksOfItems_map_node {ns : List Node} (fresh : ∀ n ∈ ns, Fresh n) :
    marksOfItems (ns.map .node) = [] := by
  induction ns with
  | nil => rfl
  | cons n ns ih =>
      rw [List.forall_mem_cons] at fresh
      rw [List.map_cons, marksOfItems_cons, marksOfItem_node, fresh.1.2, ih fresh.2,
        List.nil_append]

theorem fitItems_map_node {ns : List Node} (sound : ∀ n ∈ ns, n.Sound) {type : Option FieldType}
    (nodes : ∀ name, FieldType.FitsNode type name) : FitItems type (ns.map .node) := by
  rw [fitItems_iff]
  intro item mem
  obtain ⟨n, nMem, rfl⟩ := List.mem_map.mp mem
  exact ⟨nodes n.type, sound n nMem⟩

theorem freshIn_nodes {ns : List Node} (fresh : ∀ n ∈ ns, Fresh n) :
    FreshIn .nodes (.nodes ns) :=
  ⟨⟨_, rfl, fitItems_map_node (fun n mem => (fresh n mem).1) fun _ => trivial⟩,
    marksOfItems_map_node fresh⟩

theorem freshIn_elements {ns : List Node} (fresh : ∀ n ∈ ns, Fresh n) :
    FreshIn .elements (.nodes ns) :=
  ⟨⟨_, rfl, fitItems_map_node (fun n mem => (fresh n mem).1) fun _ => trivial⟩,
    marksOfItems_map_node fresh⟩

private theorem layout_of_filled {type : String} {parts : List (String × FieldType)}
    (filled : Filled type parts) :
    Layout (Kind.ofType type) (parts.map fun part => .declared part.1) := by
  obtain ⟨order, required, -⟩ := filled
  refine ⟨fun spec => (parts.map Prod.fst).contains spec.key, [], ?_, required, List.nodup_nil,
    by simp⟩
  rw [List.map_nil, List.append_nil]
  conv_lhs => rw [← order]
  rw [List.map_map]
  rfl

private theorem typeOfField?_of_filled {type : String} {parts : List (String × FieldType)}
    (filled : Filled type parts) {part : String × FieldType} (mem : part ∈ parts) :
    (Kind.ofType type).typeOfField? (.declared part.1) = some part.2 := by
  rw [← filled.1] at mem
  obtain ⟨spec, specMem, rfl⟩ := List.mem_map.mp mem
  rw [Kind.typeOfField?, Kind.specOfKey?_of_mem (List.mem_filter.mp specMem).1]
  rfl

/-- Fields have the keys of some parts, and hold what fits there. -/
abbrev FittingFields (parts : List (String × FieldType)) (fields : List (String × Value)) : Prop :=
  List.Forall₂ (fun part field => part.1 = field.1 ∧ field.2.Fits (some part.2)) parts fields

namespace FittingFields

variable {parts : List (String × FieldType)} {fields : List (String × Value)}

theorem keys_eq (fits : FittingFields parts fields) :
    fields.map Prod.fst = parts.map Prod.fst := by
  induction fits with
  | nil => rfl
  | cons head _ ih => rw [List.map_cons, List.map_cons, ih, head.1]

private theorem exists_part (fits : FittingFields parts fields) {field : String × Value}
    (mem : field ∈ fields) :
    ∃ part ∈ parts, part.1 = field.1 ∧ field.2.Fits (some part.2) := by
  induction fits with
  | nil => cases mem
  | cons head _ ih =>
      rcases List.mem_cons.mp mem with rfl | rest
      · exact ⟨_, List.mem_cons_self, head⟩
      · obtain ⟨part, partMem, fitsPart⟩ := ih rest
        exact ⟨part, List.mem_cons_of_mem _ partMem, fitsPart⟩

end FittingFields

/-- A node with all fields of its type filled is sound. -/
theorem sound_ofDeclared {type : String} (parts : List (String × FieldType))
    {fields : List (String × Value)} (filled : Filled type parts)
    (fits : FittingFields parts fields) : (Node.ofDeclared type fields).Sound := by
  rw [Node.sound_iff]
  constructor
  · have names : (Node.ofDeclared type fields).fields.map Prod.fst =
        parts.map fun part => .declared part.1 := by
      rw [Node.ofDeclared, List.map_map]
      change fields.map (FieldName.declared ∘ Prod.fst) =
        parts.map (FieldName.declared ∘ Prod.fst)
      rw [← List.map_map, ← List.map_map, fits.keys_eq]
    rw [names]
    exact layout_of_filled filled
  · intro field mem
    obtain ⟨given, givenMem, rfl⟩ := List.mem_map.mp mem
    obtain ⟨part, partMem, keyEq, fitsPart⟩ := fits.exists_part givenMem
    have typeEq := typeOfField?_of_filled filled partMem
    rw [keyEq] at typeEq
    exact typeEq ▸ fitsPart

/-- Fields have the keys of some parts, and hold what is fresh there. -/
abbrev FreshFields (parts : List (String × FieldType)) (fields : List (String × Value)) : Prop :=
  List.Forall₂ (fun part field => part.1 = field.1 ∧ FreshIn part.2 field.2) parts fields

theorem FreshFields.marksOfFields_eq_nil {parts : List (String × FieldType)}
    {fields : List (String × Value)} (fresh : FreshFields parts fields) :
    marksOfFields (fields.map fun field => (.declared field.1, field.2)) = [] := by
  induction fresh with
  | nil => rfl
  | cons head _ ih =>
      rw [List.map_cons, marksOfFields_cons, head.2.2, ih, List.nil_append]

/-- A node with all fields of its type filled with what is fresh is fresh. -/
theorem fresh_ofDeclared {type : String} (parts : List (String × FieldType))
    {fields : List (String × Value)} (filled : Filled type parts)
    (fresh : FreshFields parts fields) : Fresh (.ofDeclared type fields) := by
  have unmarked : isMarked (.ofDeclared type fields) = false := filled.2.2
  constructor
  · exact sound_ofDeclared parts filled (fresh.imp fun _ _ part => ⟨part.1, part.2.1⟩)
  · rw [marks_eq, unmarked]
    exact fresh.marksOfFields_eq_nil

theorem fresh_identifier (name : String) : Fresh (identifier name) :=
  fresh_ofDeclared [("name", .text)] (by decide) (.cons ⟨rfl, freshIn_text name⟩ .nil)

theorem fresh_stringLiteral (s : String) : Fresh (stringLiteral s) :=
  fresh_ofDeclared [("value", .text)] (by decide) (.cons ⟨rfl, freshIn_text s⟩ .nil)

theorem fresh_literal (value : Literal) : Fresh (literal value) := by
  cases value with
  | text s => exact fresh_stringLiteral s
  | number x =>
      exact fresh_ofDeclared [("value", .number)] (by decide)
        (.cons ⟨rfl, freshIn_number x⟩ .nil)
  | truth b =>
      exact fresh_ofDeclared [("value", .flag)] (by decide) (.cons ⟨rfl, freshIn_flag b⟩ .nil)

theorem fresh_member {object : Node} (fresh : Fresh object) (name : String) :
    Fresh (member object name) :=
  fresh_ofDeclared [("object", .node), ("property", .node), ("computed", .optionalFlag)]
    (by decide)
    (.cons ⟨rfl, fresh.freshIn⟩ (.cons ⟨rfl, (fresh_identifier name).freshIn⟩
      (.cons ⟨rfl, freshIn_optionalFlag false⟩ .nil)))

theorem fresh_call {callee : Node} (fresh : Fresh callee) {arguments : List Node}
    (freshArguments : ∀ argument ∈ arguments, Fresh argument) : Fresh (call callee arguments) :=
  fresh_ofDeclared [("callee", .node), ("arguments", .nodes)] (by decide)
    (.cons ⟨rfl, fresh.freshIn⟩ (.cons ⟨rfl, freshIn_nodes freshArguments⟩ .nil))

theorem fresh_array {elements : List Node} (fresh : ∀ element ∈ elements, Fresh element) :
    Fresh (array elements) :=
  fresh_ofDeclared [("elements", .elements)] (by decide)
    (.cons ⟨rfl, freshIn_elements fresh⟩ .nil)

theorem fresh_propertyKey (name : String) : Fresh (propertyKey name) := by
  rw [propertyKey]
  split
  · exact fresh_identifier name
  · exact fresh_stringLiteral name

theorem fresh_property (name : String) {value : Node} (fresh : Fresh value) :
    Fresh (property name value) :=
  fresh_ofDeclared
    [("key", .node), ("value", .node), ("computed", .optionalFlag), ("shorthand", .optionalFlag)]
    (by decide)
    (.cons ⟨rfl, (fresh_propertyKey name).freshIn⟩ (.cons ⟨rfl, fresh.freshIn⟩
      (.cons ⟨rfl, freshIn_optionalFlag false⟩ (.cons ⟨rfl, freshIn_optionalFlag false⟩ .nil))))

theorem fresh_objectOf {properties : List Node} (fresh : ∀ p ∈ properties, Fresh p) :
    Fresh (objectOf properties) :=
  fresh_ofDeclared [("properties", .nodes)] (by decide) (.cons ⟨rfl, freshIn_nodes fresh⟩ .nil)

theorem fresh_object {entries : List (String × Node)} (fresh : ∀ entry ∈ entries, Fresh entry.2) :
    Fresh (object entries) := by
  apply fresh_objectOf
  intro p mem
  obtain ⟨entry, entryMem, rfl⟩ := List.mem_map.mp mem
  exact fresh_property entry.1 (fresh entry entryMem)

theorem fresh_staticProperty (name : String) {value : Node} (fresh : Fresh value) :
    Fresh (staticProperty name value) :=
  fresh_ofDeclared
    [("key", .node), ("value", .optionalNode), ("static", .optionalFlag),
      ("computed", .optionalFlag)]
    (by decide)
    (.cons ⟨rfl, (fresh_identifier name).freshIn⟩ (.cons ⟨rfl, fresh.freshIn_optional⟩
      (.cons ⟨rfl, freshIn_optionalFlag true⟩ (.cons ⟨rfl, freshIn_optionalFlag false⟩ .nil))))

theorem fresh_checkCall (library check : String) {argument : Node} (fresh : Fresh argument) :
    Fresh (checkCall library check argument) :=
  fresh_call (fresh_member (fresh_identifier library) check)
    (List.forall_mem_singleton.mpr fresh)

mutual

theorem Validator.fresh_toNode (library : String) :
    (validator : Validator) → Fresh (validator.toNode library)
  | .primitive kind => fresh_member (fresh_identifier library) kind.checkName
  | .shape entries =>
      fresh_checkCall library "shape"
        (fresh_object (Assoc.forall_mem_ofPairs (Entry.fresh_toPairs library entries)))
  | .arrayOf element => fresh_checkCall library "arrayOf" (element.fresh_toNode library)
  | .oneOf values => by
      apply fresh_checkCall library "oneOf" (fresh_array _)
      intro element mem
      obtain ⟨value, -, rfl⟩ := List.mem_map.mp mem
      exact fresh_literal value
  | .oneOfType members =>
      fresh_checkCall library "oneOfType" (fresh_array (Validator.fresh_toNodes library members))
  | .required inner => fresh_member (inner.fresh_toNode library) "isRequired"
  | .any => fresh_member (fresh_identifier library) "any"
termination_by structural validator => validator

theorem Validator.fresh_toNodes (library : String) :
    (validators : List Validator) → ∀ n ∈ Validator.toNodes library validators, Fresh n
  | [] => by simp [Validator.toNodes]
  | validator :: validators =>
      List.forall_mem_cons.mpr
        ⟨validator.fresh_toNode library, Validator.fresh_toNodes library validators⟩
termination_by structural validators => validators

theorem Entry.fresh_toPair (library : String) : (entry : Entry) → Fresh (entry.toPair library).2
  | ⟨_, validator, _⟩ => validator.fresh_toNode library
termination_by structural entry => entry

theorem Entry.fresh_toPairs (library : String) :
    (entries : List Entry) → ∀ pair ∈ Entry.toPairs library entries, Fresh pair.2
  | [] => by simp [Entry.toPairs]
  | entry :: entries =>
      List.forall_mem_cons.mpr ⟨entry.fresh_toPair library, Entry.fresh_toPairs library entries⟩
termination_by structural entries => entries

end

theorem Entry.fresh_toProperty (library : String) (entry : Entry) :
    Fresh (entry.toProperty library) :=
  fresh_property entry.prop (entry.validator.fresh_toNode library)

end PropValidators
