import PropValidators.Ast.Reader
import Mathlib.Data.List.Nodup
import Mathlib.Data.List.Sublists

/-!
# Sound syntax trees

A tree that has been read keeps to the fields that the kinds of its nodes declare.  The
declared fields of a node stand first, in the order of the kind, and the required ones are
all there.  Every declared field holds what its type says, and an unknown field holds
nodes, lists and constants none of which would be read as something else.  A node for which
this is so at every depth is sound.
-/

namespace PropValidators.Ast

namespace Kind

theorem keys_nodup (kind : Kind) : (kind.fields.map FieldSpec.key).Nodup := by
  cases kind <;> decide

/-- The type is not among the declared fields. -/
theorem key_ne_type {kind : Kind} {spec : FieldSpec} (mem : spec ∈ kind.fields) :
    spec.key ≠ "type" := by
  have apart : ∀ spec ∈ kind.fields, spec.key ≠ "type" := by
    cases kind <;> decide
  exact apart spec mem

theorem specOfKey?_of_mem {kind : Kind} {spec : FieldSpec} (mem : spec ∈ kind.fields) :
    kind.specOfKey? spec.key = some spec := by
  have found : ∀ spec ∈ kind.fields, kind.specOfKey? spec.key = some spec := by
    cases kind <;> decide
  exact found spec mem

theorem mem_of_specOfKey? {kind : Kind} {key : String} {spec : FieldSpec}
    (found : kind.specOfKey? key = some spec) : spec ∈ kind.fields :=
  List.mem_of_find?_eq_some found

theorem key_of_specOfKey? {kind : Kind} {key : String} {spec : FieldSpec}
    (found : kind.specOfKey? key = some spec) : spec.key = key := by
  simpa using List.find?_some found

/-- The type of the field with a name; unknown fields have none. -/
def typeOfField? (kind : Kind) : FieldName → Option FieldType
  | .declared key => (kind.specOfKey? key).map FieldSpec.type
  | .unknown _ => none

end Kind

namespace FieldType

/-- A constant may stand in a field of a type, or in an unknown field. -/
def FitsData : Option FieldType → Json → Prop
  | some .optionalNode, data | some .optionalNodes, data => data = .null
  | some .text, data | some (.optionalText _), data | some .name, data => ∃ s, data = .string s
  | some .flag, data | some .optionalFlag, data => ∃ b, data = .bool b
  | some .number, data => ∃ n, data = .number n
  | some .node, _ | some .nodes, _ | some .elements, _ | some (.body _), _ => False
  | none, .array _ => False
  | none, .object members => typeOf? members = none
  | none, _ => True

/-- A node of a type may stand in a field. -/
def FitsNode : Option FieldType → String → Prop
  | none, _ | some .node, _ | some .optionalNode, _ | some .name, _ => True
  | some (.body kind), type => type = kind.tag
  | _, _ => False

/-- What the items of a list in a field may be, if the field may hold a list. -/
def item? : Option FieldType → Option (Option FieldType)
  | none => some none
  | some .nodes | some .optionalNodes => some (some .node)
  | some .elements => some (some .optionalNode)
  | _ => none

end FieldType

/-- The names of the fields of a node of a kind: first declared ones in the order of the
kind, with all those that are required, and then unknown ones that could not be read as
declared. -/
def Layout (kind : Kind) (names : List FieldName) : Prop :=
  ∃ (present : FieldSpec → Bool) (unknown : List String),
    names = (kind.fields.filter present).map (fun spec => .declared spec.key) ++
      unknown.map .unknown ∧
    (∀ spec ∈ kind.fields, spec.type.required = true → present spec = true) ∧
    unknown.Nodup ∧
    ∀ key ∈ unknown, key ≠ "type" ∧ specFor? kind (names.map FieldName.key) key = none

mutual

/-- A node keeps to the fields of its kind, and so do all nodes in it. -/
def Node.Sound : Node → Prop
  | ⟨type, fields⟩ =>
      Layout (Kind.ofType type) (fields.map Prod.fst) ∧ SoundFields (Kind.ofType type) fields
termination_by structural n => n

/-- A value may stand in a field of a type, or in an unknown field. -/
def Value.Fits (type : Option FieldType) : Value → Prop
  | .node n => FieldType.FitsNode type n.type ∧ n.Sound
  | .list items => ∃ item, FieldType.item? type = some item ∧ FitItems item items
  | .data data => FieldType.FitsData type data
termination_by structural value => value

/-- All items of a list may stand where something of a type must be. -/
def FitItems (type : Option FieldType) : List Value → Prop
  | [] => True
  | item :: items => item.Fits type ∧ FitItems type items
termination_by structural items => items

/-- All fields of a node of a kind hold what they may. -/
def SoundFields (kind : Kind) : List (FieldName × Value) → Prop
  | [] => True
  | (name, value) :: fields => value.Fits (kind.typeOfField? name) ∧ SoundFields kind fields
termination_by structural fields => fields

end

@[simp]
theorem fitItems_iff {type : Option FieldType} {items : List Value} :
    FitItems type items ↔ ∀ item ∈ items, item.Fits type := by
  induction items with
  | nil => simp [FitItems]
  | cons item items ih => rw [FitItems, ih, List.forall_mem_cons]

@[simp]
theorem soundFields_iff {kind : Kind} {fields : List (FieldName × Value)} :
    SoundFields kind fields ↔ ∀ field ∈ fields, field.2.Fits (kind.typeOfField? field.1) := by
  induction fields with
  | nil => simp [SoundFields]
  | cons field fields ih => rw [SoundFields, ih, List.forall_mem_cons]

theorem Node.sound_iff {n : Node} :
    n.Sound ↔ Layout n.kind (n.fields.map Prod.fst) ∧
      ∀ field ∈ n.fields, field.2.Fits (n.kind.typeOfField? field.1) := by
  obtain ⟨type, fields⟩ := n
  rw [Node.Sound, soundFields_iff, Node.kind]

/-- A node of a kind has the fields that the kind declares. -/
theorem Node.specOfKey?_of_kind {n : Node} {kind : Kind} (kindEq : n.kind = kind) {key : String}
    {spec : FieldSpec} (declared : kind.specOfKey? key = some spec) :
    n.kind.specOfKey? key = some spec := by
  rw [kindEq]
  exact declared

/-- Only the null value and nodes fit where a node may be left out. -/
theorem Value.eq_null_or_node_of_fits {value : Value} (fits : value.Fits (some .optionalNode)) :
    value = .null ∨ ∃ n : Node, value = .node n ∧ n.Sound := by
  cases value with
  | node n => exact .inr ⟨n, rfl, fits.2⟩
  | list items =>
      obtain ⟨item, itemEq, -⟩ := fits
      cases itemEq
  | data data => exact .inl (congrArg Value.data fits)

/-- Only nodes fit where a node must be. -/
theorem Value.exists_node_of_fits {value : Value} (fits : value.Fits (some .node)) :
    ∃ n : Node, value = .node n ∧ n.Sound := by
  cases value with
  | node n => exact ⟨n, rfl, fits.2⟩
  | list items =>
      obtain ⟨item, itemEq, -⟩ := fits
      cases itemEq
  | data data => exact fits.elim

/-- Further keys do not turn an unknown field into a declared one. -/
theorem specFor?_eq_none_of_subset {kind : Kind} {keys more : List String} {key : String}
    (subset : keys ⊆ more) (unknown : specFor? kind keys key = none) :
    specFor? kind more key = none := by
  rw [specFor?] at unknown ⊢
  cases found : kind.specOfKey? key with
  | some spec =>
      rw [found] at unknown
      cases unknown
  | none =>
      rw [found] at unknown
      simp only [Option.filter_eq_none_iff, Bool.not_eq_true, Bool.not_eq_false',
        List.contains_iff_mem] at unknown ⊢
      exact fun spec specEq => subset (unknown spec specEq)

/-- A field of its name is found in fields with different names. -/
theorem find?_of_mem {fields : List (FieldName × Value)} (nodup : (fields.map Prod.fst).Nodup)
    {name : FieldName} {value : Value} (mem : (name, value) ∈ fields) :
    fields.find? (fun field => field.1 == name) = some (name, value) := by
  induction fields with
  | nil => cases mem
  | cons field fields ih =>
      rw [List.map_cons, List.nodup_cons] at nodup
      rcases List.mem_cons.mp mem with rfl | rest
      · simp
      · have other : (field.1 == name) = false := by
          rw [beq_eq_false_iff_ne]
          intro same
          exact nodup.1 (List.mem_map.mpr ⟨_, rest, same.symm⟩)
        rw [List.find?_cons, other]
        exact ih nodup.2 rest

namespace Layout

variable {kind : Kind} {names : List FieldName}

theorem nodup (layout : Layout kind names) : names.Nodup := by
  obtain ⟨present, unknown, rfl, -, distinct, -⟩ := layout
  apply List.Nodup.append
  · have sublist := (List.filter_sublist (p := present) (l := kind.fields)).map FieldSpec.key
    have keysNodup := sublist.nodup kind.keys_nodup
    rw [← Function.comp_def FieldName.declared FieldSpec.key, ← List.map_map]
    exact keysNodup.map fun a b same => FieldName.declared.inj same
  · exact distinct.map fun a b same => FieldName.unknown.inj same
  · intro name declared unknownMem
    obtain ⟨spec, -, rfl⟩ := List.mem_map.mp declared
    obtain ⟨key, -, keyEq⟩ := List.mem_map.mp unknownMem
    cases keyEq

/-- A declared field is one that the kind declares. -/
theorem exists_spec_of_declared (layout : Layout kind names) {key : String}
    (mem : .declared key ∈ names) : ∃ spec ∈ kind.fields, spec.key = key := by
  obtain ⟨present, unknown, rfl, -⟩ := layout
  rcases List.mem_append.mp mem with declared | unknownMem
  · obtain ⟨spec, specMem, specEq⟩ := List.mem_map.mp declared
    exact ⟨spec, (List.mem_filter.mp specMem).1, FieldName.declared.inj specEq⟩
  · obtain ⟨other, -, otherEq⟩ := List.mem_map.mp unknownMem
    cases otherEq

theorem declared_type_notMem (layout : Layout kind names) : .declared "type" ∉ names := by
  intro mem
  obtain ⟨spec, specMem, specEq⟩ := layout.exists_spec_of_declared mem
  exact Kind.key_ne_type specMem specEq

theorem mem_of_required (layout : Layout kind names) {spec : FieldSpec}
    (mem : spec ∈ kind.fields) (required : spec.type.required = true) :
    .declared spec.key ∈ names := by
  obtain ⟨present, unknown, rfl, all, -⟩ := layout
  apply List.mem_append_left
  exact List.mem_map.mpr ⟨spec, List.mem_filter.mpr ⟨mem, all spec mem required⟩, rfl⟩

/-- No unknown field could be read as a declared one. -/
theorem specFor?_of_unknown (layout : Layout kind names) {key : String}
    (mem : .unknown key ∈ names) :
    key ≠ "type" ∧ specFor? kind (names.map FieldName.key) key = none := by
  obtain ⟨present, unknown, namesEq, -, -, apart⟩ := layout
  apply apart
  rw [namesEq] at mem
  rcases List.mem_append.mp mem with declared | unknownMem
  · obtain ⟨spec, -, specEq⟩ := List.mem_map.mp declared
    cases specEq
  · obtain ⟨other, otherMem, otherEq⟩ := List.mem_map.mp unknownMem
    cases otherEq
    exact otherMem

theorem specOfKey?_of_unknown (layout : Layout kind names) {key : String}
    (mem : .unknown key ∈ names) : kind.specOfKey? key = none := by
  have specNone := (layout.specFor?_of_unknown mem).2
  rw [specFor?] at specNone
  cases found : kind.specOfKey? key with
  | none => rfl
  | some spec =>
      rw [found] at specNone
      cases specNone

/-- No two fields have the same key. -/
theorem keys_nodup (layout : Layout kind names) : (names.map FieldName.key).Nodup := by
  rw [List.nodup_map_iff_inj_on layout.nodup]
  intro first firstMem second secondMem same
  cases first with
  | declared key =>
      cases second with
      | declared other => exact congrArg _ same
      | unknown other =>
          obtain ⟨spec, specMem, specEq⟩ := layout.exists_spec_of_declared firstMem
          have found := Kind.specOfKey?_of_mem specMem
          rw [specEq, show key = other from same, layout.specOfKey?_of_unknown secondMem] at found
          cases found
  | unknown key =>
      cases second with
      | declared other =>
          obtain ⟨spec, specMem, specEq⟩ := layout.exists_spec_of_declared secondMem
          have found := Kind.specOfKey?_of_mem specMem
          rw [specEq, ← show key = other from same, layout.specOfKey?_of_unknown firstMem] at found
          cases found
      | unknown other => exact congrArg _ same

theorem type_notMem_keys (layout : Layout kind names) : "type" ∉ names.map FieldName.key := by
  intro mem
  obtain ⟨name, nameMem, nameEq⟩ := List.mem_map.mp mem
  cases name with
  | declared key =>
      cases nameEq
      exact layout.declared_type_notMem nameMem
  | unknown key => exact (layout.specFor?_of_unknown nameMem).1 nameEq

end Layout

end PropValidators.Ast
