import PropValidators.Proofs.Divisions
import PropValidators.Proofs.Shapes.Passing

/-!
# How deep shapes are, and what values are in them

A shape is divided into the shapes of its fields, its elements and its alternatives.  It is within
bounds if no more than a number of objects are nested inside one another in it, and if all values
in it are among those that are allowed.

Whatever is put together from shapes within bounds is within bounds itself, except that an object
is one level deeper than its fields.
-/

namespace PropValidators

namespace Shape

/-- The shapes that are directly in a shape. -/
def parts : Shape → List Shape
  | .object fields => fields.map Field.shape
  | .array element => [element]
  | .union members => members
  | .primitive _ | .oneOf _ | .unknown => []

theorem sizeOf_lt_of_mem_parts {shape part : Shape} (mem : part ∈ shape.parts) :
    sizeOf part < sizeOf shape := by
  cases shape with
  | object fields =>
      obtain ⟨⟨name, inner, optional, hasDefault⟩, fieldMem, rfl⟩ := List.mem_map.mp mem
      have := List.sizeOf_lt_of_mem fieldMem
      simp only [Field.mk.sizeOf_spec, Shape.object.sizeOf_spec] at this ⊢
      omega
  | array element =>
      obtain rfl := List.mem_singleton.mp mem
      simp
  | union members =>
      have := List.sizeOf_lt_of_mem (show part ∈ members from mem)
      simp only [Shape.union.sizeOf_spec]
      omega
  | _ => cases mem

/-- The division of shapes into the shapes directly in them. -/
def division : Division Shape :=
  ⟨parts, sizeOf_lt_of_mem_parts⟩

/-- The level that a shape adds to its parts: one for an object. -/
def levels : Shape → Nat
  | .object _ => 1
  | _ => 0

/-- How many objects are nested inside one another in a shape, at most. -/
def nesting (shape : Shape) : Nat :=
  division.height levels shape

/-- All values in a shape are among those that are allowed. -/
def Values (allowed : Literal → Prop) (shape : Shape) : Prop :=
  division.Everywhere (fun inner => ∀ value ∈ inner.values, allowed value) shape

/-- At most so many objects are nested in a shape, and all values in it are allowed. -/
structure Within (allowed : Literal → Prop) (bound : Nat) (shape : Shape) : Prop where
  nesting_le : shape.nesting ≤ bound
  values : shape.Values allowed

variable {allowed : Literal → Prop} {bound : Nat} {shape : Shape} {shapes : List Shape}
  {fields : List Field}

theorem Within.mono {larger : Nat} (within : shape.Within allowed bound) (le : bound ≤ larger) :
    shape.Within allowed larger :=
  ⟨within.nesting_le.trans le, within.values⟩

/-- A shape that adds no level is within bounds if its own values are allowed and its parts are
within the same bounds. -/
theorem within_iff (flat : shape.levels = 0) :
    shape.Within allowed bound ↔
      (∀ value ∈ shape.values, allowed value) ∧
        ∀ part ∈ shape.parts, part.Within allowed bound := by
  constructor
  · rintro ⟨nesting, values⟩
    obtain ⟨own, inner⟩ := Division.everywhere_iff.mp values
    exact ⟨own, fun part mem => ⟨(Division.height_le_of_mem mem).trans nesting, inner part mem⟩⟩
  · rintro ⟨own, inner⟩
    refine ⟨Division.height_le (fun part mem => ?_) (flat.symm ▸ Nat.zero_le bound),
      .intro own fun part mem => (inner part mem).values⟩
    rw [flat, Nat.zero_add]
    exact (inner part mem).nesting_le

@[simp]
theorem within_unknown : unknown.Within allowed bound :=
  (within_iff rfl).mpr ⟨List.forall_mem_nil _, List.forall_mem_nil _⟩

@[simp]
theorem within_primitive (kind : PrimitiveKind) : (primitive kind).Within allowed bound :=
  (within_iff rfl).mpr ⟨List.forall_mem_nil _, List.forall_mem_nil _⟩

@[simp]
theorem within_oneOf {values : List Literal} :
    (oneOf values).Within allowed bound ↔ ∀ value ∈ values, allowed value :=
  (within_iff rfl).trans ⟨And.left, fun own => ⟨own, List.forall_mem_nil _⟩⟩

@[simp]
theorem within_array {element : Shape} :
    (array element).Within allowed bound ↔ element.Within allowed bound :=
  (within_iff rfl).trans ⟨fun within => within.2 element (List.mem_singleton_self element),
    fun within => ⟨List.forall_mem_nil _, List.forall_mem_singleton.mpr within⟩⟩

@[simp]
theorem within_union :
    (union shapes).Within allowed bound ↔ ∀ shape ∈ shapes, shape.Within allowed bound :=
  (within_iff rfl).trans ⟨And.right, fun inner => ⟨List.forall_mem_nil _, inner⟩⟩

/-- An object takes one level. -/
@[simp]
theorem within_object :
    (object fields).Within allowed bound ↔
      ∃ inner, bound = inner + 1 ∧ ∀ field ∈ fields, field.shape.Within allowed inner := by
  constructor
  · rintro ⟨nesting, values⟩
    have own : 1 ≤ bound := by
      rw [Shape.nesting, Division.height_eq] at nesting
      exact (Nat.le_add_right 1 _).trans nesting
    refine ⟨bound - 1, by omega, fun field mem => ⟨?_, ?_⟩⟩
    · have : (object fields).levels + division.height levels field.shape ≤
          division.height levels (object fields) :=
        Division.add_height_le (List.mem_map_of_mem mem)
      change 1 + field.shape.nesting ≤ (object fields).nesting at this
      omega
    · exact (Division.everywhere_iff.mp values).2 _ (List.mem_map_of_mem mem)
  · rintro ⟨inner, rfl, every⟩
    refine ⟨Division.height_le (fun part mem => ?_) (Nat.le_add_left 1 inner),
      .intro (List.forall_mem_nil _) fun part mem => ?_⟩
    · obtain ⟨field, fieldMem, rfl⟩ := List.mem_map.mp mem
      have : field.shape.nesting ≤ inner := (every field fieldMem).nesting_le
      change 1 + field.shape.nesting ≤ inner + 1
      omega
    · obtain ⟨field, fieldMem, rfl⟩ := List.mem_map.mp mem
      exact (every field fieldMem).values

/-- A shape whose values are all allowed is within its own nesting. -/
theorem Values.within (values : shape.Values allowed) : shape.Within allowed shape.nesting :=
  ⟨le_rfl, values⟩

theorem Within.fields_of_object (within : (object fields).Within allowed bound) :
    ∀ field ∈ fields, field.shape.Within allowed bound := by
  obtain ⟨inner, rfl, every⟩ := within_object.mp within
  exact fun field mem => (every field mem).mono (Nat.le_succ inner)

/-- Fields that have the shapes of fields of an object make an object within the same bounds. -/
theorem Within.object_of_shapes {others : List Field}
    (within : (object fields).Within allowed bound)
    (shapes : ∀ other ∈ others, ∃ field ∈ fields, other.shape = field.shape) :
    (object others).Within allowed bound := by
  obtain ⟨inner, rfl, every⟩ := within_object.mp within
  refine within_object.mpr ⟨inner, rfl, fun other mem => ?_⟩
  obtain ⟨field, fieldMem, shapeEq⟩ := shapes other mem
  exact shapeEq ▸ every field fieldMem

theorem within_of_mem_mergeFields {groups : List (List Field)}
    (every : ∀ group ∈ groups, ∀ field ∈ group, field.shape.Within allowed bound) :
    ∀ field ∈ mergeFields groups, field.shape.Within allowed bound := by
  intro field mem
  obtain ⟨group, groupMem, fieldMem⟩ := mem_of_mem_mergeFields mem
  exact every group groupMem field fieldMem

theorem within_intersect (every : ∀ shape ∈ shapes, shape.Within allowed bound) :
    (intersect shapes).Within allowed bound := by
  have groupWithin : ∀ group ∈ shapes.filterMap fields?,
      (object group).Within allowed bound := by
    intro group mem
    obtain ⟨shape, shapeMem, fieldsEq⟩ := List.mem_filterMap.mp mem
    cases shape with
    | object fields =>
        cases fieldsEq
        exact every _ shapeMem
    | _ => cases fieldsEq
  rw [intersect]
  split
  · exact within_unknown
  · rename_i some
    obtain ⟨first, firstMem⟩ := List.exists_mem_of_ne_nil _ some
    obtain ⟨inner, rfl, -⟩ := within_object.mp (groupWithin first firstMem)
    refine within_object.mpr ⟨inner, rfl, within_of_mem_mergeFields fun group mem => ?_⟩
    obtain ⟨other, otherEq, fieldsWithin⟩ := within_object.mp (groupWithin group mem)
    obtain rfl := Nat.succ.inj otherEq
    exact fieldsWithin

theorem Within.markOptional (within : shape.Within allowed bound) (optional : Bool) :
    (shape.markOptional optional).Within allowed bound := by
  cases shape with
  | object fields =>
      refine within.object_of_shapes fun other mem => ?_
      obtain ⟨field, fieldMem, rfl⟩ := List.mem_map.mp mem
      exact ⟨field, fieldMem, rfl⟩
  | _ => exact within

theorem Within.select (within : shape.Within allowed bound) (keep : Bool) (keys : Shape) :
    (select keep shape keys).Within allowed bound := by
  rw [Shape.select.eq_def]
  split
  · exact within.object_of_shapes fun other mem => ⟨other, (List.mem_filter.mp mem).1, rfl⟩
  · exact within_unknown

theorem within_keys (texts : ∀ text, allowed (.text text)) (shape : Shape) :
    shape.keys.Within allowed bound := by
  cases shape with
  | object fields =>
      refine within_oneOf.mpr fun value mem => ?_
      obtain ⟨field, -, rfl⟩ := List.mem_map.mp mem
      exact texts field.name
  | _ => exact within_unknown

theorem Within.values_of_mem (within : shape.Within allowed bound) :
    ∀ value ∈ shape.values, allowed value := by
  cases shape with
  | oneOf values => exact within_oneOf.mp within
  | _ => exact List.forall_mem_nil _

theorem Within.alternatives (within : shape.Within allowed bound) :
    ∀ member ∈ shape.alternatives, member.Within allowed bound := by
  cases shape with
  | union members => exact within_union.mp within
  | _ => exact List.forall_mem_singleton.mpr within

theorem within_dedupe {values : List Literal} (every : ∀ value ∈ values, allowed value) :
    (oneOf (dedupe Literal.same values)).Within allowed bound :=
  within_oneOf.mpr fun value mem => every value ((dedupe_sublist _ _).subset mem)

theorem within_combine (every : ∀ shape ∈ shapes, shape.Within allowed bound) :
    (combine shapes).Within allowed bound := by
  let members := shapes.flatMap Shape.alternatives
  have membersWithin : ∀ member ∈ members, member.Within allowed bound := by
    intro member mem
    obtain ⟨shape, shapeMem, mem⟩ := List.mem_flatMap.mp mem
    exact (every shape shapeMem).alternatives member mem
  have literalsWithin :
      (oneOf (dedupe Literal.same (members.flatMap Shape.values))).Within allowed bound := by
    apply within_dedupe
    intro value mem
    obtain ⟨member, memberMem, mem⟩ := List.mem_flatMap.mp mem
    exact (membersWithin member memberMem).values_of_mem value mem
  have keptWithin : ∀ member ∈ dedupe equals (groupLiterals
      (.oneOf (dedupe Literal.same (members.flatMap Shape.values))) members),
        member.Within allowed bound := by
    intro member mem
    rcases mem_groupLiterals_iff.mp ((dedupe_sublist _ _).subset mem) with ⟨rfl, -⟩ | ⟨mem, -⟩
    · exact literalsWithin
    · exact membersWithin member mem
  rw [combine]
  split
  · rename_i single singleEq
    exact keptWithin single (singleEq ▸ List.mem_singleton_self single)
  · exact within_union.mpr keptWithin

theorem within_unionShape (every : ∀ shape ∈ shapes, shape.Within allowed bound) :
    (unionShape shapes).Within allowed bound := by
  rw [unionShape]
  split
  · exact within_unknown
  · exact within_combine every

section Passing

variable (mapped : ∀ change value, allowed value → allowed (value.mapOrigin change))

include mapped

theorem Within.mapOrigins {change : List Nat → Origin → Origin}
    (within : shape.Within allowed bound) (place : List Nat) :
    (shape.mapOrigins change place).Within allowed bound := by
  induction sizeEq : sizeOf shape using Nat.strong_induction_on generalizing shape bound place with
  | _ size ih =>
      subst sizeEq
      have part : ∀ {inner}, inner ∈ shape.parts → ∀ {bound}, inner.Within allowed bound →
          ∀ place, (inner.mapOrigins change place).Within allowed bound :=
        fun mem _ within place => ih _ (sizeOf_lt_of_mem_parts mem) within place rfl
      cases shape with
      | object fields =>
          obtain ⟨inner, rfl, every⟩ := within_object.mp within
          rw [Shape.mapOrigins, mapOriginsOfFields_eq]
          refine within_object.mpr ⟨inner, rfl, fun field mem => ?_⟩
          obtain ⟨i, lt, rfl⟩ := List.mem_mapIdx.mp mem
          have fieldMem := List.getElem_mem lt
          rw [Field.shape_mapOrigins]
          exact part (List.mem_map_of_mem fieldMem) (every _ fieldMem) _
      | array element =>
          exact within_array.mpr (part (List.mem_singleton_self _) (within_array.mp within) _)
      | union members =>
          rw [Shape.mapOrigins, mapOriginsOfShapes_eq]
          refine within_union.mpr fun member mem => ?_
          obtain ⟨i, lt, rfl⟩ := List.mem_mapIdx.mp mem
          have memberMem := List.getElem_mem lt
          exact part memberMem (within_union.mp within _ memberMem) _
      | oneOf values =>
          rw [Shape.mapOrigins, mapOriginsOfLiterals_eq]
          refine within_oneOf.mpr fun value mem => ?_
          obtain ⟨i, lt, rfl⟩ := List.mem_mapIdx.mp mem
          exact mapped _ _ (within_oneOf.mp within _ (List.getElem_mem lt))
      | primitive kind => exact within_primitive kind
      | unknown => exact within_unknown

theorem Within.passed (within : shape.Within allowed bound) (index : Nat) :
    (shape.passed index).Within allowed bound :=
  within.mapOrigins mapped [index]

theorem Within.returned (within : shape.Within allowed bound) :
    shape.returned.Within allowed bound :=
  within.mapOrigins mapped []

end Passing

end Shape

end PropValidators
