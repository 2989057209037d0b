import Mathlib.Data.List.Forall2
import PropValidators.Proofs.Shapes.Passing

/-!
# What more declarations leave of a shape

Where more can be seen, what was unknown may turn out to be anything, and with it a union in which
it was an alternative.  What is left of a shape then are the names of an object's fields, the
values of a set, and that a shape is solid: that it has an alternative that is neither an object
nor unknown, so that it cannot turn out to be an object.

All operations on shapes keep what is left, with two exceptions.  An intersection leaves out what
is no object, so it keeps the names of its fields only if each operand is an object or solid.  And
a union may be one object because several alternatives are equal; with more to be seen, these may
differ.
-/

namespace PropValidators

/-- Groups of fields with the same names are merged to fields with the same names. -/
theorem names_mergeFields_congr {groups others : List (List Field)}
    (names : List.Forall₂ (fun fs gs => fs.map Field.name = gs.map Field.name) groups others) :
    (mergeFields groups).map Field.name = (mergeFields others).map Field.name := by
  have flatten : groups.flatten.map Field.name = others.flatten.map Field.name := by
    induction names with
    | nil => rfl
    | cons head _ ih =>
        rw [List.flatten_cons, List.flatten_cons, List.map_append, List.map_append, head, ih]
  rw [mergeFields_names, mergeFields_names, flatten]

@[simp]
theorem names_map_returned (fields : List Field) :
    (fields.map Field.returned).map Field.name = fields.map Field.name := by
  rw [List.map_map]
  exact List.map_congr_left fun field _ => Field.name_mapOrigins _ field

namespace Shape

/-- A shape is an alternative that can be told from an object and that is not unknown. -/
def isPlain : Shape → Bool
  | .primitive _ | .array _ | .oneOf _ => true
  | .object _ | .union _ | .unknown => false

/-- A shape cannot turn out to be an object, because one of its alternatives is none. -/
def isSolid (shape : Shape) : Bool :=
  shape.alternatives.any isPlain

/-- It is known of a shape whether it is an object. -/
def IsTold (shape : Shape) : Prop :=
  (∃ fields, shape = .object fields) ∨ shape.isSolid = true

/-- What is left of a shape where more can be seen is there in another. -/
structure KeptIn (shape other : Shape) : Prop where
  fields : ∀ fs, shape = .object fs →
    ∃ gs, other = .object gs ∧ gs.map Field.name = fs.map Field.name
  values : ∀ vs, shape = .oneOf vs → other = .oneOf vs
  solid : shape.isSolid = true → other.isSolid = true

variable {shape other : Shape} {shapes others : List Shape}

theorem keptIn_refl (shape : Shape) : shape.KeptIn shape where
  fields fs eq := ⟨fs, eq, rfl⟩
  values _ eq := eq
  solid isSolid := isSolid

/-- Whatever is unknown may turn out to be anything. -/
theorem keptIn_unknown (other : Shape) : unknown.KeptIn other where
  fields _ eq := by cases eq
  values _ eq := by cases eq
  solid isSolid := by cases isSolid

theorem keptIn_object {fs gs : List Field} (names : fs.map Field.name = gs.map Field.name) :
    (object fs).KeptIn (object gs) where
  fields _ eq := ⟨gs, rfl, by cases eq; exact names.symm⟩
  values _ eq := by cases eq
  solid isSolid := by cases isSolid

theorem keptIn_array (element another : Shape) : (array element).KeptIn (array another) where
  fields _ eq := by cases eq
  values _ eq := by cases eq
  solid _ := rfl

theorem KeptIn.exists_fields {fs : List Field} (kept : (object fs).KeptIn other) :
    ∃ gs, other = .object gs ∧ gs.map Field.name = fs.map Field.name :=
  kept.fields fs rfl

@[simp]
theorem isPlain_mapOrigins (change : List Nat → Origin → Origin) (place : List Nat)
    (shape : Shape) : (shape.mapOrigins change place).isPlain = shape.isPlain := by
  cases shape <;> rw [mapOrigins] <;> rfl

@[simp]
theorem isSolid_mapOrigins (change : List Nat → Origin → Origin) (place : List Nat)
    (shape : Shape) : (shape.mapOrigins change place).isSolid = shape.isSolid := by
  cases shape with
  | union members =>
      have any : ∀ index, (mapOriginsOfShapes change place index members).any isPlain =
          members.any isPlain := by
        induction members with
        | nil => intro index; rfl
        | cons member members ih =>
            intro index
            rw [mapOriginsOfShapes, List.any_cons, List.any_cons, isPlain_mapOrigins, ih]
      rw [mapOrigins]
      exact any 0
  | _ => simp [mapOrigins, isSolid, alternatives, isPlain]

@[simp]
theorem names_mapOriginsOfFields (change : List Nat → Origin → Origin) (place : List Nat)
    (index : Nat) (fields : List Field) :
    (mapOriginsOfFields change place index fields).map Field.name = fields.map Field.name := by
  induction fields generalizing index with
  | nil => rfl
  | cons field fields ih =>
      rw [mapOriginsOfFields, List.map_cons, List.map_cons, ih, Field.name_mapOrigins]

/-- What is left is kept while it is passed to parameters, and on leaving their scope. -/
theorem KeptIn.mapOrigins (kept : shape.KeptIn other) (change : List Nat → Origin → Origin)
    (place : List Nat) :
    (shape.mapOrigins change place).KeptIn (other.mapOrigins change place) where
  fields fs eq := by
    cases shape with
    | object fields =>
        obtain ⟨gs, rfl, names⟩ := kept.exists_fields
        rw [Shape.mapOrigins] at eq
        cases eq
        refine ⟨mapOriginsOfFields change place 0 gs, by rw [Shape.mapOrigins], ?_⟩
        rw [names_mapOriginsOfFields, names_mapOriginsOfFields, names]
    | _ => rw [Shape.mapOrigins] at eq; cases eq
  values vs eq := by
    cases shape with
    | oneOf values => rw [kept.values values rfl, eq]
    | _ => rw [Shape.mapOrigins] at eq; cases eq
  solid isSolid := by
    rw [isSolid_mapOrigins] at isSolid ⊢
    exact kept.solid isSolid

@[simp]
theorem isSolid_markOptional (optional : Bool) (shape : Shape) :
    (shape.markOptional optional).isSolid = shape.isSolid := by
  cases shape <;> rfl

theorem KeptIn.markOptional (kept : shape.KeptIn other) (optional : Bool) :
    (shape.markOptional optional).KeptIn (other.markOptional optional) := by
  cases shape with
  | object fs =>
      obtain ⟨gs, rfl, names⟩ := kept.exists_fields
      refine keptIn_object ?_
      rw [List.map_map, List.map_map]
      exact names.symm
  | unknown => exact keptIn_unknown _
  | oneOf vs =>
      rw [kept.values vs rfl]
      exact keptIn_refl _
  | _ => exact
      { fields := fun _ eq => by cases eq
        values := fun _ eq => by cases eq
        solid := fun isSolid => by
          rw [isSolid_markOptional]
          exact kept.solid isSolid }

private theorem names_filter_congr {fs gs : List Field}
    (names : gs.map Field.name = fs.map Field.name) (wanted : String → Bool) :
    (gs.filter fun field => wanted field.name).map Field.name =
      (fs.filter fun field => wanted field.name).map Field.name := by
  have filtered (fields : List Field) : (fields.filter fun field => wanted field.name).map
      Field.name = (fields.map Field.name).filter wanted := List.filter_map.symm
  rw [filtered, filtered, names]

theorem KeptIn.select (kept : shape.KeptIn other) {names another : Shape}
    (namesKept : names.KeptIn another) (keep : Bool) :
    (select keep shape names).KeptIn (select keep other another) := by
  cases shape with
  | object fs =>
      cases names with
      | oneOf keys =>
          obtain ⟨gs, rfl, namesEq⟩ := kept.exists_fields
          rw [namesKept.values keys rfl]
          exact keptIn_object (names_filter_congr namesEq fun name =>
            (keys.map Literal.propertyName).contains name == keep).symm
      | _ => exact keptIn_unknown _
  | _ => exact keptIn_unknown _

theorem KeptIn.keys (kept : shape.KeptIn other) : shape.keys.KeptIn other.keys := by
  cases shape with
  | object fs =>
      obtain ⟨gs, rfl, names⟩ := kept.exists_fields
      have keysEq (fields : List Field) : (object fields).keys =
          oneOf ((fields.map Field.name).map .text) := by
        rw [Shape.keys, List.map_map]
        rfl
      rw [keysEq, keysEq, names]
      exact keptIn_refl _
  | _ => exact keptIn_unknown _

/-- A shape that is told to be no object is none where more can be seen. -/
theorem KeptIn.fields?_eq (kept : shape.KeptIn other) (told : shape.IsTold) :
    Option.Rel (fun fs gs => fs.map Field.name = gs.map Field.name)
      shape.fields? other.fields? := by
  rcases told with ⟨fs, rfl⟩ | isSolid
  · obtain ⟨gs, rfl, names⟩ := kept.exists_fields
    exact .some names.symm
  · have noObject : ∀ {s : Shape}, s.isSolid = true → s.fields? = none := by
      intro s solid
      cases s <;> first | rfl | cases solid
    rw [noObject isSolid, noObject (kept.solid isSolid)]
    exact .none

theorem forall₂_filterMap_fields? (kept : List.Forall₂ KeptIn shapes others)
    (told : ∀ shape ∈ shapes, shape.IsTold) :
    List.Forall₂ (fun fs gs => fs.map Field.name = gs.map Field.name)
      (shapes.filterMap fields?) (others.filterMap fields?) := by
  induction kept with
  | nil => exact .nil
  | @cons s t ss ts head _ ih =>
      rw [List.forall_mem_cons] at told
      have related := head.fields?_eq told.1
      rw [List.filterMap_cons, List.filterMap_cons]
      cases sEq : s.fields? with
      | none =>
          rw [sEq] at related
          generalize t.fields? = fields at related
          cases related
          exact ih told.2
      | some fs =>
          rw [sEq] at related
          generalize t.fields? = fields at related
          cases related with
          | some names => exact .cons names (ih told.2)

/-- An intersection keeps the names of its fields if all its operands are told. -/
theorem keptIn_intersect (kept : List.Forall₂ KeptIn shapes others)
    (told : ∀ shape ∈ shapes, shape.IsTold) : (intersect shapes).KeptIn (intersect others) := by
  have groups := forall₂_filterMap_fields? kept told
  cases groupsEq : shapes.filterMap fields? with
  | nil =>
      rw [intersect_of_none groupsEq]
      exact keptIn_unknown _
  | cons group more =>
      have some : shapes.filterMap fields? ≠ [] := by
        rw [groupsEq]
        exact List.cons_ne_nil _ _
      have otherSome : others.filterMap fields? ≠ [] := by
        rw [ne_eq, ← List.length_eq_zero_iff, ← groups.length_eq, List.length_eq_zero_iff]
        exact some
      rw [intersect_of_some some, intersect_of_some otherSome]
      exact keptIn_object (names_mergeFields_congr groups)

private theorem isPlain_eq_of_equals {s t : Shape} (equal : s.equals t = true) :
    s.isPlain = t.isPlain := by
  cases s <;> cases t <;> first | rfl | cases equal

theorem isPlain_of_isOneOf (isSet : shape.isOneOf = true) : shape.isPlain = true := by
  cases shape <;> first | rfl | cases isSet

theorem isSolid_of_isPlain (plain : shape.isPlain = true) : shape.isSolid = true := by
  cases shape <;> first | rfl | cases plain

theorem isSolid_iff : shape.isSolid = true ↔ ∃ a ∈ shape.alternatives, a.isPlain = true :=
  List.any_eq_true

/-- What is combined with a plain alternative is solid. -/
theorem isSolid_combine {alternative : Shape} (mem : alternative ∈ shapes.flatMap alternatives)
    (plain : alternative.isPlain = true) : (combine shapes).isSolid = true := by
  let literals := oneOf (dedupe Literal.same ((shapes.flatMap alternatives).flatMap values))
  obtain ⟨member, grouped, memberPlain⟩ :
      ∃ m ∈ groupLiterals literals (shapes.flatMap alternatives), m.isPlain = true := by
    cases isSet : alternative.isOneOf with
    | true => exact ⟨literals, mem_groupLiterals_iff.mpr (.inl ⟨rfl, _, mem, isSet⟩), rfl⟩
    | false => exact ⟨alternative, mem_groupLiterals_iff.mpr (.inr ⟨mem, isSet⟩), plain⟩
  obtain ⟨kept, keptMem, equal⟩ := exists_mem_dedupe equals grouped
  have keptPlain : kept.isPlain = true := by
    rcases equal with rfl | equal
    · exact memberPlain
    · rw [isPlain_eq_of_equals equal, memberPlain]
  rw [combine]
  split
  · rename_i single singleEq
    rw [singleEq, List.mem_singleton] at keptMem
    exact isSolid_of_isPlain (keptMem ▸ keptPlain)
  · exact isSolid_iff.mpr ⟨kept, keptMem, keptPlain⟩

/-- Only what is combined with a plain alternative is solid. -/
theorem exists_isSolid_of_combine (formed : ∀ shape ∈ shapes, shape.WellFormed)
    (solid : (combine shapes).isSolid = true) : ∃ shape ∈ shapes, shape.isSolid = true := by
  let literals := oneOf (dedupe Literal.same ((shapes.flatMap alternatives).flatMap values))
  have ofAlternative : ∀ a ∈ shapes.flatMap alternatives, a.isPlain = true →
      ∃ shape ∈ shapes, shape.isSolid = true := by
    intro a mem plain
    obtain ⟨shape, shapeMem, mem⟩ := List.mem_flatMap.mp mem
    exact ⟨shape, shapeMem, isSolid_iff.mpr ⟨a, mem, plain⟩⟩
  have ofMember : ∀ m ∈ dedupe equals (groupLiterals literals (shapes.flatMap alternatives)),
      m.isPlain = true → ∃ shape ∈ shapes, shape.isSolid = true := by
    intro m mem plain
    rcases mem_groupLiterals_iff.mp ((dedupe_sublist equals _).subset mem) with
      ⟨-, a, aMem, isSet⟩ | ⟨aMem, -⟩
    · exact ofAlternative a aMem (isPlain_of_isOneOf isSet)
    · exact ofAlternative m aMem plain
  obtain ⟨m, mem, plain⟩ := isSolid_iff.mp solid
  rw [combine] at mem
  split at mem
  · rename_i single singleEq
    have flat : single.isUnion = false := by
      have grouped := (dedupe_sublist equals (groupLiterals literals
        (shapes.flatMap alternatives))).subset (singleEq ▸ List.mem_singleton_self single)
      rcases mem_groupLiterals_iff.mp grouped with ⟨rfl, -⟩ | ⟨singleMem, -⟩
      · rfl
      · obtain ⟨shape, shapeMem, singleMem⟩ := List.mem_flatMap.mp singleMem
        exact ((formed shape shapeMem).opened.2 single singleMem).1
    have alone : single.alternatives = [single] := by
      cases single <;> first | rfl | cases flat
    rw [alone, List.mem_singleton] at mem
    exact ofMember m (singleEq ▸ mem ▸ List.mem_singleton_self _) plain
  · exact ofMember m mem plain

/-- Combined shapes are a set of literals only if all of them are sets. -/
theorem exists_oneOf_of_combine (formed : ∀ shape ∈ shapes, shape.WellFormed) {vs : List Literal}
    (combined : combine shapes = .oneOf vs) : ∀ shape ∈ shapes, ∃ ws, shape = .oneOf ws := by
  intro shape mem
  let literals := oneOf (dedupe Literal.same ((shapes.flatMap alternatives).flatMap values))
  have single : dedupe equals (groupLiterals literals (shapes.flatMap alternatives)) =
      [.oneOf vs] := by
    rw [combine] at combined
    split at combined
    · rename_i member memberEq
      exact combined ▸ memberEq
    · cases combined
  have allSets : ∀ a ∈ shape.alternatives, a.isOneOf = true := by
    intro a aMem
    by_contra notSet
    rw [Bool.not_eq_true] at notSet
    have grouped : a ∈ groupLiterals literals (shapes.flatMap alternatives) :=
      mem_groupLiterals_iff.mpr (.inr ⟨List.mem_flatMap.mpr ⟨shape, mem, aMem⟩, notSet⟩)
    obtain ⟨m, mMem, equal⟩ := exists_mem_dedupe equals grouped
    rw [single, List.mem_singleton] at mMem
    subst mMem
    rcases equal with rfl | equal
    · cases notSet
    · rw [← isOneOf_eq_of_equals equal] at notSet
      cases notSet
  cases shape with
  | oneOf ws => exact ⟨ws, rfl⟩
  | union alternatives =>
      cases formed _ mem with
      | union areAlternatives _ =>
          have all : alternatives.countP isOneOf = alternatives.length :=
            List.countP_eq_length.mpr allSets
          have several := areAlternatives.several
          have grouped := areAlternatives.grouped
          omega
  | _ => cases allSets _ (List.mem_singleton_self _)

private theorem eq_of_keptIn_sets (kept : List.Forall₂ KeptIn shapes others)
    (sets : ∀ shape ∈ shapes, ∃ ws, shape = .oneOf ws) : others = shapes := by
  induction kept with
  | nil => rfl
  | cons head _ ih =>
      rw [List.forall_mem_cons] at sets
      obtain ⟨⟨ws, rfl⟩, rest⟩ := sets
      rw [head.values ws rfl, ih rest]

private theorem exists_isSolid_of_keptIn (kept : List.Forall₂ KeptIn shapes others)
    (some : ∃ shape ∈ shapes, shape.isSolid = true) : ∃ other ∈ others, other.isSolid = true := by
  induction kept with
  | nil =>
      obtain ⟨_, mem, -⟩ := some
      cases mem
  | cons head _ ih =>
      rw [List.exists_mem_cons_iff] at some ⊢
      exact some.imp head.solid ih

/-- A union keeps what is left of it, unless it is one object that several alternatives come
together in. -/
theorem keptIn_unionShape (kept : List.Forall₂ KeptIn shapes others)
    (formed : ∀ shape ∈ shapes, shape.WellFormed)
    (single : ∀ fields, unionShape shapes = .object fields → shapes = [.object fields]) :
    (unionShape shapes).KeptIn (unionShape others) := by
  by_cases none : shapes = []
  · subst none
    exact keptIn_unknown _
  have combined : unionShape shapes = combine shapes := by
    rw [unionShape, if_neg (by simpa using none)]
  have otherCombined : unionShape others = combine others := by
    have otherSome : others ≠ [] := by
      rintro rfl
      exact none (List.forall₂_nil_right_iff.mp kept)
    rw [unionShape, if_neg (by simpa using otherSome)]
  constructor
  · intro fs eq
    have shapesEq := single fs eq
    subst shapesEq
    cases kept with
    | cons head tail =>
        cases tail
        obtain ⟨gs, rfl, names⟩ := head.exists_fields
        exact ⟨gs, rfl, names⟩
  · intro vs eq
    have sets := exists_oneOf_of_combine formed (combined.symm.trans eq)
    rw [eq_of_keptIn_sets kept sets, eq]
  · intro solid
    rw [combined] at solid
    obtain ⟨other, mem, otherSolid⟩ :=
      exists_isSolid_of_keptIn kept (exists_isSolid_of_combine formed solid)
    obtain ⟨alternative, inOther, plain⟩ := isSolid_iff.mp otherSolid
    rw [otherCombined]
    exact isSolid_combine (List.mem_flatMap.mpr ⟨other, mem, inOther⟩) plain

end Shape

end PropValidators
