import PropValidators.Proofs.Resolution.Grouping
import PropValidators.Proofs.StandardNumbers

/-!
# Laws of the type functions

Type functions are applied to types, and the keys of a selection are a type, too.  What the
functions do to fields is told by a few laws: picking and omitting by the same keys part the fields
of an object between them, and marks are set whatever they were before.

Keys are compared as texts, but two keys that are the same value are one key of a union.  The two
zeros are the same value and have different texts.  So omitting by two sets of keys in a row is
omitting by their union only if a field that is named like one zero is not left when the keys are
put together.
-/

namespace PropValidators

open Shape

/-! ## Keys -/

/-- A name is that of one of some values. -/
def Named (values : List Literal) (name : String) : Prop :=
  ∃ v ∈ values, v.propertyName = name

instance (values : List Literal) (name : String) : Decidable (Named values name) :=
  inferInstanceAs (Decidable (∃ v ∈ values, v.propertyName = name))

/-- A value is a number in standard form, if it is one. -/
def Literal.Standard : Literal → Prop
  | .number (.float x) => x.Standard
  | _ => True

/-- Negative zero, which is the same value as zero and has another text. -/
def Literal.negativeZero : Literal :=
  .number (.float (.zero true))

/-- Values that are the same and no zero with a sign have one text. -/
theorem Literal.propertyName_eq_of_same {v w : Literal} (vStandard : v.Standard)
    (wStandard : w.Standard) (vPositive : v ≠ negativeZero) (wPositive : w ≠ negativeZero)
    (same : v.same w = true) : v.propertyName = w.propertyName := by
  rcases eq_or_float_of_same same with rfl | ⟨x, y, rfl, rfl, equal⟩
  · rfl
  · rcases Binary64.eq_or_zero_of_equals vStandard wStandard equal with rfl | ⟨negative, rfl, rfl⟩
    · rfl
    · cases negative
      · exact absurd rfl wPositive
      · exact absurd rfl vPositive

/-- An integer that cannot be written is kept when repeated values are dropped. -/
@[simp]
theorem any_isUnwritable_dedupe (values : List Literal) :
    (dedupe Literal.same values).any Literal.isUnwritable = values.any Literal.isUnwritable := by
  rw [Bool.eq_iff_iff, List.any_eq_true, List.any_eq_true]
  constructor
  · rintro ⟨v, mem, unwritable⟩
    exact ⟨v, (dedupe_sublist Literal.same values).subset mem, unwritable⟩
  · rintro ⟨v, mem, unwritable⟩
    obtain ⟨w, kept, rfl | same⟩ := exists_mem_dedupe Literal.same mem
    · exact ⟨w, kept, unwritable⟩
    · rcases Literal.eq_or_float_of_same same with rfl | ⟨x, y, rfl, rfl, -⟩
      · exact ⟨w, kept, unwritable⟩
      · cases unwritable

/-! ## Selections -/

/-- The fields that are named by keys, or those that are not. -/
def selectFields (keep : Bool) (fields : List Field) (keys : List Literal) : List Field :=
  fields.filter fun f => decide (Named keys f.name) == keep

/-- What becomes of fields that are selected by keys. -/
def keyedSelection (keep : Bool) (fields : List Field) (keys : List Literal) : Except Fault Shape :=
  if keys.any Literal.isUnwritable then .error .unwritableInteger
  else .ok (.object (selectFields keep fields keys))

@[simp]
theorem select_object (keep : Bool) (fields : List Field) (keys : List Literal) :
    select keep (.object fields) (.oneOf keys) = .object (selectFields keep fields keys) := by
  have agree (name : String) :
      (keys.map Literal.propertyName).contains name = decide (Named keys name) := by
    rw [Bool.eq_iff_iff, List.contains_iff_mem, List.mem_map, decide_eq_true_iff]
    rfl
  simp only [select, selectFields, agree]

@[simp]
theorem named_append {keys others : List Literal} {name : String} :
    Named (keys ++ others) name ↔ Named keys name ∨ Named others name := by
  simp [Named, or_and_right, exists_or]

/-- Omitting by keys in a row is omitting by all of them. -/
theorem selectFields_selectFields (fields : List Field) (keys others : List Literal) :
    selectFields false (selectFields false fields keys) others =
      selectFields false fields (keys ++ others) := by
  rw [selectFields, selectFields, selectFields, List.filter_filter]
  apply List.filter_congr
  intro f _
  rw [Bool.eq_iff_iff]
  simp [and_comm]

/-- Fields are omitted alike by keys that name the same of them, and only by these. -/
theorem selectFields_eq_iff {fields : List Field} {keys others : List Literal} :
    selectFields false fields keys = selectFields false fields others ↔
      ∀ f ∈ fields, Named keys f.name ↔ Named others f.name := by
  rw [selectFields, selectFields]
  constructor
  · intro eq f mem
    have both : f ∈ selectFields false fields keys ↔ f ∈ selectFields false fields others := by
      rw [selectFields, eq, selectFields]
    rw [selectFields, selectFields, List.mem_filter, List.mem_filter] at both
    simpa [mem, not_iff_not] using both
  · intro agree
    apply List.filter_congr
    intro f mem
    rw [decide_eq_decide.mpr (agree f mem)]

/-- Dropping repeated keys names nothing new. -/
theorem Named.of_dedupe {keys : List Literal} {name : String}
    (named : Named (dedupe Literal.same keys) name) : Named keys name := by
  obtain ⟨v, mem, eq⟩ := named
  exact ⟨v, (dedupe_sublist Literal.same keys).subset mem, eq⟩

/-- The fields that are picked and those that are omitted by the same keys. -/
theorem selectFields_parted (fields : List Field) (keys : List Literal) :
    (selectFields true fields keys).Sublist fields ∧
      (selectFields false fields keys).Sublist fields ∧
      (selectFields true fields keys ++ selectFields false fields keys).Perm fields ∧
      ((selectFields true fields keys).map Field.name).Disjoint
        ((selectFields false fields keys).map Field.name) := by
  refine ⟨List.filter_sublist, List.filter_sublist, ?_, ?_⟩
  · simpa [selectFields] using
      List.filter_append_perm (fun f : Field => decide (Named keys f.name)) fields
  · intro name inside outside
    obtain ⟨f, picked, rfl⟩ := List.mem_map.mp inside
    obtain ⟨g, omitted, same⟩ := List.mem_map.mp outside
    have fNamed := (List.mem_filter.mp picked).2
    have gUnnamed := (List.mem_filter.mp omitted).2
    rw [← same, eq_of_beq gUnnamed] at fNamed
    cases fNamed

/-! ## Type functions -/

/-- A type function applied to types. -/
def applied (function : String) (arguments : List TypeExpr) : TypeExpr :=
  .reference (some function) arguments

/-- Of the type functions that select and mark, none is bound or declared. -/
def FunctionsFree (context : Context) : Prop :=
  ∀ function ∈ ["Pick", "Omit", "Partial", "Required"],
    context.bound? function = none ∧ context.registry.contains function = false

namespace Resolution

variable {context : Context}

/-- What a type function does to a shape, given the type of the keys. -/
def functionShape (context : Context) (utility : Utility) (keys : List TypeExpr) (shape : Shape) :
    Traced Shape :=
  match utility with
  | .same => return shape
  | .optional => return shape.markOptional true
  | .required => return shape.markOptional false
  | .pick => do
      let wanted ← resolveFirst context keys
      Traced.check (Shape.selectFault? shape wanted)
      return Shape.select true shape wanted
  | .omit => do
      let unwanted ← resolveFirst context keys
      Traced.check (Shape.selectFault? shape unwanted)
      return Shape.select false shape unwanted

theorem resolveType_applied (free : FunctionsFree context) {function : String}
    (utility : Utility) (mem : function ∈ ["Pick", "Omit", "Partial", "Required"])
    (lookup : utilities.lookup function = some utility) (target : TypeExpr)
    (keys : List TypeExpr) :
    resolveType context (applied function (target :: keys)) =
      resolveType context target >>= functionShape context utility keys := by
  obtain ⟨unbound, undeclared⟩ := free function mem
  have noArrays : ∀ function ∈ ["Pick", "Omit", "Partial", "Required"],
      arrayGenerics.contains function = false := by decide
  have noArray := noArrays function mem
  rw [applied, resolveType.eq_def]
  simp only [unbound, undeclared, noArray, lookup, Bool.false_eq_true, if_false]
  rfl

/-- Selecting by keys, given what the target and the keys resolve to. -/
theorem outcome_select (free : FunctionsFree context) {target key : TypeExpr}
    {fields : List Field} {keys : List Literal}
    (targetEq : (resolveType context target).outcome = .ok (.object fields))
    (keyEq : (resolveType context key).outcome = .ok (.oneOf keys)) :
    (resolveType context (applied "Pick" [target, key])).outcome = keyedSelection true fields keys ∧
      (resolveType context (applied "Omit" [target, key])).outcome =
        keyedSelection false fields keys := by
  constructor
  · rw [resolveType_applied free .pick (by decide) (by decide), Traced.outcome_bind,
      targetEq]
    simp only [Except.bind, functionShape, resolveFirst, Traced.outcome_bind, keyEq, keyedSelection,
      selectFault?, select_object]
    cases keys.any Literal.isUnwritable <;> rfl
  · rw [resolveType_applied free .omit (by decide) (by decide), Traced.outcome_bind,
      targetEq]
    simp only [Except.bind, functionShape, resolveFirst, Traced.outcome_bind, keyEq, keyedSelection,
      selectFault?, select_object]
    cases keys.any Literal.isUnwritable <;> rfl

/-- A union of two sets of keys has the keys of both, each once. -/
theorem outcome_union_keys {key other : TypeExpr} {keys others : List Literal}
    (keyEq : (resolveType context key).outcome = .ok (.oneOf keys))
    (otherEq : (resolveType context other).outcome = .ok (.oneOf others)) :
    (resolveType context (.union [key, other])).outcome =
      .ok (.oneOf (dedupe Literal.same (keys ++ others))) := by
  have present : ∀ {type : TypeExpr} {values : List Literal},
      (resolveType context type).outcome = .ok (.oneOf values) → type.isNullish = false := by
    intro type values eq
    cases type with
    | nullish =>
        rw [resolveType] at eq
        cases eq
    | _ => rfl
  have keptEq : [key, other].filter (fun type => !type.isNullish) = [key, other] := by
    simp [present keyEq, present otherEq]
  have shapesEq : (resolveAll context [key, other]).outcome =
      .ok [.oneOf keys, .oneOf others] := by
    simp only [resolveAll, Traced.outcome_bind, keyEq, otherEq, pure_bind]
    rfl
  have gathered : [oneOf keys, oneOf others].flatMap values = keys ++ others := by
    simp [values]
  rw [resolveType_union, keptEq, map_eq_pure_bind, Traced.outcome_bind, shapesEq, ← gathered]
  rfl

/-- Marking and selecting are done in either order. -/
@[simp]
theorem select_markOptional (keep optional : Bool) (shape wanted : Shape) :
    select keep (shape.markOptional optional) wanted =
      (select keep shape wanted).markOptional optional := by
  cases shape <;> cases wanted <;> simp [select, markOptional, List.filter_map, Function.comp_def]

@[simp]
theorem selectFault?_markOptional (optional : Bool) (shape wanted : Shape) :
    selectFault? (shape.markOptional optional) wanted = selectFault? shape wanted := by
  cases shape <;> cases wanted <;> rfl

/-- Of two marks the last one stays. -/
@[simp]
theorem markOptional_markOptional (first last : Bool) (shape : Shape) :
    (shape.markOptional first).markOptional last = shape.markOptional last := by
  cases shape <;> simp [markOptional]

/-- The names of an object are its keys, and all its fields are named by them. -/
theorem selectFields_keys (keep : Bool) (fields : List Field) :
    keyedSelection keep fields (fields.map fun f => .text f.name) =
      .ok (.object (if keep then fields else [])) := by
  have writable : (fields.map fun f => Literal.text f.name).any Literal.isUnwritable = false := by
    simp [Literal.isUnwritable]
  have all : ∀ f ∈ fields, Named (fields.map fun f => .text f.name) f.name := fun f mem =>
    ⟨.text f.name, List.mem_map_of_mem mem, rfl⟩
  rw [keyedSelection, writable, if_neg Bool.false_ne_true, selectFields]
  cases keep
  · rw [List.filter_eq_nil_iff.mpr fun f mem => by simp [all f mem]]
    rfl
  · rw [List.filter_eq_self.mpr fun f mem => by simp [all f mem]]
    rfl

/-- Omitting by keys in a row. -/
theorem outcome_omit_omit (free : FunctionsFree context) {target key other : TypeExpr}
    {fields : List Field} {keys others : List Literal}
    (targetEq : (resolveType context target).outcome = .ok (.object fields))
    (keyEq : (resolveType context key).outcome = .ok (.oneOf keys))
    (otherEq : (resolveType context other).outcome = .ok (.oneOf others)) :
    (resolveType context (applied "Omit" [applied "Omit" [target, key], other])).outcome =
      keyedSelection false fields (keys ++ others) := by
  have omitted := (outcome_select free targetEq keyEq).2
  cases unwritable : keys.any Literal.isUnwritable with
  | true =>
      have stopped : keyedSelection false fields keys = .error .unwritableInteger := by
        rw [keyedSelection, unwritable, if_pos rfl]
      rw [resolveType_applied free .omit (by decide) (by decide),
        Traced.outcome_bind, omitted, stopped, keyedSelection, List.any_append, unwritable,
        Bool.true_or, if_pos rfl]
      rfl
  | false =>
      have returned : keyedSelection false fields keys =
          .ok (.object (selectFields false fields keys)) := by
        rw [keyedSelection, unwritable, if_neg Bool.false_ne_true]
      rw [(outcome_select free (omitted.trans returned) otherEq).2, keyedSelection, keyedSelection,
        selectFields_selectFields, List.any_append, unwritable, Bool.false_or]

/-- Marking and picking are done in either order. -/
theorem resolveType_pick_partial (free : FunctionsFree context) (target key : TypeExpr) :
    resolveType context (applied "Pick" [applied "Partial" [target], key]) =
      resolveType context (applied "Partial" [applied "Pick" [target, key]]) := by
  rw [resolveType_applied free .pick (by decide) (by decide),
    resolveType_applied free .optional (by decide) (by decide),
    resolveType_applied free .optional (by decide) (by decide),
    resolveType_applied free .pick (by decide) (by decide)]
  simp only [functionShape, bind_assoc, pure_bind, select_markOptional, selectFault?_markOptional]

/-- Of two type functions that mark fields the outer one decides. -/
theorem resolveType_marked (free : FunctionsFree context) (target : TypeExpr) :
    resolveType context (applied "Required" [applied "Partial" [target]]) =
        resolveType context (applied "Required" [target]) ∧
      resolveType context (applied "Partial" [applied "Required" [target]]) =
        resolveType context (applied "Partial" [target]) := by
  have marked : ∀ target, resolveType context (applied "Partial" [target]) =
        resolveType context target >>= functionShape context .optional [] ∧
      resolveType context (applied "Required" [target]) =
        resolveType context target >>= functionShape context .required [] := fun target =>
    ⟨resolveType_applied free .optional (by decide) (by decide) target [],
      resolveType_applied free .required (by decide) (by decide) target []⟩
  rw [(marked (applied "Partial" [target])).2, (marked target).1,
    (marked (applied "Required" [target])).1, (marked target).2]
  simp only [functionShape, bind_assoc, pure_bind, markOptional_markOptional]
  exact ⟨rfl, rfl⟩

/-- The fields that are picked and those that are omitted by the same keys. -/
theorem keyedSelection_parted (fields : List Field) (keys : List Literal) :
    if keys.any Literal.isUnwritable then
      keyedSelection true fields keys = .error .unwritableInteger ∧
        keyedSelection false fields keys = .error .unwritableInteger
    else
      ∃ inside outside, keyedSelection true fields keys = .ok (.object inside) ∧
        keyedSelection false fields keys = .ok (.object outside) ∧
        inside.Sublist fields ∧ outside.Sublist fields ∧ (inside ++ outside).Perm fields ∧
        (inside.map Field.name).Disjoint (outside.map Field.name) := by
  rw [keyedSelection, keyedSelection]
  split
  · exact ⟨rfl, rfl⟩
  · obtain ⟨inside, outside, together, apart⟩ := selectFields_parted fields keys
    exact ⟨_, _, rfl, rfl, inside, outside, together, apart⟩

/-- Omitting by distinct keys and by all keys differ if and only if a field is named by a key
that is the same value as another one. -/
theorem keyedSelection_dedupe_iff {fields : List Field} {keys : List Literal} :
    keyedSelection false fields keys = keyedSelection false fields (dedupe Literal.same keys) ↔
      keys.any Literal.isUnwritable = true ∨
        ∀ f ∈ fields, Named keys f.name → Named (dedupe Literal.same keys) f.name := by
  rw [keyedSelection, keyedSelection, any_isUnwritable_dedupe]
  cases keys.any Literal.isUnwritable with
  | true => simp
  | false =>
      have both : (∀ f ∈ fields, Named keys f.name ↔ Named (dedupe Literal.same keys) f.name) ↔
          ∀ f ∈ fields, Named keys f.name → Named (dedupe Literal.same keys) f.name :=
        forall₂_congr fun f _ => ⟨Iff.mp, fun kept => ⟨kept, Named.of_dedupe⟩⟩
      simp [selectFields_eq_iff, both]

/-- Names are those of distinct keys, if there is no negative zero among the keys. -/
theorem Named.dedupe {keys : List Literal} {name : String} (standard : ∀ v ∈ keys, v.Standard)
    (positive : Literal.negativeZero ∉ keys) (named : Named keys name) :
    Named (PropValidators.dedupe Literal.same keys) name := by
  obtain ⟨v, mem, rfl⟩ := named
  obtain ⟨w, kept, rfl | same⟩ := exists_mem_dedupe Literal.same mem
  · exact ⟨w, kept, rfl⟩
  · have wMem := (dedupe_sublist Literal.same keys).subset kept
    refine ⟨w, kept, Literal.propertyName_eq_of_same (standard w wMem) (standard v mem) ?_ ?_ same⟩
    · rintro rfl
      exact positive wMem
    · rintro rfl
      exact positive mem

/-- What the type functions do to an object type and to its keys.

Picking and omitting by the names of all fields gives all fields and none; by any keys, the fields
are parted between the two in order, unless one of the keys is an integer that cannot be written.
Omitting by two sets of keys in a row is omitting by their union if and only if every field that
is named by one of the keys is still named by one of those that are left when keys which are the
same value are put together; for that it is enough that no key is negative zero.  Marking comes
before or after picking, and of two marks the last one stays. -/
theorem type_function_laws {context : Context} (free : FunctionsFree context)
    {target key other : TypeExpr} {fields : List Field} {keys others : List Literal}
    (targetEq : (resolveType context target).outcome = .ok (.object fields))
    (keyEq : (resolveType context key).outcome = .ok (.oneOf keys))
    (otherEq : (resolveType context other).outcome = .ok (.oneOf others)) :
    ((resolveType context (applied "Pick" [target, .keyof target])).outcome =
        .ok (.object fields) ∧
      (resolveType context (applied "Omit" [target, .keyof target])).outcome =
        .ok (.object [])) ∧
    (let picked := (resolveType context (applied "Pick" [target, key])).outcome
      let omitted := (resolveType context (applied "Omit" [target, key])).outcome
      if keys.any Literal.isUnwritable then
        picked = .error .unwritableInteger ∧ omitted = .error .unwritableInteger
      else
        ∃ inside outside, picked = .ok (.object inside) ∧ omitted = .ok (.object outside) ∧
          inside.Sublist fields ∧ outside.Sublist fields ∧ (inside ++ outside).Perm fields ∧
          (inside.map Field.name).Disjoint (outside.map Field.name)) ∧
    (let inRow := applied "Omit" [applied "Omit" [target, key], other]
      let atOnce := applied "Omit" [target, .union [key, other]]
      ((resolveType context inRow).outcome = (resolveType context atOnce).outcome ↔
        (keys ++ others).any Literal.isUnwritable = true ∨
          ∀ f ∈ fields, Named (keys ++ others) f.name →
            Named (dedupe Literal.same (keys ++ others)) f.name) ∧
      ((∀ v ∈ keys ++ others, v.Standard) → Literal.negativeZero ∉ keys ++ others →
        (resolveType context inRow).outcome = (resolveType context atOnce).outcome)) ∧
    resolveType context (applied "Pick" [applied "Partial" [target], key]) =
      resolveType context (applied "Partial" [applied "Pick" [target, key]]) ∧
    resolveType context (applied "Required" [applied "Partial" [target]]) =
      resolveType context (applied "Required" [target]) ∧
    resolveType context (applied "Partial" [applied "Required" [target]]) =
      resolveType context (applied "Partial" [target]) := by
  have byKey := outcome_select free targetEq keyEq
  have namesEq : (resolveType context (.keyof target)).outcome =
      .ok (.oneOf (fields.map fun f => .text f.name)) := by
    rw [resolveType, Traced.outcome_bind, targetEq]
    rfl
  have byNames := outcome_select free targetEq namesEq
  have inRowEq := outcome_omit_omit free targetEq keyEq otherEq
  have atOnceEq := (outcome_select free targetEq (outcome_union_keys keyEq otherEq)).2
  refine ⟨⟨?_, ?_⟩, ?_, ⟨?_, fun standard positive => ?_⟩, resolveType_pick_partial free target key,
    resolveType_marked free target⟩
  · exact byNames.1.trans (selectFields_keys true fields)
  · exact byNames.2.trans (selectFields_keys false fields)
  · rw [byKey.1, byKey.2]
    exact keyedSelection_parted fields keys
  · rw [inRowEq, atOnceEq]
    exact keyedSelection_dedupe_iff
  · rw [inRowEq, atOnceEq]
    exact keyedSelection_dedupe_iff.mpr (.inr fun f _ named => Named.dedupe standard positive named)

/-- A context without declarations. -/
def undeclaredContext : Context where
  registry := .empty
  maxDepth := .int 5

theorem functionsFree_undeclaredContext : FunctionsFree undeclaredContext := by
  rw [FunctionsFree]
  decide

/-- An object type with a field for each of the two zeros. -/
def bothZeros : TypeExpr :=
  .object [.property "0.0" (.primitive .string) false, .property "-0.0" (.primitive .number) true]

/-- The fields of the two zeros. -/
def zeroFields : List Field :=
  [⟨"0.0", .primitive .string, false, false⟩, ⟨"-0.0", .primitive .number, true, false⟩]

@[simp]
theorem outcome_bothZeros :
    (resolveType undeclaredContext bothZeros).outcome = .ok (.object zeroFields) := by
  have shallow : undeclaredContext.tooDeep = false := rfl
  simp only [bothZeros, resolveType, shallow, resolveMembers, resolveNullable, resolveUnwrapped,
    Bool.false_eq_true, if_false]
  rfl

@[simp]
theorem outcome_literal (context : Context) (value : Literal) :
    (resolveType context (.literal value)).outcome = .ok (.oneOf [value]) := by
  rw [resolveType]
  rfl

/-- Of the two zeros one is picked as a number and the other one as a text. -/
theorem type_function_laws_zeros :
    let zero : TypeExpr := .literal (.number (.float (.zero false)))
    let negativeZero : TypeExpr := .literal (.text "-0.0")
    let inRow := applied "Omit" [applied "Omit" [bothZeros, zero], negativeZero]
    let atOnce := applied "Omit" [bothZeros, .union [zero, negativeZero]]
    (resolveType undeclaredContext (applied "Pick" [bothZeros, .keyof bothZeros])).outcome =
        .ok (.object zeroFields) ∧
      (resolveType undeclaredContext inRow).outcome =
        (resolveType undeclaredContext atOnce).outcome ∧
      (resolveType undeclaredContext atOnce).outcome = .ok (.object []) := by
  intro zero negativeZero inRow atOnce
  have laws := type_function_laws functionsFree_undeclaredContext outcome_bothZeros
    (outcome_literal _ (.number (.float (.zero false)))) (outcome_literal _ (.text "-0.0"))
  refine ⟨laws.1.1, laws.2.2.1.1.mpr (.inr ?_), ?_⟩
  · decide +kernel
  · exact (outcome_select functionsFree_undeclaredContext outcome_bothZeros
      (outcome_union_keys (outcome_literal _ _) (outcome_literal _ _))).2

/-- A field that is named like negative zero is omitted by the two zeros in a row, and left by
their union, which keeps only the first of them. -/
theorem zero_left_by_union :
    let zero : TypeExpr := .literal (.number (.float (.zero false)))
    let negativeZero : TypeExpr := .literal (.number (.float (.zero true)))
    FunctionsFree undeclaredContext ∧
      (resolveType undeclaredContext bothZeros).outcome = .ok (.object zeroFields) ∧
      (zeroFields.map Field.name).Nodup ∧
      (resolveType undeclaredContext
        (applied "Omit" [applied "Omit" [bothZeros, zero], negativeZero])).outcome =
        .ok (.object []) ∧
      (resolveType undeclaredContext
        (applied "Omit" [bothZeros, .union [zero, negativeZero]])).outcome =
        .ok (.object [⟨"-0.0", .primitive .number, true, false⟩]) := by
  intro zero negativeZero
  have free := functionsFree_undeclaredContext
  have zeroEq := outcome_literal undeclaredContext (.number (.float (.zero false)))
  have negativeEq := outcome_literal undeclaredContext (.number (.float (.zero true)))
  refine ⟨free, outcome_bothZeros, by decide, ?_, ?_⟩
  · exact outcome_omit_omit free outcome_bothZeros zeroEq negativeEq
  · exact (outcome_select free outcome_bothZeros (outcome_union_keys zeroEq negativeEq)).2

end Resolution

end PropValidators
