import PropValidators.Proofs.Shapes.Merging
import PropValidators.Types.Resolve

/-!
# Well-formed shapes

The shapes that types resolve to are in a normal form.  At every depth, the fields of an object
have different names; the values of a set of literals are different; and a union is between two
shapes or more, of which none is a union again, one at most is a set of literals, and no two are
equal.

Each way in which resolution puts shapes together keeps this form.  Alternatives are opened one
level deep only, which is enough because the unions among them are flat themselves.
-/

namespace PropValidators

namespace Shape

/-- Whether a shape is a union. -/
def isUnion : Shape → Bool
  | .union _ => true
  | _ => false

/-- Shapes that can stand side by side in a union. -/
structure AreAlternatives (members : List Shape) : Prop where
  several : 2 ≤ members.length
  flat : ∀ member ∈ members, member.isUnion = false
  grouped : members.countP isOneOf ≤ 1
  distinct : Apart equals members

/-- A shape in normal form. -/
inductive WellFormed : Shape → Prop
  | primitive (kind : PrimitiveKind) : WellFormed (.primitive kind)
  | object {fields : List Field} (names : (fields.map Field.name).Nodup)
      (inner : ∀ field ∈ fields, WellFormed field.shape) : WellFormed (.object fields)
  | array {element : Shape} (inner : WellFormed element) : WellFormed (.array element)
  | union {members : List Shape} (alternatives : AreAlternatives members)
      (inner : ∀ member ∈ members, WellFormed member) : WellFormed (.union members)
  | oneOf {values : List Literal} (distinct : Apart Literal.same values) :
      WellFormed (.oneOf values)
  | unknown : WellFormed .unknown

end Shape

open Shape

namespace Shape

theorem wellFormed_mergeFields {groups : List (List Field)}
    (inner : ∀ group ∈ groups, ∀ field ∈ group, field.shape.WellFormed) :
    (object (mergeFields groups)).WellFormed := by
  refine .object (nodup_mergeFields_names groups) fun field mem => ?_
  obtain ⟨group, groupMem, fieldMem⟩ := mem_of_mem_mergeFields mem
  exact inner group groupMem field fieldMem

theorem WellFormed.fields {fields : List Field} (formed : (Shape.object fields).WellFormed) :
    (fields.map Field.name).Nodup ∧ ∀ field ∈ fields, field.shape.WellFormed := by
  cases formed with
  | object names inner => exact ⟨names, inner⟩

theorem wellFormed_intersect {shapes : List Shape} (inner : ∀ shape ∈ shapes, shape.WellFormed) :
    (intersect shapes).WellFormed := by
  rw [intersect]
  split
  · exact .unknown
  · apply wellFormed_mergeFields
    intro group mem
    obtain ⟨shape, shapeMem, fieldsEq⟩ := List.mem_filterMap.mp mem
    cases shape with
    | object fields =>
        cases fieldsEq
        exact (inner _ shapeMem).fields.2
    | _ => cases fieldsEq

theorem wellFormed_markOptional {shape : Shape} (formed : shape.WellFormed) (optional : Bool) :
    (shape.markOptional optional).WellFormed := by
  cases shape with
  | object fields =>
      rw [markOptional]
      refine .object ?_ (List.forall_mem_map.mpr formed.fields.2)
      rw [List.map_map]
      exact formed.fields.1
  | _ => exact formed

theorem wellFormed_select {shape : Shape} (formed : shape.WellFormed) (keep : Bool)
    (keys : Shape) : (select keep shape keys).WellFormed := by
  rw [select.eq_def]
  split
  · refine .object (formed.fields.1.sublist (List.filter_sublist.map _)) fun field mem => ?_
    exact formed.fields.2 field (List.mem_filter.mp mem).1
  · exact .unknown

theorem isOneOf_eq_of_equals {s t : Shape} (equal : s.equals t = true) :
    s.isOneOf = t.isOneOf := by
  cases s <;> cases t <;> first | rfl | cases equal

theorem isOneOf_eq_false {shape : Shape} (notSet : ∀ values, shape = .oneOf values → False) :
    shape.isOneOf = false := by
  cases shape with
  | oneOf values => exact absurd rfl (notSet values)
  | _ => rfl

theorem isOneOf_of_mem_values {shape : Shape} {value : Literal} (mem : value ∈ shape.values) :
    shape.isOneOf = true := by
  cases shape with
  | oneOf values => rfl
  | _ => cases mem

theorem wellFormed_keys {shape : Shape} (formed : shape.WellFormed) : shape.keys.WellFormed := by
  cases shape with
  | object fields =>
      rw [keys]
      refine .oneOf (apart_of_pairwise Literal.same_comm ?_)
      rw [List.pairwise_map]
      refine (List.pairwise_map.mp formed.fields.1).imp fun ne => ?_
      exact beq_eq_false_iff_ne.mpr ne
  | _ => exact .unknown

theorem wellFormed_singleton (value : Literal) : (oneOf [value]).WellFormed :=
  .oneOf (apart_of_pairwise Literal.same_comm (List.pairwise_singleton _ value))

theorem wellFormed_dedupe (values : List Literal) :
    (oneOf (dedupe Literal.same values)).WellFormed :=
  .oneOf (dedupe_apart Literal.same_comm values)

theorem wellFormed_enumShape (members : List EnumValue) : (enumShape members).WellFormed := by
  rw [enumShape]
  split
  · exact wellFormed_dedupe _
  · exact .unknown

/-- What a well-formed shape is opened into. -/
theorem WellFormed.opened {shape : Shape} (formed : shape.WellFormed) :
    shape.alternatives ≠ [] ∧
      ∀ member ∈ shape.alternatives, member.isUnion = false ∧ member.WellFormed := by
  cases shape with
  | union members =>
      cases formed with
      | union alternatives inner =>
          refine ⟨?_, fun member mem => ⟨alternatives.flat member mem, inner member mem⟩⟩
          rintro rfl
          exact absurd alternatives.several (by decide)
  | _ =>
      refine ⟨List.cons_ne_nil _ _, fun member mem => ?_⟩
      obtain rfl := List.mem_singleton.mp mem
      exact ⟨rfl, formed⟩

/-- The set of all literals is there if there is any set, and no other set is. -/
theorem mem_groupLiterals_iff {grouped member : Shape} {members : List Shape} :
    member ∈ groupLiterals grouped members ↔
      (member = grouped ∧ ∃ other ∈ members, other.isOneOf = true) ∨
        (member ∈ members ∧ member.isOneOf = false) := by
  fun_induction groupLiterals grouped members with
  | case1 => simp
  | case2 values rest =>
      rw [List.mem_cons, List.mem_filter, List.mem_cons]
      have some : ∃ other ∈ oneOf values :: rest, other.isOneOf = true :=
        ⟨_, List.mem_cons_self, rfl⟩
      have first : ¬ (member = oneOf values ∧ member.isOneOf = false) := by
        rintro ⟨rfl, contrary⟩
        cases contrary
      simp only [some, and_true, or_and_right, first, false_or, Bool.not_eq_true']
  | case3 first rest notOneOf ih =>
      have other : first.isOneOf = false := isOneOf_eq_false notOneOf
      have rests : (∃ s ∈ first :: rest, s.isOneOf = true) ↔ ∃ s ∈ rest, s.isOneOf = true := by
        simp [other]
      rw [List.mem_cons, ih, rests, List.mem_cons]
      constructor
      · rintro (rfl | grouped | ⟨mem, notSet⟩)
        · exact .inr ⟨.inl rfl, other⟩
        · exact .inl grouped
        · exact .inr ⟨.inr mem, notSet⟩
      · rintro (grouped | ⟨rfl | mem, notSet⟩)
        · exact .inr (.inl grouped)
        · exact .inl rfl
        · exact .inr (.inr ⟨mem, notSet⟩)

theorem countP_groupLiterals (grouped : Shape) (members : List Shape) :
    (groupLiterals grouped members).countP isOneOf ≤ 1 := by
  fun_induction groupLiterals grouped members with
  | case1 => exact Nat.zero_le 1
  | case2 values rest =>
      have others : (rest.filter fun s => !s.isOneOf).countP isOneOf = 0 := by
        rw [List.countP_eq_zero]
        intro shape mem
        simpa using (List.mem_filter.mp mem).2
      rw [List.countP_cons, others]
      split <;> decide
  | case3 first rest notOneOf ih =>
      rw [List.countP_cons_of_neg (by simp [isOneOf_eq_false notOneOf])]
      exact ih

private theorem groupLiterals_ne_nil (grouped : Shape) {members : List Shape}
    (some : members ≠ []) : groupLiterals grouped members ≠ [] := by
  rw [groupLiterals.eq_def]
  split
  · exact absurd rfl some
  · exact List.cons_ne_nil _ _
  · exact List.cons_ne_nil _ _

theorem wellFormed_combine {shapes : List Shape} (some : shapes ≠ [])
    (inner : ∀ shape ∈ shapes, shape.WellFormed) : (combine shapes).WellFormed := by
  let members := shapes.flatMap alternatives
  let literals := oneOf (dedupe Literal.same (members.flatMap values))
  let grouped := groupLiterals literals members
  have membersFormed : ∀ member ∈ members, member.isUnion = false ∧ member.WellFormed := by
    intro member mem
    obtain ⟨shape, shapeMem, mem⟩ := List.mem_flatMap.mp mem
    exact (inner shape shapeMem).opened.2 member mem
  have membersSome : members ≠ [] := by
    obtain ⟨shape, shapeMem⟩ := List.exists_mem_of_ne_nil shapes some
    rw [ne_eq, List.flatMap_eq_nil_iff]
    exact fun none => (inner shape shapeMem).opened.1 (none shape shapeMem)
  have groupedFormed : ∀ member ∈ grouped, member.isUnion = false ∧ member.WellFormed := by
    intro member mem
    rcases mem_groupLiterals_iff.mp mem with ⟨rfl, -⟩ | ⟨mem, -⟩
    · exact ⟨rfl, wellFormed_dedupe _⟩
    · exact membersFormed member mem
  have kept : (dedupe equals grouped).Sublist grouped := dedupe_sublist equals grouped
  have keptSome : dedupe equals grouped ≠ [] :=
    dedupe_ne_nil equals (groupLiterals_ne_nil literals membersSome)
  rw [combine]
  split
  · rename_i single singleEq
    exact (groupedFormed single (kept.subset (singleEq ▸ List.mem_singleton_self single))).2
  · rename_i several
    refine .union ⟨?_, ?_, ?_, dedupe_apart equals_comm grouped⟩ ?_
    · have notNone : (dedupe equals grouped).length ≠ 0 := mt List.length_eq_zero_iff.mp keptSome
      have notOne : (dedupe equals grouped).length ≠ 1 := by
        rw [ne_eq, List.length_eq_one_iff]
        exact fun ⟨single, singleEq⟩ => several single singleEq
      change 2 ≤ (dedupe equals grouped).length
      omega
    · exact fun member mem => (groupedFormed member (kept.subset mem)).1
    · exact Nat.le_trans kept.countP_le (countP_groupLiterals literals members)
    · exact fun member mem => (groupedFormed member (kept.subset mem)).2

theorem wellFormed_unionShape {shapes : List Shape} (inner : ∀ shape ∈ shapes, shape.WellFormed) :
    (unionShape shapes).WellFormed := by
  rw [unionShape]
  split
  · exact .unknown
  · rename_i some
    exact wellFormed_combine (by simpa using some) inner

end Shape

end PropValidators
