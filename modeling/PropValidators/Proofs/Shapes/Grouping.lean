import PropValidators.Proofs.Shapes.WellFormed

/-!
# Grouped alternatives

Alternatives may be combined in groups.  What a group is combined to is opened again where it is
one of several alternatives, and all literals come together then as if there had been no group.

All sets of literals end up as one, in the place of the first, so they count as alike here.  What
alternatives are combined to is told in two steps then: of shapes that are alike only the first is
kept, and the set of literals that is left is made that of all literals.
-/

namespace PropValidators

namespace Shape

/-- Whether two shapes are sets of literals, or equal. -/
def alike (s t : Shape) : Bool :=
  if s.isOneOf then t.isOneOf else s.equals t

/-- A shape with other values in it, if it is a set of literals. -/
def withLiterals (literals : List Literal) (shape : Shape) : Shape :=
  if shape.isOneOf then .oneOf literals else shape

theorem equals_eq_false_of_isOneOf {s t : Shape} (ne : s.isOneOf ≠ t.isOneOf) :
    s.equals t = false :=
  Bool.eq_false_iff.mpr fun equal => ne (isOneOf_eq_of_equals equal)

theorem withLiterals_of_set {shape : Shape} (isSet : shape.isOneOf = true)
    (literals : List Literal) : shape.withLiterals literals = .oneOf literals :=
  if_pos isSet

theorem withLiterals_of_other {shape : Shape} (notSet : shape.isOneOf = false)
    (literals : List Literal) : shape.withLiterals literals = shape :=
  if_neg (Bool.eq_false_iff.mp notSet)

@[simp]
theorem isOneOf_withLiterals (literals : List Literal) (shape : Shape) :
    (shape.withLiterals literals).isOneOf = shape.isOneOf := by
  cases isSet : shape.isOneOf with
  | true =>
      rw [withLiterals_of_set isSet]
      rfl
  | false => rw [withLiterals_of_other isSet, isSet]

@[simp]
theorem withLiterals_withLiterals (literals others : List Literal) (shape : Shape) :
    (shape.withLiterals others).withLiterals literals = shape.withLiterals literals := by
  cases isSet : shape.isOneOf with
  | true => rw [withLiterals_of_set isSet, withLiterals_of_set isSet, withLiterals_of_set rfl]
  | false => rw [withLiterals_of_other isSet]

/-- Being alike is being equal, but for pairs of sets. -/
theorem alike_eq_equals {s t : Shape} (notBoth : ¬ (s.isOneOf = true ∧ t.isOneOf = true)) :
    s.alike t = s.equals t := by
  rw [alike]
  split
  · rename_i isSet
    have other : t.isOneOf = false := Bool.eq_false_iff.mpr fun both => notBoth ⟨isSet, both⟩
    have ne : s.isOneOf ≠ t.isOneOf := by
      rw [isSet, other]
      exact Bool.false_ne_true.symm
    rw [other, equals_eq_false_of_isOneOf ne]
  · rfl

theorem isOneOf_eq_of_alike {s t : Shape} (agree : s.alike t = true) :
    s.isOneOf = t.isOneOf := by
  rw [alike] at agree
  split at agree
  · rename_i isSet
    rw [isSet, agree]
  · exact isOneOf_eq_of_equals agree

/-- Shapes that are alike are so to the same shapes. -/
theorem alike_congr (s t : Shape) (agree : s.alike t = true) (r : Shape) :
    s.alike r = t.alike r := by
  rw [alike] at agree
  split at agree
  · rename_i isSet
    rw [alike, alike, isSet, agree]
    rfl
  · rename_i notSet
    rw [alike, alike, ← isOneOf_eq_of_equals agree, if_neg notSet, if_neg notSet,
      equals_congr_of_equals agree]

@[simp]
theorem alike_withLiterals (literals : List Literal) (s t : Shape) :
    (s.withLiterals literals).alike (t.withLiterals literals) = s.alike t := by
  rw [alike, alike, isOneOf_withLiterals, isOneOf_withLiterals]
  cases sSet : s.isOneOf with
  | true => rfl
  | false =>
      rw [withLiterals_of_other sSet]
      cases tSet : t.isOneOf with
      | true =>
          have ne : s.isOneOf ≠ (t.withLiterals literals).isOneOf := by
            rw [isOneOf_withLiterals, sSet, tSet]
            exact Bool.false_ne_true
          have neOld : s.isOneOf ≠ t.isOneOf := by
            rwa [isOneOf_withLiterals] at ne
          rw [equals_eq_false_of_isOneOf ne, equals_eq_false_of_isOneOf neOld]
      | false => rw [withLiterals_of_other tSet]

/-- No two sets of literals are left where literals are grouped. -/
theorem groupLiterals_pairwise (grouped : Shape) (members : List Shape) :
    (groupLiterals grouped members).Pairwise fun s t =>
      ¬ (s.isOneOf = true ∧ t.isOneOf = true) := by
  fun_induction groupLiterals grouped members with
  | case1 => exact List.Pairwise.nil
  | case2 values rest =>
      have others : ∀ t ∈ rest.filter fun s => !s.isOneOf, t.isOneOf = false := by
        intro t mem
        simpa using (List.mem_filter.mp mem).2
      refine List.pairwise_cons.mpr ⟨fun t mem both => ?_, ?_⟩
      · rw [others t mem] at both
        exact Bool.false_ne_true both.2
      · refine List.pairwise_of_forall_mem_list fun s sMem t _ both => ?_
        rw [others s sMem] at both
        exact Bool.false_ne_true both.1
  | case3 first rest notOneOf ih =>
      have other : first.isOneOf = false := isOneOf_eq_false notOneOf
      refine List.pairwise_cons.mpr ⟨fun t _ both => ?_, ih⟩
      rw [other] at both
      exact Bool.false_ne_true both.1

/-- Once a set of literals is kept, all others are repetitions. -/
theorem foldl_keepNew_of_set {literals : List Literal} {kept : List Shape}
    (set : ∃ s ∈ kept, s.isOneOf = true) (members : List Shape) :
    (members.map (withLiterals literals)).foldl (keepNew alike) kept =
      (members.filter fun s => !s.isOneOf).foldl (keepNew alike) kept := by
  induction members generalizing kept with
  | nil => rfl
  | cons member members ih =>
      obtain ⟨s, mem, sSet⟩ := set
      rw [List.map_cons, List.foldl_cons]
      cases isSet : member.isOneOf with
      | true =>
          have repeated : s.alike (member.withLiterals literals) = true := by
            rw [alike, if_pos sSet, isOneOf_withLiterals, isSet]
          rw [keepNew_of_mem mem repeated, List.filter_cons_of_neg (by simp [isSet])]
          exact ih ⟨s, mem, sSet⟩
      | false =>
          rw [withLiterals_of_other isSet, List.filter_cons_of_pos (by simp [isSet]),
            List.foldl_cons]
          exact ih ⟨s, (sublist_keepNew alike kept member).subset mem, sSet⟩

private theorem foldl_keepNew_groupLiterals (literals : List Literal) (members kept : List Shape) :
    (groupLiterals (.oneOf literals) members).foldl (keepNew alike) kept =
      (members.map (withLiterals literals)).foldl (keepNew alike) kept := by
  fun_induction groupLiterals (.oneOf literals) members generalizing kept with
  | case1 => rfl
  | case2 values rest =>
      -- Grouping drops the later sets; on the other side they are repetitions of the one kept.
      obtain ⟨s, mem, eq⟩ := exists_mem_keepNew alike kept (.oneOf literals)
      have set : s.isOneOf = true := by
        rcases eq with rfl | eq
        · rfl
        · exact isOneOf_eq_of_alike eq
      rw [List.map_cons, List.foldl_cons, List.foldl_cons, withLiterals_of_set rfl,
        foldl_keepNew_of_set ⟨s, mem, set⟩]
  | case3 first rest notOneOf ih =>
      have other : first.isOneOf = false := isOneOf_eq_false notOneOf
      rw [List.map_cons, List.foldl_cons, List.foldl_cons, withLiterals_of_other other, ih]

/-- Of the alternatives that are alike the first ones are the members, and the set of literals
among them is that of all literals. -/
@[simp]
theorem dedupe_groupLiterals (literals : List Literal) (members : List Shape) :
    dedupe equals (groupLiterals (.oneOf literals) members) =
      (dedupe alike members).map (withLiterals literals) := by
  -- Where literals are grouped no two sets are compared, so it is all the same to call them alike.
  have agree := (groupLiterals_pairwise (.oneOf literals) members).imp
    fun notBoth => (alike_eq_equals notBoth).symm
  rw [dedupe_congr agree, dedupe_eq, foldl_keepNew_groupLiterals, ← dedupe_eq,
    dedupe_map (alike_withLiterals literals)]

/-- The shape of members: a single one stands for itself. -/
def ofMembers : List Shape → Shape
  | [single] => single
  | members => .union members

/-- The literal values of alternatives, each once. -/
def gatheredLiterals (members : List Shape) : List Literal :=
  dedupe Literal.same (members.flatMap values)

/-- The members that alternatives are combined to. -/
def gatheredMembers (members : List Shape) : List Shape :=
  (dedupe alike members).map (withLiterals (gatheredLiterals members))

theorem combine_eq (shapes : List Shape) :
    combine shapes = ofMembers (gatheredMembers (shapes.flatMap alternatives)) := by
  rw [combine, dedupe_groupLiterals]
  rfl

/-- Whether the alternatives of a shape are no unions. -/
def IsFlat (shape : Shape) : Prop :=
  ∀ member ∈ shape.alternatives, member.isUnion = false

private theorem alternatives_ofMembers {members : List Shape}
    (flat : ∀ member ∈ members, member.isUnion = false) :
    (ofMembers members).alternatives = members := by
  rw [ofMembers.eq_def]
  split
  · rename_i single
    cases single with
    | union inner => cases flat _ (List.mem_singleton_self _)
    | _ => rfl
  · rfl

theorem values_of_other {shape : Shape} (notSet : shape.isOneOf = false) : shape.values = [] := by
  cases shape with
  | oneOf values => cases notSet
  | _ => rfl

/-- Of members that are not alike, one at most has literal values. -/
theorem flatMap_values_withLiterals (literals : List Literal) {members : List Shape}
    (apart : members.Pairwise fun s t => s.alike t = false) :
    (members.map (withLiterals literals)).flatMap values =
      if members.any isOneOf then literals else [] := by
  induction members with
  | nil => rfl
  | cons member members ih =>
      rw [List.pairwise_cons] at apart
      rw [List.map_cons, List.flatMap_cons, ih apart.2, List.any_cons]
      cases isSet : member.isOneOf with
      | true =>
          have others : members.any isOneOf = false := by
            rw [List.any_eq_false]
            intro other mem otherSet
            have notAlike := apart.1 other mem
            rw [alike, if_pos isSet, otherSet] at notAlike
            cases notAlike
          rw [withLiterals_of_set isSet, others, Bool.true_or]
          exact List.append_nil literals
      | false =>
          rw [withLiterals_of_other isSet, values_of_other isSet, Bool.false_or, List.nil_append]

/-- The literal values of gathered members are those that were gathered. -/
@[simp]
theorem flatMap_values_gatheredMembers (members : List Shape) :
    (gatheredMembers members).flatMap values = gatheredLiterals members := by
  rw [gatheredMembers, flatMap_values_withLiterals _ (dedupe_pairwise alike members)]
  split
  · rfl
  · rename_i none
    have noValues : ∀ member ∈ members, member.values = [] := by
      intro member mem
      obtain ⟨kept, keptMem, eq⟩ := exists_mem_dedupe alike mem
      have notSet : kept.isOneOf = false :=
        Bool.eq_false_iff.mpr fun isSet => none (List.any_eq_true.mpr ⟨kept, keptMem, isSet⟩)
      refine values_of_other ?_
      rcases eq with rfl | agree
      · exact notSet
      · rwa [← isOneOf_eq_of_alike agree]
    rw [gatheredLiterals, List.flatMap_eq_nil_iff.mpr noValues]
    rfl

@[simp]
theorem gatheredLiterals_grouped (before run after : List Shape) :
    gatheredLiterals (before ++ gatheredMembers run ++ after) =
      gatheredLiterals (before ++ run ++ after) := by
  rw [gatheredLiterals, gatheredLiterals, List.flatMap_append, List.flatMap_append,
    flatMap_values_gatheredMembers, List.flatMap_append, List.flatMap_append]
  exact dedupe_append_dedupe (fun _ _ => Literal.same_congr) _ _ _

/-- Members may be gathered in a part of the alternatives before they are gathered in all. -/
@[simp]
theorem gatheredMembers_grouped (before run after : List Shape) :
    gatheredMembers (before ++ gatheredMembers run ++ after) =
      gatheredMembers (before ++ run ++ after) := by
  let all := gatheredLiterals (before ++ run ++ after)
  -- What the set of the part holds is written over.
  have overwritten : (before ++ gatheredMembers run ++ after).map (withLiterals all) =
      (before ++ dedupe alike run ++ after).map (withLiterals all) := by
    simp only [gatheredMembers, List.map_append, List.map_map, Function.comp_def,
      withLiterals_withLiterals]
  calc gatheredMembers (before ++ gatheredMembers run ++ after)
    _ = dedupe alike ((before ++ gatheredMembers run ++ after).map (withLiterals all)) := by
      rw [gatheredMembers, gatheredLiterals_grouped, dedupe_map (alike_withLiterals all)]
    _ = (dedupe alike (before ++ dedupe alike run ++ after)).map (withLiterals all) := by
      rw [overwritten, dedupe_map (alike_withLiterals all)]
    _ = gatheredMembers (before ++ run ++ after) := by
      rw [dedupe_append_dedupe alike_congr, gatheredMembers]

@[simp]
theorem isUnion_withLiterals (literals : List Literal) (shape : Shape) :
    (shape.withLiterals literals).isUnion = shape.isUnion := by
  cases shape <;> rfl

private theorem isUnion_of_mem_gatheredMembers {members : List Shape}
    (flat : ∀ member ∈ members, member.isUnion = false) :
    ∀ member ∈ gatheredMembers members, member.isUnion = false := by
  rw [gatheredMembers, List.forall_mem_map]
  intro member mem
  rw [isUnion_withLiterals]
  exact flat member ((dedupe_sublist alike members).subset mem)

/-- Alternatives may be combined in groups before they are combined. -/
theorem combine_grouped {run : List Shape} (flat : ∀ shape ∈ run, shape.IsFlat)
    (before after : List Shape) :
    combine (before ++ combine run :: after) = combine (before ++ run ++ after) := by
  have opened : (combine run).alternatives = gatheredMembers (run.flatMap alternatives) := by
    rw [combine_eq, alternatives_ofMembers (isUnion_of_mem_gatheredMembers ?_)]
    rw [List.forall_mem_flatMap]
    exact flat
  rw [combine_eq (before ++ combine run :: after), combine_eq (before ++ run ++ after),
    List.flatMap_append, List.flatMap_cons, opened, ← List.append_assoc, gatheredMembers_grouped,
    List.flatMap_append, List.flatMap_append]

theorem unionShape_grouped {run : List Shape} (some : run ≠ [])
    (flat : ∀ shape ∈ run, shape.IsFlat) (before after : List Shape) :
    unionShape (before ++ unionShape run :: after) = unionShape (before ++ run ++ after) := by
  have runShape : unionShape run = combine run := by rw [unionShape, if_neg (by simpa using some)]
  rw [runShape, unionShape, if_neg (by simp), unionShape, if_neg (by simp [some]),
    combine_grouped flat]

theorem WellFormed.isFlat {shape : Shape} (formed : shape.WellFormed) : shape.IsFlat :=
  fun member mem => (formed.opened.2 member mem).1

end Shape

end PropValidators
