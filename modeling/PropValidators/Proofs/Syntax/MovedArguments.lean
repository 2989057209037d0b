import PropValidators.Proofs.Syntax.Respelling

/-!
# Type arguments moved to their second key

The list of type arguments at one node is taken from the field that its kind declares and put under
the second key.  If the node is sound and has no list there already, it is respelled by that.
-/

namespace PropValidators.Ast

/-- A node with its type arguments moved from the first key to the second. -/
def Node.moveArguments (n : Node) (spelling : Spelling) : Node :=
  ⟨n.type, n.fields.filter (fun field => field.1 != .declared spelling.first) ++
    (n.field? (.declared spelling.first)).toList.map fun value =>
      (.unknown spelling.second, value)⟩

section Move

variable {n : Node} {spelling : Spelling}

private theorem find?_filter_ne {fields : List (FieldName × Value)} {gone name : FieldName} :
    (fields.filter fun field => field.1 != gone).find? (fun field => field.1 == name) =
      if name = gone then none else fields.find? fun field => field.1 == name := by
  rw [List.find?_filter]
  split
  · rename_i isGone
    rw [List.find?_eq_none]
    simp [isGone]
  · rename_i notGone
    congr 1
    funext field
    by_cases same : field.1 = name
    · simp [same, notGone]
    · simp [same]

theorem Node.field?_moveArguments (n : Node) (spelling : Spelling) (name : FieldName) :
    (n.moveArguments spelling).field? name =
      (if name = .declared spelling.first then none else n.field? name).or
        (if name = .unknown spelling.second then n.field? (.declared spelling.first)
          else none) := by
  have moved : ∀ held : Option Value,
      ((held.toList.map fun value => (FieldName.unknown spelling.second, value)).find?
        fun field => field.1 == name).map Prod.snd =
        if name = .unknown spelling.second then held else none := by
    intro held
    by_cases isSecond : name = .unknown spelling.second
    · cases held <;> simp [isSecond]
    · cases held <;> simp [Ne.symm isSecond, isSecond]
  rw [field?, moveArguments, List.find?_append, find?_filter_ne, Option.map_or, moved]
  congr 1
  split <;> rfl

theorem Node.notMem_of_field?_eq_none {name : FieldName} (absent : n.field? name = none) :
    name ∉ n.fields.map Prod.fst := by
  intro mem
  obtain ⟨field, fieldMem, rfl⟩ := List.mem_map.mp mem
  rw [field?, Option.map_eq_none_iff, List.find?_eq_none] at absent
  exact absent field fieldMem (beq_self_eq_true _)

theorem Node.map_fst_moveArguments (n : Node) (spelling : Spelling) :
    (n.moveArguments spelling).fields.map Prod.fst =
      (n.fields.map Prod.fst).filter (fun name => name != .declared spelling.first) ++
        ((n.field? (.declared spelling.first)).toList.map fun _ => spelling.second).map
          .unknown := by
  rw [moveArguments, List.map_append, List.filter_map, List.map_map, List.map_map]
  rfl

/-- The second key is neither that of the type nor the key or the label of a declared field. -/
theorem Kind.second_unknown {kind : Kind} {spelling : Spelling}
    (spelled : kind.spelling? = some spelling) (keys : List String) :
    spelling.second ≠ "type" ∧ specFor? kind keys spelling.second = none := by
  rw [Kind.spelling?.eq_def] at spelled
  split at spelled <;> cases spelled <;>
    · constructor
      · decide
      · rfl

theorem Kind.not_required_first {kind : Kind} {spelling : Spelling}
    (spelled : kind.spelling? = some spelling) {spec : FieldSpec} (mem : spec ∈ kind.fields)
    (isFirst : spec.key = spelling.first) : spec.type.required = false := by
  have typeEq := Kind.typeOfField?_first spelled
  rw [typeOfField?, ← isFirst, specOfKey?_of_mem mem, Option.map_some, Option.some.injEq] at typeEq
  rw [typeEq]
  rfl

/-- An unknown field stays unknown when a declared field with another label is gone. -/
theorem specFor?_eq_none_of_gone {kind : Kind} {keys more : List String} {key : String}
    (gone : String)
    (unlabelled : ∀ spec, kind.specOfLabel? key = some spec → spec.key ≠ gone)
    (others : ∀ other ∈ keys, other ≠ gone → other ∈ more)
    (unknown : specFor? kind keys key = none) : specFor? kind more key = none := by
  rw [specFor?] at unknown ⊢
  cases found : kind.specOfKey? key with
  | some spec =>
      rw [found] at unknown
      cases unknown
  | none =>
      rw [found] at unknown
      simp only [Option.filter_eq_none_iff, Bool.not_eq_true, Bool.not_eq_false',
        List.contains_iff_mem] at unknown ⊢
      exact fun spec labelled => others _ (unknown spec labelled) (unlabelled spec labelled)

/-- Without one of them, the declared fields that are there are the others. -/
theorem filter_declared_ne (specs : List FieldSpec) (present : FieldSpec → Bool) (gone : String) :
    ((specs.filter present).map fun spec => FieldName.declared spec.key).filter
        (fun name => name != .declared gone) =
      (specs.filter fun spec => present spec && spec.key != gone).map
        fun spec => .declared spec.key := by
  rw [List.filter_map, List.filter_filter]
  congr 2
  funext spec
  rw [Bool.and_comm, Function.comp_apply]
  congr 1
  rw [Bool.eq_iff_iff, bne_iff_ne, bne_iff_ne, ne_eq, ne_eq, FieldName.declared.injEq]

private theorem filter_unknown_ne (keys : List String) (gone : String) :
    (keys.map FieldName.unknown).filter (fun name => name != .declared gone) =
      keys.map .unknown := by
  simp

/-- A key that is the label of a declared field is what the kind calls this field. -/
theorem Kind.labelOf_of_specOfLabel? {kind : Kind} {key : String} {spec : FieldSpec}
    (labelled : kind.specOfLabel? key = some spec) : kind.labelOf (.declared spec.key) = key := by
  have labelEq : spec.label = key := by simpa using List.find?_some labelled
  rw [labelOf, specOfKey?_of_mem (List.mem_of_find?_eq_some labelled), Option.map_some,
    Option.getD_some, labelEq]

/-- The layout stays that of the kind, unless an unknown field has the label of the declared one
that is left. -/
theorem layout_moveArguments (layout : Layout n.kind (n.fields.map Prod.fst))
    (spelled : n.kind.spelling? = some spelling)
    (only : n.field? (.unknown spelling.second) = none)
    (unlabelled : n.field? (.unknown (n.kind.labelOf (.declared spelling.first))) = none) :
    Layout n.kind ((n.moveArguments spelling).fields.map Prod.fst) := by
  have secondAbsent := Node.notMem_of_field?_eq_none only
  have labelAbsent := Node.notMem_of_field?_eq_none unlabelled
  rw [Node.map_fst_moveArguments]
  obtain ⟨present, unknown, namesEq, required, distinct, apart⟩ := layout
  have unknownMem : ∀ key, .unknown key ∈ n.fields.map Prod.fst ↔ key ∈ unknown := by
    intro key
    rw [namesEq]
    simp
  refine ⟨fun spec => present spec && spec.key != spelling.first,
    unknown ++ (n.field? (.declared spelling.first)).toList.map fun _ => spelling.second,
    ?_, ?_, ?_, ?_⟩
  · rw [namesEq, List.filter_append, List.map_append, List.append_assoc, filter_declared_ne,
      filter_unknown_ne]
  · intro spec mem isRequired
    dsimp only
    rw [required spec mem isRequired, Bool.true_and, bne_iff_ne]
    intro isFirst
    rw [Kind.not_required_first spelled mem isFirst] at isRequired
    cases isRequired
  · cases n.field? (.declared spelling.first) with
    | none => simpa using distinct
    | some value =>
        rw [Option.toList_some, List.map_singleton, List.nodup_append_comm, List.singleton_append,
          List.nodup_cons]
        exact ⟨fun mem => secondAbsent ((unknownMem _).mpr mem), distinct⟩
  · intro key mem
    rcases List.mem_append.mp mem with old | new
    · refine ⟨(apart key old).1, specFor?_eq_none_of_gone spelling.first ?_ ?_ (apart key old).2⟩
      · intro spec labelled isFirst
        rw [← isFirst, Kind.labelOf_of_specOfLabel? labelled] at labelAbsent
        exact labelAbsent ((unknownMem key).mpr old)
      · intro _ keyMem notFirst
        obtain ⟨name, nameMem, rfl⟩ := List.mem_map.mp keyMem
        apply List.mem_map_of_mem
        apply List.mem_append_left
        rw [List.mem_filter, bne_iff_ne]
        refine ⟨nameMem, ?_⟩
        rintro rfl
        exact notFirst rfl
    · obtain ⟨value, -, rfl⟩ := List.mem_map.mp new
      exact Kind.second_unknown spelled _

/-- A sound node that carries its type arguments under the first key only is respelled by moving
them. -/
theorem Node.Sound.respelled_moveArguments (sound : n.Sound)
    (spelled : n.kind.spelling? = some spelling)
    (only : n.field? (.unknown spelling.second) = none)
    (unlabelled : n.field? (.unknown (n.kind.labelOf (.declared spelling.first))) = none) :
    n.Respelled (n.moveArguments spelling) := by
  refine .moved rfl (layout_moveArguments sound.layout spelled only unlabelled) spelled only
    ?_ ?_ ?_
  · rw [field?_moveArguments, if_pos rfl, if_neg (by simp)]
    rfl
  · rw [field?_moveArguments, if_neg (by simp), if_pos rfl, only]
    exact rel_fields n.fields sound.soundFields _
  · intro name notFirst notSecond
    rw [field?_moveArguments, if_neg notFirst, if_neg notSecond]
    rw [Option.or_none]
    exact rel_fields n.fields sound.soundFields name

end Move

end PropValidators.Ast
