import PropValidators.Proofs.Syntax.Parts

/-!
# Setting fields

Setting a field changes that field and no other, and a sound node stays sound when a
declared field is set to something that fits there.  A field that was there keeps its
position; one that was not is put before the first field of higher rank, which is where the
kind wants it.
-/

namespace PropValidators.Ast

namespace Node

@[simp]
theorem find?_putField_self (kind : Kind) (name : FieldName) (value : Value)
    (fields : List (FieldName × Value)) :
    (putField kind name value fields).find? (fun field => field.1 == name) =
      some (name, value) := by
  induction fields with
  | nil => simp [putField]
  | cons field fields ih =>
      obtain ⟨other, held⟩ := field
      rw [putField]
      split
      · simp
      · rename_i notSame
        split
        · simp
        · rw [List.find?_cons, beq_eq_false_iff_ne.mpr notSame]
          exact ih

private theorem find?_putField_of_ne {kind : Kind} {name other : FieldName} (ne : other ≠ name)
    (value : Value) (fields : List (FieldName × Value)) :
    (putField kind name value fields).find? (fun field => field.1 == other) =
      fields.find? fun field => field.1 == other := by
  have notName : (name == other) = false := beq_eq_false_iff_ne.mpr ne.symm
  induction fields with
  | nil => simp [putField, notName]
  | cons field fields ih =>
      obtain ⟨head, held⟩ := field
      rw [putField]
      split
      · rename_i same
        rw [List.find?_cons, List.find?_cons, same, notName]
      · split
        · rw [List.find?_cons, notName]
        · rw [List.find?_cons, List.find?_cons, ih]

/-- The last of two values is kept. -/
@[simp]
theorem putField_putField (kind : Kind) (name : FieldName) (value other : Value)
    (fields : List (FieldName × Value)) :
    putField kind name value (putField kind name other fields) =
      putField kind name value fields := by
  induction fields with
  | nil => simp [putField]
  | cons field fields ih =>
      obtain ⟨head, held⟩ := field
      rw [putField.eq_def kind name other, putField.eq_def kind name value ((head, held) :: fields)]
      dsimp only
      split
      · rw [putField, if_pos rfl]
      · rename_i notSame
        split
        · rw [putField, if_pos rfl]
        · rename_i notLower
          rw [putField, if_neg notSame, if_neg notLower, ih]

/-- All other fields stay, and they stay in their order. -/
@[simp]
theorem filter_putField (kind : Kind) (name : FieldName) (value : Value)
    (fields : List (FieldName × Value)) :
    (putField kind name value fields).filter (fun field => field.1 != name) =
      fields.filter fun field => field.1 != name := by
  induction fields with
  | nil => simp [putField]
  | cons field fields ih =>
      obtain ⟨head, held⟩ := field
      rw [putField]
      split
      · rename_i same
        rw [List.filter_cons_of_neg (by simp), List.filter_cons_of_neg (by simp [same])]
      · split
        · rw [List.filter_cons_of_neg (by simp)]
        · rw [List.filter_cons, List.filter_cons, ih]

@[simp]
theorem type_setField (n : Node) (name : FieldName) (value : Value) :
    (n.setField name value).type = n.type :=
  rfl

@[simp]
theorem kind_setField (n : Node) (name : FieldName) (value : Value) :
    (n.setField name value).kind = n.kind :=
  rfl

@[simp]
theorem field?_setField_self (n : Node) (name : FieldName) (value : Value) :
    (n.setField name value).field? name = some value := by
  rw [field?, setField, find?_putField_self]
  rfl

theorem field?_setField_of_ne {name other : FieldName} (ne : other ≠ name) (n : Node)
    (value : Value) : (n.setField name value).field? other = n.field? other := by
  rw [field?, field?, setField, find?_putField_of_ne ne]

@[simp]
theorem setField_setField (n : Node) (name : FieldName) (value other : Value) :
    (n.setField name other).setField name value = n.setField name value := by
  rw [setField, kind_setField, setField, putField_putField, setField]

/-- A field that was set holds what it was set to. -/
@[simp]
theorem held?_setField_self (n : Node) (name : FieldName) (value : Value) :
    (n.setField name value).held? name = some value := by
  cases name with
  | declared key =>
      rw [held?, get?, field?_setField_self]
      rfl
  | unknown key => exact field?_setField_self n _ value

@[simp]
theorem type_set (n : Node) (key : String) (value : Value) : (n.set key value).type = n.type :=
  rfl

@[simp]
theorem kind_set (n : Node) (key : String) (value : Value) : (n.set key value).kind = n.kind :=
  rfl

@[simp]
theorem get?_set_self (n : Node) (key : String) (value : Value) :
    (n.set key value).get? key = some value :=
  field?_setField_self n _ value

theorem get?_set_of_ne {key other : String} (ne : other ≠ key) (n : Node) (value : Value) :
    (n.set key value).get? other = n.get? other :=
  field?_setField_of_ne (fun same => ne (FieldName.declared.inj same)) n value

theorem rank_lt_of_pairwise (kind : Kind) :
    kind.fields.Pairwise fun first second =>
      rank kind (.declared first.key) < rank kind (.declared second.key) := by
  cases kind <;> decide

theorem rank_declared_lt_unknown {kind : Kind} {spec : FieldSpec} (mem : spec ∈ kind.fields)
    (key : String) : rank kind (.declared spec.key) < rank kind (.unknown key) := by
  have below : ∀ spec ∈ kind.fields,
      rank kind (.declared spec.key) < 1 + kind.fields.length := by
    cases kind <;> decide
  exact below spec mem

/-- The fields of a node stand in the order of their ranks. -/
theorem pairwise_rank_of_layout {kind : Kind} {names : List FieldName}
    (layout : Layout kind names) :
    names.Pairwise fun first second => rank kind first ≤ rank kind second := by
  obtain ⟨present, unknown, rfl, -⟩ := layout
  rw [List.pairwise_append]
  refine ⟨?_, ?_, ?_⟩
  · rw [List.pairwise_map]
    exact ((rank_lt_of_pairwise kind).sublist List.filter_sublist).imp le_of_lt
  · rw [List.pairwise_map]
    exact List.pairwise_of_forall fun _ _ => le_refl _
  · intro first firstMem second secondMem
    obtain ⟨spec, specMem, rfl⟩ := List.mem_map.mp firstMem
    obtain ⟨key, -, rfl⟩ := List.mem_map.mp secondMem
    exact le_of_lt (rank_declared_lt_unknown (List.mem_filter.mp specMem).1 key)

/-- A field that is there is changed in its place. -/
theorem exists_putField_of_mem {kind : Kind} {name : FieldName}
    {fields : List (FieldName × Value)}
    (order : (fields.map Prod.fst).Pairwise fun first second =>
      rank kind first ≤ rank kind second)
    (mem : name ∈ fields.map Prod.fst) (value : Value) :
    ∃ before old after, fields = before ++ (name, old) :: after ∧
      fields.find? (fun field => field.1 == name) = some (name, old) ∧
      putField kind name value fields = before ++ (name, value) :: after := by
  induction fields with
  | nil => cases mem
  | cons field fields ih =>
      obtain ⟨other, held⟩ := field
      rw [List.map_cons, List.pairwise_cons] at order
      by_cases same : other = name
      · subst same
        refine ⟨[], held, fields, rfl, by simp, ?_⟩
        rw [putField, if_pos rfl]
        rfl
      · have memRest : name ∈ fields.map Prod.fst := by
          rcases List.mem_cons.mp mem with head | rest
          · exact absurd head.symm same
          · exact rest
        obtain ⟨before, old, after, rfl, found, eq⟩ := ih order.2 memRest
        refine ⟨(other, held) :: before, old, after, rfl, ?_, ?_⟩
        · rw [List.find?_cons, beq_eq_false_iff_ne.mpr same]
          exact found
        · rw [putField, if_neg same, if_neg (Nat.not_lt.mpr (order.1 name memRest)), eq]
          rfl

/-- A field that is not there is put between others. -/
theorem exists_putField_of_notMem {kind : Kind} {name : FieldName}
    {fields : List (FieldName × Value)} (notMem : name ∉ fields.map Prod.fst) (value : Value) :
    ∃ before after, fields = before ++ after ∧
      putField kind name value fields = before ++ (name, value) :: after := by
  induction fields with
  | nil => exact ⟨[], [], rfl, rfl⟩
  | cons field fields ih =>
      obtain ⟨other, held⟩ := field
      rw [List.map_cons, List.mem_cons, not_or] at notMem
      by_cases lower : rank kind name < rank kind other
      · refine ⟨[], (other, held) :: fields, rfl, ?_⟩
        rw [putField, if_neg (Ne.symm notMem.1), if_pos lower]
        rfl
      · obtain ⟨before, after, rfl, eq⟩ := ih notMem.2
        refine ⟨(other, held) :: before, after, rfl, ?_⟩
        rw [putField, if_neg (Ne.symm notMem.1), if_neg lower, eq]
        rfl

private theorem map_fst_putField_of_mem {kind : Kind} {name : FieldName}
    {fields : List (FieldName × Value)} (layout : Layout kind (fields.map Prod.fst))
    (mem : name ∈ fields.map Prod.fst) (value : Value) :
    (putField kind name value fields).map Prod.fst = fields.map Prod.fst := by
  obtain ⟨before, old, after, rfl, -, eq⟩ :=
    exists_putField_of_mem (pairwise_rank_of_layout layout) mem value
  rw [eq, List.map_append, List.map_append, List.map_cons, List.map_cons]

/-- A field of lower rank than all others is put before them. -/
theorem putField_of_lower {kind : Kind} {name : FieldName} {fields : List (FieldName × Value)}
    (lower : ∀ other ∈ fields.map Prod.fst, rank kind name < rank kind other) (value : Value) :
    putField kind name value fields = (name, value) :: fields := by
  cases fields with
  | nil => rfl
  | cons field fields =>
      obtain ⟨other, held⟩ := field
      have lowerHead := lower other List.mem_cons_self
      have notSame : other ≠ name := by
        rintro rfl
        exact lt_irrefl _ lowerHead
      rw [putField, if_neg notSame, if_pos lowerHead]

/-- A declared field that is not there is put where the kind wants it. -/
theorem map_fst_putField_of_absent {kind : Kind} {spec : FieldSpec} {value : Value}
    {unknown : List String} {specs : List FieldSpec} {present : FieldSpec → Bool}
    (specMem : spec ∈ specs) (declared : ∀ other ∈ specs, other ∈ kind.fields)
    (order : specs.Pairwise fun first second =>
      rank kind (.declared first.key) < rank kind (.declared second.key))
    (absent : present spec = false) {fields : List (FieldName × Value)}
    (names : fields.map Prod.fst =
      (specs.filter present).map (fun spec => .declared spec.key) ++ unknown.map .unknown) :
    (putField kind (.declared spec.key) value fields).map Prod.fst =
      (specs.filter fun other => present other || other == spec).map
        (fun spec => .declared spec.key) ++ unknown.map .unknown := by
  induction specs generalizing fields with
  | nil => cases specMem
  | cons other specs ih =>
      rw [List.pairwise_cons] at order
      rw [List.forall_mem_cons] at declared
      by_cases same : other = spec
      · subst same
        have notOther : ∀ later ∈ specs, (present later || later == other) = present later := by
          intro later mem
          have notSame : (later == other) = false := by
            rw [beq_eq_false_iff_ne]
            rintro rfl
            exact lt_irrefl _ (order.1 later mem)
          rw [notSame, Bool.or_false]
        rw [List.filter_cons_of_neg (by simp [absent])] at names
        rw [putField_of_lower, List.map_cons, List.filter_cons_of_pos (by simp),
          List.filter_congr notOther, List.map_cons, List.cons_append, ← names]
        intro name mem
        rw [names] at mem
        rcases List.mem_append.mp mem with inDeclared | inUnknown
        · obtain ⟨later, laterMem, rfl⟩ := List.mem_map.mp inDeclared
          exact order.1 later (List.mem_filter.mp laterMem).1
        · obtain ⟨key, -, rfl⟩ := List.mem_map.mp inUnknown
          exact rank_declared_lt_unknown declared.1 key
      · have specMemRest : spec ∈ specs := (List.mem_cons.mp specMem).resolve_left (Ne.symm same)
        have notSame : (other == spec) = false := beq_eq_false_iff_ne.mpr same
        cases presentEq : present other with
        | false =>
            rw [List.filter_cons_of_neg (by simp [presentEq])] at names
            rw [List.filter_cons_of_neg (by simp [presentEq, notSame])]
            exact ih specMemRest declared.2 order.2 names
        | true =>
            rw [List.filter_cons_of_pos presentEq] at names
            rw [List.filter_cons_of_pos (by simp [presentEq])]
            cases fields with
            | nil => cases names
            | cons field fields =>
                obtain ⟨name, held⟩ := field
                rw [List.map_cons, List.map_cons, List.cons_append, List.cons.injEq] at names
                obtain ⟨rfl, restNames⟩ := names
                have lower := order.1 spec specMemRest
                have notName : FieldName.declared other.key ≠ .declared spec.key := by
                  intro keyEq
                  rw [keyEq] at lower
                  exact lt_irrefl _ lower
                rw [putField, if_neg notName, if_neg (Nat.not_lt.mpr (le_of_lt lower)),
                  List.map_cons, ih specMemRest declared.2 order.2 restNames, List.map_cons,
                  List.cons_append]

/-- Setting a declared field keeps to the layout of the kind. -/
theorem layout_putField {kind : Kind} {spec : FieldSpec} {fields : List (FieldName × Value)}
    (layout : Layout kind (fields.map Prod.fst)) (specMem : spec ∈ kind.fields) (value : Value) :
    Layout kind ((putField kind (.declared spec.key) value fields).map Prod.fst) := by
  by_cases mem : .declared spec.key ∈ fields.map Prod.fst
  · rw [map_fst_putField_of_mem layout mem]
    exact layout
  · obtain ⟨present, unknown, namesEq, required, distinct, apart⟩ := layout
    have absent : present spec = false := by
      rw [← Bool.not_eq_true]
      intro isPresent
      apply mem
      rw [namesEq]
      apply List.mem_append_left
      exact List.mem_map.mpr ⟨spec, List.mem_filter.mpr ⟨specMem, isPresent⟩, rfl⟩
    have names : (putField kind (.declared spec.key) value fields).map Prod.fst = _ :=
      map_fst_putField_of_absent specMem (fun _ => id) (rank_lt_of_pairwise kind) absent namesEq
    refine ⟨_, unknown, names, ?_, distinct, ?_⟩
    · intro other otherMem otherRequired
      rw [required other otherMem otherRequired, Bool.true_or]
    · intro key keyMem
      refine ⟨(apart key keyMem).1, specFor?_eq_none_of_subset ?_ (apart key keyMem).2⟩
      obtain ⟨before, after, split, eq⟩ := exists_putField_of_notMem mem value
      rw [eq, split, List.map_append, List.map_append, List.map_append, List.map_append,
        List.map_cons, List.map_cons]
      intro other otherMem
      rcases List.mem_append.mp otherMem with inBefore | inAfter
      · exact List.mem_append_left _ inBefore
      · exact List.mem_append_right _ (List.mem_cons_of_mem _ inAfter)

private theorem mem_putField {kind : Kind} {name : FieldName} {value : Value}
    {fields : List (FieldName × Value)} {field : FieldName × Value}
    (mem : field ∈ putField kind name value fields) : field = (name, value) ∨ field ∈ fields := by
  induction fields with
  | nil => exact .inl (List.mem_singleton.mp mem)
  | cons head fields ih =>
      obtain ⟨other, held⟩ := head
      rw [putField] at mem
      split at mem
      · rcases List.mem_cons.mp mem with self | rest
        · exact .inl self
        · exact .inr (List.mem_cons_of_mem _ rest)
      · split at mem
        · rcases List.mem_cons.mp mem with self | rest
          · exact .inl self
          · exact .inr rest
        · rcases List.mem_cons.mp mem with self | rest
          · exact .inr (self ▸ List.mem_cons_self)
          · rcases ih rest with self | inRest
            · exact .inl self
            · exact .inr (List.mem_cons_of_mem _ inRest)

/-- A sound node with a declared field set to something that fits there is sound. -/
theorem Sound.set {n : Node} (sound : n.Sound) {key : String} {spec : FieldSpec} {value : Value}
    (specEq : n.kind.specOfKey? key = some spec) (fits : value.Fits (some spec.type)) :
    (n.set key value).Sound := by
  have keyEq := Kind.key_of_specOfKey? specEq
  rw [Node.sound_iff, kind_set]
  constructor
  · rw [← keyEq]
    exact layout_putField sound.layout (Kind.mem_of_specOfKey? specEq) value
  · intro field mem
    rcases mem_putField mem with rfl | old
    · rw [Kind.typeOfField?, specEq]
      exact fits
    · exact (Node.sound_iff.mp sound).2 field old

end Node

end PropValidators.Ast
