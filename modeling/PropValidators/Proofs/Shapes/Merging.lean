import PropValidators.Proofs.KeyedLists
import PropValidators.Proofs.Shapes.Distinct

/-!
# Merged fields

Of fields that are merged each name is left once: in the place where it came first, and with the
field that came last.  A list of fields with different names is told by the names in their order
and the field under each of them, so some of the groups may be merged before all are.

An intersection merges the fields of the object shapes in it.  What is no object shape is left
out, and so is a part of the intersection in which there is none.
-/

namespace PropValidators

/-- Fields under their names. -/
def named (fields : List Field) : List (String × Field) :=
  fields.map fun field => (field.name, field)

@[simp]
theorem keys_named (fields : List Field) : Assoc.keys (named fields) = fields.map Field.name := by
  rw [Assoc.keys, named, List.map_map]
  rfl

@[simp]
theorem get?_named (fields : List Field) (name : String) :
    Assoc.get? (named fields) name = fieldNamed? fields name := by
  rw [Assoc.get?, named, List.find?_map, Option.map_map, fieldNamed?]
  exact Option.map_id_apply

/-- Merged fields stand under their names. -/
@[simp]
theorem named_mergeFields (groups : List (List Field)) :
    named (mergeFields groups) = Assoc.ofPairs (named groups.flatten) := by
  have ownName : ∀ entry ∈ Assoc.ofPairs (named groups.flatten), entry.2.name = entry.1 := by
    apply Assoc.forall_mem_ofPairs
    exact List.forall_mem_map.mpr fun field _ => rfl
  calc (mergeFields groups).map (fun field => (field.name, field))
    _ = (Assoc.ofPairs (named groups.flatten)).map fun entry => (entry.2.name, entry.2) :=
      List.map_map
    _ = (Assoc.ofPairs (named groups.flatten)).map id :=
      List.map_congr_left fun entry mem => Prod.ext (ownName entry mem) rfl
    _ = Assoc.ofPairs (named groups.flatten) := List.map_id _

theorem mem_of_mem_mergeFields {groups : List (List Field)} {field : Field}
    (mem : field ∈ mergeFields groups) : ∃ group ∈ groups, field ∈ group := by
  have among : ∀ entry ∈ Assoc.ofPairs (named groups.flatten), entry.2 ∈ groups.flatten := by
    apply Assoc.forall_mem_ofPairs
    exact List.forall_mem_map.mpr fun field fieldMem => fieldMem
  obtain ⟨entry, entryMem, rfl⟩ := List.mem_map.mp mem
  exact List.mem_flatten.mp (among entry entryMem)

/-- The names stand in the order in which they came first. -/
@[simp]
theorem mergeFields_names (groups : List (List Field)) :
    (mergeFields groups).map Field.name = (groups.flatten.map Field.name).eraseDups := by
  rw [← keys_named, named_mergeFields, Assoc.keys_ofPairs, keys_named]

theorem nodup_mergeFields_names (groups : List (List Field)) :
    ((mergeFields groups).map Field.name).Nodup := by
  rw [← keys_named, named_mergeFields]
  exact Assoc.nodup_keys_ofPairs _

/-- Under each name stands the field that came last. -/
@[simp]
theorem fieldNamed?_mergeFields (groups : List (List Field)) (name : String) :
    fieldNamed? (mergeFields groups) name = fieldNamed? groups.flatten.reverse name := by
  rw [← get?_named, named_mergeFields, Assoc.get?_ofPairs, named, ← List.map_reverse, ← named,
    get?_named]

@[simp]
theorem fieldNamed?_append (fields others : List Field) (name : String) :
    fieldNamed? (fields ++ others) name =
      (fieldNamed? fields name).or (fieldNamed? others name) :=
  List.find?_append

@[simp]
theorem fieldNamed?_eq_none_iff {fields : List Field} {name : String} :
    fieldNamed? fields name = none ↔ name ∉ fields.map Field.name := by
  simp [fieldNamed?]

/-- The field of a name in merged fields is the last one of the name. -/
theorem fieldNamed?_mergeFields_of_last {before after : List Field} {field : Field}
    (last : ∀ other ∈ after, other.name ≠ field.name) :
    fieldNamed? (mergeFields [before ++ field :: after]) field.name = some field := by
  have none : fieldNamed? after.reverse field.name = none := by
    rw [fieldNamed?, List.find?_eq_none]
    intro other mem
    simpa using last other (List.mem_reverse.mp mem)
  rw [fieldNamed?_mergeFields, List.flatten_singleton, List.reverse_append, List.reverse_cons,
    fieldNamed?_append, fieldNamed?_append, none, Option.none_or, fieldNamed?,
    List.find?_cons_of_pos (by simp)]
  rfl

/-- There is one field of each name in merged fields, so the first is the last. -/
@[simp]
theorem fieldNamed?_reverse_mergeFields (groups : List (List Field)) (name : String) :
    fieldNamed? (mergeFields groups).reverse name = fieldNamed? (mergeFields groups) name := by
  have nodup : (Assoc.keys (named (mergeFields groups))).Nodup := by
    rw [keys_named]
    exact nodup_mergeFields_names groups
  rw [← get?_named, ← get?_named, named, List.map_reverse, ← named, Assoc.get?_reverse nodup]

/-- Fields with different names are told by the names in their order and the field under each. -/
theorem eq_of_fieldNamed? {fields others : List Field} (nodup : (fields.map Field.name).Nodup)
    (names : fields.map Field.name = others.map Field.name)
    (found : ∀ name, fieldNamed? fields name = fieldNamed? others name) : fields = others := by
  have entriesEq : named fields = named others := by
    refine Assoc.eq_of_get? ?_ ?_ fun name _ => ?_
    · rwa [keys_named]
    · rw [keys_named, keys_named, names]
    · rw [get?_named, get?_named, found]
  have unnamed (fields : List Field) : (named fields).map Prod.snd = fields := by
    rw [named, List.map_map]
    exact List.map_id fields
  rw [← unnamed fields, entriesEq, unnamed]

/-- Merged fields are told by the order of the names and the last field of each. -/
theorem mergeFields_congr {groups others : List (List Field)}
    (names : (groups.flatten.map Field.name).eraseDups =
      (others.flatten.map Field.name).eraseDups)
    (last : ∀ name, fieldNamed? groups.flatten.reverse name =
      fieldNamed? others.flatten.reverse name) :
    mergeFields groups = mergeFields others := by
  refine eq_of_fieldNamed? (nodup_mergeFields_names groups) ?_ fun name => ?_
  · rw [mergeFields_names, mergeFields_names, names]
  · rw [fieldNamed?_mergeFields, fieldNamed?_mergeFields, last]

/-- Only the fields count, and not how they are divided into groups. -/
@[simp]
theorem mergeFields_flatten (groups : List (List Field)) :
    mergeFields [groups.flatten] = mergeFields groups := by
  rw [mergeFields, mergeFields, List.flatten_singleton]

private theorem fieldNamed?_map {change : Field → Field}
    (keeps : ∀ field, (change field).name = field.name) (fields : List Field) (name : String) :
    fieldNamed? (fields.map change) name = (fieldNamed? fields name).map change := by
  rw [fieldNamed?, fieldNamed?, List.find?_map]
  simp only [Function.comp_def, keeps]

/-- Fields may be changed before or after they are merged, if they keep their names. -/
theorem map_mergeFields {change : Field → Field} (keeps : ∀ field, (change field).name = field.name)
    (groups : List (List Field)) :
    (mergeFields groups).map change = mergeFields (groups.map (List.map change)) := by
  have names (fields : List Field) :
      (fields.map change).map Field.name = fields.map Field.name := by
    rw [List.map_map]
    exact List.map_congr_left fun field _ => keeps field
  refine eq_of_fieldNamed? ?_ ?_ fun name => ?_
  · rw [names]
    exact nodup_mergeFields_names groups
  · rw [names, mergeFields_names, mergeFields_names, ← List.map_flatten, names]
  · rw [fieldNamed?_map keeps, fieldNamed?_mergeFields, fieldNamed?_mergeFields,
      ← List.map_flatten, ← List.map_reverse, fieldNamed?_map keeps]

@[simp]
theorem dedupe_names (names : List String) : dedupe (· == ·) names = names.eraseDups := by
  induction names using List.reverseRecOn with
  | nil => rfl
  | append_singleton names name ih =>
      rw [dedupe_concat, ih, Assoc.eraseDups_concat, List.any_beq']
      simp only [List.contains_iff_mem, List.mem_eraseDups]

theorem eraseDups_grouped (before run after : List String) :
    (before ++ run.eraseDups ++ after).eraseDups = (before ++ run ++ after).eraseDups := by
  have congr : ∀ a b : String, (a == b) = true → ∀ c, (a == c) = (b == c) := by
    intro a b same c
    rw [eq_of_beq same]
  rw [← dedupe_names, ← dedupe_names, ← dedupe_names, dedupe_append_dedupe congr]

/-- Some of the groups may be merged before all are. -/
@[simp]
theorem mergeFields_grouped (before run after : List (List Field)) :
    mergeFields (before ++ mergeFields run :: after) = mergeFields (before ++ run ++ after) := by
  apply mergeFields_congr
  · simp only [List.flatten_append, List.flatten_cons, List.map_append, mergeFields_names,
      ← List.append_assoc, eraseDups_grouped]
  · intro name
    simp only [List.flatten_append, List.flatten_cons, List.reverse_append, fieldNamed?_append,
      fieldNamed?_reverse_mergeFields, fieldNamed?_mergeFields, Option.or_assoc]

/-- Each group may be merged for itself. -/
@[simp]
theorem mergeFields_each (groups : List (List Field)) :
    mergeFields (groups.map fun group => mergeFields [group]) = mergeFields groups := by
  suffices ∀ before, mergeFields (before ++ groups.map fun group => mergeFields [group]) =
      mergeFields (before ++ groups) from this []
  induction groups with
  | nil => exact fun before => rfl
  | cons group more ih =>
      intro before
      rw [List.map_cons, mergeFields_grouped, ih (before ++ [group]), List.append_assoc,
        List.singleton_append]

namespace Shape

private theorem intersect_congr {shapes others : List Shape}
    (fields : shapes.filterMap fields? = others.filterMap fields?) :
    intersect shapes = intersect others := by
  rw [intersect, intersect, fields]

theorem intersect_of_none {shapes : List Shape} (none : shapes.filterMap fields? = []) :
    intersect shapes = .unknown := by
  rw [intersect, none]

theorem intersect_of_some {shapes : List Shape} (some : shapes.filterMap fields? ≠ []) :
    intersect shapes = .object (mergeFields (shapes.filterMap fields?)) := by
  rw [intersect.eq_def]
  split
  · rename_i none
    exact absurd none some
  · rfl

/-- Operands may be intersected in groups before they are intersected. -/
theorem intersect_grouped (before run after : List Shape) :
    intersect (before ++ intersect run :: after) = intersect (before ++ run ++ after) := by
  by_cases none : run.filterMap fields? = []
  · apply intersect_congr
    rw [intersect_of_none none, List.filterMap_append, List.filterMap_append,
      List.filterMap_append, none, List.append_nil]
    rfl
  · have merged : (before ++ intersect run :: after).filterMap fields? =
        before.filterMap fields? ++ mergeFields (run.filterMap fields?) ::
          after.filterMap fields? := by
      rw [intersect_of_some none, List.filterMap_append]
      rfl
    have flat : (before ++ run ++ after).filterMap fields? =
        before.filterMap fields? ++ run.filterMap fields? ++ after.filterMap fields? := by
      rw [List.filterMap_append, List.filterMap_append]
    calc intersect (before ++ intersect run :: after)
      _ = .object (mergeFields (before.filterMap fields? ++
            mergeFields (run.filterMap fields?) :: after.filterMap fields?)) := by
        rw [← merged, intersect_of_some (by simp [merged])]
      _ = intersect (before ++ run ++ after) := by
        rw [mergeFields_grouped, ← flat, intersect_of_some (by simp [none])]

end Shape

end PropValidators
