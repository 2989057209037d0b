import PropValidators.Ast.Writer
import PropValidators.Proofs.KeyedLists
import PropValidators.Proofs.Outcomes
import PropValidators.Proofs.Syntax.Sound

/-!
# Reading what was written

A sound tree is written without loss: reading its JSON value gives the tree back, at every
address.  The members of a written node are its type and its fields, each under its own key,
and every one of them is read as the field that it was.
-/

namespace PropValidators.Ast

/-! ## The members of a written node -/

@[simp]
theorem keys_fieldsToJson (fields : List (FieldName × Value)) :
    Assoc.keys (fieldsToJson fields) = (fields.map Prod.fst).map FieldName.key := by
  induction fields with
  | nil => rfl
  | cons field fields ih =>
      rw [fieldsToJson, Assoc.keys, List.map_cons, List.map_cons, List.map_cons]
      exact congrArg _ ih

/-- A node whose fields are laid out as its kind wants them is written field by field. -/
theorem toJson_of_layout {type : String} {fields : List (FieldName × Value)}
    (layout : Layout (Kind.ofType type) (fields.map Prod.fst)) :
    Node.toJson ⟨type, fields⟩ = .object (("type", .string type) :: fieldsToJson fields) := by
  rw [Node.toJson, Assoc.ofPairs_of_nodup]
  rw [Assoc.keys, List.map_cons, List.nodup_cons]
  constructor
  · rw [← Assoc.keys, keys_fieldsToJson]
    exact layout.type_notMem_keys
  · rw [← Assoc.keys, keys_fieldsToJson]
    exact layout.keys_nodup

/-- A field as a member that has been read. -/
def memberOfField : FieldName × Value → Member
  | (.declared key, value) => .declared key key (.ok value)
  | (.unknown key, value) => .unknown key (.ok value)

/-- Read a value in a field of a type, or in an unknown field. -/
def readHeld (address : Address) (type : Option FieldType) (json : Json) : Checked Value :=
  match type with
  | some type => readField address type json
  | none => readLoose address json

private theorem readMembers_fieldsToJson {kind : Kind} {keys : List String} {address : Address}
    {fields : List (FieldName × Value)}
    (declared : ∀ key, .declared key ∈ fields.map Prod.fst →
      key ≠ "type" ∧ ∃ spec, kind.specOfKey? key = some spec)
    (unknown : ∀ key, .unknown key ∈ fields.map Prod.fst →
      key ≠ "type" ∧ specFor? kind keys key = none)
    (reads : ∀ field ∈ fields, ∀ address,
      readHeld address (kind.typeOfField? field.1) field.2.toJson = .ok field.2)
    (index : Nat) :
    readMembers address index kind keys (fieldsToJson fields) = fields.map memberOfField := by
  induction fields generalizing index with
  | nil =>
      rw [fieldsToJson, readMembers]
      rfl
  | cons field fields ih =>
      obtain ⟨name, value⟩ := field
      have rest := ih (fun key mem => declared key (List.mem_cons_of_mem _ mem))
        (fun key mem => unknown key (List.mem_cons_of_mem _ mem))
        (fun field mem => reads field (List.mem_cons_of_mem _ mem)) (index + 1)
      have read := reads (name, value) List.mem_cons_self (index :: address)
      rw [fieldsToJson, readMembers, rest, List.map_cons]
      cases name with
      | declared key =>
          obtain ⟨notType, spec, found⟩ := declared key List.mem_cons_self
          have keyEq := Kind.key_of_specOfKey? found
          simp only [Kind.typeOfField?, found, Option.map_some, readHeld] at read
          simp only [FieldName.key, notType, if_false, specFor?, found, read, keyEq, memberOfField]
      | unknown key =>
          obtain ⟨notType, specNone⟩ := unknown key List.mem_cons_self
          simp only [Kind.typeOfField?, readHeld] at read
          simp only [FieldName.key, notType, if_false, specNone, read, memberOfField]

/-! ## Putting a node together -/

private theorem declaredMember?_map_memberOfField (fields : List (FieldName × Value))
    (key : String) :
    declaredMember? (fields.map memberOfField) key =
      (fields.find? fun field => field.1 == .declared key).map fun field => (key, .ok field.2) := by
  induction fields with
  | nil => rfl
  | cons field fields ih =>
      obtain ⟨name, value⟩ := field
      rw [declaredMember?] at ih ⊢
      rw [List.map_cons, List.findSome?_cons, List.find?_cons]
      cases name with
      | declared other =>
          by_cases same : other = key
          · simp [memberOfField, same]
          · have notSame : (FieldName.declared other == FieldName.declared key) = false := by
              simp [same]
            simp only [memberOfField, same, if_false, notSame]
            exact ih
      | unknown other =>
          have notSame : (FieldName.unknown other == FieldName.declared key) = false := by simp
          simp only [memberOfField, notSame]
          exact ih

private theorem declaredFields_map_memberOfField {fields : List (FieldName × Value)}
    {specs : List FieldSpec}
    (all : ∀ spec ∈ specs, spec.type.required = true → .declared spec.key ∈ fields.map Prod.fst) :
    declaredFields (fields.map memberOfField) specs =
      .ok (specs.filterMap fun spec =>
        (fields.find? fun field => field.1 == .declared spec.key).map fun field =>
          (.declared spec.key, field.2)) := by
  induction specs with
  | nil => rfl
  | cons spec specs ih =>
      rw [declaredFields, declaredMember?_map_memberOfField,
        ih fun spec mem => all spec (List.mem_cons_of_mem _ mem), List.filterMap_cons]
      cases found : fields.find? fun field => field.1 == .declared spec.key with
      | some field => rfl
      | none =>
          have optional : spec.type.required = false := by
            rw [← Bool.not_eq_true]
            intro required
            obtain ⟨field, mem, nameEq⟩ := List.mem_map.mp (all spec List.mem_cons_self required)
            have notFound := List.find?_eq_none.mp found field mem
            simp [nameEq] at notFound
          simp [optional, Checked.both]

private theorem unknownFields_map_memberOfField_declared {fields : List (FieldName × Value)}
    {specs : List FieldSpec}
    (names : fields.map Prod.fst = specs.map fun spec => .declared spec.key)
    (more : List Member) :
    unknownFields (fields.map memberOfField ++ more) = unknownFields more := by
  induction fields generalizing specs with
  | nil => rfl
  | cons field fields ih =>
      obtain ⟨name, value⟩ := field
      cases specs with
      | nil => cases names
      | cons spec specs =>
          rw [List.map_cons, List.map_cons, List.cons.injEq] at names
          obtain ⟨rfl, rest⟩ := names
          rw [List.map_cons, List.cons_append, memberOfField, unknownFields, ih rest]

private theorem unknownFields_map_memberOfField_unknown {fields : List (FieldName × Value)}
    {keys : List String} (names : fields.map Prod.fst = keys.map .unknown) :
    unknownFields (fields.map memberOfField) = .ok fields := by
  induction fields generalizing keys with
  | nil => rfl
  | cons field fields ih =>
      obtain ⟨name, value⟩ := field
      cases keys with
      | nil => cases names
      | cons key keys =>
          rw [List.map_cons, List.map_cons, List.cons.injEq] at names
          obtain ⟨rfl, rest⟩ := names
          rw [List.map_cons, memberOfField, unknownFields, ih rest]
          rfl

/-- Looking up the declared fields in the order of the kind gives them as they stand. -/
theorem filterMap_find?_of_layout {fields declared : List (FieldName × Value)}
    {specs : List FieldSpec} {present : FieldSpec → Bool}
    (names : declared.map Prod.fst = (specs.filter present).map fun spec => .declared spec.key)
    (found : ∀ field ∈ declared, fields.find? (fun other => other.1 == field.1) = some field)
    (absent : ∀ spec ∈ specs, present spec = false →
      fields.find? (fun other => other.1 == .declared spec.key) = none) :
    (specs.filterMap fun spec =>
      (fields.find? fun field => field.1 == .declared spec.key).map fun field =>
        (.declared spec.key, field.2)) = declared := by
  induction specs generalizing declared with
  | nil =>
      rw [List.filter_nil, List.map_nil, List.map_eq_nil_iff] at names
      rw [names]
      rfl
  | cons spec specs ih =>
      have absentRest := fun spec mem => absent spec (List.mem_cons_of_mem _ mem)
      rw [List.filterMap_cons]
      cases presentEq : present spec with
      | false =>
          rw [List.filter_cons_of_neg (by simp [presentEq])] at names
          rw [absent spec List.mem_cons_self presentEq]
          exact ih names found absentRest
      | true =>
          rw [List.filter_cons_of_pos presentEq] at names
          cases declared with
          | nil => cases names
          | cons field declared =>
              rw [List.map_cons, List.map_cons, List.cons.injEq] at names
              have headFound := found field List.mem_cons_self
              rw [names.1] at headFound
              rw [headFound]
              simp only [Option.map_some]
              rw [ih names.2 (fun other mem => found other (List.mem_cons_of_mem _ mem)) absentRest,
                ← names.1]

/-- The fields of a node come apart into the declared and the unknown ones, as they are
read. -/
theorem exists_split_of_layout {kind : Kind} {fields : List (FieldName × Value)}
    (layout : Layout kind (fields.map Prod.fst)) :
    ∃ declared unknown, fields = declared ++ unknown ∧
      declaredFields (fields.map memberOfField) kind.fields = .ok declared ∧
      unknownFields (fields.map memberOfField) = .ok unknown := by
  have nodup := layout.nodup
  have required : ∀ spec ∈ kind.fields, spec.type.required = true →
      .declared spec.key ∈ fields.map Prod.fst := fun _ mem => layout.mem_of_required mem
  obtain ⟨present, keys, namesEq, -, -, -⟩ := layout
  obtain ⟨declared, unknown, rfl, declaredNames, unknownNames⟩ :=
    List.map_eq_append_iff.mp namesEq
  refine ⟨declared, unknown, rfl, ?_, ?_⟩
  · rw [declaredFields_map_memberOfField required]
    congr 1
    apply filterMap_find?_of_layout declaredNames
    · intro field mem
      exact find?_of_mem nodup (List.mem_append_left _ mem)
    · intro spec specMem notPresent
      rw [List.find?_eq_none]
      intro field mem same
      rw [beq_iff_eq] at same
      have nameMem : FieldName.declared spec.key ∈ (declared ++ unknown).map Prod.fst :=
        List.mem_map.mpr ⟨field, mem, same⟩
      rw [namesEq] at nameMem
      rcases List.mem_append.mp nameMem with inDeclared | inUnknown
      · obtain ⟨other, otherMem, otherEq⟩ := List.mem_map.mp inDeclared
        rw [List.mem_filter] at otherMem
        have otherFound := Kind.specOfKey?_of_mem otherMem.1
        rw [FieldName.declared.inj otherEq, Kind.specOfKey?_of_mem specMem] at otherFound
        cases otherFound
        rw [notPresent] at otherMem
        cases otherMem.2
      · obtain ⟨other, -, otherEq⟩ := List.mem_map.mp inUnknown
        cases otherEq
  · rw [List.map_append, unknownFields_map_memberOfField_declared declaredNames]
    exact unknownFields_map_memberOfField_unknown unknownNames

/-! ## Reading back -/

/-- The members under which a sound node is written. -/
def writtenMembers (type : String) (fields : List (FieldName × Value)) : List (String × Json) :=
  ("type", .string type) :: fieldsToJson fields

@[simp]
theorem typeOf?_writtenMembers (type : String) (fields : List (FieldName × Value)) :
    typeOf? (writtenMembers type fields) = some type :=
  rfl

/-- What has been written is read as fields, if the values of the fields are read back. -/
theorem readMembers_writtenMembers {kind : Kind} {address : Address} {type : String}
    {fields : List (FieldName × Value)} (layout : Layout kind (fields.map Prod.fst))
    (reads : ∀ field ∈ fields, ∀ address,
      readHeld address (kind.typeOfField? field.1) field.2.toJson = .ok field.2) :
    readMembers address 0 kind (keysOf (writtenMembers type fields))
      (writtenMembers type fields) = fields.map memberOfField := by
  have keysEq : keysOf (writtenMembers type fields) =
      "type" :: (fields.map Prod.fst).map FieldName.key := by
    rw [← keys_fieldsToJson]
    rfl
  rw [keysEq, writtenMembers, readMembers, if_pos rfl]
  apply readMembers_fieldsToJson
  · intro key mem
    obtain ⟨spec, specMem, rfl⟩ := layout.exists_spec_of_declared mem
    exact ⟨Kind.key_ne_type specMem, spec, Kind.specOfKey?_of_mem specMem⟩
  · intro key mem
    obtain ⟨notType, specNone⟩ := layout.specFor?_of_unknown mem
    exact ⟨notType, specFor?_eq_none_of_subset (List.subset_cons_self _ _) specNone⟩
  · exact reads

private theorem nodeOf_writtenMembers {address : Address} {type : String}
    {fields : List (FieldName × Value)}
    (layout : Layout (Kind.ofType type) (fields.map Prod.fst))
    (reads : ∀ field ∈ fields, ∀ address,
      readHeld address ((Kind.ofType type).typeOfField? field.1) field.2.toJson = .ok field.2) :
    (nodeOf (writtenMembers type fields) fun kind =>
      readMembers address 0 kind (keysOf (writtenMembers type fields))
        (writtenMembers type fields)) = .ok ⟨type, fields⟩ := by
  obtain ⟨declared, unknown, split, declaredEq, unknownEq⟩ := exists_split_of_layout layout
  simp only [nodeOf, typeOf?_writtenMembers, readMembers_writtenMembers layout reads, assemble,
    declaredEq, unknownEq]
  rw [split]
  rfl

private theorem bodyOf_writtenMembers {address : Address} {kind : Kind}
    {fields : List (FieldName × Value)} (layout : Layout kind (fields.map Prod.fst))
    (reads : ∀ field ∈ fields, ∀ address,
      readHeld address (kind.typeOfField? field.1) field.2.toJson = .ok field.2) :
    bodyOf kind (writtenMembers kind.tag fields)
      (readMembers address 0 kind (keysOf (writtenMembers kind.tag fields))
        (writtenMembers kind.tag fields)) = .ok ⟨kind.tag, fields⟩ := by
  obtain ⟨declared, unknown, split, declaredEq, unknownEq⟩ := exists_split_of_layout layout
  have typeEq : Json.get? (.object (writtenMembers kind.tag fields)) "type" =
      some (.string kind.tag) := rfl
  simp only [bodyOf, typeEq, Json.string?, if_true, readMembers_writtenMembers layout reads,
    declaredEq, unknownEq, Checked.both]
  rw [split]
  rfl

/-- A list of nodes is read as its nodes are. -/
theorem readNodes_itemsToJson {items : List Value}
    (reads : ∀ item ∈ items, ∃ n, item = .node n ∧
      ∀ address, readNode address n.toJson = .ok n) (address : Address) (index : Nat) :
    readNodes address index (itemsToJson items) = .ok items := by
  induction items generalizing index with
  | nil => rfl
  | cons item items ih =>
      obtain ⟨n, rfl, read⟩ := reads item List.mem_cons_self
      have rest := ih (fun other mem => reads other (List.mem_cons_of_mem _ mem)) (index + 1)
      rw [itemsToJson, readNodes, rest, Value.toJson, read]
      rfl

/-- A list of nodes and holes is read as its nodes are. -/
theorem readElements_itemsToJson {items : List Value}
    (reads : ∀ item ∈ items, item = .null ∨ ∃ n, item = .node n ∧
      ∀ address, readNode address n.toJson = .ok n) (address : Address) (index : Nat) :
    readElements address index (itemsToJson items) = .ok items := by
  induction items generalizing index with
  | nil => rfl
  | cons item items ih =>
      have rest := ih (fun other mem => reads other (List.mem_cons_of_mem _ mem)) (index + 1)
      rcases reads item List.mem_cons_self with rfl | ⟨n, rfl, read⟩
      · rw [itemsToJson]
        change (readElements address (index + 1) (itemsToJson items)).map (.null :: ·) = _
        rw [rest]
        rfl
      · obtain ⟨type, fields⟩ := n
        rw [itemsToJson, Value.toJson, readElements, rest, read]
        · rfl
        · rw [Node.toJson]
          simp

private theorem readLooseItems_itemsToJson {items : List Value}
    (reads : ∀ item ∈ items, ∀ address, readLoose address item.toJson = .ok item)
    (address : Address) (index : Nat) :
    readLooseItems address index (itemsToJson items) = .ok items := by
  induction items generalizing index with
  | nil => rfl
  | cons item items ih =>
      have rest := ih (fun other mem => reads other (List.mem_cons_of_mem _ mem)) (index + 1)
      rw [itemsToJson, readLooseItems, rest, reads item List.mem_cons_self]
      rfl

/-- A constant is read as it stands. -/
@[simp]
theorem readHeld_data {type : Option FieldType} {data : Json}
    (fits : FieldType.FitsData type data) (address : Address) :
    readHeld address type data = .ok (.data data) := by
  cases type with
  | none => cases data <;> simp_all [FieldType.FitsData, readHeld, readLoose]
  | some type =>
      cases type with
      | node => exact fits.elim
      | nodes => exact fits.elim
      | elements => exact fits.elim
      | body kind => exact fits.elim
      | optionalNode =>
          cases fits
          rfl
      | optionalNodes =>
          cases fits
          rfl
      | text =>
          obtain ⟨s, rfl⟩ := fits
          rfl
      | optionalText default =>
          obtain ⟨s, rfl⟩ := fits
          rfl
      | name =>
          obtain ⟨s, rfl⟩ := fits
          rfl
      | flag =>
          obtain ⟨b, rfl⟩ := fits
          rfl
      | optionalFlag =>
          obtain ⟨b, rfl⟩ := fits
          rfl
      | number =>
          obtain ⟨n, rfl⟩ := fits
          rfl

/-- A node is read as it stands, if the values of its fields are. -/
theorem readHeld_node {type : Option FieldType} {n : Node} (fits : FieldType.FitsNode type n.type)
    (layout : Layout n.kind (n.fields.map Prod.fst))
    (reads : ∀ field ∈ n.fields, ∀ address,
      readHeld address (n.kind.typeOfField? field.1) field.2.toJson = .ok field.2)
    (address : Address) : readHeld address type n.toJson = .ok (.node n) := by
  obtain ⟨nodeType, fields⟩ := n
  have written : Node.toJson ⟨nodeType, fields⟩ = .object (writtenMembers nodeType fields) :=
    toJson_of_layout layout
  have node : (nodeOf (writtenMembers nodeType fields) fun kind =>
      readMembers address 0 kind (keysOf (writtenMembers nodeType fields))
        (writtenMembers nodeType fields)) = .ok ⟨nodeType, fields⟩ :=
    nodeOf_writtenMembers layout reads
  rw [written]
  cases type with
  | none =>
      simp only [readHeld, readLoose, typeOf?_writtenMembers, node]
      rfl
  | some type =>
      cases type with
      | node =>
          simp only [readHeld, readField, node]
          rfl
      | optionalNode =>
          simp only [readHeld, readField, node]
          rfl
      | name => simp only [readHeld, readField, node]
      | body kind =>
          have typeEq : nodeType = kind.tag := fits
          subst typeEq
          simp only [Node.kind, Kind.ofType_tag] at layout reads
          simp only [readHeld, readField, bodyOf_writtenMembers layout reads]
          rfl
      | _ => exact fits.elim

theorem readNode_of_readHeld {address : Address} {type : Option FieldType} {n : Node}
    (isNode : type = some .node ∨ type = some .optionalNode)
    (read : readHeld address type n.toJson = .ok (.node n)) :
    readNode address n.toJson = .ok n := by
  obtain ⟨nodeType, fields⟩ := n
  rw [Node.toJson] at read ⊢
  rw [readNode]
  rcases isNode with rfl | rfl
  all_goals
    simp only [readHeld, readField] at read
    obtain ⟨n, node, nodeEq⟩ := map_eq_ok.mp read
    cases nodeEq
    exact node

/-- A list is read as it stands, if its items are. -/
theorem readHeld_list {type item : Option FieldType} {items : List Value}
    (itemEq : FieldType.item? type = some item) (fits : FitItems item items)
    (reads : ∀ value ∈ items, ∀ address, readHeld address item value.toJson = .ok value)
    (address : Address) :
    readHeld address type (.array (itemsToJson items)) = .ok (.list items) := by
  rw [fitItems_iff] at fits
  have nodes : item = some .node → ∀ value ∈ items, ∃ n, value = .node n ∧
      ∀ address, readNode address n.toJson = .ok n := by
    rintro rfl value mem
    obtain ⟨n, rfl, -⟩ := Value.exists_node_of_fits (fits value mem)
    exact ⟨n, rfl, fun address => readNode_of_readHeld (.inl rfl) (reads _ mem address)⟩
  have elements : item = some .optionalNode → ∀ value ∈ items, value = .null ∨
      ∃ n, value = .node n ∧ ∀ address, readNode address n.toJson = .ok n := by
    rintro rfl value mem
    rcases Value.eq_null_or_node_of_fits (fits value mem) with rfl | ⟨n, rfl, -⟩
    · exact .inl rfl
    · exact .inr ⟨n, rfl, fun address => readNode_of_readHeld (.inr rfl) (reads _ mem address)⟩
  cases type with
  | none =>
      cases itemEq
      simp only [readHeld, readLoose, readLooseItems_itemsToJson reads]
      rfl
  | some type =>
      cases type with
      | nodes =>
          cases itemEq
          simp only [readHeld, readField, readNodes_itemsToJson (nodes rfl)]
          rfl
      | optionalNodes =>
          cases itemEq
          simp only [readHeld, readField, readNodes_itemsToJson (nodes rfl)]
          rfl
      | elements =>
          cases itemEq
          simp only [readHeld, readField, readElements_itemsToJson (elements rfl)]
          rfl
      | _ => cases itemEq

mutual

theorem Value.readHeld_toJson {type : Option FieldType} :
    (value : Value) → value.Fits type → ∀ address, readHeld address type value.toJson = .ok value
  | .node ⟨_, fields⟩, fits => readHeld_node fits.1 fits.2.1 (fieldsReadBack fields fits.2.2)
  | .list items, ⟨_, itemEq, fits⟩ => readHeld_list itemEq fits (itemsReadBack items fits)
  | .data _, fits => readHeld_data fits
termination_by structural value => value

private theorem itemsReadBack {type : Option FieldType} :
    (items : List Value) → FitItems type items → ∀ value ∈ items, ∀ address,
      readHeld address type value.toJson = .ok value
  | [], _ => by simp
  | item :: items, fits =>
      List.forall_mem_cons.mpr ⟨item.readHeld_toJson fits.1, itemsReadBack items fits.2⟩
termination_by structural items => items

private theorem fieldsReadBack {kind : Kind} :
    (fields : List (FieldName × Value)) → SoundFields kind fields → ∀ field ∈ fields, ∀ address,
      readHeld address (kind.typeOfField? field.1) field.2.toJson = .ok field.2
  | [], _ => by simp
  | (_, value) :: fields, sound =>
      List.forall_mem_cons.mpr ⟨value.readHeld_toJson sound.1, fieldsReadBack fields sound.2⟩
termination_by structural fields => fields

end

/-- Reading a sound node after writing it gives it back. -/
theorem Node.readNode_toJson {n : Node} (sound : n.Sound) (address : Address) :
    readNode address n.toJson = .ok n := by
  have fits : (Value.node n).Fits (some .node) := ⟨trivial, sound⟩
  exact readNode_of_readHeld (.inl rfl) ((Value.node n).readHeld_toJson fits address)

end PropValidators.Ast
