import PropValidators.Proofs.Syntax.Reading

/-!
# Canonical values are written as they were read

A value is canonical when it is written the way a parser writes it: every member is spelled by
the key of its field, truth values and numbers are written as such, and the bodies of classes
and interfaces name their type.  A tree that is read from a canonical value is written with
the same members, in the order in which its kinds declare them.
-/

namespace PropValidators

mutual

/-- Two values are the same up to the order of the members of objects. -/
inductive Reordered : Json → Json → Prop
  | same (json : Json) : Reordered json json
  | array {items others : List Json} (each : ReorderedItems items others) :
      Reordered (.array items) (.array others)
  | object {members shuffled others : List (String × Json)} (order : members.Perm shuffled)
      (each : ReorderedMembers shuffled others) : Reordered (.object members) (.object others)

/-- The items of two arrays are the same up to the order of the members of objects. -/
inductive ReorderedItems : List Json → List Json → Prop
  | nil : ReorderedItems [] []
  | cons {item other : Json} {items others : List Json} (head : Reordered item other)
      (rest : ReorderedItems items others) : ReorderedItems (item :: items) (other :: others)

/-- Two lists of members have the same keys, with values that are the same up to the order of
the members of objects. -/
inductive ReorderedMembers : List (String × Json) → List (String × Json) → Prop
  | nil : ReorderedMembers [] []
  | cons (key : String) {value other : Json} {members others : List (String × Json)}
      (head : Reordered value other) (rest : ReorderedMembers members others) :
      ReorderedMembers ((key, value) :: members) ((key, other) :: others)

end

end PropValidators

namespace PropValidators.Ast

/-! ## Canonical values -/

/-- Whether a constant in a field of a type is none that is read as something else. -/
def isCanonicalConstant : Option FieldType → Json → Bool
  | some .flag, .bool _ | some .optionalFlag, .bool _ | some .number, .number _ => true
  | some .flag, _ | some .optionalFlag, _ | some .number, _ => false
  | _, _ => true

/-- Whether a field is for a body, whose type may be left out. -/
def isBody : Option FieldType → Bool
  | some (.body _) => true
  | _ => false

/-- A member of a node is not spelled by the label of a field with another key. -/
def SpelledByKey (kind : Kind) (key : String) : Prop :=
  ∀ spec, kind.specOfLabel? key = some spec → spec.key = key

instance (kind : Kind) (key : String) : Decidable (SpelledByKey kind key) :=
  inferInstanceAs (Decidable (∀ spec ∈ kind.specOfLabel? key, spec.key = key))

mutual

/-- A value in a field of a type, or in an unknown field, is canonical. -/
def Canonical (type : Option FieldType) : Json → Prop
  | .object members =>
      match typeOf? members with
      | none => isBody type = false
      | some name => CanonicalMembers (Kind.ofType name) members
  | .array items => CanonicalItems ((FieldType.item? type).getD none) items
  | .null => isCanonicalConstant type .null = true
  | .bool b => isCanonicalConstant type (.bool b) = true
  | .number n => isCanonicalConstant type (.number n) = true
  | .string s => isCanonicalConstant type (.string s) = true
termination_by structural json => json

/-- The items of a list are canonical where something of a type must be. -/
def CanonicalItems (type : Option FieldType) : List Json → Prop
  | [] => True
  | item :: items => Canonical type item ∧ CanonicalItems type items
termination_by structural items => items

/-- The members of a node of a kind are canonical. -/
def CanonicalMembers (kind : Kind) : List (String × Json) → Prop
  | [] => True
  | (key, value) :: members =>
      (key = "type" ∨
        SpelledByKey kind key ∧ Canonical (kind.typeOfField? (.declared key)) value) ∧
      CanonicalMembers kind members
termination_by structural members => members

end

mutual

/-- Whether a value is canonical can be computed. -/
def decidableCanonical (type : Option FieldType) : (json : Json) → Decidable (Canonical type json)
  | .object members =>
      show Decidable (match typeOf? members with
        | none => isBody type = false
        | some name => CanonicalMembers (Kind.ofType name) members) from
      match typeOf? members with
      | none => inferInstance
      | some name => decidableCanonicalMembers (Kind.ofType name) members
  | .array items => decidableCanonicalItems ((FieldType.item? type).getD none) items
  | .null => inferInstanceAs (Decidable (_ = true))
  | .bool _ => inferInstanceAs (Decidable (_ = true))
  | .number _ => inferInstanceAs (Decidable (_ = true))
  | .string _ => inferInstanceAs (Decidable (_ = true))
termination_by structural json => json

/-- Whether items are canonical can be computed. -/
def decidableCanonicalItems (type : Option FieldType) :
    (items : List Json) → Decidable (CanonicalItems type items)
  | [] => .isTrue trivial
  | item :: items =>
      have := decidableCanonical type item
      have := decidableCanonicalItems type items
      inferInstanceAs (Decidable (_ ∧ _))
termination_by structural items => items

/-- Whether members are canonical can be computed. -/
def decidableCanonicalMembers (kind : Kind) :
    (members : List (String × Json)) → Decidable (CanonicalMembers kind members)
  | [] => .isTrue trivial
  | (key, value) :: members =>
      have := decidableCanonical (kind.typeOfField? (.declared key)) value
      have := decidableCanonicalMembers kind members
      inferInstanceAs (Decidable ((key = "type" ∨ _ ∧ _) ∧ _))
termination_by structural members => members

end

instance (type : Option FieldType) (json : Json) : Decidable (Canonical type json) :=
  decidableCanonical type json

private theorem canonicalMembers_iff {kind : Kind} {members : List (String × Json)} :
    CanonicalMembers kind members ↔ ∀ member ∈ members, member.1 = "type" ∨
      SpelledByKey kind member.1 ∧ Canonical (kind.typeOfField? (.declared member.1)) member.2 := by
  induction members with
  | nil => simp [CanonicalMembers]
  | cons member members ih => rw [CanonicalMembers, ih, List.forall_mem_cons]

/-- A key that spells a field by its key is read as the field with that key. -/
theorem specFor?_of_spelledByKey {kind : Kind} {key : String} (spelled : SpelledByKey kind key)
    (keys : List String) : specFor? kind keys key = kind.specOfKey? key := by
  rw [specFor?]
  cases byKey : kind.specOfKey? key with
  | some spec => rfl
  | none =>
      cases byLabel : kind.specOfLabel? key with
      | none => rfl
      | some spec =>
          have specMem : spec ∈ kind.fields := List.mem_of_find?_eq_some byLabel
          have found := Kind.specOfKey?_of_mem specMem
          rw [spelled spec byLabel, byKey] at found
          cases found

/-! ## Members that have been read -/

variable {kind : Kind} {keys : List String} {address : Address} {members : List (String × Json)}

/-- A member that has been read is written under the key that it was found under. -/
def Member.Written (members : List (String × Json)) : Member → Prop
  | .declared key _ value | .unknown key value =>
      ∃ json, (key, json) ∈ members ∧ ∀ v, value = .ok v → Reordered json v.toJson

theorem Member.Written.mono {more : List (String × Json)} (subset : members ⊆ more)
    {member : Member} (written : member.Written members) : member.Written more := by
  cases member with
  | declared key found value =>
      obtain ⟨json, mem, reorders⟩ := written
      exact ⟨json, subset mem, reorders⟩
  | unknown key value =>
      obtain ⟨json, mem, reorders⟩ := written
      exact ⟨json, subset mem, reorders⟩

/-- What is read from values of canonical members is written as it was. -/
abbrev Rewrites (members : List (String × Json)) : Prop :=
  ∀ member ∈ members, ∀ type address v, Canonical type member.2 →
    readHeld address type member.2 = .ok v → Reordered member.2 v.toJson

private theorem readMembers_written (canonical : CanonicalMembers kind members)
    (rewrites : Rewrites members) (index : Nat) :
    ∀ member ∈ readMembers address index kind keys members, member.Written members := by
  induction members generalizing index with
  | nil => simp [readMembers]
  | cons member members ih =>
      obtain ⟨key, json⟩ := member
      rw [Rewrites, List.forall_mem_cons] at rewrites
      have rest : ∀ member ∈ readMembers address (index + 1) kind keys members,
          member.Written ((key, json) :: members) := fun member mem =>
        (ih canonical.2 rewrites.2 (index + 1) member mem).mono (List.subset_cons_self _ _)
      rw [readMembers]
      split
      · exact rest
      · rename_i notType
        obtain ⟨spelled, valueCanonical⟩ := canonical.1.resolve_left notType
        rw [specFor?_of_spelledByKey spelled]
        rw [Kind.typeOfField?] at valueCanonical
        split
        · rename_i spec found
          rw [found] at valueCanonical
          rw [List.forall_mem_cons, Kind.key_of_specOfKey? found]
          refine ⟨⟨json, List.mem_cons_self, ?_⟩, rest⟩
          exact fun v read => rewrites.1 (some spec.type) _ v valueCanonical read
        · rename_i specNone
          rw [specNone] at valueCanonical
          rw [List.forall_mem_cons]
          refine ⟨⟨json, List.mem_cons_self, ?_⟩, rest⟩
          exact fun v read => rewrites.1 none _ v valueCanonical read

/-- A member that no field is read from is read as an unknown one. -/
theorem mem_unknownKeys_of_mem {key : String} (mem : key ∈ Assoc.keys members)
    (notType : key ≠ "type") (unknown : specFor? kind keys key = none) (index : Nat) :
    key ∈ (readMembers address index kind keys members).filterMap Member.unknownKey? := by
  induction members generalizing index with
  | nil => cases mem
  | cons member members ih =>
      obtain ⟨other, json⟩ := member
      rw [Assoc.keys, List.map_cons, List.mem_cons] at mem
      rw [readMembers]
      rcases mem with rfl | mem
      · rw [if_neg notType, unknown, List.filterMap_cons]
        exact List.mem_cons_self
      · have rest := ih mem (index + 1)
        split
        · exact rest
        · split
          · exact rest
          · rw [List.filterMap_cons]
            exact List.mem_cons_of_mem _ rest

/-! ## Nodes that have been read -/

/-- Fields are written like members that hold the same up to their order. -/
theorem reorderedMembers_of_fields {held : String → Json} {fields : List (FieldName × Value)}
    (each : ∀ field ∈ fields, Reordered (held field.1.key) field.2.toJson) :
    ReorderedMembers (((fields.map Prod.fst).map FieldName.key).map fun key => (key, held key))
      (fieldsToJson fields) := by
  induction fields with
  | nil => exact .nil
  | cons field fields ih =>
      rw [List.forall_mem_cons] at each
      exact .cons field.1.key each.1 (ih each.2)

/-- The fields that are read have the keys of the members, and hold what those hold. -/
theorem fields_of_readMembers (canonical : CanonicalMembers kind members)
    (rewrites : Rewrites members) {declared unknown : List (FieldName × Value)}
    (declaredEq : declaredFields (readMembers address 0 kind (keysOf members) members)
      kind.fields = .ok declared)
    (unknownEq : unknownFields (readMembers address 0 kind (keysOf members) members) =
      .ok unknown) :
    (∀ field ∈ declared ++ unknown, ∃ json, (field.1.key, json) ∈ members ∧
        Reordered json field.2.toJson) ∧
      ∀ key ∈ Assoc.keys members, key ≠ "type" →
        key ∈ ((declared ++ unknown).map Prod.fst).map FieldName.key := by
  obtain ⟨declaredNames, -, declaredValues⟩ := declaredFields_eq_ok declaredEq
  obtain ⟨unknownNames, unknownValues⟩ := unknownFields_eq_ok unknownEq
  have written : ∀ member ∈ readMembers address 0 kind (keysOf members) members,
      member.Written members := readMembers_written canonical rewrites 0
  constructor
  · intro field mem
    rcases List.mem_append.mp mem with inDeclared | inUnknown
    · obtain ⟨key, found, nameEq, memberMem⟩ := declaredValues field inDeclared
      obtain ⟨json, jsonMem, reorders⟩ := written _ memberMem
      rw [nameEq]
      exact ⟨json, jsonMem, reorders _ rfl⟩
    · obtain ⟨key, nameEq, memberMem⟩ := unknownValues field inUnknown
      obtain ⟨json, jsonMem, reorders⟩ := written _ memberMem
      rw [nameEq]
      exact ⟨json, jsonMem, reorders _ rfl⟩
  · intro key mem notType
    obtain ⟨member, memberMem, memberKey⟩ := List.mem_map.mp mem
    have keyCanonical := canonicalMembers_iff.mp canonical member memberMem
    rw [memberKey] at keyCanonical
    obtain ⟨spelled, -⟩ := keyCanonical.resolve_left notType
    rw [List.map_append, List.map_append, List.mem_append]
    cases byKey : kind.specOfKey? key with
    | some spec =>
        have specMem := Kind.mem_of_specOfKey? byKey
        have keyEq := Kind.key_of_specOfKey? byKey
        left
        rw [declaredNames, List.map_map, ← keyEq]
        refine List.mem_map.mpr ⟨spec, List.mem_filter.mpr ⟨specMem, ?_⟩, rfl⟩
        exact isSome_declaredMember?_of_mem specMem (keyEq ▸ mem) 0
    | none =>
        right
        rw [unknownNames, List.map_map]
        have specNone := (specFor?_of_spelledByKey spelled (keysOf members)).trans byKey
        exact List.mem_map.mpr ⟨key, mem_unknownKeys_of_mem mem notType specNone 0, rfl⟩

/-- A node is written with the members that it was read from. -/
theorem reordered_of_fields {type : String} {fields : List (FieldName × Value)}
    (nodup : (Assoc.keys members).Nodup) (typeMem : ("type", .string type) ∈ members)
    (sound : Node.Sound ⟨type, fields⟩)
    (values : ∀ field ∈ fields, ∃ json, (field.1.key, json) ∈ members ∧
      Reordered json field.2.toJson)
    (covered : ∀ key ∈ Assoc.keys members, key ≠ "type" →
      key ∈ (fields.map Prod.fst).map FieldName.key) :
    Reordered (.object members) (Node.toJson ⟨type, fields⟩) := by
  have layout : Layout (Kind.ofType type) (fields.map Prod.fst) := sound.1
  have namesNodup : ("type" :: (fields.map Prod.fst).map FieldName.key).Nodup :=
    List.nodup_cons.mpr ⟨layout.type_notMem_keys, layout.keys_nodup⟩
  have same : ∀ key, key ∈ Assoc.keys members ↔
      key ∈ "type" :: (fields.map Prod.fst).map FieldName.key := by
    intro key
    rw [List.mem_cons]
    constructor
    · intro mem
      by_cases isType : key = "type"
      · exact .inl isType
      · exact .inr (covered key mem isType)
    · rintro (rfl | mem)
      · exact Assoc.mem_keys_of_mem typeMem
      · rw [List.map_map] at mem
        obtain ⟨field, fieldMem, rfl⟩ := List.mem_map.mp mem
        obtain ⟨json, jsonMem, -⟩ := values field fieldMem
        exact Assoc.mem_keys_of_mem jsonMem
  rw [toJson_of_layout sound.1]
  apply Reordered.object (Assoc.perm_of_keys nodup namesNodup same)
  rw [List.map_cons, Assoc.get?_of_mem nodup typeMem]
  apply ReorderedMembers.cons "type" (.same _)
  apply reorderedMembers_of_fields
  intro field mem
  obtain ⟨json, jsonMem, reorders⟩ := values field mem
  rw [Assoc.get?_of_mem nodup jsonMem]
  exact reorders

theorem typeMem_of_typeOf? {name : String} (typed : typeOf? members = some name) :
    ("type", .string name) ∈ members := by
  rw [typeOf?, Option.bind_eq_some_iff] at typed
  obtain ⟨json, found, isString⟩ := typed
  cases json with
  | string s =>
      cases isString
      exact Assoc.mem_of_get? found
  | _ => cases isString

private theorem reordered_of_nodeOf {n : Node} (nodup : (Assoc.keys members).Nodup)
    (fits : ∀ member ∈ members, ∀ type address v,
      readHeld address type member.2 = .ok v → v.Fits type)
    (rewrites : Rewrites members)
    (canonical : ∀ name, typeOf? members = some name → CanonicalMembers (Kind.ofType name) members)
    (read : (nodeOf members fun kind =>
      readMembers address 0 kind (keysOf members) members) = .ok n) :
    Reordered (.object members) n.toJson := by
  have sound := sound_of_nodeOf nodup fits read
  rw [nodeOf] at read
  split at read
  · cases read
  · rename_i name typed
    simp only [under_eq_ok, assemble, monadBind_eq_ok] at read
    obtain ⟨declared, declaredEq, unknown, unknownEq, nodeEq⟩ := read
    cases nodeEq
    obtain ⟨values, covered⟩ :=
      fields_of_readMembers (canonical name typed) rewrites declaredEq unknownEq
    exact reordered_of_fields nodup (typeMem_of_typeOf? typed) sound values covered

private theorem reordered_of_bodyOf {n : Node} (nodup : (Assoc.keys members).Nodup)
    (fits : ∀ member ∈ members, ∀ type address v,
      readHeld address type member.2 = .ok v → v.Fits type)
    (rewrites : Rewrites members) {name : String} (typed : typeOf? members = some name)
    (canonical : CanonicalMembers (Kind.ofType name) members)
    (read : bodyOf kind members (readMembers address 0 kind (keysOf members) members) = .ok n) :
    Reordered (.object members) n.toJson := by
  obtain ⟨-, sound⟩ := sound_of_bodyOf nodup fits read
  have typeMem := typeMem_of_typeOf? typed
  have typeGet : Json.get? (.object members) "type" = some (.string name) :=
    Assoc.get?_of_mem nodup typeMem
  simp only [bodyOf, monadBind_eq_ok, both_eq_ok, typeGet] at read
  obtain ⟨declared, ⟨_, fields, typeOk, declaredEq, rfl⟩, unknown, unknownEq, nodeEq⟩ := read
  split at typeOk
  · rename_i isTag
    cases nodeEq
    cases isTag
    rw [Kind.ofType_tag] at canonical
    obtain ⟨values, covered⟩ := fields_of_readMembers canonical rewrites declaredEq unknownEq
    exact reordered_of_fields nodup typeMem sound values covered
  · cases typeOk

/-! ## Values that have been read -/

private theorem eq_string_of_string? {json : Json} {s : String} (isString : json.string? = some s) :
    json = .string s := by
  cases json with
  | string t =>
      cases isString
      rfl
  | _ => cases isString

private theorem eq_string_of_readText {json : Json} {s : String} (read : readText json = .ok s) :
    json = .string s := by
  cases json with
  | string t =>
      cases read
      rfl
  | _ => cases read

/-- A canonical constant is written as it was. -/
theorem reordered_of_readConstant {type : FieldType} {json : Json} {v : Value}
    (canonical : isCanonicalConstant (some type) json = true)
    (read : readConstant address type json = .ok v) : Reordered json v.toJson := by
  cases type with
  | node => cases read
  | optionalNode => cases read
  | nodes => cases read
  | optionalNodes => cases read
  | elements => cases read
  | body kind => cases read
  | text =>
      obtain ⟨s, textEq, rfl⟩ := map_eq_ok.mp read
      rw [eq_string_of_readText textEq]
      exact .same _
  | optionalText default =>
      obtain ⟨s, textEq, rfl⟩ := map_eq_ok.mp read
      rw [eq_string_of_readText textEq]
      exact .same _
  | flag =>
      cases json with
      | bool b =>
          cases read
          exact .same _
      | _ => cases canonical
  | optionalFlag =>
      cases json with
      | bool b =>
          cases read
          exact .same _
      | _ => cases canonical
  | number =>
      cases json with
      | number n =>
          cases read
          exact .same _
      | _ => cases canonical
  | name =>
      simp only [readConstant] at read
      split at read
      · rename_i s isString
        cases read
        rw [eq_string_of_string? isString]
        exact .same _
      · cases read

private theorem readConstant_object_ne {type : FieldType} {v : Value} :
    readConstant address type (.object members) ≠ .ok v := by
  intro read
  cases type <;> cases read

private theorem readConstant_array_ne {type : FieldType} {items : List Json} {v : Value} :
    readConstant address type (.array items) ≠ .ok v := by
  intro read
  cases type <;> cases read

private theorem readHeld_optionalNode_eq {json : Json} (notNull : json ≠ .null) :
    readHeld address (some .optionalNode) json = (readNode address json).map .node := by
  cases json with
  | null => exact (notNull rfl).elim
  | _ => rfl

/-- What is read from items is written as they were. -/
abbrev RewritesItems (items : List Json) : Prop :=
  ∀ item ∈ items, ∀ type address v, Canonical type item →
    readHeld address type item = .ok v → Reordered item v.toJson

private theorem reorderedItems_of_readNodes {items : List Json} {values : List Value} {index : Nat}
    (rewrites : RewritesItems items) (canonical : CanonicalItems (some .node) items)
    (read : readNodes address index items = .ok values) :
    ReorderedItems items (itemsToJson values) := by
  induction items generalizing values index with
  | nil =>
      cases read
      exact .nil
  | cons item items ih =>
      rw [RewritesItems, List.forall_mem_cons] at rewrites
      simp only [readNodes, both_eq_ok, under_eq_ok] at read
      obtain ⟨n, rest, nodeEq, restEq, rfl⟩ := read
      refine .cons (rewrites.1 _ (index :: address) (.node n) canonical.1 ?_)
        (ih rewrites.2 canonical.2 restEq)
      rw [readHeld_node_eq, nodeEq]
      rfl

private theorem reorderedItems_of_readElements {items : List Json} {values : List Value}
    {index : Nat} (rewrites : RewritesItems items)
    (canonical : CanonicalItems (some .optionalNode) items)
    (read : readElements address index items = .ok values) :
    ReorderedItems items (itemsToJson values) := by
  induction items generalizing values index with
  | nil =>
      cases read
      exact .nil
  | cons item items ih =>
      rw [RewritesItems, List.forall_mem_cons] at rewrites
      rw [readElements.eq_def] at read
      split at read
      · rename_i itemsEq
        cases itemsEq
      · rename_i rest itemsEq
        cases itemsEq
        obtain ⟨others, othersEq, rfl⟩ := map_eq_ok.mp read
        exact .cons (.same _) (ih rewrites.2 canonical.2 othersEq)
      · rename_i other rest notNull itemsEq
        cases itemsEq
        simp only [both_eq_ok, under_eq_ok] at read
        obtain ⟨n, others, nodeEq, othersEq, rfl⟩ := read
        refine .cons (rewrites.1 (some .optionalNode) (index :: address) (.node n) canonical.1 ?_)
          (ih rewrites.2 canonical.2 othersEq)
        rw [readHeld_optionalNode_eq notNull, nodeEq]
        rfl

private theorem reorderedItems_of_readLooseItems {items : List Json} {values : List Value}
    {index : Nat} (rewrites : RewritesItems items) (canonical : CanonicalItems none items)
    (read : readLooseItems address index items = .ok values) :
    ReorderedItems items (itemsToJson values) := by
  induction items generalizing values index with
  | nil =>
      cases read
      exact .nil
  | cons item items ih =>
      rw [RewritesItems, List.forall_mem_cons] at rewrites
      simp only [readLooseItems, monadBind_eq_ok] at read
      obtain ⟨v, valueEq, rest, restEq, read⟩ := read
      cases read
      exact .cons (rewrites.1 none (index :: address) v canonical.1 valueEq)
        (ih rewrites.2 canonical.2 restEq)

/-- A canonical object is written as it was. -/
theorem reordered_of_object {type : Option FieldType} {v : Value}
    (nodup : (Assoc.keys members).Nodup)
    (fits : ∀ member ∈ members, ∀ type address v,
      readHeld address type member.2 = .ok v → v.Fits type)
    (rewrites : Rewrites members) (canonical : Canonical type (.object members))
    (read : readHeld address type (.object members) = .ok v) :
    Reordered (.object members) v.toJson := by
  have canonicalNode : ∀ name, typeOf? members = some name →
      CanonicalMembers (Kind.ofType name) members := by
    intro name typed
    rw [Canonical, typed] at canonical
    exact canonical
  cases type with
  | none =>
      rw [readHeld, readLoose] at read
      split at read
      · cases read
        exact .same _
      · obtain ⟨n, nodeEq, rfl⟩ := map_eq_ok.mp read
        exact reordered_of_nodeOf nodup fits rewrites canonicalNode nodeEq
  | some type =>
      rw [readHeld, readField.eq_def] at read
      cases type with
      | node =>
          obtain ⟨n, nodeEq, rfl⟩ := map_eq_ok.mp read
          exact reordered_of_nodeOf nodup fits rewrites canonicalNode nodeEq
      | optionalNode =>
          obtain ⟨n, nodeEq, rfl⟩ := map_eq_ok.mp read
          exact reordered_of_nodeOf nodup fits rewrites canonicalNode nodeEq
      | name =>
          simp only at read
          split at read
          · rename_i n nodeEq
            cases read
            exact reordered_of_nodeOf nodup fits rewrites canonicalNode nodeEq
          · cases read
      | body kind =>
          obtain ⟨n, nodeEq, rfl⟩ := map_eq_ok.mp read
          rw [Canonical] at canonical
          split at canonical
          · cases canonical
          · rename_i name typed
            exact reordered_of_bodyOf nodup fits rewrites typed canonical nodeEq
      | _ => exact (readConstant_object_ne read).elim

/-- A canonical array is written as it was. -/
theorem reordered_of_array {type : Option FieldType} {items : List Json} {v : Value}
    (rewrites : RewritesItems items) (canonical : Canonical type (.array items))
    (read : readHeld address type (.array items) = .ok v) :
    Reordered (.array items) v.toJson := by
  rw [Canonical] at canonical
  cases type with
  | none =>
      rw [readHeld, readLoose] at read
      obtain ⟨values, valuesEq, rfl⟩ := map_eq_ok.mp read
      exact .array (reorderedItems_of_readLooseItems rewrites canonical valuesEq)
  | some type =>
      rw [readHeld, readField.eq_def] at read
      cases type with
      | nodes =>
          obtain ⟨values, valuesEq, rfl⟩ := map_eq_ok.mp read
          exact .array (reorderedItems_of_readNodes rewrites canonical valuesEq)
      | optionalNodes =>
          obtain ⟨values, valuesEq, rfl⟩ := map_eq_ok.mp read
          exact .array (reorderedItems_of_readNodes rewrites canonical valuesEq)
      | elements =>
          obtain ⟨values, valuesEq, rfl⟩ := map_eq_ok.mp read
          exact .array (reorderedItems_of_readElements rewrites canonical valuesEq)
      | _ => exact (readConstant_array_ne read).elim

/-- A canonical null is written as it was. -/
theorem reordered_of_null {type : Option FieldType} {v : Value}
    (canonical : isCanonicalConstant type .null = true)
    (read : readHeld address type .null = .ok v) : Reordered .null v.toJson := by
  cases type with
  | none =>
      cases read
      exact .same _
  | some type =>
      rw [readHeld, readField.eq_def] at read
      cases type with
      | optionalNode =>
          cases read
          exact .same _
      | optionalNodes =>
          cases read
          exact .same _
      | _ => exact reordered_of_readConstant canonical read

mutual

theorem reordered_of_readHeld : (json : Json) → json.Distinct → ∀ type address v,
    Canonical type json → readHeld address type json = .ok v → Reordered json v.toJson
  | .object members, distinct, _, _, _, canonical, read =>
      reordered_of_object distinct.1 (membersFit members distinct.2)
        (membersRewrite members distinct.2) canonical read
  | .array items, distinct, _, _, _, canonical, read =>
      reordered_of_array (itemsRewrite items distinct) canonical read
  | .null, _, _, _, _, canonical, read => reordered_of_null canonical read
  | .bool b, _, none, _, _, _, read => by
      cases read
      exact .same _
  | .number n, _, none, _, _, _, read => by
      cases read
      exact .same _
  | .string s, _, none, _, _, _, read => by
      cases read
      exact .same _
  | .bool b, _, some _, _, _, canonical, read => reordered_of_readConstant canonical read
  | .number n, _, some _, _, _, canonical, read => reordered_of_readConstant canonical read
  | .string s, _, some _, _, _, canonical, read => reordered_of_readConstant canonical read
termination_by structural json => json

private theorem itemsRewrite : (items : List Json) → DistinctItems items → RewritesItems items
  | [], _ => fun _ mem => by cases mem
  | item :: items, distinct =>
      List.forall_mem_cons.mpr
        ⟨reordered_of_readHeld item distinct.1, itemsRewrite items distinct.2⟩
termination_by structural items => items

private theorem membersRewrite : (members : List (String × Json)) → DistinctMembers members →
    Rewrites members
  | [], _ => fun _ mem => by cases mem
  | (_, value) :: members, distinct =>
      List.forall_mem_cons.mpr
        ⟨reordered_of_readHeld value distinct.1, membersRewrite members distinct.2⟩
termination_by structural members => members

end

/-- A tree that is read from a canonical value is written as it was, up to the order of
members. -/
theorem reordered_of_readNode {json : Json} {n : Node} (distinct : json.Distinct)
    (canonical : Canonical (some .node) json) (read : readNode address json = .ok n) :
    Reordered json n.toJson := by
  have held : readHeld address (some .node) json = .ok (.node n) := by
    rw [readHeld_node_eq, read]
    rfl
  exact reordered_of_readHeld json distinct _ _ _ canonical held

end PropValidators.Ast
