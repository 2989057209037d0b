import PropValidators.Proofs.Syntax.RoundTrip

/-!
# What is read is sound

Every tree that is read from a JSON value without repeated keys is sound.  The fields that
are read stand in the order of the kind whatever the order of the members was, and a member
that was not read as a declared field is not read as one later either.
-/

namespace PropValidators

mutual

/-- No object at any depth has the same key twice. -/
@[simp]
def Json.Distinct : Json → Prop
  | .array items => DistinctItems items
  | .object members => (Assoc.keys members).Nodup ∧ DistinctMembers members
  | _ => True
termination_by structural json => json

/-- No object in the items of an array has the same key twice. -/
@[simp]
def DistinctItems : List Json → Prop
  | [] => True
  | item :: items => item.Distinct ∧ DistinctItems items
termination_by structural items => items

/-- No object in the members of an object has the same key twice. -/
@[simp]
def DistinctMembers : List (String × Json) → Prop
  | [] => True
  | (_, value) :: members => value.Distinct ∧ DistinctMembers members
termination_by structural members => members

end

end PropValidators

namespace PropValidators.Ast

/-! ## Members that have been read -/

/-- A member of a node of a kind, whose object has some keys, is read in its right place:
what it holds fits there. -/
def Member.Placed (kind : Kind) (keys : List String) : Member → Prop
  | .declared key _ value =>
      ∀ v, value = .ok v → v.Fits (kind.typeOfField? (.declared key))
  | .unknown key value =>
      key ≠ "type" ∧ specFor? kind keys key = none ∧ ∀ v, value = .ok v → v.Fits none

/-- The key of a member that is read as an unknown field. -/
def Member.unknownKey? : Member → Option String
  | .declared _ _ _ => none
  | .unknown key _ => some key

variable {kind : Kind} {keys : List String} {address : Address}

/-- What is read as a declared field is one. -/
theorem mem_fields_of_specFor? {key : String} {spec : FieldSpec}
    (found : specFor? kind keys key = some spec) : spec ∈ kind.fields := by
  rw [specFor?] at found
  cases byKey : kind.specOfKey? key with
  | some other =>
      rw [byKey] at found
      cases found
      exact Kind.mem_of_specOfKey? byKey
  | none =>
      rw [byKey] at found
      exact List.mem_of_find?_eq_some (Option.filter_eq_some_iff.mp found).1

theorem readMembers_placed {members : List (String × Json)}
    (fits : ∀ member ∈ members, ∀ type address v,
      readHeld address type member.2 = .ok v → v.Fits type) (index : Nat) :
    ∀ member ∈ readMembers address index kind keys members, member.Placed kind keys := by
  induction members generalizing index with
  | nil => simp [readMembers]
  | cons member members ih =>
      obtain ⟨key, json⟩ := member
      rw [List.forall_mem_cons] at fits
      have rest := ih fits.2 (index + 1)
      rw [readMembers]
      split
      · exact rest
      · rename_i notType
        split
        · rename_i spec found
          rw [List.forall_mem_cons]
          refine ⟨?_, rest⟩
          intro v read
          rw [Kind.typeOfField?, Kind.specOfKey?_of_mem (mem_fields_of_specFor? found)]
          exact fits.1 (some spec.type) _ v read
        · rename_i specNone
          rw [List.forall_mem_cons]
          exact ⟨⟨notType, specNone, fits.1 none _⟩, rest⟩

theorem unknownKeys_readMembers_sublist (members : List (String × Json)) (index : Nat) :
    ((readMembers address index kind keys members).filterMap Member.unknownKey?).Sublist
      (Assoc.keys members) := by
  induction members generalizing index with
  | nil => simp [readMembers]
  | cons member members ih =>
      obtain ⟨key, json⟩ := member
      rw [readMembers, Assoc.keys, List.map_cons]
      split
      · exact (ih (index + 1)).trans (List.sublist_cons_self _ _)
      · split
        · exact (ih (index + 1)).trans (List.sublist_cons_self _ _)
        · exact (ih (index + 1)).cons_cons key

/-- A member under the key of a declared field is read as that field. -/
theorem isSome_declaredMember?_of_mem {members : List (String × Json)} {spec : FieldSpec}
    (specMem : spec ∈ kind.fields) (mem : spec.key ∈ Assoc.keys members) (index : Nat) :
    (declaredMember? (readMembers address index kind keys members) spec.key).isSome := by
  induction members generalizing index with
  | nil => cases mem
  | cons member members ih =>
      obtain ⟨key, json⟩ := member
      rw [Assoc.keys, List.map_cons, List.mem_cons] at mem
      rw [readMembers]
      rcases mem with rfl | mem
      · rw [if_neg (Kind.key_ne_type specMem), specFor?, Kind.specOfKey?_of_mem specMem]
        simp [declaredMember?]
      · have rest := ih mem (index + 1)
        rw [declaredMember?] at rest ⊢
        split
        · exact rest
        · split
          · rw [List.findSome?_cons]
            split
            · rfl
            · exact rest
          · exact rest

/-! ## Nodes that have been read -/

@[simp]
theorem both_eq_ok {α β γ : Type} {combine : α → β → γ} {x : Checked α} {y : Checked β} {c : γ} :
    Checked.both combine x y = .ok c ↔ ∃ a b, x = .ok a ∧ y = .ok b ∧ combine a b = c := by
  cases x <;> cases y <;> simp [Checked.both]

@[simp]
theorem under_eq_ok {α : Type} {step : String} {x : Checked α} {a : α} :
    Checked.under step x = .ok a ↔ x = .ok a := by
  cases x <;> simp [Checked.under, Except.mapError]

/-- The declared fields that are read are those that some member is read as, in the order of
the kind, and they hold what those members hold. -/
theorem declaredFields_eq_ok {members : List Member} {specs : List FieldSpec}
    {fields : List (FieldName × Value)} (read : declaredFields members specs = .ok fields) :
    fields.map Prod.fst =
        (specs.filter fun spec => (declaredMember? members spec.key).isSome).map
          (fun spec => .declared spec.key) ∧
      (∀ spec ∈ specs, spec.type.required = true →
        (declaredMember? members spec.key).isSome = true) ∧
      ∀ field ∈ fields, ∃ key found, field.1 = .declared key ∧
        .declared key found (.ok field.2) ∈ members := by
  induction specs generalizing fields with
  | nil =>
      cases read
      simp
  | cons spec specs ih =>
      rw [declaredFields, both_eq_ok] at read
      obtain ⟨head, tail, headEq, tailEq, rfl⟩ := read
      obtain ⟨names, required, values⟩ := ih tailEq
      cases memberEq : declaredMember? members spec.key with
      | none =>
          simp only [memberEq] at headEq
          split at headEq
          · cases headEq
          · rename_i optional
            cases headEq
            refine ⟨?_, ?_, ?_⟩
            · rw [List.filter_cons_of_neg (by simp [memberEq])]
              exact names
            · rw [List.forall_mem_cons]
              exact ⟨fun required => absurd required optional, required⟩
            · exact values
      | some member =>
          obtain ⟨found, value⟩ := member
          simp only [memberEq] at headEq
          obtain ⟨v, valueEq, rfl⟩ := map_eq_ok.mp headEq
          rw [under_eq_ok] at valueEq
          refine ⟨?_, ?_, ?_⟩
          · rw [List.filter_cons_of_pos (by simp [memberEq]), List.map_append, names]
            rfl
          · rw [List.forall_mem_cons]
            exact ⟨fun _ => by simp [memberEq], required⟩
          · rw [List.singleton_append, List.forall_mem_cons]
            refine ⟨⟨spec.key, found, rfl, ?_⟩, values⟩
            rw [declaredMember?] at memberEq
            obtain ⟨member, memberMem, memberIs⟩ := List.exists_of_findSome?_eq_some memberEq
            cases member with
            | declared key other held =>
                simp only [Option.ite_none_right_eq_some, Option.some.injEq,
                  Prod.mk.injEq] at memberIs
                obtain ⟨rfl, rfl, rfl⟩ := memberIs
                rw [← valueEq]
                exact memberMem
            | unknown key held => cases memberIs

theorem unknownFields_eq_ok {members : List Member} {fields : List (FieldName × Value)}
    (read : unknownFields members = .ok fields) :
    fields.map Prod.fst = (members.filterMap Member.unknownKey?).map .unknown ∧
      ∀ field ∈ fields, ∃ key, field.1 = .unknown key ∧ .unknown key (.ok field.2) ∈ members := by
  induction members generalizing fields with
  | nil =>
      cases read
      simp
  | cons member members ih =>
      cases member with
      | declared key found value =>
          rw [unknownFields] at read
          obtain ⟨names, values⟩ := ih read
          refine ⟨names, fun field mem => ?_⟩
          obtain ⟨key, nameEq, memberMem⟩ := values field mem
          exact ⟨key, nameEq, List.mem_cons_of_mem _ memberMem⟩
      | unknown key value =>
          simp only [unknownFields, monadBind_eq_ok] at read
          obtain ⟨v, rfl, rest, restEq, read⟩ := read
          cases read
          obtain ⟨names, values⟩ := ih restEq
          constructor
          · rw [List.map_cons, names]
            rfl
          · rw [List.forall_mem_cons]
            refine ⟨⟨key, rfl, List.mem_cons_self⟩, fun field mem => ?_⟩
            obtain ⟨key, nameEq, memberMem⟩ := values field mem
            exact ⟨key, nameEq, List.mem_cons_of_mem _ memberMem⟩

/-- A node put together from members in their right places is sound. -/
theorem sound_of_placed {type : String} {kind : Kind} {keys : List String} {members : List Member}
    {declared unknown : List (FieldName × Value)} (kindEq : Kind.ofType type = kind)
    (placed : ∀ member ∈ members, member.Placed kind keys)
    (distinct : (members.filterMap Member.unknownKey?).Nodup)
    (isRead : ∀ spec ∈ kind.fields, spec.key ∈ keys →
      (declaredMember? members spec.key).isSome)
    (declaredEq : declaredFields members kind.fields = .ok declared)
    (unknownEq : unknownFields members = .ok unknown) :
    Node.Sound ⟨type, declared ++ unknown⟩ := by
  subst kindEq
  obtain ⟨declaredNames, required, declaredValues⟩ := declaredFields_eq_ok declaredEq
  obtain ⟨unknownNames, unknownValues⟩ := unknownFields_eq_ok unknownEq
  rw [Node.Sound, soundFields_iff]
  constructor
  · refine ⟨_, _, ?_, required, distinct, ?_⟩
    · rw [List.map_append, declaredNames, unknownNames]
    · intro key mem
      obtain ⟨member, memberMem, keyEq⟩ := List.mem_filterMap.mp mem
      cases member with
      | declared other found value => cases keyEq
      | unknown other value =>
          cases keyEq
          obtain ⟨notType, specNone, -⟩ := placed _ memberMem
          refine ⟨notType, ?_⟩
          rw [specFor?] at specNone ⊢
          cases byKey : (Kind.ofType type).specOfKey? key with
          | some spec =>
              rw [byKey] at specNone
              cases specNone
          | none =>
              rw [byKey] at specNone
              simp only [Option.filter_eq_none_iff, Bool.not_eq_true, Bool.not_eq_false',
                List.contains_iff_mem] at specNone ⊢
              intro spec byLabel
              have specMem : spec ∈ (Kind.ofType type).fields := List.mem_of_find?_eq_some byLabel
              have present := isRead spec specMem (specNone spec byLabel)
              rw [List.map_append, List.map_append, declaredNames]
              apply List.mem_append_left
              rw [List.map_map]
              exact List.mem_map.mpr ⟨spec, List.mem_filter.mpr ⟨specMem, present⟩, rfl⟩
  · intro field mem
    rcases List.mem_append.mp mem with inDeclared | inUnknown
    · obtain ⟨key, found, nameEq, memberMem⟩ := declaredValues field inDeclared
      rw [nameEq]
      exact placed _ memberMem _ rfl
    · obtain ⟨key, nameEq, memberMem⟩ := unknownValues field inUnknown
      rw [nameEq]
      exact (placed _ memberMem).2.2 _ rfl

variable {members : List (String × Json)}

theorem sound_of_nodeOf {n : Node} (distinct : (Assoc.keys members).Nodup)
    (fits : ∀ member ∈ members, ∀ type address v,
      readHeld address type member.2 = .ok v → v.Fits type)
    (read : (nodeOf members fun kind =>
      readMembers address 0 kind (keysOf members) members) = .ok n) : n.Sound := by
  rw [nodeOf] at read
  split at read
  · cases read
  · simp only [under_eq_ok, assemble, monadBind_eq_ok] at read
    obtain ⟨declared, declaredEq, unknown, unknownEq, nodeEq⟩ := read
    cases nodeEq
    apply sound_of_placed rfl (readMembers_placed fits 0) _ _ declaredEq unknownEq
    · exact (unknownKeys_readMembers_sublist members 0).nodup distinct
    · exact fun spec specMem mem => isSome_declaredMember?_of_mem specMem mem 0

theorem sound_of_bodyOf {kind : Kind} {n : Node} (distinct : (Assoc.keys members).Nodup)
    (fits : ∀ member ∈ members, ∀ type address v,
      readHeld address type member.2 = .ok v → v.Fits type)
    (read : bodyOf kind members (readMembers address 0 kind (keysOf members) members) = .ok n) :
    n.type = kind.tag ∧ n.Sound := by
  simp only [bodyOf, monadBind_eq_ok, both_eq_ok] at read
  obtain ⟨declared, ⟨_, fields, -, declaredEq, rfl⟩, unknown, unknownEq, nodeEq⟩ := read
  cases nodeEq
  refine ⟨rfl, ?_⟩
  apply sound_of_placed (Kind.ofType_tag kind) (readMembers_placed fits 0) _ _ declaredEq unknownEq
  · exact (unknownKeys_readMembers_sublist members 0).nodup distinct
  · exact fun spec specMem mem => isSome_declaredMember?_of_mem specMem mem 0

/-! ## Values that have been read -/

/-- What is read from a constant fits where it was read. -/
theorem fits_of_readConstant {type : FieldType} {json : Json} {v : Value}
    (read : readConstant address type json = .ok v) : v.Fits (some type) := by
  cases type with
  | node => cases read
  | optionalNode => cases read
  | nodes => cases read
  | optionalNodes => cases read
  | elements => cases read
  | body kind => cases read
  | text =>
      obtain ⟨s, -, rfl⟩ := map_eq_ok.mp read
      exact ⟨s, rfl⟩
  | optionalText default =>
      obtain ⟨s, -, rfl⟩ := map_eq_ok.mp read
      exact ⟨s, rfl⟩
  | flag =>
      obtain ⟨b, -, rfl⟩ := map_eq_ok.mp read
      exact ⟨b, rfl⟩
  | optionalFlag =>
      obtain ⟨b, -, rfl⟩ := map_eq_ok.mp read
      exact ⟨b, rfl⟩
  | number =>
      obtain ⟨n, -, rfl⟩ := map_eq_ok.mp read
      exact ⟨n, rfl⟩
  | name =>
      simp only [readConstant] at read
      split at read
      · rename_i s _
        cases read
        exact ⟨s, rfl⟩
      · cases read

@[simp]
theorem readHeld_node_eq (address : Address) (json : Json) :
    readHeld address (some .node) json = (readNode address json).map .node := by
  cases json <;> rfl

/-- Items that are read as nodes are nodes. -/
theorem fitItems_of_readNodes {items : List Json} {values : List Value} {index : Nat}
    (fits : ∀ item ∈ items, ∀ type address v, readHeld address type item = .ok v → v.Fits type)
    (read : readNodes address index items = .ok values) : FitItems (some .node) values := by
  induction items generalizing values index with
  | nil =>
      cases read
      trivial
  | cons item items ih =>
      rw [List.forall_mem_cons] at fits
      simp only [readNodes, both_eq_ok, under_eq_ok] at read
      obtain ⟨n, rest, nodeEq, restEq, rfl⟩ := read
      refine ⟨fits.1 _ (index :: address) _ ?_, ih fits.2 restEq⟩
      rw [readHeld_node_eq, nodeEq]
      rfl

private theorem fitItems_of_readElements {items : List Json} {values : List Value} {index : Nat}
    (fits : ∀ item ∈ items, ∀ type address v, readHeld address type item = .ok v → v.Fits type)
    (read : readElements address index items = .ok values) :
    FitItems (some .optionalNode) values := by
  induction items generalizing values index with
  | nil =>
      cases read
      trivial
  | cons item items ih =>
      rw [List.forall_mem_cons] at fits
      rw [readElements.eq_def] at read
      split at read
      · rename_i itemsEq
        cases itemsEq
      · rename_i rest itemsEq
        cases itemsEq
        obtain ⟨others, othersEq, rfl⟩ := map_eq_ok.mp read
        exact ⟨rfl, ih fits.2 othersEq⟩
      · rename_i other rest notNull itemsEq
        cases itemsEq
        simp only [both_eq_ok, under_eq_ok] at read
        obtain ⟨n, others, nodeEq, othersEq, rfl⟩ := read
        have node : (Value.node n).Fits (some .node) := by
          apply fits.1 _ (index :: address)
          rw [readHeld_node_eq, nodeEq]
          rfl
        exact ⟨⟨trivial, node.2⟩, ih fits.2 othersEq⟩

private theorem fitItems_of_readLooseItems {items : List Json} {values : List Value} {index : Nat}
    (fits : ∀ item ∈ items, ∀ type address v, readHeld address type item = .ok v → v.Fits type)
    (read : readLooseItems address index items = .ok values) : FitItems none values := by
  induction items generalizing values index with
  | nil =>
      cases read
      trivial
  | cons item items ih =>
      rw [List.forall_mem_cons] at fits
      simp only [readLooseItems, monadBind_eq_ok] at read
      obtain ⟨v, valueEq, rest, restEq, read⟩ := read
      cases read
      exact ⟨fits.1 none (index :: address) v valueEq, ih fits.2 restEq⟩

/-- What is read from an object fits where it was read. -/
theorem fits_of_object {type : Option FieldType} {v : Value} (distinct : (Assoc.keys members).Nodup)
    (fits : ∀ member ∈ members, ∀ type address v,
      readHeld address type member.2 = .ok v → v.Fits type)
    (read : readHeld address type (.object members) = .ok v) : v.Fits type := by
  cases type with
  | none =>
      rw [readHeld, readLoose] at read
      split at read
      · rename_i typeNone
        cases read
        exact typeNone
      · obtain ⟨n, nodeEq, rfl⟩ := map_eq_ok.mp read
        exact ⟨trivial, sound_of_nodeOf distinct fits nodeEq⟩
  | some type =>
      rw [readHeld, readField.eq_def] at read
      cases type with
      | node =>
          obtain ⟨n, nodeEq, rfl⟩ := map_eq_ok.mp read
          exact ⟨trivial, sound_of_nodeOf distinct fits nodeEq⟩
      | optionalNode =>
          obtain ⟨n, nodeEq, rfl⟩ := map_eq_ok.mp read
          exact ⟨trivial, sound_of_nodeOf distinct fits nodeEq⟩
      | name =>
          simp only at read
          split at read
          · rename_i n nodeEq
            cases read
            exact ⟨trivial, sound_of_nodeOf distinct fits nodeEq⟩
          · cases read
      | body kind =>
          obtain ⟨n, nodeEq, rfl⟩ := map_eq_ok.mp read
          exact sound_of_bodyOf distinct fits nodeEq
      | _ => exact fits_of_readConstant read

/-- What is read from an array fits where it was read. -/
theorem fits_of_array {type : Option FieldType} {items : List Json} {v : Value}
    (fits : ∀ item ∈ items, ∀ type address v, readHeld address type item = .ok v → v.Fits type)
    (read : readHeld address type (.array items) = .ok v) : v.Fits type := by
  cases type with
  | none =>
      rw [readHeld, readLoose] at read
      obtain ⟨values, valuesEq, rfl⟩ := map_eq_ok.mp read
      exact ⟨none, rfl, fitItems_of_readLooseItems fits valuesEq⟩
  | some type =>
      rw [readHeld, readField.eq_def] at read
      cases type with
      | nodes =>
          obtain ⟨values, valuesEq, rfl⟩ := map_eq_ok.mp read
          exact ⟨_, rfl, fitItems_of_readNodes fits valuesEq⟩
      | optionalNodes =>
          obtain ⟨values, valuesEq, rfl⟩ := map_eq_ok.mp read
          exact ⟨_, rfl, fitItems_of_readNodes fits valuesEq⟩
      | elements =>
          obtain ⟨values, valuesEq, rfl⟩ := map_eq_ok.mp read
          exact ⟨_, rfl, fitItems_of_readElements fits valuesEq⟩
      | _ => exact fits_of_readConstant read

/-- What is read from null fits where it was read. -/
theorem fits_of_null {type : Option FieldType} {v : Value}
    (read : readHeld address type .null = .ok v) : v.Fits type := by
  cases type with
  | none =>
      cases read
      trivial
  | some type =>
      rw [readHeld, readField.eq_def] at read
      cases type with
      | optionalNode =>
          cases read
          rfl
      | optionalNodes =>
          cases read
          rfl
      | _ => exact fits_of_readConstant read

mutual

theorem fits_of_readHeld : (json : Json) → json.Distinct → ∀ type address v,
    readHeld address type json = .ok v → v.Fits type
  | .object members, distinct, _, _, _, read =>
      fits_of_object distinct.1 (membersFit members distinct.2) read
  | .array items, distinct, _, _, _, read => fits_of_array (itemsFit items distinct) read
  | .null, _, _, _, _, read => fits_of_null read
  | .bool b, _, none, _, _, read => by
      cases read
      trivial
  | .number n, _, none, _, _, read => by
      cases read
      trivial
  | .string s, _, none, _, _, read => by
      cases read
      trivial
  | .bool b, _, some _, _, _, read => fits_of_readConstant read
  | .number n, _, some _, _, _, read => fits_of_readConstant read
  | .string s, _, some _, _, _, read => fits_of_readConstant read
termination_by structural json => json

theorem itemsFit : (items : List Json) → DistinctItems items → ∀ item ∈ items, ∀ type address v,
    readHeld address type item = .ok v → v.Fits type
  | [], _ => by simp
  | item :: items, distinct =>
      List.forall_mem_cons.mpr ⟨fits_of_readHeld item distinct.1, itemsFit items distinct.2⟩
termination_by structural items => items

theorem membersFit : (members : List (String × Json)) → DistinctMembers members →
    ∀ member ∈ members, ∀ type address v, readHeld address type member.2 = .ok v → v.Fits type
  | [], _ => by simp
  | (_, value) :: members, distinct =>
      List.forall_mem_cons.mpr ⟨fits_of_readHeld value distinct.1, membersFit members distinct.2⟩
termination_by structural members => members

end

/-- Every node that is read is sound. -/
theorem sound_of_readNode {json : Json} {n : Node} (distinct : json.Distinct)
    (read : readNode address json = .ok n) : n.Sound := by
  have held : readHeld address (some .node) json = .ok (.node n) := by
    rw [readHeld_node_eq, read]
    rfl
  exact (fits_of_readHeld json distinct _ _ _ held).2

end PropValidators.Ast
