import PropValidators.Proofs.Syntax.RoundTrip
import PropValidators.Proofs.Syntax.SetField

/-!
# Written nodes

What is found in the object that a sound node is written as: its type, and under the key of
each declared field what the field holds.  Setting a declared field changes what is found
under its key and nothing else.
-/

namespace PropValidators.Ast

/-- The type of the node that a value is, if it is one. -/
def nodeType? : Json → Option String
  | .object members => typeOf? members
  | _ => none

/-- The items of the array under a key; there are none if there is no array. -/
def arrayUnder (members : List (String × Json)) (key : String) : List Json :=
  match Assoc.get? members key with
  | some (.array items) => items
  | _ => []

/-- Members are others with a value put under a key, up to their order. -/
structure Updated (key : String) (value : Json) (before after : List (String × Json)) : Prop where
  nodup : (Assoc.keys after).Nodup
  put : Assoc.get? after key = some value
  others : ∀ other, other ≠ key → Assoc.get? after other = Assoc.get? before other

@[simp]
theorem itemsToJson_eq_map (items : List Value) : itemsToJson items = items.map Value.toJson := by
  induction items with
  | nil => rfl
  | cons item items ih => rw [itemsToJson, ih, List.map_cons]

/-- The types of most kinds are their names. -/
theorem Kind.eq_tag_of_ofType {kind : Kind} {type : String} (kindEq : Kind.ofType type = kind)
    (single : kind ∉ [.keywordType, .classDeclaration, .heritageClause, .unmodelled]) :
    type = kind.tag := by
  rw [ofType] at kindEq
  split at kindEq
  · simp [← kindEq] at single
  · split at kindEq
    · simp [← kindEq] at single
    · split at kindEq
      · simp [← kindEq] at single
      · cases found : all.find? fun kind => kind.tag == type with
        | none =>
            rw [found] at kindEq
            simp [← kindEq] at single
        | some other =>
            rw [found] at kindEq
            have tagEq : other.tag = type := by simpa using List.find?_some found
            rw [← tagEq, show other = kind from kindEq]

theorem Kind.ofType_eq_iff (kind : Kind)
    (single : kind ∉ [.keywordType, .classDeclaration, .heritageClause, .unmodelled])
    (type : String) : Kind.ofType type = kind ↔ type = kind.tag := by
  constructor
  · exact fun kindEq => eq_tag_of_ofType kindEq single
  · rintro rfl
    exact ofType_tag kind

namespace Node

/-- The members of the object that a node is written as. -/
def written (n : Node) : List (String × Json) :=
  writtenMembers n.type n.fields

theorem toJson_of_sound {n : Node} (sound : n.Sound) : n.toJson = .object n.written := by
  obtain ⟨type, fields⟩ := n
  exact toJson_of_layout sound.1

@[simp]
theorem typeOf?_written (n : Node) : typeOf? n.written = some n.type :=
  rfl

theorem nodeType?_toJson {n : Node} (sound : n.Sound) : nodeType? n.toJson = some n.type := by
  rw [toJson_of_sound sound]
  rfl

theorem keys_written_nodup {n : Node} (sound : n.Sound) : (Assoc.keys n.written).Nodup := by
  have layout := sound.layout
  rw [written, writtenMembers, Assoc.keys, List.map_cons, List.nodup_cons, ← Assoc.keys,
    keys_fieldsToJson]
  exact ⟨layout.type_notMem_keys, layout.keys_nodup⟩

private theorem get?_fieldsToJson_of_declared {fields : List (FieldName × Value)} {key : String}
    (declared : ∀ field ∈ fields, field.1.key = key → field.1 = .declared key) :
    Assoc.get? (fieldsToJson fields) key =
      ((fields.find? fun field => field.1 == .declared key).map Prod.snd).map Value.toJson := by
  induction fields with
  | nil => rfl
  | cons field fields ih =>
      rw [List.forall_mem_cons] at declared
      obtain ⟨name, value⟩ := field
      rw [fieldsToJson]
      by_cases same : name.key = key
      · have nameEq : name = .declared key := declared.1 same
        rw [same, Assoc.get?_cons_self, List.find?_cons_of_pos (by simpa using nameEq)]
        rfl
      · have nameNe : name ≠ .declared key := by
          rintro rfl
          exact same rfl
        rw [Assoc.get?_cons_of_ne same, List.find?_cons_of_neg (by simpa using nameNe)]
        exact ih declared.2

theorem get?_written_of_ne_type {key : String} (notType : key ≠ "type") (n : Node) :
    Assoc.get? n.written key = Assoc.get? (fieldsToJson n.fields) key :=
  Assoc.get?_cons_of_ne (Ne.symm notType) _ _

/-- Under the key of a declared field stands what the field holds. -/
theorem get?_written {n : Node} (sound : n.Sound) {key : String} {spec : FieldSpec}
    (specEq : n.kind.specOfKey? key = some spec) :
    Assoc.get? n.written key = (n.get? key).map Value.toJson := by
  have notType : key ≠ "type" := by
    rw [← Kind.key_of_specOfKey? specEq]
    exact Kind.key_ne_type (Kind.mem_of_specOfKey? specEq)
  rw [get?_written_of_ne_type notType, Node.get?, field?]
  apply get?_fieldsToJson_of_declared
  intro field mem keyEq
  cases nameEq : field.1 with
  | declared other =>
      rw [nameEq] at keyEq
      exact congrArg FieldName.declared keyEq
  | unknown other =>
      rw [nameEq] at keyEq
      have nameMem : .unknown other ∈ n.fields.map Prod.fst := nameEq ▸ List.mem_map_of_mem mem
      have noSpec := sound.layout.specOfKey?_of_unknown nameMem
      rw [show other = key from keyEq, specEq] at noSpec
      cases noSpec

private theorem get?_fieldsToJson_putField {kind : Kind} {key other : String} (ne : other ≠ key)
    (value : Value) (fields : List (FieldName × Value)) :
    Assoc.get? (fieldsToJson (putField kind (.declared key) value fields)) other =
      Assoc.get? (fieldsToJson fields) other := by
  have skip : ∀ (value : Value) (fields : List (FieldName × Value)),
      Assoc.get? (fieldsToJson ((.declared key, value) :: fields)) other =
        Assoc.get? (fieldsToJson fields) other :=
    fun value fields => Assoc.get?_cons_of_ne (Ne.symm ne) _ _
  induction fields with
  | nil => exact skip value []
  | cons field fields ih =>
      obtain ⟨name, held⟩ := field
      rw [putField]
      split
      · rename_i same
        rw [same, skip, skip]
      · split
        · exact skip value _
        · rw [fieldsToJson, fieldsToJson]
          by_cases here : name.key = other
          · rw [here, Assoc.get?_cons_self, Assoc.get?_cons_self]
          · rw [Assoc.get?_cons_of_ne here, Assoc.get?_cons_of_ne here, ih]

/-- A sound node with a declared field set is written with a value put under the key. -/
theorem updated_set {n : Node} (sound : n.Sound) {key : String} {spec : FieldSpec} {value : Value}
    (specEq : n.kind.specOfKey? key = some spec) (fits : value.Fits (some spec.type)) :
    Updated key value.toJson n.written (n.set key value).written := by
  have setSound := sound.set specEq fits
  refine ⟨keys_written_nodup setSound, ?_, ?_⟩
  · rw [get?_written setSound specEq, get?_set_self]
    rfl
  · intro other ne
    by_cases isType : other = "type"
    · rw [isType]
      rfl
    · rw [get?_written_of_ne_type isType, get?_written_of_ne_type isType, Node.set, setField]
      exact get?_fieldsToJson_putField ne value n.fields

/-- Under the key of a field for nodes stand the items of the field. -/
theorem arrayUnder_written {n : Node} (sound : n.Sound) {key : String} {spec : FieldSpec}
    (specEq : n.kind.specOfKey? key = some spec) (nodes : spec.type = .nodes) :
    arrayUnder n.written key = (n.items key).map Value.toJson := by
  rw [arrayUnder, get?_written sound specEq, items]
  cases held : n.get? key with
  | none => rfl
  | some value =>
      have fits := sound.fits_of_get? specEq held
      rw [nodes] at fits
      cases value with
      | list items => exact itemsToJson_eq_map items
      | node m => exact fits.1.elim
      | data data => exact fits.elim

/-- The text in a declared field is the string under its key. -/
theorem text?_eq_some_iff {n : Node} (sound : n.Sound) {key : String} {spec : FieldSpec}
    (specEq : n.kind.specOfKey? key = some spec) {s : String} :
    n.text? key = some s ↔ Assoc.get? n.written key = some (.string s) := by
  rw [get?_written sound specEq, Node.text?]
  cases n.get? key with
  | none => simp
  | some value =>
      cases value with
      | node m =>
          obtain ⟨type, fields⟩ := m
          simp [Value.text?, Value.toJson, Node.toJson]
      | list items => simp [Value.text?, Value.toJson]
      | data data => cases data <;> simp [Value.text?, Value.toJson]

/-- A truth value in a declared field is true if the value under its key is. -/
theorem flag_eq_true_iff {n : Node} (sound : n.Sound) {key : String} {spec : FieldSpec}
    (specEq : n.kind.specOfKey? key = some spec) (isFlag : spec.type = .optionalFlag) :
    n.flag key = true ↔ Assoc.get? n.written key = some (.bool true) := by
  rw [get?_written sound specEq, flag]
  cases held : n.get? key with
  | none => simp
  | some value =>
      have fits := sound.fits_of_get? specEq held
      rw [isFlag] at fits
      cases value with
      | node m => exact fits.1.elim
      | list items =>
          obtain ⟨item, itemEq, -⟩ := fits
          cases itemEq
      | data data =>
          obtain ⟨b, rfl⟩ := fits
          simp [Value.toJson]

/-- What stands under the key of a field for a node that may be left out. -/
theorem get?_written_of_optionalNode {n : Node} (sound : n.Sound) {key : String}
    {spec : FieldSpec} (specEq : n.kind.specOfKey? key = some spec)
    (optional : spec.type = .optionalNode) :
    n.child? key = none ∧
        (Assoc.get? n.written key = none ∨ Assoc.get? n.written key = some .null) ∨
      ∃ m, n.child? key = some m ∧ Assoc.get? n.written key = some m.toJson := by
  rw [get?_written sound specEq, child?]
  cases held : n.get? key with
  | none => exact .inl ⟨rfl, .inl rfl⟩
  | some value =>
      have fits := sound.fits_of_get? specEq held
      rw [optional] at fits
      rcases Value.eq_null_or_node_of_fits fits with rfl | ⟨m, rfl, -⟩
      · exact .inl ⟨rfl, .inr rfl⟩
      · exact .inr ⟨m, rfl, rfl⟩

end Node

end PropValidators.Ast
