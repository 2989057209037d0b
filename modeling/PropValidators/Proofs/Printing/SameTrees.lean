import PropValidators.Proofs.Printing.Legible
import PropValidators.Proofs.Syntax.Written

/-!
# Expressions that are the same apart from places

Two trees are the same apart from their places and comments if they are equal when all fields that
tell of these are left out.  Some expressions have no fields but those that their text shows: they
have no parts that are not known here, no type arguments and no further fields.  Such expressions
are congruent exactly if they are the same apart from places.
-/

namespace PropValidators

open Ast Node

/-- The fields of a node that say where it stands and which comments there are around it. -/
def placeKeys : List String :=
  ["start", "end", "loc", "range", "leadingComments", "innerComments", "trailingComments"]

mutual

/-- A tree without the places of its nodes and without comments. -/
@[simp]
def Json.withoutPlaces : Json → Json
  | .array items => .array (itemsWithoutPlaces items)
  | .object members => .object (membersWithoutPlaces members)
  | json => json
termination_by structural json => json

/-- The items of a list, each without places. -/
@[simp]
def itemsWithoutPlaces : List Json → List Json
  | [] => []
  | item :: items => item.withoutPlaces :: itemsWithoutPlaces items
termination_by structural items => items

/-- The members that say nothing about places, each without places. -/
@[simp]
def membersWithoutPlaces : List (String × Json) → List (String × Json)
  | [] => []
  | (key, value) :: members =>
      if key ∈ placeKeys then membersWithoutPlaces members
      else (key, value.withoutPlaces) :: membersWithoutPlaces members
termination_by structural members => members

end

@[simp]
theorem itemsWithoutPlaces_eq_map (items : List Json) :
    itemsWithoutPlaces items = items.map Json.withoutPlaces := by
  induction items with
  | nil => rfl
  | cons item items ih => simp [ih]

namespace Json

@[simp]
theorem equals_string_iff (s t : String) : (string s).equals (string t) = true ↔ s = t := by
  simp [equals, equalConstants]

@[simp]
theorem equals_number (x y : Number) : (number x).equals (number y) = x.equals y := by
  simp [equals, equalConstants, number?]

@[simp]
theorem equals_bool_iff (a b : Bool) : (bool a).equals (bool b) = true ↔ a = b := by
  cases a <;> cases b <;> decide

@[simp]
theorem equals_array (items others : List Json) :
    (array items).equals (array others) = equalItems items others := by
  rw [equals]

private theorem equalItems_map_iff {α : Type} {as bs : List α} (json : α → Json) :
    equalItems (as.map json) (bs.map json) = true ↔
      List.Forall₂ (fun a b => (json a).equals (json b) = true) as bs := by
  induction as generalizing bs with
  | nil => cases bs <;> simp [equalItems]
  | cons a as ih => cases bs <;> simp [equalItems, ih]

private theorem equalMembers_append_iff (before : List (String × Json))
    {members others : List (String × Json)} (keys : Assoc.keys members = Assoc.keys others)
    (nodup : (Assoc.keys (before ++ others)).Nodup) :
    equalMembers members (before ++ others) = true ↔
      List.Forall₂ (fun member other => member.2.equals other.2 = true) members others := by
  induction members generalizing before others with
  | nil =>
      cases others with
      | nil => simp [equalMembers]
      | cons other others => cases keys
  | cons member members ih =>
      cases others with
      | nil => cases keys
      | cons other others =>
          obtain ⟨key, value⟩ := member
          obtain ⟨rfl, rest⟩ := List.cons.inj keys
          have found : get? (.object (before ++ other :: others)) other.1 = some other.2 :=
            Assoc.get?_of_mem nodup (List.mem_append_right _ List.mem_cons_self)
          rw [equalMembers, found, Bool.and_eq_true, List.forall₂_cons]
          rw [List.append_cons] at nodup ⊢
          rw [ih _ rest nodup]

/-- Objects with the same keys in the same order are equal if what is under the keys is. -/
theorem equals_object_iff {members others : List (String × Json)}
    (keys : Assoc.keys members = Assoc.keys others) (nodup : (Assoc.keys others).Nodup) :
    (object members).equals (object others) = true ↔
      List.Forall₂ (fun member other => member.2.equals other.2 = true) members others := by
  have lengths : members.length = others.length := by
    simpa [Assoc.keys] using congrArg List.length keys
  rw [equals, lengths, beq_self_eq_true, Bool.true_and]
  exact equalMembers_append_iff [] keys nodup

end Json

namespace Ast.Node

/-- The fields of a node that say nothing about places. -/
def ownFields (n : Node) : List (FieldName × Value) :=
  n.fields.filter fun field => field.1.key ∉ placeKeys

private theorem membersWithoutPlaces_fieldsToJson (fields : List (FieldName × Value)) :
    membersWithoutPlaces (fieldsToJson fields) =
      (fields.filter fun field => field.1.key ∉ placeKeys).map fun field =>
        (field.1.key, field.2.toJson.withoutPlaces) := by
  induction fields with
  | nil => rfl
  | cons field fields ih =>
      obtain ⟨name, value⟩ := field
      rw [fieldsToJson, membersWithoutPlaces, ih]
      by_cases tells : name.key ∈ placeKeys <;> simp [tells]

theorem withoutPlaces_toJson {n : Node} (sound : n.Sound) :
    n.toJson.withoutPlaces = .object (("type", .string n.type) ::
      n.ownFields.map fun field => (field.1.key, field.2.toJson.withoutPlaces)) := by
  rw [toJson_of_sound sound, Json.withoutPlaces, written, writtenMembers, membersWithoutPlaces,
    if_neg (by decide), membersWithoutPlaces_fieldsToJson]
  rfl

private theorem withoutPlaces_nodes (nodes : List Node) :
    (Value.nodes nodes).toJson.withoutPlaces =
      .array (nodes.map fun n => n.toJson.withoutPlaces) := by
  rw [Value.nodes, Value.toJson, itemsToJson_eq_map, Json.withoutPlaces, itemsWithoutPlaces_eq_map,
    List.map_map, List.map_map]
  rfl

/-- A field that says nothing about places is found among those that do not. -/
theorem get?_ownFields {n : Node} {key : String} (apart : key ∉ placeKeys) :
    n.get? key = (n.ownFields.find? fun field => field.1 == .declared key).map Prod.snd := by
  rw [get?, field?, ownFields, List.find?_filter]
  congr 2
  funext field
  by_cases here : field.1 = .declared key
  · simp [here, FieldName.key, apart]
  · simp [here]

/-- Expressions of a kind that have no fields but those that their text shows, apart from places:
names, literals, arrays, calls without type arguments, and what is reached by names and indices. -/
inductive Bare : Kind → Node → Prop
  | identifier {n : Node} {name : String} (own : n.ownFields = [(.declared "name", .text name)]) :
      Bare .identifier n
  | string {n : Node} {s : String} (own : n.ownFields = [(.declared "value", .text s)]) :
      Bare .stringLiteral n
  | number {n : Node} {x : Number}
      (own : n.ownFields = [(.declared "value", .data (.number x))]) : Bare .numericLiteral n
  | truth {n : Node} {b : Bool} (own : n.ownFields = [(.declared "value", .flag b)]) :
      Bare .booleanLiteral n
  | null {n : Node} (own : n.ownFields = []) : Bare .nullLiteral n
  | member {n object key : Node} {computed : Bool}
      (own : n.ownFields = [(.declared "object", .node object), (.declared "property", .node key),
        (.declared "computed", .flag computed)])
      (objectBare : Bare object.kind object) (keyBare : Bare key.kind key) :
      Bare .memberExpression n
  | call {n callee : Node} {arguments : List Node}
      (own : n.ownFields = [(.declared "callee", .node callee),
        (.declared "arguments", .nodes arguments)])
      (calleeBare : Bare callee.kind callee)
      (each : ∀ argument ∈ arguments, Bare argument.kind argument) : Bare .callExpression n
  | array {n : Node} {elements : List Node}
      (own : n.ownFields = [(.declared "elements", .nodes elements)])
      (each : ∀ element ∈ elements, Bare element.kind element) : Bare .arrayExpression n

/-- Two trees are equal but for the places of nodes and the comments. -/
def SameApartFromPlaces (n m : Node) : Prop :=
  n.toJson.withoutPlaces.equals m.toJson.withoutPlaces = true

section Same

variable {n m : Node}

theorem SameApartFromPlaces.kind_eq (sound : n.Sound) (otherSound : m.Sound)
    (same : n.SameApartFromPlaces m) : n.kind = m.kind := by
  rw [SameApartFromPlaces, withoutPlaces_toJson sound, withoutPlaces_toJson otherSound] at same
  have type : n.type = m.type := by
    simp [Json.equals, Json.equalMembers, Json.get?, Json.equalConstants] at same
    exact same.2.1
  rw [kind, kind, type]

theorem Bare.mem_writtenKinds {kind : Kind} (bare : Bare kind n) : kind ∈ writtenKinds := by
  cases bare <;> decide

theorem Congruent.kind_eq (congruent : n.Congruent m) (written : n.kind ∈ writtenKinds) :
    n.kind = m.kind := by
  cases congruent with
  | other notWritten => exact absurd written notWritten
  | identifier kind otherKind => rw [kind, otherKind]
  | string kind otherKind => rw [kind, otherKind]
  | number kind otherKind => rw [kind, otherKind]
  | truth kind otherKind => rw [kind, otherKind]
  | null kind otherKind => rw [kind, otherKind]
  | member kind otherKind => rw [kind, otherKind]
  | call kind otherKind => rw [kind, otherKind]
  | array kind otherKind => rw [kind, otherKind]

private theorem forall₂_iff_of_mem {nodes others : List Node} {R S : Node → Node → Prop}
    (each : ∀ a ∈ nodes, ∀ b ∈ others, R a b ↔ S a b) :
    List.Forall₂ R nodes others ↔ List.Forall₂ S nodes others := by
  induction nodes generalizing others with
  | nil => cases others <;> simp
  | cons n nodes ih =>
      cases others with
      | nil => simp
      | cons m others =>
          rw [List.forall₂_cons, List.forall₂_cons, each n List.mem_cons_self m List.mem_cons_self,
            ih fun a aMem b bMem => each a (List.mem_cons_of_mem _ aMem) b
              (List.mem_cons_of_mem _ bMem)]

/-- What a node holds under a key is found among its own fields. -/
theorem get?_of_ownFields {fields : List (FieldName × Value)} (own : n.ownFields = fields)
    {key : String} (apart : key ∉ placeKeys) {value : Value}
    (found : (fields.find? fun field => field.1 == .declared key).map Prod.snd = some value) :
    n.get? key = some value := by
  rw [get?_ownFields apart, own, found]

private theorem child?_of_ownFields {fields : List (FieldName × Value)} (own : n.ownFields = fields)
    (key : String) (apart : key ∉ placeKeys) {child : Node}
    (found : (fields.find? fun field => field.1 == .declared key).map Prod.snd =
      some (.node child)) : n.child? key = some child := by
  rw [child?, get?_of_ownFields own apart found]
  rfl

private theorem children_of_ownFields {fields : List (FieldName × Value)}
    (own : n.ownFields = fields) (key : String) (apart : key ∉ placeKeys) {nodes : List Node}
    (found : (fields.find? fun field => field.1 == .declared key).map Prod.snd =
      some (.nodes nodes)) : n.children key = nodes := by
  refine children_of_items ?_
  rw [items, get?_of_ownFields own apart found]
  rfl

private theorem text?_of_ownFields {fields : List (FieldName × Value)} (own : n.ownFields = fields)
    (key : String) (apart : key ∉ placeKeys) {s : String}
    (found : (fields.find? fun field => field.1 == .declared key).map Prod.snd =
      some (.text s)) : n.text? key = some s := by
  rw [text?, get?_of_ownFields own apart found]
  rfl

private theorem number?_of_ownFields {fields : List (FieldName × Value)}
    (own : n.ownFields = fields) (key : String) (apart : key ∉ placeKeys) {x : Number}
    (found : (fields.find? fun field => field.1 == .declared key).map Prod.snd =
      some (.data (.number x))) : n.number? key = some x := by
  rw [number?, get?_of_ownFields own apart found]

private theorem flag_of_ownFields {fields : List (FieldName × Value)} (own : n.ownFields = fields)
    (key : String) (apart : key ∉ placeKeys) {b : Bool}
    (found : (fields.find? fun field => field.1 == .declared key).map Prod.snd =
      some (.flag b)) : n.flag key = b := by
  rw [flag, get?_of_ownFields own apart found]
  rfl

private theorem equals_nodes_iff {nodes others : List Node} :
    (Value.nodes nodes).toJson.withoutPlaces.equals (Value.nodes others).toJson.withoutPlaces =
      true ↔ List.Forall₂ SameApartFromPlaces nodes others := by
  rw [withoutPlaces_nodes, withoutPlaces_nodes, Json.equals_array, Json.equalItems_map_iff]
  rfl

private theorem congruent_identifier_iff {name other : String} (kind : n.kind = .identifier)
    (otherKind : m.kind = .identifier) (text : n.text? "name" = some name)
    (otherText : m.text? "name" = some other) : n.Congruent m ↔ name = other := by
  constructor
  · intro congruent
    cases congruent with
    | other notWritten => exact absurd (kind ▸ by decide) notWritten
    | _ => simp_all
  · rintro rfl
    exact .identifier kind otherKind text otherText

private theorem congruent_string_iff {s t : String} (kind : n.kind = .stringLiteral)
    (otherKind : m.kind = .stringLiteral) (text : n.text? "value" = some s)
    (otherText : m.text? "value" = some t) : n.Congruent m ↔ s = t := by
  constructor
  · intro congruent
    cases congruent with
    | other notWritten => exact absurd (kind ▸ by decide) notWritten
    | _ => simp_all
  · rintro rfl
    exact .string kind otherKind text otherText

private theorem congruent_number_iff {x y : Number} (kind : n.kind = .numericLiteral)
    (otherKind : m.kind = .numericLiteral) (value : n.number? "value" = some x)
    (otherValue : m.number? "value" = some y) : n.Congruent m ↔ x.equals y = true := by
  constructor
  · intro congruent
    cases congruent with
    | other notWritten => exact absurd (kind ▸ by decide) notWritten
    | _ => simp_all
  · exact .number kind otherKind value otherValue

private theorem congruent_truth_iff (kind : n.kind = .booleanLiteral)
    (otherKind : m.kind = .booleanLiteral) :
    n.Congruent m ↔ n.flag "value" = m.flag "value" := by
  constructor
  · intro congruent
    cases congruent with
    | other notWritten => exact absurd (kind ▸ by decide) notWritten
    | _ => simp_all
  · exact .truth kind otherKind

private theorem congruent_member_iff {object other key otherKey : Node}
    (kind : n.kind = .memberExpression) (otherKind : m.kind = .memberExpression)
    (held : n.child? "object" = some object) (otherHeld : m.child? "object" = some other)
    (keyEq : n.child? "property" = some key) (otherKeyEq : m.child? "property" = some otherKey) :
    n.Congruent m ↔ object.Congruent other ∧ key.Congruent otherKey ∧
      n.flag "computed" = m.flag "computed" := by
  constructor
  · intro congruent
    cases congruent with
    | other notWritten => exact absurd (kind ▸ by decide) notWritten
    | _ => simp_all
  · rintro ⟨objects, keys, flags⟩
    exact .member kind otherKind flags held otherHeld keyEq otherKeyEq objects keys

private theorem congruent_call_iff {callee other : Node} (kind : n.kind = .callExpression)
    (otherKind : m.kind = .callExpression) (held : n.child? "callee" = some callee)
    (otherHeld : m.child? "callee" = some other) :
    n.Congruent m ↔ callee.Congruent other ∧
      List.Forall₂ Congruent (n.children "arguments") (m.children "arguments") := by
  constructor
  · intro congruent
    cases congruent with
    | other notWritten => exact absurd (kind ▸ by decide) notWritten
    | _ => simp_all
  · rintro ⟨callees, arguments⟩
    exact .call kind otherKind held otherHeld callees arguments

private theorem congruent_array_iff (kind : n.kind = .arrayExpression)
    (otherKind : m.kind = .arrayExpression) :
    n.Congruent m ↔ List.Forall₂ Congruent (n.children "elements") (m.children "elements") := by
  constructor
  · intro congruent
    cases congruent with
    | other notWritten => exact absurd (kind ▸ by decide) notWritten
    | _ => simp_all
  · exact .array kind otherKind

private theorem type_eq_of_kind_eq (written : n.kind ∈ writtenKinds) (kinds : n.kind = m.kind) :
    n.type = m.type := by
  have single : ∀ kind ∈ writtenKinds,
      kind ∉ [Kind.keywordType, .classDeclaration, .heritageClause, .unmodelled] := by decide
  have ownKind : Kind.ofType n.type = n.kind := rfl
  have otherKind : Kind.ofType m.type = n.kind := kinds.symm
  rw [Kind.eq_tag_of_ofType ownKind (single _ written),
    Kind.eq_tag_of_ofType otherKind (single _ written)]

/-- Nodes of one type are the same apart from places if their own fields are. -/
theorem sameApartFromPlaces_iff (sound : n.Sound) (otherSound : m.Sound) (type : n.type = m.type)
    (keys : n.ownFields.map Prod.fst = m.ownFields.map Prod.fst) :
    n.SameApartFromPlaces m ↔ List.Forall₂ (fun field other =>
      field.2.toJson.withoutPlaces.equals other.2.toJson.withoutPlaces = true)
        n.ownFields m.ownFields := by
  let members (fields : List (FieldName × Value)) : List (String × Json) :=
    fields.map fun field => (field.1.key, field.2.toJson.withoutPlaces)
  have keysOf (fields : List (FieldName × Value)) :
      Assoc.keys (members fields) = (fields.map Prod.fst).map FieldName.key := by
    simp [members, Assoc.keys]
  let tagged (fields : List (FieldName × Value)) : List (String × Json) :=
    ("type", .string m.type) :: members fields
  have sameKeys : Assoc.keys (tagged n.ownFields) = Assoc.keys (tagged m.ownFields) := by
    rw [Assoc.keys_cons, Assoc.keys_cons, keysOf, keysOf, keys]
  have nodup : (Assoc.keys (tagged m.ownFields)).Nodup := by
    have written := keys_written_nodup otherSound
    rw [Node.written, writtenMembers, Assoc.keys_cons, keys_fieldsToJson] at written
    rw [Assoc.keys_cons, keysOf]
    exact written.sublist (((List.filter_sublist.map _).map _).cons_cons _)
  rw [SameApartFromPlaces, withoutPlaces_toJson sound, withoutPlaces_toJson otherSound, type]
  refine (Json.equals_object_iff sameKeys nodup).trans ?_
  simp [tagged, members, List.forall₂_map_left_iff, List.forall₂_map_right_iff]

/-- Bare expressions are congruent exactly if they are the same apart from places. -/
theorem congruent_iff_sameApartFromPlaces (sound : n.Sound) (otherSound : m.Sound)
    (bare : Bare n.kind n) (otherBare : Bare m.kind m) :
    n.Congruent m ↔ n.SameApartFromPlaces m := by
  induction sizeEq : sizeOf n using Nat.strong_induction_on generalizing n m with
  | _ size ih =>
      subst sizeEq
      by_cases kinds : n.kind = m.kind
      · have type := type_eq_of_kind_eq bare.mem_writtenKinds kinds
        have same := sameApartFromPlaces_iff sound otherSound type
        have parts (key : String) {nodes others : List Node} (each : ∀ a ∈ nodes, Bare a.kind a)
            (otherEach : ∀ b ∈ others, Bare b.kind b) (items : n.children key = nodes)
            (otherItems : m.children key = others) :
            ∀ a ∈ n.children key, ∀ b ∈ m.children key, a.Congruent b ↔ a.SameApartFromPlaces b :=
          fun a aMem b bMem => ih _ (sizeOf_children aMem) (sound.of_mem_children aMem)
            (otherSound.of_mem_children bMem) (each a (items ▸ aMem))
            (otherEach b (otherItems ▸ bMem)) rfl
        rw [← kinds] at otherBare
        generalize kindEq : n.kind = k at bare otherBare kinds
        cases bare with
        | identifier own =>
            cases otherBare with
            | identifier otherOwn =>
                have text := text?_of_ownFields own "name" (by decide) rfl
                have otherText := text?_of_ownFields otherOwn "name" (by decide) rfl
                rw [own, otherOwn] at same
                rw [same rfl, congruent_identifier_iff kindEq kinds.symm text otherText]
                simp [Value.text, Value.toJson]
        | string own =>
            cases otherBare with
            | string otherOwn =>
                have text := text?_of_ownFields own "value" (by decide) rfl
                have otherText := text?_of_ownFields otherOwn "value" (by decide) rfl
                rw [own, otherOwn] at same
                rw [same rfl, congruent_string_iff kindEq kinds.symm text otherText]
                simp [Value.text, Value.toJson]
        | number own =>
            cases otherBare with
            | number otherOwn =>
                have value := number?_of_ownFields own "value" (by decide) rfl
                have otherValue := number?_of_ownFields otherOwn "value" (by decide) rfl
                rw [own, otherOwn] at same
                rw [same rfl, congruent_number_iff kindEq kinds.symm value otherValue]
                simp [Value.toJson]
        | truth own =>
            cases otherBare with
            | truth otherOwn =>
                have value := flag_of_ownFields own "value" (by decide) rfl
                have otherValue := flag_of_ownFields otherOwn "value" (by decide) rfl
                rw [own, otherOwn] at same
                rw [same rfl, congruent_truth_iff kindEq kinds.symm, value, otherValue]
                simp [Value.flag, Value.toJson]
        | null own =>
            cases otherBare with
            | null otherOwn =>
                rw [own, otherOwn] at same
                exact iff_of_true (.null kindEq kinds.symm) ((same rfl).mpr .nil)
        | member own objectBare keyBare =>
            cases otherBare with
            | member otherOwn otherObjectBare otherKeyBare =>
                have held := child?_of_ownFields own "object" (by decide) rfl
                have otherHeld := child?_of_ownFields otherOwn "object" (by decide) rfl
                have keyEq := child?_of_ownFields own "property" (by decide) rfl
                have otherKeyEq := child?_of_ownFields otherOwn "property" (by decide) rfl
                have computed := flag_of_ownFields own "computed" (by decide) rfl
                have otherComputed := flag_of_ownFields otherOwn "computed" (by decide) rfl
                have objects := ih _ (sizeOf_child? held) (sound.of_child? held)
                  (otherSound.of_child? otherHeld) objectBare otherObjectBare rfl
                have keys := ih _ (sizeOf_child? keyEq) (sound.of_child? keyEq)
                  (otherSound.of_child? otherKeyEq) keyBare otherKeyBare rfl
                rw [own, otherOwn] at same
                rw [same rfl,
                  congruent_member_iff kindEq kinds.symm held otherHeld keyEq otherKeyEq,
                  objects, keys, computed, otherComputed]
                simp [SameApartFromPlaces, Value.flag, Value.toJson]
        | call own calleeBare each =>
            cases otherBare with
            | call otherOwn otherCalleeBare otherEach =>
                have held := child?_of_ownFields own "callee" (by decide) rfl
                have otherHeld := child?_of_ownFields otherOwn "callee" (by decide) rfl
                have items := children_of_ownFields own "arguments" (by decide) rfl
                have others := children_of_ownFields otherOwn "arguments" (by decide) rfl
                have callees := ih _ (sizeOf_child? held) (sound.of_child? held)
                  (otherSound.of_child? otherHeld) calleeBare otherCalleeBare rfl
                rw [own, otherOwn] at same
                rw [same rfl, congruent_call_iff kindEq kinds.symm held otherHeld, callees,
                  forall₂_iff_of_mem (parts "arguments" each otherEach items others), items, others]
                simp [SameApartFromPlaces, Value.toJson, equals_nodes_iff]
        | array own each =>
            cases otherBare with
            | array otherOwn otherEach =>
                have items := children_of_ownFields own "elements" (by decide) rfl
                have others := children_of_ownFields otherOwn "elements" (by decide) rfl
                rw [own, otherOwn] at same
                rw [same rfl, congruent_array_iff kindEq kinds.symm,
                  forall₂_iff_of_mem (parts "elements" each otherEach items others), items, others]
                simp [equals_nodes_iff]
      · exact iff_of_false (fun congruent => kinds (congruent.kind_eq bare.mem_writtenKinds))
          fun same => kinds (same.kind_eq sound otherSound)

end Same

end Ast.Node

end PropValidators
