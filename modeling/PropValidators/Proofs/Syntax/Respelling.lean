import PropValidators.Proofs.Syntax.Below
import PropValidators.Proofs.Types.FromOutline
import Mathlib.Logic.Equiv.Basic

/-!
# Two spellings of type arguments

The type arguments at a class, a call, a type reference or a heritage clause stand under one of
two keys.  The kind of the node declares a field for the first of them, and the second one is an
unknown field.  A tree is respelled when on some of its nodes, at any depth, the list is moved
from the first key to the second.  Whatever is read off a node without going through these keys
is respelled with it, and so are the type arguments.
-/

namespace PropValidators.Ast

/-- Two values are the same except for the nodes in them, which are related one by one. -/
inductive Value.Related (R : Node → Node → Prop) : Value → Value → Prop
  | node {n m : Node} (related : R n m) : Related R (.node n) (.node m)
  | list {items others : List Value} (each : List.Forall₂ (Related R) items others) :
      Related R (.list items) (.list others)
  | data {json : Json} : Related R (.data json) (.data json)

namespace Value.Related

variable {R : Node → Node → Prop} {value other : Value}

private theorem isNull_eq (related : Related R value other) : other.isNull = value.isNull := by
  cases related <;> rfl

theorem text?_eq (related : Related R value other) : other.text? = value.text? := by
  cases related <;> rfl

theorem node? (related : Related R value other) : Option.Rel R value.node? other.node? := by
  cases related with
  | node related => exact .some related
  | list => exact .none
  | data => exact .none

private theorem filterMap_node? {items others : List Value}
    (each : List.Forall₂ (Related R) items others) :
    List.Forall₂ R (items.filterMap Value.node?) (others.filterMap Value.node?) := by
  induction each with
  | nil => exact .nil
  | cons head _ ih =>
      cases head with
      | node related => exact .cons related ih
      | list => exact ih
      | data => exact ih

/-- The nodes met in going through the values are related one by one. -/
theorem nodes (related : Related R value other) :
    List.Forall₂ R (value.items.filterMap Value.node?) (other.items.filterMap Value.node?) := by
  cases related with
  | list each => exact filterMap_node? each
  | node =>
      rw [filterMap_node?_items_of_list?_eq_none rfl, filterMap_node?_items_of_list?_eq_none rfl]
      exact .nil
  | data =>
      rw [filterMap_node?_items_of_list?_eq_none rfl]
      exact .nil

end Value.Related

/-- The keys of the two fields for the type arguments of a node. -/
structure Spelling where
  /-- The key of the declared field. -/
  first : String
  /-- The key of the unknown field. -/
  second : String

namespace Spelling

/-- The type arguments that a class gives to its superclass. -/
def ofSuperclass : Spelling := ⟨"superTypeParameters", "superTypeArguments"⟩

/-- The type arguments that a node gives to what it names. -/
def ofName : Spelling := ⟨"typeParameters", "typeArguments"⟩

end Spelling

/-- The spellings of the type arguments of the nodes of a kind. -/
def Kind.spelling? : Kind → Option Spelling
  | .classDeclaration => some .ofSuperclass
  | .callExpression | .typeReference | .heritageClause => some .ofName
  | _ => none

/-- In the second tree the type arguments of some nodes, which had them under the first key only,
are under the second one. -/
inductive Node.Respelled : Node → Node → Prop
  /-- All fields of the node keep their names. -/
  | kept {n m : Node} (type_eq : m.type = n.type) (layout : Layout m.kind (m.fields.map Prod.fst))
      (same : ∀ name,
        Option.Rel (Value.Related Node.Respelled) (n.field? name) (m.field? name)) :
      Node.Respelled n m
  /-- The type arguments of the node are moved. -/
  | moved {n m : Node} {spelling : Spelling} (type_eq : m.type = n.type)
      (layout : Layout m.kind (m.fields.map Prod.fst))
      (spelled : n.kind.spelling? = some spelling)
      (only : n.field? (.unknown spelling.second) = none)
      (left : m.field? (.declared spelling.first) = none)
      (put : Option.Rel (Value.Related Node.Respelled) (n.field? (.declared spelling.first))
        (m.field? (.unknown spelling.second)))
      (same : ∀ name, name ≠ .declared spelling.first → name ≠ .unknown spelling.second →
        Option.Rel (Value.Related Node.Respelled) (n.field? name) (m.field? name)) :
      Node.Respelled n m

/-- The fields for type arguments, in both spellings. -/
def argumentFields : List FieldName :=
  [.declared "superTypeParameters", .declared "typeParameters", .unknown "superTypeArguments",
    .unknown "typeArguments"]

theorem mem_argumentFields {kind : Kind} {spelling : Spelling}
    (spelled : kind.spelling? = some spelling) :
    .declared spelling.first ∈ argumentFields ∧ .unknown spelling.second ∈ argumentFields := by
  rw [Kind.spelling?.eq_def] at spelled
  split at spelled <;> cases spelled <;> decide

/-- A null value counts as absent on both sides. -/
theorem rel_filter_isNull {R : Node → Node → Prop} {held other : Option Value}
    (related : Option.Rel (Value.Related R) held other) :
    Option.Rel (Value.Related R) (held.filter fun value => !value.isNull)
      (other.filter fun value => !value.isNull) := by
  cases related with
  | none => exact .none
  | some related =>
      rw [Option.filter_some, Option.filter_some, related.isNull_eq]
      split
      · exact .some related
      · exact .none

theorem rel_orElse {α β : Type} {R : α → β → Prop} {a b : Option α} {c d : Option β}
    (first : Option.Rel R a c) (second : Option.Rel R b d) :
    Option.Rel R (a <|> b) (c <|> d) := by
  cases first with
  | none => exact second
  | some related => exact .some related

/-- Of two places it makes no difference which one is empty. -/
theorem rel_orElse_none {α β : Type} {R : α → β → Prop} {a : Option α} {b : Option β}
    (related : Option.Rel R a b) : Option.Rel R (a <|> none) (none <|> b) := by
  cases related with
  | none => exact .none
  | some related => exact .some related

namespace Node.Respelled

variable {n m : Node}

theorem type_eq (respelled : n.Respelled m) : m.type = n.type := by
  cases respelled <;> assumption

theorem kind_eq (respelled : n.Respelled m) : m.kind = n.kind := by
  rw [kind, kind, respelled.type_eq]

theorem layout (respelled : n.Respelled m) : Layout m.kind (m.fields.map Prod.fst) := by
  cases respelled <;> assumption

/-- All fields but those for type arguments keep their names. -/
theorem field? (respelled : n.Respelled m) {name : FieldName} (apart : name ∉ argumentFields) :
    Option.Rel (Value.Related Respelled) (n.field? name) (m.field? name) := by
  cases respelled with
  | kept _ _ same => exact same name
  | moved _ _ spelled _ _ _ same =>
      obtain ⟨firstMem, secondMem⟩ := mem_argumentFields spelled
      apply same
      · rintro rfl
        exact apart firstMem
      · rintro rfl
        exact apart secondMem

/-- A node without type arguments keeps the names of all its fields. -/
theorem field?_of_spelling?_eq_none (respelled : n.Respelled m)
    (unspelled : n.kind.spelling? = none) (name : FieldName) :
    Option.Rel (Value.Related Respelled) (n.field? name) (m.field? name) := by
  cases respelled with
  | kept _ _ same => exact same name
  | moved _ _ spelled =>
      rw [unspelled] at spelled
      cases spelled

end Node.Respelled

/-- The field for the first spelling may hold a node, or null, or be left out. -/
theorem Kind.typeOfField?_first {kind : Kind} {spelling : Spelling}
    (spelled : kind.spelling? = some spelling) :
    kind.typeOfField? (.declared spelling.first) = some .optionalNode := by
  rw [Kind.spelling?.eq_def] at spelled
  split at spelled <;> cases spelled <;> decide

/-- What may stand in the field for the first spelling may stand in an unknown field. -/
theorem Value.Fits.of_optionalNode {value : Value} (fits : value.Fits (some .optionalNode)) :
    value.Fits none := by
  rcases Value.eq_null_or_node_of_fits fits with rfl | ⟨n, rfl, sound⟩
  · exact trivial
  · exact ⟨trivial, sound⟩

/-- A node is sound when its fields are those of its kind and hold what they may. -/
theorem Node.sound_of_fits {n : Node} (layout : Layout n.kind (n.fields.map Prod.fst))
    (fits : ∀ name value, n.field? name = some value → value.Fits (n.kind.typeOfField? name)) :
    n.Sound := by
  rw [Node.sound_iff]
  refine ⟨layout, fun field mem => fits field.1 field.2 ?_⟩
  rw [field?, find?_of_mem layout.nodup mem]
  rfl

/-- A respelled sound tree is sound. -/
theorem Node.Respelled.sound {n m : Node} (respelled : n.Respelled m) (sound : n.Sound) :
    m.Sound := by
  -- The values of fields and the items of lists go along, by the recursor of the nested relation.
  induction respelled using Node.Respelled.rec
    (motive_2 := fun held other _ => ∀ type, (∀ value, held = some value → value.Fits type) →
      ∀ value, other = some value → value.Fits type)
    (motive_3 := fun value other _ => ∀ type, value.Fits type → other.Fits type)
    (motive_4 := fun items others _ => ∀ type, FitItems type items → FitItems type others) with
  | kept typeEq layout _ ih =>
      refine sound_of_fits layout fun name value held => ?_
      rw [kind, typeEq]
      exact ih name _ (fun _ => sound.fits_of_field?) value held
  | @moved n m spelling typeEq layout spelled _ left _ _ putIh ih =>
      refine sound_of_fits layout fun name value held => ?_
      rw [kind, typeEq]
      by_cases isFirst : name = .declared spelling.first
      · rw [isFirst, left] at held
        cases held
      · by_cases isSecond : name = .unknown spelling.second
        · subst isSecond
          refine Value.Fits.of_optionalNode (putIh _ (fun first firstHeld => ?_) value held)
          rw [← Kind.typeOfField?_first spelled]
          exact sound.fits_of_field? firstHeld
        · exact ih name isFirst isSecond _ (fun _ => sound.fits_of_field?) value held
  | some _ ih =>
      rename_i fits value held
      cases held
      exact ih _ (fits _ rfl)
  | none =>
      rename_i held
      cases held
  | node related ih =>
      rename_i fits
      refine ⟨?_, ih fits.2⟩
      rw [related.type_eq]
      exact fits.1
  | list _ ih =>
      rename_i fits
      obtain ⟨item, itemEq, itemsFit⟩ := fits
      exact ⟨item, itemEq, ih item itemsFit⟩
  | data => assumption
  | nil => trivial
  | cons _ _ headIh ih =>
      rename_i fits
      exact ⟨headIh _ fits.1, ih _ fits.2⟩

mutual

/-- A sound tree is one of its own respellings. -/
theorem Node.Sound.respelled : {n : Node} → n.Sound → n.Respelled n
  | ⟨_, fields⟩, sound => .kept rfl sound.1 (rel_fields fields sound.2)

theorem Value.Fits.related {type : Option FieldType} :
    {value : Value} → value.Fits type → Value.Related Node.Respelled value value
  | .node ⟨_, _⟩, fits => .node (Node.Sound.respelled fits.2)
  | .list items, ⟨_, _, fits⟩ => .list (forall₂_related items fits)
  | .data _, _ => .data

private theorem forall₂_related {type : Option FieldType} : (items : List Value) →
    FitItems type items → List.Forall₂ (Value.Related Node.Respelled) items items
  | [], _ => .nil
  | _ :: items, fits => .cons (Value.Fits.related fits.1) (forall₂_related items fits.2)

theorem rel_fields {kind : Kind} : (fields : List (FieldName × Value)) →
    SoundFields kind fields → ∀ name, Option.Rel (Value.Related Node.Respelled)
      ((fields.find? fun field => field.1 == name).map Prod.snd)
      ((fields.find? fun field => field.1 == name).map Prod.snd)
  | [], _, _ => .none
  | (own, _) :: fields, sound, name => by
      rw [List.find?_cons]
      cases own == name with
      | true => exact .some (Value.Fits.related sound.1)
      | false => exact rel_fields fields sound.2 name

end

end PropValidators.Ast
