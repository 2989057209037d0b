import PropValidators.Proofs.Shapes.WellFormed

/-!
# Well-formed shapes in and out of scopes

A shape that is bound to a type parameter, or leaves the scope of one, gets other origins for
its values that are not numbers.  It stays well-formed.  The change must not make values the
same that were told apart; it need not do so at one and the same place, since no two values of
a shape stand at the same place.
-/

namespace PropValidators

/-- Values at different places that are the same after a change were the same before. -/
def Origin.Reflects (change : List Nat → Origin → Origin) : Prop :=
  ∀ ⦃p q : List Nat⦄, p ≠ q → ∀ ⦃a b : Origin⦄,
    (change p a).same (change q b) = true → a.same b = true

theorem Origin.reflects_passed : Origin.Reflects Origin.passed := by
  intro p q ne a b same
  cases a <;> cases b
  case computed.computed =>
    have eq : Origin.bound 0 p = Origin.bound 0 q := by simpa [passed, Origin.same] using same
    cases eq
    exact absurd rfl ne
  all_goals simp_all [passed, Origin.same]

theorem Origin.reflects_returned : Origin.Reflects fun _ => Origin.returned := by
  intro p q _ a b same
  rcases a with _ | place | _ | ⟨_ | scopes, place⟩ <;>
    rcases b with _ | place | _ | ⟨_ | scopes, place⟩ <;>
      simp_all [returned, Origin.same]

variable {change : List Nat → Origin → Origin}

/-- Below different places there are different places only. -/
theorem cons_ne_cons_of_ne {p q : List Nat} (ne : p ≠ q) (i j : Nat) : i :: p ≠ j :: q :=
  fun eq => ne (List.cons.inj eq).2

section Equality

variable (reflects : Origin.Reflects change) {p q : List Nat} (ne : p ≠ q)

include reflects ne

namespace Literal

private theorem same_of_mapOrigin {a b : Literal}
    (same : (a.mapOrigin (change p)).same (b.mapOrigin (change q)) = true) : a.same b = true := by
  rcases a with s | (i | (a | _ | _)) | c <;> rcases b with t | (j | (b | _ | _)) | d
  case number.float.nan.number.float.nan => exact reflects ne same
  all_goals exact same

private theorem equals_of_mapOrigin {a b : Literal}
    (equal : (a.mapOrigin (change p)).equals (b.mapOrigin (change q)) = true) :
    a.equals b = true := by
  rcases a with s | (i | (a | _ | _)) | c <;> rcases b with t | (j | (b | _ | _)) | d
  case number.float.nan.number.float.nan => exact reflects ne equal
  all_goals exact equal

end Literal

private theorem equalLiterals_of_mapOrigins {i j : Nat} {vs ws : List Literal}
    (equal : equalLiterals (mapOriginsOfLiterals change p i vs)
      (mapOriginsOfLiterals change q j ws) = true) : equalLiterals vs ws = true := by
  induction vs generalizing ws i j with
  | nil =>
      cases ws with
      | nil => rfl
      | cons w ws => exact equal
  | cons v vs ih =>
      cases ws with
      | nil => exact equal
      | cons w ws =>
          simp only [mapOriginsOfLiterals, equalLiterals, Bool.and_eq_true] at equal ⊢
          exact ⟨Literal.equals_of_mapOrigin reflects (cons_ne_cons_of_ne ne i j) equal.1,
            ih equal.2⟩

end Equality

mutual

theorem Shape.equals_of_mapOrigins (reflects : Origin.Reflects change) {p q : List Nat}
    (ne : p ≠ q) {s t : Shape}
    (equal : (s.mapOrigins change p).equals (t.mapOrigins change q) = true) :
    s.equals t = true := by
  cases s with
  | primitive a =>
      cases t with
      | primitive b => exact equal
      | _ => exact equal
  | object fs =>
      cases t with
      | object gs => exact equalFields_of_mapOrigins reflects ne equal
      | _ => exact equal
  | array a =>
      cases t with
      | array b =>
          exact Shape.equals_of_mapOrigins reflects (cons_ne_cons_of_ne ne 0 0) (s := a) equal
      | _ => exact equal
  | union ss =>
      cases t with
      | union ts => exact equalShapes_of_mapOrigins reflects ne equal
      | _ => exact equal
  | oneOf vs =>
      cases t with
      | oneOf ws => exact equalLiterals_of_mapOrigins reflects ne equal
      | _ => exact equal
  | unknown =>
      cases t with
      | unknown => rfl
      | _ => exact equal
termination_by structural s

theorem Field.equals_of_mapOrigins (reflects : Origin.Reflects change) {p q : List Nat}
    (ne : p ≠ q) {f g : Field}
    (equal : (f.mapOrigins change p).equals (g.mapOrigins change q) = true) :
    f.equals g = true := by
  obtain ⟨n, s, o, d⟩ := f
  obtain ⟨m, t, r, e⟩ := g
  simp only [Field.mapOrigins, Field.equals, Bool.and_eq_true] at equal ⊢
  obtain ⟨⟨⟨names, shapes⟩, optional⟩, hasDefault⟩ := equal
  exact ⟨⟨⟨names, Shape.equals_of_mapOrigins reflects ne shapes⟩, optional⟩, hasDefault⟩
termination_by structural f

private theorem equalShapes_of_mapOrigins (reflects : Origin.Reflects change) {p q : List Nat}
    (ne : p ≠ q) {i j : Nat} {ss ts : List Shape}
    (equal : equalShapes (mapOriginsOfShapes change p i ss) (mapOriginsOfShapes change q j ts) =
      true) : equalShapes ss ts = true := by
  cases ss with
  | nil =>
      cases ts with
      | nil => rfl
      | cons t ts => exact equal
  | cons s ss =>
      cases ts with
      | nil => exact equal
      | cons t ts =>
          simp only [mapOriginsOfShapes, equalShapes, Bool.and_eq_true] at equal ⊢
          exact ⟨Shape.equals_of_mapOrigins reflects (cons_ne_cons_of_ne ne i j) equal.1,
            equalShapes_of_mapOrigins reflects ne equal.2⟩
termination_by structural ss

private theorem equalFields_of_mapOrigins (reflects : Origin.Reflects change) {p q : List Nat}
    (ne : p ≠ q) {i j : Nat} {fs gs : List Field}
    (equal : equalFields (mapOriginsOfFields change p i fs) (mapOriginsOfFields change q j gs) =
      true) : equalFields fs gs = true := by
  cases fs with
  | nil =>
      cases gs with
      | nil => rfl
      | cons g gs => exact equal
  | cons f fs =>
      cases gs with
      | nil => exact equal
      | cons g gs =>
          simp only [mapOriginsOfFields, equalFields, Bool.and_eq_true] at equal ⊢
          exact ⟨Field.equals_of_mapOrigins reflects (cons_ne_cons_of_ne ne i j) equal.1,
            equalFields_of_mapOrigins reflects ne equal.2⟩
termination_by structural fs

end

/-- Items stay apart, if none are made the same at different places. -/
theorem apart_mapIdx {α β : Type} {before : α → α → Bool} {after : β → β → Bool}
    {each : Nat → α → β} {items : List α}
    (step : ∀ ⦃i j⦄, i ≠ j → ∀ ⦃a b⦄, after (each i a) (each j b) = true → before a b = true)
    (apart : Apart before items) : Apart after (items.mapIdx each) := by
  intro i j ne
  have length : (items.mapIdx each).length = items.length := List.length_mapIdx
  have places : i.cast length ≠ j.cast length :=
    fun eq => ne (Fin.ext (Fin.mk.inj eq))
  have different := apart (i.cast length) (j.cast length) places
  rw [← Bool.not_eq_true] at different ⊢
  intro same
  rw [Fin.getElem_fin, Fin.getElem_fin, List.getElem_mapIdx, List.getElem_mapIdx] at same
  exact different (step (Fin.val_ne_of_ne ne) same)

/-- What does not depend on the place is as it was. -/
theorem map_mapIdx_of_forall {α β γ : Type} {each : Nat → α → β} {f : β → γ} {g : α → γ}
    (step : ∀ i a, f (each i a) = g a) (items : List α) :
    (items.mapIdx each).map f = items.map g := by
  apply List.ext_getElem
  · rw [List.length_map, List.length_mapIdx, List.length_map]
  · intro i _ _
    rw [List.getElem_map, List.getElem_mapIdx, List.getElem_map, step]

@[simp]
theorem mapOriginsOfLiterals_eq (place : List Nat) (index : Nat) (values : List Literal) :
    mapOriginsOfLiterals change place index values =
      values.mapIdx fun i value => value.mapOrigin (change ((index + i) :: place)) := by
  induction values generalizing index with
  | nil => rfl
  | cons value values ih =>
      simp only [mapOriginsOfLiterals, List.mapIdx_cons, ih, Nat.add_right_comm, Nat.add_zero,
        Nat.add_assoc]

@[simp]
theorem mapOriginsOfFields_eq (place : List Nat) (index : Nat) (fields : List Field) :
    mapOriginsOfFields change place index fields =
      fields.mapIdx fun i field => field.mapOrigins change ((index + i) :: place) := by
  induction fields generalizing index with
  | nil => rfl
  | cons field fields ih =>
      simp only [mapOriginsOfFields, List.mapIdx_cons, ih, Nat.add_right_comm, Nat.add_zero,
        Nat.add_assoc]

@[simp]
theorem mapOriginsOfShapes_eq (place : List Nat) (index : Nat) (shapes : List Shape) :
    mapOriginsOfShapes change place index shapes =
      shapes.mapIdx fun i shape => shape.mapOrigins change ((index + i) :: place) := by
  induction shapes generalizing index with
  | nil => rfl
  | cons shape shapes ih =>
      simp only [mapOriginsOfShapes, List.mapIdx_cons, ih, Nat.add_right_comm, Nat.add_zero,
        Nat.add_assoc]

@[simp]
theorem Field.name_mapOrigins (place : List Nat) (field : Field) :
    (field.mapOrigins change place).name = field.name := by
  cases field with
  | mk => rfl

@[simp]
theorem Field.shape_mapOrigins (place : List Nat) (field : Field) :
    (field.mapOrigins change place).shape = field.shape.mapOrigins change place := by
  cases field with
  | mk => rfl

namespace Shape

@[simp]
theorem isUnion_mapOrigins (place : List Nat) (shape : Shape) :
    (shape.mapOrigins change place).isUnion = shape.isUnion := by
  cases shape <;> rfl

@[simp]
theorem isOneOf_mapOrigins (place : List Nat) (shape : Shape) :
    (shape.mapOrigins change place).isOneOf = shape.isOneOf := by
  cases shape <;> rfl

theorem AreAlternatives.mapOrigins (reflects : Origin.Reflects change) {members : List Shape}
    (alternatives : AreAlternatives members) (place : List Nat) :
    AreAlternatives (mapOriginsOfShapes change place 0 members) := by
  rw [mapOriginsOfShapes_eq]
  constructor
  · rw [List.length_mapIdx]
    exact alternatives.several
  · intro member mem
    obtain ⟨i, lt, rfl⟩ := List.mem_mapIdx.mp mem
    rw [isUnion_mapOrigins]
    exact alternatives.flat _ (List.getElem_mem lt)
  · rw [← Function.id_comp isOneOf, ← List.countP_map,
      map_mapIdx_of_forall (fun i => isOneOf_mapOrigins _), List.countP_map]
    exact alternatives.grouped
  · refine apart_mapIdx (fun i j ne a b equal => ?_) alternatives.distinct
    have places : (0 + i) :: place ≠ (0 + j) :: place := by simpa using ne
    exact equals_of_mapOrigins reflects places equal

/-- A change of origins that tells values apart keeps shapes well-formed. -/
theorem WellFormed.mapOrigins (reflects : Origin.Reflects change) {shape : Shape}
    (formed : shape.WellFormed) (place : List Nat) :
    (shape.mapOrigins change place).WellFormed := by
  induction formed generalizing place with
  | primitive kind => exact .primitive kind
  | object names inner ih =>
      rw [Shape.mapOrigins, mapOriginsOfFields_eq]
      constructor
      · rw [map_mapIdx_of_forall fun i => Field.name_mapOrigins _]
        exact names
      · intro field mem
        obtain ⟨i, lt, rfl⟩ := List.mem_mapIdx.mp mem
        rw [Field.shape_mapOrigins]
        exact ih _ (List.getElem_mem lt) _
  | array inner ih => exact .array (ih (0 :: place))
  | union alternatives inner ih =>
      refine .union (alternatives.mapOrigins reflects place) ?_
      rw [mapOriginsOfShapes_eq]
      intro member mem
      obtain ⟨i, lt, rfl⟩ := List.mem_mapIdx.mp mem
      exact ih _ (List.getElem_mem lt) _
  | oneOf distinct =>
      rw [Shape.mapOrigins, mapOriginsOfLiterals_eq]
      refine .oneOf (apart_mapIdx (fun i j ne a b same => ?_) distinct)
      have places : (0 + i) :: place ≠ (0 + j) :: place := by simpa using ne
      exact Literal.same_of_mapOrigin reflects places same
  | unknown => exact .unknown

/-- An argument is well-formed as it is bound to a parameter. -/
theorem WellFormed.passed {shape : Shape} (formed : shape.WellFormed) (index : Nat) :
    (shape.passed index).WellFormed :=
  formed.mapOrigins Origin.reflects_passed [index]

/-- A shape is well-formed as it leaves the scope of parameters. -/
theorem WellFormed.returned {shape : Shape} (formed : shape.WellFormed) :
    shape.returned.WellFormed :=
  formed.mapOrigins Origin.reflects_returned []

/-- So are the fields of an object. -/
theorem WellFormed.returned_fields {fields : List Field}
    (formed : (Shape.object fields).WellFormed) :
    (Shape.object (fields.map Field.returned)).WellFormed := by
  constructor
  · rw [List.map_map]
    refine (List.map_congr_left fun field _ => ?_).symm ▸ formed.fields.1
    exact Field.name_mapOrigins [] field
  · rw [List.forall_mem_map]
    intro field mem
    rw [Field.returned, Field.shape_mapOrigins]
    exact (formed.fields.2 field mem).returned

end Shape

end PropValidators
