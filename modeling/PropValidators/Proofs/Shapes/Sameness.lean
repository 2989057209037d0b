import PropValidators.Proofs.Numbers
import PropValidators.Shape

/-!
# Comparing shapes value by value

Shapes are compared by comparing the literal values in them.  Across kinds this is the equality
of shapes; kind by kind it is sameness, for which `1`, `1.0` and `true` are three values at every
depth.  What holds of the comparison of values is handed up to shapes: that it goes both ways,
and how two comparisons in a row make up a third.

A value that is not a number may differ from itself, so no comparison is taken to be reflexive.
-/

namespace PropValidators

namespace Literal

theorem same_comm (a b : Literal) : a.same b = b.same a := by
  rcases a with s | (i | x) | c <;> rcases b with t | (j | y) | d
  case text.text => exact Bool.beq_comm
  case truth.truth => exact Bool.beq_comm
  case number.int.number.int => exact Bool.beq_comm
  case number.float.number.float => exact Number.equals_comm (.float x) (.float y)
  all_goals rfl

theorem equals_comm (a b : Literal) : a.equals b = b.equals a := by
  rcases a with s | m | c <;> rcases b with t | n | d
  case text.text => exact Bool.beq_comm
  case number.number => exact Number.equals_comm m n
  case number.truth => exact Number.equals_comm m (.int (if d then 1 else 0))
  case truth.number => exact Number.equals_comm (.int (if c then 1 else 0)) n
  case truth.truth =>
    exact Number.equals_comm (.int (if c then 1 else 0)) (.int (if d then 1 else 0))
  all_goals rfl

/-- Values that are the same are one value, or equal binary64 numbers. -/
theorem eq_or_float_of_same {a b : Literal} (same : a.same b = true) :
    a = b ∨ ∃ x y, a = .number (.float x) ∧ b = .number (.float y) ∧ x.equals y = true := by
  rcases a with s | (i | x) | c <;> rcases b with t | (j | y) | d
  case text.text => exact .inl (congrArg text (eq_of_beq same))
  case truth.truth => exact .inl (congrArg truth (eq_of_beq same))
  case number.int.number.int => exact .inl (congrArg (number ∘ .int) (eq_of_beq same))
  case number.float.number.float => exact .inr ⟨x, y, rfl, rfl, same⟩
  all_goals cases same

/-- Whatever a value is the same as, so are those that are the same as it. -/
theorem same_congr {a b : Literal} (same : a.same b = true) (c : Literal) :
    a.same c = b.same c := by
  rcases eq_or_float_of_same same with rfl | ⟨x, y, rfl, rfl, equal⟩
  · rfl
  · have congr := Number.equals_congr (a := .float x) (b := .float y) equal
    rcases c with t | (j | z) | d
    case number.float => exact congr (.float z)
    all_goals rfl

/-- Values that stand for numbers are compared as these. -/
theorem equals_eq_of_number? {a b : Literal} {m n : Number} (left : a.number? = some m)
    (right : b.number? = some n) : a.equals b = m.equals n := by
  cases a <;> cases b <;> cases left <;> cases right <;> rfl

private theorem equals_eq_false_of_number? {a b : Literal} {m : Number} (left : a.number? = some m)
    (right : b.number? = none) : a.equals b = false := by
  cases a <;> cases b <;> cases left <;> cases right <;> rfl

/-- Whatever a value equals, equal values equal. -/
theorem equals_congr {a b : Literal} (equal : a.equals b = true) (c : Literal) :
    a.equals c = b.equals c := by
  cases left : a.number? with
  | none =>
      -- Only a text stands for no number, and it equals no other value.
      cases a with
      | text s =>
          cases b with
          | text t => rw [show s = t from eq_of_beq equal]
          | _ => cases equal
      | _ => cases left
  | some m =>
      cases right : b.number? with
      | none =>
          rw [equals_eq_false_of_number? left right] at equal
          cases equal
      | some n =>
          rw [equals_eq_of_number? left right] at equal
          cases third : c.number? with
          | none =>
              rw [equals_eq_false_of_number? left third, equals_eq_false_of_number? right third]
          | some p =>
              rw [equals_eq_of_number? left third, equals_eq_of_number? right third,
                Number.equals_congr equal]

/-- Whatever a value equals, so do those that are the same as it. -/
theorem equals_congr_of_same {a b : Literal} (same : a.same b = true) (c : Literal) :
    a.equals c = b.equals c := by
  rcases eq_or_float_of_same same with rfl | ⟨x, y, rfl, rfl, equal⟩
  · rfl
  · have equalValues : (number (.float x)).equals (.number (.float y)) = true := equal
    exact equals_congr equalValues c

end Literal

/-- A comparison of literal values. -/
abbrev Comparison := Literal → Literal → Bool

/-- Whether two lists of values agree, value by value. -/
def matchValues (compare : Comparison) : List Literal → List Literal → Bool
  | [], [] => true
  | v :: vs, w :: ws => compare v w && matchValues compare vs ws
  | _, _ => false

mutual

/-- Whether two shapes agree but for the literal values in them, and these agree too. -/
def Shape.matches (compare : Comparison) : Shape → Shape → Bool
  | .primitive a, .primitive b => a == b
  | .object fs, .object gs => matchFields compare fs gs
  | .array a, .array b => a.matches compare b
  | .union ss, .union ts => matchShapes compare ss ts
  | .oneOf vs, .oneOf ws => matchValues compare vs ws
  | .unknown, .unknown => true
  | _, _ => false
termination_by structural s => s

/-- Whether two fields agree, value by value. -/
def Field.matches (compare : Comparison) : Field → Field → Bool
  | ⟨n, s, o, d⟩, ⟨m, t, p, e⟩ => n == m && s.matches compare t && o == p && d == e
termination_by structural f => f

/-- Whether two lists of shapes agree, value by value. -/
def matchShapes (compare : Comparison) : List Shape → List Shape → Bool
  | [], [] => true
  | s :: ss, t :: ts => s.matches compare t && matchShapes compare ss ts
  | _, _ => false
termination_by structural ss => ss

/-- Whether two lists of fields agree, value by value. -/
def matchFields (compare : Comparison) : List Field → List Field → Bool
  | [], [] => true
  | f :: fs, g :: gs => f.matches compare g && matchFields compare fs gs
  | _, _ => false
termination_by structural fs => fs

end

/-- Whether two shapes are the same when literal values are compared together with their kinds,
at every depth. -/
def Shape.same (s t : Shape) : Bool :=
  s.matches Literal.same t

@[simp]
theorem matchValues_equals (vs ws : List Literal) :
    matchValues Literal.equals vs ws = equalLiterals vs ws := by
  induction vs generalizing ws with
  | nil => cases ws <;> rfl
  | cons v vs ih =>
      cases ws with
      | nil => rfl
      | cons w ws => rw [matchValues, equalLiterals, ih]

mutual

/-- Equality of shapes is the comparison of values across kinds. -/
@[simp]
theorem Shape.matches_equals (s t : Shape) : s.matches Literal.equals t = s.equals t := by
  cases s with
  | object fs =>
      cases t with
      | object gs => exact matchFields_equals fs gs
      | _ => rfl
  | array a =>
      cases t with
      | array b => exact Shape.matches_equals a b
      | _ => rfl
  | union ss =>
      cases t with
      | union ts => exact matchShapes_equals ss ts
      | _ => rfl
  | oneOf vs =>
      cases t with
      | oneOf ws => exact matchValues_equals vs ws
      | _ => rfl
  | _ => cases t <;> rfl
termination_by structural s

@[simp]
theorem Field.matches_equals (f g : Field) : f.matches Literal.equals g = f.equals g := by
  obtain ⟨n, s, o, d⟩ := f
  obtain ⟨m, t, p, e⟩ := g
  rw [Field.matches, Field.equals, Shape.matches_equals s t]
termination_by structural f

@[simp]
theorem matchShapes_equals (ss ts : List Shape) :
    matchShapes Literal.equals ss ts = equalShapes ss ts := by
  cases ss with
  | nil => cases ts <;> rfl
  | cons s ss =>
      cases ts with
      | nil => rfl
      | cons t ts =>
          rw [matchShapes, equalShapes, Shape.matches_equals s t, matchShapes_equals ss ts]
termination_by structural ss

@[simp]
theorem matchFields_equals (fs gs : List Field) :
    matchFields Literal.equals fs gs = equalFields fs gs := by
  cases fs with
  | nil => cases gs <;> rfl
  | cons f fs =>
      cases gs with
      | nil => rfl
      | cons g gs =>
          rw [matchFields, equalFields, Field.matches_equals f g, matchFields_equals fs gs]
termination_by structural fs

end

section Comm

variable {compare : Comparison}

private theorem matchValues_comm (comm : ∀ v w, compare v w = compare w v)
    (vs ws : List Literal) :
    matchValues compare vs ws = matchValues compare ws vs := by
  induction vs generalizing ws with
  | nil => cases ws <;> rfl
  | cons v vs ih =>
      cases ws with
      | nil => rfl
      | cons w ws => rw [matchValues, matchValues, comm, ih]

mutual

theorem Shape.matches_comm (comm : ∀ v w, compare v w = compare w v) (s t : Shape) :
    s.matches compare t = t.matches compare s := by
  cases s with
  | primitive a =>
      cases t with
      | primitive b => exact Bool.beq_comm
      | _ => rfl
  | object fs =>
      cases t with
      | object gs => exact matchFields_comm comm fs gs
      | _ => rfl
  | array a =>
      cases t with
      | array b => exact Shape.matches_comm comm a b
      | _ => rfl
  | union ss =>
      cases t with
      | union ts => exact matchShapes_comm comm ss ts
      | _ => rfl
  | oneOf vs =>
      cases t with
      | oneOf ws => exact matchValues_comm comm vs ws
      | _ => rfl
  | unknown => cases t <;> rfl
termination_by structural s

theorem Field.matches_comm (comm : ∀ v w, compare v w = compare w v) (f g : Field) :
    f.matches compare g = g.matches compare f := by
  obtain ⟨n, s, o, d⟩ := f
  obtain ⟨m, t, p, e⟩ := g
  rw [Field.matches, Field.matches, Shape.matches_comm comm s t, Bool.beq_comm (a := n),
    Bool.beq_comm (a := o), Bool.beq_comm (a := d)]
termination_by structural f

private theorem matchShapes_comm (comm : ∀ v w, compare v w = compare w v)
    (ss ts : List Shape) :
    matchShapes compare ss ts = matchShapes compare ts ss := by
  cases ss with
  | nil => cases ts <;> rfl
  | cons s ss =>
      cases ts with
      | nil => rfl
      | cons t ts =>
          rw [matchShapes, matchShapes, Shape.matches_comm comm s t, matchShapes_comm comm ss ts]
termination_by structural ss

private theorem matchFields_comm (comm : ∀ v w, compare v w = compare w v)
    (fs gs : List Field) :
    matchFields compare fs gs = matchFields compare gs fs := by
  cases fs with
  | nil => cases gs <;> rfl
  | cons f fs =>
      cases gs with
      | nil => rfl
      | cons g gs =>
          rw [matchFields, matchFields, Field.matches_comm comm f g, matchFields_comm comm fs gs]
termination_by structural fs

end

end Comm

theorem Shape.equals_comm (s t : Shape) : s.equals t = t.equals s := by
  rw [← matches_equals, ← matches_equals]
  exact matches_comm Literal.equals_comm s t

theorem Shape.same_comm (s t : Shape) : s.same t = t.same s :=
  matches_comm Literal.same_comm s t

/-- A comparison that does not tell values apart that agree under another one. -/
abbrev Respects (related compare : Comparison) : Prop :=
  ∀ v w, related v w = true → ∀ u, compare v u = compare w u

section Congr

variable {related compare : Comparison}

private theorem matchValues_congr (congr : Respects related compare) {vs ws : List Literal}
    (agree : matchValues related vs ws = true) (us : List Literal) :
    matchValues compare vs us = matchValues compare ws us := by
  induction vs generalizing ws us with
  | nil =>
      cases ws with
      | nil => rfl
      | cons w ws => cases agree
  | cons v vs ih =>
      cases ws with
      | nil => cases agree
      | cons w ws =>
          rw [matchValues, Bool.and_eq_true] at agree
          cases us with
          | nil => rfl
          | cons u us => rw [matchValues, matchValues, congr v w agree.1, ih agree.2]

mutual

theorem Shape.matches_congr (congr : Respects related compare) (s t : Shape)
    (agree : s.matches related t = true) (r : Shape) :
    s.matches compare r = t.matches compare r := by
  cases s with
  | primitive a =>
      cases t with
      | primitive b => rw [show a = b from eq_of_beq agree]
      | _ => cases agree
  | object fs =>
      cases t with
      | object gs =>
          cases r with
          | object hs => exact matchFields_congr congr fs gs agree hs
          | _ => rfl
      | _ => cases agree
  | array a =>
      cases t with
      | array b =>
          cases r with
          | array c => exact Shape.matches_congr congr a b agree c
          | _ => rfl
      | _ => cases agree
  | union ss =>
      cases t with
      | union ts =>
          cases r with
          | union rs => exact matchShapes_congr congr ss ts agree rs
          | _ => rfl
      | _ => cases agree
  | oneOf vs =>
      cases t with
      | oneOf ws =>
          cases r with
          | oneOf us => exact matchValues_congr congr agree us
          | _ => rfl
      | _ => cases agree
  | unknown =>
      cases t with
      | unknown => rfl
      | _ => cases agree
termination_by structural s

theorem Field.matches_congr (congr : Respects related compare) (f g : Field)
    (agree : f.matches related g = true) (h : Field) :
    f.matches compare h = g.matches compare h := by
  obtain ⟨n, s, o, d⟩ := f
  obtain ⟨m, t, p, e⟩ := g
  obtain ⟨k, r, q, c⟩ := h
  simp only [Field.matches, Bool.and_eq_true, beq_iff_eq] at agree
  obtain ⟨⟨⟨rfl, shapes⟩, rfl⟩, rfl⟩ := agree
  rw [Field.matches, Field.matches, Shape.matches_congr congr s t shapes r]
termination_by structural f

private theorem matchShapes_congr (congr : Respects related compare) (ss ts : List Shape)
    (agree : matchShapes related ss ts = true) (rs : List Shape) :
    matchShapes compare ss rs = matchShapes compare ts rs := by
  cases ss with
  | nil =>
      cases ts with
      | nil => rfl
      | cons t ts => cases agree
  | cons s ss =>
      cases ts with
      | nil => cases agree
      | cons t ts =>
          rw [matchShapes, Bool.and_eq_true] at agree
          cases rs with
          | nil => rfl
          | cons r rs =>
              rw [matchShapes, matchShapes, Shape.matches_congr congr s t agree.1 r,
                matchShapes_congr congr ss ts agree.2 rs]
termination_by structural ss

private theorem matchFields_congr (congr : Respects related compare) (fs gs : List Field)
    (agree : matchFields related fs gs = true) (hs : List Field) :
    matchFields compare fs hs = matchFields compare gs hs := by
  cases fs with
  | nil =>
      cases gs with
      | nil => rfl
      | cons g gs => cases agree
  | cons f fs =>
      cases gs with
      | nil => cases agree
      | cons g gs =>
          rw [matchFields, Bool.and_eq_true] at agree
          cases hs with
          | nil => rfl
          | cons h hs =>
              rw [matchFields, matchFields, Field.matches_congr congr f g agree.1 h,
                matchFields_congr congr fs gs agree.2 hs]
termination_by structural fs

end

end Congr

/-- Whatever a shape equals, so do those that are the same as it. -/
theorem Shape.equals_congr {s t : Shape} (same : s.same t = true) (r : Shape) :
    s.equals r = t.equals r := by
  have congr : Respects Literal.same Literal.equals := fun _ _ => Literal.equals_congr_of_same
  rw [← matches_equals, ← matches_equals]
  exact matches_congr congr s t same r

/-- Whatever a shape equals, equal shapes equal. -/
theorem Shape.equals_congr_of_equals {s t : Shape} (equal : s.equals t = true) (r : Shape) :
    s.equals r = t.equals r := by
  have congr : Respects Literal.equals Literal.equals := fun _ _ => Literal.equals_congr
  rw [← matches_equals] at equal
  rw [← matches_equals, ← matches_equals]
  exact matches_congr congr s t equal r

/-- Whatever a shape is the same as, so are those that are the same as it. -/
theorem Shape.same_congr {s t : Shape} (same : s.same t = true) (r : Shape) :
    s.same r = t.same r := by
  have congr : Respects Literal.same Literal.same := fun _ _ => Literal.same_congr
  exact matches_congr congr s t same r

end PropValidators
