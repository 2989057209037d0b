import Mathlib.Data.List.MinMax
import Mathlib.Order.Nat

/-!
# Things with parts

Types are made of types, and shapes are made of shapes.  A division says what the parts of a
thing are, all of them smaller than the whole.  What is said here of things with parts is either
a number, namely how much weighs on the heaviest way from a whole down through its parts, or a
property that holds on all such ways.
-/

namespace PropValidators

/-- The greatest of some numbers, and zero if there are none. -/
def greatest (numbers : List Nat) : Nat :=
  numbers.foldr max 0

@[simp]
theorem greatest_le_iff {numbers : List Nat} {bound : Nat} :
    greatest numbers ≤ bound ↔ ∀ number ∈ numbers, number ≤ bound :=
  ⟨fun le _ mem => (List.le_max_of_le mem le_rfl).trans le,
    fun every => List.max_le_of_forall_le numbers bound every⟩

theorem le_greatest {numbers : List Nat} {number : Nat} (mem : number ∈ numbers) :
    number ≤ greatest numbers :=
  greatest_le_iff.mp le_rfl number mem

/-- The parts that a thing is divided into, each smaller than the whole. -/
structure Division (α : Type) [SizeOf α] where
  parts : α → List α
  smaller : ∀ {whole part : α}, part ∈ parts whole → sizeOf part < sizeOf whole

namespace Division

variable {α : Type} [SizeOf α] (division : Division α)

/-- How much weighs on the heaviest way from a whole down through its parts. -/
def height (weigh : α → Nat) (whole : α) : Nat :=
  weigh whole +
    greatest ((division.parts whole).attach.map fun part => height weigh part.1)
termination_by sizeOf whole
decreasing_by exact division.smaller part.2

/-- A property holds of a whole, of its parts, of their parts, and so on. -/
inductive Everywhere (property : α → Prop) : α → Prop
  | intro {whole : α} (here : property whole)
      (below : ∀ part ∈ division.parts whole, Everywhere property part) :
      Everywhere property whole

variable {division} {weigh : α → Nat} {property : α → Prop} {whole part : α}

theorem height_eq (weigh : α → Nat) (whole : α) :
    division.height weigh whole =
      weigh whole + greatest ((division.parts whole).map (division.height weigh)) := by
  rw [height, List.attach_map_val]

/-- What weighs on a way from a part weighs on a way from the whole, too. -/
theorem add_height_le (mem : part ∈ division.parts whole) :
    weigh whole + division.height weigh part ≤ division.height weigh whole := by
  rw [height_eq weigh whole]
  exact Nat.add_le_add_left (le_greatest (List.mem_map_of_mem mem)) _

theorem height_le_of_mem (mem : part ∈ division.parts whole) :
    division.height weigh part ≤ division.height weigh whole :=
  (Nat.le_add_left _ _).trans (add_height_le mem)

theorem height_le {bound : Nat}
    (every : ∀ part ∈ division.parts whole, weigh whole + division.height weigh part ≤ bound)
    (here : weigh whole ≤ bound) : division.height weigh whole ≤ bound := by
  have below : greatest ((division.parts whole).map (division.height weigh)) ≤
      bound - weigh whole := by
    rw [greatest_le_iff, List.forall_mem_map]
    intro part mem
    have := every part mem
    omega
  rw [height_eq]
  omega

theorem everywhere_iff :
    division.Everywhere property whole ↔
      property whole ∧ ∀ part ∈ division.parts whole, division.Everywhere property part := by
  constructor
  · rintro ⟨here, below⟩
    exact ⟨here, below⟩
  · exact fun ⟨here, below⟩ => .intro here below

theorem Everywhere.imp {other : α → Prop} (implies : ∀ a, property a → other a)
    (everywhere : division.Everywhere property whole) : division.Everywhere other whole := by
  induction everywhere with
  | intro here _ ih => exact .intro (implies _ here) ih

/-- What holds of all things holds everywhere in them. -/
theorem everywhere_of_forall (all : ∀ a, property a) (whole : α) :
    division.Everywhere property whole := by
  induction sizeEq : sizeOf whole using Nat.strong_induction_on generalizing whole with
  | _ size ih =>
      subst sizeEq
      exact .intro (all whole) fun part mem => ih _ (division.smaller mem) part rfl

end Division

end PropValidators
