import PropValidators.Proofs.Resolution.Levels
import PropValidators.Proofs.Shapes.Within
import Mathlib.Algebra.Ring.GeomSum

/-!
# How deep shapes can get

The depth limit counts the levels of the types that are being resolved.  The shapes that are put in
for type parameters have levels of their own, and these come on top of it: they are resolved where
a generic is applied, but stand as deep as its body puts them.  So a shape can be deeper than the
limit, and it gets deeper with every application inside another one.  How deep it can be depends on
the shapes that are there from the start, the applications inside one another, and the levels left.
-/

namespace PropValidators

/-- A reference that applies a registered name to arguments counts one. -/
def Registry.applications (registry : Registry Declaration) : TypeExpr → Nat
  | .reference (some name) (_ :: _) => if registry.contains name then 1 else 0
  | _ => 0

/-- The number of applications inside one another in the declarations, at most. -/
def Registry.deepest (registry : Registry Declaration) : Nat :=
  greatest ((registry.entries.flatMap Prod.snd).map fun declaration =>
    heightOf registry.applications declaration.parts)

theorem Registry.heightOf_le_deepest {registry : Registry Declaration} {name : String}
    {declaration : Declaration} (mem : declaration ∈ registry.get name) :
    heightOf registry.applications declaration.parts ≤ registry.deepest := by
  obtain ⟨declarations, entry, inEntry⟩ := registry.exists_entry_of_mem_get mem
  exact le_greatest (List.mem_map_of_mem (List.mem_flatMap.mpr ⟨_, entry, inEntry⟩))

/-- The greatest nesting of some shapes. -/
def nestingOf (shapes : List Shape) : Nat :=
  greatest (shapes.map Shape.nesting)

@[simp]
theorem nestingOf_le_iff {shapes : List Shape} {bound : Nat} :
    nestingOf shapes ≤ bound ↔ ∀ shape ∈ shapes, shape.nesting ≤ bound := by
  rw [nestingOf, greatest_le_iff, List.forall_mem_map]

theorem nesting_le_nestingOf {shapes : List Shape} {shape : Shape} (mem : shape ∈ shapes) :
    shape.nesting ≤ nestingOf shapes :=
  nestingOf_le_iff.mp le_rfl shape mem

namespace Context

/-- The levels that are left before the limit is reached. -/
def room (context : Context) : Nat :=
  (context.limit - context.depth).toNat

/-- How deep a shape gets in the levels left.  Each level adds one object, and each application in
the declarations adds what can be added in the levels further down. -/
def growth (context : Context) : Nat :=
  ∑ i ∈ Finset.range context.room, (context.registry.deepest + 1) ^ i

/-- The shapes that are bound in the innermost frame. -/
def boundShapes (context : Context) : List Shape :=
  (context.bindings.head?.getD []).map Prod.snd

/-- How deep a shape gets where so many applications are inside one another. -/
def reach (context : Context) (applications : Nat) : Nat :=
  nestingOf context.boundShapes + (applications + 1) * context.growth

variable {context : Context}

theorem growth_of_shallow (shallow : context.tooDeep = false) :
    context.growth = (context.registry.deepest + 1) * context.nested.growth + 1 := by
  rw [tooDeep, decide_eq_false_iff_not] at shallow
  have roomEq : context.room = context.nested.room + 1 := by
    change (context.limit - context.depth).toNat =
      (context.limit - (context.depth + 1 : Nat)).toNat + 1
    omega
  rw [growth, roomEq, geom_sum_succ]
  rfl

theorem growth_le_mul (context : Context) (applications : Nat) :
    context.growth ≤ (applications + 1) * context.growth :=
  Nat.le_mul_of_pos_left _ (Nat.succ_pos applications)

theorem reach_mono {fewer more : Nat} (le : fewer ≤ more) :
    context.reach fewer ≤ context.reach more :=
  Nat.add_le_add_left (Nat.mul_le_mul_right _ (Nat.succ_le_succ le)) _

theorem reach_succ (context : Context) (applications : Nat) :
    context.reach applications + context.growth = context.reach (applications + 1) := by
  rw [reach, reach, Nat.succ_mul (applications + 1), Nat.add_assoc]

/-- One level down there is one object less. -/
theorem reach_nested_lt (shallow : context.tooDeep = false) (applications : Nat) :
    context.nested.reach applications < context.reach applications := by
  have grown := growth_of_shallow shallow
  have deeper : context.nested.growth < context.growth := by
    have : context.nested.growth ≤ (context.registry.deepest + 1) * context.nested.growth :=
      Nat.le_mul_of_pos_left _ context.registry.deepest.succ_pos
    omega
  exact Nat.add_lt_add_left (Nat.mul_lt_mul_of_pos_left deeper applications.succ_pos) _

end Context

/-- What is bound to parameters is no deeper than the arguments. -/
theorem within_of_mem_ofArguments {allowed : Literal → Prop}
    (mapped : ∀ change value, allowed value → allowed (value.mapOrigin change))
    {arguments : List Shape} (values : ∀ shape ∈ arguments, shape.Values allowed)
    {parameters : List String} {binding : String × Shape}
    (mem : binding ∈ Frame.ofArguments parameters arguments) :
    binding.2.Within allowed (nestingOf arguments) := by
  obtain ⟨⟨name, index⟩, -, rfl⟩ := List.mem_map.mp mem
  refine Shape.Within.passed mapped ?_ index
  cases found : arguments[index]? with
  | none => exact Shape.within_unknown
  | some shape =>
      have shapeMem := List.mem_of_getElem? found
      exact (values shape shapeMem).within.mono (nesting_le_nestingOf shapeMem)

end PropValidators
