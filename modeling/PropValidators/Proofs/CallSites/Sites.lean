import PropValidators.Ast.Calls
import PropValidators.Proofs.Syntax.Visits
import PropValidators.Workspace

/-!
# The sites of calls

The calls of a function in a sound tree stand at the places that are found for them, and each is
written where it was found, unless an unknown field is reported like a declared one.  A replacement
moves no place, and only those at or below the replaced node are lost.
-/

namespace PropValidators

open Ast Node

/-- The place of a call. -/
def Ast.CallSite.place (site : CallSite) : Place :=
  site.parent ++ [site.slot]

theorem Ast.CallSite.place_ne_nil (site : CallSite) : site.place ≠ [] := by
  simp [CallSite.place]

variable {root n m c : Node} {place parent : Place} {slot : Slot}

/-- The calls that are found are those that stand below the root. -/
theorem mem_findCalls_iff (sound : root.Sound) {callee : String} {site : CallSite} :
    site ∈ root.findCalls callee ↔
      root.at? site.parent = some site.holder ∧ site.holder.inSlot? site.slot = some site.call ∧
        site.call.calls callee = true := by
  obtain ⟨parent, holder, slot, call⟩ := site
  have inHolder : root.at? parent = some holder →
      ((slot, call) ∈ holder.slots ↔ holder.inSlot? slot = some call) := fun found =>
    mem_slots_iff (sound.of_at? found).layout.nodup
  simp only [findCalls, List.mem_flatMap, List.mem_map, List.mem_filter, Prod.exists,
    CallSite.mk.injEq, mem_places_iff sound]
  constructor
  · rintro ⟨_, _, found, _, _, ⟨inSlot, calls⟩, rfl, rfl, rfl, rfl⟩
    exact ⟨found, (inHolder found).mp inSlot, calls⟩
  · rintro ⟨found, inSlot, calls⟩
    exact ⟨parent, holder, found, slot, call, ⟨(inHolder found).mpr inSlot, calls⟩, rfl, rfl, rfl,
      rfl⟩

theorem at?_place_of_mem (sound : root.Sound) {callee : String} {site : CallSite}
    (mem : site ∈ root.findCalls callee) : root.at? site.place = some site.call := by
  obtain ⟨found, inSlot, -⟩ := (mem_findCalls_iff sound).mp mem
  rw [CallSite.place, at?_concat, found]
  exact inSlot

theorem calls_of_mem (sound : root.Sound) {callee : String} {site : CallSite}
    (mem : site ∈ root.findCalls callee) : site.call.calls callee = true :=
  ((mem_findCalls_iff sound).mp mem).2.2

/-- The call at a site is one of the calls in the tree. -/
theorem call_mem_filter_tree (sound : root.Sound) {callee : String} {site : CallSite}
    (mem : site ∈ root.findCalls callee) :
    site.call ∈ root.tree.filter fun n => n.calls callee :=
  List.mem_filter.mpr
    ⟨mem_tree_of_at? (at?_place_of_mem sound mem), calls_of_mem sound mem⟩

/-- Whatever calls the function below the root is found. -/
theorem exists_site_of_at? (sound : root.Sound) {callee : String}
    (found : root.at? (parent ++ [slot]) = some c) (calls : c.calls callee = true) :
    ∃ site ∈ root.findCalls callee, site.place = parent ++ [slot] ∧ site.call = c := by
  rw [at?_concat] at found
  obtain ⟨holder, holderFound, inSlot⟩ := Option.bind_eq_some_iff.mp found
  exact ⟨⟨parent, holder, slot, c⟩, (mem_findCalls_iff sound).mpr ⟨holderFound, inSlot, calls⟩,
    rfl, rfl⟩

theorem mem_walk_of_at? (found : root.at? place = some m) : m ∈ root.walk :=
  root.walk_eq_tree ▸ mem_tree_of_at? found

/-- No two calls are found at the same place. -/
theorem nodup_findCalls (sound : root.Sound) (callee : String) :
    ((root.findCalls callee).map CallSite.place).Nodup := by
  have found := fun visited (mem : visited ∈ root.places []) => at?_of_mem sound mem
  have places := nodup_places sound []
  rw [findCalls, List.map_flatMap, List.nodup_flatMap]
  constructor
  · rintro ⟨place, holder⟩ mem
    have slots := nodup_slots (sound.of_at? (found _ mem)).layout.nodup
    dsimp only
    rw [List.map_map]
    rw [List.Nodup, List.pairwise_map] at slots ⊢
    refine (slots.filter _).imp fun {child other} apart eq => apart ?_
    exact List.singleton_inj.mp (List.append_cancel_left eq)
  · rw [List.Nodup, List.pairwise_map] at places
    refine places.imp fun {outer other} apart place here there => apart ?_
    have parentEq : ∀ outer : Place × Node,
        place ∈ (((outer.2.slots.filter fun child => child.2.calls callee).map fun child =>
          (⟨outer.1, outer.2, child.1, child.2⟩ : CallSite)).map CallSite.place) →
        ∃ slot, place = outer.1 ++ [slot] := by
      rintro outer mem
      rw [List.map_map] at mem
      obtain ⟨child, -, rfl⟩ := List.mem_map.mp mem
      exact ⟨child.1, rfl⟩
    obtain ⟨slot, rfl⟩ := parentEq outer here
    obtain ⟨step, eq⟩ := parentEq other there
    exact (List.append_inj' eq rfl).1

/-- No unknown field of a node has the label of a declared one as its key. -/
def Ast.Node.Tidy (n : Node) : Prop :=
  ∀ key, .unknown key ∈ n.fields.map Prod.fst → n.kind.specOfLabel? key = none

theorem Ast.Kind.nameOf_label {kind : Kind} {spec : FieldSpec} (mem : spec ∈ kind.fields) :
    kind.nameOf spec.label = .declared spec.key := by
  have named : ∀ spec ∈ kind.fields, kind.nameOf spec.label = .declared spec.key := by
    cases kind <;> decide
  exact named spec mem

/-- A field is found by the name that it is reported by. -/
theorem nameOf_labelOf (sound : n.Sound) (tidy : n.Tidy) {name : FieldName}
    (mem : name ∈ n.fields.map Prod.fst) : n.kind.nameOf (n.kind.labelOf name) = name := by
  cases name with
  | declared key =>
      obtain ⟨spec, specMem, rfl⟩ := sound.layout.exists_spec_of_declared mem
      rw [Kind.labelOf, Kind.specOfKey?_of_mem specMem]
      exact Kind.nameOf_label specMem
  | unknown key =>
      have notType : key ≠ "type" := fun same =>
        sound.layout.type_notMem_keys (same ▸ List.mem_map_of_mem mem)
      rw [Kind.labelOf, Kind.nameOf, if_neg notType, tidy key mem]

/-- A node whose fields are found by the names that they are reported by is tidy. -/
theorem tidy_of_nameOf_labelOf
    (named : ∀ name ∈ n.fields.map Prod.fst, n.kind.nameOf (n.kind.labelOf name) = name) :
    n.Tidy := by
  intro key mem
  have found := named _ mem
  rw [Kind.labelOf, Kind.nameOf] at found
  split at found
  · cases found
  · cases spec : n.kind.specOfLabel? key with
    | none => rfl
    | some spec' =>
        rw [spec] at found
        cases found

/-- A child is put where it was found. -/
theorem slotAt_of_inSlot? (sound : n.Sound) (tidy : n.Tidy) (found : n.inSlot? slot = some c) :
    n.slotAt (n.kind.labelOf slot.field) (slot.index.map Int.ofNat) = .ok slot := by
  obtain ⟨name, index⟩ := slot
  obtain ⟨value, held, picked⟩ := exists_held_of_inSlot? found
  obtain ⟨_, mem, -⟩ := exists_mem_of_inSlot? found
  have nameEq := nameOf_labelOf sound tidy (List.mem_map.mpr ⟨_, mem, rfl⟩)
  unfold slotAt
  dsimp only
  rw [nameEq]
  rcases Value.pick?_eq_some picked with ⟨rfl, -⟩ | ⟨i, items, rfl, rfl, itemEq⟩
  · rfl
  · have inside : i < items.length := (List.getElem?_eq_some_iff.mp itemEq).1
    have heldEq : n.held? name = some (.list items) := by
      cases name with
      | declared key =>
          rw [held?, show n.get? key = some (.list items) from held]
          rfl
      | unknown key => exact held
    have notNegative : ¬Int.ofNat i < 0 := Int.not_lt.mpr (Int.natCast_nonneg i)
    have bounds : 0 ≤ Int.ofNat i ∧ Int.ofNat i < items.length :=
      ⟨Int.natCast_nonneg i, Int.ofNat_lt.mpr inside⟩
    rw [Option.map_some]
    dsimp only
    rw [heldEq]
    dsimp only
    rw [if_neg notNegative, if_pos bounds]
    rfl

theorem writtenSlot_of_mem (sound : root.Sound) (tidy : ∀ n ∈ root.walk, n.Tidy) {callee : String}
    {site : CallSite} (mem : site ∈ root.findCalls callee) : site.writtenSlot = .ok site.slot := by
  obtain ⟨found, inSlot, -⟩ := (mem_findCalls_iff sound).mp mem
  exact slotAt_of_inSlot? (sound.of_at? found) (tidy _ (mem_walk_of_at? found)) inSlot

@[simp]
theorem below?_eq_some_iff {outer place rest : Place} :
    Place.below? outer place = some rest ↔ place = outer ++ rest := by
  induction outer generalizing place with
  | nil =>
      rw [Place.below?, Option.some_inj]
      exact Iff.rfl
  | cons slot outer ih =>
      cases place with
      | nil => simp [Place.below?]
      | cons step place =>
          rw [Place.below?]
          by_cases same : slot = step
          · rw [if_pos same, ih, same, List.cons_append, List.cons.injEq, eq_self, true_and]
          · rw [if_neg same]
            simp [Ne.symm same]

/-- Where something stands in a slot of a field itself, nothing stands in a list there. -/
theorem slot_eq_of_inSlot? {step : Slot} (found : n.inSlot? slot = some c)
    (other : n.inSlot? step = some m) (sameField : step.field = slot.field)
    (single : slot.index = none) : step = slot := by
  obtain ⟨name, index⟩ := slot
  obtain ⟨stepName, stepIndex⟩ := step
  obtain rfl : stepName = name := sameField
  obtain rfl : index = none := single
  obtain ⟨value, held, picked⟩ := exists_held_of_inSlot? found
  obtain ⟨otherValue, otherHeld, otherPicked⟩ := exists_held_of_inSlot? other
  obtain rfl : value = otherValue := Option.some_inj.mp (held.symm.trans otherHeld)
  rcases Value.pick?_eq_some otherPicked with ⟨rfl, -⟩ | ⟨i, items, -, rfl, -⟩
  · rfl
  · cases picked

/-- The place of what is replaced. -/
def Replacement.target (replacement : Replacement) : Place :=
  replacement.parent ++ [replacement.slot]

/-- A place that is not at or below what is replaced stays. -/
theorem relocate_of_apart {replacement : Replacement}
    (target : root.at? replacement.target = some c) (found : root.at? place = some m)
    (apart : ¬replacement.target <+: place) : replacement.relocate place = some place := by
  obtain ⟨parent, slot, reused⟩ := replacement
  rw [Replacement.relocate]
  rw [Replacement.target] at target apart
  dsimp only at target apart ⊢
  cases below : Place.below? parent place with
  | none => rfl
  | some rest =>
      obtain rfl := below?_eq_some_iff.mp below
      cases rest with
      | nil => rfl
      | cons step inner =>
          have notHere : step ≠ slot := by
            rintro rfl
            apply apart
            rw [List.prefix_append_right_inj, List.cons_prefix_cons]
            exact ⟨rfl, List.nil_prefix⟩
          have notAround : ¬(step.field = slot.field ∧ slot.index = none) := by
            rintro ⟨sameField, single⟩
            rw [at?_append] at target found
            obtain ⟨holder, holderFound, below⟩ := Option.bind_eq_some_iff.mp target
            rw [holderFound, Option.bind_some, at?] at found
            obtain ⟨child, inSlot, -⟩ := Option.bind_eq_some_iff.mp below
            obtain ⟨other, otherSlot, -⟩ := Option.bind_eq_some_iff.mp found
            exact notHere (slot_eq_of_inSlot? inSlot otherSlot sameField single)
          dsimp only
          rw [if_neg notHere, if_neg notAround]

/-- A place at or below what is replaced is lost, unless it lies in the part that is reused. -/
@[simp]
theorem relocate_target_append (replacement : Replacement) (inner : Place) :
    replacement.relocate (replacement.target ++ inner) =
      replacement.reused.bind fun reused => (Place.below? reused.1 inner).map fun rest =>
        replacement.target ++ (reused.2 ++ rest) := by
  have below : Place.below? replacement.parent (replacement.target ++ inner) =
      some (replacement.slot :: inner) := by
    rw [below?_eq_some_iff, Replacement.target, List.append_assoc, List.singleton_append]
  rw [Replacement.relocate, below]
  dsimp only
  rw [if_pos rfl, Replacement.target]
  simp only [List.append_assoc, List.singleton_append]

/-- A place does not lie in the part that is reused. -/
def Replacement.Clear (replacement : Replacement) (place : Place) : Prop :=
  ∀ old new, replacement.reused = some (old, new) → ¬replacement.target ++ old <+: place

theorem Replacement.Clear.of_above {replacement : Replacement} {outer : Place}
    (clear : replacement.Clear place) (above : outer <+: place) : replacement.Clear outer :=
  fun old new reused covered => clear old new reused (covered.trans above)

private theorem relocate_eq_none_of_clear {replacement : Replacement}
    (clear : replacement.Clear place) (covered : replacement.target <+: place) :
    replacement.relocate place = none := by
  obtain ⟨inner, rfl⟩ := covered
  rw [relocate_target_append, Option.bind_eq_none_iff]
  rintro ⟨old, new⟩ reused
  rw [Option.map_eq_none_iff, Option.eq_none_iff_forall_ne_some]
  intro rest below
  obtain rfl := below?_eq_some_iff.mp below
  refine clear old new reused ?_
  rw [← List.append_assoc]
  exact List.prefix_append _ _

/-- Replacements move no place of the tree that lies in no part that is reused.  What is lost are
the places at or below the replaced nodes. -/
theorem foldlM_relocate_of_at? {moves : List Replacement}
    (clear : ∀ move ∈ moves, move.Clear place)
    (targets : ∀ move ∈ moves, ∃ c, root.at? move.target = some c)
    (found : root.at? place = some m) :
    moves.foldlM (fun place move => move.relocate place) place =
      if ∃ move ∈ moves, move.target <+: place then none else some place := by
  induction moves with
  | nil => simp
  | cons move moves ih =>
      rw [List.forall_mem_cons] at clear targets
      obtain ⟨c, target⟩ := targets.1
      rw [List.foldlM_cons]
      by_cases lost : move.target <+: place
      · rw [relocate_eq_none_of_clear clear.1 lost, if_pos ⟨move, List.mem_cons_self, lost⟩]
        rfl
      · rw [relocate_of_apart target found lost]
        refine (ih clear.2 targets.2).trans ?_
        simp [lost]

end PropValidators
