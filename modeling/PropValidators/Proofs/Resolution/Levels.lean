import PropValidators.Proofs.KeyedLists
import PropValidators.Proofs.Resolution.Termination
import PropValidators.Proofs.Types.Parts
import Mathlib.Algebra.GroupWithZero.Nat
import Mathlib.Algebra.Order.BigOperators.Group.List
import Mathlib.Algebra.Order.Group.Nat

/-!
# Levels of resolution

A resolution goes a level deeper in two places: inside an object type, and inside the
declarations of a name.  How far it can go is seen from what is asked about and from the
declarations whose names are not being resolved yet: once such a name is entered, its
declarations do not count any more.
-/

namespace PropValidators

namespace Resolution

/-- The types that a question is about. -/
def Query.parts : Query → List TypeExpr
  | .name _ _ => []
  | .interface parameters heritage own _ =>
      (Declaration.interface parameters heritage own).parts
  | .members own => memberTypes own
  | .nullable asked | .type asked => [asked]

/-- A question is about types in which the parameters of the innermost frame may occur. -/
def Query.isOpen : Query → Bool
  | .name _ _ | .interface _ _ _ _ => false
  | .members _ | .nullable _ | .type _ => true

private theorem height_withoutParentheses_le (weigh : TypeExpr → Nat) (type : TypeExpr) :
    TypeExpr.division.height weigh (withoutParentheses type) ≤
      TypeExpr.division.height weigh type := by
  fun_induction withoutParentheses type with
  | case1 inner ih => exact ih.trans (Division.height_le_of_mem (List.mem_singleton_self inner))
  | case2 => exact le_rfl

theorem height_bare_le (weigh : TypeExpr → Nat) (type : TypeExpr) :
    TypeExpr.division.height weigh (bare type) ≤ TypeExpr.division.height weigh type := by
  unfold bare
  split
  · rename_i inner
    exact (height_withoutParentheses_le weigh inner).trans
      (Division.height_le_of_mem (List.mem_singleton_self inner))
  · exact height_withoutParentheses_le weigh type

/-- The last of some declarations is one of them. -/
theorem getLast?_getD_mem (first : Declaration) (more : List Declaration) :
    more.getLast?.getD first ∈ first :: more := by
  cases last : more.getLast? with
  | none => exact List.mem_cons_self
  | some other => exact List.mem_cons_of_mem _ (List.mem_of_getLast? last)

@[simp]
theorem heightOf_singleton (weigh : TypeExpr → Nat) (type : TypeExpr) :
    heightOf weigh [type] = TypeExpr.division.height weigh type :=
  Nat.max_zero _

end Resolution

/-- The levels that a type goes down before its parts do: one for an object type. -/
def TypeExpr.levels : TypeExpr → Nat
  | .object _ => 1
  | _ => 0

/-- The levels that a declaration goes down. -/
def Declaration.levels (declaration : Declaration) : Nat :=
  heightOf TypeExpr.levels declaration.parts + 1

theorem Registry.exists_entry_of_mem_get {registry : Registry Declaration} {name : String}
    {declaration : Declaration} (mem : declaration ∈ registry.get name) :
    ∃ declarations, (name, declarations) ∈ registry.entries ∧ declaration ∈ declarations := by
  cases found : Assoc.get? registry.entries name with
  | none =>
      rw [Registry.get, found] at mem
      cases mem
  | some declarations =>
      rw [Registry.get, found] at mem
      exact ⟨declarations, Assoc.mem_of_get? found, mem⟩

namespace Context

/-- The levels of all declarations whose names are not being resolved. -/
def levelsLeft (context : Context) : Nat :=
  ((context.registry.entries.filter fun entry => !context.visited.contains entry.1).map
    fun entry => (entry.2.map Declaration.levels).sum).sum

variable {context : Context} {name : String} {declaration : Declaration}

@[simp]
theorem contains_visited_entering (other : String) :
    (context.entering name).visited.contains other =
      (context.visited.contains other || other == name) := by
  rw [entering]
  dsimp only
  split
  · rename_i entered
    by_cases eq : other = name
    · rw [eq, entered, Bool.true_or]
    · rw [beq_false_of_ne eq, Bool.or_false]
  · rw [List.contains_cons, Bool.or_comm]

/-- The declarations of a name that is entered do not count any more. -/
theorem levels_add_levelsLeft_entering_le (fresh : context.visited.contains name = false)
    (mem : declaration ∈ context.registry.get name) :
    declaration.levels + (context.entering name).levelsLeft ≤ context.levelsLeft := by
  obtain ⟨declarations, found, inEntry⟩ := context.registry.exists_entry_of_mem_get mem
  let weight : String × List Declaration → Nat := fun entry =>
    (entry.2.map Declaration.levels).sum
  let left := context.registry.entries.filter fun entry => !context.visited.contains entry.1
  have innerEq : (context.entering name).levelsLeft =
      ((left.filter fun entry => !(entry.1 == name)).map weight).sum := by
    rw [levelsLeft, List.filter_filter]
    congr 3
    funext entry
    rw [contains_visited_entering, Bool.not_or, Bool.and_comm]
  have entryLe : declaration.levels ≤
      ((left.filter fun entry => entry.1 == name).map weight).sum := by
    have inLeft : (name, declarations) ∈ left.filter fun entry => entry.1 == name := by
      rw [List.mem_filter, List.mem_filter, fresh]
      exact ⟨⟨found, rfl⟩, beq_self_eq_true name⟩
    exact (List.single_le_sum (fun _ _ => Nat.zero_le _) _ (List.mem_map_of_mem inEntry)).trans
      (List.single_le_sum (fun _ _ => Nat.zero_le _) _ (List.mem_map_of_mem inLeft))
  have splitEq : (left.map weight).sum =
      ((left.filter fun entry => entry.1 == name).map weight).sum +
        ((left.filter fun entry => !(entry.1 == name)).map weight).sum := by
    rw [← List.sum_append, ← List.map_append]
    exact (((List.filter_append_perm (fun entry => entry.1 == name) left).map weight).sum_eq).symm
  rw [innerEq]
  change _ ≤ (left.map weight).sum
  omega

end Context

end PropValidators
