import Mathlib.Data.List.Basic
import Mathlib.Data.List.Induction
import PropValidators.Proofs.Shapes.Sameness

/-!
# Telling values and shapes apart

Dropping repeated items leaves some of the items in their order, and for each of the others one
that is the same.  No two of those left are the same, in whichever order they are compared.
-/

namespace PropValidators

section Dedupe

variable {α : Type} (same : α → α → Bool)

/-- Items of which no two, wherever they stand, are the same. -/
def Apart (items : List α) : Prop :=
  ∀ i j : Fin items.length, i ≠ j → same items[i] items[j] = false

instance (items : List α) : Decidable (Apart same items) :=
  inferInstanceAs (Decidable (∀ i j : Fin items.length, i ≠ j → same items[i] items[j] = false))

/-- Keep an item, if none of those kept is the same.  What is kept stands in reverse. -/
def keepNew (kept : List α) (item : α) : List α :=
  if kept.any (same · item) then kept else item :: kept

theorem dedupe_eq (items : List α) : dedupe same items = (items.foldl (keepNew same) []).reverse :=
  rfl

theorem sublist_keepNew (kept : List α) (item : α) : kept.Sublist (keepNew same kept item) := by
  rw [keepNew]
  split
  · exact List.Sublist.refl kept
  · exact List.sublist_cons_self item kept

theorem sublist_foldl_keepNew (kept items : List α) :
    kept.Sublist (items.foldl (keepNew same) kept) := by
  induction items generalizing kept with
  | nil => exact List.Sublist.refl kept
  | cons item items ih => exact (sublist_keepNew same kept item).trans (ih _)

private theorem foldl_keepNew_sublist (kept items : List α) :
    (items.foldl (keepNew same) kept).reverse.Sublist (kept.reverse ++ items) := by
  induction items generalizing kept with
  | nil => rw [List.foldl_nil, List.append_nil]
  | cons item items ih =>
      refine (ih (keepNew same kept item)).trans ?_
      rw [keepNew]
      split
      · exact (List.sublist_cons_self item items).append_left kept.reverse
      · rw [List.reverse_cons, List.append_assoc, List.singleton_append]

/-- What is kept are some of the items, in their order. -/
theorem dedupe_sublist (items : List α) : (dedupe same items).Sublist items :=
  foldl_keepNew_sublist same [] items

theorem exists_mem_keepNew (kept : List α) (item : α) :
    ∃ other ∈ keepNew same kept item, other = item ∨ same other item = true := by
  rw [keepNew]
  split
  · rename_i repeated
    obtain ⟨other, mem, eq⟩ := List.any_eq_true.mp repeated
    exact ⟨other, mem, .inr eq⟩
  · exact ⟨item, List.mem_cons_self, .inl rfl⟩

/-- What was kept before stays, and every item is kept, or one that is the same. -/
theorem exists_mem_foldl_keepNew {items : List α} {item : α} (mem : item ∈ items)
    (kept : List α) :
    ∃ other ∈ items.foldl (keepNew same) kept, other = item ∨ same other item = true := by
  induction items generalizing kept with
  | nil => cases mem
  | cons first items ih =>
      rcases List.mem_cons.mp mem with rfl | mem
      · obtain ⟨other, otherMem, eq⟩ := exists_mem_keepNew same kept item
        exact ⟨other, (sublist_foldl_keepNew same _ items).subset otherMem, eq⟩
      · exact ih mem (keepNew same kept first)

/-- Every item is kept, or one that is the same. -/
theorem exists_mem_dedupe {items : List α} {item : α} (mem : item ∈ items) :
    ∃ other ∈ dedupe same items, other = item ∨ same other item = true := by
  obtain ⟨other, otherMem, eq⟩ := exists_mem_foldl_keepNew same mem []
  exact ⟨other, List.mem_reverse.mpr otherMem, eq⟩

private theorem pairwise_keepNew {kept : List α}
    (distinct : kept.Pairwise fun a b => same b a = false) (item : α) :
    (keepNew same kept item).Pairwise fun a b => same b a = false := by
  rw [keepNew]
  split
  · exact distinct
  · rename_i new
    refine List.pairwise_cons.mpr ⟨fun other mem => ?_, distinct⟩
    rw [List.any_eq_true, not_exists] at new
    exact Bool.eq_false_iff.mpr fun eq => new other ⟨mem, eq⟩

/-- Nothing kept is the same as something kept before it. -/
theorem dedupe_pairwise (items : List α) :
    (dedupe same items).Pairwise fun a b => same a b = false := by
  rw [dedupe_eq, List.pairwise_reverse]
  suffices ∀ kept : List α, (kept.Pairwise fun a b => same b a = false) →
      (items.foldl (keepNew same) kept).Pairwise fun a b => same b a = false from
    this [] List.Pairwise.nil
  induction items with
  | nil => exact fun kept distinct => distinct
  | cons item items ih => exact fun kept distinct => ih _ (pairwise_keepNew same distinct item)

/-- The first item is always kept. -/
theorem dedupe_ne_nil {items : List α} (some : items ≠ []) : dedupe same items ≠ [] := by
  cases items with
  | nil => exact absurd rfl some
  | cons item items =>
      rw [dedupe_eq, ne_eq, List.reverse_eq_nil_iff]
      intro none
      have kept : [item].Sublist ((item :: items).foldl (keepNew same) []) :=
        sublist_foldl_keepNew same [item] items
      rw [none, List.sublist_nil] at kept
      exact List.cons_ne_nil item [] kept

variable {same}

/-- Where it makes no difference in which order two items are compared, it is enough to compare
each with those after it. -/
theorem apart_of_pairwise (comm : ∀ a b, same a b = same b a) {items : List α}
    (pairwise : items.Pairwise fun a b => same a b = false) : Apart same items := by
  rw [List.pairwise_iff_getElem] at pairwise
  intro i j ne
  rcases Nat.lt_or_gt_of_ne (Fin.val_ne_of_ne ne) with lt | gt
  · exact pairwise i j i.isLt j.isLt lt
  · rw [comm]
    exact pairwise j i j.isLt i.isLt gt

/-- Items that are apart are equal if they are the same. -/
theorem Apart.eq_of_same {items : List α} (apart : Apart same items) {a b : α} (aMem : a ∈ items)
    (bMem : b ∈ items) (eq : same a b = true) : a = b := by
  obtain ⟨i, rfl⟩ := List.mem_iff_get.mp aMem
  obtain ⟨j, rfl⟩ := List.mem_iff_get.mp bMem
  by_cases indices : i = j
  · rw [indices]
  · exact absurd eq (Bool.eq_false_iff.mp (apart i j indices))

theorem dedupe_apart (comm : ∀ a b, same a b = same b a) (items : List α) :
    Apart same (dedupe same items) :=
  apart_of_pairwise comm (dedupe_pairwise same items)

/-- Nothing new is kept of an item that is the same as one of those kept. -/
theorem keepNew_of_mem {kept : List α} {other item : α} (mem : other ∈ kept)
    (eq : same other item = true) : keepNew same kept item = kept := by
  rw [keepNew, if_pos (List.any_eq_true.mpr ⟨other, mem, eq⟩)]

theorem dedupe_concat (items : List α) (item : α) :
    dedupe same (items ++ [item]) =
      if (dedupe same items).any (same · item) then dedupe same items
      else dedupe same items ++ [item] := by
  rw [dedupe_eq, List.foldl_append, List.foldl_cons, List.foldl_nil, keepNew, dedupe_eq,
    List.any_reverse]
  split
  · rfl
  · rw [List.reverse_cons]

/-- Where items that are the same stand for each other, it makes no difference if repetitions
were dropped before. -/
theorem foldl_keepNew_dedupe (congr : ∀ a b, same a b = true → ∀ c, same a c = same b c)
    (items kept : List α) :
    (dedupe same items).foldl (keepNew same) kept = items.foldl (keepNew same) kept := by
  induction items using List.reverseRecOn with
  | nil => rfl
  | append_singleton items item ih =>
      rw [dedupe_concat, List.foldl_append, ← ih]
      split
      · rename_i repeated
        obtain ⟨earlier, earlierMem, eq⟩ := List.any_eq_true.mp repeated
        obtain ⟨other, otherMem, eqOther⟩ := exists_mem_foldl_keepNew same earlierMem kept
        have otherEq : same other item = true := by
          rcases eqOther with rfl | eqOther
          · exact eq
          · rw [congr other earlier eqOther, eq]
        exact (keepNew_of_mem otherMem otherEq).symm
      · rw [List.foldl_append]

theorem dedupe_append_dedupe (congr : ∀ a b, same a b = true → ∀ c, same a c = same b c)
    (before items after : List α) :
    dedupe same (before ++ dedupe same items ++ after) =
      dedupe same (before ++ items ++ after) := by
  rw [dedupe_eq same (before ++ _ ++ after), dedupe_eq same (before ++ items ++ after),
    List.foldl_append, List.foldl_append, foldl_keepNew_dedupe congr, List.foldl_append,
    List.foldl_append]

/-- Items may be changed before or after repetitions are dropped, if the changed ones are the same
exactly where they were before. -/
theorem dedupe_map {change : α → α} (alike : ∀ a b, same (change a) (change b) = same a b)
    (items : List α) : dedupe same (items.map change) = (dedupe same items).map change := by
  have keep (kept : List α) (item : α) :
      keepNew same (kept.map change) (change item) = (keepNew same kept item).map change := by
    rw [keepNew, keepNew, List.any_map]
    simp only [Function.comp_def, alike]
    split <;> rfl
  suffices ∀ kept : List α, (items.map change).foldl (keepNew same) (kept.map change) =
      (items.foldl (keepNew same) kept).map change by
    rw [dedupe_eq, dedupe_eq, List.map_reverse, ← this []]
    rfl
  induction items with
  | nil => exact fun kept => rfl
  | cons item items ih =>
      intro kept
      rw [List.map_cons, List.foldl_cons, List.foldl_cons, keep, ih]

/-- Comparisons that agree on all pairs of items drop the same repetitions. -/
theorem dedupe_congr {other : α → α → Bool} {items : List α}
    (agree : items.Pairwise fun a b => same a b = other a b) :
    dedupe same items = dedupe other items := by
  suffices ∀ kept : List α, ((kept.reverse ++ items).Pairwise fun a b => same a b = other a b) →
      items.foldl (keepNew same) kept = items.foldl (keepNew other) kept by
    rw [dedupe_eq, dedupe_eq, this [] agree]
  clear agree
  induction items with
  | nil => exact fun kept _ => rfl
  | cons item items ih =>
      intro kept agree
      have anyEq : kept.any (same · item) = kept.any (other · item) := by
        have pairEq : ∀ earlier ∈ kept, same earlier item = other earlier item := by
          intro earlier mem
          exact (List.pairwise_append.mp agree).2.2 earlier (List.mem_reverse.mpr mem) item
            List.mem_cons_self
        rw [Bool.eq_iff_iff, List.any_eq_true, List.any_eq_true]
        exact exists_congr fun earlier => and_congr_right fun mem => by rw [pairEq earlier mem]
      rw [List.foldl_cons, List.foldl_cons, keepNew, keepNew, anyEq]
      split
      · exact ih kept (agree.sublist ((List.sublist_cons_self item items).append_left _))
      · refine ih (item :: kept) ?_
        rw [List.reverse_cons, List.append_assoc, List.singleton_append]
        exact agree

end Dedupe

end PropValidators
