import PropValidators.Assoc
import Mathlib.Data.List.Induction
import Mathlib.Data.List.Nodup

/-!
# Facts about keyed lists

Putting pairs one after the other into a keyed list: which keys there are afterwards and what is
found under them, and that nothing happens to a list whose keys are all different.  The entries
of such a list are those that are found under its keys, in some order.
-/

namespace PropValidators.Assoc

universe u

variable {α : Type u}

@[simp]
theorem putAll_nil (entries : List (String × α)) : putAll entries [] = entries :=
  rfl

@[simp]
theorem putAll_cons (entries : List (String × α)) (pair : String × α)
    (pairs : List (String × α)) :
    putAll entries (pair :: pairs) = putAll (put pair.1 pair.2 entries) pairs :=
  rfl

@[simp]
theorem putAll_append (entries first second : List (String × α)) :
    putAll entries (first ++ second) = putAll (putAll entries first) second :=
  List.foldl_append

@[simp]
theorem get?_cons_self (key : String) (value : α) (entries : List (String × α)) :
    get? ((key, value) :: entries) key = some value := by
  rw [get?, List.find?_cons_of_pos (by simp)]
  rfl

theorem get?_cons_of_ne {key other : String} (ne : key ≠ other) (value : α)
    (entries : List (String × α)) : get? ((key, value) :: entries) other = get? entries other := by
  rw [get?, List.find?_cons_of_neg (by simpa using ne), get?]

@[simp]
theorem ofPairs_concat (pairs : List (String × α)) (pair : String × α) :
    ofPairs (pairs ++ [pair]) = put pair.1 pair.2 (ofPairs pairs) := by
  simp [ofPairs]

theorem eraseDups_concat (keys : List String) (key : String) :
    (keys ++ [key]).eraseDups = if key ∈ keys then keys.eraseDups else keys.eraseDups ++ [key] := by
  rw [List.eraseDups_append, List.removeAll]
  split <;> rename_i mem <;> simp [mem, List.eraseDups_cons]

/-- The keys stand in the order in which they came first. -/
@[simp]
theorem keys_ofPairs (pairs : List (String × α)) :
    keys (ofPairs pairs) = (keys pairs).eraseDups := by
  induction pairs using List.reverseRecOn with
  | nil => rfl
  | append_singleton pairs pair ih =>
      have keysEq : keys (pairs ++ [pair]) = keys pairs ++ [pair.1] := List.map_append
      rw [ofPairs_concat, keys_put, ih, keysEq, eraseDups_concat]
      simp only [List.mem_eraseDups]

/-- Under each key stands the value that came last. -/
@[simp]
theorem get?_ofPairs (pairs : List (String × α)) (key : String) :
    get? (ofPairs pairs) key = get? pairs.reverse key := by
  induction pairs using List.reverseRecOn with
  | nil => rfl
  | append_singleton pairs pair ih =>
      obtain ⟨other, value⟩ := pair
      rw [ofPairs_concat, List.reverse_concat]
      by_cases same : other = key
      · rw [same, get?_put_self, get?_cons_self]
      · rw [get?_put_of_ne (Ne.symm same), get?_cons_of_ne same, ih]

/-- A property of all pairs holds of what they are put into. -/
theorem forall_mem_put {property : String × α → Prop} {key : String} {value : α}
    {entries : List (String × α)} (new : property (key, value))
    (old : ∀ pair ∈ entries, property pair) : ∀ pair ∈ put key value entries, property pair := by
  induction entries with
  | nil => simpa [put] using new
  | cons pair rest ih =>
      rw [List.forall_mem_cons] at old
      rw [put]
      split
      · rename_i keyEq
        rw [List.forall_mem_cons, keyEq]
        exact ⟨new, old.2⟩
      · rw [List.forall_mem_cons]
        exact ⟨old.1, ih old.2⟩

theorem forall_mem_ofPairs {property : String × α → Prop} {pairs : List (String × α)}
    (every : ∀ pair ∈ pairs, property pair) : ∀ pair ∈ ofPairs pairs, property pair := by
  suffices ∀ entries : List (String × α), (∀ pair ∈ entries, property pair) →
      ∀ pair ∈ putAll entries pairs, property pair from this [] (by simp)
  induction pairs with
  | nil => exact fun entries old => old
  | cons pair rest ih =>
      intro entries old
      rw [List.forall_mem_cons] at every
      exact ih every.2 _ (forall_mem_put every.1 old)

theorem put_of_notMem {key : String} {entries : List (String × α)} (notMem : key ∉ keys entries)
    (value : α) : put key value entries = entries ++ [(key, value)] := by
  induction entries with
  | nil => rfl
  | cons pair rest ih =>
      rw [keys, List.map_cons, List.mem_cons, not_or] at notMem
      rw [put, if_neg (Ne.symm notMem.1), ih notMem.2, List.cons_append]

theorem putAll_of_nodup {entries pairs : List (String × α)}
    (nodup : (keys entries ++ keys pairs).Nodup) : putAll entries pairs = entries ++ pairs := by
  induction pairs generalizing entries with
  | nil => rw [putAll_nil, List.append_nil]
  | cons pair rest ih =>
      obtain ⟨key, value⟩ := pair
      rw [keys, keys, List.map_cons, List.nodup_append] at nodup
      obtain ⟨entriesNodup, restNodup, apart⟩ := nodup
      have notMem : key ∉ keys entries := fun mem => apart key mem key List.mem_cons_self rfl
      rw [putAll_cons, put_of_notMem notMem, ih, List.append_assoc, List.singleton_append]
      rw [keys, keys, List.map_append, List.map_singleton, List.append_assoc,
        List.singleton_append, List.nodup_append]
      exact ⟨entriesNodup, restNodup, apart⟩

/-- Nothing happens to pairs with different keys. -/
theorem ofPairs_of_nodup {pairs : List (String × α)} (nodup : (keys pairs).Nodup) :
    ofPairs pairs = pairs :=
  putAll_of_nodup nodup

/-- No key is repeated in what pairs are put into, if none was. -/
theorem nodup_keys_putAll {entries : List (String × α)} (nodup : (keys entries).Nodup)
    (pairs : List (String × α)) : (keys (putAll entries pairs)).Nodup := by
  induction pairs generalizing entries with
  | nil => exact nodup
  | cons pair rest ih =>
      refine ih ?_
      rw [keys_put]
      split
      · exact nodup
      · rename_i notMem
        refine List.nodup_append.mpr ⟨nodup, List.nodup_singleton pair.1, ?_⟩
        intro key mem other otherMem eq
        rw [List.mem_singleton.mp otherMem] at eq
        exact notMem (eq ▸ mem)

theorem nodup_keys_ofPairs (pairs : List (String × α)) : (keys (ofPairs pairs)).Nodup := by
  have none : (keys ([] : List (String × α))).Nodup := List.nodup_nil
  exact nodup_keys_putAll none pairs

theorem mem_of_get? {entries : List (String × α)} {key : String} {value : α}
    (found : get? entries key = some value) : (key, value) ∈ entries := by
  rw [get?, Option.map_eq_some_iff] at found
  obtain ⟨⟨other, held⟩, find, rfl⟩ := found
  have keyEq : other = key := by simpa using List.find?_some find
  exact keyEq ▸ List.mem_of_find?_eq_some find

theorem mem_keys_of_mem {entries : List (String × α)} {key : String} {value : α}
    (mem : (key, value) ∈ entries) : key ∈ keys entries :=
  List.mem_map.mpr ⟨_, mem, rfl⟩

/-- Without repeated keys every entry is found under its key. -/
theorem get?_of_mem {entries : List (String × α)} (nodup : (keys entries).Nodup) {key : String}
    {value : α} (mem : (key, value) ∈ entries) : get? entries key = some value := by
  induction entries with
  | nil => cases mem
  | cons entry entries ih =>
      rw [keys, List.map_cons, List.nodup_cons] at nodup
      rcases List.mem_cons.mp mem with rfl | rest
      · exact get?_cons_self key value entries
      · have other : entry.1 ≠ key := by
          rintro rfl
          exact nodup.1 (mem_keys_of_mem rest)
        rw [← ih nodup.2 rest]
        exact get?_cons_of_ne other entry.2 entries

/-- Without repeated keys it makes no difference in which order entries stand. -/
theorem get?_eq_of_perm {entries others : List (String × α)} (order : entries.Perm others)
    (nodup : (keys entries).Nodup) (key : String) : get? entries key = get? others key := by
  have othersNodup : (keys others).Nodup := (order.map Prod.fst).nodup_iff.mp nodup
  refine Option.ext fun value => ⟨fun found => ?_, fun found => ?_⟩
  · exact get?_of_mem othersNodup (order.mem_iff.mp (mem_of_get? found))
  · exact get?_of_mem nodup (order.mem_iff.mpr (mem_of_get? found))

/-- Without repeated keys there is one entry at most for each key, so the first is the last. -/
theorem get?_reverse {entries : List (String × α)} (nodup : (keys entries).Nodup) (key : String) :
    get? entries.reverse key = get? entries key :=
  (get?_eq_of_perm entries.reverse_perm.symm nodup key).symm

/-- Without repeated keys a list is told by its keys and what is found under them. -/
theorem eq_of_get? {entries others : List (String × α)} (nodup : (keys entries).Nodup)
    (keysEq : keys entries = keys others)
    (found : ∀ key ∈ keys entries, get? entries key = get? others key) : entries = others := by
  induction entries generalizing others with
  | nil => exact (List.map_eq_nil_iff.mp keysEq.symm).symm
  | cons entry entries ih =>
      cases others with
      | nil => cases keysEq
      | cons other others =>
          obtain ⟨key, value⟩ := entry
          obtain ⟨otherKey, otherValue⟩ := other
          obtain ⟨rfl, restEq⟩ := List.cons.inj keysEq
          rw [keys, List.map_cons, List.nodup_cons] at nodup
          have valueEq := found key List.mem_cons_self
          rw [get?_cons_self, get?_cons_self] at valueEq
          have rest : entries = others := by
            refine ih nodup.2 restEq fun later mem => ?_
            have ne : key ≠ later := fun eq => nodup.1 (eq ▸ mem)
            rw [← get?_cons_of_ne ne value, found later (List.mem_cons_of_mem _ mem),
              get?_cons_of_ne ne]
          rw [Option.some.inj valueEq, rest]

/-- Entries without repeated keys can be put in the order of any list of their keys. -/
theorem perm_of_keys [Inhabited α] {entries : List (String × α)} (nodup : (keys entries).Nodup)
    {names : List String} (namesNodup : names.Nodup)
    (same : ∀ key, key ∈ keys entries ↔ key ∈ names) :
    entries.Perm (names.map fun key => (key, (get? entries key).getD default)) := by
  have entriesNodup : entries.Nodup := nodup.of_map
  have othersNodup : (names.map fun key => (key, (get? entries key).getD default)).Nodup :=
    namesNodup.map fun first second eq => congrArg Prod.fst eq
  rw [List.perm_ext_iff_of_nodup entriesNodup othersNodup]
  rintro ⟨key, value⟩
  rw [List.mem_map]
  constructor
  · intro mem
    refine ⟨key, (same key).mp (mem_keys_of_mem mem), ?_⟩
    rw [get?_of_mem nodup mem]
    rfl
  · rintro ⟨name, nameMem, eq⟩
    obtain ⟨rfl, rfl⟩ := Prod.mk.inj eq
    obtain ⟨⟨_, held⟩, heldMem, rfl⟩ := List.mem_map.mp ((same name).mpr nameMem)
    rw [get?_of_mem nodup heldMem]
    exact heldMem

end PropValidators.Assoc
