/-!
# Keyed lists

Lists of key and value pairs in insertion order.  Putting a value under a key
that is already there keeps the position of the key and changes only its value;
a new key goes to the end.  Object members, merged fields and the names of a
registry are all kept this way.
-/

namespace PropValidators.Assoc

universe u

variable {α : Type u}

/-- Put `value` under `key`: in the place of an earlier value for that key, or
at the end. -/
def put (key : String) (value : α) : List (String × α) → List (String × α)
  | [] => [(key, value)]
  | (k, v) :: rest => if k = key then (k, value) :: rest else (k, v) :: put key value rest

/-- Put all pairs one after the other. -/
def putAll (entries pairs : List (String × α)) : List (String × α) :=
  pairs.foldl (fun acc pair => put pair.1 pair.2 acc) entries

/-- A keyed list without repeated keys: every key stands where it first
occurred and carries its last value. -/
def ofPairs (pairs : List (String × α)) : List (String × α) :=
  putAll [] pairs

/-- The keys, in order. -/
def keys (entries : List (String × α)) : List String :=
  entries.map Prod.fst

/-- The value under a key. -/
def get? (entries : List (String × α)) (key : String) : Option α :=
  (entries.find? (fun pair => pair.1 == key)).map Prod.snd

@[simp]
theorem keys_nil : keys ([] : List (String × α)) = [] :=
  rfl

@[simp]
theorem keys_cons (entry : String × α) (entries : List (String × α)) :
    keys (entry :: entries) = entry.1 :: keys entries :=
  rfl

@[simp]
theorem get?_nil (key : String) : get? ([] : List (String × α)) key = none :=
  rfl

/-- Putting under a key that is present keeps the keys; otherwise the key is
added at the end. -/
@[simp]
theorem keys_put (key : String) (value : α) (entries : List (String × α)) :
    keys (put key value entries) =
      if key ∈ keys entries then keys entries else keys entries ++ [key] := by
  induction entries with
  | nil => simp [put, keys]
  | cons pair rest ih =>
      obtain ⟨k, v⟩ := pair
      by_cases hk : k = key
      · simp [put, keys, hk]
      · have hk' : ¬ key = k := fun h => hk h.symm
        simp only [keys] at ih
        simp only [put, keys, hk, if_false, List.map_cons, ih, List.mem_cons, hk', false_or]
        by_cases hmem : key ∈ List.map Prod.fst rest <;> simp [hmem]

/-- The value just put is the one found. -/
@[simp]
theorem get?_put_self (key : String) (value : α) (entries : List (String × α)) :
    get? (put key value entries) key = some value := by
  induction entries with
  | nil => simp [put, get?]
  | cons pair rest ih =>
      obtain ⟨k, v⟩ := pair
      by_cases hk : k = key
      · simp [put, get?, hk]
      · simp only [get?] at ih
        simp [put, get?, hk, ih]

/-- Putting under one key leaves the values of the others. -/
theorem get?_put_of_ne {key other : String} (hne : other ≠ key) (value : α)
    (entries : List (String × α)) :
    get? (put key value entries) other = get? entries other := by
  induction entries with
  | nil => simp [put, get?, Ne.symm hne]
  | cons pair rest ih =>
      obtain ⟨k, v⟩ := pair
      by_cases hk : k = key
      · subst hk
        simp [put, get?, Ne.symm hne]
      · by_cases ho : k = other
        · subst ho
          simp [put, get?, hk]
        · simp only [get?] at ih
          simp [put, get?, hk, ho, ih]

end PropValidators.Assoc
