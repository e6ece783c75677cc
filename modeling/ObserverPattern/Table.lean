/-!
# Ordered tables

A table gives values to keys and remembers the order in which the keys
were first entered. No key occurs twice.

* `insert` keeps the place of a key that is present and puts a new
  one at the end; `erase` closes the gap.
* `get?_insert`, `get?_erase`: what the operations do to the look-up of every key.
* `keys_insert`, `keys_erase`: what they do to the order of the keys.
-/

namespace ObserverPattern

/-- A table whose keys are kept in order of entry. -/
structure Table (α : Type) where
  entries : List (String × α)
  nodup : (entries.map Prod.fst).Nodup
  deriving DecidableEq

namespace Table

variable {α : Type}

def empty : Table α := ⟨[], by simp⟩

def keys (t : Table α) : List String := t.entries.map Prod.fst

def size (t : Table α) : Nat := t.entries.length

/-- The first value of a key among some entries. -/
def find (key : String) : List (String × α) → Option α
  | [] => none
  | (k, v) :: rest => if k = key then some v else find key rest

def get? (t : Table α) (key : String) : Option α := find key t.entries

def contains (t : Table α) (key : String) : Bool := t.keys.contains key

/-- The entries with another value for a key that is among them. -/
def put (key : String) (value : α) : List (String × α) → List (String × α)
  | [] => [(key, value)]
  | (k, v) :: rest => if k = key then (key, value) :: rest else (k, v) :: put key value rest

private theorem keys_put (key : String) (value : α) (entries : List (String × α)) :
    (put key value entries).map Prod.fst =
      if key ∈ entries.map Prod.fst then entries.map Prod.fst else entries.map Prod.fst ++ [key] := by
  induction entries with
  | nil => simp [put]
  | cons e rest ih =>
    obtain ⟨k, v⟩ := e
    by_cases h : k = key
    · simp [put, h]
    · simp only [put, h, ↓reduceIte, List.map_cons, ih, List.mem_cons, Ne.symm h, false_or]
      split <;> simp

private theorem find_put (key : String) (value : α) (entries : List (String × α)) (k : String) :
    find k (put key value entries) = if k = key then some value else find k entries := by
  induction entries with
  | nil => simp [put, find, eq_comm]
  | cons e rest ih =>
    obtain ⟨k', v⟩ := e
    by_cases h' : k' = key
    · subst h'
      by_cases h : k = k' <;> simp [put, find, h, eq_comm]
    · by_cases hk : k' = k
      · simp_all [put, find]
      · simp [put, find, h', hk, ih]

private theorem find_filter (key : String) (entries : List (String × α)) (k : String) :
    find k (entries.filter fun e => e.1 != key) = if k = key then none else find k entries := by
  induction entries with
  | nil => simp [find]
  | cons e rest ih =>
    obtain ⟨k', v⟩ := e
    by_cases h' : k' = key
    · by_cases h : k = key <;> simp_all [find, eq_comm]
    · by_cases hk : k' = k <;> simp_all [find]

def insert (t : Table α) (key : String) (value : α) : Table α where
  entries := put key value t.entries
  nodup := by
    rw [keys_put]
    split
    · exact t.nodup
    · next h =>
      refine List.nodup_append.mpr ⟨t.nodup, by simp, fun a ha b hb hab => h ?_⟩
      rwa [← List.mem_singleton.mp hb, ← hab]

def erase (t : Table α) (key : String) : Table α where
  entries := t.entries.filter fun e => e.1 != key
  nodup := (List.filter_sublist.map _).nodup t.nodup

/-- The table that the entries of a list fill one after the other. -/
def ofList (entries : List (String × α)) : Table α := entries.foldl (fun t e => t.insert e.1 e.2) empty

/-! ## Look-ups and keys -/

@[simp] theorem get?_empty (key : String) : (empty : Table α).get? key = none := rfl

theorem get?_insert (t : Table α) (key : String) (value : α) (k : String) :
    (t.insert key value).get? k = if k = key then some value else t.get? k :=
  find_put key value t.entries k

theorem keys_insert (t : Table α) (key : String) (value : α) :
    (t.insert key value).keys = if key ∈ t.keys then t.keys else t.keys ++ [key] :=
  keys_put key value t.entries

theorem get?_erase (t : Table α) (key k : String) :
    (t.erase key).get? k = if k = key then none else t.get? k := find_filter key t.entries k

theorem keys_erase (t : Table α) (key : String) : (t.erase key).keys = t.keys.filter (· != key) := by
  simp [erase, keys, List.filter_map, Function.comp_def]

private theorem isSome_find (key : String) (entries : List (String × α)) :
    (find key entries).isSome = true ↔ key ∈ entries.map Prod.fst := by
  induction entries with
  | nil => simp [find]
  | cons e rest ih =>
    obtain ⟨k, v⟩ := e
    by_cases h : k = key
    · simp [find, h]
    · simp [find, h, ih, Ne.symm h]

theorem isSome_get? (t : Table α) (key : String) : (t.get? key).isSome = true ↔ key ∈ t.keys :=
  isSome_find key t.entries

private theorem mem_of_find {key : String} {value : α} {entries : List (String × α)}
    (h : find key entries = some value) : (key, value) ∈ entries := by
  induction entries with
  | nil => cases h
  | cons e rest ih =>
    obtain ⟨k, v⟩ := e
    by_cases hk : k = key
    · rw [find, if_pos hk, Option.some.injEq] at h
      rw [hk, h]
      exact List.mem_cons_self
    · rw [find, if_neg hk] at h
      exact List.mem_cons_of_mem _ (ih h)

theorem mem_entries_of_get? {t : Table α} {key : String} {value : α} (h : t.get? key = some value) :
    (key, value) ∈ t.entries := mem_of_find h

end Table

end ObserverPattern
