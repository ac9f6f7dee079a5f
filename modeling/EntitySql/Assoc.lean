/-!
# Ordered associations

Declarations in this library keep the order in which they were written: the fields of an entity,
the columns of a table, the entries of a filter. `Entries` reads and writes association lists under
that discipline (a new key goes to the end, a known key keeps its place and takes the new value), and
`Assoc` is an association list whose keys are distinct, which every operation preserves.
-/

namespace EntitySql

namespace Entries

variable {α β : Type}

/-- The value of the first entry under `key`. -/
def find? (key : String) : List (String × α) → Option α
  | [] => none
  | (k, v) :: rest => if k = key then some v else find? key rest

/-- Whether some entry stands under `key`. -/
def has (key : String) (entries : List (String × α)) : Bool :=
  entries.any (·.1 == key)

/-- Gives `key` the value: in the place of its first entry if there is one, else at the end. -/
def put (key : String) (value : α) : List (String × α) → List (String × α)
  | [] => [(key, value)]
  | (k, v) :: rest => if k = key then (k, value) :: rest else (k, v) :: put key value rest

/-- Enters the pairs one by one, so a repeated key keeps its first place and its last value. -/
def ofPairs (pairs : List (String × α)) : List (String × α) :=
  pairs.foldl (fun entries (key, value) => put key value entries) []

theorem keys_put (key : String) (value : α) (entries : List (String × α)) :
    (put key value entries).map Prod.fst =
      if key ∈ entries.map Prod.fst then entries.map Prod.fst
      else entries.map Prod.fst ++ [key] := by
  induction entries with
  | nil => simp [put]
  | cons entry rest ih =>
    obtain ⟨k, v⟩ := entry
    by_cases h : k = key
    · simp [put, h]
    · have h' : ¬key = k := fun e => h e.symm
      by_cases hm : key ∈ rest.map Prod.fst <;> simp_all [put]

theorem nodup_keys_put (key : String) (value : α) {entries : List (String × α)}
    (h : (entries.map Prod.fst).Nodup) : ((put key value entries).map Prod.fst).Nodup := by
  rw [keys_put]
  split
  · exact h
  · rename_i hm
    exact List.nodup_append.2 ⟨h, by simp, by
      intro a ha b hb e
      simp only [List.mem_singleton] at hb
      exact hm (hb ▸ e ▸ ha)⟩

theorem nodup_keys_foldl_put (pairs entries : List (String × α))
    (h : (entries.map Prod.fst).Nodup) :
    ((pairs.foldl (fun es (key, value) => put key value es) entries).map Prod.fst).Nodup := by
  induction pairs generalizing entries with
  | nil => exact h
  | cons pair rest ih => exact ih _ (nodup_keys_put _ _ h)

@[simp]
theorem find?_put_self (key : String) (value : α) (entries : List (String × α)) :
    find? key (put key value entries) = some value := by
  induction entries with
  | nil => simp [put, find?]
  | cons entry rest ih =>
    obtain ⟨k, v⟩ := entry
    by_cases h : k = key <;> simp [put, find?, h, ih]

theorem find?_put_of_ne {key other : String} (h : other ≠ key) (value : α)
    (entries : List (String × α)) :
    find? other (put key value entries) = find? other entries := by
  induction entries with
  | nil => simp [put, find?, h.symm]
  | cons entry rest ih =>
    obtain ⟨k, v⟩ := entry
    by_cases hk : k = key
    · subst hk
      simp [put, find?, h.symm]
    · by_cases ho : k = other
      · subst ho
        simp [put, find?, hk]
      · simp [put, find?, hk, ho, ih]

theorem mem_of_find? {key : String} {value : α} {entries : List (String × α)}
    (h : find? key entries = some value) : (key, value) ∈ entries := by
  induction entries with
  | nil => cases h
  | cons entry rest ih =>
    obtain ⟨k, v⟩ := entry
    rw [find?] at h
    split at h
    · rename_i hk
      cases h
      exact hk ▸ .head rest
    · exact .tail _ (ih h)

end Entries

/-- An association list with distinct keys, in the order in which the keys were first entered. -/
structure Assoc (α : Type) where
  /-- The key and value pairs in order. -/
  entries : List (String × α)
  /-- No key stands twice. -/
  distinct : (entries.map Prod.fst).Nodup

namespace Assoc

variable {α β : Type}

/-- The association without entries. -/
def empty : Assoc α := ⟨[], by simp⟩

instance : EmptyCollection (Assoc α) := ⟨empty⟩

instance : Inhabited (Assoc α) := ⟨empty⟩

instance [BEq α] : BEq (Assoc α) := ⟨fun a b => a.entries == b.entries⟩

@[ext]
theorem ext {a b : Assoc α} (h : a.entries = b.entries) : a = b := by
  cases a
  cases b
  simpa using h

instance [DecidableEq α] : DecidableEq (Assoc α) := fun a b =>
  decidable_of_iff (a.entries = b.entries) ⟨ext, fun h => h ▸ rfl⟩

/-- The value under `key`. -/
def get? (a : Assoc α) (key : String) : Option α := Entries.find? key a.entries

/-- Whether `key` has a value. -/
def contains (a : Assoc α) (key : String) : Bool := Entries.has key a.entries

/-- Gives `key` the value, in the key's place if it has one and at the end otherwise. -/
def insert (a : Assoc α) (key : String) (value : α) : Assoc α :=
  ⟨Entries.put key value a.entries, Entries.nodup_keys_put key value a.distinct⟩

/-- Enters the pairs one by one. -/
def ofPairs (pairs : List (String × α)) : Assoc α :=
  ⟨Entries.ofPairs pairs, Entries.nodup_keys_foldl_put pairs [] (by simp)⟩

/-- The keys in order. -/
def keys (a : Assoc α) : List String := a.entries.map Prod.fst

/-- The values in the order of their keys. -/
def values (a : Assoc α) : List α := a.entries.map Prod.snd

/-- The number of entries. -/
def size (a : Assoc α) : Nat := a.entries.length

/-- Whether there is no entry. -/
def isEmpty (a : Assoc α) : Bool := a.entries.isEmpty

/-- Applies `f` to every value and leaves keys and order alone. -/
def mapValues (f : α → β) (a : Assoc α) : Assoc β :=
  ⟨a.entries.map fun (key, value) => (key, f value), by
    simpa [List.map_map, Function.comp_def] using a.distinct⟩

/-- Applies `f` to the value under `key`, if there is one. -/
def modify (a : Assoc α) (key : String) (f : α → α) : Assoc α :=
  ⟨a.entries.map fun (k, value) => (k, if k = key then f value else value), by
    simpa [List.map_map, Function.comp_def] using a.distinct⟩

@[simp]
theorem get?_insert_self (a : Assoc α) (key : String) (value : α) :
    (a.insert key value).get? key = some value := by
  simp [get?, insert]

theorem get?_insert_of_ne (a : Assoc α) {key other : String} (h : other ≠ key) (value : α) :
    (a.insert key value).get? other = a.get? other := by
  simp [get?, insert, Entries.find?_put_of_ne h]

theorem mem_values_of_get? {a : Assoc α} {key : String} {value : α} (h : a.get? key = some value) :
    value ∈ a.values :=
  List.mem_map.2 ⟨(key, value), Entries.mem_of_find? h, rfl⟩

theorem keys_insert (a : Assoc α) (key : String) (value : α) :
    (a.insert key value).keys = if key ∈ a.keys then a.keys else a.keys ++ [key] :=
  Entries.keys_put key value a.entries

@[simp]
theorem keys_mapValues (f : α → β) (a : Assoc α) : (a.mapValues f).keys = a.keys := by
  simp [keys, mapValues, List.map_map, Function.comp_def]

@[simp]
theorem keys_modify (a : Assoc α) (key : String) (f : α → α) : (a.modify key f).keys = a.keys := by
  simp [keys, modify, List.map_map, Function.comp_def]

end Assoc

end EntitySql
