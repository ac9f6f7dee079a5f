import EntitySql.Assoc
/-!
# Looking up in associations

An association is told by its look-ups: what stands under a key is what `Assoc.get?` gives, and every
operation says what it does to the look-ups. Where all values stand under their own names
(`Assoc.IsNamed`), looking up a key is the search for a value of that name.
-/

namespace EntitySql

namespace Entries

variable {α β : Type}

theorem find?_eq_none_iff {key : String} {entries : List (String × α)} :
    find? key entries = none ↔ key ∉ entries.map Prod.fst := by
  induction entries with
  | nil => simp [find?]
  | cons entry rest ih =>
    by_cases h : entry.1 = key
    · simp [find?, h]
    · simp [find?, h, ih, Ne.symm h]

theorem find?_eq_some_iff {key : String} {value : α} {entries : List (String × α)}
    (h : (entries.map Prod.fst).Nodup) :
    find? key entries = some value ↔ (key, value) ∈ entries := by
  refine ⟨mem_of_find?, fun hmem => ?_⟩
  induction entries with
  | nil => cases hmem
  | cons entry rest ih =>
    obtain ⟨hhead, hrest⟩ := List.nodup_cons.1 h
    rcases List.mem_cons.1 hmem with rfl | hmem
    · exact if_pos rfl
    · have hne : entry.1 ≠ key := by
        rintro rfl
        exact hhead (List.mem_map.2 ⟨_, hmem, rfl⟩)
      rw [find?, if_neg hne]
      exact ih hrest hmem

theorem find?_map (f : String → α → β) (key : String) (entries : List (String × α)) :
    find? key (entries.map fun entry => (entry.1, f entry.1 entry.2)) =
      (find? key entries).map (f key) := by
  induction entries with
  | nil => rfl
  | cons entry rest ih =>
    rw [List.map_cons, find?, find?]
    split
    · rename_i h
      rw [h, Option.map_some]
    · exact ih

theorem find?_filter_notMem (keys : List String) (key : String) (entries : List (String × α)) :
    find? key (entries.filter fun entry => !keys.contains entry.1) =
      if key ∈ keys then none else find? key entries := by
  induction entries with
  | nil => simp [find?]
  | cons entry rest ih =>
    by_cases hentry : entry.1 ∈ keys
    · rw [List.filter_cons_of_neg (by simpa using hentry), ih, find?]
      by_cases hkey : entry.1 = key
      · simp [hkey ▸ hentry]
      · simp [hkey]
    · rw [List.filter_cons_of_pos (by simpa using hentry), find?, find?, ih]
      by_cases hkey : entry.1 = key
      · simp [hkey, hkey ▸ hentry]
      · simp [hkey]

theorem put_of_notMem {key : String} {entries : List (String × α)} (h : key ∉ entries.map Prod.fst)
    (value : α) : put key value entries = entries ++ [(key, value)] := by
  induction entries with
  | nil => rfl
  | cons entry rest ih =>
    rw [List.map_cons, List.mem_cons, not_or] at h
    rw [put, if_neg (Ne.symm h.1), ih h.2, List.cons_append]

/-- Pairs with distinct keys are entered as they stand. -/
theorem ofPairs_of_nodup {pairs : List (String × α)} (h : (pairs.map Prod.fst).Nodup) :
    ofPairs pairs = pairs := by
  have hfold : ∀ rest done : List (String × α), ((done ++ rest).map Prod.fst).Nodup →
      rest.foldl (fun entries pair => put pair.1 pair.2 entries) done = done ++ rest := by
    intro rest
    induction rest with
    | nil => simp
    | cons pair rest ih =>
      intro done hnodup
      obtain ⟨key, value⟩ := pair
      have hnew : key ∉ done.map Prod.fst := by
        rw [List.map_append, List.nodup_append] at hnodup
        exact fun hmem => hnodup.2.2 _ hmem _ (.head _) rfl
      refine (congrArg (rest.foldl _) (put_of_notMem hnew value)).trans ?_
      rw [ih _ (by simpa using hnodup), List.append_assoc, List.singleton_append]
  exact hfold pairs [] h

end Entries

namespace Assoc

variable {α β : Type}

/-- The association without what stands under the keys. -/
def without (a : Assoc α) (keys : List String) : Assoc α :=
  ⟨a.entries.filter fun entry => !keys.contains entry.1,
    a.distinct.sublist (List.filter_sublist.map _)⟩

theorem get?_eq_some_iff {a : Assoc α} {key : String} {value : α} :
    a.get? key = some value ↔ (key, value) ∈ a.entries := Entries.find?_eq_some_iff a.distinct

theorem get?_eq_none_iff {a : Assoc α} {key : String} : a.get? key = none ↔ key ∉ a.keys :=
  Entries.find?_eq_none_iff

theorem mem_keys_iff {a : Assoc α} {key : String} :
    key ∈ a.keys ↔ ∃ value, a.get? key = some value := by
  rw [← Option.ne_none_iff_exists', ne_eq, get?_eq_none_iff, Decidable.not_not]

@[simp]
theorem contains_iff {a : Assoc α} {key : String} : a.contains key = true ↔ key ∈ a.keys := by
  simp [contains, Entries.has, keys]

@[simp]
theorem contains_eq_false_iff {a : Assoc α} {key : String} :
    a.contains key = false ↔ key ∉ a.keys := by
  rw [← Bool.not_eq_true, contains_iff]

theorem contains_eq_isSome (a : Assoc α) (key : String) : a.contains key = (a.get? key).isSome := by
  rw [Bool.eq_iff_iff, contains_iff, Option.isSome_iff_ne_none, ne_eq, get?_eq_none_iff,
    Decidable.not_not]

theorem mem_values_iff {a : Assoc α} {value : α} :
    value ∈ a.values ↔ ∃ key, a.get? key = some value := by
  simp [values, get?_eq_some_iff]

theorem get?_insert (a : Assoc α) (key other : String) (value : α) :
    (a.insert key value).get? other = if other = key then some value else a.get? other := by
  split
  · rename_i h
    rw [h, get?_insert_self]
  · rename_i h
    exact get?_insert_of_ne a h value

theorem mem_keys_insert {a : Assoc α} {key other : String} {value : α} :
    other ∈ (a.insert key value).keys ↔ other = key ∨ other ∈ a.keys := by
  rw [keys_insert]
  split
  · refine ⟨.inr, ?_⟩
    rintro (rfl | h)
    · assumption
    · exact h
  · rw [List.mem_append, List.mem_singleton, or_comm]

theorem get?_without (a : Assoc α) (keys : List String) (key : String) :
    (a.without keys).get? key = if key ∈ keys then none else a.get? key :=
  Entries.find?_filter_notMem keys key a.entries

section Folds

variable {ι : Type} {key : ι → String} {value : ι → α} {items : List ι}

theorem get?_foldl_insert_of_notMem (a : Assoc α) {k : String} (h : k ∉ items.map key) :
    (items.foldl (fun a i => a.insert (key i) (value i)) a).get? k = a.get? k := by
  induction items generalizing a with
  | nil => rfl
  | cons i rest ih =>
    rw [List.map_cons, List.mem_cons, not_or] at h
    rw [List.foldl_cons, ih _ h.2, get?_insert_of_ne a h.1]

theorem mem_keys_foldl_insert (a : Assoc α) {k : String} :
    k ∈ (items.foldl (fun a i => a.insert (key i) (value i)) a).keys ↔ k ∈ a.keys ∨ k ∈ items.map key := by
  induction items generalizing a with
  | nil => simp
  | cons i rest ih =>
    rw [List.foldl_cons, ih, mem_keys_insert, List.map_cons, List.mem_cons, or_assoc, or_left_comm]

/-- Of items with one key the last one stays. -/
theorem get?_foldl_insert (a : Assoc α) (k : String) :
    (items.foldl (fun a i => a.insert (key i) (value i)) a).get? k =
      ((items.reverse.find? (key · == k)).map value).or (a.get? k) := by
  induction items generalizing a with
  | nil => rfl
  | cons i rest ih =>
    rw [List.foldl_cons, ih, List.reverse_cons, List.find?_append, get?_insert]
    cases rest.reverse.find? (key · == k) with
    | some last => simp
    | none =>
      by_cases hi : key i = k
      · simp [hi]
      · simp [hi, Ne.symm hi]

/-- Items of one key that have one value leave that value. -/
theorem get?_foldl_insert_of_mem (a : Assoc α) {k : String} {v : α} (hmem : k ∈ items.map key)
    (hvalue : ∀ i ∈ items, key i = k → value i = v) :
    (items.foldl (fun a i => a.insert (key i) (value i)) a).get? k = some v := by
  induction items generalizing a with
  | nil => cases hmem
  | cons i rest ih =>
    rw [List.foldl_cons]
    by_cases hrest : k ∈ rest.map key
    · exact ih _ hrest fun j hj => hvalue j (.tail i hj)
    · have hi : k = key i := by
        rcases List.mem_cons.1 hmem with h | h
        · exact h
        · exact absurd h hrest
      rw [get?_foldl_insert_of_notMem _ hrest, hi, get?_insert_self,
        hvalue i (.head rest) hi.symm]

end Folds

theorem get?_modify (a : Assoc α) (key other : String) (f : α → α) :
    (a.modify key f).get? other = if other = key then (a.get? other).map f else a.get? other := by
  refine (Entries.find?_map (fun k value => if k = key then f value else value) other _).trans ?_
  split <;> simp [get?]

theorem get?_mapValues (a : Assoc α) (f : α → β) (key : String) :
    (a.mapValues f).get? key = (a.get? key).map f :=
  Entries.find?_map (fun _ value => f value) key a.entries

theorem values_mapValues (a : Assoc α) (f : α → β) : (a.mapValues f).values = a.values.map f := by
  simp [values, mapValues]

theorem forall_mem_values_insert {a : Assoc α} {key : String} {value : α} {P : α → Prop}
    (ha : ∀ v ∈ a.values, P v) (hvalue : P value) : ∀ v ∈ (a.insert key value).values, P v := by
  intro v hv
  obtain ⟨other, hother⟩ := mem_values_iff.1 hv
  rw [get?_insert] at hother
  split at hother
  · cases hother
    exact hvalue
  · exact ha v (mem_values_of_get? hother)

theorem forall_mem_values_modify {a : Assoc α} {key : String} {f : α → α} {P : α → Prop}
    (ha : ∀ v ∈ a.values, P v) (hf : ∀ v, P v → P (f v)) : ∀ v ∈ (a.modify key f).values, P v := by
  intro v hv
  obtain ⟨other, hother⟩ := mem_values_iff.1 hv
  rw [get?_modify] at hother
  split at hother
  · obtain ⟨old, hold, rfl⟩ := Option.map_eq_some_iff.1 hother
    exact hf old (ha old (mem_values_of_get? hold))
  · exact ha v (mem_values_of_get? hother)

/-! ## Values under their own names -/

/-- Every value stands under its own name. -/
def IsNamed (name : α → String) (a : Assoc α) : Prop :=
  ∀ key value, a.get? key = some value → name value = key

theorem isNamed_iff {name : α → String} {a : Assoc α} :
    a.IsNamed name ↔ ∀ entry ∈ a.entries, name entry.2 = entry.1 :=
  ⟨fun h entry hmem => h entry.1 entry.2 (get?_eq_some_iff.2 hmem),
    fun h _ _ hget => h _ (get?_eq_some_iff.1 hget)⟩

instance (name : α → String) (a : Assoc α) : Decidable (a.IsNamed name) :=
  decidable_of_iff _ isNamed_iff.symm

namespace IsNamed

variable {name : α → String} {a : Assoc α}

theorem empty : IsNamed name (∅ : Assoc α) := by
  intro key value h
  cases h

theorem insert (h : a.IsNamed name) {key : String} {value : α} (hname : name value = key) :
    (a.insert key value).IsNamed name := by
  intro other found hfound
  rw [get?_insert] at hfound
  split at hfound
  · cases hfound
    rw [hname]
    exact Eq.symm ‹_›
  · exact h other found hfound

theorem foldl_insert {ι : Type} {key : ι → String} {value : ι → α} {items : List ι}
    (h : a.IsNamed name) (hname : ∀ i, name (value i) = key i) :
    (items.foldl (fun a i => a.insert (key i) (value i)) a).IsNamed name := by
  induction items generalizing a with
  | nil => exact h
  | cons i rest ih => exact ih (h.insert (hname i))

theorem without (h : a.IsNamed name) (keys : List String) : (a.without keys).IsNamed name := by
  intro other found hfound
  rw [get?_without] at hfound
  split at hfound
  · cases hfound
  · exact h other found hfound

theorem modify (h : a.IsNamed name) {key : String} {f : α → α}
    (hf : ∀ value, name (f value) = name value) : (a.modify key f).IsNamed name := by
  intro other found hfound
  rw [get?_modify] at hfound
  split at hfound
  · obtain ⟨old, hold, rfl⟩ := Option.map_eq_some_iff.1 hfound
    rw [hf]
    exact h other old hold
  · exact h other found hfound

theorem get?_of_mem (h : a.IsNamed name) {value : α} (hmem : value ∈ a.values) :
    a.get? (name value) = some value := by
  obtain ⟨key, hkey⟩ := mem_values_iff.1 hmem
  rwa [h key value hkey]

theorem keys_eq (h : a.IsNamed name) : a.keys = a.values.map name := by
  simp only [keys, values, List.map_map]
  apply List.map_congr_left
  intro entry hmem
  exact (h entry.1 entry.2 (get?_eq_some_iff.2 hmem)).symm

theorem nodup (h : a.IsNamed name) : (a.values.map name).Nodup := h.keys_eq ▸ a.distinct

/-- Looking a name up is the search for a value of that name. -/
theorem find?_eq (h : a.IsNamed name) (key : String) :
    a.values.find? (fun value => name value == key) = a.get? key := by
  cases hget : a.get? key with
  | none =>
    rw [get?_eq_none_iff, h.keys_eq] at hget
    simpa using hget
  | some value =>
    have hvalue : value ∈ a.values := mem_values_of_get? hget
    cases hfind : a.values.find? (fun value => name value == key) with
    | none =>
      exact absurd (h key value hget) (by simpa using List.find?_eq_none.1 hfind value hvalue)
    | some found =>
      have hname : name found = key := by simpa using List.find?_some hfind
      rw [← hget, ← hname]
      exact (h.get?_of_mem (List.mem_of_find?_eq_some hfind)).symm

/-- The keys are the names of the values. -/
theorem mem_keys_iff (h : a.IsNamed name) {key : String} :
    key ∈ a.keys ↔ ∃ value ∈ a.values, name value = key := by
  rw [h.keys_eq, List.mem_map]

end IsNamed

end Assoc

end EntitySql
