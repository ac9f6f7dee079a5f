import Mathlib.Data.List.Nodup
import Mathlib.Data.List.Perm.Basic
import EntitySql.Proofs.Assoc
import EntitySql.Proofs.Sequence
import EntitySql.Schema.Order
/-!
# Sorted tables are all tables

Sorting tables by dependency neither loses a table nor repeats one (`Schema.sortedTables_perm`). What
has to be shown is that no name is settled twice. While names are settled, each table waits for exactly
those of its dependencies that are not settled (`Schema.Settling`); a name is queued when its table stops
waiting, which happens once.
-/

namespace EntitySql

theorem nodup_eraseDups (names : List String) : names.eraseDups.Nodup := by
  cases names with
  | nil => exact List.nodup_nil
  | cons first rest =>
    rw [List.eraseDups_cons, List.nodup_cons, List.mem_eraseDups]
    exact ⟨by simp, nodup_eraseDups _⟩
termination_by names.length
decreasing_by exact Nat.lt_succ_of_le (List.length_filter_le _ _)

namespace Schema

/-- The names that the table with the given name waits for at first. -/
def needs (s : Schema) (name : String) : List String :=
  ((s.tables.values.find? (·.name == name)).map s.dependencies).getD []

/-- How many of the names that the table waits for are not among those that are done. -/
def missing (s : Schema) (done : List String) (name : String) : Nat :=
  (s.needs name).countP fun needed => !done.contains needed

theorem nodup_needs (s : Schema) (name : String) : (s.needs name).Nodup := by
  unfold needs
  cases s.tables.values.find? (·.name == name) with
  | none => exact List.nodup_nil
  | some t => exact nodup_eraseDups _

theorem missing_eq_zero_iff {s : Schema} {done : List String} {name : String} :
    s.missing done name = 0 ↔ ∀ needed ∈ s.needs name, needed ∈ done := by
  simp [missing, List.countP_eq_zero]

/-- Each name that gets done is one less to wait for. -/
theorem missing_append_singleton {s : Schema} {done : List String} {settled : String}
    (hnew : settled ∉ done) (name : String) :
    s.missing (done ++ [settled]) name =
      if settled ∈ s.needs name then s.missing done name - 1 else s.missing done name := by
  have hsplit : ∀ names : List String, names.Nodup →
      names.countP (fun needed => !done.contains needed) =
        names.countP (fun needed => !(done ++ [settled]).contains needed) +
          if settled ∈ names then 1 else 0 := by
    intro names hnames
    induction names with
    | nil => simp
    | cons first rest ih =>
      obtain ⟨hfirst, hrest⟩ := List.nodup_cons.1 hnames
      rw [List.countP_cons, List.countP_cons, ih hrest]
      by_cases h : first = settled
      · subst h
        simp [hnew, hfirst]
      · have hne : settled ≠ first := fun e => h e.symm
        simp [h, hne]
        omega
  have hcount := hsplit _ (s.nodup_needs name)
  unfold missing
  split at hcount <;> simp_all

/-! ## Settling names -/

/-- Where the tables stand after `done` is settled, with `queue` next. -/
structure Settling (s : Schema) (done : List String) (waiting : Waiting) (queue : List String) :
    Prop where
  /-- Every table waits for what it needs and what is not done. -/
  counts : ∀ name, waiting.get? name =
    if name ∈ s.tables.keys then some (s.missing done name) else none
  /-- What is done or queued is a table that waits for nothing any more. -/
  ready : ∀ name ∈ done ++ queue, name ∈ s.tables.keys ∧ s.missing done name = 0
  nodup : (done ++ queue).Nodup
  /-- Whatever waits for nothing any more is done or queued. -/
  complete : ∀ name ∈ s.tables.keys, s.missing done name = 0 → name ∈ done ++ queue
  /-- What is done stands behind what it needs. -/
  ordered : EachAfter (fun before name => ∀ needed ∈ s.needs name, needed ∈ before) done

/-- Whether one table less leaves nothing to wait for. -/
def isFreed (waiting : Waiting) (name : String) : Bool := (waiting.get? name).any fun n => n - 1 = 0

/-- One table less to wait for. A name that waits for nothing at all is passed over. -/
theorem release_eq (waiting : Waiting) (ready : List String) (name : String) :
    ∃ waiting' : Waiting,
      release (waiting, ready) name = (waiting', ready ++ [name].filter (isFreed waiting)) ∧
      ∀ other, waiting'.get? other =
        if other = name then (waiting.get? other).map (· - 1) else waiting.get? other := by
  cases hget : waiting.get? name with
  | none =>
    refine ⟨waiting, by simp [release, isFreed, hget], fun other => ?_⟩
    by_cases h : other = name <;> simp [h, hget]
  | some n =>
    refine ⟨waiting.insert name (n - 1), ?_, fun other => ?_⟩
    · by_cases h : n - 1 = 0 <;> simp [release, isFreed, hget, h]
    · rw [Assoc.get?_insert]
      by_cases h : other = name <;> simp [h, hget]

/-- One table less to wait for, for each of the names. Those that then wait for none are ready. -/
theorem foldl_release {names : List String} (hnames : names.Nodup) (waiting : Waiting)
    (ready : List String) :
    ∃ waiting' : Waiting,
      names.foldl release (waiting, ready) = (waiting', ready ++ names.filter (isFreed waiting)) ∧
      ∀ name, waiting'.get? name =
        if name ∈ names then (waiting.get? name).map (· - 1) else waiting.get? name := by
  induction names generalizing waiting ready with
  | nil => exact ⟨waiting, by simp, by simp⟩
  | cons first rest ih =>
    obtain ⟨hfirst, hrest⟩ := List.nodup_cons.1 hnames
    obtain ⟨released, hrelease, hreleased⟩ := release_eq waiting ready first
    obtain ⟨waiting', hfold, hget⟩ := ih hrest released (ready ++ [first].filter (isFreed waiting))
    have hkept : rest.filter (isFreed released) = rest.filter (isFreed waiting) := by
      apply List.filter_congr
      intro name hname
      have hne : name ≠ first := fun h => hfirst (h ▸ hname)
      rw [isFreed, isFreed, hreleased, if_neg hne]
    refine ⟨waiting', ?_, fun name => ?_⟩
    · rw [List.foldl_cons, hrelease, hfold, hkept, List.append_assoc, ← List.filter_append,
        List.singleton_append]
    · rw [hget, hreleased]
      by_cases h : name = first <;> by_cases hmem : name ∈ rest <;> simp_all

section Distinct

variable {s : Schema} (hs : (s.tables.values.map Table.name).Nodup)

include hs

theorem find?_name_eq_some_iff {name : String} {t : Table} :
    s.tables.values.find? (·.name == name) = some t ↔ t ∈ s.tables.values ∧ t.name = name := by
  constructor
  · intro h
    exact ⟨List.mem_of_find?_eq_some h, by simpa using List.find?_some h⟩
  · rintro ⟨hmem, rfl⟩
    obtain ⟨found, hfound⟩ : ∃ found, s.tables.values.find? (·.name == t.name) = some found := by
      rw [← Option.isSome_iff_exists, List.find?_isSome]
      exact ⟨t, hmem, beq_self_eq_true t.name⟩
    rw [hfound, List.inj_on_of_nodup_map hs (List.mem_of_find?_eq_some hfound) hmem
      (by simpa using List.find?_some hfound)]

theorem mem_dependents_iff {settled name : String} :
    name ∈ s.dependents settled ↔ settled ∈ s.needs name := by
  unfold dependents needs
  simp only [List.mem_map, List.mem_filter, List.contains_iff_mem]
  constructor
  · rintro ⟨t, ⟨hmem, hdepends⟩, rfl⟩
    rw [(find?_name_eq_some_iff hs).2 ⟨hmem, rfl⟩]
    exact hdepends
  · intro hneeds
    cases hfind : s.tables.values.find? (·.name == name) with
    | none => simp [hfind] at hneeds
    | some t =>
      rw [hfind] at hneeds
      obtain ⟨hmem, hname⟩ := (find?_name_eq_some_iff hs).1 hfind
      exact ⟨t, ⟨hmem, hneeds⟩, hname⟩

theorem nodup_dependents (settled : String) : (s.dependents settled).Nodup :=
  hs.sublist (List.filter_sublist.map _)

theorem dependencyCount_eq (name : String) : s.dependencyCount name = (s.needs name).length := by
  have hfilter : s.tables.values.filter (·.name == name) =
      (s.tables.values.find? (·.name == name)).toList := by
    have hnodup := hs
    generalize s.tables.values = tables at hnodup
    induction tables with
    | nil => rfl
    | cons t rest ih =>
      obtain ⟨ht, hrest⟩ := List.nodup_cons.1 hnodup
      by_cases h : t.name = name
      · have hnone : rest.filter (·.name == name) = [] := by
          rw [List.filter_eq_nil_iff]
          intro other hother
          simp only [beq_iff_eq]
          rintro hname
          exact ht (List.mem_map.2 ⟨other, hother, hname.trans h.symm⟩)
        simp [h, hnone]
      · simp [h, ih hrest]
  rw [dependencyCount, hfilter, needs]
  cases s.tables.values.find? (·.name == name) <;> simp

/-- A queued name is settled. -/
theorem Settling.step {done : List String} {waiting : Waiting} {name : String} {queue : List String}
    (h : s.Settling done waiting (name :: queue)) :
    ∃ waiting' ready, (s.dependents name).foldl release (waiting, []) = (waiting', ready) ∧
      s.Settling (done ++ [name]) waiting' (queue ++ ready) := by
  have hnew : name ∉ done := fun hmem =>
    (List.nodup_append.1 h.nodup).2.2 name hmem name (.head queue) rfl
  obtain ⟨waiting', hfold, hget⟩ := foldl_release (s.nodup_dependents hs name) waiting []
  rw [List.nil_append] at hfold
  have hfreed : ∀ other, isFreed waiting other = true ↔
      other ∈ s.tables.keys ∧ s.missing done other - 1 = 0 := by
    intro other
    rw [isFreed, h.counts]
    split <;> simp [*]
  have hold : done ++ [name] ++ queue = done ++ name :: queue := List.append_assoc ..
  have hneeded := missing_eq_zero_iff.1 (h.ready name (List.mem_append_right _ (.head queue))).2
  refine ⟨waiting', _, hfold, ?_, ?_, ?_, ?_, EachAfter.append_iff.2 ⟨h.ordered, by simpa⟩⟩
  · intro other
    rw [hget, missing_append_singleton hnew, h.counts other]
    simp only [mem_dependents_iff hs]
    split <;> split <;> rfl
  · intro other hother
    rw [missing_append_singleton hnew]
    rw [← List.append_assoc, hold] at hother
    rcases List.mem_append.1 hother with hother | hother
    · obtain ⟨hkey, hzero⟩ := h.ready other hother
      exact ⟨hkey, by simp [hzero]⟩
    · obtain ⟨hdependent, hzero⟩ := List.mem_filter.1 hother
      rw [if_pos ((mem_dependents_iff hs).1 hdependent)]
      exact (hfreed other).1 hzero
  · rw [← List.append_assoc, hold, List.nodup_append]
    refine ⟨h.nodup, (s.nodup_dependents hs name).filter _, ?_⟩
    rintro other hother _ hready rfl
    -- A name that only now stops to wait has waited for the one that is settled.
    have hneeds := (mem_dependents_iff hs).1 (List.mem_filter.1 hready).1
    exact hnew (missing_eq_zero_iff.1 (h.ready other hother).2 name hneeds)
  · intro other hother hzero
    rw [missing_append_singleton hnew] at hzero
    rw [← List.append_assoc, hold, List.mem_append]
    split at hzero
    · exact .inr (List.mem_filter.2
        ⟨(mem_dependents_iff hs).2 ‹_›, (hfreed other).2 ⟨hother, hzero⟩⟩)
    · exact .inl (h.complete other hother hzero)

/-- No name is settled twice, and only tables are settled. -/
theorem Settling.settle {done : List String} {waiting : Waiting} {queue : List String}
    (h : s.Settling done waiting queue) (fuel : Nat) :
    (done ++ s.settle fuel waiting queue).Nodup ∧
      ∀ name ∈ s.settle fuel waiting queue, name ∈ s.tables.keys := by
  induction fuel generalizing done waiting queue with
  | zero =>
    exact ⟨by simpa [Schema.settle] using (List.nodup_append.1 h.nodup).1, by simp [Schema.settle]⟩
  | succ fuel ih =>
    cases queue with
    | nil => exact ⟨by simpa [Schema.settle] using h.nodup, by simp [Schema.settle]⟩
    | cons name queue =>
      obtain ⟨waiting', ready, hfold, hstep⟩ := h.step hs
      obtain ⟨hnodup, hkeys⟩ := ih hstep
      rw [Schema.settle, hfold]
      refine ⟨by simpa using hnodup, fun other hother => ?_⟩
      rcases List.mem_cons.1 hother with rfl | hother
      · exact (h.ready _ (List.mem_append_right _ (.head queue))).1
      · exact hkeys other hother

theorem entries_initialWaiting :
    s.initialWaiting.entries = s.tables.keys.map fun key => (key, s.missing [] key) := by
  have hpairs :
      ((s.tables.keys.map fun key => (key, s.dependencyCount key)).map Prod.fst).Nodup := by
    simpa [Function.comp_def, Assoc.keys] using s.tables.distinct
  refine (Entries.ofPairs_of_nodup hpairs).trans (List.map_congr_left fun key _ => ?_)
  rw [s.dependencyCount_eq hs key]
  simp [missing]

/-- At first each table waits for all that it needs, and those that need nothing are queued. -/
theorem settling_initialWaiting :
    s.Settling [] s.initialWaiting
      ((s.initialWaiting.entries.filter fun entry => entry.2 == 0).map Prod.fst) := by
  have hentries := s.entries_initialWaiting hs
  have hkeys : s.initialWaiting.keys = s.tables.keys := by
    rw [Assoc.keys, hentries, List.map_map]
    exact List.map_id' _
  refine ⟨fun name => ?_, fun name hname => ?_, ?_, ?_, ?_⟩
  · split
    · rw [Assoc.get?_eq_some_iff, hentries]
      exact List.mem_map.2 ⟨name, ‹_›, rfl⟩
    · rwa [Assoc.get?_eq_none_iff, hkeys]
  · rw [hentries] at hname
    simpa using hname
  · exact s.initialWaiting.distinct.sublist (List.filter_sublist.map _)
  · intro name hname hzero
    rw [hentries]
    simpa using ⟨hname, hzero⟩
  · exact .nil

theorem nodup_settledKeys : s.settledKeys.Nodup ∧ ∀ name ∈ s.settledKeys, name ∈ s.tables.keys := by
  have h := (s.settling_initialWaiting hs).settle hs s.tables.size
  rwa [List.nil_append] at h

/-! ## Sorted tables -/

omit hs in
/-- What is left over is appended in order. -/
theorem foldl_append_missing (tables done : List Table) (h : (tables.map Table.name).Nodup) :
    tables.foldl (fun sorted t => if sorted.any (·.name == t.name) then sorted else sorted ++ [t])
        done =
      done ++ tables.filter fun t => !done.any (·.name == t.name) := by
  induction tables generalizing done with
  | nil => simp
  | cons t rest ih =>
    obtain ⟨ht, hrest⟩ := List.nodup_cons.1 h
    rw [List.foldl_cons, ih _ hrest]
    by_cases hdone : done.any (·.name == t.name) = true
    · simp [hdone]
    · have hsame : (rest.filter fun other => !(done ++ [t]).any (·.name == other.name)) =
          rest.filter fun other => !done.any (·.name == other.name) := by
        apply List.filter_congr
        intro other hother
        have hne : t.name ≠ other.name := fun e => ht (List.mem_map.2 ⟨other, hother, e.symm⟩)
        simp [hne]
      rw [if_neg hdone, hsame, List.filter_cons_of_pos (by simpa using hdone), List.append_assoc,
        List.singleton_append]

/-- Among tables with distinct names, sorting neither loses one nor repeats one. -/
theorem sortedTables_perm_of_nodup : s.sortedTables.Perm s.tables.values := by
  have hvalues : s.tables.values.Nodup := .of_map _ hs
  unfold sortedTables
  generalize hsettled : s.settledKeys.filterMap s.tables.get? = settled
  have hnodup : settled.Nodup := by
    rw [← hsettled]
    apply (s.nodup_settledKeys hs).1.filterMap
    intro key other t hkey hother
    exact congrArg Prod.fst (List.inj_on_of_nodup_map hvalues (Assoc.get?_eq_some_iff.1 hkey)
      (Assoc.get?_eq_some_iff.1 hother) rfl)
  have hmem : ∀ t ∈ settled, t ∈ s.tables.values := by
    intro t ht
    obtain ⟨name, _, hget⟩ := List.mem_filterMap.1 (hsettled ▸ ht)
    exact Assoc.mem_values_of_get? hget
  dsimp only
  split
  · rename_i hlength
    refine (List.subperm_of_subset hnodup hmem).perm_of_length_le ?_
    simp [hlength, Assoc.values, Assoc.size]
  · rw [foldl_append_missing _ _ hs]
    refine (List.perm_ext_iff_of_nodup ?_ hvalues).2 fun t => ?_
    · refine List.nodup_append.2 ⟨hnodup, hvalues.filter _, ?_⟩
      rintro t ht _ hleft rfl
      have hnone := (List.mem_filter.1 hleft).2
      rw [Bool.not_eq_true', List.any_eq_false] at hnone
      exact hnone t ht (by simp)
    · rw [List.mem_append, List.mem_filter]
      constructor
      · rintro (ht | ht)
        · exact hmem t ht
        · exact ht.1
      · intro ht
        by_cases hany : settled.any (·.name == t.name) = true
        · obtain ⟨other, hother, hname⟩ := List.any_eq_true.1 hany
          obtain rfl := List.inj_on_of_nodup_map hs (hmem other hother) ht (beq_iff_eq.1 hname)
          exact .inl hother
        · exact .inr ⟨ht, by simpa using hany⟩

end Distinct

section Named

variable {s : Schema} (hs : s.tables.IsNamed Table.name)

include hs

/-- Sorting neither loses a table nor repeats one. -/
theorem sortedTables_perm : s.sortedTables.Perm s.tables.values :=
  s.sortedTables_perm_of_nodup hs.nodup

theorem needs_eq (name : String) : s.needs name = ((s.table? name).map s.dependencies).getD [] := by
  rw [needs, hs.find?_eq]
  rfl

theorem map_name_settled :
    (s.settledKeys.filterMap s.tables.get?).map Table.name = s.settledKeys := by
  have hkeys := (s.nodup_settledKeys hs.nodup).2
  generalize s.settledKeys = names at hkeys
  induction names with
  | nil => rfl
  | cons name rest ih =>
    obtain ⟨t, ht⟩ : ∃ t, s.tables.get? name = some t := by
      rw [← Option.isSome_iff_exists, ← Assoc.contains_eq_isSome, Assoc.contains_iff]
      exact hkeys name (.head rest)
    rw [List.filterMap_cons, ht, List.map_cons, hs name t ht,
      ih fun other hother => hkeys other (.tail name hother)]

end Named

end Schema

end EntitySql
