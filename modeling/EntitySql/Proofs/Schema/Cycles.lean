import EntitySql.Proofs.Schema.DependencyOrder
/-!
# Tables before cycles and tables behind them

Sorting splits the tables up into those from which no cycle of foreign keys can be reached, each of them behind all
that it refers to, and the others in order of declaration (`Schema.isSplit_sortedTables`). A chain of foreign keys
from a settled table leads to tables that are settled before it, and so to no cycle; and what reaches no cycle can be
gone through from the tables that refer to nothing. Relationships may name tables that are missing: they stand for no
dependency at all.

Counts are taken down without a look at what is left of them. That none is taken down below zero, and that the queue
runs empty, is said of a run that fails otherwise (`Schema.settledKeys?`).
-/

namespace EntitySql.Schema

/-! ## Dependencies -/

/-- Whether each table lists the relationships that it declares, and none that another table declares. -/
def ListsOwn (s : Schema) : Prop :=
  ∀ t ∈ s.tables.values, ∀ entry ∈ s.relationships.entries,
    entry.1 ∈ t.outgoing ↔ entry.2.referencing.table = t.name

instance (s : Schema) : Decidable s.ListsOwn := inferInstanceAs (Decidable (∀ _ ∈ _, ∀ _ ∈ _, _))

/-- Whether a foreign key of the one table refers to the other one, and both of them exist. -/
def DependsOn (s : Schema) (name other : String) : Prop :=
  name ∈ s.tables.keys ∧ other ∈ s.tables.keys ∧ s.References name other

/-- Whether foreign keys lead from the table to one from which they lead back to it. -/
def ReachesCycle (s : Schema) (name : String) : Prop :=
  ∃ other, Relation.ReflTransGen s.DependsOn name other ∧ Relation.TransGen s.DependsOn other other

section Listed

variable {s : Schema} (htables : s.tables.IsNamed Table.name) (hlists : s.ListsOwn)

include hlists

theorem mem_outgoing_iff_of_listsOwn {t : Table} (ht : t ∈ s.tables.values) {r : Relationship} :
    r ∈ s.outgoing t ↔ r ∈ s.relationships.values ∧ r.referencing.table = t.name := by
  rw [Schema.outgoing, List.mem_filterMap, Assoc.mem_values_iff]
  constructor
  · rintro ⟨key, hkey, hr⟩
    exact ⟨⟨key, hr⟩, (hlists t ht _ (Assoc.get?_eq_some_iff.1 hr)).1 hkey⟩
  · rintro ⟨⟨key, hr⟩, howner⟩
    exact ⟨key, (hlists t ht _ (Assoc.get?_eq_some_iff.1 hr)).2 howner, hr⟩

include htables

/-- A table waits for the tables that it depends on. -/
theorem mem_needs_iff_dependsOn {name other : String} : other ∈ s.needs name ↔ s.DependsOn name other := by
  rw [s.needs_eq htables]
  cases ht : s.table? name with
  | none =>
    have hnone : name ∉ s.tables.keys := Assoc.get?_eq_none_iff.1 ht
    exact iff_of_false List.not_mem_nil fun h => hnone h.1
  | some t =>
    have hvalues : t ∈ s.tables.values := Assoc.mem_values_of_get? ht
    have hname : t.name = name := htables name t ht
    have hkey : name ∈ s.tables.keys := Assoc.mem_keys_iff.2 ⟨t, ht⟩
    simp only [Option.map_some, Option.getD_some, dependencies, List.mem_eraseDups, List.mem_filter, List.mem_map,
      mem_outgoing_iff_of_listsOwn hlists hvalues, hname, Bool.and_eq_true, bne_iff_ne, Assoc.contains_iff, DependsOn,
      References, hkey, true_and]
    constructor
    · rintro ⟨⟨r, ⟨hr, howner⟩, hother⟩, hne, hknown⟩
      exact ⟨hknown, Ne.symm hne, r, hr, howner, hother⟩
    · rintro ⟨hknown, hne, r, hr, howner, hother⟩
      exact ⟨⟨r, ⟨hr, howner⟩, hother⟩, Ne.symm hne, hknown⟩

/-! ## What is settled -/

/-- What a settled table depends on is settled before it. -/
theorem idxOf_lt_of_dependsOn {name other : String} (hname : name ∈ s.settledKeys) (h : s.DependsOn name other) :
    other ∈ s.settledKeys ∧ s.settledKeys.idxOf other < s.settledKeys.idxOf name := by
  obtain ⟨before, after, hsplit⟩ := List.append_of_mem hname
  have hbefore : other ∈ before :=
    (settledKeys_complete htables).1 before name after hsplit other
      ((mem_needs_iff_dependsOn htables hlists).2 h)
  have hnew : name ∉ before := fun hmem =>
    (List.nodup_append.1 (hsplit ▸ (s.nodup_settledKeys htables.nodup).1)).2.2 name hmem name (.head after) rfl
  rw [hsplit]
  refine ⟨List.mem_append_left _ hbefore, ?_⟩
  rw [List.idxOf_append_of_mem hbefore, List.idxOf_append_of_notMem hnew]
  exact Nat.lt_add_right _ (List.idxOf_lt_length_of_mem hbefore)

theorem not_reachesCycle_of_mem_settledKeys {name : String} (hname : name ∈ s.settledKeys) :
    ¬s.ReachesCycle name := by
  have hchain : ∀ {first last : String}, first ∈ s.settledKeys → Relation.TransGen s.DependsOn first last →
      last ∈ s.settledKeys ∧ s.settledKeys.idxOf last < s.settledKeys.idxOf first := by
    intro first last hfirst h
    induction h with
    | single hstep => exact idxOf_lt_of_dependsOn htables hlists hfirst hstep
    | tail _ hstep ih =>
      obtain ⟨hlast, hlt⟩ := idxOf_lt_of_dependsOn htables hlists ih.1 hstep
      exact ⟨hlast, hlt.trans ih.2⟩
  rintro ⟨other, hreaches, hcycle⟩
  have hother : other ∈ s.settledKeys := by
    rcases Relation.reflTransGen_iff_eq_or_transGen.1 hreaches with rfl | hreaches
    · exact hname
    · exact (hchain hname hreaches).1
  exact lt_irrefl _ (hchain hother hcycle).2

omit htables hlists in
/-- What reaches no cycle can be gone through from the tables that depend on nothing. -/
theorem induction_of_not_reachesCycle {P : String → Prop}
    (hP : ∀ name ∈ s.tables.keys, (∀ other, s.DependsOn name other → P other) → P name) :
    ∀ name ∈ s.tables.keys, ¬s.ReachesCycle name → P name := by
  let Node : Type := { node : { name // name ∈ s.tables.keys } // ¬s.ReachesCycle node }
  let Reached (other name : Node) : Prop := Relation.TransGen s.DependsOn name.1 other.1
  have : IsTrans Node Reached := ⟨fun _ _ _ hab hbc => hbc.trans hab⟩
  have : Std.Irrefl Reached := ⟨fun name hcycle => name.2 ⟨_, .refl, hcycle⟩⟩
  have hwf : WellFounded Reached := Finite.wellFounded_of_trans_of_irrefl Reached
  intro name hname hfree
  refine hwf.induction (C := fun node => P node.1) ⟨⟨name, hname⟩, hfree⟩ fun node ih => ?_
  refine hP node.1 node.1.2 fun other hother => ?_
  have hfree : ¬s.ReachesCycle other := fun ⟨last, hreaches, hcycle⟩ =>
    node.2 ⟨last, .head hother hreaches, hcycle⟩
  exact ih ⟨⟨other, hother.2.1⟩, hfree⟩ (.single hother)

/-- The tables that are settled are those from which no cycle can be reached. -/
theorem mem_settledKeys_iff {name : String} (hname : name ∈ s.tables.keys) :
    name ∈ s.settledKeys ↔ ¬s.ReachesCycle name := by
  refine ⟨not_reachesCycle_of_mem_settledKeys htables hlists, ?_⟩
  refine induction_of_not_reachesCycle (fun name hname hothers => ?_) name hname
  refine (settledKeys_complete htables).2 name hname fun needed hneeded => ?_
  exact hothers needed ((mem_needs_iff_dependsOn htables hlists).1 hneeded)

end Listed

/-! ## Counts that are taken down -/

/-- One table less to wait for, which fails where there is none to wait for. -/
def release? (state : Waiting × List String) (name : String) : Option (Waiting × List String) :=
  if state.1.get? name = some 0 then none else some (release state name)

/-- Settles the queued names in order, which fails if a count is to be taken down below zero or if names are left when
the fuel is used up. -/
def settle? (s : Schema) : Nat → Waiting → List String → Option (List String)
  | _, _, [] => some []
  | 0, _, _ :: _ => none
  | fuel + 1, waiting, name :: queue => do
    let (waiting, ready) ← (s.dependents name).foldlM release? (waiting, [])
    let rest ← settle? s fuel waiting (queue ++ ready)
    return name :: rest

/-- The keys of the tables that lie on no cycle and behind none, referenced ones first, where counts are taken down
above zero only. -/
def settledKeys? (s : Schema) : Option (List String) :=
  s.settle? s.tables.size s.initialWaiting
    ((s.initialWaiting.entries.filter fun entry => entry.2 == 0).map Prod.fst)

/-- Names that wait for a table each can all be released. -/
theorem foldlM_release? {names : List String} (hnames : names.Nodup) {waiting : Waiting} {ready : List String}
    (hwaits : ∀ name ∈ names, waiting.get? name ≠ some 0) :
    names.foldlM release? (waiting, ready) = some (names.foldl release (waiting, ready)) := by
  induction names generalizing waiting ready with
  | nil => rfl
  | cons first rest ih =>
    obtain ⟨hfirst, hrest⟩ := List.nodup_cons.1 hnames
    obtain ⟨hpositive, hwaits⟩ := List.forall_mem_cons.1 hwaits
    obtain ⟨released, hrelease, hreleased⟩ := release_eq waiting ready first
    have hkept : ∀ name ∈ rest, released.get? name ≠ some 0 := fun name hname => by
      have hne : name ≠ first := fun h => hfirst (h ▸ hname)
      rw [hreleased, if_neg hne]
      exact hwaits name hname
    have hstep : release? (waiting, ready) first = some (release (waiting, ready) first) := if_neg hpositive
    rw [List.foldlM_cons, hstep, List.foldl_cons, hrelease]
    exact ih hrest hkept

section Named

variable {s : Schema} (htables : s.tables.IsNamed Table.name)

include htables

/-- With fuel for every table names are settled until none is queued, and each count is taken down above zero. -/
theorem Settling.settle?_eq {done : List String} {waiting : Waiting} {queue : List String}
    (h : s.Settling done waiting queue) {fuel : Nat} (hfuel : done.length + fuel = s.tables.size) :
    s.settle? fuel waiting queue = some (s.settle fuel waiting queue) := by
  induction fuel generalizing done waiting queue with
  | zero =>
    cases queue with
    | nil => rfl
    | cons name queue =>
      -- All tables are done, and one more could not be queued.
      have hsub : (done ++ name :: queue).Subperm s.tables.keys :=
        h.nodup.subperm fun other hother => (h.ready other hother).1
      have hlength := hsub.length_le
      rw [Assoc.keys, List.length_map, List.length_append, List.length_cons] at hlength
      exact absurd hfuel (by rw [Assoc.size]; omega)
  | succ fuel ih =>
    cases queue with
    | nil => rfl
    | cons name queue =>
      have hnew : name ∉ done := fun hmem =>
        (List.nodup_append.1 h.nodup).2.2 name hmem name (.head queue) rfl
      have hwaits : ∀ other ∈ s.dependents name, waiting.get? other ≠ some 0 := by
        intro other hother hzero
        rw [h.counts] at hzero
        split at hzero
        · exact hnew (missing_eq_zero_iff.1 (Option.some.inj hzero) name
            ((mem_dependents_iff htables.nodup).1 hother))
        · cases hzero
      obtain ⟨waiting', ready, hfold, hstep⟩ := h.step htables.nodup
      have hchecked : (s.dependents name).foldlM release? (waiting, []) =
          some ((s.dependents name).foldl release (waiting, [])) :=
        foldlM_release? (s.nodup_dependents htables.nodup name) hwaits
      have hrest := ih hstep (by rw [List.length_append, List.length_singleton]; omega)
      rw [hfold] at hchecked
      rw [settle?, Schema.settle, hchecked, hfold]
      exact congrArg (fun rest : Option (List String) => rest.bind fun rest => some (name :: rest)) hrest

theorem settledKeys?_eq : s.settledKeys? = some s.settledKeys :=
  (s.settling_initialWaiting htables.nodup).settle?_eq htables (Nat.zero_add _)

end Named

/-! ## Sorted tables -/

/-- Whether tables are split up into those from which no cycle can be reached, each behind all that it refers to, and
the others in order of declaration. -/
structure IsSplit (s : Schema) (settled rest : List Table) : Prop where
  mem_settled_iff : ∀ t, t ∈ settled ↔ t ∈ s.tables.values ∧ ¬s.ReachesCycle t.name
  ordered : EachAfter (fun before t => ∀ other, s.DependsOn t.name other → other ∈ before.map (·.name)) settled
  mem_rest_iff : ∀ t, t ∈ rest ↔ t ∈ s.tables.values ∧ s.ReachesCycle t.name
  declared : rest.Sublist s.tables.values

section Sorted

variable {s : Schema} (htables : s.tables.IsNamed Table.name)

include htables

theorem mem_settled_iff {t : Table} :
    t ∈ s.settledKeys.filterMap s.tables.get? ↔ t ∈ s.tables.values ∧ t.name ∈ s.settledKeys := by
  rw [List.mem_filterMap]
  constructor
  · rintro ⟨key, hkey, ht⟩
    exact ⟨Assoc.mem_values_of_get? ht, (htables key t ht).symm ▸ hkey⟩
  · rintro ⟨ht, hkey⟩
    exact ⟨t.name, hkey, htables.get?_of_mem ht⟩

/-- Behind the settled tables all others follow. -/
theorem sortedTables_eq_append :
    s.sortedTables = s.settledKeys.filterMap s.tables.get? ++
      s.tables.values.filter fun t => !s.settledKeys.contains t.name := by
  have hnames := s.map_name_settled htables
  have hperm := s.sortedTables_perm htables
  have hany : ∀ t : Table, (s.settledKeys.filterMap s.tables.get?).any (·.name == t.name) =
      s.settledKeys.contains t.name := fun t => by
    conv_rhs => rw [← hnames]
    rw [Bool.eq_iff_iff, List.any_eq_true, List.contains_iff_mem, List.mem_map]
    simp only [beq_iff_eq]
  unfold sortedTables at hperm ⊢
  dsimp only at hperm ⊢
  split
  · rename_i hlength
    rw [if_pos hlength] at hperm
    -- Nothing is left over where as many tables are settled as there are.
    have hnone : (s.tables.values.filter fun t => !s.settledKeys.contains t.name) = [] := by
      refine List.filter_eq_nil_iff.2 fun t ht => ?_
      have hsettled := ((mem_settled_iff htables).1 (hperm.mem_iff.2 ht)).2
      simpa using hsettled
    rw [hnone, List.append_nil]
  · rw [foldl_append_missing _ _ htables.nodup]
    simp only [hany]

/-- Sorting loses no table and repeats none. In front stand the tables from which no cycle can be reached, each behind
all that it refers to, and the others follow in order of declaration. No count is taken down below zero on the way. -/
theorem isSplit_sortedTables (hlists : s.ListsOwn) :
    s.sortedTables.Perm s.tables.values ∧ s.settledKeys? = some s.settledKeys ∧
      ∃ settled rest, s.sortedTables = settled ++ rest ∧ settled.map (·.name) = s.settledKeys ∧
        s.IsSplit settled rest := by
  have hnames := s.map_name_settled htables
  have hfree : ∀ {t : Table}, t ∈ s.tables.values → (t.name ∈ s.settledKeys ↔ ¬s.ReachesCycle t.name) :=
    fun ht => mem_settledKeys_iff htables hlists (htables.keys_eq ▸ List.mem_map_of_mem ht)
  refine ⟨s.sortedTables_perm htables, settledKeys?_eq htables, _, _, sortedTables_eq_append htables, hnames, ?_⟩
  refine ⟨fun t => ?_, ?_, fun t => ?_, List.filter_sublist⟩
  · rw [mem_settled_iff htables]
    exact and_congr_right hfree
  · have hordered := (settledKeys_complete htables).1
    rw [← hnames, EachAfter.map_iff] at hordered
    exact hordered.mono fun before t _ _ hneeds other hother =>
      hneeds other ((mem_needs_iff_dependsOn htables hlists).2 hother)
  · rw [List.mem_filter]
    refine and_congr_right fun ht => ?_
    rw [Bool.not_eq_true', List.contains_eq_mem, decide_eq_false_iff_not, hfree ht, not_not]

end Sorted

/-- Two tables refer to each other and a third one to them; the others refer to one table twice, to themselves and to a
table that is missing. -/
theorem isSplit_sortedTables_orders :
    let refer (key table other : String) : Relationship :=
      { name := key, referencing := ⟨table, [other ++ "Id"]⟩, referenced := ⟨other, ["id"]⟩ }
    let s : Schema :=
      { tables := Assoc.ofPairs [("line", { name := "line", outgoing := ["l"] }),
          ("order", { name := "order", outgoing := ["o"] }),
          ("parcel", { name := "parcel", outgoing := ["p", "q", "r", "s"] }),
          ("item", { name := "item", outgoing := ["i"] }), ("report", { name := "report", outgoing := ["t"] })]
        relationships := Assoc.ofPairs [("l", refer "l" "line" "order"), ("o", refer "o" "order" "line"),
          ("p", refer "p" "parcel" "item"), ("q", refer "q" "parcel" "item"), ("r", refer "r" "parcel" "parcel"),
          ("s", refer "s" "parcel" "depot"), ("i", refer "i" "item" "item"), ("t", refer "t" "report" "order")] }
    s.tables.IsNamed Table.name ∧ s.ListsOwn ∧
      s.sortedTables.map (·.name) = ["item", "parcel", "line", "order", "report"] ∧
      s.settledKeys? = some ["item", "parcel"] ∧
      ∃ settled rest, s.sortedTables = settled ++ rest ∧ settled.map (·.name) = ["item", "parcel"] ∧
        s.IsSplit settled rest := by
  intro refer s
  have htables : s.tables.IsNamed Table.name := by decide +kernel
  have hlists : s.ListsOwn := by decide +kernel
  have hsettled : s.settledKeys = ["item", "parcel"] := by decide +kernel
  have h := isSplit_sortedTables htables hlists
  rw [hsettled] at h
  exact ⟨htables, hlists, by decide +kernel, h.2⟩

end EntitySql.Schema
