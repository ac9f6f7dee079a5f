import Mathlib.Data.Fintype.EquivFin
import Mathlib.Order.WellFounded
import EntitySql.Proofs.Schema.Order
/-!
# Sorted tables stand behind what they refer to

Each table stands behind all the tables that it refers to exactly if no chain of foreign keys leads back
to where it started, keys of a table to itself aside (`Schema.isOrdered_sortedTables_iff`). What is settled
always stands in order, and everything is settled that does not lie on a cycle or behind one.
-/

namespace EntitySql.Schema

/-- Whether a foreign key of the one table refers to the other one. -/
def References (s : Schema) (name other : String) : Prop :=
  name ≠ other ∧
    ∃ r ∈ s.relationships.values, r.referencing.table = name ∧ r.referenced.table = other

/-- Whether no chain of foreign keys leads back to where it started. Keys of a table to itself do not
count. -/
def IsAcyclic (s : Schema) : Prop := ∀ name, ¬Relation.TransGen s.References name name

/-- Relationships join tables that exist, and each table lists those that it declares. -/
structure IsLinked (s : Schema) : Prop where
  joined : ∀ r ∈ s.relationships.values,
    r.referencing.table ∈ s.tables.keys ∧ r.referenced.table ∈ s.tables.keys
  outgoing : ∀ t ∈ s.tables.values, ∀ r ∈ s.relationships.values,
    r.name ∈ t.outgoing ↔ r.referencing.table = t.name

instance (s : Schema) : Decidable s.IsLinked :=
  decidable_of_iff
    ((∀ r ∈ s.relationships.values,
        r.referencing.table ∈ s.tables.keys ∧ r.referenced.table ∈ s.tables.keys) ∧
      ∀ t ∈ s.tables.values, ∀ r ∈ s.relationships.values,
        r.name ∈ t.outgoing ↔ r.referencing.table = t.name)
    ⟨fun ⟨joined, outgoing⟩ => { joined, outgoing }, fun h => ⟨h.joined, h.outgoing⟩⟩

/-- Whether each of the tables stands behind all that it refers to. -/
def IsOrdered (s : Schema) (tables : List Table) : Prop :=
  EachAfter
    (fun before t => ∀ r ∈ s.relationships.values, r.referencing.table = t.name →
      r.referenced.table ∈ (before ++ [t]).map (·.name)) tables

instance (s : Schema) (tables : List Table) : Decidable (s.IsOrdered tables) :=
  inferInstanceAs (Decidable (EachAfter _ tables))

theorem isOrdered_iff {s : Schema} {tables : List Table} :
    s.IsOrdered tables ↔
      EachAfter (fun before t => ∀ other, s.References t.name other →
        other ∈ before.map (·.name)) tables := by
  constructor
  · intro h
    refine h.mono fun before t after _ hordered other => ?_
    rintro ⟨hne, r, hr, hreferencing, rfl⟩
    have hmem := hordered r hr hreferencing
    rw [List.map_append, List.mem_append] at hmem
    exact hmem.resolve_right fun h => hne (List.mem_singleton.1 h).symm
  · intro h
    refine h.mono fun before t after _ hordered r hr hreferencing => ?_
    rw [List.map_append, List.mem_append]
    by_cases hself : r.referenced.table = t.name
    · exact .inr (List.mem_singleton.2 hself)
    · exact .inl (hordered _ ⟨Ne.symm hself, r, hr, hreferencing, rfl⟩)

section Linked

variable {s : Schema} (htables : s.tables.IsNamed Table.name)
  (hkeys : s.relationships.IsNamed Relationship.name) (hlinked : s.IsLinked)

include htables hkeys hlinked

omit htables in
theorem mem_outgoing_iff {t : Table} (ht : t ∈ s.tables.values) {r : Relationship} :
    r ∈ s.outgoing t ↔ r ∈ s.relationships.values ∧ r.referencing.table = t.name := by
  simp only [Schema.outgoing, List.mem_filterMap]
  constructor
  · rintro ⟨name, hname, hget⟩
    have hr := Assoc.mem_values_of_get? hget
    refine ⟨hr, (hlinked.outgoing t ht r hr).1 ?_⟩
    rwa [hkeys name r hget]
  · rintro ⟨hr, howner⟩
    exact ⟨r.name, (hlinked.outgoing t ht r hr).2 howner, hkeys.get?_of_mem hr⟩

/-- A table needs the tables that it refers to. -/
theorem mem_needs_iff {name other : String} : other ∈ s.needs name ↔ s.References name other := by
  have houtgoing := fun {t} (ht : t ∈ s.tables.values) {r} =>
    mem_outgoing_iff hkeys hlinked ht (r := r)
  rw [s.needs_eq htables]
  constructor
  · intro h
    obtain ⟨t, ht⟩ : ∃ t, s.table? name = some t := by
      refine Option.ne_none_iff_exists'.1 fun hnone => ?_
      simp [hnone] at h
    have hname := htables name t ht
    simp only [ht, Option.map_some, Option.getD_some, dependencies, List.mem_eraseDups,
      List.mem_filter, List.mem_map, houtgoing (Assoc.mem_values_of_get? ht), hname,
      Bool.and_eq_true, bne_iff_ne] at h
    obtain ⟨⟨r, ⟨hr, howner⟩, hother⟩, hne, _⟩ := h
    exact ⟨Ne.symm hne, r, hr, howner, hother⟩
  · rintro ⟨hne, r, hr, howner, hother⟩
    obtain ⟨t, ht⟩ := Assoc.mem_keys_iff.1 (howner ▸ (hlinked.joined r hr).1)
    have hname := htables name t ht
    simp only [table?, ht, Option.map_some, Option.getD_some, dependencies, List.mem_eraseDups,
      List.mem_filter, List.mem_map, houtgoing (Assoc.mem_values_of_get? ht), hname,
      Bool.and_eq_true, bne_iff_ne, Assoc.contains_iff]
    exact ⟨⟨r, ⟨hr, howner⟩, hother⟩, Ne.symm hne, hother ▸ (hlinked.joined r hr).2⟩

omit hkeys hlinked in
/-- With fuel for every table settling goes on in order and leaves out nothing that could be settled. -/
theorem Settling.settle_complete {done : List String} {waiting : Waiting} {queue : List String}
    (h : s.Settling done waiting queue) {fuel : Nat} (hfuel : done.length + fuel = s.tables.size) :
    EachAfter (fun before name => ∀ needed ∈ s.needs name, needed ∈ before)
        (done ++ s.settle fuel waiting queue) ∧
      ∀ name ∈ s.tables.keys, (∀ needed ∈ s.needs name, needed ∈ done ++ s.settle fuel waiting queue) →
        name ∈ done ++ s.settle fuel waiting queue := by
  induction fuel generalizing done waiting queue with
  | zero =>
    have hdone : s.tables.keys.Subperm done := by
      refine List.Nodup.subperm s.tables.distinct fun name hname => ?_
      have hsub : done.Subperm s.tables.keys :=
        (List.nodup_append.1 h.nodup).1.subperm fun name hname =>
          (h.ready name (List.mem_append_left _ hname)).1
      refine (hsub.perm_of_length_le ?_).mem_iff.2 hname
      rw [Assoc.keys, List.length_map]
      exact hfuel.ge
    rw [Schema.settle, List.append_nil]
    exact ⟨h.ordered, fun name hname _ => hdone.subset hname⟩
  | succ fuel ih =>
    cases queue with
    | nil =>
      rw [Schema.settle, List.append_nil]
      refine ⟨h.ordered, fun name hname hneeds => ?_⟩
      simpa using h.complete name hname (missing_eq_zero_iff.2 hneeds)
    | cons name queue =>
      obtain ⟨waiting', ready, hfold, hstep⟩ := h.step htables.nodup
      have hrest := ih hstep (by simp; omega)
      rw [Schema.settle, hfold]
      simpa using hrest

omit hkeys hlinked in
theorem settledKeys_complete :
    EachAfter (fun before name => ∀ needed ∈ s.needs name, needed ∈ before) s.settledKeys ∧
      ∀ name ∈ s.tables.keys, (∀ needed ∈ s.needs name, needed ∈ s.settledKeys) →
        name ∈ s.settledKeys :=
  (s.settling_initialWaiting htables.nodup).settle_complete htables (Nat.zero_add _)

omit htables hkeys in
/-- Without cycles the tables can be gone through from those that refer to nothing. -/
theorem IsAcyclic.induction (h : s.IsAcyclic) {P : String → Prop}
    (hP : ∀ name ∈ s.tables.keys, (∀ other, s.References name other → P other) → P name) :
    ∀ name ∈ s.tables.keys, P name := by
  let Reached (other name : { name // name ∈ s.tables.keys }) : Prop :=
    Relation.TransGen s.References name other
  have : IsTrans _ Reached := ⟨fun _ _ _ hab hbc => hbc.trans hab⟩
  have : Std.Irrefl Reached := ⟨fun name => h name⟩
  intro name hname
  have hwf : WellFounded Reached := Finite.wellFounded_of_trans_of_irrefl Reached
  refine hwf.induction (C := fun name => P name) ⟨name, hname⟩ fun name ih => ?_
  refine hP name name.2 fun other hother => ?_
  obtain ⟨r, hr, _, hreferenced⟩ := hother.2
  exact ih ⟨other, hreferenced ▸ (hlinked.joined r hr).2⟩ (.single hother)

/-- Without cycles everything is settled. -/
theorem mem_settledKeys_of_acyclic (h : s.IsAcyclic) :
    ∀ name ∈ s.tables.keys, name ∈ s.settledKeys := by
  refine h.induction hlinked fun name hname hothers => ?_
  refine (settledKeys_complete htables).2 name hname fun needed hneeded => ?_
  exact hothers needed ((mem_needs_iff htables hkeys hlinked).1 hneeded)

theorem isOrdered_sortedTables_of_acyclic (h : s.IsAcyclic) : s.IsOrdered s.sortedTables := by
  have hnames := s.map_name_settled htables
  have hlength : (s.settledKeys.filterMap s.tables.get?).length = s.tables.size := by
    have hperm : s.settledKeys.Perm s.tables.keys :=
      (List.perm_ext_iff_of_nodup (s.nodup_settledKeys htables.nodup).1 s.tables.distinct).2 fun name =>
        ⟨(s.nodup_settledKeys htables.nodup).2 name, mem_settledKeys_of_acyclic htables hkeys hlinked h name⟩
    rw [← List.length_map Table.name, hnames, hperm.length_eq, Assoc.keys, List.length_map,
      Assoc.size]
  rw [isOrdered_iff, sortedTables, if_pos hlength]
  have hordered := (settledKeys_complete htables).1
  rw [← hnames, EachAfter.map_iff] at hordered
  exact hordered.mono fun before t after _ hneeds other hother =>
    hneeds other ((mem_needs_iff htables hkeys hlinked).2 hother)

omit hkeys in
/-- Along an order each reference leads to the front, and so does each chain of references. -/
theorem acyclic_of_isOrdered_sortedTables (h : s.IsOrdered s.sortedTables) : s.IsAcyclic := by
  let names := s.sortedTables.map (·.name)
  have hperm : names.Perm s.tables.keys := by
    rw [htables.keys_eq]
    exact (s.sortedTables_perm htables).map _
  have hnodup : names.Nodup := hperm.nodup_iff.2 s.tables.distinct
  have hstep : ∀ name other, s.References name other → names.idxOf other < names.idxOf name := by
    intro name other hreferences
    obtain ⟨_, r, hr, rfl, _⟩ := id hreferences
    obtain ⟨t, ht, hname⟩ := List.mem_map.1 (hperm.mem_iff.2 (hlinked.joined r hr).1)
    obtain ⟨before, after, hsplit⟩ := List.append_of_mem ht
    have hmem := isOrdered_iff.1 h before t after hsplit other (hname.symm ▸ hreferences)
    have hnames : names = before.map (·.name) ++ t.name :: after.map (·.name) := by
      simp only [names, hsplit, List.map_append, List.map_cons]
    have hfirst : t.name ∉ before.map (·.name) := fun hbefore =>
      (List.nodup_append.1 (hnames ▸ hnodup)).2.2 _ hbefore _ (.head _) rfl
    rw [hnames, ← hname, List.idxOf_append_of_mem hmem, List.idxOf_append_of_notMem hfirst]
    exact Nat.lt_add_right _ (List.idxOf_lt_length_of_mem hmem)
  have hchain : ∀ name other, Relation.TransGen s.References name other →
      names.idxOf other < names.idxOf name := by
    intro name other hchain
    induction hchain with
    | single hreferences => exact hstep _ _ hreferences
    | tail _ hreferences ih => exact (hstep _ _ hreferences).trans ih
  exact fun name hcycle => lt_irrefl _ (hchain name name hcycle)

/-- The sorted tables stand in order exactly if there is an order to stand in. -/
theorem isOrdered_sortedTables_iff : s.IsOrdered s.sortedTables ↔ s.IsAcyclic :=
  ⟨acyclic_of_isOrdered_sortedTables htables hlinked,
    isOrdered_sortedTables_of_acyclic htables hkeys hlinked⟩

end Linked

end EntitySql.Schema
