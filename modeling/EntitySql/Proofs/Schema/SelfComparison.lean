import EntitySql.Proofs.Ensures
import EntitySql.Proofs.Schema.Difference
import EntitySql.Proofs.Schema.Editing
import EntitySql.Schema.FromEntities
/-!
# Comparing a schema with itself

A schema does not differ from itself exactly if names find what they belong to
(`Schema.diff_self_iff`). Tables, columns and relationships stand under their own names however a schema
is put together, but nothing keeps a table from having two indexes of one name, and where the case of
letters is ignored nothing keeps any two names apart.
-/

namespace EntitySql

/-! ## Schemas that can be put together -/

/-- The tables that columns and indexes are added to. -/
inductive Table.Assembled : Table → Prop
  | empty (name : String) (comment? : Option String) : Assembled { name, comment? }
  | addColumn {t : Table} (c : Column) : t.Assembled → (t.addColumn c).Assembled
  | addIndex {t : Table} (i : Index) : t.Assembled → (t.addIndex i).Assembled

theorem Table.Assembled.isNamed {t : Table} (h : t.Assembled) : t.columns.IsNamed Column.name := by
  induction h with
  | empty => exact .empty
  | addColumn _ _ ih => exact ih.insert rfl
  | addIndex _ _ ih => exact ih

/-- Whether two indexes are the same but for what a comparison does not read. -/
structure Index.Alike (i j : Index) : Prop where
  unique : i.unique = j.unique
  columns : i.columns = j.columns
  method : i.method = j.method

instance (i j : Index) : Decidable (i.Alike j) :=
  decidable_of_iff (i.unique = j.unique ∧ i.columns = j.columns ∧ i.method = j.method)
    ⟨fun ⟨unique, columns, method⟩ => { unique, columns, method },
      fun h => ⟨h.unique, h.columns, h.method⟩⟩

theorem Index.changes_eq_nil_iff {old new : Index} : changes id old new = [] ↔ old.Alike new := by
  simp only [changes, List.append_eq_nil_iff, changedFlag_eq_nil_iff, changedAttribute_eq_nil_iff,
    beq_iff_eq, List.map_id]
  constructor
  · rintro ⟨⟨hunique, hcolumns⟩, hmethod⟩
    exact ⟨hunique, hcolumns.symm, hmethod.symm⟩
  · exact fun h => ⟨⟨h.unique, h.columns.symm⟩, h.method.symm⟩

/-- Indexes agree with themselves if those of one name are alike. -/
theorem Index.agrees_self_iff {indexes : List Index} :
    (Index.rules id).Agrees id (fun _ => true) indexes indexes ↔
      ∀ i ∈ indexes, ∀ j ∈ indexes, i.name = j.name → i.Alike j := by
  have hfirst : ∀ i ∈ indexes, ∃ found, (Index.rules id).find? id indexes i.name = some found := by
    intro i hi
    rw [← Option.isSome_iff_exists, ItemRules.find?, List.find?_isSome]
    exact ⟨i, hi, by simp [Index.rules]⟩
  constructor
  · intro h i hi j hj hname
    obtain ⟨found, hget, hsame⟩ := h.unchanged i hi rfl
    obtain ⟨other, hget', hsame'⟩ := h.unchanged j hj rfl
    obtain rfl : found = other :=
      Option.some.inj (hget.symm.trans ((congrArg _ hname).trans hget'))
    have hi := Index.changes_eq_nil_iff.1 hsame
    have hj := Index.changes_eq_nil_iff.1 hsame'
    exact ⟨hi.unique.symm.trans hj.unique, hi.columns.symm.trans hj.columns,
      hi.method.symm.trans hj.method⟩
  · refine fun h => ⟨fun i hi _ => ?_, fun i hi _ => hfirst i hi⟩
    obtain ⟨found, hget⟩ := hfirst i hi
    obtain ⟨hmem, hname⟩ := ItemRules.mem_of_find? hget
    exact ⟨found, hget, Index.changes_eq_nil_iff.2 (h found hmem i hi hname)⟩

namespace Schema

/-- The schemas that tables, columns, indexes and relationships are added to. -/
inductive Assembled : Schema → Prop
  | empty : Assembled {}
  | addTable {s : Schema} {t : Table} : s.Assembled → t.Assembled → (s.addTable t).Assembled
  | addColumn {s : Schema} (table : String) (c : Column) :
    s.Assembled → Assembled { s with tables := s.tables.modify table (·.addColumn c) }
  | addIndex {s : Schema} (table : String) (i : Index) :
    s.Assembled → Assembled { s with tables := s.tables.modify table (·.addIndex i) }
  | addRelationship {s s' : Schema} {r : Relationship} :
    s.Assembled → s.addRelationship r = .ok s' → s'.Assembled

namespace IsNamed

variable {s : Schema} (hs : s.IsNamed)

include hs

theorem addTable {t : Table} (ht : t.columns.IsNamed Column.name) : (s.addTable t).IsNamed where
  tables := hs.tables.insert rfl
  columns := Assoc.forall_mem_values_insert hs.columns ht
  relationships := hs.relationships

theorem modifyTable (name : String) (f : Table → Table) (hname : ∀ t, (f t).name = t.name)
    (hcolumns : ∀ t, t.columns.IsNamed Column.name → (f t).columns.IsNamed Column.name) :
    IsNamed { s with tables := s.tables.modify name f } where
  tables := hs.tables.modify hname
  columns := Assoc.forall_mem_values_modify hs.columns hcolumns
  relationships := hs.relationships

theorem addForeignKey (r : Relationship) : (s.addForeignKey r).IsNamed where
  tables := by
    refine Assoc.IsNamed.modify (Assoc.IsNamed.modify hs.tables ?_) ?_
    all_goals exact fun _ => rfl
  columns := by
    refine Assoc.forall_mem_values_modify (Assoc.forall_mem_values_modify hs.columns ?_) ?_
    all_goals exact fun _ h => h
  relationships := hs.relationships.insert rfl

theorem addRelationship {s' : Schema} {r : Relationship} (h : s.addRelationship r = .ok s') :
    s'.IsNamed := (addRelationship_eq_ok_iff.1 h).2.2 ▸ hs.addForeignKey r

theorem cascade (name : String) : (s.cascade name).IsNamed where
  tables := hs.tables
  columns := hs.columns
  relationships := hs.relationships.modify fun _ => rfl

end IsNamed

theorem isNamed_empty : IsNamed {} where
  tables := .empty
  columns := nofun
  relationships := .empty

theorem Assembled.isNamed {s : Schema} (h : s.Assembled) : s.IsNamed := by
  induction h with
  | empty => exact isNamed_empty
  | addTable _ ht ih => exact ih.addTable ht.isNamed
  | addColumn table c _ ih =>
    exact ih.modifyTable table (·.addColumn c) (fun _ => rfl) fun _ ht => ht.insert rfl
  | addIndex table i _ ih =>
    exact ih.modifyTable table (·.addIndex i) (fun _ => rfl) fun _ ht => ht
  | addRelationship _ hadded ih => exact ih.addRelationship hadded

end Schema

theorem Table.Assembled.foldl_addColumn {t : Table} (h : t.Assembled) (columns : List Column) :
    (columns.foldl Table.addColumn t).Assembled := by
  induction columns generalizing t with
  | nil => exact h
  | cons c rest ih => exact ih (h.addColumn c)

theorem Table.Assembled.foldl_addIndex {t : Table} (h : t.Assembled) (indexes : List Index) :
    (indexes.foldl Table.addIndex t).Assembled := by
  induction indexes generalizing t with
  | nil => exact h
  | cons i rest ih => exact ih (h.addIndex i)

theorem Member.assembled_table (m : Member) (naming : Naming) : (m.table naming).Assembled :=
  ((Table.Assembled.empty _ _).foldl_addColumn _).foldl_addIndex _

namespace Schema

theorem Assembled.addMissing {s s' : Schema} (hs : s.Assembled) {keys : List Relationship}
    (h : s.addMissing keys = .ok s') : s'.Assembled := by
  refine of_foldlM_eq_ok (fun s r s' hs hstep => ?_) hs h
  split at hstep
  · cases hstep
    exact hs
  · exact hs.addRelationship hstep

theorem IsNamed.foldl_cascade {s : Schema} (hs : s.IsNamed) (names : List String) :
    (names.foldl Schema.cascade s).IsNamed := by
  induction names generalizing s with
  | nil => exact hs
  | cons name rest ih => exact ih (hs.cascade name)

/-- Only the actions of foreign keys are set after everything is added. -/
theorem isNamed_schemaBy {r : Registry} {naming : Naming} {s : Schema}
    (h : r.schemaBy naming = .ok s) : s.IsNamed := by
  obtain ⟨linked, hlinked, hcascaded⟩ := ok_of_bind_eq_ok h
  have htables : ∀ (members : List Member) (s : Schema), s.Assembled →
      (members.foldl (fun s m => s.addTable (m.table naming)) s).Assembled := by
    intro members
    induction members with
    | nil => exact fun _ hs => hs
    | cons m rest ih => exact fun s hs => ih _ (hs.addTable (m.assembled_table naming))
  have hlinked : linked.Assembled := by
    refine of_foldlM_eq_ok (fun s m s' hs hstep => ?_) (htables r.members {} .empty) hlinked
    obtain ⟨keys, _, hadded⟩ := ok_of_bind_eq_ok hstep
    exact hs.addMissing hadded
  refine of_foldlM_eq_ok (fun s m s' hs hstep => ?_) hlinked.isNamed hcascaded
  obtain ⟨names, _, hcascaded⟩ := ok_of_bind_eq_ok hstep
  cases hcascaded
  exact hs.foldl_cascade names

/-! ## When names find what they belong to -/

/-- Whether the names of a schema find items that do not differ from those that they belong to: a table
that counts has the columns and indexes of the first table with its name, and a relationship that counts
is like the first one with its name. -/
structure Unambiguous (s : Schema) (o : DiffOptions) : Prop where
  columns : ∀ pair ∈ matchedTables s s o,
    Column.rules.Agrees o.fold (fun _ => true) pair.1.columns.values pair.2.columns.values
  indexes : o.compareIndexes = true → ∀ pair ∈ matchedTables s s o,
    (Index.rules o.fold).Agrees o.fold (fun _ => true) pair.1.indexes pair.2.indexes
  relationships : o.compareRelationships = true →
    (Relationship.rules o.fold).Agrees o.fold (fun r => !o.excludes r.referencing.table)
      s.relationships.values s.relationships.values

/-- Whether no two names are matched: neither of tables nor of columns or indexes of one table, nor of
relationships. -/
structure DistinctNames (s : Schema) (o : DiffOptions) : Prop where
  tables : (s.tables.values.map fun t => o.fold t.name).Nodup
  columns : ∀ t ∈ s.tables.values, (t.columns.values.map fun c => o.fold c.name).Nodup
  indexes : ∀ t ∈ s.tables.values, (t.indexes.map fun i => o.fold i.name).Nodup
  relationships : (s.relationships.values.map fun r => o.fold r.name).Nodup

/-- Whether indexes of one name are alike in every table that counts. -/
def ConsistentIndexes (s : Schema) (o : DiffOptions) : Prop :=
  ∀ t ∈ s.tables.values, o.excludes t.name = false →
    ∀ i ∈ t.indexes, ∀ j ∈ t.indexes, i.name = j.name → i.Alike j

instance (s : Schema) (o : DiffOptions) : Decidable (s.ConsistentIndexes o) :=
  inferInstanceAs (Decidable (∀ t ∈ s.tables.values, o.excludes t.name = false →
    ∀ i ∈ t.indexes, ∀ j ∈ t.indexes, i.name = j.name → i.Alike j))

section Self

variable {s : Schema} (hs : s.IsNamed) {o : DiffOptions}

include hs

theorem findTable?_eq_find? (name : String) :
    o.findTable? s name = s.tables.values.find? fun t => o.fold t.name == o.fold name := by
  unfold DiffOptions.findTable?
  split
  · rfl
  · rw [DiffOptions.fold_of_exact (by simpa using ‹¬o.ignoreCase = true›)]
    exact (hs.tables.find?_eq name).symm

/-- Every table has a match. -/
theorem exists_findTable? {t : Table} (ht : t ∈ s.comparedTables o) :
    ∃ old, o.findTable? s t.name = some old := by
  have hmem : t ∈ s.tables.values :=
    Assoc.mem_values_of_get? ((mem_comparedTables hs.tables).1 ht).1
  rw [← Option.isSome_iff_exists, findTable?_eq_find? hs, List.find?_isSome]
  exact ⟨t, hmem, by simp⟩

theorem tablesToCreate_self : (s.diff s o).tablesToCreate = [] := by
  refine List.eq_nil_iff_forall_not_mem.2 fun t ht => ?_
  obtain ⟨hcompared, hnone⟩ := mem_tablesToCreate.1 ht
  obtain ⟨old, hold⟩ := exists_findTable? hs hcompared
  exact nomatch hold.symm.trans hnone

theorem tablesToDrop_self : (s.diff s o).tablesToDrop = [] := by
  refine List.eq_nil_iff_forall_not_mem.2 fun t ht => ?_
  obtain ⟨hcompared, hnone⟩ := mem_tablesToDrop.1 ht
  obtain ⟨old, hold⟩ := exists_findTable? hs hcompared
  exact nomatch hold.symm.trans hnone

omit hs in
theorem unambiguous_iff :
    s.Unambiguous o ↔ (s.diff s o).columns = [] ∧ (s.diff s o).indexes = [] ∧
      (s.diff s o).relationships = [] := by
  rw [columns_diff_eq_nil_iff, indexes_diff_eq_nil_iff, relationships_diff_eq_nil_iff]
  exact ⟨fun h => ⟨h.columns, h.indexes, h.relationships⟩, fun h => ⟨h.1, h.2.1, h.2.2⟩⟩

theorem isEmpty_diff_self_iff : (s.diff s o).isEmpty = true ↔ s.Unambiguous o := by
  simp [SchemaDiff.isEmpty, tablesToCreate_self hs, tablesToDrop_self hs, unambiguous_iff,
    and_assoc]

theorem tableDiffs_diff_self_iff : (s.diff s o).tableDiffs = [] ↔ s.Unambiguous o := by
  have hkeys : ∀ r, (s.diff s o).droppedKey? r = none ∧ (s.diff s o).addedKey? r = none → False := by
    rintro r ⟨hdropped, hadded⟩
    simp only [SchemaDiff.droppedKey?, SchemaDiff.addedKey?, tablesToCreate_self hs,
      tablesToDrop_self hs] at hdropped hadded
    cases hchange : r.change <;> simp [hchange, Change.old?, Change.new?] at hdropped hadded
  rw [SchemaDiff.tableDiffs_eq_nil_iff, unambiguous_iff]
  simp only [tablesToCreate_self hs, true_and]
  refine and_congr_right fun _ => and_congr_right fun _ => ⟨fun h => ?_, fun h => by simp [h]⟩
  exact List.eq_nil_iff_forall_not_mem.2 fun r hr => hkeys r (h r hr)

/-- Distinct names find what they belong to. -/
theorem DistinctNames.unambiguous (h : s.DistinctNames o) : s.Unambiguous o := by
  have hself : ∀ pair ∈ matchedTables s s o, pair.2 = pair.1 ∧ pair.1 ∈ s.tables.values := by
    rintro ⟨new, old⟩ hpair
    obtain ⟨hcompared, hfind⟩ := mem_matchedTables.1 hpair
    have hmem : new ∈ s.tables.values :=
      Assoc.mem_values_of_get? ((mem_comparedTables hs.tables).1 hcompared).1
    rw [findTable?_eq_find? hs] at hfind
    have hname : o.fold old.name = o.fold new.name := by simpa using List.find?_some hfind
    exact ⟨List.inj_on_of_nodup_map h.tables (List.mem_of_find?_eq_some hfind) hmem hname, hmem⟩
  constructor
  · intro pair hpair
    obtain ⟨hsame, hmem⟩ := hself pair hpair
    rw [hsame]
    exact ItemRules.agrees_self (h.columns pair.1 hmem) Column.changes_self
  · intro _ pair hpair
    obtain ⟨hsame, hmem⟩ := hself pair hpair
    rw [hsame]
    exact ItemRules.agrees_self (h.indexes pair.1 hmem) (Index.changes_self o.fold)
  · exact fun _ => ItemRules.agrees_self h.relationships (Relationship.changes_self o.fold)

/-- Where the case of letters counts only the names of indexes can be ambiguous. -/
theorem unambiguous_iff_of_exact (ho : o.ignoreCase = false) :
    s.Unambiguous o ↔ (o.compareIndexes = true → s.ConsistentIndexes o) := by
  have hmatched : ∀ {new old}, (new, old) ∈ matchedTables s s o ↔
      s.table? new.name = some new ∧ o.excludes new.name = false ∧ old = new := by
    intro new old
    rw [mem_matchedTables, mem_comparedTables hs.tables, DiffOptions.findTable?_of_exact ho,
      and_assoc]
    exact and_congr_right fun hget => and_congr_right fun _ => by rw [hget, Option.some.injEq, eq_comm]
  have hfold := DiffOptions.fold_of_exact ho
  constructor
  · intro h hcompare t ht hcounts
    rw [← Index.agrees_self_iff, ← hfold]
    exact h.indexes hcompare (t, t) (hmatched.2 ⟨hs.tables.get?_of_mem ht, hcounts, rfl⟩)
  · intro h
    constructor
    · rintro ⟨new, old⟩ hpair
      obtain ⟨hget, _, rfl⟩ := hmatched.1 hpair
      rw [hfold]
      exact ItemRules.agrees_self (hs.columns old (Assoc.mem_values_of_get? hget)).nodup
        Column.changes_self
    · rintro hcompare ⟨new, old⟩ hpair
      obtain ⟨hget, hcounts, rfl⟩ := hmatched.1 hpair
      rw [hfold]
      exact Index.agrees_self_iff.2 (h hcompare old (Assoc.mem_values_of_get? hget) hcounts)
    · intro _
      rw [hfold]
      exact ItemRules.agrees_self hs.relationships.nodup (Relationship.changes_self id)

end Self

/-- A schema does not differ from itself exactly if its names are unambiguous, which they are if they are
distinct. Where the case of letters counts, that is: if indexes of one name are alike. -/
theorem diff_self_iff {s : Schema}
    (hs : s.Assembled ∨ ∃ (r : Registry) (naming : Naming), r.schemaBy naming = .ok s)
    (o : DiffOptions) :
    ((s.diff s o).isEmpty = true ↔ s.Unambiguous o) ∧
      ((s.diff s o).tableDiffs = [] ↔ s.Unambiguous o) ∧
        (s.DistinctNames o → s.Unambiguous o) ∧
          (o.ignoreCase = false →
            (s.Unambiguous o ↔ (o.compareIndexes = true → s.ConsistentIndexes o))) := by
  have hnamed : s.IsNamed := by
    rcases hs with hassembled | ⟨r, naming, hbuilt⟩
    · exact hassembled.isNamed
    · exact isNamed_schemaBy hbuilt
  exact ⟨isEmpty_diff_self_iff hnamed, tableDiffs_diff_self_iff hnamed,
    DistinctNames.unambiguous hnamed, unambiguous_iff_of_exact hnamed⟩

/-- Names of indexes may be shared between tables, and those that are alike within a table. -/
theorem diff_self_iff_shared :
    let id : Column := { name := "id", type := .integer .regular, isPrimaryKey := true }
    let byId : Index := { name := "by_id", columns := ["id"] }
    let user : Table := ((Table.addColumn { name := "user" } id).addIndex byId).addIndex
      { byId with method? := some .btree }
    let post : Table := (Table.addColumn { name := "post" } id).addIndex { byId with unique := true }
    let s : Schema := addTable (addTable {} user) post
    s.Assembled ∧ s.ConsistentIndexes {} ∧ (s.diff s {}).isEmpty = true ∧
      (s.diff s {}).tableDiffs = [] := by
  intro id byId user post s
  have hs : s.Assembled :=
    (Assembled.empty.addTable ((((Table.Assembled.empty _ _).addColumn id).addIndex byId).addIndex
      _)).addTable (((Table.Assembled.empty _ _).addColumn id).addIndex _)
  have hindexes : s.ConsistentIndexes {} := by decide +kernel
  obtain ⟨hempty, hdiffs, _, hexact⟩ := diff_self_iff (.inl hs) {}
  have hunambiguous := (hexact rfl).2 fun _ => hindexes
  exact ⟨hs, hindexes, hempty.2 hunambiguous, hdiffs.2 hunambiguous⟩

/-- A field with an index of its own and an index that is declared over the same field get one name. -/
theorem differs_from_itself_indexed_twice :
    let tag : Entity :=
      { name := "Tag"
        fields := Assoc.ofPairs
          [("id", { type := .integer }), ("slug", { type := .text, indexed := true })]
        indexes := [{ fields := ["slug"], unique := true }] }
    ∃ s, (Registry.ofList [tag]).schema = .ok s ∧
      (s.diff s {}).isEmpty = false ∧ (s.diff s {}).tableDiffs ≠ [] := by
  intro tag
  exact ⟨_, rfl, by decide +kernel, by decide +kernel⟩

end Schema

end EntitySql
