import EntitySql.Proofs.Schema.DependencyOrder
import EntitySql.Proofs.Schema.Synchronization
import EntitySql.Schema.Diff.Statements
/-!
# What the changes of tables consist of

The columns, indexes and foreign keys that the differences of two schemas list for a table, told by the two
schemas. Nothing is assumed about the names of indexes: those of one name are all compared with the first
current one of that name.
-/

namespace EntitySql

theorem SchemaDiff.mem_changedTables_of_mem_ofTable {d : SchemaDiff} {table : String}
    {change : Change Column} (h : change ∈ SchemaDiff.ofTable table d.columns) :
    table ∈ d.changedTables := by
  obtain ⟨entry, hentry, _⟩ := List.mem_map.1 h
  obtain ⟨hentry, hname⟩ := List.mem_filter.1 hentry
  exact SchemaDiff.mem_changedTables.2 (.inl (List.mem_map.2 ⟨entry, hentry, beq_iff_eq.1 hname⟩))

namespace Schema

variable {desired live : Schema} {o : DiffOptions}

/-- The column changes of a name are those of the tables that are matched under it, with columns matched
by folded name. -/
theorem mem_ofTable_columns_iff {name : String} {change : Change Column} :
    change ∈ SchemaDiff.ofTable name (desired.diff live o).columns ↔
      ∃ new old, (new, old) ∈ matchedTables desired live o ∧ new.name = name ∧
        Column.rules.Requires o.fold (fun _ => true) new.columns.values old.columns.values change := by
  simp only [SchemaDiff.ofTable, diff, List.mem_map, List.mem_filter, List.mem_flatMap, beq_iff_eq,
    ← ItemRules.mem_map_change_iff]
  constructor
  · rintro ⟨_, ⟨⟨⟨new, old⟩, hmatch, difference, hdifference, rfl⟩, rfl⟩, rfl⟩
    exact ⟨new, old, hmatch, rfl, difference, hdifference, rfl⟩
  · rintro ⟨new, old, hmatch, rfl, difference, hdifference, rfl⟩
    exact ⟨_, ⟨⟨(new, old), hmatch, difference, hdifference, rfl⟩, rfl⟩, rfl⟩

variable (ho : o.ignoreCase = false)

include ho

/-- The column changes of a name are those of the tables that are matched under it. -/
theorem exists_matched_iff_mem_columns {name : String} {change : Change Column} :
    change ∈ SchemaDiff.ofTable name (desired.diff live o).columns ↔
      ∃ new old, (new, old) ∈ matchedTables desired live o ∧ new.name = name ∧
        Column.rules.Requires id (fun _ => true) new.columns.values old.columns.values change := by
  rw [mem_ofTable_columns_iff, DiffOptions.fold_of_exact ho]

/-- The index changes of a name are those of the tables that are matched under it. -/
theorem exists_matched_iff_mem_indexes (hcompare : o.compareIndexes = true) {name : String}
    {change : Change Index} :
    change ∈ SchemaDiff.ofTable name (desired.diff live o).indexes ↔
      ∃ new old, (new, old) ∈ matchedTables desired live o ∧ new.name = name ∧
        (Index.rules id).Requires id (fun _ => true) new.indexes old.indexes change := by
  simp only [SchemaDiff.ofTable, diff, hcompare, if_true, List.mem_map, List.mem_filter,
    List.mem_flatMap, beq_iff_eq, ← ItemRules.mem_map_change_iff, ← DiffOptions.fold_of_exact ho]
  constructor
  · rintro ⟨_, ⟨⟨⟨new, old⟩, hmatch, difference, hdifference, rfl⟩, rfl⟩, rfl⟩
    exact ⟨new, old, hmatch, rfl, difference, hdifference, rfl⟩
  · rintro ⟨new, old, hmatch, rfl, difference, hdifference, rfl⟩
    exact ⟨_, ⟨⟨(new, old), hmatch, difference, hdifference, rfl⟩, rfl⟩, rfl⟩

theorem mem_addColumns_iff {name : String} {column : Column} :
    column ∈ ((desired.diff live o).changesOf name).addColumns ↔
      ∃ new old, (new, old) ∈ matchedTables desired live o ∧ new.name = name ∧
        column ∈ new.columns.values ∧ ∀ c ∈ old.columns.values, c.name ≠ column.name := by
  simp only [TableChanges.addColumns, SchemaDiff.changesOf, SchemaDiff.getD_nonEmpty?,
    List.mem_filterMap, SchemaDiff.addedColumn?_eq_some_iff, exists_eq_right,
    exists_matched_iff_mem_columns ho, ItemRules.Requires, ItemRules.find?_eq_none_iff, true_and]
  rfl

theorem mem_dropColumns_iff {name : String} {column : Column} :
    column ∈ ((desired.diff live o).changesOf name).dropColumns ↔
      ∃ new old, (new, old) ∈ matchedTables desired live o ∧ new.name = name ∧
        column ∈ old.columns.values ∧ ∀ c ∈ new.columns.values, c.name ≠ column.name := by
  simp only [TableChanges.dropColumns, SchemaDiff.changesOf, SchemaDiff.getD_nonEmpty?,
    List.mem_filterMap, SchemaDiff.droppedColumn?_eq_some_iff, exists_eq_right,
    exists_matched_iff_mem_columns ho, ItemRules.Requires, ItemRules.find?_eq_none_iff, true_and]
  rfl

theorem mem_addIndexes_iff (hcompare : o.compareIndexes = true) {name : String} {index : Index} :
    index ∈ ((desired.diff live o).changesOf name).addIndexes ↔
      ∃ new old, (new, old) ∈ matchedTables desired live o ∧ new.name = name ∧ ∃ change,
        (Index.rules id).Requires id (fun _ => true) new.indexes old.indexes change ∧
          change.new? = some index := by
  simp only [SchemaDiff.mem_addIndexes_changesOf, exists_matched_iff_mem_indexes ho hcompare]
  constructor
  · rintro ⟨change, ⟨new, old, hmatch, hname, hrequires⟩, hnew⟩
    exact ⟨new, old, hmatch, hname, change, hrequires, hnew⟩
  · rintro ⟨new, old, hmatch, hname, change, hrequires, hnew⟩
    exact ⟨change, ⟨new, old, hmatch, hname, hrequires⟩, hnew⟩

theorem mem_dropIndexes_iff (hcompare : o.compareIndexes = true) {name : String} {index : Index} :
    index ∈ ((desired.diff live o).changesOf name).dropIndexes ↔
      ∃ new old, (new, old) ∈ matchedTables desired live o ∧ new.name = name ∧ ∃ change,
        (Index.rules id).Requires id (fun _ => true) new.indexes old.indexes change ∧
          change.old? = some index := by
  simp only [SchemaDiff.mem_dropIndexes_changesOf, exists_matched_iff_mem_indexes ho hcompare]
  constructor
  · rintro ⟨change, ⟨new, old, hmatch, hname, hrequires⟩, hold⟩
    exact ⟨new, old, hmatch, hname, change, hrequires, hold⟩
  · rintro ⟨new, old, hmatch, hname, change, hrequires, hold⟩
    exact ⟨change, ⟨new, old, hmatch, hname, hrequires⟩, hold⟩

/-- A created table declares its foreign keys whose names are new. -/
theorem mem_foreignKeys_definitionOf_iff (hcompare : o.compareRelationships = true) {t : Table}
    {key : Relationship} :
    key ∈ ((desired.diff live o).definitionOf t).foreignKeys ↔
      key ∈ desired.relationships.values ∧ o.excludes key.referencing.table = false ∧
        (∀ r ∈ live.relationships.values, r.name ≠ key.name) ∧ key.referencing.table = t.name := by
  have hcreate : (∃ r ∈ (desired.diff live o).relationships,
      r.change.isCreate = true ∧ r.change.new? = some key) ↔
        .create key ∈ (desired.diff live o).relationships.map (·.change) := by
    rw [List.mem_map]
    refine exists_congr fun r => and_congr_right fun _ => ⟨fun h => ?_, fun h => h ▸ ⟨rfl, rfl⟩⟩
    cases hchange : r.change <;> simp_all [Change.isCreate, Change.new?]
  simp only [mem_relationships_diff, hcompare, true_and, DiffOptions.fold_of_exact ho,
    ItemRules.Requires, ItemRules.find?_eq_none_iff, Bool.not_eq_true'] at hcreate
  simp only [SchemaDiff.definitionOf, List.mem_filter, List.mem_filterMap, beq_iff_eq, and_assoc,
    hcreate]
  rfl

omit ho in
/-- A table is changed because it is matched or because a foreign key of it is. -/
theorem exists_of_mem_changedTables {name : String}
    (h : name ∈ (desired.diff live o).changedTables) :
    (∃ new old, (new, old) ∈ matchedTables desired live o ∧ new.name = name) ∨
      ∃ r ∈ (desired.diff live o).relationships, ∃ key,
        ((desired.diff live o).droppedKey? r = some key ∨
          (desired.diff live o).addedKey? r = some key) ∧ key.referencing.table = name := by
  rcases SchemaDiff.mem_changedTables.1 h with h | h | h
  · obtain ⟨_, hmem, rfl⟩ := List.mem_map.1 h
    simp only [diff, List.mem_flatMap, List.mem_map] at hmem
    obtain ⟨⟨new, old⟩, hmatch, _, _, rfl⟩ := hmem
    exact .inl ⟨new, old, hmatch, rfl⟩
  · obtain ⟨_, hmem, rfl⟩ := List.mem_map.1 h
    simp only [diff] at hmem
    split at hmem
    · simp only [List.mem_flatMap, List.mem_map] at hmem
      obtain ⟨⟨new, old⟩, hmatch, _, _, rfl⟩ := hmem
      exact .inl ⟨new, old, hmatch, rfl⟩
    · cases hmem
  · exact .inr h

/-! ### In an empty database -/

/-- The definition of a table that is created in an empty database. -/
def definition (s : Schema) (o : DiffOptions) (t : Table) : TableDefinition := (s.diff {} o).definitionOf t

/-- The statements that create all tables that count in an empty database. -/
def creation (s : Schema) (o : DiffOptions) : List Ddl :=
  (s.comparedTables o).flatMap fun t => (s.definition o t).statements false

/-- A table that is created in an empty database declares all its foreign keys. -/
theorem mem_foreignKeys_definition_iff (hcompare : o.compareRelationships = true) {t : Table}
    {key : Relationship} :
    key ∈ (desired.definition o t).foreignKeys ↔
      key ∈ desired.relationships.values ∧ o.excludes key.referencing.table = false ∧
        key.referencing.table = t.name := by
  rw [definition, mem_foreignKeys_definitionOf_iff ho hcompare]
  exact and_congr_right fun _ => and_congr_right fun _ => and_iff_right nofun

/-- In an empty database all tables that count are created, and nothing else happens. -/
theorem tableDiffs_diff_empty (hnamed : desired.tables.IsNamed Table.name) (hlinked : desired.IsLinked) :
    (desired.diff {} o).tableDiffs = (desired.comparedTables o).map fun t =>
      .create t.name (some (desired.definition o t)) := by
  have hcreated : (desired.diff {} o).tablesToCreate = desired.comparedTables o := by
    refine List.filter_eq_self.2 fun t _ => ?_
    rw [DiffOptions.findTable?_of_exact ho]
    rfl
  have hchanged : (desired.diff {} o).changedTables = [] := by
    refine List.eq_nil_iff_forall_not_mem.2 fun name hname => ?_
    rcases exists_of_mem_changedTables hname with ⟨new, old, hmatch, _⟩ | ⟨r, hr, key, hkey, _⟩
    · cases (mem_matched_iff ho hnamed).1 hmatch |>.2.2
    · have hrequires := requires_of_mem ho hr
      rcases hkey with hdropped | hadded
      · cases (hrequires.current_of_old? (SchemaDiff.droppedKey?_eq_some_iff.1 hdropped).1).1
      · obtain ⟨hnew, hexists⟩ := SchemaDiff.addedKey?_eq_some_iff.1 hadded
        obtain ⟨hkey, hcounts⟩ := hrequires.desired_of_new? hnew
        have howner := (hlinked.joined key hkey).1
        exact hexists ((mem_created_iff ho hnamed).2 ⟨howner, by simpa using hcounts, nofun⟩)
  rw [SchemaDiff.tableDiffs, hcreated, hchanged, List.map_nil, List.append_nil]
  rfl

/-! ### The order of changes -/

/-- The column changes of some of the desired tables, one table after the other. -/
def columnChanges (live : Schema) (o : DiffOptions) (tables : List Table) :
    List (String × Difference Column) :=
  ((tables.filter fun t => !o.excludes t.name).filterMap fun t =>
    (o.findTable? live t.name).map fun old => (t, old)).flatMap fun (new, old) =>
      (Column.rules.differences o.fold (fun _ => true) new.columns.values old.columns.values).map
        fun d => (new.name, d)

omit ho in
theorem columnChanges_append (first rest : List Table) :
    columnChanges live o (first ++ rest) = columnChanges live o first ++ columnChanges live o rest := by
  simp only [columnChanges, List.filter_append, List.filterMap_append, List.flatMap_append]

omit ho in
theorem exists_of_mem_columnChanges {tables : List Table} {entry : String × Difference Column}
    (h : entry ∈ columnChanges live o tables) : ∃ t ∈ tables, t.name = entry.1 := by
  obtain ⟨⟨new, old⟩, hpair, hentry⟩ := List.mem_flatMap.1 h
  obtain ⟨_, hnew, hpair⟩ := List.mem_filterMap.1 hpair
  obtain ⟨_, _, hpair⟩ := Option.map_eq_some_iff.1 hpair
  obtain ⟨_, _, rfl⟩ := List.mem_map.1 hentry
  cases hpair
  exact ⟨new, (List.mem_filter.1 hnew).1, rfl⟩

omit ho in
/-- A table whose columns change is changed in front of all that refer to it, if the desired tables can be
put in order. -/
theorem eachAfter_changedTables (hdesired : desired.tables.IsNamed Table.name)
    (hordered : desired.IsOrdered desired.sortedTables) (hlinked : desired.IsLinked) :
    EachAfter (fun before name => ∀ other, desired.References name other →
        (∃ change, change ∈ SchemaDiff.ofTable other (desired.diff live o).columns) → other ∈ before)
      (desired.diff live o).changedTables := by
  intro before name after hsplit other hreferences ⟨change, hchange⟩
  have hperm := desired.sortedTables_perm hdesired
  obtain ⟨t, ht, rfl⟩ : ∃ t ∈ desired.sortedTables, t.name = name := by
    obtain ⟨_, r, hr, rfl, _⟩ := hreferences
    obtain ⟨t, ht, hname⟩ := hdesired.mem_keys_iff.1 (hlinked.joined r hr).1
    exact ⟨t, hperm.mem_iff.2 ht, hname⟩
  obtain ⟨front, back, htables⟩ := List.append_of_mem ht
  have hother : other ∈ front.map (·.name) := isOrdered_iff.1 hordered front t back htables other hreferences
  have hnodup : (desired.sortedTables.map (·.name)).Nodup :=
    (hperm.map _).nodup_iff.2 hdesired.nodup
  rw [htables, List.map_append, List.nodup_append] at hnodup
  -- The columns of the tables in front of the referring one come first, those of the other one among them.
  have hcolumns : (desired.diff live o).columns =
      columnChanges live o front ++ columnChanges live o (t :: back) := by
    rw [← columnChanges_append, ← htables]
    rfl
  have hfirst : other ∈ (columnChanges live o front).map Prod.fst := by
    obtain ⟨entry, hentry, _⟩ := List.mem_map.1 hchange
    obtain ⟨hentry, hname⟩ := List.mem_filter.1 hentry
    rw [beq_iff_eq] at hname
    rw [hcolumns] at hentry
    rcases List.mem_append.1 hentry with hentry | hentry
    · exact List.mem_map.2 ⟨entry, hentry, hname⟩
    · obtain ⟨u, hu, hsame⟩ := exists_of_mem_columnChanges hentry
      exact absurd (hsame.trans hname).symm (hnodup.2.2 other hother _ (List.mem_map_of_mem hu))
  have hnew : t.name ∉ (columnChanges live o front).map Prod.fst := by
    intro hmem
    obtain ⟨entry, hentry, hname⟩ := List.mem_map.1 hmem
    obtain ⟨u, hu, hsame⟩ := exists_of_mem_columnChanges hentry
    exact hnodup.2.2 _ (List.mem_map_of_mem hu) _ (.head _) (hsame.trans hname)
  rw [SchemaDiff.changedTables, hcolumns, List.map_append, List.append_assoc, List.append_assoc] at hsplit
  exact EachAfter.eraseDups_append before t.name after hsplit hnew other hfirst

end Schema

end EntitySql
