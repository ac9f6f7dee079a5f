import EntitySql.Proofs.Schema.Synchronization
/-!
# Every difference has its place

Sorting the differences of two schemas by table neither loses nor repeats what happens to columns and
indexes, nor the foreign keys that are dropped (`SchemaDiff.Distributes`): each of them stands once among
the differences of its table, in order.

Foreign keys that are added do so under one condition. A created table is given those of its foreign keys
that are created, and one that is altered instead, because a key of its name exists elsewhere, is given to
no table at all. Each key is added once exactly if every key of a created table is created, and no two
created tables share the name of the table (`Schema.distributes_tableDiffs`).
-/

namespace EntitySql

/-- All that happens to the columns of a table. -/
def TableChanges.columnChanges (c : TableChanges) : List (Change Column) :=
  c.addColumns.map .create ++ c.alterColumns.map (fun altered => .alter altered.old altered.new) ++
    c.dropColumns.map .drop

namespace TableDiff

variable {α : Type}

/-- What the changes of a table hold. A table that is created has none. -/
def changed (part : TableChanges → List α) : TableDiff → List α
  | create _ _ => []
  | alter _ changes => part changes

/-- Whether every item stands once among the differences of its table, in order. -/
structure EachOnce (diffs : List TableDiff) (part : TableDiff → List α) (items : List (String × α)) :
    Prop where
  once : (diffs.flatMap fun t => (part t).map (t.table, ·)).Perm items
  inOrder : ∀ t ∈ diffs, ((part t).map (t.table, ·)).Sublist items

instance [DecidableEq α] (diffs : List TableDiff) (part : TableDiff → List α)
    (items : List (String × α)) : Decidable (EachOnce diffs part items) :=
  decidable_of_iff
    ((diffs.flatMap fun t => (part t).map (t.table, ·)).Perm items ∧
      ∀ t ∈ diffs, ((part t).map (t.table, ·)).Sublist items)
    ⟨fun h => ⟨h.1, h.2⟩, fun h => ⟨h.once, h.inOrder⟩⟩

end TableDiff

namespace SchemaDiff

/-- What is picked out of the differences of columns or of indexes, each with its table. -/
def picked {α β : Type} (pick : Change α → Option β) (list : List (String × Difference α)) :
    List (String × β) :=
  list.filterMap fun entry => (pick entry.2.change).map (entry.1, ·)

/-- Foreign keys, each with its table. -/
def withTables (keys : List Relationship) : List (String × Relationship) :=
  keys.map fun key => (key.referencing.table, key)

/-- The foreign keys to create and the new forms of those to alter. -/
def newKeys (d : SchemaDiff) : List Relationship := d.relationships.filterMap (·.change.new?)

/-- The foreign keys to create. -/
def createdKeys (d : SchemaDiff) : List Relationship :=
  (d.relationships.filter (·.change.isCreate)).filterMap (·.change.new?)

/-- The foreign keys to drop and the old forms of those to alter, without those that go with their
tables. -/
def oldKeys (d : SchemaDiff) : List Relationship :=
  (d.relationships.filterMap (·.change.old?)).filter fun key =>
    !d.tablesToDrop.any (·.name == key.referencing.table)

/-- Whether the differences by table hold all changes of columns and indexes and all foreign keys that are
dropped, each once and in order. Created tables come first and changed tables follow, each of them once
and none without a change. -/
structure Distributes (d : SchemaDiff) (diffs : List TableDiff) : Prop where
  arranged : ∃ (definitions : List TableDefinition) (changes : List (String × TableChanges)),
    diffs = (definitions.map fun c => .create c.table.name (some c)) ++
        (changes.map fun c => .alter c.1 c.2) ∧
      definitions.map (·.table) = d.tablesToCreate ∧
      (changes.map Prod.fst).Nodup ∧ ∀ c ∈ changes, c.2.isEmpty = false
  columns :
    (diffs.flatMap fun t => (t.changed (·.columnChanges)).map (t.table, ·)).Perm
      (d.columns.map fun entry => (entry.1, entry.2.change))
  addedColumns :
    TableDiff.EachOnce diffs (TableDiff.changed (·.addColumns)) (picked addedColumn? d.columns)
  alteredColumns :
    TableDiff.EachOnce diffs (TableDiff.changed (·.alterColumns)) (picked alteredColumn? d.columns)
  droppedColumns :
    TableDiff.EachOnce diffs (TableDiff.changed (·.dropColumns)) (picked droppedColumn? d.columns)
  addedIndexes :
    TableDiff.EachOnce diffs (TableDiff.changed (·.addIndexes)) (picked Change.new? d.indexes)
  droppedIndexes :
    TableDiff.EachOnce diffs (TableDiff.changed (·.dropIndexes)) (picked Change.old? d.indexes)
  droppedKeys :
    TableDiff.EachOnce diffs (TableDiff.changed (·.dropForeignKeys)) (withTables d.oldKeys)

/-! ## Grouping -/

section Grouping

variable {α : Type} [DecidableEq α]

/-- An item stands in the groups as often as among the items, for each time that its name is listed. -/
theorem count_flatMap_filter (key : α → String) (names : List String) (items : List α) (item : α) :
    (names.flatMap fun name => items.filter (key · == name)).count item =
      names.count (key item) * items.count item := by
  induction names with
  | nil => rw [List.flatMap_nil, List.count_nil, List.count_nil, Nat.zero_mul]
  | cons name rest ih =>
    rw [List.flatMap_cons, List.count_append, ih, List.count_cons, Nat.add_mul, Nat.add_comm]
    congr 1
    by_cases hname : key item = name
    · subst hname
      rw [List.count_filter (by simp), if_pos (by simp), Nat.one_mul]
    · rw [List.count_eq_zero_of_not_mem (by simp [hname]), if_neg (by simp [Ne.symm hname]),
        Nat.zero_mul]

/-- Groups under distinct names that cover all items hold every item once. -/
theorem perm_flatMap_filter {key : α → String} {names : List String} (hnames : names.Nodup)
    {items : List α} (hcovered : ∀ item ∈ items, key item ∈ names) :
    (names.flatMap fun name => items.filter (key · == name)).Perm items := by
  apply List.perm_iff_count.2
  intro item
  rw [count_flatMap_filter]
  by_cases hitem : item ∈ items
  · rw [List.count_eq_one_of_mem hnames (hcovered item hitem), Nat.one_mul]
  · rw [List.count_eq_zero_of_not_mem hitem, Nat.mul_zero]

end Grouping

variable {d : SchemaDiff} {α β : Type}

/-! ## The changes of existing tables -/

theorem tableDiffs_flatMap {γ : Type} (f : TableDiff → List γ) :
    d.tableDiffs.flatMap f =
      (d.tablesToCreate.flatMap fun t => f (.create t.name (some (d.definitionOf t)))) ++
        d.changedTables.flatMap fun table => f (.alter table (d.changesOf table)) := by
  rw [tableDiffs, List.flatMap_append, List.flatMap_map, List.flatMap_map]

/-- A part of the changes that groups items by table holds each of them once, if their tables are
changed. -/
theorem perm_changed [DecidableEq α] {part : TableChanges → List α} {items : List (String × α)}
    (hpart : ∀ table, ((part (d.changesOf table)).map (table, ·)).Perm (items.filter (·.1 == table)))
    (hitems : ∀ item ∈ items, item.1 ∈ d.changedTables) :
    (d.tableDiffs.flatMap fun t => (t.changed part).map (t.table, ·)).Perm items := by
  rw [tableDiffs_flatMap]
  simp only [TableDiff.changed, TableDiff.table, List.map_nil]
  rw [List.flatMap_eq_nil_iff.2 fun _ _ => rfl, List.nil_append]
  exact (List.Perm.flatMap_left _ fun table _ => hpart table).trans
    (perm_flatMap_filter nodup_changedTables hitems)

theorem eachOnce_changed [DecidableEq α] {part : TableChanges → List α} {items : List (String × α)}
    (hpart : ∀ table, (part (d.changesOf table)).map (table, ·) = items.filter (·.1 == table))
    (hitems : ∀ item ∈ items, item.1 ∈ d.changedTables) :
    TableDiff.EachOnce d.tableDiffs (TableDiff.changed part) items := by
  constructor
  · exact perm_changed (fun table => .of_eq (hpart table)) hitems
  · intro t ht
    rcases mem_tableDiffs.1 ht with ⟨created, _, rfl⟩ | ⟨table, _, rfl⟩
    · exact List.nil_sublist items
    · show ((part (d.changesOf table)).map (table, ·)).Sublist items
      rw [hpart]
      exact List.filter_sublist

theorem mem_picked {pick : Change α → Option β} {list : List (String × Difference α)}
    {item : String × β} :
    item ∈ picked pick list ↔
      ∃ entry ∈ list, pick entry.2.change = some item.2 ∧ entry.1 = item.1 := by
  simp only [picked, List.mem_filterMap, Option.map_eq_some_iff]
  constructor
  · rintro ⟨entry, hentry, value, hvalue, rfl⟩
    exact ⟨entry, hentry, hvalue, rfl⟩
  · rintro ⟨entry, hentry, hvalue, hname⟩
    exact ⟨entry, hentry, item.2, hvalue, by rw [hname]⟩

/-- What is picked for a table is what is picked out of the differences of that table. -/
theorem map_filterMap_ofTable (pick : Change α → Option β) (list : List (String × Difference α))
    (table : String) :
    ((ofTable table list).filterMap pick).map (table, ·) =
      (picked pick list).filter (·.1 == table) := by
  rw [ofTable, picked, List.filterMap_map, List.filterMap_filter, List.map_filterMap,
    List.filter_filterMap]
  apply congrArg (List.filterMap · list)
  funext entry
  by_cases hname : entry.1 = table
  · cases hpick : pick entry.2.change <;> simp [hname, hpick, Option.filter]
  · cases pick entry.2.change <;> simp [hname, Option.filter]

theorem picked_some (list : List (String × Difference α)) :
    picked some list = list.map fun entry => (entry.1, entry.2.change) :=
  congrFun List.filterMap_eq_map list

theorem map_filter_table (keys : List Relationship) (table : String) :
    (keys.filter (·.referencing.table == table)).map (table, ·) =
      (withTables keys).filter (·.1 == table) := by
  rw [withTables, List.filter_map]
  apply List.map_congr_left
  intro key hkey
  have hname : key.referencing.table = table := by simpa using (List.mem_filter.1 hkey).2
  rw [hname]

/-- A part of the changes that picks items out of the differences of each table holds each of them
once. -/
theorem eachOnce_picked [DecidableEq β] {pick : Change α → Option β} {part : TableChanges → List β}
    {list : List (String × Difference α)}
    (hpart : ∀ table, part (d.changesOf table) = (ofTable table list).filterMap pick)
    (hlist : ∀ entry ∈ list, entry.1 ∈ d.changedTables) :
    TableDiff.EachOnce d.tableDiffs (TableDiff.changed part) (picked pick list) := by
  apply eachOnce_changed
  · intro table
    rw [hpart, map_filterMap_ofTable]
  · intro item hitem
    obtain ⟨entry, hentry, _, hname⟩ := mem_picked.1 hitem
    exact hname ▸ hlist entry hentry

/-- A change of a column adds it, alters it or drops it. -/
theorem columnChanges_changesOf_perm (table : String) :
    (d.changesOf table).columnChanges.Perm (ofTable table d.columns) := by
  simp only [TableChanges.columnChanges, TableChanges.addColumns, TableChanges.alterColumns,
    TableChanges.dropColumns, changesOf, getD_nonEmpty?]
  induction ofTable table d.columns with
  | nil => exact .nil
  | cons change rest ih =>
    cases change with
    | create new => exact ih.cons _
    | alter old new =>
      exact (List.perm_middle.append_right _).trans (ih.cons _)
    | drop old => exact List.perm_middle.trans (ih.cons _)

theorem filterMap_droppedKey? : d.relationships.filterMap d.droppedKey? = d.oldKeys :=
  (List.filter_filterMap ..).symm

theorem dropForeignKeys_changesOf (table : String) :
    (d.changesOf table).dropForeignKeys = d.oldKeys.filter (·.referencing.table == table) := by
  rw [← filterMap_droppedKey?]
  exact getD_nonEmpty? _

/-! ## Changed tables -/

/-- No changed table is without a change. -/
theorem isEmpty_changesOf {table : String} (h : table ∈ d.changedTables) :
    (d.changesOf table).isEmpty = false := by
  apply Bool.eq_false_iff.2
  intro hempty
  simp only [TableChanges.isEmpty, Bool.and_eq_true, Option.isNone_iff_eq_none] at hempty
  obtain ⟨⟨⟨⟨⟨⟨hadd, halter⟩, hdrop⟩, hindex⟩, hunindex⟩, hkey⟩, hunkey⟩ := hempty
  have hnew : (d.changesOf table).newColumns = [] := by
    simp only [TableChanges.newColumns, TableChanges.addColumns, TableChanges.alterColumns, hadd, halter,
      Option.getD_none, List.map_nil, List.append_nil]
  have hgone : (d.changesOf table).goneColumns = [] := by
    simp only [TableChanges.goneColumns, TableChanges.dropColumns, hdrop, Option.getD_none, List.map_nil]
  have hindexes : (d.changesOf table).addIndexes = [] ∧ (d.changesOf table).dropIndexes = [] := by
    simp only [TableChanges.addIndexes, TableChanges.dropIndexes, hindex, hunindex, Option.getD_none,
      and_self]
  have hkeys : (d.changesOf table).addForeignKeys = [] ∧ (d.changesOf table).dropForeignKeys = [] := by
    simp only [TableChanges.addForeignKeys, TableChanges.dropForeignKeys, hkey, hunkey, Option.getD_none,
      and_self]
  rcases mem_changedTables.1 h with hcolumn | hindex | ⟨r, hr, key, hdropped | hadded, hname⟩
  · obtain ⟨entry, hentry, rfl⟩ := List.mem_map.1 hcolumn
    have hmem := mem_ofTable_of_mem hentry
    cases hchange : entry.2.change with
    | create new | alter _ new =>
      exact List.not_mem_nil (hnew ▸ mem_newColumns_changesOf.2 ⟨_, hmem, by rw [hchange]; rfl⟩)
    | drop old =>
      exact List.not_mem_nil (hgone ▸ mem_goneColumns_changesOf.2 ⟨old, hchange ▸ hmem, rfl⟩)
  · obtain ⟨entry, hentry, rfl⟩ := List.mem_map.1 hindex
    have hmem := mem_ofTable_of_mem hentry
    cases hchange : entry.2.change with
    | create new | alter _ new =>
      exact List.not_mem_nil (hindexes.1 ▸ mem_addIndexes_changesOf.2 ⟨_, hmem, by rw [hchange]; rfl⟩)
    | drop old =>
      exact List.not_mem_nil (hindexes.2 ▸ mem_dropIndexes_changesOf.2 ⟨_, hmem, by rw [hchange]; rfl⟩)
  · exact List.not_mem_nil (hkeys.2 ▸ mem_dropForeignKeys_changesOf.2 ⟨⟨r, hr, hdropped⟩, hname⟩)
  · exact List.not_mem_nil (hkeys.1 ▸ mem_addForeignKeys_changesOf.2 ⟨⟨r, hr, hadded⟩, hname⟩)

/-- Whatever the differences are, sorting them by table distributes them. -/
theorem distributes (d : SchemaDiff) : d.Distributes d.tableDiffs where
  arranged := by
    refine ⟨d.tablesToCreate.map d.definitionOf, d.changedTables.map fun table =>
      (table, d.changesOf table), ?_, ?_, ?_, ?_⟩
    · simp only [tableDiffs, List.map_map, Function.comp_def, definitionOf]
    · simp only [List.map_map, Function.comp_def, definitionOf, List.map_id']
    · simpa only [List.map_map, Function.comp_def, List.map_id'] using nodup_changedTables
    · intro c hc
      obtain ⟨table, htable, rfl⟩ := List.mem_map.1 hc
      exact isEmpty_changesOf htable
  columns := by
    apply perm_changed
    · intro table
      refine ((columnChanges_changesOf_perm table).map (table, ·)).trans (.of_eq ?_)
      have hall := map_filterMap_ofTable some d.columns table
      rwa [List.filterMap_some, picked_some] at hall
    · intro item hitem
      obtain ⟨entry, hentry, rfl⟩ := List.mem_map.1 hitem
      exact mem_changedTables_of_column hentry
  addedColumns := eachOnce_picked (fun _ => getD_nonEmpty? _) fun _ => mem_changedTables_of_column
  alteredColumns := eachOnce_picked (fun _ => getD_nonEmpty? _) fun _ => mem_changedTables_of_column
  droppedColumns := eachOnce_picked (fun _ => getD_nonEmpty? _) fun _ => mem_changedTables_of_column
  addedIndexes := eachOnce_picked (fun _ => getD_nonEmpty? _) fun _ => mem_changedTables_of_index
  droppedIndexes := eachOnce_picked (fun _ => getD_nonEmpty? _) fun _ => mem_changedTables_of_index
  droppedKeys := by
    apply eachOnce_changed
    · intro table
      rw [dropForeignKeys_changesOf, map_filter_table]
    · intro item hitem
      obtain ⟨key, hkey, rfl⟩ := List.mem_map.1 hitem
      rw [← filterMap_droppedKey?] at hkey
      obtain ⟨r, hr, hdropped⟩ := List.mem_filterMap.1 hkey
      exact mem_changedTables_of_key hr (.inl hdropped)

/-! ## The foreign keys that are added -/

theorem createdKeys_sublist : d.createdKeys.Sublist d.newKeys :=
  List.filter_sublist.filterMap _

theorem addForeignKeys_changesOf (table : String) :
    (d.changesOf table).addForeignKeys =
      (d.newKeys.filter fun key => !d.tablesToCreate.any (·.name == key.referencing.table)).filter
        (·.referencing.table == table) := by
  rw [newKeys, List.filter_filterMap]
  exact getD_nonEmpty? _

/-- Every key is added where it belongs. -/
theorem table_of_mem_addedKeys {t : TableDiff} (ht : t ∈ d.tableDiffs) {key : Relationship}
    (hkey : key ∈ t.addedKeys) : key.referencing.table = t.table := by
  rcases mem_tableDiffs.1 ht with ⟨created, _, rfl⟩ | ⟨table, _, rfl⟩
  · simpa [TableDiff.table] using (List.mem_filter.1 hkey).2
  · exact (mem_addForeignKeys_changesOf.1 hkey).2

/-- How often a key is added: for each of the created tables of its name if it is created, and as often as
it is desired if its table is none of them. -/
theorem count_addedKeys (key : Relationship) :
    (d.tableDiffs.flatMap TableDiff.addedKeys).count key =
      (d.tablesToCreate.map (·.name)).count key.referencing.table * d.createdKeys.count key +
        if key.referencing.table ∈ d.tablesToCreate.map (·.name) then 0 else d.newKeys.count key := by
  have hchanged : (d.changedTables.flatMap fun table => (d.changesOf table).addForeignKeys).Perm
      (d.newKeys.filter fun key => !d.tablesToCreate.any (·.name == key.referencing.table)) := by
    simp only [addForeignKeys_changesOf]
    apply perm_flatMap_filter nodup_changedTables
    intro key hkey
    rw [newKeys, List.filter_filterMap] at hkey
    obtain ⟨r, hr, hadded⟩ := List.mem_filterMap.1 hkey
    exact mem_changedTables_of_key hr (.inr hadded)
  have hcreated : (d.tablesToCreate.flatMap fun t => (d.definitionOf t).foreignKeys) =
      (d.tablesToCreate.map (·.name)).flatMap fun name =>
        d.createdKeys.filter (·.referencing.table == name) := by
    rw [List.flatMap_map]
    rfl
  rw [tableDiffs_flatMap, List.count_append]
  congr 1
  · exact (congrArg (List.count key) hcreated).trans (count_flatMap_filter _ _ _ _)
  · refine (hchanged.count_eq key).trans ?_
    split
    · exact List.count_eq_zero_of_not_mem (by simp_all)
    · exact List.count_filter (by simp_all)

/-- No key is both created and altered. -/
def Settled (d : SchemaDiff) : Prop :=
  ∀ r ∈ d.relationships, ∀ other ∈ d.relationships, ∀ key, r.change.new? = some key →
    other.change.new? = some key → r.change.isCreate = other.change.isCreate

theorem mem_newKeys {key : Relationship} :
    key ∈ d.newKeys ↔ ∃ r ∈ d.relationships, r.change.new? = some key := List.mem_filterMap

theorem mem_createdKeys {key : Relationship} :
    key ∈ d.createdKeys ↔
      ∃ r ∈ d.relationships, r.change.isCreate = true ∧ r.change.new? = some key := by
  simp only [createdKeys, List.mem_filterMap, List.mem_filter, and_assoc]

/-- A key is created as often as it is desired, if it is nowhere altered. -/
theorem count_createdKeys {key : Relationship}
    (h : ∀ r ∈ d.relationships, r.change.new? = some key → r.change.isCreate = true) :
    d.createdKeys.count key = d.newKeys.count key := by
  rw [createdKeys, newKeys, List.count_filterMap, List.count_filterMap, List.countP_filter]
  apply List.countP_congr
  intro r hr
  simp only [Bool.and_eq_true, beq_iff_eq]
  exact and_iff_left_of_imp (h r hr)

/-- All keys are added once exactly if those of created tables are created, each of them for one table
only. -/
theorem perm_addedKeys_iff (hd : d.Settled) :
    (d.tableDiffs.flatMap TableDiff.addedKeys).Perm d.newKeys ↔
      ∀ r ∈ d.relationships, ∀ key, r.change.new? = some key →
        key.referencing.table ∈ d.tablesToCreate.map (·.name) →
          r.change.isCreate = true ∧
            (d.tablesToCreate.map (·.name)).count key.referencing.table = 1 := by
  constructor
  · intro h r hr key hnew hcreated
    have hcount := h.count_eq key
    rw [count_addedKeys, if_pos hcreated, Nat.add_zero] at hcount
    have hpositive : 0 < d.newKeys.count key := List.count_pos_iff.2 (mem_newKeys.2 ⟨r, hr, hnew⟩)
    have hmem : key ∈ d.createdKeys := by
      apply List.count_pos_iff.1
      apply Nat.pos_of_ne_zero
      intro hzero
      rw [hzero, Nat.mul_zero] at hcount
      omega
    obtain ⟨other, hother, hcreate, hother'⟩ := mem_createdKeys.1 hmem
    have hall : ∀ r ∈ d.relationships, r.change.new? = some key → r.change.isCreate = true :=
      fun r hr hnew => (hd r hr other hother key hnew hother').trans hcreate
    rw [count_createdKeys hall] at hcount
    exact ⟨hall r hr hnew, Nat.eq_of_mul_eq_mul_right hpositive (hcount.trans (Nat.one_mul _).symm)⟩
  · intro h
    apply List.perm_iff_count.2
    intro key
    rw [count_addedKeys]
    by_cases hcreated : key.referencing.table ∈ d.tablesToCreate.map (·.name)
    · rw [if_pos hcreated, Nat.add_zero]
      rw [count_createdKeys fun r hr hnew => (h r hr key hnew hcreated).1]
      by_cases hmem : key ∈ d.newKeys
      · obtain ⟨r, hr, hnew⟩ := mem_newKeys.1 hmem
        rw [(h r hr key hnew hcreated).2, Nat.one_mul]
      · rw [List.count_eq_zero_of_not_mem hmem, Nat.mul_zero]
    · rw [if_neg hcreated, List.count_eq_zero_of_not_mem hcreated, Nat.zero_mul, Nat.zero_add]

/-- Added keys stand with their own tables and in order, so all that matters is how often each is added. -/
theorem eachOnce_addedKeys_iff :
    TableDiff.EachOnce d.tableDiffs TableDiff.addedKeys (withTables d.newKeys) ↔
      (d.tableDiffs.flatMap TableDiff.addedKeys).Perm d.newKeys := by
  have hown : ∀ t ∈ d.tableDiffs, t.addedKeys.map (t.table, ·) = withTables t.addedKeys := by
    intro t ht
    apply List.map_congr_left
    intro key hkey
    rw [table_of_mem_addedKeys ht hkey]
  have hsublist : ∀ t ∈ d.tableDiffs, t.addedKeys.Sublist d.newKeys := by
    intro t ht
    rcases mem_tableDiffs.1 ht with ⟨created, _, rfl⟩ | ⟨table, _, rfl⟩
    · exact List.filter_sublist.trans createdKeys_sublist
    · show (d.changesOf table).addForeignKeys.Sublist d.newKeys
      rw [addForeignKeys_changesOf]
      exact List.filter_sublist.trans List.filter_sublist
  have hall : (d.tableDiffs.flatMap fun t => t.addedKeys.map (t.table, ·)) =
      withTables (d.tableDiffs.flatMap TableDiff.addedKeys) :=
    (List.flatMap_congr hown).trans List.map_flatMap.symm
  have hinjective : Function.Injective fun key : Relationship => (key.referencing.table, key) :=
    fun _ _ h => (Prod.mk.inj h).2
  constructor
  · intro h
    have honce := h.once
    rw [hall] at honce
    exact (List.map_perm_map_iff hinjective).1 honce
  · intro h
    constructor
    · rw [hall]
      exact h.map _
    · intro t ht
      rw [hown t ht]
      exact (hsublist t ht).map _

end SchemaDiff

namespace Schema

variable {desired current : Schema} {o : DiffOptions}

/-- Whether a desired key is created or altered is told by its match alone. -/
theorem settled_diff : (desired.diff current o).Settled := by
  intro r hr other hother key hnew hother'
  have hrequires := (mem_relationships_diff.1 (List.mem_map.2 ⟨r, hr, rfl⟩)).2
  have hrequires' := (mem_relationships_diff.1 (List.mem_map.2 ⟨other, hother, rfl⟩)).2
  exact Bool.eq_iff_iff.2
    ((hrequires.isCreate_iff hnew).trans (hrequires'.isCreate_iff hother').symm)

theorem nodup_tablesToCreate (hdesired : desired.tables.IsNamed Table.name) :
    ((desired.diff current o).tablesToCreate.map (·.name)).Nodup :=
  (List.filter_sublist.map _).nodup (nodup_comparedTables hdesired)

/-- Where tables stand under their own names, foreign keys are added once exactly if no altered one belongs
to a created table. -/
theorem eachOnce_addedKeys_diff_iff (hdesired : desired.tables.IsNamed Table.name) :
    let d := desired.diff current o
    TableDiff.EachOnce d.tableDiffs TableDiff.addedKeys (SchemaDiff.withTables d.newKeys) ↔
      ∀ r ∈ d.relationships, ∀ old new, r.change = .alter old new →
        new.referencing.table ∉ d.tablesToCreate.map (·.name) := by
  intro d
  refine (SchemaDiff.eachOnce_addedKeys_iff.trans (SchemaDiff.perm_addedKeys_iff settled_diff)).trans ?_
  constructor
  · intro h r hr old new hchange hcreated
    have hcreate := (h r hr new (by rw [hchange]; rfl) hcreated).1
    rw [hchange] at hcreate
    cases hcreate
  · intro h r hr key hnew hcreated
    refine ⟨?_, List.count_eq_one_of_mem (nodup_tablesToCreate hdesired) hcreated⟩
    cases hchange : r.change with
    | create _ => rfl
    | alter old new =>
      rw [hchange] at hnew
      cases hnew
      exact absurd hcreated (h r hr old key hchange)
    | drop _ =>
      rw [hchange] at hnew
      cases hnew

/-- Sorting the differences of two schemas by table distributes all that happens to columns and indexes and
all foreign keys that are dropped. The foreign keys that are added are distributed as well exactly if those
of created tables are created, each of them for one table only. -/
theorem distributes_tableDiffs (desired current : Schema) (o : DiffOptions) :
    let d := desired.diff current o
    d.Distributes d.tableDiffs ∧
      (TableDiff.EachOnce d.tableDiffs TableDiff.addedKeys (SchemaDiff.withTables d.newKeys) ↔
        ∀ r ∈ d.relationships, ∀ key, r.change.new? = some key →
          key.referencing.table ∈ d.tablesToCreate.map (·.name) →
            r.change.isCreate = true ∧
              (d.tablesToCreate.map (·.name)).count key.referencing.table = 1) :=
  ⟨SchemaDiff.distributes _,
    SchemaDiff.eachOnce_addedKeys_iff.trans (SchemaDiff.perm_addedKeys_iff settled_diff)⟩

/-- A new table takes a foreign key over from another one of whose name and column its own are made up: it is
created without the key. -/
theorem loses_key_taken_over :
    let id : Column := { name := "id", type := .integer .regular, isPrimaryKey := true }
    let column (name : String) : Column := { name, type := .integer .regular }
    let user := Table.addColumn { name := "User" } id
    let key (table column : String) : Relationship :=
      { name := "fk_audit_log_user", referencing := ⟨table, [column]⟩, referenced := ⟨"User", ["id"]⟩ }
    let desired : Schema :=
      { tables := Assoc.ofPairs
          [("User", user), ("audit", (Table.addColumn { name := "audit" } id).addColumn (column "log_user"))]
        relationships := Assoc.ofPairs [("fk_audit_log_user", key "audit" "log_user")] }
    let current : Schema :=
      { tables := Assoc.ofPairs
          [("User", user), ("audit_log", (Table.addColumn { name := "audit_log" } id).addColumn (column "user"))]
        relationships := Assoc.ofPairs [("fk_audit_log_user", key "audit_log" "user")] }
    let d := desired.diff current {}
    d.newKeys = [key "audit" "log_user"] ∧
      d.tableDiffs = [.create "audit" (some
        { table := (Table.addColumn { name := "audit" } id).addColumn (column "log_user") })] ∧
      ¬TableDiff.EachOnce d.tableDiffs TableDiff.addedKeys (SchemaDiff.withTables d.newKeys) := by
  decide +kernel

end Schema

end EntitySql
