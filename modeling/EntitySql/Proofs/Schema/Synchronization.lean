import EntitySql.Proofs.Schema.Following
/-!
# One synchronization is enough

Editing the current schema as its differences from the desired one say leaves nothing to say
(`Schema.tableDiffs_synchronized`). Tables that are not desired stay, since no statement drops them, and
their foreign keys stay with them.
-/

namespace EntitySql

namespace SchemaDiff

variable {d : SchemaDiff} {table : String}

theorem mem_changedTables :
    table ∈ d.changedTables ↔ table ∈ d.columns.map Prod.fst ∨ table ∈ d.indexes.map Prod.fst ∨
      ∃ r ∈ d.relationships, ∃ key, (d.droppedKey? r = some key ∨ d.addedKey? r = some key) ∧
        key.referencing.table = table := by
  simp only [changedTables, List.mem_eraseDups, List.mem_append, List.mem_flatMap, List.mem_map,
    Option.mem_toList, or_assoc]

theorem mem_changedTables_of_column {entry : String × Difference Column} (h : entry ∈ d.columns) :
    entry.1 ∈ d.changedTables :=
  mem_changedTables.2 (.inl (List.mem_map.2 ⟨entry, h, rfl⟩))

theorem mem_changedTables_of_index {entry : String × Difference Index} (h : entry ∈ d.indexes) :
    entry.1 ∈ d.changedTables :=
  mem_changedTables.2 (.inr (.inl (List.mem_map.2 ⟨entry, h, rfl⟩)))

theorem mem_changedTables_of_key {r : Difference Relationship} (hr : r ∈ d.relationships)
    {key : Relationship} (h : d.droppedKey? r = some key ∨ d.addedKey? r = some key) :
    key.referencing.table ∈ d.changedTables :=
  mem_changedTables.2 (.inr (.inr ⟨r, hr, key, h, rfl⟩))

theorem nodup_changedTables : d.changedTables.Nodup := nodup_eraseDups _

theorem addedKey?_eq_some_iff {r : Difference Relationship} {key : Relationship} :
    d.addedKey? r = some key ↔
      r.change.new? = some key ∧ key.referencing.table ∉ d.tablesToCreate.map (·.name) := by
  simp [addedKey?, Option.filter_eq_some_iff]

theorem droppedKey?_eq_some_iff {r : Difference Relationship} {key : Relationship} :
    d.droppedKey? r = some key ↔
      r.change.old? = some key ∧ key.referencing.table ∉ d.tablesToDrop.map (·.name) := by
  simp [droppedKey?, Option.filter_eq_some_iff]

theorem mem_addForeignKeys_changesOf {key : Relationship} :
    key ∈ (d.changesOf table).addForeignKeys ↔
      (∃ r ∈ d.relationships, d.addedKey? r = some key) ∧ key.referencing.table = table := by
  simp [TableChanges.addForeignKeys, changesOf]

theorem mem_dropForeignKeys_changesOf {key : Relationship} :
    key ∈ (d.changesOf table).dropForeignKeys ↔
      (∃ r ∈ d.relationships, d.droppedKey? r = some key) ∧ key.referencing.table = table := by
  simp [TableChanges.dropForeignKeys, changesOf]

theorem mem_tableDiffs {diff : TableDiff} :
    diff ∈ d.tableDiffs ↔ (∃ t ∈ d.tablesToCreate, diff = .create t.name (some (d.definitionOf t))) ∨
      ∃ table ∈ d.changedTables, diff = .alter table (d.changesOf table) := by
  simp [tableDiffs, eq_comm]

theorem exists_of_mem_addedKeys {diff : TableDiff} (hdiff : diff ∈ d.tableDiffs) {key : Relationship}
    (hkey : key ∈ diff.addedKeys) : ∃ r ∈ d.relationships, r.change.new? = some key := by
  rcases mem_tableDiffs.1 hdiff with ⟨t, _, rfl⟩ | ⟨table, _, rfl⟩
  · simp only [TableDiff.addedKeys, definitionOf, List.mem_filter, List.mem_filterMap] at hkey
    obtain ⟨⟨r, ⟨hr, _⟩, hnew⟩, _⟩ := hkey
    exact ⟨r, hr, hnew⟩
  · obtain ⟨⟨r, hr, hadded⟩, _⟩ := mem_addForeignKeys_changesOf.1 hkey
    exact ⟨r, hr, (addedKey?_eq_some_iff.1 hadded).1⟩

theorem exists_mem_addedKeys {r : Difference Relationship} (hr : r ∈ d.relationships)
    {key : Relationship} (hnew : r.change.new? = some key)
    (hcreate : key.referencing.table ∈ d.tablesToCreate.map (·.name) → r.change.isCreate = true) :
    ∃ diff ∈ d.tableDiffs, key ∈ diff.addedKeys := by
  by_cases hcreated : key.referencing.table ∈ d.tablesToCreate.map (·.name)
  · obtain ⟨t, ht, hname⟩ := List.mem_map.1 hcreated
    refine ⟨_, mem_tableDiffs.2 (.inl ⟨t, ht, rfl⟩), ?_⟩
    simp only [TableDiff.addedKeys, definitionOf, List.mem_filter, List.mem_filterMap, beq_iff_eq]
    exact ⟨⟨r, ⟨hr, hcreate hcreated⟩, hnew⟩, hname.symm⟩
  · have hadded := addedKey?_eq_some_iff.2 ⟨hnew, hcreated⟩
    refine ⟨_, mem_tableDiffs.2 (.inr ⟨key.referencing.table, ?_, rfl⟩), ?_⟩
    · exact mem_changedTables_of_key hr (.inr hadded)
    · exact mem_addForeignKeys_changesOf.2 ⟨⟨r, hr, hadded⟩, rfl⟩

theorem exists_of_mem_goneKeys {diff : TableDiff} (hdiff : diff ∈ d.tableDiffs) {name : String}
    (hname : name ∈ diff.goneKeys) :
    ∃ r ∈ d.relationships, ∃ key, d.droppedKey? r = some key ∧ key.name = name ∧
      diff = .alter key.referencing.table (d.changesOf key.referencing.table) := by
  rcases mem_tableDiffs.1 hdiff with ⟨t, _, rfl⟩ | ⟨table, _, rfl⟩
  · cases hname
  · obtain ⟨key, hkey, rfl⟩ := List.mem_map.1 hname
    obtain ⟨⟨r, hr, hdropped⟩, rfl⟩ := mem_dropForeignKeys_changesOf.1 hkey
    exact ⟨r, hr, key, hdropped, rfl, rfl⟩

theorem exists_mem_goneKeys {r : Difference Relationship} (hr : r ∈ d.relationships)
    {key : Relationship} (hdropped : d.droppedKey? r = some key) :
    ∃ diff ∈ d.tableDiffs, key.name ∈ diff.goneKeys := by
  refine ⟨_, mem_tableDiffs.2 (.inr ⟨key.referencing.table, ?_, rfl⟩), List.mem_map.2 ⟨key, ?_, rfl⟩⟩
  · exact mem_changedTables_of_key hr (.inl hdropped)
  · exact mem_dropForeignKeys_changesOf.2 ⟨⟨r, hr, hdropped⟩, rfl⟩

end SchemaDiff

namespace Schema

/-- Everything stands under its own name, indexes of one table have distinct names, and relationships
join tables that exist. -/
structure IsSound (s : Schema) : Prop extends s.IsNamed where
  indexes : ∀ t ∈ s.tables.values, (t.indexes.map Index.name).Nodup
  joined : ∀ r ∈ s.relationships.values,
    r.referencing.table ∈ s.tables.keys ∧ r.referenced.table ∈ s.tables.keys

instance (s : Schema) : Decidable s.IsSound :=
  decidable_of_iff
    (s.IsNamed ∧ (∀ t ∈ s.tables.values, (t.indexes.map Index.name).Nodup) ∧
      ∀ r ∈ s.relationships.values,
        r.referencing.table ∈ s.tables.keys ∧ r.referenced.table ∈ s.tables.keys)
    ⟨fun ⟨named, indexes, joined⟩ => { toIsNamed := named, indexes, joined },
      fun h => ⟨h.toIsNamed, h.indexes, h.joined⟩⟩

/-- Whether relationships that have one name in both schemas belong to one table. -/
def KeepsOwners (desired current : Schema) : Prop :=
  ∀ r ∈ desired.relationships.values, ∀ old ∈ current.relationships.values, r.name = old.name →
    r.referencing.table = old.referencing.table

instance (desired current : Schema) : Decidable (desired.KeepsOwners current) :=
  inferInstanceAs (Decidable (∀ r ∈ _, ∀ old ∈ _, _ → _))

/-- The current schema edited as its differences from the desired one say. -/
def synchronized (desired current : Schema) (o : DiffOptions) : Schema :=
  current.edited (desired.diff current o).tableDiffs

section Exact

variable {desired current : Schema} {o : DiffOptions} (ho : o.ignoreCase = false)

include ho

/-- The names of the tables of one schema that the other one does not have. -/
theorem mem_names_iff {s other : Schema} (hs : s.tables.IsNamed Table.name) {tables : List Table}
    (h : ∀ t, t ∈ tables ↔ t ∈ s.comparedTables o ∧ o.findTable? other t.name = none)
    {name : String} :
    name ∈ tables.map (·.name) ↔
      name ∈ s.tables.keys ∧ o.excludes name = false ∧ name ∉ other.tables.keys := by
  simp only [List.mem_map, h, mem_comparedTables hs, DiffOptions.findTable?_of_exact ho, table?,
    Assoc.get?_eq_none_iff]
  constructor
  · rintro ⟨t, ⟨⟨hget, hcounts⟩, hnone⟩, rfl⟩
    exact ⟨Assoc.mem_keys_iff.2 ⟨t, hget⟩, hcounts, hnone⟩
  · rintro ⟨hmem, hcounts, hnone⟩
    obtain ⟨t, hget⟩ := Assoc.mem_keys_iff.1 hmem
    obtain rfl := hs name t hget
    exact ⟨t, ⟨⟨hget, hcounts⟩, hnone⟩, rfl⟩

theorem mem_created_iff (hdesired : desired.tables.IsNamed Table.name) {name : String} :
    name ∈ (desired.diff current o).tablesToCreate.map (·.name) ↔
      name ∈ desired.tables.keys ∧ o.excludes name = false ∧ name ∉ current.tables.keys :=
  mem_names_iff ho hdesired fun _ => mem_tablesToCreate

theorem mem_dropped_iff (hcurrent : current.tables.IsNamed Table.name) {name : String} :
    name ∈ (desired.diff current o).tablesToDrop.map (·.name) ↔
      name ∈ current.tables.keys ∧ o.excludes name = false ∧ name ∉ desired.tables.keys :=
  mem_names_iff ho hcurrent fun _ => mem_tablesToDrop

theorem mem_matched_iff (hdesired : desired.tables.IsNamed Table.name) {new old : Table} :
    (new, old) ∈ matchedTables desired current o ↔
      desired.table? new.name = some new ∧ o.excludes new.name = false ∧
        current.table? new.name = some old := by
  rw [mem_matchedTables, mem_comparedTables hdesired, DiffOptions.findTable?_of_exact ho, and_assoc]

/-- The differences of the items of a table are those of its one match. -/
theorem mem_ofTable_flatMap {α : Type} (hdesired : desired.tables.IsNamed Table.name)
    (differences : Table → Table → List (Difference α)) {new old : Table}
    (h : (new, old) ∈ matchedTables desired current o) {change : Change α} :
    change ∈ SchemaDiff.ofTable new.name ((matchedTables desired current o).flatMap fun pair =>
        (differences pair.1 pair.2).map fun d => (pair.1.name, d)) ↔
      change ∈ (differences new old).map (·.change) := by
  simp only [SchemaDiff.ofTable, List.mem_map, List.mem_filter, List.mem_flatMap, beq_iff_eq]
  constructor
  · rintro ⟨_, ⟨⟨⟨new', old'⟩, hmatch, d, hd, rfl⟩, hname⟩, rfl⟩
    dsimp only at hname
    rw [mem_matched_iff ho hdesired] at h hmatch
    rw [hname] at hmatch
    obtain rfl := Option.some.inj (hmatch.1.symm.trans h.1)
    obtain rfl := Option.some.inj (hmatch.2.2.symm.trans h.2.2)
    exact ⟨d, hd, rfl⟩
  · rintro ⟨d, hd, rfl⟩
    exact ⟨_, ⟨⟨(new, old), h, d, hd, rfl⟩, rfl⟩, rfl⟩

theorem mem_ofTable_columns (hdesired : desired.tables.IsNamed Table.name) {new old : Table}
    (h : (new, old) ∈ matchedTables desired current o) (change : Change Column) :
    change ∈ SchemaDiff.ofTable new.name (desired.diff current o).columns ↔
      Column.rules.Requires id (fun _ => true) new.columns.values old.columns.values change := by
  rw [← ItemRules.mem_map_change_iff, ← DiffOptions.fold_of_exact ho]
  exact mem_ofTable_flatMap ho hdesired
    (fun new old => Column.rules.differences o.fold _ new.columns.values old.columns.values) h

theorem mem_ofTable_indexes (hdesired : desired.tables.IsNamed Table.name) {new old : Table}
    (h : (new, old) ∈ matchedTables desired current o) (hcompare : o.compareIndexes = true)
    (change : Change Index) :
    change ∈ SchemaDiff.ofTable new.name (desired.diff current o).indexes ↔
      (Index.rules id).Requires id (fun _ => true) new.indexes old.indexes change := by
  rw [← ItemRules.mem_map_change_iff, ← DiffOptions.fold_of_exact ho, diff, if_pos hcompare]
  exact mem_ofTable_flatMap ho hdesired
    (fun new old => (Index.rules o.fold).differences o.fold _ new.indexes old.indexes) h

theorem requires_of_mem {r : Difference Relationship}
    (hr : r ∈ (desired.diff current o).relationships) :
    (Relationship.rules id).Requires id (fun r => !o.excludes r.referencing.table)
      desired.relationships.values current.relationships.values r.change := by
  have hrequires := (mem_relationships_diff.1 (List.mem_map.2 ⟨r, hr, rfl⟩)).2
  rwa [DiffOptions.fold_of_exact ho] at hrequires

end Exact

theorem isNamed_synchronized (desired : Schema) {current : Schema} (hcurrent : current.IsNamed)
    (o : DiffOptions) :
    (synchronized desired current o).tables.IsNamed Table.name ∧
      (synchronized desired current o).relationships.IsNamed Relationship.name :=
  isNamed_edited hcurrent.tables hcurrent.relationships _

/-! ## The relationships of the synchronized schema -/

/-- Whether the relationship counts and its table is not one of those to drop. -/
def stays (desired current : Schema) (o : DiffOptions) (r : Relationship) : Bool :=
  !o.excludes r.referencing.table &&
    !(desired.diff current o).tablesToDrop.any (·.name == r.referencing.table)

theorem stays_iff {desired current : Schema} {o : DiffOptions} {r : Relationship} :
    stays desired current o r = true ↔ o.excludes r.referencing.table = false ∧
      r.referencing.table ∉ (desired.diff current o).tablesToDrop.map (·.name) := by
  simp [stays]

section Synchronized

variable {desired current : Schema} {o : DiffOptions} (ho : o.ignoreCase = false)
  (hdesired : desired.IsSound) (hcurrent : current.IsSound)

include ho hdesired hcurrent

/-- No relationship that is desired belongs to a table to drop. -/
theorem stays_of_mem {r : Relationship} (hr : r ∈ desired.relationships.values) :
    stays desired current o r = !o.excludes r.referencing.table := by
  have hkept : r.referencing.table ∉ (desired.diff current o).tablesToDrop.map (·.name) :=
    fun h => ((mem_dropped_iff ho hcurrent.tables).1 h).2.2 (hdesired.joined r hr).1
  rw [Bool.eq_iff_iff, stays_iff, Bool.not_eq_true']
  exact and_iff_left hkept

/-- The changes of relationships that are carried out. -/
theorem requires_stays_iff {change : Change Relationship} :
    (Relationship.rules id).Requires id (stays desired current o) desired.relationships.values
        current.relationships.values change ↔
      (Relationship.rules id).Requires id (fun r => !o.excludes r.referencing.table)
          desired.relationships.values current.relationships.values change ∧
        ∀ old, change = .drop old →
          old.referencing.table ∉ (desired.diff current o).tablesToDrop.map (·.name) := by
  cases change with
  | create new | alter _ new =>
    constructor
    · intro h
      exact ⟨⟨h.1, (stays_of_mem ho hdesired hcurrent h.1).symm.trans h.2.1, h.2.2⟩, nofun⟩
    · rintro ⟨h, _⟩
      exact ⟨h.1, (stays_of_mem ho hdesired hcurrent h.1).trans h.2.1, h.2.2⟩
  | drop old =>
    simp only [ItemRules.Requires, stays_iff, Bool.not_eq_true', Change.drop.injEq, forall_eq']
    exact ⟨fun h => ⟨⟨h.1, h.2.1.1, h.2.2⟩, h.2.1.2⟩, fun h => ⟨h.1.1, ⟨h.1.2.1, h.2⟩, h.1.2.2⟩⟩

variable (howners : desired.KeepsOwners current) (hcompare : o.compareRelationships = true)

include hcompare

theorem exists_difference {change : Change Relationship}
    (h : (Relationship.rules id).Requires id (stays desired current o) desired.relationships.values
      current.relationships.values change) :
    ∃ r ∈ (desired.diff current o).relationships, r.change = change := by
  have hrequires := ((requires_stays_iff ho hdesired hcurrent).1 h).1
  rw [← DiffOptions.fold_of_exact ho] at hrequires
  exact List.mem_map.1 (mem_relationships_diff.2 ⟨hcompare, hrequires⟩)

omit hcompare in
theorem requires_stays_of_mem {r : Difference Relationship}
    (hr : r ∈ (desired.diff current o).relationships)
    (hdrop : ∀ old, r.change = .drop old →
      old.referencing.table ∉ (desired.diff current o).tablesToDrop.map (·.name)) :
    (Relationship.rules id).Requires id (stays desired current o) desired.relationships.values
      current.relationships.values r.change := by
  exact (requires_stays_iff ho hdesired hcurrent).2 ⟨requires_of_mem ho hr, hdrop⟩

include howners

theorem mem_addedKeys_iff (key : Relationship) :
    (∃ diff ∈ (desired.diff current o).tableDiffs, key ∈ diff.addedKeys) ↔
      ∃ change, (Relationship.rules id).Requires id (stays desired current o)
        desired.relationships.values current.relationships.values change ∧
          change.new? = some key := by
  constructor
  · rintro ⟨diff, hdiff, hkey⟩
    obtain ⟨r, hr, hnew⟩ := SchemaDiff.exists_of_mem_addedKeys hdiff hkey
    refine ⟨r.change, requires_stays_of_mem ho hdesired hcurrent hr fun old hold => ?_, hnew⟩
    rw [hold] at hnew
    cases hnew
  · rintro ⟨change, hrequires, hnew⟩
    obtain ⟨r, hr, rfl⟩ := exists_difference ho hdesired hcurrent hcompare hrequires
    refine SchemaDiff.exists_mem_addedKeys hr hnew fun hcreated => ?_
    -- A key that is altered belongs to a table that exists.
    cases hchange : r.change with
    | create _ => rfl
    | drop _ => simp [hchange, Change.new?] at hnew
    | alter old new =>
      rw [hchange] at hrequires hnew
      cases hnew
      obtain ⟨hold, hname⟩ := hrequires.current_of_old? rfl
      have howner := howners key hrequires.1 old hold hname
      exact absurd (howner ▸ (hcurrent.joined old hold).1)
        ((mem_created_iff ho hdesired.tables).1 hcreated).2.2

theorem mem_goneKeys_iff (name : String) :
    (∃ diff ∈ (desired.diff current o).tableDiffs, name ∈ diff.goneKeys) ↔
      ∃ change, (Relationship.rules id).Requires id (stays desired current o)
        desired.relationships.values current.relationships.values change ∧
          ∃ old, change.old? = some old ∧ old.name = name := by
  constructor
  · rintro ⟨diff, hdiff, hname⟩
    obtain ⟨r, hr, key, hdropped, rfl, _⟩ := SchemaDiff.exists_of_mem_goneKeys hdiff hname
    obtain ⟨hold, hkept⟩ := SchemaDiff.droppedKey?_eq_some_iff.1 hdropped
    refine ⟨r.change, requires_stays_of_mem ho hdesired hcurrent hr fun old hchange => ?_,
      key, hold, rfl⟩
    rw [hchange] at hold
    cases hold
    exact hkept
  · rintro ⟨change, hrequires, old, hold, rfl⟩
    obtain ⟨r, hr, rfl⟩ := exists_difference ho hdesired hcurrent hcompare hrequires
    refine SchemaDiff.exists_mem_goneKeys hr (SchemaDiff.droppedKey?_eq_some_iff.2 ⟨hold, ?_⟩)
    cases hchange : r.change with
    | create _ => simp [hchange, Change.old?] at hold
    | drop _ =>
      rw [hchange] at hrequires hold
      cases hold
      exact (stays_iff.1 hrequires.2.1).2
    | alter _ new =>
      rw [hchange] at hrequires hold
      cases hold
      obtain ⟨hmem, hname⟩ := hrequires.current_of_old? rfl
      rw [← howners new hrequires.1 old hmem hname]
      exact (stays_iff.1 hrequires.2.1).2

theorem get?_relationships_synchronized (name : String) :
    (synchronized desired current o).relationships.get? name =
      if ∃ diff ∈ (desired.diff current o).tableDiffs, name ∈ diff.addedKeys.map (·.name) then
        desired.relationships.get? name
      else if ∃ diff ∈ (desired.diff current o).tableDiffs, name ∈ diff.goneKeys then none
      else current.relationships.get? name := by
  refine get?_relationships_edited (fun diff hdiff r hr hname => ?_) ?_
  · obtain ⟨change, hrequires, hnew⟩ :=
      (mem_addedKeys_iff ho hdesired hcurrent howners hcompare r).1 ⟨diff, hdiff, hr⟩
    rw [← hname]
    exact hdesired.relationships.get?_of_mem (hrequires.desired_of_new? hnew).1
  · intro diff hdiff hgone other hother hadded
    -- Whoever drops a key is the table that owns it, and the same table adds it again.
    obtain ⟨dropping, hdropping, old, hdropped, hold, rfl⟩ :=
      SchemaDiff.exists_of_mem_goneKeys hdiff hgone
    obtain ⟨new, hnew, hname⟩ := List.mem_map.1 hadded
    obtain ⟨adding, hadding, hchange⟩ := SchemaDiff.exists_of_mem_addedKeys hother hnew
    have hdesired' := ((requires_of_mem ho hadding).desired_of_new? hchange).1
    have hcurrent' := ((requires_of_mem ho hdropping).current_of_old?
      (SchemaDiff.droppedKey?_eq_some_iff.1 hdropped).1).1
    have howner := howners new hdesired' old hcurrent' (hname.trans hold.symm)
    have hexists : new.referencing.table ∉ (desired.diff current o).tablesToCreate.map (·.name) :=
      fun hcreated => ((mem_created_iff ho hdesired.tables).1 hcreated).2.2
        (howner ▸ (hcurrent.joined old hcurrent').1)
    have hadded : (desired.diff current o).addedKey? adding = some new :=
      SchemaDiff.addedKey?_eq_some_iff.2 ⟨hchange, hexists⟩
    exact List.mem_map.2
      ⟨new, SchemaDiff.mem_addForeignKeys_changesOf.2 ⟨⟨adding, hadding, hadded⟩, howner⟩, hname⟩

theorem follows_relationships :
    (Relationship.rules id).Follows (stays desired current o) desired.relationships.values
      current.relationships.values (synchronized desired current o).relationships.values := by
  have hnamed := (isNamed_synchronized desired hcurrent.toIsNamed o).2
  have hadded := mem_addedKeys_iff ho hdesired hcurrent howners hcompare
  have hgone := mem_goneKeys_iff ho hdesired hcurrent howners hcompare
  have hget := get?_relationships_synchronized ho hdesired hcurrent howners hcompare
  -- What is added under a name is desired and needed.
  have hneeded : ∀ {name}, (∃ diff ∈ (desired.diff current o).tableDiffs,
      name ∈ diff.addedKeys.map (·.name)) → ∃ change, (Relationship.rules id).Requires id
        (stays desired current o) desired.relationships.values current.relationships.values change ∧
          ∃ new ∈ desired.relationships.values, change.new? = some new ∧ new.name = name := by
    rintro name ⟨diff, hdiff, hname⟩
    obtain ⟨key, hkey, rfl⟩ := List.mem_map.1 hname
    obtain ⟨change, hrequires, hnew⟩ := (hadded key).1 ⟨diff, hdiff, hkey⟩
    exact ⟨change, hrequires, key, (hrequires.desired_of_new? hnew).1, hnew, rfl⟩
  constructor
  · intro change hrequires new hnew
    obtain ⟨diff, hdiff, hkey⟩ := (hadded new).2 ⟨change, hrequires, hnew⟩
    refine ⟨new, (ItemRules.find?_values hnamed _).trans ?_, new.changes_self id⟩
    refine (hget new.name).trans ((if_pos ⟨diff, hdiff, List.mem_map.2 ⟨new, hkey, rfl⟩⟩).trans ?_)
    exact hdesired.relationships.get?_of_mem (hrequires.desired_of_new? hnew).1
  · intro old hrequires
    refine (ItemRules.find?_values hnamed _).trans ((hget old.name).trans ?_)
    rw [if_neg fun h => ?_, if_pos ((hgone _).2 ⟨_, hrequires, old, rfl, rfl⟩)]
    obtain ⟨_, _, new, hnew, _, hname⟩ := hneeded h
    exact ItemRules.find?_eq_none_iff.1 hrequires.2.2 new hnew hname
  · intro name hidle
    rw [ItemRules.find?_values hnamed, ItemRules.find?_values hcurrent.relationships, hget,
      if_neg fun h => ?_, if_neg fun h => ?_]
    · obtain ⟨change, hrequires, old, hold, hname⟩ := (hgone name).1 h
      exact hidle change hrequires ((hrequires.current_of_old? hold).2.trans hname)
    · obtain ⟨change, hrequires, new, _, hnew, hname⟩ := hneeded h
      exact hidle change hrequires ((ItemRules.subject_of_new? hnew).trans hname)

theorem agrees_relationships :
    (Relationship.rules id).Agrees id (stays desired current o) desired.relationships.values
      (synchronized desired current o).relationships.values := by
  have hnamed := (isNamed_synchronized desired hcurrent.toIsNamed o).2
  refine (follows_relationships ho hdesired hcurrent howners hcompare).agrees
    hdesired.relationships.nodup fun r hr found hfound => ?_
  have hget := (ItemRules.find?_values hnamed _).symm.trans hfound
  rw [show (Relationship.rules id).name r = r.name from rfl, hnamed.get?_of_mem hr] at hget
  rw [Option.some.inj hget]

end Synchronized

/-! ## The tables of the synchronized schema -/

/-- A table is first created, if it does not exist, and then undergoes its changes. -/
theorem unlinked?_synchronized {desired : Schema} (hdesired : desired.tables.IsNamed Table.name)
    (current : Schema) (o : DiffOptions) (name : String) :
    (synchronized desired current o).unlinked? name =
      (if name ∈ (desired.diff current o).tablesToCreate.map (·.name) then desired.unlinked? name
        else current.unlinked? name).map ((desired.diff current o).changesOf name).edit := by
  let d := desired.diff current o
  have hwanted : ∀ t ∈ d.tablesToCreate, t.name = name → desired.table? name = some t := by
    rintro t ht rfl
    exact ((mem_comparedTables hdesired).1 (mem_tablesToCreate.1 ht).1).1
  rw [synchronized, SchemaDiff.tableDiffs, edited, List.foldl_append]
  refine (unlinked?_edited_alters SchemaDiff.nodup_changedTables _ _ _).trans ?_
  rw [← edited, unlinked?_edited_creates (fun _ => rfl) hwanted]
  split
  · rfl
  · have hsame : (d.changesOf name).edit = id :=
      funext (SchemaDiff.edit_changesOf_of_notMem ‹name ∉ d.changedTables›)
    rw [hsame, Option.map_id, id]
    rfl


section Synchronized

variable {desired current : Schema} {o : DiffOptions} (ho : o.ignoreCase = false)
  (hdesired : desired.IsSound) (hcurrent : current.IsSound)

include ho hdesired hcurrent

/-- Only tables that exist are changed. -/
theorem mem_current_of_mem_changedTables {name : String}
    (h : name ∈ (desired.diff current o).changedTables) : name ∈ current.tables.keys := by
  have hmatched : ∀ {new old}, (new, old) ∈ matchedTables desired current o →
      new.name ∈ current.tables.keys := fun h =>
    Assoc.mem_keys_iff.2 ⟨_, ((mem_matched_iff ho hdesired.tables).1 h).2.2⟩
  rcases SchemaDiff.mem_changedTables.1 h with h | h | ⟨r, hr, key, hkey, rfl⟩
  · obtain ⟨_, hmem, rfl⟩ := List.mem_map.1 h
    simp only [diff, List.mem_flatMap, List.mem_map] at hmem
    obtain ⟨⟨new, old⟩, hpair, _, _, rfl⟩ := hmem
    exact hmatched hpair
  · obtain ⟨_, hmem, rfl⟩ := List.mem_map.1 h
    simp only [diff] at hmem
    split at hmem
    · simp only [List.mem_flatMap, List.mem_map] at hmem
      obtain ⟨⟨new, old⟩, hpair, _, _, rfl⟩ := hmem
      exact hmatched hpair
    · cases hmem
  · have hrequires := requires_of_mem ho hr
    rcases hkey with hdropped | hadded
    · have hold := (SchemaDiff.droppedKey?_eq_some_iff.1 hdropped).1
      exact (hcurrent.joined key (hrequires.current_of_old? hold).1).1
    · obtain ⟨hnew, hexists⟩ := SchemaDiff.addedKey?_eq_some_iff.1 hadded
      by_contra hmissing
      refine hexists ((mem_created_iff ho hdesired.tables).2
        ⟨(hdesired.joined key (hrequires.desired_of_new? hnew).1).1, ?_, hmissing⟩)
      simpa using (hrequires.desired_of_new? hnew).2

omit hcurrent in
theorem mem_keys_synchronized_iff {name : String} :
    name ∈ (synchronized desired current o).tables.keys ↔
      name ∈ current.tables.keys ∨ name ∈ desired.tables.keys ∧ o.excludes name = false := by
  have hkeys : ∀ s : Schema, name ∈ s.tables.keys ↔ (s.unlinked? name).isSome = true := fun s => by
    rw [unlinked?, Option.isSome_map, table?, ← Assoc.contains_eq_isSome, Assoc.contains_iff]
  rw [hkeys, unlinked?_synchronized hdesired.tables, Option.isSome_map]
  split
  · have hcreated := (mem_created_iff ho hdesired.tables).1 ‹_›
    exact iff_of_true ((hkeys desired).1 hcreated.1) (.inr ⟨hcreated.1, hcreated.2.1⟩)
  · rw [← hkeys]
    refine ⟨.inl, fun h => h.elim id fun hmissing => ?_⟩
    by_contra hcurrent
    exact ‹¬_› ((mem_created_iff ho hdesired.tables).2 ⟨hmissing.1, hmissing.2, hcurrent⟩)

/-- Desired tables that existed are as the changes make them, and the others as desired. -/
theorem matched_synchronized {new found : Table}
    (h : (new, found) ∈ matchedTables desired (synchronized desired current o) o) :
    (∃ old, (new, old) ∈ matchedTables desired current o ∧
      found.unlinked = (((desired.diff current o).changesOf new.name).edit old).unlinked) ∨
        found.unlinked = new.unlinked := by
  obtain ⟨hnew, hcounts, hfound⟩ := (mem_matched_iff ho hdesired.tables).1 h
  have hedited : (synchronized desired current o).unlinked? new.name = some found.unlinked := by
    rw [unlinked?, hfound, Option.map_some]
  rw [unlinked?_synchronized hdesired.tables] at hedited
  cases hold : current.table? new.name with
  | some old =>
    have hexists : new.name ∈ current.tables.keys := Assoc.mem_keys_iff.2 ⟨old, hold⟩
    rw [if_neg fun hcreated => ((mem_created_iff ho hdesired.tables).1 hcreated).2.2 hexists,
      unlinked?, hold] at hedited
    exact .inl ⟨old, (mem_matched_iff ho hdesired.tables).2 ⟨hnew, hcounts, hold⟩,
      (Option.some.inj hedited).symm.trans TableChanges.edit_unlinked⟩
  | none =>
    have hmissing : new.name ∉ current.tables.keys := Assoc.get?_eq_none_iff.1 hold
    have hcreated := (mem_created_iff ho hdesired.tables).2
      ⟨Assoc.mem_keys_iff.2 ⟨new, hnew⟩, hcounts, hmissing⟩
    have hidle : new.name ∉ (desired.diff current o).changedTables := fun hchanged =>
      hmissing (mem_current_of_mem_changedTables ho hdesired hcurrent hchanged)
    rw [if_pos hcreated, unlinked?, hnew, Option.map_some, Option.map_some,
      SchemaDiff.edit_changesOf_of_notMem hidle] at hedited
    exact .inr (Option.some.inj hedited).symm

theorem columns_diff_synchronized :
    (desired.diff (synchronized desired current o) o).columns = [] := by
  rw [columns_diff_eq_nil_iff, DiffOptions.fold_of_exact ho]
  rintro ⟨new, found⟩ hpair
  have hnew := ((mem_matched_iff ho hdesired.tables).1 hpair).1
  have hcolumns := hdesired.columns new (Assoc.mem_values_of_get? hnew)
  rcases matched_synchronized ho hdesired hcurrent hpair with ⟨old, hmatch, hedited⟩ | hsame
  · have hold := ((mem_matched_iff ho hdesired.tables).1 hmatch).2.2
    rw [Table.columns_of_unlinked hedited]
    exact (SchemaDiff.follows_columns_edit hcolumns
      (hcurrent.columns old (Assoc.mem_values_of_get? hold))
      (mem_ofTable_columns ho hdesired.tables hmatch)).agrees hcolumns.nodup fun _ _ _ _ => rfl
  · rw [Table.columns_of_unlinked hsame]
    exact ItemRules.agrees_self hcolumns.nodup Column.changes_self

theorem indexes_diff_synchronized :
    (desired.diff (synchronized desired current o) o).indexes = [] := by
  rw [indexes_diff_eq_nil_iff, DiffOptions.fold_of_exact ho]
  rintro hcompare ⟨new, found⟩ hpair
  have hnew := ((mem_matched_iff ho hdesired.tables).1 hpair).1
  have hindexes := hdesired.indexes new (Assoc.mem_values_of_get? hnew)
  rcases matched_synchronized ho hdesired hcurrent hpair with ⟨old, hmatch, hedited⟩ | hsame
  · rw [Table.indexes_of_unlinked hedited]
    exact (SchemaDiff.follows_indexes_edit hindexes
      (mem_ofTable_indexes ho hdesired.tables hmatch hcompare)).agrees hindexes fun _ _ _ _ => rfl
  · rw [Table.indexes_of_unlinked hsame]
    exact ItemRules.agrees_self hindexes (Index.changes_self id)

omit hcurrent in
theorem tablesToCreate_synchronized :
    (desired.diff (synchronized desired current o) o).tablesToCreate = [] := by
  rw [← List.map_eq_nil_iff (f := Table.name), List.eq_nil_iff_forall_not_mem]
  intro name hname
  obtain ⟨hmem, hcounts, hmissing⟩ := (mem_created_iff ho hdesired.tables).1 hname
  exact hmissing ((mem_keys_synchronized_iff ho hdesired).2 (.inr ⟨hmem, hcounts⟩))

/-- What is still different of a relationship is that it stands at a table to drop. -/
theorem relationships_synchronized (howners : desired.KeepsOwners current)
    {r : Difference Relationship}
    (hr : r ∈ (desired.diff (synchronized desired current o) o).relationships) :
    (desired.diff (synchronized desired current o) o).droppedKey? r = none ∧
      (desired.diff (synchronized desired current o) o).addedKey? r = none := by
  have hcompare := (mem_relationships_diff.1 (List.mem_map.2 ⟨r, hr, rfl⟩)).1
  have hrequires := requires_of_mem ho hr
  have hidle := ItemRules.agrees_iff.1
    (agrees_relationships ho hdesired hcurrent howners hcompare) r.change
  cases hchange : r.change with
  | create new | alter _ new =>
    rw [hchange] at hrequires hidle
    exact absurd ⟨hrequires.1, (stays_of_mem ho hdesired hcurrent hrequires.1).trans hrequires.2.1,
      hrequires.2.2⟩ hidle
  | drop old =>
    rw [hchange] at hrequires hidle
    have hgoes : ¬stays desired current o old = true := fun hstays =>
      hidle ⟨hrequires.1, hstays, hrequires.2.2⟩
    have hcounts : o.excludes old.referencing.table = false := by simpa using hrequires.2.1
    have hdropped : old.referencing.table ∈
        (desired.diff current o).tablesToDrop.map (·.name) := by
      by_contra hkept
      exact hgoes (stays_iff.2 ⟨hcounts, hkept⟩)
    obtain ⟨hmem, _, hunwanted⟩ := (mem_dropped_iff ho hcurrent.tables).1 hdropped
    have hstill : old.referencing.table ∈
        (desired.diff (synchronized desired current o) o).tablesToDrop.map (·.name) :=
      (mem_dropped_iff ho (isNamed_synchronized desired hcurrent.toIsNamed o).1).2
        ⟨(mem_keys_synchronized_iff ho hdesired).2 (.inl hmem), hcounts, hunwanted⟩
    constructor
    · refine Option.eq_none_iff_forall_ne_some.2 fun key hkey => ?_
      obtain ⟨hold, hkept⟩ := SchemaDiff.droppedKey?_eq_some_iff.1 hkey
      rw [hchange] at hold
      cases hold
      exact hkept hstill
    · refine Option.eq_none_iff_forall_ne_some.2 fun key hkey => ?_
      have hnew := (SchemaDiff.addedKey?_eq_some_iff.1 hkey).1
      rw [hchange] at hnew
      cases hnew

/-- Editing the current schema as its differences from the desired one say leaves nothing to say. -/
theorem tableDiffs_synchronized (howners : desired.KeepsOwners current) :
    (desired.diff (current.edited (desired.diff current o).tableDiffs) o).tableDiffs = [] :=
  SchemaDiff.tableDiffs_eq_nil_iff.2
    ⟨tablesToCreate_synchronized ho hdesired, columns_diff_synchronized ho hdesired hcurrent,
      indexes_diff_synchronized ho hdesired hcurrent,
      fun _ => relationships_synchronized ho hdesired hcurrent howners⟩

end Synchronized

/-- One table is created and another one loses a column and gets an index in place of another; a third
one stays with its foreign key, and nothing more is asked for. -/
theorem tableDiffs_synchronized_members :
    let id : Column := { name := "id", type := .integer .regular, isPrimaryKey := true }
    let user : Table := Table.addColumn { name := "user" } id
    let post : Table := Table.addColumn { name := "post" } id
    let log : Table := Table.addColumn { name := "log" } id
    let toUser (table : String) : Relationship :=
      { name := "fk_" ++ table, referencing := ⟨table, ["id"]⟩, referenced := ⟨"user", ["id"]⟩ }
    let desired : Schema := addForeignKey
      (addTable (addTable {} (user.addIndex { name := "by_id", columns := ["id"], unique := true }))
        post) (toUser "post")
    let current : Schema := addForeignKey
      (addTable (addTable {} ((user.addColumn { name := "nick", type := .of .text }).addIndex
        { name := "by_id", columns := ["nick"] })) log) (toUser "log")
    let diffs := (desired.diff current {}).tableDiffs
    desired.IsSound ∧ current.IsSound ∧ desired.KeepsOwners current ∧
      diffs.map TableDiff.table = ["post", "user"] ∧
        (desired.diff (current.edited diffs) {}).tableDiffs = [] := by
  intro id user post log toUser desired current diffs
  have hdesired : desired.IsSound := by decide +kernel
  have hcurrent : current.IsSound := by decide +kernel
  have howners : desired.KeepsOwners current := by decide +kernel
  exact ⟨hdesired, hcurrent, howners, by decide +kernel,
    tableDiffs_synchronized rfl hdesired hcurrent howners⟩

end Schema

end EntitySql
