import EntitySql.Proofs.Schema.StoredType
import EntitySql.Proofs.Sqlite.ReadSchema
/-!
# The tables of entities are simple

The tables and foreign keys of a registry are such that SQLite tells all of them (`Registry.isSimple_schema`), if
no field has a default and only integer ids count up.
-/

namespace EntitySql

/-- Whether no field has a default and only integer ids count up. -/
structure Registry.HasPlainFields (r : Registry) : Prop where
  defaults : ∀ e ∈ r.entities.values, ∀ entry ∈ e.fields.entries, entry.2.default? = none
  counting : ∀ e ∈ r.entities.values, ∀ entry ∈ e.fields.entries, entry.2.autoIncrement = true →
    entry.1 = e.id ∧ entry.2.columnType.category = .integer

instance (r : Registry) : Decidable r.HasPlainFields :=
  decidable_of_iff
    ((∀ e ∈ r.entities.values, ∀ entry ∈ e.fields.entries, entry.2.default? = none) ∧
      ∀ e ∈ r.entities.values, ∀ entry ∈ e.fields.entries, entry.2.autoIncrement = true →
        entry.1 = e.id ∧ entry.2.columnType.category = .integer)
    ⟨fun ⟨defaults, counting⟩ => { defaults, counting }, fun h => ⟨h.defaults, h.counting⟩⟩

/-! ## Tables -/

namespace Table

/-- A primary key whose columns all have one name has at most that column. -/
theorem primaryKey_foldl_addColumn {name : String} {columns : List Column}
    (h : ∀ c ∈ columns, c.isPrimaryKey = true → c.name = name) (t : Table)
    (ht : t.primaryKey = [] ∨ t.primaryKey = [name]) :
    (columns.foldl addColumn t).primaryKey = [] ∨ (columns.foldl addColumn t).primaryKey = [name] := by
  induction columns generalizing t with
  | nil => exact ht
  | cons c rest ih =>
    refine ih (fun c hc => h c (.tail _ hc)) (t.addColumn c) ?_
    by_cases hkey : c.isPrimaryKey = true
    · have hname := h c (.head _) hkey
      rcases ht with hnil | hone <;> simp [addColumn, *]
    · simpa [addColumn, hkey] using ht

end Table

namespace Member

variable {m : Member} {naming : Naming}

theorem mem_columns_iff {c : Column} :
    c ∈ m.columns naming ↔
      ∃ entry ∈ m.entity.fields.entries, entry.2.isStored = true ∧
        c = m.column naming entry.1 entry.2 := by
  simp only [columns, List.mem_map, List.mem_filter, and_assoc, eq_comm]

/-- Each column of a table is that of a field. -/
theorem exists_field_of_mem_columns {c : Column} (h : c ∈ (m.table naming).columns.values) :
    ∃ entry ∈ m.entity.fields.entries,
      c = { m.column naming entry.1 entry.2 with table := m.tableNameBy naming } := by
  obtain ⟨_, htable⟩ := m.table_eq naming
  rw [htable] at h
  refine List.foldlRecOn
    (motive := fun columns : Assoc Column => ∀ c ∈ columns.values, ∃ entry ∈ m.entity.fields.entries,
      c = { m.column naming entry.1 entry.2 with table := m.tableNameBy naming }) (m.columns naming) _
    (fun _ hc => absurd hc List.not_mem_nil) (fun columns hcolumns added hadded => ?_) c h
  obtain ⟨entry, hentry, _, rfl⟩ := mem_columns_iff.1 hadded
  exact Assoc.forall_mem_values_insert hcolumns ⟨entry, hentry, rfl⟩

theorem hasCompositeKey_table : (m.table naming).hasCompositeKey = false := by
  let empty : Table := { name := m.tableNameBy naming, comment? := m.entity.comment? }
  have hnames : ∀ c ∈ m.columns naming, c.isPrimaryKey = true →
      c.name = m.columnNameBy naming m.entity.id := by
    intro c hc hkey
    obtain ⟨entry, _, _, rfl⟩ := mem_columns_iff.1 hc
    rw [← show entry.1 = m.entity.id from beq_iff_eq.1 hkey]
    rfl
  have htable : (m.table naming).primaryKey = ((m.columns naming).foldl Table.addColumn empty).primaryKey :=
    (congrArg Table.primaryKey (Table.foldl_addIndex (m.indexes naming) _)).trans rfl
  rw [Table.hasCompositeKey, htable]
  rcases Table.primaryKey_foldl_addColumn hnames empty (.inl rfl) with hkey | hkey <;> rw [hkey] <;> rfl

/-- The table of an entity, with types as SQLite stores them, is simple. -/
theorem isSimple_table
    (hdefaults : ∀ entry ∈ m.entity.fields.entries, entry.2.default? = none)
    (hcounting : ∀ entry ∈ m.entity.fields.entries, entry.2.autoIncrement = true →
      entry.1 = m.entity.id ∧ entry.2.columnType.category = .integer) {t : Table}
    (ht : t.unlinked = m.table naming) : (t.normalizeTypes .sqlite).IsSimple := by
  have hkey : t.primaryKey = (m.table naming).primaryKey := ht ▸ rfl
  have hcolumns : t.columns = (m.table naming).columns := ht ▸ rfl
  have hfield : ∀ c ∈ (t.normalizeTypes .sqlite).columns.values, ∃ entry ∈ m.entity.fields.entries,
      c = { m.column naming entry.1 entry.2 with
        table := m.tableNameBy naming, type := entry.2.columnType.stored .sqlite } := by
    intro c hc
    rw [Table.normalizeTypes, Assoc.values_mapValues, hcolumns] at hc
    obtain ⟨old, hold, rfl⟩ := List.mem_map.1 hc
    obtain ⟨entry, hentry, rfl⟩ := exists_field_of_mem_columns hold
    exact ⟨entry, hentry, rfl⟩
  refine {
    named := ?_
    single := ?_
    key := fun c hc hpk => ?_
    alone := fun c hc other hother hpk hpk' => ?_
    counting := fun c hc hauto => ?_
    defaults := fun c hc => ?_
    stored := fun c hc => ?_ }
  · intro name c hc
    rw [Table.normalizeTypes, Assoc.get?_mapValues, hcolumns] at hc
    obtain ⟨old, hold, rfl⟩ := Option.map_eq_some_iff.1 hc
    exact (m.assembled_table naming).isNamed name old hold
  · rw [Table.hasCompositeKey, Table.normalizeTypes, hkey]
    exact m.hasCompositeKey_table
  · obtain ⟨entry, _, rfl⟩ := hfield c hc
    have hid : (entry.1 == m.entity.id) = true := hpk
    simp [column, hid]
  · obtain ⟨entry, hentry, rfl⟩ := hfield c hc
    obtain ⟨another, hanother, rfl⟩ := hfield other hother
    have hid : entry.1 = another.1 := (beq_iff_eq.1 hpk).trans (beq_iff_eq.1 hpk').symm
    rw [List.inj_on_of_nodup_map m.entity.fields.distinct hentry hanother hid]
  · obtain ⟨entry, hentry, rfl⟩ := hfield c hc
    obtain ⟨hid, hcategory⟩ := hcounting entry hentry hauto
    exact ⟨beq_iff_eq.2 hid, (ColumnType.category_stored _ .sqlite).trans hcategory⟩
  · obtain ⟨entry, hentry, rfl⟩ := hfield c hc
    exact hdefaults entry hentry
  · obtain ⟨entry, _, rfl⟩ := hfield c hc
    exact Field.ofSql_toSql_stored entry.2

/-! ## Foreign keys -/

theorem ensures_fieldKey (key : String) (reference : FieldReference) :
    Ensures Relationship.IsSimple (m.fieldKey naming key reference) :=
  .bind_any fun _ => .pure { columns := List.cons_ne_nil _ _, length := rfl, name := rfl }

theorem ensures_relationKey {r : Relation} (h : m.ownsKey r = true) :
    Ensures Relationship.IsSimple (m.relationKey naming r) := by
  have hpairs : r.keyPairs ≠ [] := by
    simp only [ownsKey, Bool.and_eq_true, Bool.not_eq_true', List.isEmpty_eq_false_iff] at h
    exact h.1.2
  exact .bind_any fun _ => .pure {
    columns := mt List.map_eq_nil_iff.1 hpairs
    length := by rw [List.length_map, List.length_map]
    name := rfl }

/-- The foreign keys of an entity are simple. -/
theorem ensures_foreignKeys :
    Ensures (fun keys => ∀ key ∈ keys, key.IsSimple) (m.foreignKeys naming) := by
  refine Ensures.bind (Ensures.mapM fun entry _ => ensures_fieldKey entry.1 entry.2) fun ofFields hfields =>
    Ensures.bind (Ensures.mapM fun r hr => ensures_relationKey (List.mem_filter.1 hr).2)
      fun ofRelations hrelations => .pure ?_
  refine List.foldlRecOn
    (motive := fun keys : List Relationship => ∀ key ∈ keys, key.IsSimple) ofRelations _ hfields
    fun keys hkeys r hr => ?_
  split
  · exact hkeys
  · exact List.forall_mem_append.2 ⟨hkeys, List.forall_mem_singleton.2 (hrelations r hr)⟩

end Member

namespace Registry

variable {r : Registry} {s : Schema}

theorem isSimple_relationships (h : r.schema = .ok s) : ∀ key ∈ s.relationships.values, key.IsSimple := by
  refine schemaBy_induction (P := fun s => ∀ key ∈ s.relationships.values, key.IsSimple)
    (fun s hempty _ _ _ => ?_) (fun m _ keys hkeys key hkey s _ _ _ hs => ?_) (fun s name hs => ?_) h
  · rw [hempty]
    exact nofun
  · exact Assoc.forall_mem_values_insert hs (Member.ensures_foreignKeys keys hkeys key hkey)
  · exact Assoc.forall_mem_values_modify hs fun key hkey =>
      { columns := hkey.columns, length := hkey.length, name := hkey.name }

/-- The schema of a registry, with types as SQLite stores them, is simple. -/
theorem isSimple_schema (hplain : r.HasPlainFields) (h : r.schema = .ok s) :
    (s.normalizeTypes .sqlite).IsSimple where
  tables t ht := by
    obtain ⟨u, hu, rfl⟩ := Schema.mem_tables_normalizeTypes.1 ht
    obtain ⟨m, hm, hunlinked⟩ := exists_member_of_mem_tables h u hu
    obtain ⟨e, he, rfl⟩ := List.mem_map.1 hm
    exact Member.isSimple_table (hplain.defaults e he) (hplain.counting e he) hunlinked
  keys := (isSimple_relationships h : ∀ key ∈ s.relationships.values, key.IsSimple)

end Registry

end EntitySql
