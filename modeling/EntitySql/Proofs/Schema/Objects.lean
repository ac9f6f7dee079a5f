import EntitySql.Proofs.Ensures
import EntitySql.Proofs.Schema.Difference
import EntitySql.Proofs.Sequence
import EntitySql.Schema.Diff.Statements
/-!
# What statements create and drop

Seen from the statements that change it, a database is a list of objects: tables, columns, indexes and
foreign keys. `Ddl.created` and `Ddl.drops` say which objects a statement brings and takes away, and
`Ddl.run` carries a list of statements out. An object that exists afterwards either existed and was never
dropped or was created on the way (`Ddl.mem_or_created_of_mem_run`), and what is never dropped stays
(`Ddl.mem_run_of_kept`).
-/

namespace EntitySql

/-- An object of a database. -/
inductive SchemaObject
  | table (name : String)
  | column (table name : String)
  | index (index : Index)
  | foreignKey (key : Relationship)
deriving DecidableEq

/-- What tells objects of a database apart. -/
inductive ObjectName
  | table (name : String)
  | column (table name : String)
  | index (table name : String)
  | foreignKey (table name : String)
deriving DecidableEq

namespace SchemaObject

/-- Indexes and foreign keys are told apart by their tables and names. -/
def name : SchemaObject → ObjectName
  | table name => .table name
  | column owner name => .column owner name
  | index i => .index i.table i.name
  | foreignKey key => .foreignKey key.referencing.table key.name

end SchemaObject

/-- The table with its columns. -/
def Table.objects (t : Table) : List SchemaObject :=
  .table t.name :: t.columns.values.map fun c => .column t.name c.name

/-- All objects of the schema. -/
def Schema.objects (s : Schema) : List SchemaObject :=
  s.tables.values.flatMap (fun t => t.objects ++ t.indexes.map .index) ++
    s.relationships.values.map .foreignKey

/-- Whether every index says under which table it stands. -/
def Schema.IsAttached (s : Schema) : Prop :=
  ∀ t ∈ s.tables.values, ∀ i ∈ t.indexes, i.table = t.name

instance (s : Schema) : Decidable s.IsAttached :=
  inferInstanceAs (Decidable (∀ t ∈ s.tables.values, ∀ i ∈ t.indexes, i.table = t.name))

section Objects

variable {s : Schema}

/-- Of columns a table has its own. -/
theorem Table.column_mem_objects {t : Table} (ht : t.columns.IsNamed Column.name)
    {table name : String} :
    .column table name ∈ t.objects ↔ table = t.name ∧ name ∈ t.columns.keys := by
  rw [ht.mem_keys_iff]
  constructor
  · intro h
    rcases List.mem_cons.1 h with h | h
    · cases h
    · obtain ⟨c, hc, hsame⟩ := List.mem_map.1 h
      obtain ⟨rfl, rfl⟩ := SchemaObject.column.inj hsame
      exact ⟨rfl, c, hc, rfl⟩
  · rintro ⟨rfl, c, hc, rfl⟩
    exact .tail _ (List.mem_map.2 ⟨c, hc, rfl⟩)

@[simp]
theorem Schema.table_mem_objects {name : String} :
    .table name ∈ s.objects ↔ ∃ t ∈ s.tables.values, t.name = name := by
  simp [objects, Table.objects, eq_comm]

@[simp]
theorem Schema.column_mem_objects {table name : String} :
    .column table name ∈ s.objects ↔
      ∃ t ∈ s.tables.values, t.name = table ∧ ∃ c ∈ t.columns.values, c.name = name := by
  simp only [objects, Table.objects, List.mem_append, List.mem_flatMap, List.mem_cons, List.mem_map]
  constructor
  · rintro (⟨t, ht, (h | ⟨c, hc, h⟩) | ⟨i, _, h⟩⟩ | ⟨key, _, h⟩) <;> cases h
    exact ⟨t, ht, rfl, c, hc, rfl⟩
  · rintro ⟨t, ht, rfl, c, hc, rfl⟩
    exact .inl ⟨t, ht, .inl (.inr ⟨c, hc, rfl⟩)⟩

@[simp]
theorem Schema.index_mem_objects {i : Index} :
    .index i ∈ s.objects ↔ ∃ t ∈ s.tables.values, i ∈ t.indexes := by
  simp [objects, Table.objects]

@[simp]
theorem Schema.foreignKey_mem_objects {key : Relationship} :
    .foreignKey key ∈ s.objects ↔ key ∈ s.relationships.values := by
  simp [objects, Table.objects]

end Objects

/-- Whether the schema has an object that is called so. -/
def Schema.Has (s : Schema) (name : ObjectName) : Prop := ∃ o ∈ s.objects, o.name = name

instance (s : Schema) (name : ObjectName) : Decidable (s.Has name) :=
  inferInstanceAs (Decidable (∃ o ∈ s.objects, o.name = name))

section Has

variable {s : Schema} (hs : s.tables.IsNamed Table.name) {table name : String}

include hs

theorem Schema.mem_tables_iff {t : Table} : t ∈ s.tables.values ↔ s.table? t.name = some t :=
  ⟨hs.get?_of_mem, Assoc.mem_values_of_get?⟩

theorem Schema.has_table_iff : s.Has (.table name) ↔ name ∈ s.tables.keys := by
  rw [hs.mem_keys_iff]
  constructor
  · rintro ⟨o, ho, hname⟩
    cases o <;> cases hname
    exact table_mem_objects.1 ho
  · rintro ⟨t, ht, rfl⟩
    exact ⟨_, table_mem_objects.2 ⟨t, ht, rfl⟩, rfl⟩

theorem Schema.has_column_iff :
    s.Has (.column table name) ↔
      ∃ t, s.table? table = some t ∧ ∃ c ∈ t.columns.values, c.name = name := by
  constructor
  · rintro ⟨o, ho, hname⟩
    cases o <;> cases hname
    obtain ⟨t, ht, rfl, hcolumn⟩ := column_mem_objects.1 ho
    exact ⟨t, hs.get?_of_mem ht, hcolumn⟩
  · rintro ⟨t, ht, hcolumn⟩
    exact ⟨_, column_mem_objects.2 ⟨t, Assoc.mem_values_of_get? ht, hs _ _ ht, hcolumn⟩, rfl⟩

theorem Schema.has_index_iff (hattached : s.IsAttached) :
    s.Has (.index table name) ↔
      ∃ t, s.table? table = some t ∧ ∃ i ∈ t.indexes, i.name = name := by
  constructor
  · rintro ⟨o, ho, hname⟩
    cases o <;> cases hname
    obtain ⟨t, ht, hi⟩ := index_mem_objects.1 ho
    rw [hattached t ht _ hi]
    exact ⟨t, hs.get?_of_mem ht, _, hi, rfl⟩
  · rintro ⟨t, ht, i, hi, rfl⟩
    have hmem := Assoc.mem_values_of_get? ht
    refine ⟨.index i, index_mem_objects.2 ⟨t, hmem, hi⟩, ?_⟩
    rw [SchemaObject.name, hattached t hmem i hi, hs _ _ ht]

omit hs in
theorem Schema.has_foreignKey_iff :
    s.Has (.foreignKey table name) ↔
      ∃ key ∈ s.relationships.values, key.referencing.table = table ∧ key.name = name := by
  constructor
  · rintro ⟨o, ho, hname⟩
    cases o <;> cases hname
    exact ⟨_, foreignKey_mem_objects.1 ho, rfl, rfl⟩
  · rintro ⟨key, hkey, rfl, rfl⟩
    exact ⟨_, foreignKey_mem_objects.2 hkey, rfl⟩

end Has

namespace Ddl

/-- The objects that a statement creates. A remark creates nothing. -/
def created (d : Dialect) : Ddl → List SchemaObject
  | createTable definition _ => definition.table.objects ++ definition.foreignKeys.map .foreignKey
  | addColumn table column => [.column table column.name]
  | createIndex i _ => [.index i]
  | addForeignKey key => if d.alterForeignKeys then [.foreignKey key] else []
  | _ => []

/-- Whether the statement drops what is called so. Everything of a table goes with it. -/
def drops (d : Dialect) : Ddl → ObjectName → Bool
  | dropTable table _ _, .table name => name == table
  | dropTable table _ _, .column owner _ => owner == table
  | dropTable table _ _, .index owner _ => owner == table
  | dropTable table _ _, .foreignKey owner _ => owner == table
  | dropColumn table column, name => name == .column table column
  | dropIndex i, name => name == .index i.table i.name
  | dropForeignKey key, name => d.alterForeignKeys && name == .foreignKey key.referencing.table key.name
  | _, _ => false

/-- What a new name of a table makes of an object. -/
def renamedTable (old new : String) : SchemaObject → SchemaObject :=
  let change (table : String) := if table = old then new else table
  fun
    | .table name => .table (change name)
    | .column table name => .column (change table) name
    | .index i => .index { i with table := change i.table }
    | .foreignKey key => .foreignKey { key with
        referencing := { key.referencing with table := change key.referencing.table }
        referenced := { key.referenced with table := change key.referenced.table } }

/-- What a new name of a column makes of an object. -/
def renamedColumn (table old new : String) : SchemaObject → SchemaObject :=
  let change (column : String) := if column = old then new else column
  let changeAll (owner : String) (columns : List String) :=
    if owner = table then columns.map change else columns
  fun
    | .table name => .table name
    | .column owner name => .column owner (if owner = table then change name else name)
    | .index i => .index { i with columns := changeAll i.table i.columns }
    | .foreignKey key => .foreignKey { key with
        referencing := { key.referencing with
          columns := changeAll key.referencing.table key.referencing.columns }
        referenced := { key.referenced with
          columns := changeAll key.referenced.table key.referenced.columns } }

/-- Whether the object was there or is created by one of the statements. -/
def Supplies (d : Dialect) (objects : List SchemaObject) (statements : List Ddl) (o : SchemaObject) :
    Prop :=
  o ∈ objects ∨ ∃ s ∈ statements, o ∈ s.created d

/-- Whether a guard keeps the statement from doing anything. -/
def isHeldBack (objects : List SchemaObject) : Ddl → Bool
  | createTable definition guarded => guarded && objects.contains (.table definition.table.name)
  | createIndex i guarded => guarded && (objects.map (·.name)).contains (.index i.table i.name)
  | _ => false

/-- The objects of a database after a statement. -/
def effect (d : Dialect) (objects : List SchemaObject) : Ddl → List SchemaObject
  | renameTable old new => objects.map (renamedTable old new)
  | renameColumn table old new => objects.map (renamedColumn table old new)
  | statement =>
    if statement.isHeldBack objects then objects
    else (objects.filter fun o => !statement.drops d o.name) ++ statement.created d

/-- The objects of a database after statements. -/
def run (d : Dialect) (objects : List SchemaObject) (statements : List Ddl) : List SchemaObject :=
  statements.foldl (effect d) objects

/-- Whether the statement does the same whatever exists: it has no guard and renames nothing. -/
def isPlain : Ddl → Bool
  | createTable _ guarded | createIndex _ guarded => !guarded
  | renameTable _ _ | renameColumn _ _ _ => false
  | _ => true

variable {d : Dialect} {objects : List SchemaObject} {statements : List Ddl} {o : SchemaObject}

theorem mem_effect_iff {statement : Ddl} (h : statement.isPlain = true) :
    o ∈ effect d objects statement ↔
      o ∈ objects ∧ statement.drops d o.name = false ∨ o ∈ statement.created d := by
  cases statement <;> simp_all [effect, isPlain, isHeldBack]

/-- What exists afterwards existed and was never dropped, or was created on the way. -/
theorem mem_or_created_of_mem_run (hplain : ∀ s ∈ statements, s.isPlain = true)
    (h : o ∈ run d objects statements) :
    (o ∈ objects ∧ ∀ s ∈ statements, s.drops d o.name = false) ∨
      ∃ s ∈ statements, o ∈ s.created d := by
  induction statements generalizing objects with
  | nil => exact .inl ⟨h, by simp⟩
  | cons first rest ih =>
    rcases ih (fun s hs => hplain s (.tail _ hs)) h with ⟨hmem, hkept⟩ | ⟨s, hs, hcreated⟩
    · rcases (mem_effect_iff (hplain first (.head _))).1 hmem with ⟨hmem, hfirst⟩ | hcreated
      · exact .inl ⟨hmem, List.forall_mem_cons.2 ⟨hfirst, hkept⟩⟩
      · exact .inr ⟨first, .head _, hcreated⟩
    · exact .inr ⟨s, .tail _ hs, hcreated⟩

/-- What existed or was created on the way and is dropped by none of the statements exists afterwards. -/
theorem mem_run_of_kept (hplain : ∀ s ∈ statements, s.isPlain = true)
    (h : Supplies d objects statements o)
    (hkept : ∀ s ∈ statements, s.drops d o.name = false) : o ∈ run d objects statements := by
  induction statements generalizing objects with
  | nil => simpa [run, Supplies] using h
  | cons first rest ih =>
    refine ih (fun s hs => hplain s (.tail _ hs)) ?_ fun s hs => hkept s (.tail _ hs)
    rw [Supplies, mem_effect_iff (hplain first (.head _))]
    rcases h with hmem | ⟨s, hs, hcreated⟩
    · exact .inl (.inl ⟨hmem, hkept first (.head _)⟩)
    · rcases List.mem_cons.1 hs with rfl | hs
      · exact .inl (.inr hcreated)
      · exact .inr ⟨s, hs, hcreated⟩

end Ddl

end EntitySql
