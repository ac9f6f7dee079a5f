import EntitySql.Proofs.Assoc
import EntitySql.Schema.Diff.Basic
/-!
# Editing a schema

What the differences of a schema ask for, carried out on the schema (`Schema.edited`): created tables
are added with their foreign keys, and a changed table loses foreign keys and indexes, then has columns
added, replaced and dropped, and gets its indexes and foreign keys at last.

A comparison reads neither which relationships a table is linked to nor where a table stands, so the
effect of an edit is told by the tables without their links (`Schema.unlinked?`) and by the look-ups of
relationships (`Schema.get?_relationships_edit`).
-/

namespace EntitySql

namespace Table

/-- The table without the columns of the given names. -/
def withoutColumns (t : Table) (names : List String) : Table :=
  { t with
    columns := t.columns.without names
    primaryKey := t.primaryKey.filter fun name => !names.contains name }

/-- The table without the indexes of the given names. -/
def withoutIndexes (t : Table) (names : List String) : Table :=
  { t with indexes := t.indexes.filter fun i => !names.contains i.name }

/-- The table with links to no relationship. -/
def unlinked (t : Table) : Table := { t with incoming := [], outgoing := [] }

theorem columns_of_unlinked {t u : Table} (h : t.unlinked = u.unlinked) : t.columns = u.columns :=
  (congrArg Table.columns h :)

theorem indexes_of_unlinked {t u : Table} (h : t.unlinked = u.unlinked) : t.indexes = u.indexes :=
  (congrArg Table.indexes h :)

/-- Columns are added under their names, each with the name of the table. -/
theorem foldl_addColumn (columns : List Column) (t : Table) :
    ∃ primaryKey, columns.foldl addColumn t =
      { t with
        primaryKey := primaryKey
        columns := columns.foldl (fun a c => a.insert c.name { c with table := t.name })
          t.columns } := by
  induction columns generalizing t with
  | nil => exact ⟨t.primaryKey, rfl⟩
  | cons c rest ih => exact ih (t.addColumn c)

theorem foldl_addIndex (indexes : List Index) (t : Table) :
    indexes.foldl addIndex t =
      { t with indexes := t.indexes ++ indexes.map fun i => { i with table := t.name } } := by
  induction indexes generalizing t with
  | nil => simp
  | cons i rest ih => simp [ih, addIndex]

end Table

namespace TableChanges

/-- The columns that stand in the table afterwards, in place of those of their names. -/
def newColumns (c : TableChanges) : List Column := c.addColumns ++ c.alterColumns.map (·.new)

/-- The names of the columns that are dropped. -/
def goneColumns (c : TableChanges) : List String := c.dropColumns.map (·.name)

/-- The names of the indexes that are dropped. -/
def goneIndexes (c : TableChanges) : List String := c.dropIndexes.map (·.name)

/-- The table after the changes of its columns and indexes. -/
def edit (c : TableChanges) (t : Table) : Table :=
  let columns := c.newColumns.foldl Table.addColumn (t.withoutIndexes c.goneIndexes)
  c.addIndexes.foldl Table.addIndex (columns.withoutColumns c.goneColumns)

variable (c : TableChanges) (t : Table)

theorem edit_eq :
    ∃ primaryKey, c.edit t =
      { t with
        primaryKey := primaryKey
        columns := (c.newColumns.foldl (fun a column =>
          a.insert column.name { column with table := t.name }) t.columns).without c.goneColumns
        indexes := (t.indexes.filter fun i => !c.goneIndexes.contains i.name) ++
          c.addIndexes.map fun i => { i with table := t.name } } := by
  obtain ⟨primaryKey, hcolumns⟩ := Table.foldl_addColumn c.newColumns (t.withoutIndexes c.goneIndexes)
  refine ⟨primaryKey.filter fun name => !c.goneColumns.contains name, ?_⟩
  rw [edit, hcolumns, Table.foldl_addIndex]
  rfl

@[simp]
theorem edit_name : (c.edit t).name = t.name := by
  obtain ⟨_, h⟩ := c.edit_eq t
  rw [h]

theorem edit_indexes :
    (c.edit t).indexes = (t.indexes.filter fun i => !c.goneIndexes.contains i.name) ++
      c.addIndexes.map fun i => { i with table := t.name } := by
  obtain ⟨_, h⟩ := c.edit_eq t
  rw [h]

variable {c t} {name : String}

theorem get?_columns_edit_of_gone (h : name ∈ c.goneColumns) : (c.edit t).columns.get? name = none := by
  obtain ⟨_, hedit⟩ := c.edit_eq t
  rw [hedit, Assoc.get?_without, if_pos h]

theorem get?_columns_edit_of_new (hgone : name ∉ c.goneColumns) {column : Column}
    (hnew : name ∈ c.newColumns.map Column.name)
    (hunique : ∀ other ∈ c.newColumns, other.name = name → other = column) :
    (c.edit t).columns.get? name = some { column with table := t.name } := by
  obtain ⟨_, hedit⟩ := c.edit_eq t
  rw [hedit, Assoc.get?_without, if_neg hgone]
  exact Assoc.get?_foldl_insert_of_mem _ hnew fun other hother hname => by
    rw [hunique other hother hname]

theorem get?_columns_edit_of_kept (hgone : name ∉ c.goneColumns)
    (hnew : name ∉ c.newColumns.map Column.name) :
    (c.edit t).columns.get? name = t.columns.get? name := by
  obtain ⟨_, hedit⟩ := c.edit_eq t
  rw [hedit, Assoc.get?_without, if_neg hgone]
  exact Assoc.get?_foldl_insert_of_notMem _ hnew

theorem index?_edit :
    (c.edit t).index? name =
      (if name ∈ c.goneIndexes then none else t.index? name).or
        ((c.addIndexes.find? fun i => i.name == name).map fun i => { i with table := t.name }) := by
  rw [Table.index?, edit_indexes, List.find?_append, List.find?_map, List.find?_filter]
  congr 1
  split
  · refine List.find?_eq_none.2 fun i _ hi => ?_
    simp only [Bool.not_eq_true', List.contains_eq_mem, decide_eq_false_iff_not, beq_iff_eq,
      decide_eq_true_eq] at hi
    exact hi.1 (hi.2 ▸ ‹name ∈ c.goneIndexes›)
  · refine congrArg (List.find? · t.indexes) (funext fun i => ?_)
    by_cases hi : i.name = name
    · simp_all
    · simp [hi]

theorem index?_edit_of_notMem (hnew : ∀ i ∈ c.addIndexes, i.name ≠ name) :
    (c.edit t).index? name = if name ∈ c.goneIndexes then none else t.index? name := by
  rw [index?_edit, List.find?_eq_none.2 (by simpa using hnew), Option.map_none, Option.or_none]

theorem index?_edit_of_new {index : Index} (hnew : index ∈ c.addIndexes)
    (hunique : ∀ i ∈ c.addIndexes, i.name = index.name → i = index)
    (hfree : index.name ∉ c.goneIndexes → t.index? index.name = none) :
    (c.edit t).index? index.name = some { index with table := t.name } := by
  have hfirst : (c.addIndexes.find? fun i => i.name == index.name) = some index := by
    cases hfound : c.addIndexes.find? fun i => i.name == index.name with
    | none => simpa using List.find?_eq_none.1 hfound index hnew
    | some other =>
      rw [hunique other (List.mem_of_find?_eq_some hfound) (by simpa using List.find?_some hfound)]
  have hnone : (if index.name ∈ c.goneIndexes then none else t.index? index.name) = none := by
    split
    · rfl
    · exact hfree ‹_›
  rw [index?_edit, hnone, hfirst]
  rfl

theorem isNamed_columns_edit (ht : t.columns.IsNamed Column.name) :
    (c.edit t).columns.IsNamed Column.name := by
  obtain ⟨_, hedit⟩ := c.edit_eq t
  rw [hedit]
  refine Assoc.IsNamed.without ?_ _
  exact ht.foldl_insert fun _ => rfl

/-- Columns and indexes are changed without a look at the links. -/
theorem edit_unlinked : c.edit t.unlinked = (c.edit t).unlinked := by
  have hcolumns : ∀ (columns : List Column) t, columns.foldl Table.addColumn (Table.unlinked t) =
      (columns.foldl Table.addColumn t).unlinked :=
    fun _ _ => List.foldl_hom Table.unlinked fun _ _ => rfl
  have hindexes : ∀ (indexes : List Index) t, indexes.foldl Table.addIndex (Table.unlinked t) =
      (indexes.foldl Table.addIndex t).unlinked :=
    fun _ _ => List.foldl_hom Table.unlinked fun _ _ => rfl
  let columns := c.newColumns.foldl Table.addColumn (t.withoutIndexes c.goneIndexes)
  calc c.edit t.unlinked
      = c.addIndexes.foldl Table.addIndex (columns.withoutColumns c.goneColumns).unlinked :=
        congrArg (fun (u : Table) => c.addIndexes.foldl Table.addIndex (u.withoutColumns c.goneColumns))
          (hcolumns c.newColumns (t.withoutIndexes c.goneIndexes))
    _ = (c.edit t).unlinked := hindexes _ _

end TableChanges

namespace TableDiff

/-- The foreign keys that are added. -/
def addedKeys : TableDiff → List Relationship
  | create _ none => []
  | create _ (some definition) => definition.foreignKeys
  | alter _ changes => changes.addForeignKeys

/-- The names of the foreign keys that are dropped. -/
def goneKeys : TableDiff → List String
  | create _ _ => []
  | alter _ changes => changes.dropForeignKeys.map (·.name)

end TableDiff

namespace Schema

/-- Adds a relationship and links it from those of its tables that exist. -/
def addForeignKey (s : Schema) (r : Relationship) : Schema :=
  let outward := s.tables.modify r.referencing.table fun t =>
    { t with outgoing := link r.name t.outgoing }
  { tables := outward.modify r.referenced.table fun t =>
      { t with incoming := link r.name t.incoming }
    relationships := s.relationships.insert r.name r }

/-- The schema without the relationships of the given names and without links to them. -/
def withoutForeignKeys (s : Schema) (names : List String) : Schema :=
  { tables := s.tables.mapValues fun t =>
      { t with
        outgoing := t.outgoing.filter fun name => !names.contains name
        incoming := t.incoming.filter fun name => !names.contains name }
    relationships := s.relationships.without names }

/-- The schema after one table is created or changed. -/
def edit (s : Schema) : TableDiff → Schema
  | .create _ none => s
  | .create _ (some definition) =>
    definition.foreignKeys.foldl addForeignKey (s.addTable definition.table)
  | .alter table changes =>
    let kept := s.withoutForeignKeys (changes.dropForeignKeys.map (·.name))
    let changed := { kept with tables := kept.tables.modify table changes.edit }
    changes.addForeignKeys.foldl addForeignKey changed

/-- The schema after all the changes, one after the other. -/
def edited (s : Schema) (diffs : List TableDiff) : Schema := diffs.foldl edit s

/-- A relationship between tables that exist is added as it always is. -/
theorem addRelationship_eq_ok_iff {s s' : Schema} {r : Relationship} :
    s.addRelationship r = .ok s' ↔
      r.referencing.table ∈ s.tables.keys ∧ r.referenced.table ∈ s.tables.keys ∧
        s' = s.addForeignKey r := by
  unfold addRelationship
  by_cases hreferencing : r.referencing.table ∈ s.tables.keys
  · by_cases hreferenced : r.referenced.table ∈ s.tables.keys
    · rw [if_neg (by simpa using hreferencing), if_neg (by simpa using hreferenced), Except.ok.injEq,
        eq_comm]
      exact ⟨fun h => ⟨hreferencing, hreferenced, h⟩, fun h => h.2.2⟩
    · rw [if_neg (by simpa using hreferencing), if_pos (by simpa using hreferenced)]
      exact ⟨nofun, fun h => absurd h.2.1 hreferenced⟩
  · rw [if_pos (by simpa using hreferencing)]
    exact ⟨nofun, fun h => absurd h.1 hreferencing⟩

/-! ## Relationships -/

theorem relationships_foldl_addForeignKey (keys : List Relationship) (s : Schema) :
    (keys.foldl addForeignKey s).relationships =
      keys.foldl (fun a r => a.insert r.name r) s.relationships :=
  (List.foldl_hom Schema.relationships fun _ _ => rfl).symm

theorem relationships_edit (s : Schema) (d : TableDiff) :
    (s.edit d).relationships =
      d.addedKeys.foldl (fun a r => a.insert r.name r) (s.relationships.without d.goneKeys) := by
  have hnone : s.relationships.without [] = s.relationships := by
    ext1
    simp [Assoc.without]
  rcases d with ⟨_, _ | definition⟩ | ⟨table, changes⟩
  · exact hnone.symm
  · refine (relationships_foldl_addForeignKey _ _).trans ?_
    rw [TableDiff.goneKeys, hnone]
    rfl
  · exact relationships_foldl_addForeignKey _ _

/-- What stands under a name is what was added last; without that it is gone or as before. -/
theorem get?_relationships_edit {s : Schema} {d : TableDiff} {name : String}
    {wanted : Option Relationship} (hwanted : ∀ r ∈ d.addedKeys, r.name = name → wanted = some r) :
    (s.edit d).relationships.get? name =
      if name ∈ d.addedKeys.map (·.name) then wanted
      else if name ∈ d.goneKeys then none
      else s.relationships.get? name := by
  rw [relationships_edit]
  split
  · rename_i hadded
    obtain ⟨r, hr, hname⟩ := List.mem_map.1 hadded
    rw [hwanted r hr hname]
    exact Assoc.get?_foldl_insert_of_mem _ hadded fun other hother hname' =>
      Option.some.inj ((hwanted other hother hname').symm.trans (hwanted r hr hname))
  · rw [Assoc.get?_foldl_insert_of_notMem _ ‹_›, Assoc.get?_without]

/-- After all the changes a relationship stands as it was added, if whoever drops it adds it again. -/
theorem get?_relationships_edited {s : Schema} {diffs : List TableDiff} {name : String}
    {wanted : Option Relationship}
    (hwanted : ∀ d ∈ diffs, ∀ r ∈ d.addedKeys, r.name = name → wanted = some r)
    (hagain : ∀ d ∈ diffs, name ∈ d.goneKeys → ∀ other ∈ diffs,
      name ∈ other.addedKeys.map (·.name) → name ∈ d.addedKeys.map (·.name)) :
    (s.edited diffs).relationships.get? name =
      if ∃ d ∈ diffs, name ∈ d.addedKeys.map (·.name) then wanted
      else if ∃ d ∈ diffs, name ∈ d.goneKeys then none
      else s.relationships.get? name := by
  induction diffs generalizing s with
  | nil => simp [edited]
  | cons d rest ih =>
    have hstep := get?_relationships_edit (s := s) (hwanted d (.head rest))
    have hrest := ih (s := s.edit d) (fun d hd => hwanted d (.tail _ hd))
      fun d hd hgone other hother => hagain d (.tail _ hd) hgone other (.tail _ hother)
    refine hrest.trans ?_
    simp only [List.mem_cons, exists_eq_or_imp]
    by_cases hadds : ∃ d ∈ rest, name ∈ d.addedKeys.map (·.name)
    · rw [if_pos hadds, if_pos (.inr hadds)]
    · rw [if_neg hadds, hstep]
      by_cases hfirst : name ∈ d.addedKeys.map (·.name)
      · have hkept : ¬∃ d ∈ rest, name ∈ d.goneKeys := fun ⟨other, hother, hgone⟩ =>
          hadds ⟨other, hother, hagain other (.tail _ hother) hgone d (.head rest) hfirst⟩
        rw [if_neg hkept, if_pos hfirst, if_pos (.inl hfirst)]
      · by_cases hgone : ∃ d ∈ rest, name ∈ d.goneKeys
        · rw [if_pos hgone, if_neg (not_or.2 ⟨hfirst, hadds⟩), if_pos (.inr hgone)]
        · rw [if_neg hgone, if_neg hfirst, if_neg (not_or.2 ⟨hfirst, hadds⟩)]
          simp only [hgone, or_false]

/-! ## Tables -/

/-- The table with the name, without its links. -/
def unlinked? (s : Schema) (name : String) : Option Table := (s.table? name).map Table.unlinked

theorem unlinked?_addForeignKey (s : Schema) (r : Relationship) (name : String) :
    (s.addForeignKey r).unlinked? name = s.unlinked? name := by
  simp only [unlinked?, table?, addForeignKey, Assoc.get?_modify]
  cases s.tables.get? name with
  | none => simp
  | some t => split <;> split <;> rfl

theorem unlinked?_foldl_addForeignKey (keys : List Relationship) (s : Schema) (name : String) :
    (keys.foldl addForeignKey s).unlinked? name = s.unlinked? name := by
  induction keys generalizing s with
  | nil => rfl
  | cons r rest ih => exact (ih _).trans (s.unlinked?_addForeignKey r name)

theorem unlinked?_withoutForeignKeys (s : Schema) (names : List String) (name : String) :
    (s.withoutForeignKeys names).unlinked? name = s.unlinked? name := by
  simp only [unlinked?, table?, withoutForeignKeys, Assoc.get?_mapValues, Option.map_map]
  rfl

theorem unlinked?_edit_create (s : Schema) (table : String) (definition : TableDefinition)
    (name : String) :
    (s.edit (.create table (some definition))).unlinked? name =
      if name = definition.table.name then some definition.table.unlinked else s.unlinked? name := by
  rw [edit, unlinked?_foldl_addForeignKey]
  simp only [unlinked?, table?, addTable, Assoc.get?_insert]
  split <;> rfl

theorem unlinked?_edit_alter (s : Schema) (table : String) (changes : TableChanges) (name : String) :
    (s.edit (.alter table changes)).unlinked? name =
      if name = table then (s.unlinked? name).map changes.edit else s.unlinked? name := by
  rw [edit, unlinked?_foldl_addForeignKey]
  rw [← unlinked?_withoutForeignKeys s (changes.dropForeignKeys.map (·.name)) name]
  simp only [unlinked?, table?, Assoc.get?_modify]
  split
  · simp [Function.comp_def, TableChanges.edit_unlinked]
  · rfl

/-- Created tables stand as they are defined. -/
theorem unlinked?_edited_creates {tables : List Table} {define : Table → TableDefinition}
    (hdefine : ∀ t, (define t).table = t) {name : String} {wanted : Option Table}
    (hwanted : ∀ t ∈ tables, t.name = name → wanted = some t) (s : Schema) :
    (s.edited (tables.map fun t => .create t.name (some (define t)))).unlinked? name =
      if name ∈ tables.map (·.name) then wanted.map Table.unlinked else s.unlinked? name := by
  induction tables generalizing s with
  | nil => simp [edited]
  | cons first rest ih =>
    refine (ih (fun t ht => hwanted t (.tail _ ht)) (s.edit _)).trans ?_
    rw [unlinked?_edit_create, hdefine]
    by_cases hrest : name ∈ rest.map (·.name)
    · rw [if_pos hrest, if_pos (.tail _ hrest)]
    · rw [if_neg hrest]
      by_cases hfirst : name = first.name
      · rw [if_pos hfirst, if_pos (hfirst ▸ .head _), hwanted first (.head rest) hfirst.symm,
          Option.map_some]
      · rw [if_neg hfirst, if_neg (by simpa [hfirst] using hrest)]

/-- Each of several tables undergoes its own changes. -/
theorem unlinked?_edited_alters {tables : List String} (htables : tables.Nodup)
    (changes : String → TableChanges) (s : Schema) (name : String) :
    (s.edited (tables.map fun table => .alter table (changes table))).unlinked? name =
      if name ∈ tables then (s.unlinked? name).map (changes name).edit else s.unlinked? name := by
  induction tables generalizing s with
  | nil => simp [edited]
  | cons first rest ih =>
    obtain ⟨hfirst, hrest⟩ := List.nodup_cons.1 htables
    refine (ih hrest (s.edit _)).trans ?_
    rw [unlinked?_edit_alter]
    by_cases hname : name = first
    · subst hname
      simp [hfirst]
    · simp [hname]

/-! ## Names -/

theorem isNamed_tables_iff {s : Schema} :
    s.tables.IsNamed Table.name ↔ ∀ name t, s.unlinked? name = some t → t.name = name := by
  constructor
  · intro h name t ht
    obtain ⟨linked, hlinked, rfl⟩ := Option.map_eq_some_iff.1 ht
    exact h name linked hlinked
  · intro h name t ht
    exact h name t.unlinked (Option.map_eq_some_iff.2 ⟨t, ht, rfl⟩)

theorem isNamed_tables_edit {s : Schema} (hs : s.tables.IsNamed Table.name) (d : TableDiff) :
    (s.edit d).tables.IsNamed Table.name := by
  rw [isNamed_tables_iff] at hs ⊢
  intro name t ht
  rcases d with ⟨_, _ | definition⟩ | ⟨table, changes⟩
  · exact hs name t ht
  · rw [unlinked?_edit_create] at ht
    split at ht
    · cases ht
      exact Eq.symm ‹_›
    · exact hs name t ht
  · rw [unlinked?_edit_alter] at ht
    split at ht
    · obtain ⟨old, hold, rfl⟩ := Option.map_eq_some_iff.1 ht
      exact (changes.edit_name old).trans (hs name old hold)
    · exact hs name t ht

theorem isNamed_relationships_edit {s : Schema}
    (hs : s.relationships.IsNamed Relationship.name) (d : TableDiff) :
    (s.edit d).relationships.IsNamed Relationship.name := by
  rw [relationships_edit]
  exact .foldl_insert (hs.without _) fun _ => rfl

theorem isNamed_edited {s : Schema} (htables : s.tables.IsNamed Table.name)
    (hrelationships : s.relationships.IsNamed Relationship.name) (diffs : List TableDiff) :
    (s.edited diffs).tables.IsNamed Table.name ∧
      (s.edited diffs).relationships.IsNamed Relationship.name := by
  induction diffs generalizing s with
  | nil => exact ⟨htables, hrelationships⟩
  | cons d rest ih =>
    exact ih (isNamed_tables_edit htables d) (isNamed_relationships_edit hrelationships d)

end Schema

end EntitySql
