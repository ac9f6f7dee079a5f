import EntitySql.Proofs.Schema.Difference
import EntitySql.Proofs.Schema.Editing
/-!
# An edit follows the changes

An edit that carries out the changes that a comparison requires, and no others, makes both sides agree
(`ItemRules.Follows.agrees`): what had to be created or altered is as desired, what had to be dropped is
gone, and everything else is as before. The changes of one table that `SchemaDiff.changesOf` puts
together are such edits of its columns and of its indexes.
-/

namespace EntitySql

namespace ItemRules

variable {α : Type} {rules : ItemRules α} {counts : α → Bool} {desired current edited : List α}

/-- The name of the item that the change is about. -/
def subject (rules : ItemRules α) : Change α → String
  | .create item | .alter _ item | .drop item => rules.name item

/-- Whether the edited items are what the required changes make of the current ones. -/
structure Follows (rules : ItemRules α) (counts : α → Bool) (desired current edited : List α) :
    Prop where
  /-- What has to be created or altered is as desired. -/
  placed : ∀ change, rules.Requires id counts desired current change → ∀ new, change.new? = some new →
    ∃ found, rules.find? id edited (rules.name new) = some found ∧ rules.changes found new = []
  /-- What has to be dropped is gone. -/
  dropped : ∀ old, rules.Requires id counts desired current (.drop old) →
    rules.find? id edited (rules.name old) = none
  /-- What no change is about is as before. -/
  kept : ∀ name,
    (∀ change, rules.Requires id counts desired current change → rules.subject change ≠ name) →
      rules.find? id edited name = rules.find? id current name

theorem subject_of_new? {change : Change α} {new : α} (hnew : change.new? = some new) :
    rules.subject change = rules.name new := by
  cases change <;> cases hnew <;> rfl

theorem Requires.desired_of_new? {fold : String → String} {change : Change α}
    (h : rules.Requires fold counts desired current change) {new : α}
    (hnew : change.new? = some new) : new ∈ desired ∧ counts new = true := by
  cases change with
  | create _ | alter _ _ =>
    cases hnew
    exact ⟨h.1, h.2.1⟩
  | drop _ => cases hnew

/-- A desired item is created exactly if it has no match. -/
theorem Requires.isCreate_iff {fold : String → String} {change : Change α}
    (h : rules.Requires fold counts desired current change) {new : α}
    (hnew : change.new? = some new) :
    change.isCreate = true ↔ rules.find? fold current (rules.name new) = none := by
  cases change with
  | create _ =>
    cases hnew
    exact iff_of_true rfl h.2.2
  | alter old _ =>
    cases hnew
    rw [h.2.2.1]
    exact iff_of_false nofun nofun
  | drop _ => cases hnew

/-- What is replaced or dropped is a current item of the name. -/
theorem Requires.current_of_old? {change : Change α}
    (h : rules.Requires id counts desired current change) {old : α} (hold : change.old? = some old) :
    old ∈ current ∧ rules.subject change = rules.name old := by
  cases change with
  | create _ => cases hold
  | alter _ _ =>
    cases hold
    obtain ⟨hmem, hname⟩ := mem_of_find? h.2.2.1
    exact ⟨hmem, hname.symm⟩
  | drop _ =>
    cases hold
    exact ⟨h.1, rfl⟩

/-- After the required changes both sides agree. -/
theorem Follows.agrees (h : rules.Follows counts desired current edited)
    (hdesired : (desired.map rules.name).Nodup)
    (hcounts : ∀ item ∈ edited, ∀ found, rules.find? id edited (rules.name item) = some found →
      counts found = counts item) :
    rules.Agrees id counts desired edited where
  unchanged new hmem hcount := by
    have hself : rules.find? id desired (rules.name new) = some new := find?_self hdesired hmem
    by_cases hplaced : ∃ change, rules.Requires id counts desired current change ∧
        change.new? = some new
    · obtain ⟨change, hrequires, hnew⟩ := hplaced
      exact h.placed change hrequires new hnew
    · -- An item that is neither created nor altered has a match from which it does not differ.
      have hidle : ∀ change, rules.Requires id counts desired current change →
          rules.subject change ≠ rules.name new := by
        intro change hrequires hname
        cases change with
        | create other | alter _ other =>
          have hsame : rules.find? id desired (rules.name other) = some other :=
            find?_self hdesired hrequires.1
          rw [show rules.name other = rules.name new from hname, hself] at hsame
          exact hplaced ⟨_, hrequires, hsame.symm⟩
        | drop old => exact find?_eq_none_iff.1 hrequires.2.2 new hmem hname.symm
      rw [h.kept _ hidle]
      cases hmatch : rules.find? id current (rules.name new) with
      | none => exact absurd ⟨.create new, ⟨hmem, hcount, hmatch⟩, rfl⟩ hplaced
      | some old =>
        exact ⟨old, rfl, Classical.byContradiction fun hchanges =>
          hplaced ⟨.alter old new, ⟨hmem, hcount, hmatch, hchanges⟩, rfl⟩⟩
  wanted item hmem hcount := by
    refine Option.ne_none_iff_exists'.1 fun hnone => ?_
    obtain ⟨found, hfound⟩ : ∃ found, rules.find? id edited (rules.name item) = some found :=
      Option.ne_none_iff_exists'.1 fun hlost => find?_eq_none_iff.1 hlost item hmem rfl
    by_cases hdropped : ∃ old, rules.Requires id counts desired current (.drop old) ∧
        rules.name old = rules.name item
    · obtain ⟨old, hrequires, hname⟩ := hdropped
      rw [← hname, h.dropped old hrequires] at hfound
      cases hfound
    · -- An unwanted item that no change is about would have to be dropped.
      have hidle : ∀ change, rules.Requires id counts desired current change →
          rules.subject change ≠ rules.name item := by
        intro change hrequires hname
        cases change with
        | create other | alter _ other => exact find?_eq_none_iff.1 hnone other hrequires.1 hname
        | drop old => exact hdropped ⟨old, hrequires, hname⟩
      obtain ⟨hfound', hname⟩ := mem_of_find? ((h.kept _ hidle).symm.trans hfound)
      exact hdropped ⟨found, ⟨hfound', (hcounts item hmem found hfound).trans hcount,
        hname.symm ▸ hnone⟩, hname⟩

end ItemRules

namespace SchemaDiff

variable {d : SchemaDiff} {table : String}

@[simp]
theorem getD_nonEmpty? {α : Type} (list : List α) : (nonEmpty? list).getD [] = list := by
  unfold nonEmpty?
  split
  · exact (List.isEmpty_iff.1 ‹_›).symm
  · rfl

/-! ## The changes of one table -/

theorem mem_ofTable_of_mem {α : Type} {list : List (String × Difference α)}
    {entry : String × Difference α} (h : entry ∈ list) : entry.2.change ∈ ofTable entry.1 list :=
  List.mem_map.2 ⟨entry, List.mem_filter.2 ⟨h, beq_self_eq_true _⟩, rfl⟩

theorem addedColumn?_eq_some_iff {change : Change Column} {column : Column} :
    addedColumn? change = some column ↔ change = .create column := by
  cases change <;> simp [addedColumn?]

theorem droppedColumn?_eq_some_iff {change : Change Column} {column : Column} :
    droppedColumn? change = some column ↔ change = .drop column := by
  cases change <;> simp [droppedColumn?]

theorem alteredColumn?_eq_some_iff {change : Change Column} {altered : ColumnChange} :
    alteredColumn? change = some altered ↔ change = .alter altered.old altered.new := by
  cases altered
  cases change <;> simp [alteredColumn?]

theorem mem_newColumns_changesOf {column : Column} :
    column ∈ (d.changesOf table).newColumns ↔
      ∃ change ∈ ofTable table d.columns, change.new? = some column := by
  simp only [TableChanges.newColumns, TableChanges.addColumns, TableChanges.alterColumns, changesOf,
    getD_nonEmpty?, List.mem_append, List.mem_map, List.mem_filterMap, addedColumn?_eq_some_iff,
    alteredColumn?_eq_some_iff, exists_eq_right]
  constructor
  · rintro (hcreate | ⟨_, halter, rfl⟩)
    · exact ⟨_, hcreate, rfl⟩
    · exact ⟨_, halter, rfl⟩
  · rintro ⟨change, hchange, hnew⟩
    cases change with
    | create new => exact .inl (Option.some.inj hnew ▸ hchange)
    | alter old new => exact .inr ⟨⟨old, new⟩, hchange, Option.some.inj hnew⟩
    | drop old => cases hnew

theorem mem_goneColumns_changesOf {name : String} :
    name ∈ (d.changesOf table).goneColumns ↔
      ∃ column : Column, .drop column ∈ ofTable table d.columns ∧ column.name = name := by
  simp only [TableChanges.goneColumns, TableChanges.dropColumns, changesOf, getD_nonEmpty?,
    List.mem_map, List.mem_filterMap, droppedColumn?_eq_some_iff, exists_eq_right]

theorem mem_addIndexes_changesOf {index : Index} :
    index ∈ (d.changesOf table).addIndexes ↔
      ∃ change ∈ ofTable table d.indexes, change.new? = some index := by
  simp [TableChanges.addIndexes, changesOf]

theorem mem_dropIndexes_changesOf {index : Index} :
    index ∈ (d.changesOf table).dropIndexes ↔
      ∃ change ∈ ofTable table d.indexes, change.old? = some index := by
  simp [TableChanges.dropIndexes, changesOf]

theorem mem_goneIndexes_changesOf {name : String} :
    name ∈ (d.changesOf table).goneIndexes ↔
      ∃ change ∈ ofTable table d.indexes, ∃ index : Index, change.old? = some index ∧
        index.name = name := by
  simp only [TableChanges.goneIndexes, List.mem_map, mem_dropIndexes_changesOf]
  constructor
  · rintro ⟨index, ⟨change, hchange, hold⟩, hname⟩
    exact ⟨change, hchange, index, hold, hname⟩
  · rintro ⟨change, hchange, index, hold, hname⟩
    exact ⟨index, ⟨change, hchange, hold⟩, hname⟩

/-- A table without changes stays as it is. -/
theorem edit_changesOf_of_notMem (h : table ∉ d.changedTables) (t : Table) :
    (d.changesOf table).edit t = t := by
  have hnone : ∀ {α : Type} (list : List (String × Difference α)), table ∉ list.map Prod.fst →
      ofTable table list = [] := by
    intro α list hlist
    simp only [ofTable, List.map_eq_nil_iff, List.filter_eq_nil_iff, beq_iff_eq]
    exact fun entry hentry hname => hlist (List.mem_map.2 ⟨entry, hentry, hname⟩)
  simp only [changedTables, List.mem_eraseDups, List.mem_append, not_or] at h
  have hcolumns := hnone d.columns h.1.1
  have hindexes := hnone d.indexes h.1.2
  have hkept : t.columns.without [] = t.columns := by
    ext1
    simp [Assoc.without]
  simp [TableChanges.edit, TableChanges.newColumns, TableChanges.addColumns, TableChanges.alterColumns,
    TableChanges.goneColumns, TableChanges.dropColumns, TableChanges.goneIndexes,
    TableChanges.dropIndexes, TableChanges.addIndexes, changesOf, hcolumns, hindexes,
    Table.withoutColumns, Table.withoutIndexes, hkept]

/-! ## What the changes make of a table -/

variable {new old : Table}

theorem follows_columns_edit (hnew : new.columns.IsNamed Column.name)
    (hold : old.columns.IsNamed Column.name)
    (h : ∀ change, change ∈ ofTable table d.columns ↔
      Column.rules.Requires id (fun _ => true) new.columns.values old.columns.values change) :
    Column.rules.Follows (fun _ => true) new.columns.values old.columns.values
      ((d.changesOf table).edit old).columns.values := by
  let c := d.changesOf table
  have hedit : (c.edit old).columns.IsNamed Column.name := TableChanges.isNamed_columns_edit hold
  have hplace : ∀ column ∈ c.newColumns, column ∈ new.columns.values := by
    intro column hcolumn
    obtain ⟨change, hchange, hcolumn⟩ := mem_newColumns_changesOf.1 hcolumn
    exact (((h change).1 hchange).desired_of_new? hcolumn).1
  have hgone : ∀ name ∈ c.goneColumns, ∀ column ∈ new.columns.values, column.name ≠ name := by
    intro name hname
    obtain ⟨column, hdrop, rfl⟩ := mem_goneColumns_changesOf.1 hname
    exact ItemRules.find?_eq_none_iff.1 ((h _).1 hdrop).2.2
  constructor
  · intro change hrequires column hcolumn
    have hmem := (hrequires.desired_of_new? hcolumn).1
    have hcolumn : column ∈ c.newColumns :=
      mem_newColumns_changesOf.2 ⟨change, (h change).2 hrequires, hcolumn⟩
    have hunique : ∀ other ∈ c.newColumns, other.name = column.name → other = column := by
      intro other hother hname
      have hfound := hnew.get?_of_mem (hplace other hother)
      rw [hname, hnew.get?_of_mem hmem] at hfound
      exact (Option.some.inj hfound).symm
    refine ⟨{ column with table := old.name }, ?_, column.changes_attached old.name⟩
    refine (ItemRules.find?_values hedit _).trans ?_
    exact TableChanges.get?_columns_edit_of_new (fun hname => hgone _ hname column hmem rfl)
      (List.mem_map.2 ⟨column, hcolumn, rfl⟩) hunique
  · intro column hrequires
    refine (ItemRules.find?_values hedit _).trans (TableChanges.get?_columns_edit_of_gone ?_)
    exact mem_goneColumns_changesOf.2 ⟨column, (h _).2 hrequires, rfl⟩
  · intro name hidle
    rw [ItemRules.find?_values hedit, ItemRules.find?_values hold]
    refine TableChanges.get?_columns_edit_of_kept ?_ ?_
    · intro hname
      obtain ⟨column, hdrop, hname⟩ := mem_goneColumns_changesOf.1 hname
      exact hidle _ ((h _).1 hdrop) hname
    · intro hname
      obtain ⟨column, hcolumn, hname⟩ := List.mem_map.1 hname
      obtain ⟨change, hchange, hcolumn⟩ := mem_newColumns_changesOf.1 hcolumn
      exact hidle change ((h change).1 hchange) ((ItemRules.subject_of_new? hcolumn).trans hname)

theorem follows_indexes_edit (hnew : (new.indexes.map Index.name).Nodup)
    (h : ∀ change, change ∈ ofTable table d.indexes ↔
      (Index.rules id).Requires id (fun _ => true) new.indexes old.indexes change) :
    (Index.rules id).Follows (fun _ => true) new.indexes old.indexes
      ((d.changesOf table).edit old).indexes := by
  let c := d.changesOf table
  have hadd : ∀ index ∈ c.addIndexes, index ∈ new.indexes := by
    intro index hindex
    obtain ⟨change, hchange, hindex⟩ := mem_addIndexes_changesOf.1 hindex
    exact (((h change).1 hchange).desired_of_new? hindex).1
  constructor
  · intro change hrequires index hindex
    have hmem := (hrequires.desired_of_new? hindex).1
    refine ⟨{ index with table := old.name }, ?_, index.changes_attached id old.name⟩
    refine TableChanges.index?_edit_of_new
      (mem_addIndexes_changesOf.2 ⟨change, (h change).2 hrequires, hindex⟩)
      (fun other hother => List.inj_on_of_nodup_map hnew (hadd other hother) hmem) fun hstays => ?_
    cases change with
    | create _ =>
      cases hindex
      exact hrequires.2.2
    | alter found _ =>
      cases hindex
      exact absurd (mem_goneIndexes_changesOf.2 ⟨_, (h _).2 hrequires, found, rfl,
        (hrequires.current_of_old? rfl).2.symm⟩) hstays
    | drop _ => cases hindex
  · intro index hrequires
    have hunwanted : ∀ other ∈ c.addIndexes, other.name ≠ index.name := fun other hother =>
      ItemRules.find?_eq_none_iff.1 hrequires.2.2 other (hadd other hother)
    exact (TableChanges.index?_edit_of_notMem hunwanted).trans
      (if_pos (mem_goneIndexes_changesOf.2 ⟨_, (h _).2 hrequires, index, rfl, rfl⟩))
  · intro name hidle
    have hgone : name ∉ c.goneIndexes := by
      intro hname
      obtain ⟨change, hchange, index, hindex, hname⟩ := mem_goneIndexes_changesOf.1 hname
      have hrequires := (h change).1 hchange
      exact hidle change hrequires ((hrequires.current_of_old? hindex).2.trans hname)
    have hidle : ∀ index ∈ c.addIndexes, index.name ≠ name := by
      intro index hindex hname
      obtain ⟨change, hchange, hindex⟩ := mem_addIndexes_changesOf.1 hindex
      exact hidle change ((h change).1 hchange) ((ItemRules.subject_of_new? hindex).trans hname)
    exact (TableChanges.index?_edit_of_notMem hidle).trans (if_neg hgone)

end SchemaDiff

end EntitySql
