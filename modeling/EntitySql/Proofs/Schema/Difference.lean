import EntitySql.Proofs.Schema.Order
import EntitySql.Schema.Diff.ByTable
import EntitySql.Schema.Diff.Compare
/-!
# Which changes a comparison finds

A comparison finds exactly the changes that the matches of names require (`ItemRules.Requires`), and
nothing where the two sides agree (`ItemRules.Agrees`). No item differs from itself, so two sides agree
as soon as what a name finds on the one side stands on the other.
-/

namespace EntitySql

namespace ItemRules

variable {α : Type} {rules : ItemRules α} {fold : String → String} {counts : α → Bool}
  {desired current : List α}

/-- Whether the change has to happen. -/
def Requires (rules : ItemRules α) (fold : String → String) (counts : α → Bool)
    (desired current : List α) : Change α → Prop
  | .create new =>
    new ∈ desired ∧ counts new = true ∧ rules.find? fold current (rules.name new) = none
  | .drop old =>
    old ∈ current ∧ counts old = true ∧ rules.find? fold desired (rules.name old) = none
  | .alter old new =>
    new ∈ desired ∧ counts new = true ∧ rules.find? fold current (rules.name new) = some old ∧
      rules.changes old new ≠ []

/-- Whether nothing has to happen: every desired item that counts has a match from which it does not
differ, and every current one has a match. -/
structure Agrees (rules : ItemRules α) (fold : String → String) (counts : α → Bool)
    (desired current : List α) : Prop where
  unchanged : ∀ new ∈ desired, counts new = true →
    ∃ old, rules.find? fold current (rules.name new) = some old ∧ rules.changes old new = []
  wanted : ∀ old ∈ current, counts old = true →
    ∃ new, rules.find? fold desired (rules.name old) = some new

theorem mem_map_change_iff {change : Change α} :
    change ∈ (rules.differences fold counts desired current).map (·.change) ↔
      rules.Requires fold counts desired current change := by
  simp only [differences, List.map_append, List.mem_append, List.mem_map, List.mem_filterMap,
    List.mem_filter]
  constructor
  · rintro (⟨_, ⟨new, ⟨hnew, hcounts⟩, hdifference⟩, rfl⟩ | ⟨_, ⟨old, ⟨hold, hcounts⟩, hdrop⟩, rfl⟩)
    · unfold difference? at hdifference
      split at hdifference
      · cases hdifference
        exact ⟨hnew, hcounts, ‹_›⟩
      · split at hdifference
        · cases hdifference
        · cases hdifference
          exact ⟨hnew, hcounts, ‹_›, ‹_›⟩
    · unfold drop? at hdrop
      split at hdrop
      · cases hdrop
        exact ⟨hold, hcounts, ‹_›⟩
      · cases hdrop
  · intro h
    cases change with
    | create new =>
      obtain ⟨hnew, hcounts, hfind⟩ := h
      exact .inl ⟨_, ⟨new, ⟨hnew, hcounts⟩, by rw [difference?, hfind]⟩, rfl⟩
    | drop old =>
      obtain ⟨hold, hcounts, hfind⟩ := h
      exact .inr ⟨_, ⟨old, ⟨hold, hcounts⟩, by rw [drop?, hfind]⟩, rfl⟩
    | alter old new =>
      obtain ⟨hnew, hcounts, hfind, hchanges⟩ := h
      refine .inl ⟨⟨rules.name new, .alter old new, ", ".intercalate (rules.changes old new)⟩,
        ⟨new, ⟨hnew, hcounts⟩, ?_⟩, rfl⟩
      rw [difference?, hfind]
      dsimp only
      split
      · exact absurd ‹_› hchanges
      · rfl

theorem agrees_iff :
    rules.Agrees fold counts desired current ↔
      ∀ change, ¬rules.Requires fold counts desired current change := by
  constructor
  · intro h change hrequires
    cases change with
    | create new =>
      obtain ⟨old, hold, _⟩ := h.unchanged new hrequires.1 hrequires.2.1
      exact nomatch hold.symm.trans hrequires.2.2
    | drop old =>
      obtain ⟨new, hnew⟩ := h.wanted old hrequires.1 hrequires.2.1
      exact nomatch hnew.symm.trans hrequires.2.2
    | alter old new =>
      obtain ⟨hnew, hcounts, hfind, hchanges⟩ := hrequires
      obtain ⟨found, hfound, hsame⟩ := h.unchanged new hnew hcounts
      exact hchanges (Option.some.inj (hfound.symm.trans hfind) ▸ hsame)
  · refine fun h => ⟨fun new hnew hcounts => ?_, fun old hold hcounts => ?_⟩
    · cases hfind : rules.find? fold current (rules.name new) with
      | none => exact absurd ⟨hnew, hcounts, hfind⟩ (h (.create new))
      | some old => exact ⟨old, rfl, Classical.byContradiction fun hchanges =>
          h (.alter old new) ⟨hnew, hcounts, hfind, hchanges⟩⟩
    · cases hfind : rules.find? fold desired (rules.name old) with
      | none => exact absurd ⟨hold, hcounts, hfind⟩ (h (.drop old))
      | some new => exact ⟨new, rfl⟩

theorem differences_eq_nil_iff :
    rules.differences fold counts desired current = [] ↔
      rules.Agrees fold counts desired current := by
  rw [agrees_iff, ← List.map_eq_nil_iff (f := (·.change)), List.eq_nil_iff_forall_not_mem]
  simp only [mem_map_change_iff]

theorem mem_of_find? {items : List α} {name : String} {item : α}
    (h : rules.find? id items name = some item) : item ∈ items ∧ rules.name item = name :=
  ⟨List.mem_of_find?_eq_some h, by simpa using List.find?_some h⟩

theorem find?_eq_none_iff {items : List α} {name : String} :
    rules.find? id items name = none ↔ ∀ item ∈ items, rules.name item ≠ name := by
  simp [find?]

/-- Items with distinct names are matched with themselves. -/
theorem find?_self {items : List α} (hitems : (items.map fun i => fold (rules.name i)).Nodup)
    {item : α} (hmem : item ∈ items) : rules.find? fold items (rules.name item) = some item := by
  induction items with
  | nil => cases hmem
  | cons first rest ih =>
    obtain ⟨hfirst, hrest⟩ := List.nodup_cons.1 hitems
    rcases List.mem_cons.1 hmem with rfl | hmem
    · simp [find?]
    · have hne : (fold (rules.name first) == fold (rules.name item)) = false := by
        rw [beq_eq_false_iff_ne]
        exact fun h => hfirst (List.mem_map.2 ⟨item, hmem, h.symm⟩)
      exact (List.find?_cons_of_neg (by simp [hne])).trans (ih hrest hmem)

/-- A list agrees with itself if the names are distinct and no item differs from itself. -/
theorem agrees_self {items : List α} (hitems : (items.map fun i => fold (rules.name i)).Nodup)
    (hself : ∀ i, rules.changes i i = []) : rules.Agrees fold counts items items where
  unchanged item hmem _ := ⟨item, find?_self hitems hmem, hself item⟩
  wanted item hmem _ := ⟨item, find?_self hitems hmem⟩

/-- Among items under their own names, matching a name is looking it up. -/
theorem find?_values {a : Assoc α} (ha : a.IsNamed rules.name) (name : String) :
    rules.find? id a.values name = a.get? name := ha.find?_eq name

end ItemRules

/-! ## No item differs from itself -/

@[simp]
theorem changedAttribute_true (label old new : String) :
    changedAttribute label true old new = [] := rfl

@[simp]
theorem changedFlag_self (label : String) (flag : Bool) : changedFlag label flag flag = [] := by
  simp [changedFlag]

theorem changedAttribute_eq_nil_iff {label old new : String} {same : Bool} :
    changedAttribute label same old new = [] ↔ same = true := by
  cases same <;> simp [changedAttribute]

theorem changedFlag_eq_nil_iff {label : String} {old new : Bool} :
    changedFlag label old new = [] ↔ old = new :=
  changedAttribute_eq_nil_iff.trans beq_iff_eq

theorem ColumnType.isEquivalent_self (t : ColumnType) : t.isEquivalent t = true := by
  have hagree : ∀ m : Option UInt32, modifiersAgree m m = true := by
    intro m
    cases m <;> simp [modifiersAgree]
  unfold isEquivalent
  cases t.category <;> simp [hagree]

/-- The table of a column is no attribute of it. -/
theorem Column.changes_attached (c : Column) (table : String) :
    changes { c with table := table } c = [] := by
  simp [changes, typesMatch, defaultsMatch, ColumnType.isEquivalent_self]

theorem Column.changes_self (c : Column) : changes c c = [] := c.changes_attached c.table

theorem Column.changes_eq_nil_iff {old new : Column} :
    changes old new = [] ↔
      old.nullable = new.nullable ∧ old.isUnique = new.isUnique ∧
        old.isAutoIncrement = new.isAutoIncrement ∧ typesMatch old new = true ∧
          defaultsMatch old new = true := by
  simp only [changes, List.append_eq_nil_iff, changedFlag_eq_nil_iff, changedAttribute_eq_nil_iff, and_assoc]

theorem Index.changes_attached (fold : String → String) (i : Index) (table : String) :
    changes fold { i with table := table } i = [] := by
  simp [changes, method]

theorem Index.changes_self (fold : String → String) (i : Index) : changes fold i i = [] :=
  i.changes_attached fold i.table

theorem Relationship.changes_self (fold : String → String) (r : Relationship) :
    changes fold r r = [] := by
  simp [changes, endsMatch]

/-! ## Two schemas -/

namespace DiffOptions

variable {o : DiffOptions}

theorem fold_of_exact (h : o.ignoreCase = false) : o.fold = id := by
  funext name
  rw [fold, h]
  rfl

theorem findTable?_of_exact (h : o.ignoreCase = false) (s : Schema) (name : String) :
    o.findTable? s name = s.table? name := by
  rw [findTable?, h]
  rfl

end DiffOptions

namespace Schema

/-- Tables, columns and relationships stand under their own names. -/
structure IsNamed (s : Schema) : Prop where
  tables : s.tables.IsNamed Table.name
  columns : ∀ t ∈ s.tables.values, t.columns.IsNamed Column.name
  relationships : s.relationships.IsNamed Relationship.name

instance (s : Schema) : Decidable s.IsNamed :=
  decidable_of_iff
    (s.tables.IsNamed Table.name ∧ (∀ t ∈ s.tables.values, t.columns.IsNamed Column.name) ∧
      s.relationships.IsNamed Relationship.name)
    ⟨fun ⟨tables, columns, relationships⟩ => { tables, columns, relationships },
      fun h => ⟨h.tables, h.columns, h.relationships⟩⟩

variable {desired current : Schema} {o : DiffOptions}

theorem mem_comparedTables {s : Schema} (hs : s.tables.IsNamed Table.name) {t : Table} :
    t ∈ s.comparedTables o ↔ s.table? t.name = some t ∧ o.excludes t.name = false := by
  rw [comparedTables, List.mem_filter, (s.sortedTables_perm hs).mem_iff, Bool.not_eq_true']
  exact and_congr_left fun _ => ⟨hs.get?_of_mem, Assoc.mem_values_of_get?⟩

theorem nodup_comparedTables {s : Schema} (hs : s.tables.IsNamed Table.name) :
    ((s.comparedTables o).map (·.name)).Nodup :=
  (List.filter_sublist.map _).nodup (((s.sortedTables_perm hs).map _).nodup_iff.2 hs.nodup)

theorem mem_matchedTables {new old : Table} :
    (new, old) ∈ matchedTables desired current o ↔
      new ∈ desired.comparedTables o ∧ o.findTable? current new.name = some old := by
  simp [matchedTables]

theorem mem_tablesToCreate {t : Table} :
    t ∈ (desired.diff current o).tablesToCreate ↔
      t ∈ desired.comparedTables o ∧ o.findTable? current t.name = none := by
  simp [diff]

theorem mem_tablesToDrop {t : Table} :
    t ∈ (desired.diff current o).tablesToDrop ↔
      t ∈ current.comparedTables o ∧ o.findTable? desired t.name = none := by
  simp [diff]

theorem columns_diff_eq_nil_iff :
    (desired.diff current o).columns = [] ↔
      ∀ pair ∈ matchedTables desired current o,
        Column.rules.Agrees o.fold (fun _ => true) pair.1.columns.values pair.2.columns.values := by
  simp only [diff, List.flatMap_eq_nil_iff, List.map_eq_nil_iff, ItemRules.differences_eq_nil_iff]

theorem indexes_diff_eq_nil_iff :
    (desired.diff current o).indexes = [] ↔
      (o.compareIndexes = true → ∀ pair ∈ matchedTables desired current o,
        (Index.rules o.fold).Agrees o.fold (fun _ => true) pair.1.indexes pair.2.indexes) := by
  simp only [diff]
  split
  · simp only [List.flatMap_eq_nil_iff, List.map_eq_nil_iff, ItemRules.differences_eq_nil_iff,
      ‹o.compareIndexes = true›, true_imp_iff]
  · simp [‹¬o.compareIndexes = true›]

theorem mem_relationships_diff {change : Change Relationship} :
    change ∈ (desired.diff current o).relationships.map (·.change) ↔
      o.compareRelationships = true ∧
        (Relationship.rules o.fold).Requires o.fold (fun r => !o.excludes r.referencing.table)
          desired.relationships.values current.relationships.values change := by
  simp only [diff]
  split
  · simp only [ItemRules.mem_map_change_iff, ‹o.compareRelationships = true›, true_and]
  · simp [‹¬o.compareRelationships = true›]

theorem relationships_diff_eq_nil_iff :
    (desired.diff current o).relationships = [] ↔
      (o.compareRelationships = true →
        (Relationship.rules o.fold).Agrees o.fold (fun r => !o.excludes r.referencing.table)
          desired.relationships.values current.relationships.values) := by
  rw [← List.map_eq_nil_iff (f := (·.change)), List.eq_nil_iff_forall_not_mem]
  simp only [mem_relationships_diff, ItemRules.agrees_iff, not_and]
  exact ⟨fun h hcompare change => h change hcompare, fun h change hcompare => h hcompare change⟩

end Schema

/-- No statement is asked for if nothing differs but tables to drop and what goes with them. -/
theorem SchemaDiff.tableDiffs_eq_nil_iff {d : SchemaDiff} :
    d.tableDiffs = [] ↔ d.tablesToCreate = [] ∧ d.columns = [] ∧ d.indexes = [] ∧
      ∀ r ∈ d.relationships, d.droppedKey? r = none ∧ d.addedKey? r = none := by
  have hdups : ∀ names : List String, names.eraseDups = [] ↔ names = [] := fun names => by
    simp only [List.eq_nil_iff_forall_not_mem, List.mem_eraseDups]
  simp [tableDiffs, changedTables, hdups]

end EntitySql
