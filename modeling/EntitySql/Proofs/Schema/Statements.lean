import EntitySql.Proofs.Schema.Objects
/-!
# What the statements of differences do to objects

The statements of a list of differences are those of its parts, one after the other
(`TableDiff.ddl_of_allStatements_eq_ok`). Changing a column in place creates and drops nothing, so what the
changes of a table create and drop are the columns, indexes and foreign keys that they list.
-/

namespace EntitySql

/-- The statements that change a column, none if the dialect has none. -/
def ColumnChange.ddl (d : Dialect) (table : String) (c : ColumnChange) : List Ddl :=
  ((c.statements d table).toOption).getD []

/-- The statements that apply the changes of a table, with those for columns that cannot be altered left
out. -/
def TableChanges.ddl (d : Dialect) (table : String) (c : TableChanges) : List Ddl :=
  c.dropForeignKeys.map .dropForeignKey ++ c.dropIndexes.map .dropIndex ++
    c.addColumns.map (.addColumn table) ++ c.alterColumns.flatMap (ColumnChange.ddl d table) ++
    c.dropColumns.map (fun column => .dropColumn table column.name) ++
    c.addIndexes.map (.createIndex · false) ++ c.addForeignKeys.map .addForeignKey

namespace TableDiff

/-- The statements that apply the differences of a table, with what cannot be said in SQL left out. -/
def ddl (d : Dialect) : TableDiff → List Ddl
  | create _ (some definition) => definition.statements false
  | create _ none => []
  | alter table changes => changes.ddl d table

/-- The statements of differences, one after the other. -/
def allStatements (d : Dialect) (diffs : List TableDiff) : Except SchemaError (List Ddl) := do
  return (← diffs.mapM (·.statements d)).flatten

end TableDiff

section Parts

variable {ε α β : Type} {f : α → Except ε (List β)} {g : α → List β}

/-- The results of a computation for each item, one after the other. -/
theorem flatten_mapM_cons (a : α) (rest : List α) :
    (do return (← (a :: rest).mapM f).flatten : Except ε (List β)) = do
      let part ← f a
      let parts ← (do return (← rest.mapM f).flatten : Except ε (List β))
      return part ++ parts := by
  rw [List.mapM_cons]
  cases f a with
  | error e => rfl
  | ok part => cases rest.mapM f <;> rfl

theorem flatten_mapM_of_forall {items : List α} (h : ∀ a ∈ items, f a = .ok (g a)) :
    (do return (← items.mapM f).flatten) = Except.ok (items.flatMap g) := by
  induction items with
  | nil => rfl
  | cons a rest ih =>
    rw [flatten_mapM_cons, h a (.head rest), ih fun b hb => h b (.tail a hb)]
    rfl

/-- Parts that are put together make a whole only if each part has a result. -/
theorem eq_flatMap_of_flatten_mapM (hf : ∀ a part, f a = .ok part → part = g a) {items : List α}
    {out : List β} (h : (do return (← items.mapM f).flatten) = Except.ok out) :
    out = items.flatMap g := by
  induction items generalizing out with
  | nil =>
    cases h
    rfl
  | cons a rest ih =>
    rw [flatten_mapM_cons] at h
    obtain ⟨part, hpart, hrest⟩ := ok_of_bind_eq_ok h
    obtain ⟨parts, hparts, hout⟩ := ok_of_bind_eq_ok hrest
    cases hout
    rw [List.flatMap_cons, ← hf a part hpart, ← ih hparts]

end Parts

theorem ColumnChange.ddl_of_statements_eq_ok {d : Dialect} {table : String} {c : ColumnChange}
    {part : List Ddl} (h : c.statements d table = .ok part) : part = c.ddl d table := by
  rw [ddl, h]
  rfl

theorem TableDiff.ddl_of_statements_eq_ok {d : Dialect} {t : TableDiff} {part : List Ddl}
    (h : t.statements d = .ok part) : part = t.ddl d := by
  rcases t with ⟨_, _ | definition⟩ | ⟨table, changes⟩
  · cases h
  · cases h
    rfl
  · obtain ⟨altered, haltered, hpart⟩ := ok_of_bind_eq_ok h
    cases hpart
    rw [eq_flatMap_of_flatten_mapM (fun _ _ => ColumnChange.ddl_of_statements_eq_ok) haltered]
    rfl

/-- The statements of differences, if there are any, are those of the parts. -/
theorem TableDiff.ddl_of_allStatements_eq_ok {d : Dialect} {diffs : List TableDiff}
    {statements : List Ddl} (h : allStatements d diffs = .ok statements) :
    statements = diffs.flatMap (TableDiff.ddl d) :=
  eq_flatMap_of_flatten_mapM (fun _ _ => TableDiff.ddl_of_statements_eq_ok) h

/-- Where foreign keys can be altered so can columns. -/
theorem ColumnChange.statements_eq {d : Dialect} (hd : d.alterForeignKeys = true) (table : String)
    (c : ColumnChange) : c.statements d table = .ok (c.ddl d table) := by
  cases d
  case sqlite => cases hd
  all_goals rfl

/-- Where columns can be altered every difference has statements, if created tables are defined. -/
theorem TableDiff.allStatements_eq {d : Dialect} (hd : d.alterForeignKeys = true)
    {diffs : List TableDiff} (hdefined : ∀ table, create table none ∉ diffs) :
    allStatements d diffs = .ok (diffs.flatMap (TableDiff.ddl d)) := by
  refine flatten_mapM_of_forall fun t ht => ?_
  rcases t with ⟨table, _ | definition⟩ | ⟨table, changes⟩
  · exact absurd ht (hdefined table)
  · rfl
  · have haltered : ColumnChange.allStatements changes.alterColumns d table =
        .ok (changes.alterColumns.flatMap (ColumnChange.ddl d table)) :=
      flatten_mapM_of_forall fun c _ => c.statements_eq hd table
    rw [statements, TableChanges.statements, haltered]
    rfl

/-! ## What they create and drop -/

/-- Whether the statement neither creates nor drops anything. -/
structure Ddl.IsIdle (d : Dialect) (s : Ddl) : Prop where
  plain : s.isPlain = true
  created : s.created d = []
  drops : ∀ name, s.drops d name = false

/-- The statements that change a column, by their kinds. All of them name the column. -/
theorem ColumnChange.forall_mem_ddl {d : Dialect} {table : String} {c : ColumnChange} {P : Ddl → Prop}
    (setType : ∀ type, P (.setType table c.new.name type))
    (setNullable : ∀ nullable, P (.setNullable table c.new.name nullable))
    (setDefault : ∀ default?, P (.setDefault table c.new.name default?))
    (addUnique : P (.addUnique table c.new.name))
    (dropUnique : P (.dropUnique table c.new.name))
    (modifyColumn : ∀ column, column.name = c.new.name → P (.modifyColumn table column)) :
    ∀ s ∈ c.ddl d table, P s := by
  have huniqueness : ∀ (condition : Prop) [Decidable condition],
      ∀ s ∈ (if condition then [Ddl.dropUnique table c.new.name] else []), P s := by
    intro condition _ s hs
    split at hs
    · rw [List.mem_singleton.1 hs]
      exact dropUnique
    · cases hs
  cases d
  case sqlite => exact List.forall_mem_nil _
  case postgres =>
    simp only [ddl, statements, Except.toOption, Option.getD_some, List.forall_mem_append,
      List.forall_mem_cons]
    refine ⟨⟨setType _, setNullable _, setDefault _, List.forall_mem_nil _⟩, ?_⟩
    split
    · exact List.forall_mem_singleton.2 addUnique
    · exact huniqueness _
  case mysql | mariadb =>
    simp only [ddl, statements, Except.toOption, Option.getD_some, List.forall_mem_append,
      List.forall_mem_singleton]
    exact ⟨huniqueness _, modifyColumn _ rfl⟩

/-- Changing a column in place creates nothing and drops nothing. -/
theorem ColumnChange.isIdle_of_mem_ddl {d : Dialect} {table : String} {c : ColumnChange} :
    ∀ s ∈ c.ddl d table, s.IsIdle d := by
  apply ColumnChange.forall_mem_ddl
  all_goals
    intros
    exact ⟨rfl, rfl, fun _ => rfl⟩

namespace TableChanges

variable {d : Dialect} {table : String} {c : TableChanges}

theorem isPlain_of_mem_ddl : ∀ s ∈ c.ddl d table, s.isPlain = true := by
  simp only [ddl, List.forall_mem_append, List.forall_mem_map, List.forall_mem_flatMap]
  refine ⟨⟨⟨⟨⟨⟨?_, ?_⟩, ?_⟩, ?_⟩, ?_⟩, ?_⟩, ?_⟩
  case refine_4 => exact fun change _ s hs => (ColumnChange.isIdle_of_mem_ddl s hs).plain
  all_goals exact fun _ _ => rfl

theorem mem_created_ddl_iff {o : SchemaObject} :
    (∃ s ∈ c.ddl d table, o ∈ s.created d) ↔
      (∃ column ∈ c.addColumns, o = .column table column.name) ∨
        (∃ i ∈ c.addIndexes, o = .index i) ∨
          d.alterForeignKeys = true ∧ ∃ key ∈ c.addForeignKeys, o = .foreignKey key := by
  constructor
  · rintro ⟨s, hs, ho⟩
    simp only [ddl, List.mem_append, List.mem_map, List.mem_flatMap] at hs
    rcases hs with (((((⟨_, _, rfl⟩ | ⟨_, _, rfl⟩) | ⟨column, hcolumn, rfl⟩) | ⟨change, _, hs⟩) |
      ⟨_, _, rfl⟩) | ⟨i, hi, rfl⟩) | ⟨key, hkey, rfl⟩
    · cases ho
    · cases ho
    · exact .inl ⟨column, hcolumn, List.mem_singleton.1 ho⟩
    · rw [(ColumnChange.isIdle_of_mem_ddl s hs).created] at ho
      cases ho
    · cases ho
    · exact .inr (.inl ⟨i, hi, List.mem_singleton.1 ho⟩)
    · rw [Ddl.created] at ho
      split at ho
      · exact .inr (.inr ⟨‹_›, key, hkey, List.mem_singleton.1 ho⟩)
      · cases ho
  · rintro (⟨column, hcolumn, rfl⟩ | ⟨i, hi, rfl⟩ | ⟨hd, key, hkey, rfl⟩)
    · exact ⟨.addColumn table column, by simp [ddl, hcolumn], .head _⟩
    · exact ⟨.createIndex i false, by simp [ddl, hi], .head _⟩
    · exact ⟨.addForeignKey key, by simp [ddl, hkey], by simp [Ddl.created, hd]⟩

theorem drops_ddl_iff {name : ObjectName} :
    (∃ s ∈ c.ddl d table, s.drops d name = true) ↔
      (d.alterForeignKeys = true ∧
          ∃ key ∈ c.dropForeignKeys, name = .foreignKey key.referencing.table key.name) ∨
        (∃ i ∈ c.dropIndexes, name = .index i.table i.name) ∨
          ∃ column ∈ c.dropColumns, name = .column table column.name := by
  constructor
  · rintro ⟨s, hs, hdrops⟩
    simp only [ddl, List.mem_append, List.mem_map, List.mem_flatMap] at hs
    rcases hs with (((((⟨key, hkey, rfl⟩ | ⟨i, hi, rfl⟩) | ⟨_, _, rfl⟩) | ⟨change, _, hs⟩) |
      ⟨column, hcolumn, rfl⟩) | ⟨_, _, rfl⟩) | ⟨_, _, rfl⟩
    · simp only [Ddl.drops, Bool.and_eq_true, beq_iff_eq] at hdrops
      exact .inl ⟨hdrops.1, key, hkey, hdrops.2⟩
    · simp only [Ddl.drops, beq_iff_eq] at hdrops
      exact .inr (.inl ⟨i, hi, hdrops⟩)
    · cases hdrops
    · rw [(ColumnChange.isIdle_of_mem_ddl s hs).drops] at hdrops
      cases hdrops
    · simp only [Ddl.drops, beq_iff_eq] at hdrops
      exact .inr (.inr ⟨column, hcolumn, hdrops⟩)
    · cases hdrops
    · cases hdrops
  · rintro (⟨hd, key, hkey, rfl⟩ | ⟨i, hi, rfl⟩ | ⟨column, hcolumn, rfl⟩)
    · exact ⟨.dropForeignKey key, by simp [ddl, hkey], by simp [Ddl.drops, hd]⟩
    · exact ⟨.dropIndex i, by simp [ddl, hi], by simp [Ddl.drops]⟩
    · refine ⟨.dropColumn table column.name, ?_, by simp [Ddl.drops]⟩
      simp only [ddl, List.mem_append, List.mem_map]
      exact .inl (.inl (.inr ⟨column, hcolumn, rfl⟩))

/-- Within the changes of a table drops stand in front of what they make room for, and new columns in front
of what uses them. -/
theorem eachAfter_ddl {P : List Ddl → Ddl → Prop}
    (dropKeys : ∀ front, ∀ key ∈ c.dropForeignKeys, P front (.dropForeignKey key))
    (dropIndexes : ∀ front, ∀ i ∈ c.dropIndexes, P front (.dropIndex i))
    (addColumns : ∀ front, ∀ column ∈ c.addColumns, P front (.addColumn table column))
    (idle : ∀ front s, s.IsIdle d → P front s)
    (dropColumns : ∀ front, (∀ key ∈ c.dropForeignKeys, .dropForeignKey key ∈ front) →
      (∀ i ∈ c.dropIndexes, .dropIndex i ∈ front) →
        ∀ column ∈ c.dropColumns, P front (.dropColumn table column.name))
    (addIndexes : ∀ front, (∀ i ∈ c.dropIndexes, .dropIndex i ∈ front) →
      (∀ column ∈ c.addColumns, .addColumn table column ∈ front) →
        ∀ i ∈ c.addIndexes, P front (.createIndex i false))
    (addKeys : ∀ front, (∀ key ∈ c.dropForeignKeys, .dropForeignKey key ∈ front) →
      (∀ column ∈ c.addColumns, .addColumn table column ∈ front) →
        ∀ key ∈ c.addForeignKeys, P front (.addForeignKey key)) :
    EachAfter P (c.ddl d table) := by
  simp only [ddl, EachAfter.append_iff, EachAfter.map_iff]
  refine ⟨⟨⟨⟨⟨⟨?_, ?_⟩, ?_⟩, ?_⟩, ?_⟩, ?_⟩, ?_⟩
  · exact .of_forall fun key hkey _ => dropKeys _ key hkey
  · exact .of_forall fun i hi _ => dropIndexes _ i hi
  · exact .of_forall fun column hcolumn _ => addColumns _ column hcolumn
  · refine .of_forall fun s hs front => idle _ s ?_
    obtain ⟨change, _, hs⟩ := List.mem_flatMap.1 hs
    exact ColumnChange.isIdle_of_mem_ddl s hs
  · exact .of_forall fun column hcolumn _ =>
      dropColumns _ (by simp +contextual) (by simp +contextual) column hcolumn
  · exact .of_forall fun i hi _ =>
      addIndexes _ (by simp +contextual) (by simp +contextual) i hi
  · exact .of_forall fun key hkey _ =>
      addKeys _ (by simp +contextual) (by simp +contextual) key hkey

end TableChanges

namespace TableDefinition

variable {d : Dialect} {definition : TableDefinition}

theorem isPlain_of_mem_statements : ∀ s ∈ definition.statements false, s.isPlain = true := by
  simp [statements, Ddl.isPlain]

/-- Creating a table drops nothing. -/
theorem drops_of_mem_statements {guarded : Bool} {name : ObjectName} :
    ∀ s ∈ definition.statements guarded, s.drops d name = false := by
  simp [statements, Ddl.drops]

theorem mem_created_statements_iff {guarded : Bool} {o : SchemaObject} :
    (∃ s ∈ definition.statements guarded, o ∈ s.created d) ↔
      o ∈ definition.table.objects ∨ (∃ key ∈ definition.foreignKeys, o = .foreignKey key) ∨
        ∃ i ∈ definition.table.indexes, o = .index i := by
  simp only [statements, List.exists_mem_cons_iff, List.mem_map, exists_exists_and_eq_and,
    Ddl.created, List.mem_append, List.mem_singleton, or_assoc, @eq_comm _ _ o]

end TableDefinition

end EntitySql
