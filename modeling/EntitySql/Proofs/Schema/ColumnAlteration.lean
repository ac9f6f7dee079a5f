import EntitySql.Proofs.Schema.DefaultKey
import EntitySql.Proofs.Schema.DefinitionText
import EntitySql.Proofs.Schema.Difference
import EntitySql.Schema.Diff.Statements
/-!
# Altering a column

What the statements of a column change make of the current column (`ColumnChange.alters_iff`). Each clause of PostgreSQL
sets one attribute, and its default is also what makes a column count up there: a column that counts up has the next
value of a sequence for its default. MySQL and MariaDB replace the whole definition, and what it does not
state (`Ddl.states`) is gone; a constraint alone is only ever added. So every attribute of the desired column is
reached, but in PostgreSQL a column counts up afterwards exactly if its desired default is a sequence, whatever is
desired.
-/

namespace EntitySql

/-- Whether the default is the next value of a sequence. -/
def ColumnDefault.isSequence : ColumnDefault → Bool
  | expression sql => "nextval(".toList.isPrefixOf ((Text.trim sql.toList).map Char.toLower)
  | _ => false

namespace Ddl

/-- Whether the definition of a column states the clause. -/
def states (definition : Sql) (clause : String) : Bool := definition.contains (.word clause)

/-- What a statement makes of the column that it changes. A replaced definition keeps nothing but a constraint
that the column has already. -/
def altered (d : Dialect) (statement : Ddl) (c : Column) : Column :=
  match statement with
  | setType _ _ type => { c with type := type.stored d }
  | setNullable _ _ nullable => { c with nullable }
  | setDefault _ _ default? => { c with default?, isAutoIncrement := default?.any (·.isSequence) }
  | addUnique _ _ => { c with isUnique := true }
  | dropUnique _ _ => { c with isUnique := false }
  | modifyColumn _ column =>
    let definition := columnSql d false column
    { c with
      type := column.type.stored d
      nullable := !states definition " NOT NULL"
      isUnique := c.isUnique || states definition " UNIQUE"
      isAutoIncrement := states definition " AUTO_INCREMENT"
      default? := if states definition " DEFAULT " then column.default? else none }
  | _ => c

/-! ## What a definition states -/

/-- The clauses of a column's definition. -/
def clauses : List String := [" NOT NULL", " UNIQUE", " DEFAULT ", " AUTO_INCREMENT"]

variable {d : Dialect} {clause : String}

theorem head?_of_mem_clauses (h : clause ∈ clauses) : clause.toList.head? = some ' ' := by
  have hall : ∀ clause ∈ clauses, clause.toList.head? = some ' ' := by decide
  exact hall clause h

theorem word_notMem_typeSql (h : clause ∈ clauses) (t : ColumnType) : .word clause ∉ typeSql t d := by
  have hblank := head?_of_mem_clauses h
  unfold typeSql
  split
  · simp
  · rename_i hknown
    have hwords : ∀ word ∈ Dialect.typeWords ++ Dialect.numberedWords,
        ∃ c, word.toList.head? = some c ∧ c ≠ ' ' := by
      have hall : ∀ word ∈ Dialect.typeWords ++ Dialect.numberedWords,
          word.toList.head?.any (· ≠ ' ') = true := by decide
      simpa only [Option.any_eq_true, decide_eq_true_eq] using hall
    have hbase : ∃ c, (t.baseSql d).toList.head? = some c ∧ c ≠ ' ' := by
      rcases Dialect.baseSql_cases hknown d with hword | ⟨word, hword, numbers, hnumbers⟩
      · exact hwords _ (List.mem_append_left _ hword)
      · obtain ⟨c, hc, hne⟩ := hwords word (List.mem_append_right _ hword)
        exact ⟨c, by simp [hnumbers, ColumnType.withNumbers, hc], hne⟩
    obtain ⟨c, hc, hne⟩ := hbase
    have hhead : (t.toSql d).toList.head? = some c := by
      unfold ColumnType.toSql
      split
      · simp [hc]
      · exact hc
    rw [List.mem_singleton, Sql.Piece.word.injEq]
    rintro rfl
    exact hne (Option.some.inj (hhead.symm.trans hblank))

theorem word_notMem_default (h : clause ∈ clauses) (default : ColumnDefault) :
    .word clause ∉ default.toSql := by
  have hblank := head?_of_mem_clauses h
  have hfixed : ∀ text : String, ColumnDefault.isFixed text.toList = true → clause ≠ text := by
    rintro _ htext rfl
    obtain ⟨hchars, _⟩ := ColumnDefault.isFixed_iff.1 htext
    exact absurd (hchars ' ' (List.mem_of_mem_head? hblank)) (by decide)
  cases default with
  | null => simpa [ColumnDefault.toSql] using hfixed "NULL" (by decide)
  | boolean b => cases b <;> simpa [ColumnDefault.toSql] using hfixed _ (by decide)
  | integer n =>
    have hnumber := ColumnDefault.isFixed_of_forall (ColumnDefault.isNumberChar_of_isSigned (Lexer.isSigned_int n))
    simpa [ColumnDefault.toSql] using hfixed _ hnumber
  | float x => simpa [ColumnDefault.toSql] using hfixed _ (ColumnDefault.isFixed_toText x)
  | string s => simp [ColumnDefault.toSql]
  | expression sql => simp [ColumnDefault.toSql]

theorem word_mem_wordsIf {condition : Bool} {text : String} :
    .word clause ∈ wordsIf condition text ↔ condition = true ∧ clause = text := by
  unfold wordsIf
  split <;> simp [*]

theorem word_notMem_commentSql (h : clause ∈ clauses) (comment? : Option String) :
    .word clause ∉ commentSql d " COMMENT " comment? := by
  have hother : " COMMENT " ∉ clauses := by decide
  unfold commentSql
  split
  · simp only [List.mem_cons, Sql.Piece.word.injEq, reduceCtorEq, List.not_mem_nil, or_false]
    rintro rfl
    exact hother h
  · simp

/-- The default as a definition states it. -/
def defaultClause : Option ColumnDefault → Sql
  | some default => .word " DEFAULT " :: default.toSql
  | none => []

theorem word_mem_defaultClause (h : clause ∈ clauses) (default? : Option ColumnDefault) :
    .word clause ∈ defaultClause default? ↔ default?.isSome = true ∧ clause = " DEFAULT " := by
  cases default? with
  | none => simp [defaultClause]
  | some default => simp [defaultClause, word_notMem_default h]

theorem columnSql_of_isMySqlLike (hd : d.isMySqlLike = true) (c : Column) :
    columnSql d false c = .name c.name :: .word " " :: typeSql c.type d ++
      (wordsIf (!c.nullable) " NOT NULL" ++ wordsIf c.isUnique " UNIQUE" ++
        defaultClause c.default? ++ wordsIf c.isAutoIncrement " AUTO_INCREMENT" ++
          commentSql d " COMMENT " c.comment?) := by
  have hstyle : d.serialStyle = .autoIncrement := by
    cases d
    case mysql | mariadb => rfl
    all_goals cases hd
  cases hdefault : c.default? <;>
    simp [columnSql, constraintsSql, isSerial, hstyle, defaultClause, hdefault, wordsIf]

/-- A definition in the grammar of MySQL states what the column asks for. -/
theorem states_columnSql (hd : d.isMySqlLike = true) (c : Column) :
    states (columnSql d false c) " NOT NULL" = !c.nullable ∧
      states (columnSql d false c) " UNIQUE" = c.isUnique ∧
        states (columnSql d false c) " DEFAULT " = c.default?.isSome ∧
          states (columnSql d false c) " AUTO_INCREMENT" = c.isAutoIncrement := by
  have hmem : ∀ clause ∈ clauses, states (columnSql d false c) clause = true ↔
      c.nullable = false ∧ clause = " NOT NULL" ∨ c.isUnique = true ∧ clause = " UNIQUE" ∨
        c.default?.isSome = true ∧ clause = " DEFAULT " ∨
          c.isAutoIncrement = true ∧ clause = " AUTO_INCREMENT" := by
    intro clause hclause
    have hblank : clause ≠ " " := by
      rintro rfl
      exact absurd hclause (by decide)
    rw [states, List.contains_iff_mem, columnSql_of_isMySqlLike hd]
    simp only [List.cons_append, List.mem_cons, List.mem_append, Sql.Piece.word.injEq, reduceCtorEq, hblank,
      word_notMem_typeSql hclause, word_notMem_commentSql hclause, word_mem_defaultClause hclause, word_mem_wordsIf,
      Bool.not_eq_true', false_or, or_false, or_assoc]
  refine ⟨?_, ?_, ?_, ?_⟩ <;> rw [Bool.eq_iff_iff, hmem _ (by decide)] <;> simp

end Ddl

/-- Whether the current column has the attributes of the desired one, with the type as it is stored. -/
structure Column.Attains (d : Dialect) (desired current : Column) : Prop where
  nullable : current.nullable = desired.nullable
  isUnique : current.isUnique = desired.isUnique
  isAutoIncrement : current.isAutoIncrement = desired.isAutoIncrement
  type : current.type = desired.type.stored d
  default? : current.default? = desired.default?

/-- Whether the column counts up exactly if its default is a sequence. -/
def Column.CountsByDefault (c : Column) : Prop := c.isAutoIncrement = c.default?.any (·.isSequence)

namespace ColumnChange

/-- What the statements make of the current column. -/
def outcome (d : Dialect) (c : ColumnChange) : Column :=
  { c.old with
    type := c.new.type.stored d
    nullable := c.new.nullable
    isUnique := c.new.isUnique
    isAutoIncrement := if d.isMySqlLike then c.new.isAutoIncrement else c.new.default?.any (·.isSequence)
    default? := c.new.default? }

variable {d : Dialect} (table : String) (c : ColumnChange)

/-- Each clause of PostgreSQL sets its attribute and leaves the others alone. -/
theorem foldl_altered_postgres : ∃ statements, c.statements .postgres table = .ok statements ∧
    statements.foldl (fun column s => s.altered .postgres column) c.old = c.outcome .postgres := by
  refine ⟨_, rfl, ?_⟩
  rw [List.foldl_append]
  cases hold : c.old.isUnique <;> cases hnew : c.new.isUnique <;>
    simp [Ddl.altered, outcome, Dialect.isMySqlLike, hold, hnew]

/-- A replaced definition has no `UNIQUE` where the column has the constraint already. -/
theorem altered_modifyColumn (hd : d.isMySqlLike = true) (column : Column) :
    (Ddl.modifyColumn table { c.new with isUnique := c.new.isUnique && !c.old.isUnique }).altered d column =
      { column with
        type := c.new.type.stored d
        nullable := c.new.nullable
        isUnique := column.isUnique || (c.new.isUnique && !c.old.isUnique)
        isAutoIncrement := c.new.isAutoIncrement
        default? := c.new.default? } := by
  obtain ⟨hnull, hunique, hdefault, hcounting⟩ :=
    Ddl.states_columnSql hd { c.new with isUnique := c.new.isUnique && !c.old.isUnique }
  simp only [Ddl.altered, hnull, hunique, hdefault, hcounting, Bool.not_not]
  cases c.new.default? <;> rfl

theorem foldl_altered_mySql (hd : d.isMySqlLike = true) :
    ∃ statements, c.statements d table = .ok statements ∧
      statements.foldl (fun column s => s.altered d column) c.old = c.outcome d := by
  have hstatements : c.statements d table =
      .ok ((if c.old.isUnique && !c.new.isUnique then [.dropUnique table c.new.name] else []) ++
        [.modifyColumn table { c.new with isUnique := c.new.isUnique && !c.old.isUnique }]) := by
    cases d
    case mysql | mariadb => rfl
    all_goals cases hd
  refine ⟨_, hstatements, ?_⟩
  rw [List.foldl_append, List.foldl_cons, List.foldl_nil, altered_modifyColumn table c hd]
  cases hold : c.old.isUnique <;> cases hnew : c.new.isUnique <;> simp [Ddl.altered, outcome, hd, hold, hnew]

theorem outcome_attains_iff : c.new.Attains d (c.outcome d) ↔
    d.isMySqlLike = true ∨ c.new.CountsByDefault := by
  have hcounting : (c.outcome d).isAutoIncrement = c.new.isAutoIncrement ↔
      d.isMySqlLike = true ∨ c.new.CountsByDefault := by
    cases hd : d.isMySqlLike <;> simp [outcome, Column.CountsByDefault, hd, eq_comm]
  rw [← hcounting]
  exact ⟨(·.isAutoIncrement), fun h => ⟨rfl, rfl, h, rfl, rfl⟩⟩

/-- Another comparison looks at the same attributes. -/
theorem changes_outcome_eq_nil_iff :
    Column.changes (c.outcome d) { c.new with type := c.new.type.stored d } = [] ↔
      c.new.Attains d (c.outcome d) := by
  have htype : Column.typesMatch (c.outcome d) { c.new with type := c.new.type.stored d } = true := by
    simp [Column.typesMatch, outcome, ColumnType.isEquivalent_self]
  have hdefault : Column.defaultsMatch (c.outcome d) { c.new with type := c.new.type.stored d } = true := by
    simp [Column.defaultsMatch, outcome]
  rw [Column.changes_eq_nil_iff]
  exact ⟨fun h => ⟨rfl, rfl, h.2.2.1, rfl, rfl⟩, fun h => ⟨rfl, rfl, h.isAutoIncrement, htype, hdefault⟩⟩

/-- The statements of a column change give the current column the attributes of the desired one, and another
comparison finds no difference, exactly if the whole definition is replaced or the desired column counts up
by its default. -/
theorem alters_iff (hd : d.alterForeignKeys = true) :
    ∃ statements, c.statements d table = .ok statements ∧
      (c.new.Attains d (statements.foldl (fun column s => s.altered d column) c.old) ↔
        d.isMySqlLike = true ∨ c.new.CountsByDefault) ∧
      (Column.changes (statements.foldl (fun column s => s.altered d column) c.old)
          { c.new with type := c.new.type.stored d } = [] ↔
        d.isMySqlLike = true ∨ c.new.CountsByDefault) := by
  have hreached : ∃ statements, c.statements d table = .ok statements ∧
      statements.foldl (fun column s => s.altered d column) c.old = c.outcome d := by
    cases d with
    | postgres => exact foldl_altered_postgres table c
    | mysql | mariadb => exact foldl_altered_mySql table c rfl
    | sqlite => cases hd
  obtain ⟨statements, hstatements, houtcome⟩ := hreached
  refine ⟨statements, hstatements, ?_, ?_⟩
  · rw [houtcome, outcome_attains_iff]
  · rw [houtcome, changes_outcome_eq_nil_iff, outcome_attains_iff]

/-- A definition that is replaced counts up as it says. -/
theorem alters_key_of_item :
    let id : Column := { name := "id", type := .integer .big, isAutoIncrement := true }
    let change : ColumnChange := { old := id, new := { id with nullable := false, isUnique := true } }
    ∃ statements, change.statements .mysql "item" = .ok statements ∧
      change.new.Attains .mysql (statements.foldl (fun column s => s.altered .mysql column) id) := by
  intro id change
  obtain ⟨statements, hstatements, hattains, _⟩ := alters_iff (d := .mysql) "item" change rfl
  exact ⟨statements, hstatements, hattains.2 (.inl rfl)⟩

/-- The sequence of a serial column goes with its default when the column is only to be filled. -/
theorem loses_sequence_of_item :
    let live : Column :=
      { name := "id", type := .integer .regular, isAutoIncrement := true,
        default? := some (.expression "nextval('item_id_seq'::regclass)") }
    let desired : Column :=
      { name := "id", type := .integer .regular, isAutoIncrement := true, nullable := false }
    let statements : List Ddl :=
      [.setType "item" "id" (.integer .regular), .setNullable "item" "id" false, .setDefault "item" "id" none]
    Column.changes live desired = ["nullable: true → false"] ∧
      ({ old := live, new := desired } : ColumnChange).statements .postgres "item" = .ok statements ∧
        Column.changes (statements.foldl (fun column s => s.altered .postgres column) live) desired =
          ["autoIncrement: false → true"] := by
  decide +kernel

end ColumnChange

end EntitySql
