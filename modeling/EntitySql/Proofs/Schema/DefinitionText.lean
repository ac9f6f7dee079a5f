import EntitySql.Proofs.Reading.Definition
import EntitySql.Schema.Ddl
/-!
# The definition of a table

The statement that creates a table defines its columns and declares its keys. What callers write into a definition, the
spelling of an unknown type or an expression for a default, is taken to be one part that does not speak of keys
(`Column.IsReadable`); then a reader finds one part for each column and each clause, and the word `PRIMARY` only where
the key is declared (`Ddl.reading_createTable`).
-/

namespace EntitySql

open Lexeme Lexer

namespace Dialect

variable {d : Dialect}

/-! ## Types -/

/-- Numbers with commas between them stay between the parentheses of a type. -/
theorem isWhole_numbers (numbers : List UInt32) :
    d.IsWhole [.word (",".intercalate (numbers.map fun n => toString n.toNat))] ∧
      ∀ t ∈ d.tokens [.word (",".intercalate (numbers.map fun n => toString n.toNat))],
        t.isKeyword "PRIMARY" = false := by
  have hchars : ∀ c ∈ (",".intercalate (numbers.map fun n => toString n.toNat)).toList,
      isNumeralChar c = true ∨ c = ',' := by
    have hnumber (n : UInt32) : ∀ c ∈ (toString n.toNat).toList, isNumeralChar c = true := by
      rw [show (toString n.toNat).toList = _ from Nat.toList_repr]
      exact (isNumeral_toDigits n.toNat).chars
    induction numbers with
    | nil => exact nofun
    | cons first rest ih =>
      cases rest with
      | nil =>
        intro c hc
        rw [List.map_singleton, String.intercalate_singleton] at hc
        exact .inl (hnumber first c hc)
      | cons second rest =>
        intro c hc
        rw [List.map_cons, List.map_cons, String.intercalate_cons_cons, String.toList_append, String.toList_append,
          List.mem_append, List.mem_append] at hc
        rcases hc with (hc | hc) | hc
        · exact .inl (hnumber first c hc)
        · exact .inr (List.mem_singleton.1 hc)
        · exact ih c hc
  generalize ",".intercalate (numbers.map fun n => toString n.toNat) = text at hchars
  have hplain : ∀ c ∈ text.toList, isPlain c = true := fun c hc => by
    rcases hchars c hc with h | rfl
    · exact isPlain_of_isNumeralChar h
    · decide
  have hletterless : ∀ c ∈ text.toList, isLetterless c = true := fun c hc => by
    rcases hchars c hc with h | rfl
    · exact isLetterless_of_isNumeralChar h
    · decide
  refine ⟨⟨?_, ?_⟩, isKeyword_of_mem_tokens hletterless⟩
  · simpa [renderPiece] using (Complete.of_isPlain d (List.all_eq_true.2 hplain)).settles
  · rw [tokens_word]
    obtain ⟨roles, hroles, _⟩ := IsUnjoined.of_role fun t ht => role_of_isLetterless (all_lexemes hletterless t ht)
    exact ⟨roles, hroles⟩

theorem IsPart.withNumbers {word : String} (hword : d.IsPart false [.word word]) (numbers : List UInt32) :
    d.IsPart false [.word (ColumnType.withNumbers word numbers)] := by
  obtain ⟨hwhole, hkeyless⟩ := isWhole_numbers (d := d) numbers
  have hpart := hword.append (.parenthesized hwhole hkeyless) (opens_parenthesized _)
  refine .of_characters_eq ?_ hpart
  simp [ColumnType.withNumbers, Sql.parenthesized, renderPiece]

/-- The words for types that have no numbers, or fixed ones. -/
def typeWords : List String :=
  ["SMALLINT", "TINYINT", "INTEGER", "MEDIUMINT", "INT", "BIGINT", "FLOAT", "REAL", "DOUBLE PRECISION", "DOUBLE",
    "DECIMAL", "TEXT", "TINYINT(1)", "BOOLEAN", "DATE", "TIMETZ", "TIME", "TIMESTAMPTZ", "TIMESTAMP", "JSONB", "JSON",
    "CHAR(36)", "UUID", "BYTEA", "BLOB", "VECTOR"]

/-- The words for types that take numbers. -/
def numberedWords : List String := ["DECIMAL", "VARCHAR", "VECTOR"]

theorem IsPart.typeWord {word : String} (h : word ∈ typeWords ++ numberedWords) : d.IsPart false [.word word] := by
  have hreads : ∀ word ∈ typeWords ++ numberedWords, d.readsAsPart false word.toList = true := by cases d <;> decide
  have hpart := IsPart.of_reads (hreads word h)
  rwa [String.ofList_toList] at hpart

theorem baseSql_cases {t : ColumnType} (h : t.category ≠ .unknown) (d : Dialect) :
    t.baseSql d ∈ typeWords ∨ ∃ word ∈ numberedWords, ∃ numbers,
      t.baseSql d = ColumnType.withNumbers word numbers := by
  unfold ColumnType.baseSql
  cases hcategory : t.category
  case unknown => exact absurd hcategory h
  case integer =>
    dsimp only
    generalize t.size = size
    exact .inl (by cases size <;> cases d <;> decide)
  case decimal =>
    dsimp only
    split
    · exact .inr ⟨"DECIMAL", by decide, _, rfl⟩
    · exact .inr ⟨"DECIMAL", by decide, _, rfl⟩
    · exact .inl (by decide)
  case string => exact .inr ⟨"VARCHAR", by decide, _, rfl⟩
  case vector =>
    dsimp only
    split
    · exact .inl (by decide)
    · cases t.length? with
      | none => exact .inl (by decide)
      | some n => exact .inr ⟨"VECTOR", by decide, [n], rfl⟩
  case time | timestamp =>
    dsimp only
    generalize t.withTimezone = withTimezone
    exact .inl (by cases withTimezone <;> cases d <;> decide)
  all_goals
    dsimp only
    exact .inl (by cases d <;> decide)

theorem IsPart.baseSql {t : ColumnType} (h : t.category ≠ .unknown) : d.IsPart false [.word (t.baseSql d)] := by
  rcases baseSql_cases h d with hword | ⟨word, hword, numbers, hnumbers⟩
  · exact .typeWord (List.mem_append_left _ hword)
  · rw [hnumbers]
    exact .withNumbers (.typeWord (List.mem_append_right _ hword)) numbers

/-- The spelling of a known type is a part. That of an unknown type is the caller's. -/
theorem IsPart.typeSql {t : ColumnType} (h : t.category = .unknown → d.IsPart false [.raw (t.toSql d)]) :
    d.IsPart false (Ddl.typeSql t d) := by
  unfold Ddl.typeSql
  split
  · rename_i hunknown
    exact h hunknown
  · rename_i hknown
    have hbase := IsPart.baseSql (d := d) hknown
    unfold ColumnType.toSql
    split
    · have hunsigned : d.IsPart false [.word " UNSIGNED"] := .of_reads (by cases d <;> decide)
      have hopens : d.Opens [.word " UNSIGNED"] := by
        intro c hc
        obtain rfl := Option.mem_some_iff.1 hc
        decide
      refine .of_characters_eq ?_ (hbase.append hunsigned hopens)
      simp [renderPiece]
    · exact hbase

end Dialect

/-! ## Columns -/

/-- Whether what the caller writes into the definition of a column stays in its place: the spelling of an unknown type
and an expression for a default are parts of their own, and no backslash escapes the end of a literal. -/
structure Column.IsReadable (d : Dialect) (c : Column) : Prop where
  type : c.type.category = .unknown → d.IsPart false [.raw (c.type.toSql d)]
  expression : ∀ sql, c.default? = some (.expression sql) → d.IsPart false [.raw sql]
  literal : d.isMySqlLike = true → ∀ text, c.default? = some (.string text) ∨ c.comment? = some text →
    keepsBackslashes text.toList = true

namespace Dialect

variable {d : Dialect} {p q : Bool} {sql first second : Sql}

theorem IsPart.default {c : Column} (h : c.IsReadable d) {default : ColumnDefault}
    (hdefault : c.default? = some default) : d.IsPart false default.toSql := by
  cases default with
  | null => exact .of_reads (by cases d <;> decide)
  | boolean b => cases b <;> exact .of_reads (by cases d <;> decide)
  | integer n => exact .number (isSigned_int n)
  | float x => exact .float x
  | string text => exact .standardLiteral fun hd => h.literal hd text (.inl hdefault)
  | expression sql => exact h.expression sql hdefault

/-- A part that does not touch what stands in front of it. -/
structure IsClause (d : Dialect) (primary : Bool) (sql : Sql) : Prop extends d.IsPart primary sql where
  opens : d.Opens sql

namespace IsClause

theorem nil : d.IsClause false [] := ⟨.nil, nofun⟩

theorem append (hfirst : d.IsClause p first) (hsecond : d.IsClause q second) : d.IsClause (p || q) (first ++ second) :=
  ⟨hfirst.toIsPart.append hsecond.toIsPart hsecond.opens, hfirst.opens.append hsecond.opens⟩

/-- Whether the words are a part that begins and ends with a blank or other break. -/
theorem of_reads {text : List Char} (h : d.readsAsPart p text = true) (hopens : text.head?.any isBreak = true) :
    d.IsClause p [.word (String.ofList text)] := by
  refine ⟨.of_reads h, fun c hc => ?_⟩
  have htext : d.characters [.word (String.ofList text)] = text := by simp [renderPiece]
  rw [htext] at hc
  rw [Option.mem_def.1 hc] at hopens
  exact hopens

theorem wordsIf (condition : Bool) {text : List Char} (h : d.readsAsPart p text = true)
    (hopens : text.head?.any isBreak = true) :
    d.IsClause (condition && p) (Ddl.wordsIf condition (String.ofList text)) := by
  cases condition with
  | true => exact of_reads h hopens
  | false => exact .nil

theorem behind {text : List Char} (hwords : d.readsAsPart p text = true) (hopens : text.head?.any isBreak = true)
    (hblank : (d.scan .blank text).2 = .blank) (h : d.IsPart q sql) :
    d.IsClause (p || q) (.word (String.ofList text) :: sql) := by
  refine ⟨.behind (.of_reads hwords) (by rwa [String.toList_ofList]) h, fun c hc => ?_⟩
  obtain ⟨first, hfirst, hbreak⟩ := (Option.any_eq_true _ _).1 hopens
  have htext : (d.characters (.word (String.ofList text) :: sql)).head? = some first := by
    rw [characters_cons, renderPiece, String.toList_ofList, List.head?_append, hfirst]
    rfl
  rw [htext] at hc
  obtain rfl := Option.mem_some_iff.1 hc
  exact hbreak

/-- The default of a column, which the words for a counting type say already. -/
theorem defaultSql {c : Column} (h : c.IsReadable d) :
    d.IsClause false (match c.default? with
      | some default => if Ddl.isSerial d c then [] else .word " DEFAULT " :: default.toSql
      | none => []) := by
  split
  · rename_i default hdefault
    split
    · exact .nil
    · exact .behind (p := false) (by cases d <;> decide) (by decide) (by cases d <;> rfl) (.default h hdefault)
  · exact .nil

theorem commentSql {c : Column} (h : c.IsReadable d) : d.IsClause false (Ddl.commentSql d " COMMENT " c.comment?) := by
  unfold Ddl.commentSql
  split
  · rename_i comment hcomments hcomment
    have hliteral : d.IsPart false [.standardLiteral comment] :=
      .standardLiteral fun hd => h.literal hd comment (.inr hcomment)
    exact .behind (p := false) (by cases d <;> decide) (by decide) (by cases d <;> rfl) hliteral
  · exact .nil

theorem constraintsSql {c : Column} (h : c.IsReadable d) (inlineKey : Bool) :
    d.IsClause inlineKey (Ddl.constraintsSql d inlineKey c) := by
  have hnotNull : d.IsClause _ (Ddl.wordsIf (!c.nullable && (!inlineKey || d.isMySqlLike)) " NOT NULL") :=
    wordsIf (p := false) _ (by cases d <;> decide) (by decide)
  have hunique : d.IsClause _ (Ddl.wordsIf (c.isUnique && !inlineKey) " UNIQUE") :=
    wordsIf (p := false) _ (by cases d <;> decide) (by decide)
  have hcounting : d.IsClause _ (Ddl.wordsIf (c.isAutoIncrement && d.serialStyle = .autoIncrement) " AUTO_INCREMENT") :=
    wordsIf (p := false) _ (by cases d <;> decide) (by decide)
  have hkey : d.IsClause _ (Ddl.wordsIf inlineKey " PRIMARY KEY") :=
    wordsIf (p := true) _ (by cases d <;> decide) (by decide)
  have hall := ((((hnotNull.append hunique).append (defaultSql h)).append hcounting).append hkey).append (commentSql h)
  simp only [Bool.and_false, Bool.and_true, Bool.or_false, Bool.false_or] at hall
  exact hall

end IsClause

/-- The definition of a column is its name with one part behind it, which speaks of the key if it is declared there. -/
theorem exists_columnSql_eq {c : Column} (h : c.IsReadable d) (inlineKey : Bool) :
    ∃ clauses, d.IsClause inlineKey clauses ∧ Ddl.columnSql d inlineKey c = .name c.name :: clauses := by
  have htype : d.IsClause false (.word " " ::
      if Ddl.isSerial d c then [.word (Ddl.serialWord c.type.size)] else Ddl.typeSql c.type d) := by
    refine .behind (p := false) (by cases d <;> decide) rfl d.scan_space ?_
    split
    · generalize c.type.size = size
      cases size <;> exact .of_reads (by cases d <;> decide)
    · exact .typeSql h.type
  have hconstrained := htype.append (.constraintsSql h inlineKey)
  rw [Bool.false_or] at hconstrained
  unfold Ddl.columnSql
  generalize (if Ddl.isSerial d c then [.word (Ddl.serialWord c.type.size)] else Ddl.typeSql c.type d) = type
    at htype hconstrained ⊢
  dsimp only
  split
  · rename_i hcounting _
    obtain ⟨_, rfl⟩ := Bool.and_eq_true_iff.1 hcounting
    have hkey : d.IsClause true [.word " PRIMARY KEY"] := .of_reads (by cases d <;> decide) rfl
    exact ⟨_, htype.append hkey, rfl⟩
  · rename_i hcounting _
    obtain ⟨_, rfl⟩ := Bool.and_eq_true_iff.1 hcounting
    have hwords : d.IsClause true [.word " INTEGER PRIMARY KEY AUTOINCREMENT"] := .of_reads (by cases d <;> decide) rfl
    exact ⟨_, hwords, rfl⟩
  · exact ⟨_, hconstrained, rfl⟩

/-! ## Items of a table -/

/-- A part of a definition as a reader finds it. -/
structure Reads (d : Dialect) (sql : Sql) (column? : Option (List Char)) (primary : Bool)
    (clause? : Option (List (List Char))) : Prop extends d.IsPart primary sql where
  column : columnOf? (d.tokens sql) = column?
  clause : keyClause? (d.tokens sql) = clause?

theorem Reads.keyColumn {column? : Option (List Char)} {clause? : Option (List (List Char))}
    (h : d.Reads sql column? p clause?) : keyColumnOf? (d.tokens sql) = if p then column? else none := by
  rw [keyColumnOf?, h.primary, h.column]

theorem Reads.columnSql {c : Column} (h : c.IsReadable d) (inlineKey : Bool) :
    d.Reads (Ddl.columnSql d inlineKey c) (some c.name.toList) inlineKey none := by
  obtain ⟨clauses, hclauses, heq⟩ := exists_columnSql_eq h inlineKey
  have htokens : d.tokens (.name c.name :: clauses) = .name c.name.toList :: d.tokens clauses := by
    have happend := tokens_append_of_opens (IsPart.name (d := d) c.name).settles hclauses.opens
    rwa [tokens_name, List.singleton_append, List.singleton_append] at happend
  rw [heq]
  refine ⟨?_, by rw [htokens]; rfl, by rw [htokens]; rfl⟩
  have hpart := (IsPart.name c.name).append hclauses.toIsPart hclauses.opens
  rwa [Bool.false_or] at hpart

/-- Names with commas between them. -/
theorem isWhole_quotedList (names : List String) :
    d.IsWhole (Ddl.quotedList names) ∧ (∀ t ∈ d.tokens (Ddl.quotedList names), t.isKeyword "PRIMARY" = false) ∧
      (d.tokens (Ddl.quotedList names)).filterMap name? = names.map String.toList := by
  have hwhole : ∀ sql ∈ names.map Ddl.quoted, d.IsWhole sql :=
    List.forall_mem_map.2 fun name _ => (IsPlainText.name name).isWhole
  refine ⟨.commaList hwhole, ?_⟩
  induction names with
  | nil => exact ⟨nofun, rfl⟩
  | cons first rest ih =>
    obtain ⟨hfirst, hrest⟩ := List.forall_mem_cons.1 hwhole
    have htokens : d.tokens (Ddl.quoted first) = [.name first.toList] := tokens_name d first
    cases rest with
    | nil =>
      have hlist : Ddl.quotedList [first] = Ddl.quoted first := commaList_singleton _
      rw [hlist, htokens]
      exact ⟨List.forall_mem_singleton.2 rfl, rfl⟩
    | cons second rest =>
      have hlist : Ddl.quotedList (first :: second :: rest) =
          Ddl.quoted first ++ .word ", " :: Ddl.quotedList (second :: rest) := commaList_cons_cons _ _ _
      obtain ⟨hkeyless, hnames⟩ := ih hrest
      rw [hlist, tokens_comma hfirst, htokens]
      refine ⟨?_, congrArg (first.toList :: ·) hnames⟩
      exact List.forall_mem_cons.2 ⟨rfl, List.forall_mem_cons.2 ⟨rfl, hkeyless⟩⟩

theorem Reads.keyClause (names : List String) :
    d.Reads (.word "PRIMARY KEY (" :: Ddl.quotedList names ++ [.word ")"]) none true
      (some (names.map String.toList)) := by
  obtain ⟨hwhole, hkeyless, hnames⟩ := isWhole_quotedList (d := d) names
  have htext : d.characters (.word "PRIMARY KEY (" :: Ddl.quotedList names ++ [.word ")"]) =
      d.characters (.word "PRIMARY KEY " :: Sql.parenthesized (Ddl.quotedList names)) := by
    simp [Sql.parenthesized, renderPiece]
  have hblank : (d.scan .blank "PRIMARY KEY ".toList).2 = .blank := by cases d <;> rfl
  have hkey : d.IsPart true [.word "PRIMARY KEY "] := .of_reads (by cases d <;> decide)
  have hpart := hkey.behind hblank (.parenthesized hwhole hkeyless)
  have hwords : d.lexemes "PRIMARY KEY ".toList = [.word "PRIMARY".toList, .word "KEY".toList] := by cases d <;> rfl
  have htokens : d.tokens (.word "PRIMARY KEY (" :: Ddl.quotedList names ++ [.word ")"]) =
      .word "PRIMARY".toList :: .word "KEY".toList :: .symbol '(' ::
        (d.tokens (Ddl.quotedList names) ++ [.symbol ')']) := by
    rw [tokens, htext, ← tokens, tokens_words hblank, hwords, tokens_parenthesized hwhole]
    rfl
  refine ⟨.of_characters_eq htext hpart, by rw [htokens]; rfl, ?_⟩
  have hclosing : List.filterMap name? [.symbol ')'] = [] := rfl
  rw [htokens, keyClause?, if_pos (by decide), List.filterMap_append, hnames, hclosing, List.append_nil]

theorem IsPart.action (action : ReferentialAction) : d.IsPart false [.word action.keyword] := by
  cases action <;> exact .of_reads (by cases d <;> decide)

/-- The definition of a foreign key is its name between a word and one part. -/
theorem exists_characters_foreignKeySql (r : Relationship) : ∃ clauses, d.IsClause false clauses ∧
    d.characters (Ddl.foreignKeySql r) = d.characters (.word "CONSTRAINT " :: ([.name r.name] ++ clauses)) := by
  obtain ⟨hreferencing, hkeyless, _⟩ := isWhole_quotedList (d := d) r.referencing.columns
  obtain ⟨hreferenced, hkeyless', _⟩ := isWhole_quotedList (d := d) r.referenced.columns
  have hkey : d.IsClause false (.word " FOREIGN KEY " :: Sql.parenthesized (Ddl.quotedList r.referencing.columns)) :=
    .behind (p := false) (by cases d <;> decide) rfl (by cases d <;> rfl) (.parenthesized hreferencing hkeyless)
  have hcolumns : d.IsClause false (.word " " :: Sql.parenthesized (Ddl.quotedList r.referenced.columns)) :=
    .behind (p := false) (by cases d <;> decide) rfl d.scan_space (.parenthesized hreferenced hkeyless')
  have htarget : d.IsClause false (.word " REFERENCES " :: ([.name r.referenced.table] ++
      .word " " :: Sql.parenthesized (Ddl.quotedList r.referenced.columns))) :=
    .behind (p := false) (by cases d <;> decide) rfl (by cases d <;> rfl)
      ((IsPart.name r.referenced.table).append hcolumns.toIsPart hcolumns.opens)
  have hdelete : d.IsClause false [.word " ON DELETE ", .word r.deleteAction.keyword] :=
    .behind (p := false) (by cases d <;> decide) rfl (by cases d <;> rfl) (.action r.deleteAction)
  have hupdate : d.IsClause false [.word " ON UPDATE ", .word r.updateAction.keyword] :=
    .behind (p := false) (by cases d <;> decide) rfl (by cases d <;> rfl) (.action r.updateAction)
  refine ⟨_, ((hkey.append htarget).append hdelete).append hupdate, ?_⟩
  simp [Ddl.foreignKeySql, Sql.parenthesized, renderPiece]

theorem Reads.foreignKeySql (r : Relationship) : d.Reads (Ddl.foreignKeySql r) none false none := by
  obtain ⟨clauses, hclauses, htext⟩ := exists_characters_foreignKeySql (d := d) r
  have hblank : (d.scan .blank "CONSTRAINT ".toList).2 = .blank := by cases d <;> rfl
  have hpart : d.IsPart false (.word "CONSTRAINT " :: ([.name r.name] ++ clauses)) :=
    .behind (p := false) (.of_reads (by cases d <;> decide)) hblank
      ((IsPart.name r.name).append hclauses.toIsPart hclauses.opens)
  have hwords : d.lexemes "CONSTRAINT ".toList = [.word "CONSTRAINT".toList] := by cases d <;> rfl
  have htokens : d.tokens (Ddl.foreignKeySql r) =
      .word "CONSTRAINT".toList :: .name r.name.toList :: d.tokens clauses := by
    rw [tokens, htext, ← tokens, tokens_words hblank, hwords,
      tokens_append_of_opens (IsPart.name r.name).settles hclauses.opens, tokens_name]
    rfl
  exact ⟨.of_characters_eq htext hpart, by rw [htokens]; rfl, by rw [htokens]; rfl⟩

end Dialect

/-! ## The definition of a table -/

/-- What there is to read in the statement that creates the table. -/
def Table.declarations (t : Table) : TableReading where
  columns := t.columns.values.map (·.name.toList)
  inlineKeys := (t.columns.values.filter fun c => c.isPrimaryKey && !t.hasCompositeKey).map (·.name.toList)
  keyClauses := if t.hasCompositeKey then [t.primaryKey.map String.toList] else []

namespace Ddl

variable {d : Dialect}

open Dialect (IsPlainText tokens_words tokens_name tokens_append_of_isBreak)

theorem mem_tableItems_iff {definition : TableDefinition} {item : Sql} : item ∈ tableItems d definition ↔
    (∃ c ∈ definition.table.columns.values,
      columnSql d (c.isPrimaryKey && !definition.table.hasCompositeKey) c = item) ∨
    (definition.table.hasCompositeKey = true ∧
      item = .word "PRIMARY KEY (" :: quotedList definition.table.primaryKey ++ [.word ")"]) ∨
    ∃ key ∈ definition.foreignKeys, foreignKeySql key = item := by
  rw [tableItems, List.mem_append, List.mem_append, List.mem_map, List.mem_map, or_assoc]
  cases definition.table.hasCompositeKey <;> simp

/-- The words that guard a statement open no parenthesis. -/
theorem exists_tokens_guardSql (d : Dialect) (guarded : Bool) : ∃ words, (∀ t ∈ words, t.role ≠ .opening) ∧
    ∀ sql, d.tokens (guardSql guarded d.tableIfNotExists ++ sql) = words ++ d.tokens sql := by
  unfold guardSql wordsIf
  split
  · refine ⟨[.word "IF".toList, .word "NOT".toList, .word "EXISTS".toList], by decide, fun sql => ?_⟩
    have hwords : d.lexemes "IF NOT EXISTS ".toList =
        [.word "IF".toList, .word "NOT".toList, .word "EXISTS".toList] := by cases d <;> rfl
    rw [List.singleton_append, tokens_words (by cases d <;> rfl), hwords]
  · exact ⟨[], List.forall_mem_nil _, fun _ => rfl⟩

theorem tokens_between {items : Sql} (h : d.IsWhole items) (tail : Sql) :
    d.tokens (.word " (" :: (items ++ .word ")" :: tail)) =
      .symbol '(' :: (d.tokens items ++ .symbol ')' :: d.tokens tail) := by
  have hopening : d.lexemes " (".toList = [.symbol '('] := by cases d <;> rfl
  have hclosing : d.lexemes ")".toList = [.symbol ')'] := by cases d <;> rfl
  rw [tokens_words (by cases d <;> rfl), hopening, tokens_append_of_isBreak h.settles rfl,
    tokens_words (by cases d <;> rfl), hclosing]
  rfl

/-- The items of a table stand in the first parentheses of the statement. -/
theorem exists_tokens_createTable {definition : TableDefinition}
    (h : d.IsWhole (Sql.commaList (tableItems d definition))) (guarded : Bool) :
    ∃ head tail, (∀ t ∈ head, t.role ≠ .opening) ∧ d.tokens ((createTable definition guarded).toSql d) =
      head ++ .symbol '(' :: (d.tokens (Sql.commaList (tableItems d definition)) ++ .symbol ')' :: tail) := by
  obtain ⟨words, hwords, hguarded⟩ := exists_tokens_guardSql d guarded
  obtain ⟨tail, hsql⟩ : ∃ tail, (createTable definition guarded).toSql d =
      .word "CREATE TABLE " :: (guardSql guarded d.tableIfNotExists ++ ([.name definition.table.name] ++
        .word " (" :: (Sql.commaList (tableItems d definition) ++ .word ")" :: tail))) := by
    refine ⟨(d.tableOptions?.map Sql.words).getD [] ++ commentSql d " COMMENT=" definition.table.comment?, ?_⟩
    simp [toSql]
  have hcreate : d.lexemes "CREATE TABLE ".toList = [.word "CREATE".toList, .word "TABLE".toList] := by
    cases d <;> rfl
  refine ⟨[.word "CREATE".toList, .word "TABLE".toList] ++ words ++ [.name definition.table.name.toList],
    d.tokens tail, ?_, ?_⟩
  · have hname : (Lexeme.name definition.table.name.toList).role ≠ .opening := fun h => by cases h
    exact List.forall_mem_append.2 ⟨List.forall_mem_append.2 ⟨by decide, hwords⟩, List.forall_mem_singleton.2 hname⟩
  · rw [hsql, tokens_words (by cases d <;> rfl), hcreate, hguarded,
      tokens_append_of_isBreak (IsPlainText.name _).settles rfl, tokens_name, tokens_between h]
    simp

variable {definition : TableDefinition}

/-- Whatever a reader looks for in the parts of a definition, it finds it in the items of the table. -/
theorem filterMap_definitionParts (h : ∀ c ∈ definition.table.columns.values, c.IsReadable d) (guarded : Bool)
    {α : Type} {f : List Lexeme → Option α} (hf : f [] = none) :
    (definitionParts (d.lexemes ((createTable definition guarded).render d).toList)).filterMap f =
      (tableItems d definition).filterMap fun item => f (d.tokens item) := by
  have hitems : ∀ item ∈ tableItems d definition, ∃ primary, d.IsPart primary item := by
    intro item hitem
    rcases mem_tableItems_iff.1 hitem with ⟨c, hc, rfl⟩ | ⟨_, rfl⟩ | ⟨key, _, rfl⟩
    · exact ⟨_, (Dialect.Reads.columnSql (h c hc) _).toIsPart⟩
    · exact ⟨_, (Dialect.Reads.keyClause _).toIsPart⟩
    · exact ⟨_, (Dialect.Reads.foreignKeySql key).toIsPart⟩
  have hwhole : ∀ item ∈ tableItems d definition, d.IsWhole item := fun item hitem =>
    (hitems item hitem).elim fun _ hpart => hpart.toIsWhole
  obtain ⟨head, tail, hhead, htokens⟩ := exists_tokens_createTable (.commaList hwhole) guarded
  have hparts := definitionParts_eq hhead (Dialect.IsWhole.commaList hwhole).isClosed tail
  rw [render, Dialect.toList_render, ← Dialect.tokens, htokens, hparts]
  by_cases hnone : tableItems d definition = []
  · rw [hnone]
    exact (List.filterMap_cons_none hf).trans rfl
  · rw [(Dialect.splitCommas_commaList_iff hwhole hnone).2 fun item hitem =>
      (hitems item hitem).elim fun _ hpart => hpart.split, List.filterMap_map]
    rfl

/-- What is found in the items is found in the columns and in the clause for a key of several columns. -/
theorem filterMap_tableItems {α : Type} {f : List Lexeme → Option α} {column? : Column → Option α}
    (hcolumn : ∀ c ∈ definition.table.columns.values,
      f (d.tokens (columnSql d (c.isPrimaryKey && !definition.table.hasCompositeKey) c)) = column? c)
    {clause? : Option α} (hclause : f (d.tokens (.word "PRIMARY KEY (" :: quotedList definition.table.primaryKey ++
      [.word ")"])) = clause?) (hkey : ∀ key, f (d.tokens (foreignKeySql key)) = none) :
    (tableItems d definition).filterMap (fun item => f (d.tokens item)) =
      definition.table.columns.values.filterMap column? ++
        (if definition.table.hasCompositeKey then clause?.toList else []) := by
  have hforeign : definition.foreignKeys.filterMap ((fun item => f (d.tokens item)) ∘ foreignKeySql) = [] :=
    List.filterMap_eq_nil_iff.2 fun key _ => hkey key
  rw [tableItems, List.filterMap_append, List.filterMap_append, List.filterMap_map, List.filterMap_map, hforeign,
    List.append_nil]
  refine congrArg₂ _ (List.filterMap_congr hcolumn) ?_
  split
  · rw [List.filterMap_cons, hclause]
    cases clause? <;> rfl
  · rfl

/-- A reader finds the columns of the table, the key at each of its columns that is declared there, and the clause for
a key of several columns. -/
theorem reading_createTable (h : ∀ c ∈ definition.table.columns.values, c.IsReadable d) (guarded : Bool) :
    TableReading.ofTokens (d.lexemes ((createTable definition guarded).render d).toList) =
      definition.table.declarations := by
  have hcolumn := fun c hc =>
    Dialect.Reads.columnSql (h c hc) (c.isPrimaryKey && !definition.table.hasCompositeKey)
  have hclause := Dialect.Reads.keyClause (d := d) definition.table.primaryKey
  have hkey := Dialect.Reads.foreignKeySql (d := d)
  rw [TableReading.ofTokens, filterMap_definitionParts h guarded rfl, filterMap_definitionParts h guarded rfl,
    filterMap_definitionParts h guarded rfl, Table.declarations,
    filterMap_tableItems (fun c hc => (hcolumn c hc).column) hclause.column fun key => (hkey key).column,
    filterMap_tableItems (fun c hc => (hcolumn c hc).keyColumn) hclause.keyColumn fun key => (hkey key).keyColumn,
    filterMap_tableItems (fun c hc => (hcolumn c hc).clause) hclause.clause fun key => (hkey key).clause]
  congr 1
  · simp
  · rw [← List.filterMap_eq_map, List.filterMap_filter]
    simp
  · simp

end Ddl

end EntitySql
