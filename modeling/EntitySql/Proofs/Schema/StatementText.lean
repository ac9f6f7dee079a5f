import EntitySql.Proofs.Lexing.Literal
import EntitySql.Schema.Ddl
/-!
# Literals in statements that change a schema

The literals of these statements are the strings that columns take by default and the comments of columns and
tables (`Ddl.standardTexts_toSql`). No quote follows on any of them, so each is read back from its opening
quote as the string it was made from, with the rest of the statement behind it, wherever the dialect takes a
backslash for itself. Under the MySQL grammar the literals lack the backslashes that those of queries have, and
a string is read back if and only if none of its backslashes escapes anything (`Ddl.readLiteral?_iff`).
-/

namespace EntitySql

open Lexer

namespace Sql

/-! ## Literals and what follows on them -/

/-- The texts of the literals in standard spelling, in order. -/
def standardTexts (sql : Sql) : List String :=
  sql.filterMap fun
    | .standardLiteral text => some text
    | _ => none

/-- Whether the text does not open with a quote. -/
def opensApart : Sql → Bool
  | [] => true
  | .word text :: _ => text.toList.head?.any (· != '\'')
  | _ :: _ => false

/-- Whether no quote follows on a literal in standard spelling. -/
def literalsApart : Sql → Bool
  | [] => true
  | .standardLiteral _ :: rest => opensApart rest && literalsApart rest
  | _ :: rest => literalsApart rest

variable {first second : Sql}

@[simp]
theorem standardTexts_append (first second : Sql) :
    standardTexts (first ++ second) = standardTexts first ++ standardTexts second :=
  List.filterMap_append

@[simp]
theorem standardTexts_nil : standardTexts [] = [] := rfl

@[simp]
theorem standardTexts_word (text : String) (sql : Sql) :
    standardTexts (.word text :: sql) = standardTexts sql := rfl

@[simp]
theorem standardTexts_name (name : String) (sql : Sql) :
    standardTexts (.name name :: sql) = standardTexts sql := rfl

@[simp]
theorem standardTexts_raw (text : String) (sql : Sql) :
    standardTexts (.raw text :: sql) = standardTexts sql := rfl

@[simp]
theorem standardTexts_standardLiteral (text : String) (sql : Sql) :
    standardTexts (.standardLiteral text :: sql) = text :: standardTexts sql := rfl

theorem opensApart_append (hfirst : opensApart first = true) (hsecond : opensApart second = true) :
    opensApart (first ++ second) = true := by
  cases first with
  | nil => exact hsecond
  | cons piece rest => cases piece <;> exact hfirst

theorem literalsApart_append (hfirst : literalsApart first = true) (hsecond : literalsApart second = true)
    (hopens : opensApart second = true) : literalsApart (first ++ second) = true := by
  induction first with
  | nil => exact hsecond
  | cons piece rest ih =>
    cases piece with
    | standardLiteral text =>
      obtain ⟨hrest, hliterals⟩ := Bool.and_eq_true_iff.1 hfirst
      exact Bool.and_eq_true_iff.2 ⟨opensApart_append hrest hopens, ih hliterals⟩
    | word | name | literal | bytes | raw => exact ih hfirst

/-- Behind a text without literals anything may stand. -/
theorem literalsApart_append_of_standardTexts (hfirst : standardTexts first = [])
    (hsecond : literalsApart second = true) : literalsApart (first ++ second) = true := by
  induction first with
  | nil => exact hsecond
  | cons piece rest ih =>
    cases piece with
    | standardLiteral text => cases hfirst
    | word | name | literal | bytes | raw => exact ih hfirst

theorem literalsApart_of_standardTexts {sql : Sql} (h : standardTexts sql = []) :
    literalsApart sql = true := by
  rw [← List.append_nil sql]
  exact literalsApart_append_of_standardTexts h rfl

/-- What follows on a literal does not go on with it. -/
theorem head?_characters_of_literalsApart (d : Dialect) {before after : Sql} {text : String}
    (h : literalsApart (before ++ .standardLiteral text :: after) = true) :
    (d.characters after).head? ≠ some '\'' := by
  have hopens : opensApart after = true := by
    induction before with
    | nil => exact (Bool.and_eq_true_iff.1 h).1
    | cons piece rest ih =>
      cases piece with
      | standardLiteral text => exact ih (Bool.and_eq_true_iff.1 h).2
      | word | name | literal | bytes | raw => exact ih h
  cases after with
  | nil => exact nofun
  | cons piece rest =>
    cases piece with
    | word text =>
      obtain ⟨c, hc, hne⟩ := (Option.any_eq_true _ _).1 hopens
      rw [Dialect.characters_cons, List.head?_append, show d.renderPiece (.word text) = text.toList from rfl, hc]
      simpa using hne
    | name | literal | standardLiteral | bytes | raw => cases hopens

/-- A text that does not open with a quote and has none behind its literals. -/
structure Apart (sql : Sql) : Prop where
  opens : opensApart sql = true
  literals : literalsApart sql = true

namespace Apart

theorem nil : Apart [] := ⟨rfl, rfl⟩

theorem append (hfirst : Apart first) (hsecond : Apart second) : Apart (first ++ second) :=
  ⟨opensApart_append hfirst.opens hsecond.opens,
    literalsApart_append hfirst.literals hsecond.literals hsecond.opens⟩

end Apart

theorem commaList_cons_cons (part next : Sql) (rest : List Sql) :
    commaList (part :: next :: rest) = part ++ .word ", " :: commaList (next :: rest) := rfl

theorem literalsApart_commaList {parts : List Sql} (h : ∀ part ∈ parts, literalsApart part = true) :
    literalsApart (commaList parts) = true := by
  induction parts with
  | nil => rfl
  | cons part rest ih =>
    have hpart := h part (.head _)
    cases rest with
    | nil => simpa [commaList, join] using hpart
    | cons next rest =>
      rw [commaList_cons_cons]
      exact literalsApart_append hpart (ih fun p hp => h p (.tail part hp)) rfl

@[simp]
theorem standardTexts_commaList (parts : List Sql) :
    standardTexts (commaList parts) = parts.flatMap standardTexts := by
  induction parts with
  | nil => rfl
  | cons part rest ih =>
    cases rest with
    | nil => simp [commaList, join]
    | cons next rest =>
      rw [commaList_cons_cons, standardTexts_append, standardTexts_word, ih]
      rfl

end Sql

open Sql (standardTexts literalsApart opensApart)

/-! ## Strings of a statement -/

/-- The string that the default stands for, if it is one. -/
def ColumnDefault.string? : ColumnDefault → Option String
  | string s => some s
  | _ => none

/-- The strings that the definition of a column holds: its default and its comment, as far as they are told. -/
def Column.texts (d : Dialect) (inlineKey : Bool) (c : Column) : List String :=
  if c.isAutoIncrement && inlineKey && d.serialStyle != .autoIncrement then []
  else
    (if Ddl.isSerial d c then [] else (c.default?.bind ColumnDefault.string?).toList) ++
      (if d.columnComments then c.comment?.toList else [])

namespace Ddl

/-- The strings that a statement holds, in order. -/
def texts (d : Dialect) : Ddl → List String
  | createTable definition _ =>
    let t := definition.table
    t.columns.values.flatMap (fun c => c.texts d (c.isPrimaryKey && !t.hasCompositeKey)) ++
      (if d.columnComments then t.comment?.toList else [])
  | addColumn _ c | modifyColumn _ c => c.texts d false
  | setDefault _ _ default? => (default?.bind ColumnDefault.string?).toList
  | _ => []

variable (d : Dialect)

@[simp]
theorem standardTexts_wordsIf (condition : Bool) (text : String) :
    standardTexts (wordsIf condition text) = [] := by
  cases condition <;> rfl

@[simp]
theorem standardTexts_typeSql (t : ColumnType) : standardTexts (typeSql t d) = [] := by
  unfold typeSql
  split <;> rfl

@[simp]
theorem standardTexts_default (default : ColumnDefault) :
    standardTexts default.toSql = default.string?.toList := by
  cases default <;> rfl

@[simp]
theorem standardTexts_commentSql (words : String) (comment? : Option String) :
    standardTexts (commentSql d words comment?) = if d.columnComments then comment?.toList else [] := by
  unfold commentSql
  cases d.columnComments <;> cases comment? <;> rfl

@[simp]
theorem standardTexts_quotedList (names : List String) : standardTexts (quotedList names) = [] := by
  simp [quotedList, Sql.standardTexts_commaList, List.flatMap_map, quoted]

theorem standardTexts_constraintsSql (inlineKey : Bool) (c : Column) :
    standardTexts (constraintsSql d inlineKey c) =
      (if isSerial d c then [] else (c.default?.bind ColumnDefault.string?).toList) ++
        (if d.columnComments then c.comment?.toList else []) := by
  unfold constraintsSql
  cases c.default? with
  | none => simp
  | some default => cases isSerial d c <;> simp

theorem standardTexts_columnSql (inlineKey : Bool) (c : Column) :
    standardTexts (columnSql d inlineKey c) = c.texts d inlineKey := by
  have htype : standardTexts (if isSerial d c then [.word (serialWord c.type.size)] else typeSql c.type d) =
      [] := by
    split
    · rfl
    · exact standardTexts_typeSql d c.type
  have hconstraints := standardTexts_constraintsSql d inlineKey c
  unfold columnSql Column.texts
  cases c.isAutoIncrement && inlineKey <;> cases d.serialStyle <;> simp [htype, hconstraints]

theorem standardTexts_foreignKeySql (r : Relationship) : standardTexts (foreignKeySql r) = [] := by
  simp [foreignKeySql]

theorem standardTexts_tableItems (definition : TableDefinition) :
    (tableItems d definition).flatMap standardTexts =
      definition.table.columns.values.flatMap fun c =>
        c.texts d (c.isPrimaryKey && !definition.table.hasCompositeKey) := by
  simp [tableItems, List.flatMap_map, standardTexts_columnSql, standardTexts_foreignKeySql]

theorem standardTexts_options : standardTexts ((d.tableOptions?.map Sql.words).getD []) = [] := by
  cases d <;> rfl

theorem standardTexts_createIndexSql (i : Index) (guarded : Bool) :
    standardTexts (createIndexSql d i guarded) = [] := by
  unfold createIndexSql
  dsimp only
  repeat' split
  all_goals simp [guardSql]

/-- The literals of a statement are the strings that it holds. -/
theorem standardTexts_toSql (statement : Ddl) : standardTexts (statement.toSql d) = statement.texts d := by
  cases statement with
  | createTable definition guarded =>
    simp [toSql, texts, guardSql, standardTexts_tableItems, standardTexts_options]
  | addColumn table c => simp [toSql, texts, standardTexts_columnSql]
  | modifyColumn table c => simp [toSql, texts, standardTexts_columnSql]
  | setDefault table column default? => cases default? <;> simp [toSql, texts, alterColumnHead]
  | createIndex index guarded => exact standardTexts_createIndexSql d index guarded
  | addForeignKey key =>
    simp only [toSql, texts]
    split <;> simp [standardTexts_foreignKeySql, foreignKeyRemark]
  | dropForeignKey key =>
    simp only [toSql, texts]
    repeat' split
    all_goals simp [foreignKeyRemark]
  | dropUnique | dropIndex =>
    simp only [toSql, texts]
    split <;> simp
  | dropTable | renameTable | dropColumn | renameColumn | setType | setNullable | addUnique | lostDataRemark
    | lostIndexRemark => simp [toSql, texts, alterColumnHead]

/-! ## No quote behind a literal -/

theorem apart_wordsIf (condition : Bool) (text : String) (h : text.toList.head?.any (· != '\'') = true) :
    (wordsIf condition text).Apart := by
  cases condition
  · exact .nil
  · exact ⟨h, rfl⟩

theorem apart_commentSql (words : String) (h : words.toList.head?.any (· != '\'') = true)
    (comment? : Option String) : (commentSql d words comment?).Apart := by
  unfold commentSql
  cases d.columnComments <;> cases comment? <;> first | exact .nil | exact ⟨h, rfl⟩

theorem apart_constraintsSql (inlineKey : Bool) (c : Column) : (constraintsSql d inlineKey c).Apart := by
  refine (((((apart_wordsIf _ _ rfl).append (apart_wordsIf _ _ rfl)).append ?default).append
    (apart_wordsIf _ _ rfl)).append (apart_wordsIf _ _ rfl)).append (apart_commentSql d _ rfl _)
  case default =>
    split
    · rename_i default _
      split
      · exact .nil
      · exact ⟨rfl, by cases default <;> rfl⟩
    · exact .nil

theorem literalsApart_columnSql (inlineKey : Bool) (c : Column) :
    literalsApart (columnSql d inlineKey c) = true := by
  have htype : literalsApart (if isSerial d c then [.word (serialWord c.type.size)] else typeSql c.type d) =
      true := by
    unfold typeSql
    repeat' split
    all_goals rfl
  have hconstraints := apart_constraintsSql d inlineKey c
  unfold columnSql
  dsimp only
  split
  · exact Sql.literalsApart_append htype rfl rfl
  · rfl
  · exact Sql.literalsApart_append htype hconstraints.literals hconstraints.opens

theorem literalsApart_createTable (definition : TableDefinition) (guarded : Bool) :
    literalsApart ((createTable definition guarded).toSql d) = true := by
  have hitems : ∀ item ∈ tableItems d definition, literalsApart item = true := by
    intro item hitem
    simp only [tableItems, List.mem_append, List.mem_map] at hitem
    obtain ((⟨c, _, rfl⟩ | hkey) | ⟨key, _, rfl⟩) := hitem
    · exact literalsApart_columnSql d _ c
    · refine Sql.literalsApart_of_standardTexts ?_
      split at hkey
      · rw [List.mem_singleton.1 hkey]
        simp
      · cases hkey
    · exact Sql.literalsApart_of_standardTexts (standardTexts_foreignKeySql key)
  have hcomment := apart_commentSql d " COMMENT=" rfl definition.table.comment?
  have hhead : standardTexts (.word "CREATE TABLE " :: guardSql guarded d.tableIfNotExists) = [] := by
    simp [guardSql]
  have hoptions := Sql.literalsApart_of_standardTexts (standardTexts_options d)
  exact Sql.literalsApart_append (Sql.literalsApart_append (Sql.literalsApart_append_of_standardTexts hhead
    (Sql.literalsApart_commaList hitems)) hoptions rfl) hcomment.literals hcomment.opens

/-- No quote follows on a literal of a statement. -/
theorem literalsApart_toSql (statement : Ddl) : literalsApart (statement.toSql d) = true := by
  cases statement with
  | createTable definition guarded => exact literalsApart_createTable d definition guarded
  | addColumn table c => exact literalsApart_columnSql d false c
  | modifyColumn table c => exact literalsApart_columnSql d false c
  | setDefault table column default? =>
    cases default? with
    | none => rfl
    | some default => cases default <;> rfl
  | _ => exact Sql.literalsApart_of_standardTexts (standardTexts_toSql d _)

/-! ## Reading the literals back -/

/-- A statement holds a literal for each of its strings, in order. From the opening quote of a literal the
dialect reads the string, and behind it the rest of the statement, if and only if it takes each backslash of the
string for itself. Outside of the MySQL grammar that is so for all strings. -/
theorem readLiteral?_iff (statement : Ddl) :
    standardTexts (statement.toSql d) = statement.texts d ∧
    ∀ before text after, statement.toSql d = before ++ .standardLiteral text :: after →
      (d.readLiteral? (d.characters (.standardLiteral text :: after)) =
          some (text.toList, d.characters after) ↔
        (d.isMySqlLike = true → keepsBackslashes text.toList = true)) := by
  refine ⟨standardTexts_toSql d statement, fun before text after hsql => ?_⟩
  have hafter := Sql.head?_characters_of_literalsApart d (hsql ▸ literalsApart_toSql d statement)
  rw [Dialect.characters_cons]
  exact d.readLiteral?_standardLiteral_iff text hafter

/-- A backslash in front of a wildcard is read back. -/
theorem readLiteral?_iff_path :
    let path : Column := { name := "path", type := .varchar 255, default? := some (.string "50\\%") }
    let before : Sql := [.word "ALTER TABLE ", .name "file", .word " ADD COLUMN ", .name "path", .word " ",
      .word "VARCHAR(255)", .word " DEFAULT "]
    (addColumn "file" path).toSql .mysql = before ++ [.standardLiteral "50\\%"] ∧
      Dialect.mysql.readLiteral? (Dialect.mysql.characters [.standardLiteral "50\\%"]) =
        some ("50\\%".toList, []) := by
  intro path before
  have hsql : (addColumn "file" path).toSql .mysql = before ++ [.standardLiteral "50\\%"] := by
    decide +kernel
  exact ⟨hsql, ((readLiteral?_iff .mysql _).2 before "50\\%" [] hsql).2 fun _ => by decide +kernel⟩

/-- A backslash at the end of a default keeps the literal open, and the comment of the column becomes SQL. -/
theorem escaped_quote_in_default :
    let before : Sql := [.word "ALTER TABLE ", .name "file", .word " ADD COLUMN ", .name "path", .word " ",
      .word "VARCHAR(255)", .word " DEFAULT "]
    let after : Sql := [.word " COMMENT ", .standardLiteral ", DROP COLUMN id -- "]
    let statement := addColumn "file"
      { name := "path", type := .varchar 255, default? := some (.string "\\")
        comment? := some ", DROP COLUMN id -- " }
    statement.toSql .mysql = before ++ .standardLiteral "\\" :: after ∧
      Dialect.mysql.readLiteral? (Dialect.mysql.characters (.standardLiteral "\\" :: after)) =
        some ("' COMMENT ".toList, ", DROP COLUMN id -- '".toList) ∧
      Dialect.mysql.readLiteral? (Dialect.mysql.characters (.standardLiteral "\\" :: after)) ≠
        some ("\\".toList, Dialect.mysql.characters after) := by
  decide +kernel

end Ddl

end EntitySql
