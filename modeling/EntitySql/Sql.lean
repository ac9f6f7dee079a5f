import EntitySql.Dialect
import EntitySql.Text.Numeral
/-!
# SQL text in pieces

A statement is a list of pieces: fixed words of the language, names, literals, and text that a caller
wrote. Statements are put together from pieces and become text in one place, `Dialect.render`, where each
piece is written the way the dialect reads it back. A name or a literal can therefore never be taken for
anything else, whatever characters it holds.
-/

namespace EntitySql

/-- A piece of SQL text. -/
inductive Sql.Piece
  /-- Words, numbers and punctuation with the blanks between them. -/
  | word (text : String)
  /-- A quoted name. -/
  | name (identifier : String)
  /-- A string literal. -/
  | literal (text : String)
  /-- A string literal in which only the quote is doubled, in every dialect. -/
  | standardLiteral (text : String)
  /-- A binary literal. -/
  | bytes (content : List UInt8)
  /-- SQL text of the caller. -/
  | raw (sql : String)
deriving DecidableEq, Repr

/-- A sequence of pieces of SQL text. -/
abbrev Sql := List Sql.Piece

namespace Sql

/-- One run of words. -/
def words (text : String) : Sql := [.word text]

/-- The name as one identifier, with nothing for the empty name. -/
def identifier (name : String) : Sql := if name.isEmpty then [] else [.name name]

/-- The parts of a name between dots. -/
def segments (name : String) : List String :=
  (name.toList.splitOn '.').map String.ofList

/-- The name as a path: every part between dots is an identifier. The empty name is nothing. -/
def path (name : String) : Sql :=
  if name.isEmpty then []
  else List.intercalate [.word "."] ((segments name).map fun part => [.name part])

/-- The name as one identifier in front of a dot, with nothing for the empty name. -/
def qualifier (name : String) : Sql :=
  if name.isEmpty then [] else [.name name, .word "."]

/-- The parts with the separator between them. -/
def join (separator : String) (parts : List Sql) : Sql :=
  List.intercalate [.word separator] parts

/-- The parts with commas between them. -/
def commaList (parts : List Sql) : Sql := join ", " parts

/-- The text between parentheses. -/
def parenthesized (sql : Sql) : Sql := .word "(" :: sql ++ [.word ")"]

end Sql

namespace Dialect

/-- The characters with every `c` written twice. -/
def doubled (c : Char) (cs : List Char) : List Char :=
  cs.flatMap fun x => if x = c then [c, c] else [x]

/-- A quoted name: the quote is doubled inside. -/
def quoteName (d : Dialect) (name : String) : List Char :=
  d.quoteChar :: doubled d.quoteChar name.toList ++ [d.quoteChar]

/-- A string literal in standard spelling: the quote is doubled inside. -/
def standardLiteral (text : String) : List Char := '\'' :: doubled '\'' text.toList ++ ['\'']

/-- A string literal. Where a backslash escapes the next character it is doubled as well. -/
def quoteText (d : Dialect) (text : String) : List Char :=
  if d.isMySqlLike then '\'' :: doubled '\'' (doubled '\\' text.toList) ++ ['\'']
  else standardLiteral text

/-- A binary literal in hexadecimal digits. -/
def quoteBytes (d : Dialect) (bytes : List UInt8) : List Char :=
  let digits := (Text.hexOfBytes bytes).toList
  match d with
  | postgres => ['\'', '\\', 'x'] ++ digits ++ ['\'']
  | mysql | mariadb | sqlite => ['X', '\''] ++ digits ++ ['\'']

/-- The text of a piece. -/
def renderPiece (d : Dialect) : Sql.Piece → List Char
  | .word text => text.toList
  | .name identifier => d.quoteName identifier
  | .literal text => d.quoteText text
  | .standardLiteral text => standardLiteral text
  | .bytes content => d.quoteBytes content
  | .raw sql => sql.toList

/-- The text of a statement. -/
def render (d : Dialect) (sql : Sql) : String := String.ofList (sql.flatMap d.renderPiece)

/-- A literal as the value of a JSON column. -/
def jsonLiteral (d : Dialect) (literal : Sql) : Sql :=
  match d with
  | postgres => literal ++ [.word "::jsonb"]
  | mysql | mariadb => .word "CAST(" :: literal ++ [.word " AS JSON)"]
  | sqlite => literal

/-- A pattern match that takes no heed of letter case. The pattern holds its wildcards already. -/
def likeAnyCase (d : Dialect) (column : Sql) (pattern : String) : Sql :=
  match d with
  | postgres => column ++ [.word " ILIKE ", .literal pattern]
  | mysql | mariadb | sqlite =>
    .word "LOWER(" :: column ++ [.word ") LIKE ", .literal (Text.lowered pattern)]

/-- The page of a result: at most `limit?` rows after the first `skip?`. -/
def page (d : Dialect) (limit? skip? : Option Nat) : Sql :=
  let limit : Sql :=
    match limit?, skip?, d.unboundedLimit? with
    | some n, _, _ => [.word (" LIMIT " ++ toString n)]
    | none, some _, some unbounded => [.word (" LIMIT " ++ unbounded)]
    | _, _, _ => []
  let offset : Sql :=
    match skip? with
    | some n => [.word (" OFFSET " ++ toString n)]
    | none => []
  limit ++ offset

/-- What an insert does about a row that is already there: the columns of `update` take the proposed
values, and without any of them nothing happens. -/
def conflictClause (d : Dialect) (conflict update : List Sql) : Sql :=
  if d.isMySqlLike then
    let sets : Sql :=
      match update, conflict with
      | [], [] => []
      | [], column :: _ => column ++ .word " = " :: column
      | _, _ => Sql.commaList (update.map fun column =>
          column ++ .word " = VALUES(" :: column ++ [.word ")"])
    .word " ON DUPLICATE KEY UPDATE " :: sets
  else
    let head := .word " ON CONFLICT (" :: Sql.commaList conflict
    if update.isEmpty then head ++ [.word ") DO NOTHING"]
    else
      head ++ .word ") DO UPDATE SET " :: Sql.commaList (update.map fun column =>
        column ++ .word " = EXCLUDED." :: column)

end Dialect

end EntitySql
