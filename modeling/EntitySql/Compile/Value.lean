import EntitySql.Entity.Registry
import EntitySql.Query.Basic
/-!
# Values and columns in SQL

A compiler is a dialect together with the text of computed fragments. Here it writes values, raw
expressions and references to columns.
-/

namespace EntitySql

/-- What turns queries into SQL. -/
structure Compiler where
  dialect : Dialect
  /-- The text of computed fragments. -/
  expander : RawSql.Expander

namespace Compiler

/-- The text of a raw expression among columns behind a qualifier. -/
def rawText (c : Compiler) (registry : Registry) (sql : RawSql) (qualifier : String) :
    Except QueryError String :=
  sql.expand c.expander (.of c.dialect registry qualifier)

/-- A raw expression among the columns of an entity. -/
def raw (c : Compiler) (m : Member) (sql : RawSql) (qualifier? : Option String) :
    Except QueryError Sql := do
  return [.raw (← c.rawText m.registry sql (qualifier?.getD ""))]

mutual

/-- A value as a literal. The items of a list stand between commas, a number that is not finite is
null, and a raw expression knows no entity. -/
def escape (c : Compiler) : Value → Except QueryError Sql
  | .null => return [.word "NULL"]
  | .bool b => return [.word (if b then "TRUE" else "FALSE")]
  | .int n => return [.word (toString n)]
  | .float x => return [.word (if x.isFinite then x.toText else "NULL")]
  | .text s => return [.literal s]
  | .blob bytes => return [.bytes bytes]
  | .json document => return [.literal document.toText]
  | .list items => return Sql.commaList (← escapeAll c items)
  | .raw sql => return [.raw (← c.rawText {} sql "")]
termination_by structural v => v

/-- The literals of several values. -/
def escapeAll (c : Compiler) : List Value → Except QueryError (List Sql)
  | [] => return []
  | item :: rest => do
    let first ← escape c item
    let others ← escapeAll c rest
    return first :: others
termination_by structural items => items

end

mutual

/-- A value that is compared with a column. A raw expression sees the column's qualifier. -/
def value (c : Compiler) (m : Member) (qualifier? : Option String) :
    Value → Except QueryError Sql
  | .raw sql => c.raw m sql qualifier?
  | .list items => return Sql.commaList (← values c m qualifier? items)
  | .null => c.escape .null
  | .bool b => c.escape (.bool b)
  | .int n => c.escape (.int n)
  | .float x => c.escape (.float x)
  | .text s => c.escape (.text s)
  | .blob bytes => c.escape (.blob bytes)
  | .json document => c.escape (.json document)
termination_by structural v => v

/-- Several values that are compared with a column. -/
def values (c : Compiler) (m : Member) (qualifier? : Option String) :
    List Value → Except QueryError (List Sql)
  | [] => return []
  | item :: rest => do
    let first ← value c m qualifier? item
    let others ← values c m qualifier? rest
    return first :: others
termination_by structural items => items

end

/-- The column of a field key behind its qualifier. -/
def column (m : Member) (key : String) (qualifier? : Option String) : Sql :=
  Sql.qualifier (qualifier?.getD "") ++ Sql.identifier (m.columnName key)

/-- The parts of a key before and after its last dot. -/
def splitAtLastDot? (key : String) : Option (String × String) :=
  let reversed := key.toList.reverse
  if reversed.contains '.' then
    let last := reversed.takeWhile (· != '.')
    let path := (reversed.dropWhile (· != '.')).drop 1
    some (String.ofList path.reverse, String.ofList last.reverse)
  else none

/-- The entity at the end of a path of relations. -/
def memberAt? (m : Member) (path : List String) : Option Member :=
  path.foldlM (fun here key => (here.related key).toOption) m

/-- A reference to a stored field, a computed field, or a field at the end of a path of relations. A path
that leads nowhere is taken for a qualified name. -/
def columnReference (c : Compiler) (m : Member) (key : String) (qualifier? : Option String) :
    Except QueryError Sql :=
  match m.entity.fields.get? key with
  | some field =>
    match field.computed? with
    | some sql => c.raw m sql qualifier?
    | none => return column m key qualifier?
  | none =>
    match splitAtLastDot? key with
    | some (path, last) =>
      match memberAt? m (Sql.segments path) with
      | some target =>
        return Sql.identifier path ++ .word "." :: Sql.identifier (target.columnName last)
      | none => return Sql.path key
    | none => return Sql.qualifier (qualifier?.getD "") ++ Sql.path key

/-- A full-text search in the columns of an entity. -/
def textSearch (c : Compiler) (m : Member) (search : TextSearch) (qualifier? : Option String) : Sql :=
  let columns := search.fields.map fun key => column m key qualifier?
  match c.dialect with
  | .postgres =>
    .word "to_tsvector(" ::
      List.intercalate [.word " || ", .standardLiteral " ", .word " || "] columns ++
      [.word ") @@ to_tsquery(", .literal search.terms, .word ")"]
  | .mysql | .mariadb =>
    .word "MATCH(" :: Sql.commaList columns ++
      [.word ") AGAINST(", .literal search.terms, .word ")"]
  | .sqlite =>
    let target : Sql :=
      match qualifier? with
      | some name => Sql.identifier name
      | none => Sql.path m.tableName
    let names := " ".intercalate (search.fields.map m.columnName)
    target ++ [.word " MATCH ", .literal ("\x7b" ++ names ++ "\x7d : " ++ search.terms)]

end Compiler

end EntitySql
