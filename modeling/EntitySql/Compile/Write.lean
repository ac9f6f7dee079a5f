import EntitySql.Compile.Filter
/-!
# Writing statements

Inserts, updates and deletions. A record gives values to field keys; fields that it lacks may supply a
value of their own, and keys without a column are passed over.
-/

namespace EntitySql

/-- Field keys with the values to write. -/
abbrev Record := Assoc Value

namespace Compiler

/-- The record with the values of the fields that it lacks and that supply one. -/
def completed (e : Entity) (supply : Field → Option Value) (record : Record) : Record :=
  e.fields.entries.foldl
    (fun (done : Record) (key, field) =>
      match supply field with
      | some value => if done.contains key then done else done.insert key value
      | none => done)
    record

/-- A value as it goes into a column: documents are written out and cast, vectors become texts, and a raw
expression stands as it is. -/
def storedValue (c : Compiler) (m : Member) (key : String) (v : Value) : Except QueryError Sql :=
  let type? : Option FieldType := (m.entity.fields.get? key).map (·.type)
  match v, type? with
  | .raw sql, _ => c.raw m sql none
  | .null, _ => return [.word "NULL"]
  | .text s, some .json => return c.dialect.jsonLiteral [.literal s]
  | _, some .json => return c.dialect.jsonLiteral [.literal v.toJson.toText]
  | .list items, some .vector =>
    let numbers := items.map fun item => item.toJson.toText
    return [.literal ("[" ++ ",".intercalate numbers ++ "]")]
  | _, _ => c.escape v

/-- A row of values for the keys; a key that the record lacks is null. -/
def rowOf (c : Compiler) (m : Member) (keys : List String) (record : Record) :
    Except QueryError Sql := do
  let values ← keys.mapM fun key =>
    match record.get? key with
    | some value => c.storedValue m key value
    | none => return [.word "NULL"]
  return Sql.parenthesized (Sql.commaList values)

/-- The columns of keys, without qualifiers. -/
def columnsOf (m : Member) (keys : List String) : List Sql :=
  keys.map fun key => Sql.identifier (m.columnName key)

/-- The bare insert of the records and the keys whose columns it fills: the stored keys of the first
record. -/
def insertRows (c : Compiler) (m : Member) (records : List Record) :
    Except QueryError (Sql × List String) := do
  let records := records.map (completed m.entity (·.onInsert?))
  let keys :=
    match records with
    | first :: _ => first.keys.filter m.entity.isStored
    | [] => []
  if keys.isEmpty then .error (.emptyPayload m.entity.name)
  else
    let rows ← records.mapM (c.rowOf m keys)
    return (.word "INSERT INTO " :: Sql.path m.tableName ++ .word " (" ::
      Sql.commaList (columnsOf m keys) ++ .word ") VALUES " :: Sql.commaList rows, keys)

/-- What makes an insert return the generated id. -/
def returningClause (c : Compiler) (m : Member) : Sql :=
  if c.dialect.returnsId then
    .word " RETURNING " :: Sql.identifier m.idColumn ++ [.word " ", .name "id"]
  else []

/-- The statement that inserts the records. -/
def insert (c : Compiler) (m : Member) (records : List Record) : Except QueryError Sql := do
  let (sql, _) ← c.insertRows m records
  return sql ++ c.returningClause m

/-- The statement that inserts the record, or updates every column that is no conflict key where the row
is already there. -/
def upsert (c : Compiler) (m : Member) (conflictKeys : List String) (record : Record) :
    Except QueryError Sql := do
  let (sql, keys) ← c.insertRows m [record]
  let update := keys.filter fun key => !conflictKeys.contains key
  return sql ++ c.dialect.conflictClause (columnsOf m conflictKeys) (columnsOf m update) ++
    c.returningClause m

/-- The statement that sets exactly the stored keys of the record. -/
def updateRows (c : Compiler) (m : Member) (criterion? : Option Criterion) (record : Record)
    (softDelete? : Option Bool) : Except QueryError Sql := do
  let stored := record.entries.filter fun (key, _) => m.entity.isStored key
  let sets ← stored.mapM fun (key, value) => do
    return Sql.identifier (m.columnName key) ++ .word " = " :: (← c.storedValue m key value)
  if sets.isEmpty then .error (.emptyPayload m.entity.name)
  else
    let rows ← c.criterionClause m criterion? { softDelete? }
    return .word "UPDATE " :: Sql.path m.tableName ++ .word " SET " :: Sql.commaList sets ++ rows

/-- The statement that updates rows. -/
def update (c : Compiler) (m : Member) (criterion? : Option Criterion) (record : Record)
    (softDelete? : Option Bool := none) : Except QueryError Sql :=
  c.updateRows m criterion? (completed m.entity (·.onUpdate?) record) softDelete?

/-- The statement that takes rows out of their table. -/
def removeRows (c : Compiler) (m : Member) (criterion? : Option Criterion) :
    Except QueryError Sql := do
  let rows ← c.criterionClause m criterion? { softDelete? := some false }
  return .word "DELETE FROM " :: Sql.path m.tableName ++ rows

/-- The value that marks a row as deleted: the one that the field supplies, or the current time. -/
def deletionMark (e : Entity) (key : String) : Value :=
  ((e.fields.get? key).bind (·.onDelete?)).getD (.raw (.literal "CURRENT_TIMESTAMP"))

/-- The statement that deletes rows. An entity with a field for it only marks them, unless that is
switched off; to demand it of another entity is an error. -/
def delete (c : Compiler) (m : Member) (criterion? : Option Criterion)
    (softDelete? : Option Bool := none) : Except QueryError Sql :=
  match softDelete?, m.entity.softDelete? with
  | some true, none => .error (.softDeleteNotEnabled m.entity.name)
  | some false, _ => c.removeRows m criterion?
  | none, none => c.removeRows m criterion?
  | _, some key =>
    c.updateRows m criterion? ((Assoc.empty : Record).insert key (deletionMark m.entity key))
      softDelete?

end Compiler

end EntitySql
