import EntitySql.Compile.Projection
/-!
# Reading statements

Puts projection, joins, filter, grouping, order and page together into `SELECT` statements.
-/

namespace EntitySql

/-- How a query is compiled. -/
structure FindOptions where
  /-- The name that qualifies the columns of the root. -/
  qualifier? : Option String := none
  /-- Whether the columns of the root are qualified by the table name even without joins. -/
  qualified : Bool := false
  /-- `some false` switches the guard against deleted rows off. -/
  softDelete? : Option Bool := none

namespace Compiler

/-- The qualifier of the root's columns: the one that is given, or the table name where relations are
joined or qualification is asked for. -/
def rootQualifier? (m : Member) (projection? : Option Projection) (options : FindOptions) :
    Option String :=
  match options.qualifier? with
  | some name => some name
  | none =>
    if options.qualified || selectsRelation m projection? then some m.tableName else none

/-- `SELECT`, the expressions, `FROM` and the joins. -/
def selection (c : Compiler) (m : Member) (projection? : Option Projection)
    (options : FindOptions) : Except QueryError Sql := do
  let fields ← c.projectedFields m projection? (rootQualifier? m projection? options) false
  let plan ← c.plan m projection? none
  return .word "SELECT " :: Sql.commaList (fields :: plan.fields) ++
    .word " FROM " :: Sql.path m.tableName ++ plan.tables

mutual

/-- The column of a term with its direction, or the columns of the nested terms. Columns of the root
stand behind `qualifier?` and those of a relation behind its path. -/
def orderTerm (c : Compiler) (m : Member) (qualifier? path? : Option String) (key : String) :
    OrderTerm → Except QueryError (List Sql)
  | .direction direction =>
    let column : Sql :=
      if (m.computed? key).isSome then Sql.identifier key
      else
        match (path? <|> qualifier?), m.entity.hasField key with
        | some name, true => column m key (some name)
        | _, _ => Sql.path (m.columnName key)
    return [column ++ [.word direction.sqlSuffix]]
  | .nested terms => do
    let target ← m.related key
    orderTerms c target qualifier? (some (aliasPath path? key)) terms
termination_by structural term => term

/-- The columns of the terms of an order, depth first. -/
def orderTerms (c : Compiler) (m : Member) (qualifier? path? : Option String) :
    List (String × OrderTerm) → Except QueryError (List Sql)
  | [] => return []
  | (key, term) :: rest => do
    let first ← orderTerm c m qualifier? path? key term
    let others ← orderTerms c m qualifier? path? rest
    return first ++ others
termination_by structural terms => terms

end

/-- The `ORDER BY` clause, with nothing for an order without terms. -/
def orderClause (c : Compiler) (m : Member) (order? : Option OrderBy)
    (qualifier? : Option String) : Except QueryError Sql := do
  match order? with
  | none | some [] => return []
  | some terms => return .word " ORDER BY " :: Sql.commaList (← c.orderTerms m qualifier? none terms)

/-- The `GROUP BY` clause. -/
def groupClause (c : Compiler) (m : Member) (keys : List String) (qualifier? : Option String) :
    Except QueryError Sql := do
  if keys.isEmpty then return []
  else
    let columns ← keys.mapM fun key => c.columnReference m key qualifier?
    return .word " GROUP BY " :: Sql.commaList columns

/-- Everything after the joins. -/
def criteria (c : Compiler) (m : Member) (query : Query) (options : FindOptions) :
    Except QueryError Sql := do
  let qualifier? := rootQualifier? m query.projection? options
  let rows ← c.criterionClause m query.criterion? { qualifier?, softDelete? := options.softDelete? }
  let group ← c.groupClause m query.group qualifier?
  let having ← c.filterClause m query.having?
    { qualifier?, clause := .having, softDelete? := some false }
  let order ← c.orderClause m query.order? qualifier?
  return rows ++ group ++ having ++ order ++ c.dialect.page query.limit? query.skip?

/-- The statement that reads the rows of a query. -/
def find (c : Compiler) (m : Member) (query : Query) (options : FindOptions := {}) :
    Except QueryError Sql := do
  let selection ← c.selection m query.projection? options
  let criteria ← c.criteria m query options
  return selection ++ criteria

/-- The projection that counts rows. -/
def countProjection : Projection :=
  .items [.raw { body := .literal "COUNT(*)", alias? := some "count" }]

/-- The statement that counts the rows of a query, whatever its order and page. -/
def count (c : Compiler) (m : Member) (query : Query) (options : FindOptions := {}) :
    Except QueryError Sql :=
  c.find m
    { projection? := some countProjection
      criterion? := query.criterion?
      group := query.group
      having? := query.having? }
    options

end Compiler

end EntitySql
