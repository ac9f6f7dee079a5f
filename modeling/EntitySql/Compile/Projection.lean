import EntitySql.Compile.Filter
/-!
# Projections and joins in SQL

The expressions that a statement reads and the joins that a projection asks for. To-one relations are
joined, at any depth, under an alias that is their dotted path; to-many relations are put off to a query
of their own.
-/

namespace EntitySql

/-- A join of a related entity. -/
structure Join where
  /-- The dotted path of the relation, which names the joined rows. -/
  path : String
  /-- The table of the related entity. -/
  table : String
  /-- Whether rows without a related row are dropped. -/
  required : Bool
  /-- The name of the rows that the relation starts from. -/
  parent : String
  /-- The columns that hold equal values, of the joined rows and of their parents. -/
  columns : List (String × String)
  /-- What else the joined rows have to satisfy. -/
  condition : Predicate

/-- A relation that needs a query of its own. -/
structure DeferredRelation where
  /-- The dotted path of the relation. -/
  path : String
  /-- The entity that declares the relation. -/
  owner : String
  /-- The key of the relation. -/
  relation : String
  /-- What is asked of the related rows. -/
  query : RelationQuery

/-- What the relations of a projection amount to. -/
structure JoinPlan where
  /-- The expressions read of each joined entity. -/
  fields : List Sql := []
  joins : List Join := []
  deferred : List DeferredRelation := []

namespace JoinPlan

/-- The plan without relations. -/
def none : JoinPlan := {}

/-- One plan after another. -/
def append (a b : JoinPlan) : JoinPlan :=
  { fields := a.fields ++ b.fields
    joins := a.joins ++ b.joins
    deferred := a.deferred ++ b.deferred }

instance : Append JoinPlan := ⟨append⟩

end JoinPlan

namespace Join

/-- The equality of a column of the joined rows and one of their parents. -/
def equality (j : Join) (pair : String × String) : Sql :=
  Sql.identifier j.path ++ .word "." :: Sql.identifier pair.1 ++ .word " = " ::
    Sql.identifier j.parent ++ .word "." :: Sql.identifier pair.2

/-- The join clause. -/
def toSql (j : Join) : Sql :=
  let condition : Sql := if j.condition.isEmpty then [] else .word " AND " :: j.condition.toSql
  .word (if j.required then " INNER JOIN " else " LEFT JOIN ") :: Sql.path j.table ++
    .word " " :: Sql.identifier j.path ++
    .word " ON " :: Sql.join " AND " (j.columns.map j.equality) ++ condition

end Join

/-- The join clauses of a plan, each with a blank in front. -/
def JoinPlan.tables (p : JoinPlan) : Sql := p.joins.flatMap Join.toSql

namespace Compiler

/-- The items that a projection asks of an entity. Unknown fields do not count; a map that includes no
field asks for all that it does not leave out. -/
def projectedItems (m : Member) : Option Projection → List ProjectionItem
  | none => m.entity.fields.keys.map .field
  | some (.items list) => list.filter fun
    | .field key => m.entity.hasField key
    | .raw _ => true
  | some (.map entries) =>
    let included := entries.filterMap fun (key, entry) =>
      if m.entity.hasField key && entry.isIncluded then some (.field key) else none
    if included.isEmpty then
      let kept := m.entity.fields.keys.filter fun key =>
        !(Entries.find? key entries).any ProjectionEntry.isExcluded
      kept.map .field
    else included

/-- The items with the id in front, unless they hold it. -/
def withId (m : Member) (items : List ProjectionItem) : List ProjectionItem :=
  if items.contains (.field m.entity.id) then items else .field m.entity.id :: items

/-- The expression of a projected item with its alias. With `aliased` every column has an alias that
starts with the qualifier. -/
def projectedItem (c : Compiler) (m : Member) (qualifier? : Option String) (aliased : Bool)
    (item : ProjectionItem) : Except QueryError Sql := do
  let named (name : String) : Sql :=
    Sql.identifier (if aliased then qualifier?.getD "" ++ "." ++ name else name)
  match item with
  | .raw sql =>
    let expression ← c.raw m sql qualifier?
    match sql.alias? with
    | some name => return expression ++ .word " " :: named name
    | none => return expression
  | .field key =>
    match m.computed? key with
    | some sql => return (← c.raw m sql qualifier?) ++ .word " " :: named key
    | none =>
      let path := column m key qualifier?
      if aliased || m.columnName key != key then return path ++ .word " " :: named key
      else return path

/-- The expressions that a projection reads of an entity. A qualified projection always holds the
id. -/
def projectedFields (c : Compiler) (m : Member) (projection? : Option Projection)
    (qualifier? : Option String) (aliased : Bool) : Except QueryError Sql := do
  let items := projectedItems m projection?
  let items := if projection?.isSome && qualifier?.isSome then withId m items else items
  return Sql.commaList (← items.mapM (c.projectedItem m qualifier? aliased))

/-- The path of a relation below a parent path. -/
def aliasPath (parent? : Option String) (key : String) : String :=
  match parent? with
  | some parent => parent ++ "." ++ key
  | none => key

/-- The join of a related entity. -/
def joinOf (c : Compiler) (m target : Member) (relation : Relation) (parent? : Option String)
    (path : String) (filter? : Option Filter) (required : Bool) : Except QueryError Join := do
  let options : FilterOptions :=
    { qualifier? := some path, grouped := true, clause := .bare, softDelete? := some false }
  let condition ←
    match filter? with
    | some list => c.filterPredicate target (some list) options
    | none => pure []
  return {
    path, required, condition
    table := target.tableName
    parent := parent?.getD m.tableName
    columns := relation.keyPairs.map fun pair =>
      (target.columnName pair.far, m.columnName pair.near) }

mutual

/-- The plan of the relations that a projection selects, below the parent path. -/
def planProjection (c : Compiler) (m : Member) (parent? : Option String) :
    Projection → Except QueryError JoinPlan
  | .items _ => return .none
  | .map entries => planEntries c m parent? entries
termination_by structural projection => projection

/-- The plan of the entries of a projection, in order. -/
def planEntries (c : Compiler) (m : Member) (parent? : Option String) :
    List (String × ProjectionEntry) → Except QueryError JoinPlan
  | [] => return .none
  | (key, entry) :: rest => do
    let first ← planEntry c m parent? key entry
    let others ← planEntries c m parent? rest
    return first ++ others
termination_by structural entries => entries

/-- The plan of one entry. Keys that name no relation and relations that are left out add nothing. -/
def planEntry (c : Compiler) (m : Member) (parent? : Option String) (key : String) :
    ProjectionEntry → Except QueryError JoinPlan
  | .flag false => return .none
  | .flag true =>
    match m.entity.relations.get? key with
    | none => return .none
    | some relation => do
      let path := aliasPath parent? key
      if relation.cardinality.isToOne then
        let target ← m.related key
        let fields ← c.projectedFields target none (some path) true
        let join ← c.joinOf m target relation parent? path none false
        return { fields := [fields], joins := [join] }
      else
        return { deferred := [{ path, owner := m.entity.name, relation := key, query := {} }] }
  | .relation query =>
    match m.entity.relations.get? key with
    | none => return .none
    | some relation => do
      let path := aliasPath parent? key
      if relation.cardinality.isToOne then
        let target ← m.related key
        let fields ← c.projectedFields target query.projection? (some path) true
        let join ← c.joinOf m target relation parent? path query.filter? query.required
        let nested ← planRelation c target path query
        return { fields := [fields], joins := [join] : JoinPlan } ++ nested
      else
        return { deferred := [{ path, owner := m.entity.name, relation := key, query }] }
termination_by structural entry => entry

/-- The plan of the relations below a joined relation. -/
def planRelation (c : Compiler) (target : Member) (path : String) :
    RelationQuery → Except QueryError JoinPlan
  | ⟨some projection, _, _, _, _, _⟩ => planProjection c target (some path) projection
  | ⟨none, _, _, _, _, _⟩ => return .none
termination_by structural query => query

end

/-- The plan of the relations that a projection selects. -/
def plan (c : Compiler) (m : Member) (projection? : Option Projection) (parent? : Option String) :
    Except QueryError JoinPlan :=
  match projection? with
  | some projection => c.planProjection m parent? projection
  | none => return .none

/-- Whether a projection asks for a relation. -/
def selectsRelation (m : Member) : Option Projection → Bool
  | some (.map entries) => entries.any fun (key, entry) =>
    m.entity.relations.contains key && !entry.isExcluded
  | _ => false

end Compiler

end EntitySql
