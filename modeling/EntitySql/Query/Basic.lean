import EntitySql.Query.Filter
/-!
# Queries

A query says what to read of one entity: projection, filter, order, grouping and page. It refers to
fields and relations by key and knows nothing of SQL.
-/

namespace EntitySql

/-- A term of an order. -/
inductive OrderTerm
  | direction (d : Direction)
  /-- Terms on the fields of a to-one relation. -/
  | nested (terms : List (String × OrderTerm))
deriving Repr

/-- The keys to order by, most significant first. A key may stand twice. -/
abbrev OrderBy := List (String × OrderTerm)

/-- An item of an explicit projection. -/
inductive ProjectionItem
  | field (key : String)
  | raw (sql : RawSql)
deriving DecidableEq, Repr

mutual

/-- What a query reads of each row. -/
inductive Projection
  /-- The listed fields and raw expressions. -/
  | items (list : List ProjectionItem)
  /-- Fields and relations to include or leave out. -/
  | map (entries : List (String × ProjectionEntry))

/-- What a projection says about a field or relation. -/
inductive ProjectionEntry
  /-- Included or left out. -/
  | flag (included : Bool)
  /-- A relation that is read by a query of its own. -/
  | relation (query : RelationQuery)

/-- The query of a selected relation. -/
structure RelationQuery where
  /-- What is read of the related entity. -/
  projection? : Option Projection := none
  /-- A further condition of the join, or the filter of the follow-up query. -/
  filter? : Option (List (String × FilterEntry)) := none
  /-- Whether rows without a related row are dropped. -/
  required : Bool := false
  /-- The order of a follow-up query. -/
  order? : Option (List (String × OrderTerm)) := none
  /-- The page size of a follow-up query. -/
  limit? : Option Nat := none
  /-- The rows that a follow-up query passes over. -/
  skip? : Option Nat := none

end

instance : Inhabited Projection := ⟨.map []⟩

instance : Inhabited RelationQuery := ⟨{}⟩

namespace ProjectionEntry

/-- Whether the entry is a flag that includes its key. -/
def isIncluded : ProjectionEntry → Bool
  | .flag included => included
  | .relation _ => false

/-- Whether the entry is a flag that leaves its key out. -/
def isExcluded : ProjectionEntry → Bool
  | .flag included => !included
  | .relation _ => false

end ProjectionEntry

namespace Projection

/-- The entries of a projection. A listed field counts as included, and raw expressions are lost. -/
def toEntries : Projection → List (String × ProjectionEntry)
  | .map entries => entries
  | .items list => Entries.ofPairs <| list.filterMap fun
    | .field key => some (key, .flag true)
    | .raw _ => none

/-- The projection as a map in which the key has the entry. -/
def put (p : Projection) (key : String) (entry : ProjectionEntry) : Projection :=
  .map (Entries.put key entry p.toEntries)

/-- The items of a projection. Of a map only the included keys remain. -/
def toItems : Projection → List ProjectionItem
  | .items list => list
  | .map entries => entries.filterMap fun (key, entry) =>
    if entry.isIncluded then some (.field key) else none

/-- The projection as a list with one more raw expression. -/
def addRaw (p : Projection) (sql : RawSql) : Projection := .items (p.toItems ++ [.raw sql])

end Projection

/-- A query on one entity. -/
structure Query where
  /-- What is read. Without a projection all fields are. -/
  projection? : Option Projection := none
  /-- The rows that are read. -/
  criterion? : Option Criterion := none
  /-- Their order. -/
  order? : Option OrderBy := none
  /-- The keys to group by. -/
  group : List String := []
  /-- The groups that are read. -/
  having? : Option Filter := none
  /-- The greatest number of rows. -/
  limit? : Option Nat := none
  /-- The number of rows passed over. -/
  skip? : Option Nat := none

instance : Inhabited Query := ⟨{}⟩

end EntitySql
