import EntitySql.Query.Basic
/-!
# Queries in JSON

Reads queries written as `$select`, `$where`, `$sort` and so on. Parts are read in the order in which
they are written, and the first fault is the one that is reported.
-/

namespace EntitySql

open QueryError (fault)

/-- The members of an object, or a fault under `key`. -/
private def membersOf (key : String) (j : Json) : Except QueryError (List (String × Json)) :=
  match j.object? with
  | some members => .ok members
  | none => fault key .expectedObject

/-- A number of rows, or a fault under `key`. -/
private def countOf (key : String) (j : Json) : Except QueryError Nat :=
  match j.nat64? with
  | some n => .ok n
  | none => fault key .expectedCount

mutual

/-- The value that JSON stands for in a query: arrays become lists and objects stay documents. -/
def Value.ofJson : Json → Value
  | .null => .null
  | .bool b => .bool b
  | .number n =>
    match n.int64? with
    | some i => .int i
    | none => .float n.toBinary64
  | .string s => .text s
  | .array items => .list (Value.ofJsonItems items)
  | .object members => .json (.object members)
termination_by structural j => j

/-- The values of the items of an array. -/
def Value.ofJsonItems : List Json → List Value
  | [] => []
  | item :: rest => Value.ofJson item :: Value.ofJsonItems rest
termination_by structural items => items

end

mutual

/-- A condition on a field. A nonempty object whose keys all start with `$` holds operators; anything
else is a bare value. -/
def Condition.ofJson : Json → Condition
  | .object members =>
    if !members.isEmpty && members.all fun (key, _) => isOperatorKey key then
      .operators (OperatorArgument.ofMembers members)
    else .value (.json (.object members))
  | .null => .value .null
  | .bool b => .value (.bool b)
  | .number n => .value (Value.ofJson (.number n))
  | .string s => .value (.text s)
  | .array items => .value (.list (Value.ofJsonItems items))
termination_by structural j => j

/-- The arguments of operators. A negated object is a condition again. -/
def OperatorArgument.ofMembers : List (String × Json) → List (String × OperatorArgument)
  | [] => []
  | (key, value) :: rest =>
    (key, if key = "$not" && value.isObject then .condition (Condition.ofJson value)
      else .value (Value.ofJson value)) :: OperatorArgument.ofMembers rest
termination_by structural members => members

end

/-- A full-text search, written as an object under `key`. -/
def TextSearch.ofJson (key : String) (j : Json) : Except QueryError TextSearch := do
  let members ← membersOf key j
  match (Entries.find? "$fields" members).bind Json.array? with
  | none => fault key .missingFields
  | some fields =>
    match (Entries.find? "$value" members).bind Json.string? with
    | none => fault key .missingValue
    | some terms => .ok { fields := fields.filterMap Json.string?, terms }

mutual

/-- The entry that JSON stands for under the key of a filter. -/
def FilterEntry.ofJson (key : String) (j : Json) : Except QueryError FilterEntry :=
  match j with
  | .array items =>
    if (Connective.ofKey? key).isSome then return .group (← FilterItem.listOfJson items)
    else if key = "$text" then fault key .expectedObject
    else if key = "$exists" || key = "$nexists" then fault key .expectedRawText
    else return .field (.value (.list (Value.ofJsonItems items)))
  | other =>
    if (Connective.ofKey? key).isSome then fault key .expectedArray
    else if key = "$text" then return .search (← TextSearch.ofJson key other)
    else if key = "$exists" || key = "$nexists" then
      match other.string? with
      | some sql => return .subquery (.literal sql)
      | none => fault key .expectedRawText
    else return .field (Condition.ofJson other)
termination_by structural j

/-- The members of a group: texts are raw SQL, objects are filters. -/
def FilterItem.listOfJson : List Json → Except QueryError (List FilterItem)
  | [] => return []
  | item :: rest => do
    let first ← FilterItem.ofJson item
    let others ← FilterItem.listOfJson rest
    return first :: others
termination_by structural items => items

/-- A member of a group. -/
def FilterItem.ofJson : Json → Except QueryError FilterItem
  | .string sql => return .raw (.literal sql)
  | .object members => return .filter (Entries.ofPairs (← Filter.entriesOfJson members))
  | _ => fault "$where" .expectedObject
termination_by structural j => j

/-- The entries of a filter. -/
def Filter.entriesOfJson : List (String × Json) → Except QueryError (List (String × FilterEntry))
  | [] => return []
  | (key, value) :: rest => do
    let entry ← FilterEntry.ofJson key value
    let others ← Filter.entriesOfJson rest
    return (key, entry) :: others
termination_by structural members => members

end

/-- A filter, written as an object. -/
def Filter.ofJson (j : Json) : Except QueryError Filter := do
  let members ← membersOf "$where" j
  return Entries.ofPairs (← Filter.entriesOfJson members)

/-- The rows of a query: an object is a filter, and a number, a text or a list is an id. -/
def Criterion.ofJson (j : Json) : Except QueryError Criterion :=
  match j with
  | .object _ => return .filter (← Filter.ofJson j)
  | .null | .bool _ => fault "$where" .expectedIdOrObject
  | other => return .id (Value.ofJson other)

mutual

/-- A term of an order: a direction, or an object with terms of a relation. -/
def OrderTerm.ofJson (key : String) (j : Json) : Except QueryError OrderTerm :=
  match j with
  | .number n =>
    match n.int64? with
    | some i => return .direction (← Direction.ofInt i)
    | none => fault key .expectedDirectionNumber
  | .string s => return .direction (← Direction.ofText s)
  | .object members => return .nested (← OrderTerm.listOfJson members)
  | _ => fault key .expectedDirection
termination_by structural j

/-- The terms of an order. -/
def OrderTerm.listOfJson : List (String × Json) → Except QueryError (List (String × OrderTerm))
  | [] => return []
  | (key, value) :: rest => do
    let term ← OrderTerm.ofJson key value
    let others ← OrderTerm.listOfJson rest
    return (key, term) :: others
termination_by structural members => members

end

/-- An order, written as an object. -/
def OrderBy.ofJson (j : Json) : Except QueryError OrderBy := do
  OrderTerm.listOfJson (← membersOf "$sort" j)

/-- The names in an array, each of which has to be a text. -/
private def projectionItems : List Json → Except QueryError (List ProjectionItem)
  | [] => return []
  | item :: rest =>
    match item.string? with
    | some key => return .field key :: (← projectionItems rest)
    | none => fault "$select" .expectedFieldNames

mutual

/-- A projection: an array of field keys, or an object of flags and relation queries. -/
def Projection.ofJson (j : Json) : Except QueryError Projection :=
  match j with
  | .array items => return .items (← projectionItems items)
  | .object members => return .map (Entries.ofPairs (← ProjectionEntry.listOfJson members))
  | _ => fault "$select" .expectedArrayOrObject
termination_by structural j

/-- The entries of a projection. A number is a flag that only zero clears. -/
def ProjectionEntry.listOfJson :
    List (String × Json) → Except QueryError (List (String × ProjectionEntry))
  | [] => return []
  | (key, value) :: rest => do
    let entry ← ProjectionEntry.ofJson key value
    let others ← ProjectionEntry.listOfJson rest
    return (key, entry) :: others
termination_by structural members => members

/-- An entry of a projection. -/
def ProjectionEntry.ofJson (key : String) (j : Json) : Except QueryError ProjectionEntry :=
  match j with
  | .bool b => return .flag b
  | .number n => return .flag (n.int64? != some 0)
  | .object members =>
    if members.any fun (k, _) => isOperatorKey k then do
      return .relation (← RelationQuery.ofMembers {} members)
    else do
      let entries ← ProjectionEntry.listOfJson members
      return .relation { projection? := some (.map (Entries.ofPairs entries)) }
  | _ => fault key .expectedFlagOrRelation
termination_by structural j

/-- The relation query `query` with the parts that the members write. -/
def RelationQuery.ofMembers (query : RelationQuery) :
    List (String × Json) → Except QueryError RelationQuery
  | [] => return query
  | (key, value) :: rest => do
    let next ←
      match key with
      | "$select" => pure { query with projection? := some (← Projection.ofJson value) }
      | "$where" => pure { query with filter? := some (← Filter.ofJson value) }
      | "$required" => pure { query with required := value.bool?.getD false }
      | "$sort" => pure { query with order? := some (← OrderBy.ofJson value) }
      | "$limit" => pure { query with limit? := some (← countOf key value) }
      | "$skip" => pure { query with skip? := some (← countOf key value) }
      | other => fault other .unknownRelationQueryKey
    RelationQuery.ofMembers next rest
termination_by structural members => members

end

/-- The query of a relation. An object without operator keys is a projection. -/
def RelationQuery.ofJson (j : Json) : Except QueryError RelationQuery := do
  let members ← membersOf "$select" j
  if members.any fun (key, _) => isOperatorKey key then RelationQuery.ofMembers {} members
  else
    let entries ← ProjectionEntry.listOfJson members
    return { projection? := some (.map (Entries.ofPairs entries)) }

/-- The keys to group by. -/
private def groupKeys (key : String) : List Json → Except QueryError (List String)
  | [] => return []
  | item :: rest =>
    match item.string? with
    | some name => return name :: (← groupKeys key rest)
    | none => fault key .expectedStrings

/-- The query `query` with the parts that the members write. -/
def Query.ofMembers (query : Query) : List (String × Json) → Except QueryError Query
  | [] => return query
  | (key, value) :: rest => do
    let next ←
      match key with
      | "$select" => pure { query with projection? := some (← Projection.ofJson value) }
      | "$where" => pure { query with criterion? := some (← Criterion.ofJson value) }
      | "$sort" => pure { query with order? := some (← OrderBy.ofJson value) }
      | "$group" =>
        match value.array? with
        | some items => pure { query with group := (← groupKeys key items) }
        | none => fault key .expectedArray
      | "$having" => pure { query with having? := some (← Filter.ofJson value) }
      | "$limit" => pure { query with limit? := some (← countOf key value) }
      | "$skip" => pure { query with skip? := some (← countOf key value) }
      | other => fault other .unknownQueryKey
    Query.ofMembers next rest

/-- A query, written as an object. -/
def Query.ofJson (j : Json) : Except QueryError Query := do
  Query.ofMembers {} (← membersOf "query" j)

end EntitySql
