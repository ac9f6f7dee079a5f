import EntitySql.Explicit.Value
import EntitySql.Query.Basic
/-!
# Queries in explicit form

The whole query model in JSON, with maps as lists of pairs so that their order shows, and with a tag
wherever a part can be of several kinds. Readers go as deep as their input does, which bounds them.
-/

namespace EntitySql

/-- The key and the value of a written pair. -/
def Json.pair (j : Json) : String × Json := (j.textItem 0, j.item 1)

mutual

/-- Reads a condition of at most the given depth. -/
def Condition.readExplicit : Nat → Json → Condition
  | 0, _ => .value .null
  | depth + 1, j =>
    match j.member? "ops" with
    | some entries =>
      .operators (entries.items.map fun entry =>
        (entry.pair.1, OperatorArgument.readExplicit depth entry.pair.2))
    | none => .value (Value.ofExplicit (j.get "value"))
termination_by structural depth => depth

/-- Reads the argument of an operator. -/
def OperatorArgument.readExplicit : Nat → Json → OperatorArgument
  | 0, _ => .value .null
  | depth + 1, j =>
    match j.member? "condition" with
    | some condition => .condition (Condition.readExplicit depth condition)
    | none => .value (Value.ofExplicit (j.get "value"))
termination_by structural depth => depth

end

/-- Reads a condition. -/
def Condition.ofExplicit (j : Json) : Condition := .readExplicit (j.depth + 1) j

mutual

/-- Reads the entries of a filter of at most the given depth. -/
def Filter.readExplicit : Nat → Json → List (String × FilterEntry)
  | 0, _ => []
  | depth + 1, j =>
    Entries.ofPairs (j.items.map fun entry =>
      (entry.pair.1, FilterEntry.readExplicit depth entry.pair.2))
termination_by structural depth => depth

/-- Reads an entry of a filter. -/
def FilterEntry.readExplicit : Nat → Json → FilterEntry
  | 0, _ => .group []
  | depth + 1, j =>
    match j.member? "logical", j.member? "text", j.member? "raw" with
    | some group, _, _ => .group (group.items.map (FilterItem.readExplicit depth))
    | _, some search, _ =>
      .search { fields := search.textsAt "fields", terms := search.textAt "value" }
    | _, _, some raw => .subquery (RawSql.ofExplicit "" raw)
    | _, _, _ => .field (Condition.ofExplicit j)
termination_by structural depth => depth

/-- Reads a member of a group. -/
def FilterItem.readExplicit : Nat → Json → FilterItem
  | 0, _ => .filter []
  | depth + 1, j =>
    match j.member? "raw" with
    | some raw => .raw (RawSql.ofExplicit "" raw)
    | none => .filter (Filter.readExplicit depth (j.get "map"))
termination_by structural depth => depth

end

/-- Reads a filter. -/
def Filter.ofExplicit (j : Json) : Filter := Filter.readExplicit (j.depth + 1) j

/-- Reads an entry of a filter. -/
def FilterEntry.ofExplicit (j : Json) : FilterEntry := .readExplicit (j.depth + 1) j

/-- Reads a member of a group. -/
def FilterItem.ofExplicit (j : Json) : FilterItem := .readExplicit (j.depth + 1) j

/-- Reads an order of at most the given depth. -/
def OrderBy.readExplicit : Nat → Json → List (String × OrderTerm)
  | 0, _ => []
  | depth + 1, j =>
    j.items.map fun entry =>
      (entry.pair.1,
        match entry.pair.2 with
        | .string "desc" => .direction .descending
        | .string _ => .direction .ascending
        | terms => .nested (OrderBy.readExplicit depth terms))

/-- Reads an order. -/
def OrderBy.ofExplicit (j : Json) : OrderBy := OrderBy.readExplicit (j.depth + 1) j

mutual

/-- Reads a projection of at most the given depth. -/
def Projection.readExplicit : Nat → Json → Projection
  | 0, _ => .map []
  | depth + 1, j =>
    match j.member? "map" with
    | some entries =>
      .map (Entries.ofPairs (entries.items.map fun entry =>
        (entry.pair.1,
          match entry.pair.2 with
          | .bool b => .flag b
          | relation => .relation (RelationQuery.readExplicit depth relation))))
    | none =>
      .items ((j.itemsAt "fields").map fun item =>
        match item with
        | .string key => .field key
        | other => .raw (RawSql.ofExplicit "" (other.get "raw")))
termination_by structural depth => depth

/-- Reads the query of a relation. -/
def RelationQuery.readExplicit : Nat → Json → RelationQuery
  | 0, _ => {}
  | depth + 1, j =>
    { projection? := (j.at? "select").map (Projection.readExplicit depth)
      filter? := (j.at? "filter").map Filter.ofExplicit
      required := j.flagAt "required"
      order? := (j.at? "sort").map OrderBy.ofExplicit
      limit? := j.natAt? "limit"
      skip? := j.natAt? "skip" }
termination_by structural depth => depth

end

/-- Reads a projection. -/
def Projection.ofExplicit (j : Json) : Projection := .readExplicit (j.depth + 1) j

/-- Reads the query of a relation. -/
def RelationQuery.ofExplicit (j : Json) : RelationQuery := .readExplicit (j.depth + 1) j

/-- Reads the rows of a query. -/
def Criterion.ofExplicit (j : Json) : Criterion :=
  match j.member? "id" with
  | some v => .id (Value.ofExplicit v)
  | none => .filter (Filter.ofExplicit (j.get "map"))

/-- Reads a query. -/
def Query.ofExplicit (j : Json) : Query :=
  { projection? := (j.at? "select").map Projection.ofExplicit
    criterion? := (j.at? "filter").map Criterion.ofExplicit
    order? := (j.at? "sort").map OrderBy.ofExplicit
    group := j.textsAt "group"
    having? := (j.at? "having").map Filter.ofExplicit
    limit? := j.natAt? "limit"
    skip? := j.natAt? "skip" }

mutual

/-- Writes a condition. -/
def Condition.toExplicit : Condition → Json
  | .value v => .object [("value", v.toExplicit)]
  | .operators entries => .object [("ops", .array (OperatorArgument.toExplicitEntries entries))]
termination_by structural c => c

/-- Writes the argument of an operator. -/
def OperatorArgument.toExplicit : OperatorArgument → Json
  | .value v => .object [("value", v.toExplicit)]
  | .condition c => .object [("condition", c.toExplicit)]
termination_by structural argument => argument

/-- Writes operators with their arguments. -/
def OperatorArgument.toExplicitEntries : List (String × OperatorArgument) → List Json
  | [] => []
  | (key, argument) :: rest =>
    .array [.string key, argument.toExplicit] :: OperatorArgument.toExplicitEntries rest
termination_by structural entries => entries

end

/-- Writes a text search. -/
def TextSearch.toExplicit (s : TextSearch) : Json :=
  .object [("text", .object [("fields", Json.ofStrings s.fields), ("value", .string s.terms)])]

mutual

/-- Writes an entry of a filter. -/
def FilterEntry.toExplicit : FilterEntry → Json
  | .field condition => condition.toExplicit
  | .group items => .object [("logical", .array (FilterItem.toExplicitItems items))]
  | .search request => request.toExplicit
  | .subquery sql => .object [("raw", sql.toExplicit)]
termination_by structural entry => entry

/-- Writes the entries of a filter. -/
def FilterEntry.toExplicitEntries : List (String × FilterEntry) → List Json
  | [] => []
  | (key, entry) :: rest =>
    .array [.string key, entry.toExplicit] :: FilterEntry.toExplicitEntries rest
termination_by structural entries => entries

/-- Writes a member of a group. -/
def FilterItem.toExplicit : FilterItem → Json
  | .filter entries => .object [("map", .array (FilterEntry.toExplicitEntries entries))]
  | .raw sql => .object [("raw", sql.toExplicit)]
termination_by structural item => item

/-- Writes the members of a group. -/
def FilterItem.toExplicitItems : List FilterItem → List Json
  | [] => []
  | item :: rest => item.toExplicit :: FilterItem.toExplicitItems rest
termination_by structural items => items

end

/-- Writes a filter. -/
def Filter.toExplicit (f : Filter) : Json := .array (FilterEntry.toExplicitEntries f)

/-- Writes the rows of a query. -/
def Criterion.toExplicit : Criterion → Json
  | .id value => .object [("id", value.toExplicit)]
  | .filter entries => .object [("map", Filter.toExplicit entries)]

mutual

/-- Writes a term of an order. -/
def OrderTerm.toExplicit : OrderTerm → Json
  | .direction .ascending => .string "asc"
  | .direction .descending => .string "desc"
  | .nested terms => .array (OrderTerm.toExplicitTerms terms)
termination_by structural term => term

/-- Writes the terms of an order. -/
def OrderTerm.toExplicitTerms : List (String × OrderTerm) → List Json
  | [] => []
  | (key, term) :: rest =>
    .array [.string key, term.toExplicit] :: OrderTerm.toExplicitTerms rest
termination_by structural terms => terms

end

/-- Writes an order. -/
def OrderBy.toExplicit (order : OrderBy) : Json := .array (OrderTerm.toExplicitTerms order)

/-- Writes an item of a projection. -/
def ProjectionItem.toExplicit : ProjectionItem → Json
  | .field key => .string key
  | .raw sql => .object [("raw", sql.toExplicit)]

mutual

/-- Writes a projection. -/
def Projection.toExplicit : Projection → Json
  | .items list => .object [("fields", Json.ofList ProjectionItem.toExplicit list)]
  | .map entries => .object [("map", .array (ProjectionEntry.toExplicitEntries entries))]
termination_by structural p => p

/-- Writes an entry of a projection. -/
def ProjectionEntry.toExplicit : ProjectionEntry → Json
  | .flag b => .bool b
  | .relation query => query.toExplicit
termination_by structural entry => entry

/-- Writes the entries of a projection. -/
def ProjectionEntry.toExplicitEntries : List (String × ProjectionEntry) → List Json
  | [] => []
  | (key, entry) :: rest =>
    .array [.string key, entry.toExplicit] :: ProjectionEntry.toExplicitEntries rest
termination_by structural entries => entries

/-- Writes the query of a relation. -/
def RelationQuery.toExplicit : RelationQuery → Json
  | ⟨projection?, filter?, required, order?, limit?, skip?⟩ =>
    let projection : Json :=
      match projection? with
      | some p => p.toExplicit
      | none => .null
    .object [("select", projection), ("filter", Json.ofOption Filter.toExplicit filter?),
      ("required", .bool required), ("sort", Json.ofOption OrderBy.toExplicit order?),
      ("limit", Json.ofOption Json.ofNat limit?), ("skip", Json.ofOption Json.ofNat skip?)]
termination_by structural query => query

end

/-- Writes a query. -/
def Query.toExplicit (q : Query) : Json :=
  .object [("select", Json.ofOption Projection.toExplicit q.projection?),
    ("filter", Json.ofOption Criterion.toExplicit q.criterion?),
    ("sort", Json.ofOption OrderBy.toExplicit q.order?), ("group", Json.ofStrings q.group),
    ("having", Json.ofOption Filter.toExplicit q.having?),
    ("limit", Json.ofOption Json.ofNat q.limit?), ("skip", Json.ofOption Json.ofNat q.skip?)]

end EntitySql
