import EntitySql.Compile.Find
import EntitySql.Compile.Write
/-!
# Inputs without their texts

`redacted` empties every text that a caller hands over as data: text values, at any depth, and the
terms of a full-text search. `raws` lists the raw SQL of an input. Two inputs that differ in their
texts alone have the same redacted form.
-/

namespace EntitySql

namespace Value

mutual

/-- The value with its texts emptied. -/
def redacted : Value → Value
  | .text _ => .text ""
  | .list items => .list (redactedItems items)
  | other => other
termination_by structural v => v

/-- The values with their texts emptied. -/
def redactedItems : List Value → List Value
  | [] => []
  | item :: rest => redacted item :: redactedItems rest
termination_by structural items => items

end

mutual

/-- The raw SQL in a value. -/
def raws : Value → List RawSql
  | .raw sql => [sql]
  | .list items => rawsOfItems items
  | _ => []
termination_by structural v => v

/-- The raw SQL in several values. -/
def rawsOfItems : List Value → List RawSql
  | [] => []
  | item :: rest => raws item ++ rawsOfItems rest
termination_by structural items => items

end

@[simp]
theorem isNull_redacted (v : Value) : v.redacted.isNull = v.isNull := by
  cases v <;> rfl

@[simp]
theorem defaultOperator_redacted (v : Value) :
    Condition.defaultOperator v.redacted = Condition.defaultOperator v := by
  cases v <;> rfl

@[simp]
theorem isEmpty_redactedItems (items : List Value) :
    (redactedItems items).isEmpty = items.isEmpty := by
  cases items <;> rfl

mutual

@[simp]
theorem redacted_redacted : ∀ v : Value, v.redacted.redacted = v.redacted
  | .list items => congrArg Value.list (redactedItems_redactedItems items)
  | .null | .bool _ | .int _ | .float _ | .text _ | .blob _ | .json _ | .raw _ => rfl

theorem redactedItems_redactedItems : ∀ items : List Value,
    redactedItems (redactedItems items) = redactedItems items
  | [] => rfl
  | item :: rest => by
    simp only [redactedItems, redacted_redacted item, redactedItems_redactedItems rest]

end

mutual

@[simp]
theorem raws_redacted : ∀ v : Value, v.redacted.raws = v.raws
  | .list items => rawsOfItems_redactedItems items
  | .null | .bool _ | .int _ | .float _ | .text _ | .blob _ | .json _ | .raw _ => rfl

theorem rawsOfItems_redactedItems : ∀ items : List Value,
    rawsOfItems (redactedItems items) = rawsOfItems items
  | [] => rfl
  | item :: rest => by
    simp only [redactedItems, rawsOfItems, raws_redacted item, rawsOfItems_redactedItems rest]

end

end Value

/-! ## Filters -/

mutual

/-- The condition with its texts emptied. -/
def Condition.redacted : Condition → Condition
  | .value v => .value v.redacted
  | .operators entries => .operators (OperatorArgument.redactedEntries entries)
termination_by structural condition => condition

/-- The argument with its texts emptied. -/
def OperatorArgument.redacted : OperatorArgument → OperatorArgument
  | .value v => .value v.redacted
  | .condition inner => .condition (Condition.redacted inner)
termination_by structural argument => argument

/-- The operators with the texts of their arguments emptied. -/
def OperatorArgument.redactedEntries :
    List (String × OperatorArgument) → List (String × OperatorArgument)
  | [] => []
  | (name, argument) :: rest =>
    (name, OperatorArgument.redacted argument) :: OperatorArgument.redactedEntries rest
termination_by structural entries => entries

end

mutual

/-- The raw SQL in a condition. -/
def Condition.raws : Condition → List RawSql
  | .value v => v.raws
  | .operators entries => OperatorArgument.rawsOfEntries entries
termination_by structural condition => condition

/-- The raw SQL in an argument. -/
def OperatorArgument.raws : OperatorArgument → List RawSql
  | .value v => v.raws
  | .condition inner => Condition.raws inner
termination_by structural argument => argument

/-- The raw SQL in the arguments of operators. -/
def OperatorArgument.rawsOfEntries : List (String × OperatorArgument) → List RawSql
  | [] => []
  | (_, argument) :: rest => OperatorArgument.raws argument ++ OperatorArgument.rawsOfEntries rest
termination_by structural entries => entries

end

/-- The search with its terms emptied. -/
def TextSearch.redacted (search : TextSearch) : TextSearch := { search with terms := "" }

mutual

/-- The entry with its texts emptied. -/
def FilterEntry.redacted : FilterEntry → FilterEntry
  | .field condition => .field condition.redacted
  | .group items => .group (FilterItem.redactedItems items)
  | .search request => .search request.redacted
  | .subquery sql => .subquery sql
termination_by structural entry => entry

/-- The member of a group with its texts emptied. -/
def FilterItem.redacted : FilterItem → FilterItem
  | .filter entries => .filter (FilterEntry.redactedEntries entries)
  | .raw sql => .raw sql
termination_by structural item => item

/-- The members of a group with their texts emptied. -/
def FilterItem.redactedItems : List FilterItem → List FilterItem
  | [] => []
  | item :: rest => FilterItem.redacted item :: FilterItem.redactedItems rest
termination_by structural items => items

/-- The entries of a filter with their texts emptied. -/
def FilterEntry.redactedEntries : List (String × FilterEntry) → List (String × FilterEntry)
  | [] => []
  | (key, entry) :: rest => (key, FilterEntry.redacted entry) :: FilterEntry.redactedEntries rest
termination_by structural entries => entries

end

mutual

/-- The raw SQL in an entry. -/
def FilterEntry.raws : FilterEntry → List RawSql
  | .field condition => condition.raws
  | .group items => FilterItem.rawsOfItems items
  | .search _ => []
  | .subquery sql => [sql]
termination_by structural entry => entry

/-- The raw SQL in a member of a group. -/
def FilterItem.raws : FilterItem → List RawSql
  | .filter entries => FilterEntry.rawsOfEntries entries
  | .raw sql => [sql]
termination_by structural item => item

/-- The raw SQL in the members of a group. -/
def FilterItem.rawsOfItems : List FilterItem → List RawSql
  | [] => []
  | item :: rest => FilterItem.raws item ++ FilterItem.rawsOfItems rest
termination_by structural items => items

/-- The raw SQL in the entries of a filter. -/
def FilterEntry.rawsOfEntries : List (String × FilterEntry) → List RawSql
  | [] => []
  | (_, entry) :: rest => FilterEntry.raws entry ++ FilterEntry.rawsOfEntries rest
termination_by structural entries => entries

end

@[simp]
theorem FilterItem.length_redactedItems (items : List FilterItem) :
    (redactedItems items).length = items.length := by
  induction items with
  | nil => rfl
  | cons item rest ih => simp [redactedItems, ih]

namespace Filter

/-- The filter with its texts emptied. -/
def redacted (filter : Filter) : Filter := FilterEntry.redactedEntries filter

/-- The raw SQL in a filter. -/
def raws (filter : Filter) : List RawSql := FilterEntry.rawsOfEntries filter

@[simp]
theorem length_redacted (filter : Filter) : (redacted filter).length = filter.length := by
  induction filter with
  | nil => rfl
  | cons entry rest ih => exact congrArg (· + 1) ih

@[simp]
theorem has_redacted (key : String) (filter : Filter) :
    Entries.has key (redacted filter) = Entries.has key filter := by
  induction filter with
  | nil => rfl
  | cons entry rest ih => exact congrArg ((entry.1 == key) || ·) ih

theorem redacted_append (first second : Filter) :
    redacted (first ++ second) = redacted first ++ redacted second := by
  induction first with
  | nil => rfl
  | cons entry rest ih => exact congrArg (_ :: ·) ih

theorem raws_append (first second : Filter) :
    raws (first ++ second) = raws first ++ raws second := by
  induction first with
  | nil => rfl
  | cons entry rest ih => simp_all [raws, FilterEntry.rawsOfEntries]

end Filter

namespace Criterion

/-- The criterion with its texts emptied. -/
def redacted : Criterion → Criterion
  | .id v => .id v.redacted
  | .filter entries => .filter (Filter.redacted entries)

/-- The raw SQL in a criterion. -/
def raws : Criterion → List RawSql
  | .id v => v.raws
  | .filter entries => Filter.raws entries

end Criterion

/-! ## Queries -/

/-- The raw SQL in an item of a projection. -/
def ProjectionItem.raws : ProjectionItem → List RawSql
  | .field _ => []
  | .raw sql => [sql]

mutual

/-- The projection with the texts of its relations emptied. -/
def Projection.redacted : Projection → Projection
  | .items list => .items list
  | .map entries => .map (ProjectionEntry.redactedEntries entries)
termination_by structural projection => projection

/-- The entries with their texts emptied. -/
def ProjectionEntry.redactedEntries :
    List (String × ProjectionEntry) → List (String × ProjectionEntry)
  | [] => []
  | (key, entry) :: rest =>
    (key, ProjectionEntry.redacted entry) :: ProjectionEntry.redactedEntries rest
termination_by structural entries => entries

/-- The entry with its texts emptied. -/
def ProjectionEntry.redacted : ProjectionEntry → ProjectionEntry
  | .flag included => .flag included
  | .relation query => .relation (RelationQuery.redacted query)
termination_by structural entry => entry

/-- The query of a relation with its texts emptied. -/
def RelationQuery.redacted : RelationQuery → RelationQuery
  | ⟨some projection, filter?, required, order?, limit?, skip?⟩ =>
    ⟨some (Projection.redacted projection), filter?.map Filter.redacted, required, order?, limit?,
      skip?⟩
  | ⟨none, filter?, required, order?, limit?, skip?⟩ =>
    ⟨none, filter?.map Filter.redacted, required, order?, limit?, skip?⟩
termination_by structural query => query

end

mutual

/-- The raw SQL in a projection. -/
def Projection.raws : Projection → List RawSql
  | .items list => list.flatMap ProjectionItem.raws
  | .map entries => ProjectionEntry.rawsOfEntries entries
termination_by structural projection => projection

/-- The raw SQL in the entries of a projection. -/
def ProjectionEntry.rawsOfEntries : List (String × ProjectionEntry) → List RawSql
  | [] => []
  | (_, entry) :: rest => ProjectionEntry.raws entry ++ ProjectionEntry.rawsOfEntries rest
termination_by structural entries => entries

/-- The raw SQL in an entry of a projection. -/
def ProjectionEntry.raws : ProjectionEntry → List RawSql
  | .flag _ => []
  | .relation query => RelationQuery.raws query
termination_by structural entry => entry

/-- The raw SQL in the query of a relation. -/
def RelationQuery.raws : RelationQuery → List RawSql
  | ⟨some projection, filter?, _, _, _, _⟩ =>
    Projection.raws projection ++ filter?.toList.flatMap Filter.raws
  | ⟨none, filter?, _, _, _, _⟩ => filter?.toList.flatMap Filter.raws
termination_by structural query => query

end

@[simp]
theorem ProjectionEntry.isIncluded_redacted (entry : ProjectionEntry) :
    entry.redacted.isIncluded = entry.isIncluded := by
  cases entry <;> rfl

@[simp]
theorem ProjectionEntry.isExcluded_redacted (entry : ProjectionEntry) :
    entry.redacted.isExcluded = entry.isExcluded := by
  cases entry <;> rfl

namespace RelationQuery

@[simp]
theorem projection?_redacted (query : RelationQuery) :
    query.redacted.projection? = query.projection?.map Projection.redacted := by
  obtain ⟨projection?, _, _, _, _, _⟩ := query
  cases projection? <;> rfl

@[simp]
theorem filter?_redacted (query : RelationQuery) :
    query.redacted.filter? = query.filter?.map Filter.redacted := by
  obtain ⟨projection?, _, _, _, _, _⟩ := query
  cases projection? <;> rfl

@[simp]
theorem required_redacted (query : RelationQuery) : query.redacted.required = query.required := by
  obtain ⟨projection?, _, _, _, _, _⟩ := query
  cases projection? <;> rfl

theorem raws_eq (query : RelationQuery) :
    query.raws = query.projection?.toList.flatMap Projection.raws ++
      query.filter?.toList.flatMap Filter.raws := by
  obtain ⟨projection?, _, _, _, _, _⟩ := query
  cases projection? <;> simp [raws]

end RelationQuery

namespace Query

/-- The query with its texts emptied. -/
def redacted (query : Query) : Query :=
  { query with
    projection? := query.projection?.map Projection.redacted
    criterion? := query.criterion?.map Criterion.redacted
    having? := query.having?.map Filter.redacted }

/-- The raw SQL in a query. -/
def raws (query : Query) : List RawSql :=
  query.projection?.toList.flatMap Projection.raws ++
    query.criterion?.toList.flatMap Criterion.raws ++ query.having?.toList.flatMap Filter.raws

end Query

/-! ## Records and entities -/

namespace Record

/-- The record with its texts emptied. -/
def redacted (record : Record) : Record := record.mapValues Value.redacted

/-- The raw SQL in a record. -/
def raws (record : Record) : List RawSql := record.values.flatMap Value.raws

end Record

/-- The raw SQL that a field computes or supplies. -/
def Field.raws (f : Field) : List RawSql :=
  f.computed?.toList ++ f.onInsert?.toList.flatMap Value.raws ++
    f.onUpdate?.toList.flatMap Value.raws ++ f.onDelete?.toList.flatMap Value.raws

/-- The raw SQL of the fields of an entity. -/
def Entity.raws (e : Entity) : List RawSql := e.fields.values.flatMap Field.raws

/-- The raw SQL of the entities of a registry. -/
def Registry.raws (r : Registry) : List RawSql := r.entities.values.flatMap Entity.raws

/-- The raw SQL that the statements of an entity can reach: that of its own fields and that of the
entities that it is related to. -/
def Member.raws (m : Member) : List RawSql := m.entity.raws ++ m.registry.raws

end EntitySql
