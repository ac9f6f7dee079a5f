import EntitySql.Explicit.Entity
import EntitySql.Explicit.Query
/-!
# Building in explicit form

Entities and queries that are put together step by step. A step is a list of a word and its arguments. Where
a part of a step has a form of its own and is not in it, nothing comes out.
-/

namespace EntitySql

/-- Decodes a value that is at hand. -/
def Json.Decoder.run? {α : Type} (decode : Json.Decoder α) (j : Json) : Option α :=
  decode (Json.Document.ofJson j)

/-- The field after a step. -/
def Field.build? (f : Field) (step : Json) : Option Field := do
  let argument := step.item 1
  match step.textItem 0 with
  | "column" => return { f with column? := some argument.text }
  | "columnType" => return { f with columnType? := some argument.text }
  | "length" => return { f with length? := some (← Json.Decoder.uint32.run? argument) }
  | "precision" =>
    let precision ← Json.Decoder.uint32.run? argument
    let scale ← Json.Decoder.uint32.run? (step.item 2)
    return { f with precision? := some precision, scale? := some scale }
  | "unsigned" => return { f with unsigned := true }
  | "notNull" => return { f with nullable := false }
  | "unique" => return { f with unique := true }
  | "indexed" => return { f with indexed := true }
  | "default" => return { f with default? := some (← ColumnDefault.decode.run? argument) }
  | "comment" => return { f with comment? := some argument.text }
  | "autoIncrement" => return { f with autoIncrement := true }
  | "references" =>
    let action := Json.Decoder.nullable ReferentialAction.decode
    let onDelete? ← action.run? (step.item 2)
    let onUpdate? ← action.run? (step.item 3)
    return { f with reference? := some { entity := argument.text, onDelete?, onUpdate? } }
  | "computed" => return { f with computed? := some (RawSql.ofExplicit "" argument) }
  | "onInsert" => return { f with onInsert? := some (Value.ofExplicit argument) }
  | "onUpdate" => return { f with onUpdate? := some (Value.ofExplicit argument) }
  | "onDelete" => return { f with onDelete? := some (Value.ofExplicit argument) }
  | _ => return f

/-- Reads a field: its type and the steps that build it. -/
def Field.built? (j : Json) : Option Field := do
  (j.item 1).items.foldlM build? { type := ← FieldType.decode.run? (j.item 0) }

/-- Reads a relation: its cardinality, its entities and keys, and whether it cascades. -/
def Relation.built (cardinality parts : Json) (cascade : Bool) : Relation :=
  let pair (n : Nat) : KeyPair := { near := parts.textItem n, far := parts.textItem (n + 1) }
  let direct (cardinality : Cardinality) : Relation :=
    { entity := parts.textItem 0, cardinality, keyPairs := [pair 1], cascade }
  match cardinality.text with
  | "mm" => { direct .manyToMany with keyPairs := [pair 2, pair 4], through? := some (parts.textItem 1) }
  | "m1" => direct .manyToOne
  | "11" => direct .oneToOne
  | _ => direct .oneToMany

/-- The entity after a step. -/
def Entity.build? (e : Entity) (step : Json) : Option Entity := do
  let argument := step.item 1
  match step.textItem 0 with
  | "table" => return { e with table? := some argument.text }
  | "withId" => return { e with id := argument.text }
  | "softDelete" => return { e with softDelete? := some argument.text }
  | "index" => return e.withIndex (← EntityIndex.decode.run? argument)
  | "field" => return e.withField argument.text (← Field.built? (step.item 2))
  | _ =>
    let relation := Relation.built (step.item 2) (step.item 3) ((step.item 4).bool?.getD false)
    return e.withRelation argument.text relation

/-- The projection after a step. -/
def Projection.build (p : Projection) (step : Json) : Projection :=
  match step.textItem 0 with
  | "include" => p.put (step.textItem 1) (.flag true)
  | "exclude" => p.put (step.textItem 1) (.flag false)
  | "relation" => p.put (step.textItem 1) (.relation (RelationQuery.ofExplicit (step.item 2)))
  | _ => p.addRaw (RawSql.ofExplicit "" (step.item 1))

/-- The condition after a step. -/
def Condition.build (c : Condition) (step : Json) : Except QueryError Condition := do
  if step.textItem 0 = "and" then
    let operator ← FieldOperator.ofKey (step.textItem 1)
    return c.both operator (.value (Value.ofExplicit (step.item 2)))
  else return c.negate

/-- The filter after a step. -/
def Filter.build (f : Filter) (step : Json) : Filter :=
  let argument := step.item 1
  match step.textItem 0 with
  | "field" => f.put argument.text (.field (Condition.ofExplicit (step.item 2)))
  | "insert" => f.put argument.text (FilterEntry.ofExplicit (step.item 2))
  | "text" => f.put "$text" (.search { fields := argument.texts, terms := step.textItem 2 })
  | "exists" => f.put "$exists" (.subquery (RawSql.ofExplicit "" argument))
  | "nexists" => f.put "$nexists" (.subquery (RawSql.ofExplicit "" argument))
  | connective => f.put ("$" ++ connective) (.group (argument.items.map FilterItem.ofExplicit))

/-- The query after a step. -/
def Query.build (q : Query) (step : Json) : Query :=
  let argument := step.item 1
  match step.textItem 0 with
  | "select" => { q with projection? := some (Projection.ofExplicit argument) }
  | "filter" => { q with criterion? := some (.filter (Filter.ofExplicit argument)) }
  | "byId" => { q with criterion? := some (.id (Value.ofExplicit argument)) }
  | "sort" => { q with order? := some (OrderBy.ofExplicit argument) }
  | "group" => { q with group := argument.texts }
  | "having" => { q with having? := some (Filter.ofExplicit argument) }
  | "limit" => { q with limit? := argument.nat64? }
  | "skip" => { q with skip? := argument.nat64? }
  | _ => q

/-- The query of a relation after a step. -/
def RelationQuery.build (q : RelationQuery) (step : Json) : RelationQuery :=
  match step.textItem 0 with
  | "select" => { q with projection? := some (Projection.ofExplicit (step.item 1)) }
  | "filter" => { q with filter? := some (Filter.ofExplicit (step.item 1)) }
  | "required" => { q with required := true }
  | _ => q

end EntitySql
