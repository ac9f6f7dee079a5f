import EntitySql.Entity.Basic
import EntitySql.Schema.Decoder
/-!
# Reading entities

How fields, relations and entities are written in JSON. Computed fields and supplied values cannot be
written.
-/

namespace EntitySql

open Json

/-- A field type by its name. -/
def FieldType.decode : Decoder FieldType := Decoder.named FieldType.named

/-- The foreign key of a field. -/
def FieldReference.decode : Decoder FieldReference := fun d => do
  let fields ← Fields.of? ["entity", "field", "onDelete", "onUpdate"] d
  return {
    entity := ← fields.required "entity" Decoder.string
    field? := ← fields.optional "field" Decoder.string
    onDelete? := ← fields.optional "onDelete" ReferentialAction.decode
    onUpdate? := ← fields.optional "onUpdate" ReferentialAction.decode }

/-- The parts of a field in the order in which an array lists them. -/
def Field.names : List String :=
  ["column", "type", "columnType", "length", "precision", "scale", "unsigned", "nullable", "unique",
    "index", "default", "comment", "autoIncrement", "reference"]

/-- A field. -/
def Field.decode : Decoder Field := fun d => do
  let fields ← Fields.of? Field.names d
  return {
    column? := ← fields.optional "column" Decoder.string
    type := ← fields.required "type" FieldType.decode
    columnType? := ← fields.optional "columnType" Decoder.string
    length? := ← fields.optional "length" Decoder.uint32
    precision? := ← fields.optional "precision" Decoder.uint32
    scale? := ← fields.optional "scale" Decoder.uint32
    unsigned := ← fields.withDefault "unsigned" Decoder.bool false
    nullable := ← fields.withDefault "nullable" Decoder.bool true
    unique := ← fields.withDefault "unique" Decoder.bool false
    indexed := ← fields.withDefault "index" Decoder.bool false
    default? := ← fields.optional "default" ColumnDefault.decode
    comment? := ← fields.optional "comment" Decoder.string
    autoIncrement := ← fields.withDefault "autoIncrement" Decoder.bool false
    reference? := ← fields.optional "reference" FieldReference.decode }

/-- A cardinality by its short name. -/
def Cardinality.decode : Decoder Cardinality :=
  Decoder.named (Cardinality.all.map fun cardinality => (cardinality.code, cardinality))

/-- A pair of field keys. -/
def KeyPair.decode : Decoder KeyPair := fun d => do
  let fields ← Fields.of? ["local", "foreign"] d
  return {
    near := ← fields.required "local" Decoder.string
    far := ← fields.required "foreign" Decoder.string }

/-- A relation. -/
def Relation.decode : Decoder Relation := fun d => do
  let fields ← Fields.of? ["entity", "cardinality", "references", "through", "cascade"] d
  return {
    entity := ← fields.required "entity" Decoder.string
    cardinality := ← fields.required "cardinality" Cardinality.decode
    keyPairs := ← fields.withDefault "references" (Decoder.list KeyPair.decode) []
    through? := ← fields.optional "through" Decoder.string
    cascade := ← fields.withDefault "cascade" Decoder.bool false }

/-- An index over several fields. -/
def EntityIndex.decode : Decoder EntityIndex := fun d => do
  let fields ← Fields.of? ["name", "fields", "unique", "type"] d
  return {
    name? := ← fields.optional "name" Decoder.string
    fields := ← fields.required "fields" (Decoder.list Decoder.string)
    unique := ← fields.withDefault "unique" Decoder.bool false
    method? := ← fields.optional "type" IndexMethod.decode }

/-- The parts of an entity in the order in which an array lists them. -/
def Entity.names : List String :=
  ["name", "table", "id", "fields", "relations", "softDelete", "indexes", "comment"]

/-- An entity. -/
def Entity.decode : Decoder Entity := fun d => do
  let fields ← Fields.of? Entity.names d
  return {
    name := ← fields.required "name" Decoder.string
    table? := ← fields.optional "table" Decoder.string
    id := ← fields.withDefault "id" Decoder.string "id"
    fields := ← fields.required "fields" (Decoder.assoc Field.decode)
    relations := ← fields.withDefault "relations" (Decoder.assoc Relation.decode) {}
    softDelete? := ← fields.optional "softDelete" Decoder.string
    indexes := ← fields.withDefault "indexes" (Decoder.list EntityIndex.decode) []
    comment? := ← fields.optional "comment" Decoder.string }

end EntitySql
