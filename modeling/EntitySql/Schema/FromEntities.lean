import EntitySql.Entity.Registry
import EntitySql.Schema.Basic
/-!
# The schema of a registry

`Registry.schema` gives every entity a table and every declared reference a foreign key. Fields with a
reference come first; after them a to-one relation gives rise to a key of its own where the declaring
entity holds the key columns and no field has declared that key. At last a relation that deletes
related rows together with their owner sets `ON DELETE CASCADE` on the key behind it, unless that key says
otherwise.

Names are those that are given, and where they are not, those of the naming.
-/

namespace EntitySql

namespace Member

/-- The column of a field key under the naming. Here a key that is no field is named as well. -/
def columnNameBy (m : Member) (naming : Naming) (key : String) : String :=
  ((m.entity.fields.get? key).bind (·.column?)).getD (naming.columnName key)

end Member

namespace Field

/-- The column type of a field without a given SQL type. -/
def logicalType (f : Field) : ColumnType :=
  match f.type with
  | .string => .varchar (f.length?.getD 255)
  | .text => .of .text
  | .smallInt => .integer .small
  | .integer => .integer .regular
  | .bigInt => .integer .big
  | .float => .of .float
  | .double => .of .double
  | .decimal => .of .decimal
  | .boolean => .of .boolean
  | .date => .of .date
  | .time => .of .time
  | .timestamp => .of .timestamp
  | .json => .of .json
  | .uuid => .of .uuid
  | .blob => .of .blob
  | .vector => .of .vector

/-- The column type of a field: that of the given SQL type, or else that of the logical type, with the
field's own modifiers as far as they mean something for the family. -/
def columnType (f : Field) : ColumnType :=
  let t := (f.columnType?.map ColumnType.ofText).getD f.logicalType
  { t with
    length? :=
      if t.category = .string || t.category = .vector then f.length?.or t.length? else t.length?
    precision? := if t.category = .decimal then f.precision?.or t.precision? else t.precision?
    scale? := if t.category = .decimal then f.scale?.or t.scale? else t.scale?
    unsigned := t.unsigned || (f.unsigned && t.isNumeric) }

end Field

namespace Member

/-- The column of a field. The id is the primary key, which is never null and unique by itself. -/
def column (m : Member) (naming : Naming) (key : String) (f : Field) : Column :=
  let isId := key == m.entity.id
  { name := m.columnNameBy naming key
    type := f.columnType
    nullable := f.nullable && !isId
    isPrimaryKey := isId
    isAutoIncrement := f.autoIncrement
    isUnique := f.unique && !isId
    default? := f.default?
    comment? := f.comment? }

/-- The indexes of the fields that have one of their own. -/
def fieldIndexes (m : Member) (naming : Naming) : List Index :=
  (m.entity.fields.entries.filter fun (_, f) => f.isStored && f.indexed).map fun (key, _) =>
    let column := m.columnNameBy naming key
    { name := Schema.indexName (m.tableNameBy naming) [column], columns := [column] }

/-- The index that the entity declares over several fields. -/
def declaredIndex (m : Member) (naming : Naming) (i : EntityIndex) : Index :=
  let columns := i.fields.map (m.columnNameBy naming)
  { name := i.name?.getD (Schema.indexName (m.tableNameBy naming) columns)
    columns, unique := i.unique, method? := i.method? }

/-- The table of an entity. Computed fields have no column. -/
def table (m : Member) (naming : Naming) : Table :=
  let empty : Table := { name := m.tableNameBy naming, comment? := m.entity.comment? }
  let columns :=
    (m.entity.fields.entries.filter fun (_, f) => f.isStored).map fun (key, f) =>
      m.column naming key f
  let indexes := m.fieldIndexes naming ++ m.entity.indexes.map (m.declaredIndex naming)
  indexes.foldl Table.addIndex (columns.foldl Table.addColumn empty)

/-- The foreign key of a field with a reference. -/
def fieldKey (m : Member) (naming : Naming) (key : String) (reference : FieldReference) :
    Except QueryError Relationship := do
  let target ← m.registry.member reference.entity
  let column := m.columnNameBy naming key
  let table := m.tableNameBy naming
  return {
    name := Schema.foreignKeyName table [column]
    referencing := { table, columns := [column] }
    referenced := {
      table := target.tableNameBy naming
      columns := [target.columnNameBy naming (reference.field?.getD target.entity.id)] }
    onDelete? := reference.onDelete?
    onUpdate? := reference.onUpdate? }

/-- Whether the entity holds the key columns of the relation. -/
def ownsKey (m : Member) (r : Relation) : Bool :=
  r.cardinality.isToOne && !r.keyPairs.isEmpty &&
    r.keyPairs.all fun pair => pair.near != m.entity.id && m.entity.hasField pair.near

/-- The foreign key of a relation whose key columns the entity holds. -/
def relationKey (m : Member) (naming : Naming) (r : Relation) : Except QueryError Relationship := do
  let target ← m.registry.member r.entity
  let table := m.tableNameBy naming
  let columns := r.keyPairs.map fun pair => m.columnNameBy naming pair.near
  return {
    name := Schema.foreignKeyName table columns
    kind := if r.cardinality = .oneToOne then .oneToOne else .manyToOne
    referencing := { table, columns }
    referenced := {
      table := target.tableNameBy naming
      columns := r.keyPairs.map fun pair => target.columnNameBy naming pair.far } }

/-- All foreign keys of an entity: those of its fields and then those of its relations whose names are
not taken. -/
def foreignKeys (m : Member) (naming : Naming) : Except QueryError (List Relationship) := do
  let referring := m.entity.fields.entries.filterMap fun (key, f) =>
    f.reference?.map fun reference => (key, reference)
  let ofFields ← referring.mapM fun (key, reference) => m.fieldKey naming key reference
  let ofRelations ← (m.entity.relations.values.filter m.ownsKey).mapM (m.relationKey naming)
  return ofRelations.foldl
    (fun keys r => if keys.any (·.name == r.name) then keys else keys ++ [r]) ofFields

/-- The entity that holds the key behind a relation, and the keys of its key fields: the related entity of
a one-to-many relation and of a one-to-one relation from the id, and the junction of a many-to-many
relation. -/
def keyHolder? (m : Member) (r : Relation) : Option (String × List String) :=
  match r.through?, r.cardinality with
  | some through, .manyToMany => r.keyPairs.head?.map fun pair => (through, [pair.near])
  | none, .oneToMany => some (r.entity, r.keyPairs.map (·.far))
  | none, .oneToOne =>
    if r.keyPairs.all (·.near == m.entity.id) then some (r.entity, r.keyPairs.map (·.far)) else none
  | _, _ => none

/-- The names of the foreign keys whose rows are deleted together with rows of this entity. -/
def cascadedKeys (m : Member) (naming : Naming) : Except QueryError (List String) := do
  let holders := (m.entity.relations.values.filter (·.cascade)).filterMap m.keyHolder?
  let names ← holders.mapM fun (name, keys) => do
    let holder ← m.registry.member name
    return if keys.isEmpty then none
      else some (Schema.foreignKeyName (holder.tableNameBy naming)
        (keys.map (holder.columnNameBy naming)))
  return names.filterMap id

end Member

namespace Schema

/-- Adds the relationships whose names are not taken. -/
def addMissing (s : Schema) (keys : List Relationship) : Except SchemaError Schema :=
  keys.foldlM
    (fun s r => if s.relationships.contains r.name then .ok s else s.addRelationship r) s

/-- The relationship with the action for deletes, if it says none. -/
def cascade (s : Schema) (name : String) : Schema :=
  { s with relationships := s.relationships.modify name fun r =>
      { r with onDelete? := r.onDelete?.or (some .cascade) } }

end Schema

/-- The schema of the registry's entities under the naming. -/
def Registry.schemaBy (r : Registry) (naming : Naming) : Except SchemaError Schema := do
  let tables := r.members.foldl (fun s m => s.addTable (m.table naming)) ({} : Schema)
  let linked ← r.members.foldlM
    (fun s m => do s.addMissing (← SchemaError.ofQuery (m.foreignKeys naming))) tables
  r.members.foldlM
    (fun s m => do
      let names ← SchemaError.ofQuery (m.cascadedKeys naming)
      return names.foldl Schema.cascade s)
    linked

/-- The schema of the registry's entities under its own naming. -/
def Registry.schema (r : Registry) : Except SchemaError Schema := r.schemaBy r.naming

end EntitySql
