import EntitySql.Entity.Basic
import EntitySql.Query.Error
import EntitySql.Text.SnakeCase
/-!
# Registries

A registry holds entities by name together with the naming that turns keys into table and column names.
`Member` is an entity seen inside its registry; there names and relations are resolved.
-/

namespace EntitySql

/-- How tables and columns are called whose names are not given. -/
structure Naming where
  /-- The table name of an entity. -/
  tableName : String → String
  /-- The column name of a field key. -/
  columnName : String → String

namespace Naming

/-- Names are the keys themselves. -/
def verbatim : Naming := ⟨fun name => name, fun key => key⟩

/-- Names are the keys in snake case. -/
def snakeCase : Naming := ⟨Text.snakeCase, Text.snakeCase⟩

end Naming

/-- Entities by name, in order of registration. -/
structure Registry where
  entities : Assoc Entity := {}
  naming : Naming := .verbatim

instance : Inhabited Registry := ⟨{}⟩

/-- An entity of a registry. -/
structure Member where
  registry : Registry
  entity : Entity

namespace Registry

/-- Adds an entity, in the place of the one with its name if there is one. -/
def register (r : Registry) (e : Entity) : Registry :=
  { r with entities := r.entities.insert e.name e }

/-- The registry of the listed entities. -/
def ofList (entities : List Entity) : Registry := entities.foldl register {}

/-- The entity with the given name. -/
def member (r : Registry) (name : String) : Except QueryError Member :=
  match r.entities.get? name with
  | some entity => .ok ⟨r, entity⟩
  | none => .error (.unknownEntity name)

/-- All entities in order of registration. -/
def members (r : Registry) : List Member := r.entities.values.map fun entity => ⟨r, entity⟩

end Registry

namespace Member

/-- The table name: the one that is given, or the one that the naming supplies. -/
def tableNameBy (m : Member) (naming : Naming) : String :=
  m.entity.table?.getD (naming.tableName m.entity.name)

/-- The name of the entity's table. -/
def tableName (m : Member) : String := m.tableNameBy m.registry.naming

/-- The column of a field key. A key that is no field is its own column. -/
def columnName (m : Member) (key : String) : String :=
  match m.entity.fields.get? key with
  | some field => field.column?.getD (m.registry.naming.columnName key)
  | none => key

/-- The column of the id. -/
def idColumn (m : Member) : String := m.columnName m.entity.id

/-- The relation under the key. -/
def relation (m : Member) (key : String) : Except QueryError Relation :=
  match m.entity.relations.get? key with
  | some relation => .ok relation
  | none => .error (.unknownRelation m.entity.name key)

/-- The entity on the other side of a relation. -/
def related (m : Member) (key : String) : Except QueryError Member := do
  let relation ← m.relation key
  m.registry.member relation.entity

/-- The expression of a computed field. -/
def computed? (m : Member) (key : String) : Option RawSql :=
  (m.entity.fields.get? key).bind (·.computed?)

end Member

/-- What a computed fragment may depend on. -/
structure RawSql.Context where
  /-- The name that qualifies columns, or the empty name. -/
  qualifier : String
  /-- The text of the qualifier as it stands in front of a column. -/
  qualifierText : String
  dialect : Dialect
  registry : Registry

/-- The surroundings of columns behind a qualifier. -/
def RawSql.Context.of (dialect : Dialect) (registry : Registry) (qualifier : String) :
    RawSql.Context :=
  { qualifier, dialect, registry
    qualifierText := dialect.render (Sql.qualifier qualifier) }

/-- Gives computed fragments their text. -/
abbrev RawSql.Expander := String → RawSql.Context → Except QueryError String

/-- The text of a raw fragment. -/
def RawSql.expand (sql : RawSql) (expander : RawSql.Expander) (context : RawSql.Context) :
    Except QueryError String :=
  match sql.body with
  | .literal text => .ok text
  | .computed name => expander name context

end EntitySql
