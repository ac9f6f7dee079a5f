import EntitySql.Schema.Default
import EntitySql.Schema.IndexMethod
import EntitySql.Schema.ReferentialAction
import EntitySql.Value
/-!
# Entities

An entity is described by its fields and its relations to other entities, which it refers to by name.
Table and column names may be given; where they are not, the registry's naming supplies them.
-/

namespace EntitySql

/-- The logical type of a field. -/
inductive FieldType
  | string
  | text
  | smallInt
  | integer
  | bigInt
  | float
  | double
  | decimal
  | boolean
  | date
  | time
  | timestamp
  | json
  | uuid
  | blob
  | vector
deriving DecidableEq, Repr

/-- All field types with their names. -/
def FieldType.named : List (String × FieldType) :=
  [("string", string), ("text", text), ("smallInt", smallInt), ("integer", integer),
    ("bigInt", bigInt), ("float", float), ("double", double), ("decimal", decimal),
    ("boolean", boolean), ("date", date), ("time", time), ("timestamp", timestamp),
    ("json", json), ("uuid", uuid), ("blob", blob), ("vector", vector)]

/-- The foreign key that a field declares. -/
structure FieldReference where
  /-- The name of the referenced entity. -/
  entity : String
  /-- The key of the referenced field; the id of the entity if absent. -/
  field? : Option String := none
  onDelete? : Option ReferentialAction := none
  onUpdate? : Option ReferentialAction := none
deriving DecidableEq, Repr

/-- A field of an entity. -/
structure Field where
  /-- The column name, if it is given. -/
  column? : Option String := none
  /-- The logical type. -/
  type : FieldType
  /-- The SQL type of the column, if it is given. -/
  columnType? : Option String := none
  /-- The number of characters, or of dimensions of a vector. -/
  length? : Option UInt32 := none
  precision? : Option UInt32 := none
  scale? : Option UInt32 := none
  unsigned : Bool := false
  /-- Whether the column may be null. The id never may. -/
  nullable : Bool := true
  /-- Whether no two rows share a value. -/
  unique : Bool := false
  /-- Whether the column has an index of its own. -/
  indexed : Bool := false
  default? : Option ColumnDefault := none
  comment? : Option String := none
  /-- Whether the database counts up the values. -/
  autoIncrement : Bool := false
  reference? : Option FieldReference := none
  /-- The expression of a field that is computed and has no column. -/
  computed? : Option RawSql := none
  /-- The value of an inserted row whose record lacks the field. -/
  onInsert? : Option Value := none
  /-- The value of an updated row whose record lacks the field. -/
  onUpdate? : Option Value := none
  /-- The value that marks a row as deleted. -/
  onDelete? : Option Value := none

/-- Whether the field has a column. -/
def Field.isStored (f : Field) : Bool := f.computed?.isNone

/-- How many rows stand on either side of a relation, seen from the entity that declares it. -/
inductive Cardinality
  | manyToOne
  | oneToOne
  | oneToMany
  | manyToMany
deriving DecidableEq, Repr

namespace Cardinality

/-- The short name of a cardinality. -/
def code : Cardinality → String
  | manyToOne => "m1"
  | oneToOne => "11"
  | oneToMany => "1m"
  | manyToMany => "mm"

/-- All cardinalities. -/
def all : List Cardinality := [manyToOne, oneToOne, oneToMany, manyToMany]

/-- Whether at most one related row exists. -/
def isToOne : Cardinality → Bool
  | manyToOne | oneToOne => true
  | oneToMany | manyToMany => false

end Cardinality

/-- A pair of field keys that hold equal values in related rows. -/
structure KeyPair where
  /-- The key on the side of the declaring entity, or on a junction the key that points at a side. -/
  near : String
  /-- The key on the other side. -/
  far : String
deriving DecidableEq, Repr

/-- A relation to another entity.

In a to-one relation the near keys belong to the declaring entity and the far keys to the related one.
In a one-to-many relation the far keys of the related entity point back at the near keys. A
many-to-many relation runs through a junction entity: the near key of its first pair points back at
the declaring entity and that of its second pair at the related one. -/
structure Relation where
  /-- The name of the related entity. -/
  entity : String
  cardinality : Cardinality
  keyPairs : List KeyPair := []
  /-- The junction entity of a many-to-many relation. -/
  through? : Option String := none
  /-- Whether related rows are deleted together with this one. -/
  cascade : Bool := false
deriving DecidableEq, Repr

/-- An index over several fields. -/
structure EntityIndex where
  /-- The name, if it is given. -/
  name? : Option String := none
  /-- The field keys. -/
  fields : List String
  unique : Bool := false
  method? : Option IndexMethod := none
deriving DecidableEq, Repr

/-- An entity. -/
structure Entity where
  name : String
  /-- The table name, if it is given. -/
  table? : Option String := none
  /-- The key of the field that identifies a row. -/
  id : String := "id"
  /-- The fields in order of declaration. -/
  fields : Assoc Field := {}
  /-- The relations by key. -/
  relations : Assoc Relation := {}
  /-- The key of the field that marks a row as deleted. -/
  softDelete? : Option String := none
  indexes : List EntityIndex := []
  comment? : Option String := none

instance : Inhabited Entity := ⟨{ name := "" }⟩

namespace Entity

/-- Whether the key names a field with a column. -/
def isStored (e : Entity) (key : String) : Bool := (e.fields.get? key).any Field.isStored

/-- Whether the key names a field. -/
def hasField (e : Entity) (key : String) : Bool := e.fields.contains key

/-- The entity with one more field. -/
def withField (e : Entity) (key : String) (field : Field) : Entity :=
  { e with fields := e.fields.insert key field }

/-- The entity with one more relation. -/
def withRelation (e : Entity) (key : String) (relation : Relation) : Entity :=
  { e with relations := e.relations.insert key relation }

/-- The entity with one more index. -/
def withIndex (e : Entity) (index : EntityIndex) : Entity :=
  { e with indexes := e.indexes ++ [index] }

end Entity

end EntitySql
