import EntitySql.Entity.Decoder
import EntitySql.Entity.Registry
import EntitySql.Explicit.Value
/-!
# Entities in explicit form

Entities with everything that belongs to them. A description of an entity leaves out computed fields and
supplied values; here they are members whose keys start with a dollar sign. Written entities list their
fields and relations as pairs.
-/

namespace EntitySql

/-- The field with its computed expression and its supplied values. -/
def Field.withExplicit (f : Field) (j : Json) : Field :=
  { f with
    computed? := (j.at? "$virtual").map (RawSql.ofExplicit "")
    onInsert? := (j.member? "$onInsert").map Value.ofExplicit
    onUpdate? := (j.member? "$onUpdate").map Value.ofExplicit
    onDelete? := (j.member? "$onDelete").map Value.ofExplicit }

/-- Reads a field. -/
def Field.ofExplicit? (j : Json) : Option Field :=
  (Field.decode (Json.Document.ofJson j)).map (·.withExplicit j)

/-- Reads an entity. -/
def Entity.ofExplicit? (j : Json) : Option Entity :=
  (Entity.decode (Json.Document.ofJson j)).map fun e =>
    let written := if j.isObject then j.get "fields" else j.item 3
    { e with fields :=
        ⟨e.fields.entries.map fun (key, f) => (key, f.withExplicit (written.get key)), by
          simpa [List.map_map, Function.comp_def] using e.fields.distinct⟩ }

/-- The naming that a word stands for. -/
def Naming.ofExplicit : Option String → Naming
  | some "snakeCase" => .snakeCase
  | _ => .verbatim

/-- Reads a registry. -/
def Registry.ofExplicit? (j : Json) : Option Registry := do
  let entities ← (j.itemsAt "entities").mapM Entity.ofExplicit?
  return { Registry.ofList entities with naming := Naming.ofExplicit (j.textAt? "naming") }

/-- The name of a field type. -/
def FieldType.name (t : FieldType) : String :=
  ((FieldType.named.find? fun (_, type) => type = t).map Prod.fst).getD ""

/-- Writes an action. -/
def ReferentialAction.toExplicit (a : ReferentialAction) : Json := .string a.keyword

/-- Writes the foreign key of a field. -/
def FieldReference.toExplicit (r : FieldReference) : Json :=
  .object [("entity", .string r.entity), ("field", Json.ofOption .string r.field?),
    ("onDelete", Json.ofOption ReferentialAction.toExplicit r.onDelete?),
    ("onUpdate", Json.ofOption ReferentialAction.toExplicit r.onUpdate?)]

/-- Writes a field, with its default in SQL. -/
def Field.toExplicit (f : Field) : Json :=
  .object [("column", Json.ofOption .string f.column?), ("type", .string f.type.name),
    ("columnType", Json.ofOption .string f.columnType?),
    ("length", Json.ofOption Json.ofUInt32 f.length?),
    ("precision", Json.ofOption Json.ofUInt32 f.precision?),
    ("scale", Json.ofOption Json.ofUInt32 f.scale?), ("unsigned", .bool f.unsigned),
    ("nullable", .bool f.nullable), ("unique", .bool f.unique), ("index", .bool f.indexed),
    ("default", Json.ofOption (fun d => .string (ColumnDefault.toText d)) f.default?),
    ("comment", Json.ofOption .string f.comment?), ("autoIncrement", .bool f.autoIncrement),
    ("reference", Json.ofOption FieldReference.toExplicit f.reference?),
    ("persistable", .bool f.isStored)]

/-- Writes a pair of field keys. -/
def KeyPair.toExplicit (p : KeyPair) : Json :=
  .object [("local", .string p.near), ("foreign", .string p.far)]

/-- Writes a relation. -/
def Relation.toExplicit (r : Relation) : Json :=
  .object [("entity", .string r.entity), ("cardinality", .string r.cardinality.code),
    ("references", Json.ofList KeyPair.toExplicit r.keyPairs),
    ("through", Json.ofOption .string r.through?), ("cascade", .bool r.cascade)]

/-- Writes an index. -/
def EntityIndex.toExplicit (i : EntityIndex) : Json :=
  .object [("name", Json.ofOption .string i.name?), ("fields", Json.ofStrings i.fields),
    ("unique", .bool i.unique), ("type", Json.ofOption (fun m => .string (IndexMethod.name m)) i.method?)]

/-- Writes the entries of an association as pairs. -/
def Assoc.toExplicit {α : Type} (write : α → Json) (a : Assoc α) : Json :=
  .array (a.entries.map fun (key, value) => .array [.string key, write value])

/-- Writes an entity. -/
def Entity.toExplicit (e : Entity) : Json :=
  .object [("name", .string e.name), ("table", Json.ofOption .string e.table?), ("id", .string e.id),
    ("fields", e.fields.toExplicit Field.toExplicit),
    ("relations", e.relations.toExplicit Relation.toExplicit),
    ("softDelete", Json.ofOption .string e.softDelete?),
    ("indexes", Json.ofList EntityIndex.toExplicit e.indexes),
    ("comment", Json.ofOption .string e.comment?)]

end EntitySql
