import EntitySql.Json.Decoder
import EntitySql.Json.Writer
import EntitySql.Schema.Diff.Basic
/-!
# Commands for document stores

A document store has collections in place of tables and no language for changing them. Changes are written
as JSON objects whose member `action` tells what to do.
-/

namespace EntitySql

/-- A change of a document store. A command may leave its collection open. -/
inductive DocumentCommand
  | createCollection (collection? : Option String)
  | dropCollection (collection? : Option String)
  /-- Creates an index over fields with their sort directions, where `1` ascends. -/
  | createIndex (collection? : Option String) (name : String) (keys : Assoc Int32) (unique : Bool)
  | dropIndex (collection? : Option String) (name : String)
deriving DecidableEq

namespace DocumentCommand

/-- The collection that the command is about. -/
def collection? : DocumentCommand → Option String
  | createCollection collection? | dropCollection collection? => collection?
  | createIndex collection? _ _ _ | dropIndex collection? _ => collection?

/-- The word for the action. -/
def action : DocumentCommand → String
  | createCollection _ => "createCollection"
  | dropCollection _ => "dropCollection"
  | createIndex _ _ _ _ => "createIndex"
  | dropIndex _ _ => "dropIndex"

/-- The members of the written command that tell more about the action. -/
def details : DocumentCommand → List (String × Json)
  | createCollection _ | dropCollection _ => []
  | createIndex _ name keys unique =>
    [("name", .string name),
      ("keys", .object (keys.entries.map fun (key, direction) => (key, Json.ofInt direction.toInt))),
      ("unique", .bool unique)]
  | dropIndex _ name => [("name", .string name)]

/-- The command as JSON. -/
def toJson (c : DocumentCommand) : Json :=
  .object ([("action", .string c.action)] ++
    (c.collection?.map fun name => ("collection", Json.string name)).toList ++ c.details)

/-- The command as a text. -/
def toStatement (c : DocumentCommand) : String := c.toJson.toText

open Json

/-- The action that is written and what is written besides: the other members of an object, or the items of
an array behind the first one. -/
def splitAction? : Document → Option (String × Document)
  | .object members =>
    match members.filter fun (key, _) => key == some "action" with
    | [(_, .string (some action))] =>
      some (action, .object (members.filter fun (key, _) => key != some "action"))
    | _ => none
  | .array (.string (some action) :: rest) => some (action, .array rest)
  | _ => none

/-- The command with the given action. -/
def ofParts? (action : String) (rest : Document) : Option DocumentCommand :=
  match action with
  | "createCollection" => do
    let fields ← Fields.of? ["collection"] rest
    return createCollection (← fields.optional "collection" Decoder.string)
  | "dropCollection" => do
    let fields ← Fields.of? ["collection"] rest
    return dropCollection (← fields.optional "collection" Decoder.string)
  | "createIndex" => do
    let fields ← Fields.of? ["collection", "name", "keys", "unique"] rest
    return createIndex (← fields.optional "collection" Decoder.string)
      (← fields.required "name" Decoder.string) (← fields.required "keys" (Decoder.assoc Decoder.int32))
      (← fields.withDefault "unique" Decoder.bool false)
  | "dropIndex" => do
    let fields ← Fields.of? ["collection", "name"] rest
    return dropIndex (← fields.optional "collection" Decoder.string)
      (← fields.required "name" Decoder.string)
  | _ => none

/-- The command that a text writes. Every part of the text has to have a value, whether the command needs
it or not. -/
def ofText? (text : String) : Option DocumentCommand := do
  let document ← Document.ofText? text
  let _ ← document.toJson? Document.maxLevels
  let (action, rest) ← splitAction? document
  ofParts? action rest

/-- The command that creates an index. -/
def ofIndex (i : Index) : DocumentCommand :=
  createIndex (some i.table) i.name (Assoc.ofPairs (i.columns.map fun column => (column, 1))) i.unique

/-- The command that drops an index. -/
def ofDroppedIndex (i : Index) : DocumentCommand := dropIndex (some i.table) i.name

end DocumentCommand

/-- The commands that create a collection for a table. -/
def Table.commands (t : Table) : List DocumentCommand :=
  .createCollection (some t.name) :: t.indexes.map .ofIndex

namespace TableDiff

/-- The commands that apply the differences. Columns and foreign keys have none. -/
def commands : TableDiff → List DocumentCommand
  | create _ (some definition) => definition.table.commands
  | create table none => [.createCollection (some table)]
  | alter _ changes =>
    changes.dropIndexes.map .ofDroppedIndex ++ changes.addIndexes.map .ofIndex

/-- The commands that undo the differences. -/
def reversalCommands : TableDiff → List DocumentCommand
  | create table _ => [.dropCollection (some table)]
  | alter _ changes =>
    changes.addIndexes.map .ofDroppedIndex ++ changes.dropIndexes.map .ofIndex

end TableDiff

end EntitySql
