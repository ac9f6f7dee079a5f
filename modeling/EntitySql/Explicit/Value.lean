import EntitySql.Decimal.Reading
import EntitySql.Json.Access
import EntitySql.Value
/-!
# Values in explicit form

In explicit form nothing is left to the reader's judgement: a value that JSON has no word for is an object
with one tagged member. Documents and computed fragments are written as text or as a mark only, which keeps
the order of their members.
-/

namespace EntitySql

/-- Reads a raw fragment: its text, or an object with the text or with the parts of a computed fragment,
which is named by them. The tag sets computed fragments apart that have the same parts. -/
def RawSql.ofExplicit (tag : String) (j : Json) : RawSql :=
  match j, j.member? "parts" with
  | .string sql, _ => .literal sql
  | _, some parts => { body := .computed (tag ++ ":" ++ parts.toText), alias? := j.textAt? "alias" }
  | _, none => { body := .literal (j.textAt "sql"), alias? := j.textAt? "alias" }

/-- Writes a raw fragment. -/
def RawSql.toExplicit (r : RawSql) : Json :=
  let source : String × Json :=
    match r.body with
    | .literal sql => ("sql", .string sql)
    | .computed _ => ("callback", .bool true)
  .object [source, ("alias", Json.ofOption .string r.alias?)]

/-- Reads a number, or the text of one. -/
def Binary64.ofExplicit : Json → Binary64
  | .number n => n.toBinary64
  | j => (Binary64.ofText? j.text).getD Binary64.nan

/-- Writes a number as a text. -/
def Binary64.toExplicit (x : Binary64) : Json := .object [("$float", .string x.toText)]

namespace Value

mutual

/-- Reads a value. -/
def ofExplicit : Json → Value
  | .null => .null
  | .bool b => .bool b
  | .number n => (n.int64?.map Value.int).getD (.float n.toBinary64)
  | .string s => .text s
  | .array items => .list (ofExplicitItems items)
  | .object members =>
    match members with
    | [("$float", x)] => .float (Binary64.ofExplicit x)
    | [("$blob", hex)] => .blob ((Text.bytesOfHex? hex.text.toList).getD [])
    | [("$json", content)] => .json content
    | [("$raw", fragment)] => .raw (RawSql.ofExplicit "" fragment)
    | _ => .json (.object members)
termination_by structural j => j

/-- Reads the items of a list. -/
def ofExplicitItems : List Json → List Value
  | [] => []
  | item :: rest => ofExplicit item :: ofExplicitItems rest
termination_by structural items => items

end

mutual

/-- Writes a value. -/
def toExplicit : Value → Json
  | .null => .null
  | .bool b => .bool b
  | .int n => Json.ofInt n
  | .float x => x.toExplicit
  | .text s => .string s
  | .blob bytes => .object [("$blob", .string (Text.hexOfBytes bytes))]
  | .json document => .object [("$json", .string document.toText)]
  | .list items => .array (toExplicitItems items)
  | .raw r => .object [("$raw", r.toExplicit)]
termination_by structural v => v

/-- Writes the items of a list. -/
def toExplicitItems : List Value → List Json
  | [] => []
  | item :: rest => toExplicit item :: toExplicitItems rest
termination_by structural items => items

end

end Value

end EntitySql
