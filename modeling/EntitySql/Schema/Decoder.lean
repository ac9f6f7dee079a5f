import EntitySql.Json.Decoder
import EntitySql.Schema.Default
import EntitySql.Schema.IndexMethod
import EntitySql.Schema.ReferentialAction
/-!
# Reading defaults, actions and methods

How the smallest parts of a schema are written in JSON.
-/

namespace EntitySql

open Json

/-- A default: `"null"`, or an object whose only key tells the kind. -/
def ColumnDefault.decode : Decoder ColumnDefault
  | .string (some "null") => some .null
  | .object [(some "null", .null)] => some .null
  | .object [(some "boolean", d)] => (Decoder.bool d).map .boolean
  | .object [(some "integer", d)] => (Decoder.int64 d).map .integer
  | .object [(some "float", d)] => (Decoder.binary64 d).map .float
  | .object [(some "string", d)] => (Decoder.string d).map .string
  | .object [(some "expression", d)] => (Decoder.string d).map .expression
  | _ => none

/-- A default as JSON. -/
def ColumnDefault.toJson : ColumnDefault → Json
  | .null => .string "null"
  | .boolean b => .object [("boolean", .bool b)]
  | .integer n => .object [("integer", Json.ofInt n)]
  | .float x => .object [("float", if x.isFinite then .number (.real x) else .null)]
  | .string s => .object [("string", .string s)]
  | .expression sql => .object [("expression", .string sql)]

/-- An action by its keywords. -/
def ReferentialAction.decode : Decoder ReferentialAction :=
  Decoder.named (ReferentialAction.all.map fun action => (action.keyword, action))

/-- A method by its name. -/
def IndexMethod.decode : Decoder IndexMethod :=
  Decoder.named (IndexMethod.all.map fun method => (method.name, method))

end EntitySql
