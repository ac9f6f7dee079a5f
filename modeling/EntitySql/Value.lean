import EntitySql.Json.Writer
import EntitySql.RawSql
/-!
# Values

What stands on the right of a comparison or goes into a column.
-/

namespace EntitySql

/-- A value of a filter or of a record. -/
inductive Value
  | null
  | bool (b : Bool)
  /-- A whole number of 64 bits with sign. -/
  | int (n : Int)
  | float (x : Binary64)
  | text (s : String)
  | blob (bytes : List UInt8)
  /-- A structured document. -/
  | json (document : Json)
  /-- Several values, as in a list of alternatives or a vector. -/
  | list (items : List Value)
  /-- A caller's SQL expression. -/
  | raw (sql : RawSql)
deriving BEq, Repr, Inhabited

namespace Value

/-- Whether the value is `null`. -/
def isNull : Value → Bool
  | .null => true
  | _ => false

/-- The string of a text value. -/
def text? : Value → Option String
  | .text s => some s
  | _ => none

/-- The number of a whole-number value. -/
def int? : Value → Option Int
  | .int n => some n
  | _ => none

/-- The text that a pattern is made of, for text and numbers only. -/
def patternText? : Value → Option String
  | .text s => some s
  | .int n => some (toString n)
  | .float x => some x.toText
  | _ => none

mutual

/-- The value as JSON. Bytes become hexadecimal text, and raw expressions and numbers that are not
finite become `null`. -/
def toJson : Value → Json
  | .null | .raw _ => .null
  | .bool b => .bool b
  | .int n => Json.ofInt n
  | .float x => if x.isFinite then .number (.real x) else .null
  | .text s => .string s
  | .blob bytes => .string (Text.hexOfBytes bytes)
  | .json document => document
  | .list items => .array (itemsToJson items)
termination_by structural v => v

/-- The values of a list as JSON. -/
def itemsToJson : List Value → List Json
  | [] => []
  | item :: rest => toJson item :: itemsToJson rest
termination_by structural items => items

end

end Value

end EntitySql
