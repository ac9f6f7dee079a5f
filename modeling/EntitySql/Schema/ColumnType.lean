/-!
# Column types

A column type names a family of SQL types together with the modifiers that matter for it. Two
spellings of one type are the same column type, so schemas are compared by column types and never by
SQL text.
-/

namespace EntitySql

/-- A family of column types. -/
inductive TypeCategory
  | integer
  | float
  | double
  | decimal
  | string
  | text
  | boolean
  | date
  | time
  | timestamp
  | json
  | uuid
  | blob
  | vector
  /-- Types that are known by their spelling only. -/
  | unknown
deriving DecidableEq, Repr

/-- The storage size of an integer. -/
inductive IntegerSize
  | tiny
  | small
  | medium
  | regular
  | big
deriving DecidableEq, Repr

namespace TypeCategory

/-- All families with their names. -/
def named : List (String × TypeCategory) :=
  [("integer", integer), ("float", float), ("double", double), ("decimal", decimal),
    ("string", string), ("text", text), ("boolean", boolean), ("date", date), ("time", time),
    ("timestamp", timestamp), ("json", json), ("uuid", uuid), ("blob", blob), ("vector", vector),
    ("unknown", unknown)]

/-- Whether the values are numbers. -/
def isNumeric : TypeCategory → Bool
  | integer | float | double | decimal => true
  | _ => false

end TypeCategory

/-- All sizes with their names. -/
def IntegerSize.named : List (String × IntegerSize) :=
  [("tiny", tiny), ("small", small), ("medium", medium), ("regular", regular), ("big", big)]

/-- The type of a column. A modifier that means nothing for the family may be present and is passed
over. -/
structure ColumnType where
  category : TypeCategory
  /-- The size of an integer, `regular` if absent. -/
  size? : Option IntegerSize := none
  /-- The number of characters, or of dimensions of a vector. -/
  length? : Option UInt32 := none
  /-- The number of digits of a decimal. -/
  precision? : Option UInt32 := none
  /-- The number of digits of a decimal behind the point. -/
  scale? : Option UInt32 := none
  unsigned : Bool := false
  withTimezone : Bool := false
  /-- The spelling of an unknown type. -/
  raw? : Option String := none
deriving DecidableEq, Repr

namespace ColumnType

/-- The family without modifiers. -/
def of (category : TypeCategory) : ColumnType := { category }

/-- An integer of the given size. -/
def integer (size : IntegerSize) : ColumnType := { category := .integer, size? := some size }

/-- A string of at most `length` characters. -/
def varchar (length : UInt32) : ColumnType := { category := .string, length? := some length }

/-- A type that is known by its spelling only. -/
def unknown (spelling : String) : ColumnType := { category := .unknown, raw? := some spelling }

/-- Whether the values are numbers. -/
def isNumeric (t : ColumnType) : Bool := t.category.isNumeric

/-- The size of an integer with the usual one filled in. -/
def size (t : ColumnType) : IntegerSize := t.size?.getD .regular

/-- Whether two modifiers agree. An absent modifier agrees with all. -/
def modifiersAgree {α : Type} [DecidableEq α] : Option α → Option α → Bool
  | some a, some b => a = b
  | _, _ => true

/-- Whether two types describe the same columns: the families are equal and so are the modifiers that
matter for the family, as far as both sides have them. -/
def isEquivalent (a b : ColumnType) : Bool :=
  a.category = b.category &&
    match a.category with
    | .integer => a.size = b.size && a.unsigned = b.unsigned
    | .float | .double => a.unsigned = b.unsigned
    | .decimal =>
      modifiersAgree a.precision? b.precision? && modifiersAgree a.scale? b.scale? &&
        a.unsigned = b.unsigned
    | .string | .vector => modifiersAgree a.length? b.length?
    | .time | .timestamp => a.withTimezone = b.withTimezone
    | .unknown =>
      a.raw?.map (·.toList.map Char.toLower) = b.raw?.map (·.toList.map Char.toLower)
    | _ => true

/-- The word with numbers in parentheses behind it. -/
def withNumbers (word : String) (numbers : List UInt32) : String :=
  word ++ "(" ++ ",".intercalate (numbers.map fun n => toString n.toNat) ++ ")"

/-- The word for an integer of the given size. -/
def sizeWord : IntegerSize → String
  | .tiny => "tinyint"
  | .small => "smallint"
  | .medium => "mediumint"
  | .regular => "int"
  | .big => "bigint"

/-- The type without its sign, in the spelling that belongs to no dialect. -/
def baseText (t : ColumnType) : String :=
  match t.category with
  | .integer => sizeWord t.size
  | .float => "float"
  | .double => "double"
  | .decimal =>
    match t.precision?, t.scale? with
    | some p, some s => withNumbers "decimal" [p, s]
    | some p, none => withNumbers "decimal" [p]
    | none, _ => "decimal"
  | .string => (t.length?.map fun n => withNumbers "varchar" [n]).getD "varchar"
  | .text => "text"
  | .boolean => "boolean"
  | .date => "date"
  | .time => if t.withTimezone then "timetz" else "time"
  | .timestamp => if t.withTimezone then "timestamptz" else "timestamp"
  | .json => "json"
  | .uuid => "uuid"
  | .blob => "blob"
  | .vector => (t.length?.map fun n => withNumbers "vector" [n]).getD "vector"
  | .unknown => t.raw?.getD "unknown"

/-- The type in the spelling that belongs to no dialect. -/
def toText (t : ColumnType) : String :=
  if t.unsigned then t.baseText ++ " unsigned" else t.baseText

end ColumnType

end EntitySql
