import EntitySql.Json.Basic
import EntitySql.Decimal.Shortest
import EntitySql.Text.Numeral
/-!
# Compact JSON text

Writes a JSON value without blanks, members in order. In a string the quotation mark, the backslash
and the characters below space are escaped, by a letter where there is one.
-/

namespace EntitySql.Json

/-- The text of one character of a string. -/
def escapeChar (c : Char) : List Char :=
  if c = '"' then ['\\', '"']
  else if c = '\\' then ['\\', '\\']
  else if 0x20 ≤ c.toNat then [c]
  else
    match c.toNat with
    | 0x08 => ['\\', 'b']
    | 0x09 => ['\\', 't']
    | 0x0A => ['\\', 'n']
    | 0x0C => ['\\', 'f']
    | 0x0D => ['\\', 'r']
    | n => ['\\', 'u', '0', '0', Text.hexDigitLower (n / 16), Text.hexDigitLower (n % 16)]

/-- A string between quotation marks. -/
def writeString (s : String) : List Char := '"' :: s.toList.flatMap escapeChar ++ ['"']

/-- A number in its shortest form. -/
def Number.write : Number → List Char
  | .whole n => (toString n).toList
  | .real x => x.toJsonText.toList

mutual

/-- The text of a value. -/
def write : Json → List Char
  | .null => ['n', 'u', 'l', 'l']
  | .bool b => (if b then "true" else "false").toList
  | .number n => n.write
  | .string s => writeString s
  | .array items => '[' :: writeItems items ++ [']']
  | .object members => '{' :: writeMembers members ++ ['}']
termination_by structural j => j

/-- The texts of values, with commas between them. -/
def writeItems : List Json → List Char
  | [] => []
  | [item] => write item
  | item :: next :: rest => write item ++ ',' :: writeItems (next :: rest)
termination_by structural items => items

/-- The texts of members, with commas between them. -/
def writeMembers : List (String × Json) → List Char
  | [] => []
  | [(key, value)] => writeString key ++ ':' :: write value
  | (key, value) :: next :: rest =>
    writeString key ++ ':' :: write value ++ ',' :: writeMembers (next :: rest)
termination_by structural members => members

end

/-- The compact text of a value. -/
def toText (j : Json) : String := String.ofList j.write

end EntitySql.Json
