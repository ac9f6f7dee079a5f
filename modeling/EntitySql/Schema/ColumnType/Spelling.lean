import EntitySql.Schema.ColumnType
import EntitySql.Text.Blank
import EntitySql.Text.DecimalDigit
import EntitySql.Text.LetterCase
import EntitySql.Text.Numeral
/-!
# Reading column types

A spelled type is a name, at most two numbers in parentheses, and more words of the name behind them, as
in `timestamp(6) with time zone`. Letter case and the number of blanks do not matter, and the words
`unsigned` and `zerofill` may stand anywhere. `ColumnType.ofText` knows the names of all dialects. A
text of any other form, or with any other name, is an unknown type with that spelling.
-/

namespace EntitySql.ColumnType

/-- A spelled type taken apart. -/
structure Spelling where
  /-- The words of the name. -/
  name : String
  /-- The first number in parentheses, if it fits in 32 bits. -/
  first? : Option UInt32
  /-- The second number in parentheses, if it fits in 32 bits. -/
  second? : Option UInt32
deriving DecidableEq, Repr

namespace Spelling

/-- Whether the character is one of `a` to `z`. -/
def isLetter (c : Char) : Bool := 'a' ≤ c && c ≤ 'z'

/-- Whether the character may stand in the name in front of the numbers. -/
def isNameChar (c : Char) : Bool := isLetter c || Text.isDigit c || c == '_' || c == ' '

/-- Whether the character may stand behind the numbers. -/
def isSuffixChar (c : Char) : Bool := isLetter c || c == ' '

/-- A run of digits with blanks around it, and what follows. -/
def takeNumber? (cs : List Char) : Option (List Char × List Char) :=
  let body := cs.dropWhile (· == ' ')
  let digits := body.takeWhile Text.isDecimalDigit
  if digits.isEmpty then none
  else some (digits, (body.dropWhile Text.isDecimalDigit).dropWhile (· == ' '))

/-- The numbers up to the closing parenthesis, and what follows it. -/
def takeNumbers? (cs : List Char) : Option (List Char × List Char × List Char) :=
  match takeNumber? cs with
  | some (first, ')' :: rest) => some (first, [], rest)
  | some (first, ',' :: more) =>
    match takeNumber? more with
    | some (second, ')' :: rest) => some (first, second, rest)
    | _ => none
  | _ => none

/-- The name in front of the numbers with the words behind them. -/
def joinName (base suffix : List Char) : String :=
  let base := Text.trim base
  let suffix := Text.trim suffix
  String.ofList (if suffix.isEmpty then base else base ++ ' ' :: suffix)

/-- Takes a spelled type apart. Letters are in lower case and no two blanks stand side by side. -/
def ofChars? (cs : List Char) : Option Spelling :=
  let base := cs.takeWhile isNameChar
  if !(base.head?.any isLetter) then none
  else
    match cs.dropWhile isNameChar with
    | [] => some { name := joinName base [], first? := none, second? := none }
    | '(' :: inside =>
      match takeNumbers? inside with
      | some (first, second, suffix) =>
        if suffix.all isSuffixChar then
          some { name := joinName base suffix, first? := Text.uint32? first,
                 second? := Text.uint32? second }
        else none
      | none => none
    | _ => none

/-- The type that the spelling stands for, apart from its sign. -/
def toType? (s : Spelling) : Option ColumnType :=
  match s.name with
  | "tinyint" => some (if s.first? = some 1 then of .boolean else integer .tiny)
  | "smallint" | "int2" | "smallserial" => some (integer .small)
  | "mediumint" => some (integer .medium)
  | "int" | "integer" | "int4" | "serial" => some (integer .regular)
  | "bigint" | "int8" | "bigserial" => some (integer .big)
  | "real" | "float" | "float4" => some (of .float)
  | "double" | "double precision" | "float8" => some (of .double)
  | "decimal" | "numeric" | "dec" =>
    some { category := .decimal, precision? := s.first?
           scale? := s.second?.or (s.first?.map fun _ => 0) }
  | "varchar" | "character varying" | "char" | "character" | "nvarchar" | "nchar" =>
    some { category := .string, length? := s.first? }
  | "text" | "tinytext" | "mediumtext" | "longtext" | "clob" => some (of .text)
  | "bool" | "boolean" | "bit" => some (of .boolean)
  | "date" => some (of .date)
  | "time" | "time without time zone" => some (of .time)
  | "timetz" | "time with time zone" => some { category := .time, withTimezone := true }
  | "timestamp" | "datetime" | "timestamp without time zone" => some (of .timestamp)
  | "timestamptz" | "timestamp with time zone" =>
    some { category := .timestamp, withTimezone := true }
  | "json" | "jsonb" => some (of .json)
  | "uuid" => some (of .uuid)
  | "blob" | "bytea" | "binary" | "varbinary" | "tinyblob" | "mediumblob" | "longblob" =>
    some (of .blob)
  | "vector" => some { category := .vector, length? := s.first? }
  | _ => none

end Spelling

/-- The words of a spelled type in lower case. -/
def spelledWords (text : String) : List (List Char) := Text.words (text.toList.map Char.toLower)

/-- The word that takes the sign from a number. -/
def unsignedWord : List Char := "unsigned".toList

/-- The words that tell how a number is stored and are no part of the type's name. -/
def storageWords : List (List Char) := [unsignedWord, "zerofill".toList]

/-- The column type that a text spells, in the words of any dialect. -/
def ofText (text : String) : ColumnType :=
  let words := spelledWords text
  let cleaned := List.intercalate [' '] (words.filter (!storageWords.contains ·))
  match (Spelling.ofChars? cleaned).bind Spelling.toType? with
  | some t => if words.contains unsignedWord && t.isNumeric then { t with unsigned := true } else t
  | none => unknown (Text.trimmed text)

end EntitySql.ColumnType
