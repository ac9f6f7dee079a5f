import EntitySql.Decimal.Reading
import EntitySql.Schema.Default
import EntitySql.Text.Blank
/-!
# Comparing defaults

Databases report the default of a column in their own words: with type casts, quotes and parentheses around
it, and with several names for the current time. `ColumnDefault.key?` takes all that away. Two defaults
count as equal when their keys are.
-/

namespace EntitySql.ColumnDefault

/-- Whether the character may start the name of a type, in any case of letters. Two letters beyond ASCII
have one of `a` to `z` as their other case: the long s and the Kelvin sign. -/
def isCastStart (c : Char) : Bool :=
  c.isAlpha || c == '_' || c.toNat == 0x17F || c.toNat == 0x212A

/-- Whether the character may stand in the name of a type. -/
def isCastChar (c : Char) : Bool := isCastStart c || c.isDigit || c == ' '

/-- Whether the characters are the numbers of a type in their parentheses, or nothing. -/
def isCastNumbers : List Char → Bool
  | [] => true
  | '(' :: inside =>
    match inside.dropWhile fun c => c.isDigit || c == ',' || c == ' ' with
    | [')'] => true
    | _ => false
  | _ => false

/-- Whether the characters are the name of a type with an array mark and numbers, if there are any. -/
def isCastType (cs : List Char) : Bool :=
  cs.head?.any isCastStart &&
    match cs.dropWhile isCastChar with
    | '[' :: ']' :: rest => isCastNumbers rest
    | rest => isCastNumbers rest

/-- What stands in front of the last two colons, if a type stands behind them. -/
def dropCast? (cs : List Char) : Option (List Char) :=
  let reversed := cs.reverse
  match reversed.dropWhile (· != ':') with
  | ':' :: ':' :: before =>
    if isCastType (reversed.takeWhile (· != ':')).reverse then some (Text.trim before.reverse)
    else none
  | _ => none

/-- Takes casts from the end, at most as many as the fuel allows. -/
def dropCasts : Nat → List Char → List Char
  | 0, cs => cs
  | fuel + 1, cs =>
    match dropCast? cs with
    | some rest => dropCasts fuel rest
    | none => cs

/-- The characters between a first and a last character of the given kind, if there are both. -/
def between (first last : Char) (cs : List Char) : Option (List Char) :=
  match cs with
  | c :: rest => if c = first && rest.getLast? = some last then some rest.dropLast else none
  | [] => none

/-- The characters without one pair of parentheses around them. -/
def unwrapped (cs : List Char) : List Char := ((between '(' ')' cs).map Text.trim).getD cs

/-- The characters without one pair of quotes of the given kind around them. -/
def unquoted (quote : Char) (cs : List Char) : List Char := (between quote quote cs).getD cs

/-- The names of the current time in lower case. -/
def timestampNames : List String :=
  ["now()", "current_timestamp", "current_timestamp()", "localtimestamp", "localtimestamp()",
    "transaction_timestamp()", "datetime('now')"]

/-- The key of a text between quotes or without them. On a Boolean column the digits `1` and `0` are truth
values. `NULL` and the next value of a sequence are no default. -/
def bareKey? (boolean : Bool) (cs : List Char) : Option String :=
  let text := String.ofList cs
  let lowered := cs.map Char.toLower
  if boolean && text = "1" then some "true"
  else if boolean && text = "0" then some "false"
  else if lowered = "null".toList || "nextval(".toList.isPrefixOf lowered then none
  else if timestampNames.contains (String.ofList lowered) ||
      "current_timestamp(".toList.isPrefixOf lowered then
    some "current_timestamp"
  else
    match Binary64.ofText? text with
    | some x => some x.toText
    | none => some text

/-- The key of a default that is written as a text: casts, one pair of parentheses and one pair of quotes
of either kind are taken away. Truth values are found before the quotes go. -/
def textKey? (boolean : Bool) (text : String) : Option String :=
  let trimmed := Text.trim text.toList
  let plain := unwrapped (dropCasts trimmed.length trimmed)
  match String.ofList (plain.map Char.toLower) with
  | "true" => some "true"
  | "false" => some "false"
  | _ => bareKey? boolean (unquoted '"' (unquoted '\'' plain))

/-- What a default is compared by; nothing where it stands for no default. -/
def key? (boolean : Bool) : ColumnDefault → Option String
  | null => none
  | .boolean b => some (if b then "true" else "false")
  | integer n => textKey? boolean (toString n)
  | float x => textKey? boolean x.toText
  | string s => textKey? boolean s
  | expression sql => textKey? boolean sql

/-- The default as it is shown to a reader. -/
def display : ColumnDefault → String
  | string s => s
  | expression sql => sql
  | d => d.toText

end EntitySql.ColumnDefault
