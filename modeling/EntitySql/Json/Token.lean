import EntitySql.Json.Basic
import EntitySql.Decimal.Reading
/-!
# Tokens of JSON text

Cuts JSON text into tokens. A string or a number may be well written and still have no value (half of a
surrogate pair that stands alone, a number beyond the greatest one); such a token carries `none`, so
that a reader which skips it does not mind.
-/

namespace EntitySql.Json

/-- A token of JSON text. -/
inductive Token
  | openArray
  | closeArray
  | openObject
  | closeObject
  | colon
  | comma
  | null
  | bool (b : Bool)
  | number (value? : Option Number)
  | string (text? : Option String)
deriving DecidableEq, Repr

namespace Token

/-- Whether the character may stand between tokens. -/
def isSpace (c : Char) : Bool := c = ' ' || c = '\t' || c = '\n' || c = '\r'

/-- The number that four hexadecimal digits stand for. -/
def hex4? (a b c d : Char) : Option Nat := do
  let w ← Text.hexValue? a
  let x ← Text.hexValue? b
  let y ← Text.hexValue? c
  let z ← Text.hexValue? d
  return ((w * 16 + x) * 16 + y) * 16 + z

/-- Whether the code unit is the first of a pair. -/
def isHighSurrogate (n : Nat) : Bool := 0xD800 ≤ n && n ≤ 0xDBFF

/-- Whether the code unit is the second of a pair. -/
def isLowSurrogate (n : Nat) : Bool := 0xDC00 ≤ n && n ≤ 0xDFFF

/-- The character that a letter stands for after a backslash. -/
def escaped? (c : Char) : Option Char :=
  match c with
  | '"' => some '"'
  | '\\' => some '\\'
  | '/' => some '/'
  | 'b' => some (Char.ofNat 0x08)
  | 'f' => some (Char.ofNat 0x0C)
  | 'n' => some '\n'
  | 'r' => some '\r'
  | 't' => some '\t'
  | _ => none

/-- Reads the inside of a string up to its closing quotation mark. `done` holds the characters read so
far, last first, and `high?` the first half of a surrogate pair that waits for the second. Both are
`none` once the string has no value. -/
def readString (done : Option (List Char)) (high? : Option Nat) :
    List Char → Option (Option String × List Char)
  | [] => none
  | '"' :: rest =>
    some (if high?.isSome then none else done.map fun cs => String.ofList cs.reverse, rest)
  | '\\' :: 'u' :: a :: b :: c :: d :: rest =>
    match hex4? a b c d, high? with
    | none, _ => none
    | some n, some high =>
      if isLowSurrogate n then
        let c := Char.ofNat (0x10000 + (high - 0xD800) * 0x400 + (n - 0xDC00))
        readString (done.map (c :: ·)) none rest
      else readString none none rest
    | some n, none =>
      if isHighSurrogate n then readString done (some n) rest
      else if isLowSurrogate n then readString none none rest
      else readString (done.map (Char.ofNat n :: ·)) none rest
  | '\\' :: e :: rest =>
    match escaped? e with
    | some c => readString (if high?.isSome then none else done.map (c :: ·)) none rest
    | none => none
  | c :: rest =>
    if c = '\\' || c.toNat < 0x20 then none
    else readString (if high?.isSome then none else done.map (c :: ·)) none rest

/-- Reads the exponent of a number, if one follows: its value and the rest. -/
def readPower : List Char → Option (Option Int × List Char)
  | [] => some (none, [])
  | c :: rest =>
    if c = 'e' || c = 'E' then
      let (negative, after) := Binary64.takeSign rest
      let digits := after.takeWhile Text.isDigit
      if digits.isEmpty then none
      else
        let n : Int := Text.natOfDigits digits
        some (some (if negative then -n else n), after.dropWhile Text.isDigit)
    else some (none, c :: rest)

/-- The value of a number from its parts. -/
def numberOf (negative : Bool) (whole fraction : List Char) (power? : Option Int) : Option Number :=
  let n := Text.natOfDigits whole
  let fits : Bool := if negative then 0 < n && n ≤ 0x8000000000000000 else n < 0x10000000000000000
  if fraction.isEmpty && power?.isNone && fits then
    some (.whole (if negative then -(n : Int) else n))
  else (Binary64.scaled? negative whole fraction (power?.getD 0)).map .real

/-- Reads a number. It has no leading zeros, and digits stand on both sides of a point. -/
def readNumber (cs : List Char) : Option (Option Number × List Char) :=
  let (negative, body) : Bool × List Char :=
    match cs with
    | '-' :: rest => (true, rest)
    | _ => (false, cs)
  let whole := body.takeWhile Text.isDigit
  let rest := body.dropWhile Text.isDigit
  if whole.isEmpty || (whole.head? == some '0' && whole.length != 1) then none
  else
    match rest with
    | '.' :: after =>
      let fraction := after.takeWhile Text.isDigit
      if fraction.isEmpty then none
      else (readPower (after.dropWhile Text.isDigit)).map fun (power?, tail) =>
        (numberOf negative whole fraction power?, tail)
    | _ => (readPower rest).map fun (power?, tail) => (numberOf negative whole [] power?, tail)

/-- Reads the first token of a text that starts with neither space nor end. -/
def readToken : List Char → Option (Token × List Char)
  | '[' :: rest => some (.openArray, rest)
  | ']' :: rest => some (.closeArray, rest)
  | '{' :: rest => some (.openObject, rest)
  | '}' :: rest => some (.closeObject, rest)
  | ':' :: rest => some (.colon, rest)
  | ',' :: rest => some (.comma, rest)
  | 'n' :: 'u' :: 'l' :: 'l' :: rest => some (.null, rest)
  | 't' :: 'r' :: 'u' :: 'e' :: rest => some (.bool true, rest)
  | 'f' :: 'a' :: 'l' :: 's' :: 'e' :: rest => some (.bool false, rest)
  | '"' :: rest => (readString (some []) none rest).map fun (text?, tail) => (.string text?, tail)
  | cs => (readNumber cs).map fun (value?, tail) => (.number value?, tail)

/-- Reads at most `fuel` tokens, each of which takes up at least one character. `done` holds the tokens
read so far, last first. -/
def readAll (done : List Token) : Nat → List Char → Option (List Token)
  | 0, cs => if (cs.dropWhile isSpace).isEmpty then some done.reverse else none
  | fuel + 1, cs =>
    match cs.dropWhile isSpace with
    | [] => some done.reverse
    | c :: rest =>
      match readToken (c :: rest) with
      | some (token, tail) => readAll (token :: done) fuel tail
      | none => none

/-- The tokens of a text. -/
def ofText? (cs : List Char) : Option (List Token) := readAll [] cs.length cs

end Token

end EntitySql.Json
