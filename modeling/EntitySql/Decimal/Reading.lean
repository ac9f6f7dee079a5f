import EntitySql.Decimal.Binary64
import EntitySql.Text.Numeral
/-!
# Reading decimal text

Two ways from written digits to a 64-bit number. `Binary64.ofText?` reads a whole text and gives the
nearest number. `Binary64.scaled?` works on the first digits that fit in 64 bits and a power of ten; it
rounds the digits, then the scaled result, and refuses what lies beyond the greatest number.
-/

namespace EntitySql.Binary64

open Text (isDigit natOfDigits)

/-- A minus sign or none, and what follows. A plus sign is dropped. -/
def takeSign : List Char → Bool × List Char
  | '-' :: rest => (true, rest)
  | '+' :: rest => (false, rest)
  | cs => (false, cs)

/-- The digits after a point, if a point comes first, and what follows. -/
def takeFraction : List Char → List Char × List Char
  | '.' :: rest => (rest.takeWhile isDigit, rest.dropWhile isDigit)
  | cs => ([], cs)

/-- The exponent that makes up the rest of a numeral: nothing, or `e`, a sign and digits. -/
def readExponent? : List Char → Option Int
  | [] => some 0
  | c :: rest =>
    if c = 'e' || c = 'E' then
      let (negative, power) := takeSign rest
      (Text.nat? power).map fun n => if negative then -(n : Int) else n
    else none

/-- Reads digits with at most one point and at least one digit and an exponent, after a sign; or a
spelling of infinity or of no number, in any case of letters. -/
def ofText? (text : String) : Option Binary64 :=
  let (negative, body) := takeSign text.toList
  let whole := body.takeWhile isDigit
  let (fraction, rest) := takeFraction (body.dropWhile isDigit)
  if whole.isEmpty && fraction.isEmpty then
    match String.ofList (body.map Char.toLower) with
    | "inf" => some (infinite negative)
    | "infinity" => some (infinite negative)
    | "nan" => some (withSign negative nan)
    | _ => none
  else
    (readExponent? rest).map fun power =>
      ofDecimal negative (natOfDigits (whole ++ fraction)) (power - fraction.length)

/-- Appends decimal digits to `n` as long as the number stays below `2 ^ 64`, and counts the digits
that were taken. -/
def appendDigits (n taken : Nat) : List Char → Nat × Nat
  | [] => (n, taken)
  | c :: rest =>
    let next := n * 10 + Text.digitValue c
    if next < 0x10000000000000000 then appendDigits next (taken + 1) rest else (n, taken)

/-- `x · 10 ^ power` for a number below `2 ^ 64`, in one rounding for a power of at most 308 in size and
in two for a lesser one. There is no result where the product is infinite. -/
def scaleByPower? (x : Binary64) (power : Int) : Option Binary64 :=
  let finiteOnly (y : Binary64) : Option Binary64 := if y.isFinite then some y else none
  let divide (y : Binary64) (k : Nat) : Binary64 := divAbs y (ofDecimal false 1 k)
  if x.magnitude.val = 0 then some x
  else if 308 < power then none
  else if 0 ≤ power then finiteOnly (mulAbs x (ofDecimal false 1 power))
  else if -308 ≤ power then some (divide x power.natAbs)
  else if -616 ≤ power then some (divide (divide x 308) (power + 308).natAbs)
  else some (Binary64.zero false)

/-- The number written as `whole.fraction` times a power of ten. Digits that no longer fit in 64 bits
count for their places only. -/
def scaled? (negative : Bool) (whole fraction : List Char) (power : Int) : Option Binary64 :=
  let (n, taken) := appendDigits 0 0 whole
  let (m, more) := appendDigits n 0 fraction
  (scaleByPower? (ofNat m) (power + (whole.length - taken : Nat) - more)).map (withSign negative)

end EntitySql.Binary64
