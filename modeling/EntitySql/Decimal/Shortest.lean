import EntitySql.Decimal.Binary64
/-!
# Shortest decimals

The decimal numeral of a 64-bit number: the fewest significant digits that read back as the same
number, and of those the digits nearest to it. Where two are equally near, a `Tie` decides.
`Decimal.positional` and `Decimal.scientific` lay the digits out.
-/

namespace EntitySql

/-- The number `digits · 10 ^ exponent`. -/
structure Decimal where
  /-- The significant digits as one number. -/
  digits : Nat
  /-- The power of ten of the last digit. -/
  exponent : Int
deriving DecidableEq, Repr

/-- Which of two neighbours is taken for a number that lies halfway between them. -/
inductive Tie
  /-- The greater one. -/
  | up
  /-- The one whose last digit is even. -/
  | even
deriving DecidableEq, Repr

/-- Whether `low` is taken rather than `low + 1`, where the part of the step that lies below the number is
compared with one half. -/
def Tie.takesLow (tie : Tie) (low : Nat) : Ordering → Bool
  | .lt => true
  | .eq => tie = .even && low % 2 = 0
  | .gt => false

namespace Decimal

/-- The number of trailing zeros to strip is at most `fuel`. -/
def stripZeros : Nat → Nat → Int → Decimal
  | 0, digits, exponent => ⟨digits, exponent⟩
  | fuel + 1, digits, exponent =>
    if digits ≠ 0 ∧ digits % 10 = 0 then stripZeros fuel (digits / 10) (exponent + 1)
    else ⟨digits, exponent⟩

/-- The place of the decimal point relative to the first significant digit: the value of a positive
finite number lies between `10 ^ (point - 1)` and `10 ^ point`. -/
def pointOf (x : Binary64) : Int :=
  let (num, den) := x.ratio
  (Binary64.decimalLength (num * Nat.pow 10 340 / den) : Int) - 340

/-- The exact decimal expansion of a finite number. -/
def exact (x : Binary64) : Decimal :=
  match x.exponent with
  | .ofNat k => ⟨x.significand * Nat.pow 2 k, 0⟩
  | .negSucc k => ⟨x.significand * Nat.pow 5 (k + 1), -((k : Int) + 1)⟩

/-- `num / den` as a multiple of `10 ^ unit`, rounded down, with twice the remainder against one unit:
less than, equal to or greater than one half. -/
def floorAt (num den : Nat) (unit : Int) : Nat × Ordering :=
  let (n, d) : Nat × Nat :=
    match unit with
    | .ofNat k => (num, den * Nat.pow 10 k)
    | .negSucc k => (num * Nat.pow 10 (k + 1), den)
  (n / d, compare (2 * (n % d)) d)

/-- The numeral with `count` digits that reads back as `x` and is nearest to it: one of the two multiples of
its last digit around `x`, where the one that a tie takes comes first. -/
def withDigits? (tie : Tie) (x : Binary64) (count : Nat) : Option Decimal :=
  let unit := pointOf x - count
  let floor := floorAt x.ratio.1 x.ratio.2 unit
  let neighbours :=
    if tie.takesLow floor.1 floor.2 then [floor.1, floor.1 + 1] else [floor.1 + 1, floor.1]
  (neighbours.find? fun digits =>
    (Binary64.ofDecimal false digits unit).magnitude == x.magnitude).map (⟨·, unit⟩)

/-- The shortest numeral that reads back as the finite number `x`, without its sign. -/
def shortest (tie : Tie) (x : Binary64) : Decimal :=
  if x.magnitude.val = 0 then ⟨0, 0⟩
  else
    match (List.range 17).findSome? fun n => withDigits? tie x (n + 1) with
    | some d => stripZeros 20 d.digits d.exponent
    | none => exact x

/-- A run of zeros. -/
def zeros (n : Nat) : List Char := List.replicate n '0'

/-- Digits with the point in its place and no exponent; a whole number has no point. -/
def positional (d : Decimal) : List Char :=
  let ds := Nat.toDigits 10 d.digits
  match d.exponent with
  | .ofNat k => if d.digits = 0 then ds else ds ++ zeros k
  | .negSucc k =>
    let places := k + 1
    if places < ds.length then ds.take (ds.length - places) ++ '.' :: ds.drop (ds.length - places)
    else '0' :: '.' :: zeros (places - ds.length) ++ ds

/-- One digit, the others after a point, and a signed exponent. -/
def scientific (d : Decimal) : List Char :=
  let ds := Nat.toDigits 10 d.digits
  let power := d.exponent + ds.length - 1
  let tail := if ds.length ≤ 1 then ds else ds.take 1 ++ '.' :: ds.drop 1
  let sign := if power < 0 then '-' else '+'
  tail ++ 'e' :: sign :: Nat.toDigits 10 power.natAbs

end Decimal

namespace Binary64

/-- The sign in front of the text of the absolute value. -/
def signed (x : Binary64) (text : List Char) : List Char :=
  if x.negative then '-' :: text else text

/-- The text of a number in SQL: shortest digits, the greater ones of two equally near, and never an
exponent. -/
def toText (x : Binary64) : String :=
  if x.isNaN then "NaN"
  else String.ofList <| x.signed <|
    if x.isFinite then (Decimal.shortest .up x).positional else ['i', 'n', 'f']

/-- The text of a number in JSON: shortest digits, the even ones of two equally near, with a point below
`10 ^ 16` and from `10 ^ (-5)` on, and with an exponent elsewhere. What is not finite is written `null`. -/
def toJsonText (x : Binary64) : String :=
  if !x.isFinite then "null"
  else
    let d := Decimal.shortest .even x
    let point := d.exponent + decimalLength d.digits
    String.ofList <| x.signed <|
      if d.digits = 0 then ['0', '.', '0']
      else if 0 ≤ d.exponent && point ≤ 16 then d.positional ++ ['.', '0']
      else if d.exponent < 0 && -5 < point && point ≤ 16 then d.positional
      else d.scientific

end Binary64

end EntitySql
