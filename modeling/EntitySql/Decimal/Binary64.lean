/-!
# Binary floating point of 64 bits

A number is a sign and a magnitude. The magnitude is the number's place among the nonnegative
numbers in ascending order, so that ordering and neighbours are those of the natural numbers: place
`e · 2 ^ 52 + f` holds `f · 2 ^ (-1074)` when `e = 0` and `(2 ^ 52 + f) · 2 ^ (e - 1075)` otherwise.
The place `2047 · 2 ^ 52` is infinity and everything above it is not a number.

All arithmetic is exact on natural numbers and rounds once, to nearest with ties to even.
-/

namespace EntitySql

/-- A 64-bit binary floating-point number. -/
structure Binary64 where
  /-- Whether the sign is minus. -/
  negative : Bool
  /-- The place of the absolute value in ascending order. -/
  magnitude : Fin 0x8000000000000000
deriving DecidableEq, Repr

namespace Binary64

/-- The number of places between two powers of two, which is `2 ^ 52`. -/
def placesPerPower : Nat := 0x10000000000000

/-- The place of infinity. -/
def infinityPlace : Nat := 0x7FF0000000000000

/-- Infinity with the given sign. -/
def infinite (negative : Bool) : Binary64 := ⟨negative, ⟨infinityPlace, by decide⟩⟩

/-- The positive quiet value that is not a number. -/
def nan : Binary64 := ⟨false, ⟨0x7FF8000000000000, by decide⟩⟩

/-- Zero with the given sign. -/
def zero (negative : Bool) : Binary64 := ⟨negative, ⟨0, by decide⟩⟩

instance : Inhabited Binary64 := ⟨zero false⟩

/-- Whether the number is neither infinite nor without value. -/
def isFinite (x : Binary64) : Bool := x.magnitude.val < infinityPlace

/-- Whether the value is not a number. -/
def isNaN (x : Binary64) : Bool := infinityPlace < x.magnitude.val

/-- The whole number `m` of the value `m · 2 ^ exponent` of a finite number without its sign. -/
def significand (x : Binary64) : Nat :=
  if x.magnitude.val / placesPerPower = 0 then x.magnitude.val
  else placesPerPower + x.magnitude.val % placesPerPower

/-- The power of two that goes with `significand`. -/
def exponent (x : Binary64) : Int :=
  if x.magnitude.val / placesPerPower = 0 then -1074
  else (x.magnitude.val / placesPerPower : Nat) - 1075

/-- The quotient rounded to the nearest whole number, a half going to the even neighbour. -/
def roundQuotient (num den : Nat) : Nat :=
  let q := num / den
  let twice := 2 * (num % den)
  if twice < den then q
  else if twice = den then q + q % 2
  else q + 1

/-- `num · 2 ^ shift / den` as a pair of a numerator and a denominator. -/
def shifted (num den : Nat) (shift : Int) : Nat × Nat :=
  match shift with
  | .ofNat k => (num * Nat.pow 2 k, den)
  | .negSucc k => (num, den * Nat.pow 2 (k + 1))

/-- The greatest `e` with `2 ^ e ≤ num / den`, for a positive quotient. -/
def binaryOrder (num den : Nat) : Int :=
  let guess : Int := (num.log2 : Int) - den.log2
  let (n, d) := shifted num den (-guess)
  if n < d then guess - 1 else guess

/-- The number nearest to `± num / den`, with infinity for what lies beyond the greatest one. -/
def ofRatio (negative : Bool) (num den : Nat) : Binary64 :=
  if num = 0 then zero negative
  else
    let unit := max (binaryOrder num den - 52) (-1074)
    let (n, d) := shifted num den (-unit)
    let place := (unit + 1074).toNat * placesPerPower + roundQuotient n d
    if h : place < infinityPlace then ⟨negative, ⟨place, Nat.lt_trans h (by decide)⟩⟩
    else infinite negative

/-- The number of decimal digits of a natural number; zero has one. -/
def decimalLength (n : Nat) : Nat := (Nat.toDigits 10 n).length

/-- The number nearest to `± digits · 10 ^ exponent`. Beyond 310 places before the point there is only
infinity and below 330 places after it only zero. -/
def ofDecimal (negative : Bool) (digits : Nat) (exponent : Int) : Binary64 :=
  if digits = 0 then zero negative
  else
    let point := exponent + decimalLength digits
    if 310 < point then infinite negative
    else if point < -330 then zero negative
    else
      match exponent with
      | .ofNat k => ofRatio negative (digits * Nat.pow 10 k) 1
      | .negSucc k => ofRatio negative digits (Nat.pow 10 (k + 1))

/-- The number nearest to a natural number. -/
def ofNat (n : Nat) : Binary64 := ofRatio false n 1

/-- The number nearest to a whole number. -/
def ofInt (n : Int) : Binary64 := ofRatio (n < 0) n.natAbs 1

/-- The value of a finite number without its sign as a quotient. -/
def ratio (x : Binary64) : Nat × Nat := shifted x.significand 1 x.exponent

/-- The product of two finite numbers without their signs, rounded once. -/
def mulAbs (x y : Binary64) : Binary64 :=
  let (a, b) := x.ratio
  let (c, d) := y.ratio
  ofRatio false (a * c) (b * d)

/-- The quotient of two finite numbers without their signs, rounded once. The divisor is not zero. -/
def divAbs (x y : Binary64) : Binary64 :=
  let (a, b) := x.ratio
  let (c, d) := y.ratio
  ofRatio false (a * d) (b * c)

/-- The number with the given sign in place of its own. -/
def withSign (negative : Bool) (x : Binary64) : Binary64 := ⟨negative, x.magnitude⟩

end Binary64

end EntitySql
