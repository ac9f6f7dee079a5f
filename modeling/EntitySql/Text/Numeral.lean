/-!
# Whole numbers in text

Decimal and hexadecimal digits, and the readers of whole numbers with an optional sign. A reader
takes the whole text or nothing.
-/

namespace EntitySql.Text

/-- Whether the character is one of `0` to `9`. -/
def isDigit (c : Char) : Bool := '0' ≤ c && c ≤ '9'

/-- The value of a decimal digit. -/
def digitValue (c : Char) : Nat := c.toNat - '0'.toNat

/-- The number that a run of decimal digits stands for. -/
def natOfDigits (cs : List Char) : Nat := cs.foldl (fun n c => n * 10 + digitValue c) 0

/-- Reads a nonempty run of decimal digits. -/
def nat? (cs : List Char) : Option Nat :=
  if cs.isEmpty || !cs.all isDigit then none else some (natOfDigits cs)

/-- Reads decimal digits after an optional sign. -/
def int? (cs : List Char) : Option Int :=
  match cs with
  | '-' :: rest => (nat? rest).map fun n => -(n : Int)
  | '+' :: rest => (nat? rest).map fun n => (n : Int)
  | _ => (nat? cs).map fun n => (n : Int)

/-- Reads a whole number that fits in 64 bits with sign. -/
def int64? (s : String) : Option Int :=
  (int? s.toList).filter fun n => -0x8000000000000000 ≤ n && n < 0x8000000000000000

/-- Reads a run of decimal digits as a number that fits in 32 bits. -/
def uint32? (cs : List Char) : Option UInt32 :=
  (nat? cs).bind fun n => if n < 0x100000000 then some (UInt32.ofNat n) else none

/-- The digit of a value below sixteen, in upper case. -/
def hexDigitUpper (n : Nat) : Char :=
  Char.ofNat (if n < 10 then '0'.toNat + n else 'A'.toNat + (n - 10))

/-- The digit of a value below sixteen, in lower case. -/
def hexDigitLower (n : Nat) : Char :=
  Char.ofNat (if n < 10 then '0'.toNat + n else 'a'.toNat + (n - 10))

/-- The value of a hexadecimal digit of either case. -/
def hexValue? (c : Char) : Option Nat :=
  if isDigit c then some (digitValue c)
  else if 'a' ≤ c && c ≤ 'f' then some (c.toNat - 'a'.toNat + 10)
  else if 'A' ≤ c && c ≤ 'F' then some (c.toNat - 'A'.toNat + 10)
  else none

/-- Two upper-case hexadecimal digits for each byte. -/
def hexOfBytes (bytes : List UInt8) : String :=
  String.ofList (bytes.flatMap fun b =>
    [hexDigitUpper (b.toNat / 16), hexDigitUpper (b.toNat % 16)])

/-- Reads pairs of hexadecimal digits as bytes. -/
def bytesOfHex? : List Char → Option (List UInt8)
  | [] => some []
  | [_] => none
  | a :: b :: rest => do
    let high ← hexValue? a
    let low ← hexValue? b
    let bytes ← bytesOfHex? rest
    return UInt8.ofNat (high * 16 + low) :: bytes

end EntitySql.Text
