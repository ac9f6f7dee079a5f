import EntitySql.Assoc
import EntitySql.Decimal.Binary64
/-!
# JSON values

A JSON value keeps the order of its object members. A number is a whole number where the text had
neither point nor exponent and fits in 64 bits, and a 64-bit floating-point number otherwise.
-/

namespace EntitySql

/-- A number in a JSON value. -/
inductive Json.Number
  /-- A whole number between `-2 ^ 63` and `2 ^ 64`. -/
  | whole (n : Int)
  /-- Any other number. -/
  | real (x : Binary64)
deriving DecidableEq, Repr

/-- A JSON value. -/
inductive Json
  | null
  | bool (b : Bool)
  | number (n : Json.Number)
  | string (s : String)
  | array (items : List Json)
  | object (members : List (String × Json))
deriving BEq, Repr, Inhabited

namespace Json

/-- The number as a whole number of 64 bits with sign. -/
def Number.int64? : Number → Option Int
  | .whole n => if -0x8000000000000000 ≤ n ∧ n < 0x8000000000000000 then some n else none
  | .real _ => none

/-- The number as a whole number of 64 bits without sign. -/
def Number.nat64? : Number → Option Nat
  | .whole n => if 0 ≤ n ∧ n < 0x10000000000000000 then some n.toNat else none
  | .real _ => none

/-- The nearest 64-bit floating-point number. -/
def Number.toBinary64 : Number → Binary64
  | .whole n => Binary64.ofInt n
  | .real x => x

/-- A whole number as a value. -/
def ofInt (n : Int) : Json := .number (.whole n)

/-- The text of a string value. -/
def string? : Json → Option String
  | .string s => some s
  | _ => none

/-- The truth value of a Boolean. -/
def bool? : Json → Option Bool
  | .bool b => some b
  | _ => none

/-- The items of an array. -/
def array? : Json → Option (List Json)
  | .array items => some items
  | _ => none

/-- The members of an object in order. -/
def object? : Json → Option (List (String × Json))
  | .object members => some members
  | _ => none

/-- The whole number of 64 bits without sign. -/
def nat64? : Json → Option Nat
  | .number n => n.nat64?
  | _ => none

/-- Whether the value is an object. -/
def isObject (j : Json) : Bool := j.object?.isSome

/-- The member of an object under the key. -/
def member? (j : Json) (key : String) : Option Json := j.object?.bind (Entries.find? key)

mutual

/-- How many levels of arrays and objects the value has. -/
def depth : Json → Nat
  | .null | .bool _ | .number _ | .string _ => 0
  | .array items => depthOfItems items + 1
  | .object members => depthOfMembers members + 1
termination_by structural j => j

/-- The greatest depth of the items of an array. -/
def depthOfItems : List Json → Nat
  | [] => 0
  | item :: rest => max (depth item) (depthOfItems rest)
termination_by structural items => items

/-- The greatest depth of the members of an object. -/
def depthOfMembers : List (String × Json) → Nat
  | [] => 0
  | (_, value) :: rest => max (depth value) (depthOfMembers rest)
termination_by structural members => members

end

end Json

end EntitySql
