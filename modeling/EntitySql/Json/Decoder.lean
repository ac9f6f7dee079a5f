import EntitySql.Json.Document
/-!
# Decoding documents

A decoder reads a value of the library from a JSON document, or nothing where the document does not fit.
Records may be written as objects, with unknown keys passed over and no known key repeated, or as arrays
of their fields in order, of which the last ones may be missing.
-/

namespace EntitySql.Json

/-- Reads a value from a document. -/
abbrev Decoder (α : Type) := Document → Option α

namespace Decoder

/-- A string that has a value. -/
def string : Decoder String
  | .string text? => text?
  | _ => none

/-- A truth value. -/
def bool : Decoder Bool
  | .bool b => some b
  | _ => none

/-- A number that has a value. -/
def number : Decoder Number
  | .number value? => value?
  | _ => none

/-- A whole number of 64 bits with sign. -/
def int64 : Decoder Int := fun d => (number d).bind Number.int64?

/-- A whole number of 32 bits with sign. -/
def int32 : Decoder Int32 := fun d =>
  (int64 d).bind fun n => if -0x80000000 ≤ n ∧ n < 0x80000000 then some (Int32.ofInt n) else none

/-- A whole number of 32 bits without sign. -/
def uint32 : Decoder UInt32 := fun d =>
  (int64 d).bind fun n => if 0 ≤ n ∧ n < 0x100000000 then some (UInt32.ofNat n.toNat) else none

/-- A 64-bit floating-point number; a whole number is taken for the nearest one. -/
def binary64 : Decoder Binary64 := fun d => (number d).map Number.toBinary64

/-- A value or `null`. -/
def nullable {α : Type} (decode : Decoder α) : Decoder (Option α)
  | .null => some none
  | d => (decode d).map some

/-- An array of values. -/
def list {α : Type} (decode : Decoder α) : Decoder (List α)
  | .array items => items.mapM decode
  | _ => none

/-- The members of an object, all of whose keys have values. -/
def members? (members : List (Option String × Document)) : Option (List (String × Document)) :=
  members.mapM fun member => member.1.map fun key => (key, member.2)

/-- An object of values under any keys. A repeated key keeps its first place and its last value. -/
def assoc {α : Type} (decode : Decoder α) : Decoder (Assoc α)
  | .object written => do
    let members ← members? written
    let pairs ← members.mapM fun (key, value) => (decode value).map fun a => (key, a)
    return Assoc.ofPairs pairs
  | _ => none

/-- One of several names, written as a string or as an object that maps it to `null`. -/
def named {α : Type} (names : List (String × α)) : Decoder α
  | .string (some name) => names.lookup name
  | .object [(some name, .null)] => names.lookup name
  | _ => none

end Decoder

/-- The fields of a record as they were written. -/
structure Fields where
  /-- Whether the record is an array. -/
  positional : Bool
  /-- The written values by field name; fields that are not written have none. -/
  values : List (String × Option Document)

namespace Fields

/-- The fields of a record with the given field names in order. -/
def of? (names : List String) : Document → Option Fields
  | .object written => do
    let members ← Decoder.members? written
    let occurrences (name : String) := members.filter fun (key, _) => key == name
    if names.any fun name => 1 < (occurrences name).length then none
    else
      some { positional := false, values := names.map fun name => (name, members.lookup name) }
  | .array items =>
    if names.length < items.length then none
    else
      some { positional := true, values := names.zip (items.map some ++
        List.replicate (names.length - items.length) none) }
  | _ => none

/-- What is written for the field. -/
def written? (fields : Fields) (name : String) : Option Document :=
  (fields.values.lookup name).join

/-- A field that has to be written. -/
def required {α : Type} (fields : Fields) (name : String) (decode : Decoder α) : Option α :=
  (fields.written? name).bind decode

/-- A field that takes the default where it is not written. -/
def withDefault {α : Type} (fields : Fields) (name : String) (decode : Decoder α) (default : α) :
    Option α :=
  match fields.written? name with
  | some d => decode d
  | none => some default

/-- A field that may be absent or `null`. -/
def optional {α : Type} (fields : Fields) (name : String) (decode : Decoder α) :
    Option (Option α) :=
  fields.withDefault name (Decoder.nullable decode) none

/-- A field that may be `null`, and absent in an object but not in an array. -/
def optionalKey {α : Type} (fields : Fields) (name : String) (decode : Decoder α) :
    Option (Option α) :=
  match fields.written? name with
  | some d => Decoder.nullable decode d
  | none => if fields.positional then none else some none

end Fields

end EntitySql.Json
