import EntitySql.Json.Writer
/-!
# Lenient access to JSON

Parts of a JSON value with a default in the place of whatever is missing or of another kind. A member that is
`null` counts as missing.
-/

namespace EntitySql.Json

/-- The member under the key, if it is not `null`. -/
def at? (j : Json) (key : String) : Option Json :=
  match j.member? key with
  | some .null => none
  | found => found

/-- The member under the key, or `null`. -/
def get (j : Json) (key : String) : Json := (j.member? key).getD .null

/-- The text of a string, or the empty text. -/
def text (j : Json) : String := j.string?.getD ""

/-- The text under the key. -/
def textAt? (j : Json) (key : String) : Option String := (j.at? key).bind string?

/-- The text under the key, or the empty text. -/
def textAt (j : Json) (key : String) : String := (j.textAt? key).getD ""

/-- The truth value under the key. -/
def flagAt? (j : Json) (key : String) : Option Bool := (j.at? key).bind bool?

/-- The truth value under the key, or `false`. -/
def flagAt (j : Json) (key : String) : Bool := (j.flagAt? key).getD false

/-- The number of 64 bits without sign under the key. -/
def natAt? (j : Json) (key : String) : Option Nat := (j.at? key).bind nat64?

/-- The items of an array, or none. -/
def items (j : Json) : List Json := j.array?.getD []

/-- The items under the key. -/
def itemsAt (j : Json) (key : String) : List Json := (j.get key).items

/-- The texts of the items of an array. -/
def texts (j : Json) : List String := j.items.map text

/-- The texts of the items under the key. -/
def textsAt (j : Json) (key : String) : List String := (j.get key).texts

/-- The item at the position, or `null`. -/
def item (j : Json) (n : Nat) : Json := (j.items[n]?).getD .null

/-- The text of the item at the position. -/
def textItem (j : Json) (n : Nat) : String := (j.item n).text

/-- What a function writes, or `null`. -/
def ofOption {α : Type} (write : α → Json) (a? : Option α) : Json := (a?.map write).getD .null

/-- A list of strings. -/
def ofStrings (list : List String) : Json := .array (list.map .string)

/-- A list of written values. -/
def ofList {α : Type} (write : α → Json) (list : List α) : Json := .array (list.map write)

/-- A number without sign. -/
def ofNat (n : Nat) : Json := ofInt n

/-- A number of 32 bits. -/
def ofUInt32 (n : UInt32) : Json := ofInt n.toNat

/-- An object whose members are the entries of an association. -/
def ofAssoc {α : Type} (write : α → Json) (a : Assoc α) : Json :=
  .object (a.entries.map fun (key, value) => (key, write value))

end EntitySql.Json
