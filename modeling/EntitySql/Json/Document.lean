import EntitySql.Json.Token
/-!
# JSON documents

A document is JSON text as it was written: object members may repeat a key, and a string or a number may
have no value. Readers that demand more than the grammar (distinct members, values that exist, a limit
on nesting) decide part by part, so whatever they skip is held to the grammar alone.
-/

namespace EntitySql.Json

/-- A written JSON value. -/
inductive Document
  | null
  | bool (b : Bool)
  | number (value? : Option Number)
  | string (text? : Option String)
  | array (items : List Document)
  | object (members : List (Option String × Document))
deriving Repr, Inhabited

namespace Document

mutual

/-- Reads one value from the front of the tokens. The fuel bounds the tokens that the value takes
up. -/
def readValue : Nat → List Token → Option (Document × List Token)
  | 0, _ => none
  | fuel + 1, tokens =>
    match tokens with
    | .null :: rest => some (.null, rest)
    | .bool b :: rest => some (.bool b, rest)
    | .number value? :: rest => some (.number value?, rest)
    | .string text? :: rest => some (.string text?, rest)
    | .openArray :: .closeArray :: rest => some (.array [], rest)
    | .openArray :: rest =>
      (readItems fuel rest).map fun (items, tail) => (.array items, tail)
    | .openObject :: .closeObject :: rest => some (.object [], rest)
    | .openObject :: rest =>
      (readMembers fuel rest).map fun (members, tail) => (.object members, tail)
    | _ => none
termination_by structural fuel => fuel

/-- Reads the items of an array up to its closing bracket. -/
def readItems : Nat → List Token → Option (List Document × List Token)
  | 0, _ => none
  | fuel + 1, tokens =>
    match readValue fuel tokens with
    | some (item, .closeArray :: rest) => some ([item], rest)
    | some (item, .comma :: rest) =>
      (readItems fuel rest).map fun (items, tail) => (item :: items, tail)
    | _ => none
termination_by structural fuel => fuel

/-- Reads the members of an object up to its closing brace. -/
def readMembers : Nat → List Token → Option (List (Option String × Document) × List Token)
  | 0, _ => none
  | fuel + 1, tokens =>
    match tokens with
    | .string key :: .colon :: rest =>
      match readValue fuel rest with
      | some (value, .closeObject :: tail) => some ([(key, value)], tail)
      | some (value, .comma :: tail) =>
        (readMembers fuel tail).map fun (members, last) => ((key, value) :: members, last)
      | _ => none
    | _ => none
termination_by structural fuel => fuel

end

/-- The document that makes up the whole text. -/
def ofText? (text : String) : Option Document := do
  let tokens ← Token.ofText? text.toList
  match readValue (tokens.length + 1) tokens with
  | some (document, []) => some document
  | _ => none

mutual

/-- A value as it would be written. -/
def ofJson : Json → Document
  | .null => .null
  | .bool b => .bool b
  | .number n => .number (some n)
  | .string s => .string (some s)
  | .array items => .array (ofItems items)
  | .object members => .object (ofMembers members)
termination_by structural j => j

/-- The items of an array as they would be written. -/
def ofItems : List Json → List Document
  | [] => []
  | item :: rest => ofJson item :: ofItems rest
termination_by structural items => items

/-- The members of an object as they would be written. -/
def ofMembers : List (String × Json) → List (Option String × Document)
  | [] => []
  | (key, value) :: rest => (some key, ofJson value) :: ofMembers rest
termination_by structural members => members

end

mutual

/-- The value of a document whose arrays and objects stand at most `levels` deep and whose strings and
numbers all have values. A repeated key keeps its first place and its last value. -/
def toJson? (levels : Nat) : Document → Option Json
  | .null => some .null
  | .bool b => some (.bool b)
  | .number value? => value?.map .number
  | .string text? => text?.map .string
  | .array items =>
    if levels = 0 then none else (itemsToJson? (levels - 1) items).map .array
  | .object members =>
    if levels = 0 then none
    else (membersToJson? (levels - 1) members).map fun pairs => .object (Entries.ofPairs pairs)
termination_by structural document => document

/-- The values of the items of an array. -/
def itemsToJson? (levels : Nat) : List Document → Option (List Json)
  | [] => some []
  | item :: rest => do
    let j ← toJson? levels item
    let js ← itemsToJson? levels rest
    return j :: js
termination_by structural items => items

/-- The values of the members of an object. -/
def membersToJson? (levels : Nat) :
    List (Option String × Document) → Option (List (String × Json))
  | [] => some []
  | (key?, value) :: rest => do
    let key ← key?
    let j ← toJson? levels value
    let js ← membersToJson? levels rest
    return (key, j) :: js
termination_by structural members => members

end

/-- How deep arrays and objects may stand in a document that is read as one value. -/
def maxLevels : Nat := 127

end Document

/-- The value that a text stands for. -/
def ofText? (text : String) : Option Json :=
  (Document.ofText? text).bind (Document.toJson? Document.maxLevels)

end EntitySql.Json
