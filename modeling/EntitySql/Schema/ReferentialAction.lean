import EntitySql.Text.Blank
import EntitySql.Text.LetterCase
/-!
# Referential actions

What happens to a referencing row when the row it refers to is deleted or its key changes.
-/

namespace EntitySql

/-- What a foreign key does about a change of the referenced row. -/
inductive ReferentialAction
  | noAction
  | restrict
  | cascade
  | setNull
  | setDefault
deriving DecidableEq, Repr

namespace ReferentialAction

/-- All actions. -/
def all : List ReferentialAction := [noAction, restrict, cascade, setNull, setDefault]

/-- The keywords of an action. -/
def keyword : ReferentialAction → String
  | noAction => "NO ACTION"
  | restrict => "RESTRICT"
  | cascade => "CASCADE"
  | setNull => "SET NULL"
  | setDefault => "SET DEFAULT"

/-- The action that a text names, in any case of letters, with blanks around it and with underscores
for the blanks between words. The empty text names no action. -/
def ofText? (text : String) : Option ReferentialAction :=
  let cleaned := (Text.trim text.toList).map fun c => if c = '_' then ' ' else c.toUpper
  if cleaned.isEmpty then some noAction
  else all.find? fun action => action.keyword.toList == cleaned

end ReferentialAction

end EntitySql
