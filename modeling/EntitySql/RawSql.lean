/-!
# Raw SQL

A fragment that the caller writes. It is either SQL text that goes into the statement as it stands, or
the name of a fragment that is computed when the statement is compiled (`Registry.Expander`). The
optional alias names the fragment where it is projected.
-/

namespace EntitySql

/-- Where the text of a raw fragment comes from. -/
inductive RawSql.Body
  /-- The text itself. -/
  | literal (sql : String)
  /-- The name of a computed fragment. -/
  | computed (name : String)
deriving DecidableEq, Repr, Inhabited

/-- A raw SQL expression with an optional output alias. -/
structure RawSql where
  /-- The source of the text. -/
  body : RawSql.Body
  /-- The output name of a projected expression. -/
  alias? : Option String := none
deriving DecidableEq, Repr, Inhabited

/-- SQL text that goes into the statement as it stands. -/
def RawSql.literal (sql : String) : RawSql := { body := .literal sql }

end EntitySql
