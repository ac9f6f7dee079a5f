/-!
# Parts of a text

Whether some characters stand next to each other somewhere in others.
-/

namespace EntitySql.Text

/-- Whether the word stands somewhere in the characters. -/
def occursIn (word : List Char) : List Char → Bool
  | [] => word.isEmpty
  | c :: rest => word.isPrefixOf (c :: rest) || occursIn word rest

end EntitySql.Text
