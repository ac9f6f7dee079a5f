/-!
# Index methods
-/

namespace EntitySql

/-- The data structure behind an index. -/
inductive IndexMethod
  /-- A balanced tree, the usual choice. -/
  | btree
  | hash
  | gin
  | gist
  /-- An index of the words of a text. -/
  | fulltext
deriving DecidableEq, Repr

namespace IndexMethod

/-- All methods. -/
def all : List IndexMethod := [btree, hash, gin, gist, fulltext]

/-- The name of a method in lower case. -/
def name : IndexMethod → String
  | btree => "btree"
  | hash => "hash"
  | gin => "gin"
  | gist => "gist"
  | fulltext => "fulltext"

/-- The keyword of a method. -/
def keyword : IndexMethod → String
  | btree => "BTREE"
  | hash => "HASH"
  | gin => "GIN"
  | gist => "GIST"
  | fulltext => "FULLTEXT"

end IndexMethod

end EntitySql
