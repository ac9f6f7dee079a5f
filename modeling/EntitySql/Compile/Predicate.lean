import EntitySql.Sql
/-!
# Predicates

The condition of a `WHERE`, `HAVING` or `ON` clause as the tokens of its Boolean structure: comparisons
that are taken as they are, `AND`, `OR`, `NOT` and parentheses. No tokens at all restrict nothing.
-/

namespace EntitySql

/-- A token of a Boolean SQL expression. -/
inductive Predicate.Token
  /-- An expression without Boolean structure of its own. -/
  | atom (sql : Sql)
  | conjunction
  | disjunction
  | negation
  | openParen
  | closeParen
deriving DecidableEq, Repr

/-- A Boolean SQL expression. -/
abbrev Predicate := List Predicate.Token

namespace Predicate

/-- The SQL text of a token. -/
def Token.toSql : Token → Sql
  | atom sql => sql
  | conjunction => [.word " AND "]
  | disjunction => [.word " OR "]
  | negation => [.word "NOT "]
  | openParen => [.word "("]
  | closeParen => [.word ")"]

/-- The SQL text of a predicate. -/
def toSql (p : Predicate) : Sql := p.flatMap Token.toSql

/-- A single comparison. -/
def ofAtom (sql : Sql) : Predicate := [.atom sql]

/-- The predicate between parentheses. -/
def parenthesized (p : Predicate) : Predicate := .openParen :: p ++ [.closeParen]

/-- The parts with `OR` or `AND` between them. -/
def join (disjunctive : Bool) (parts : List Predicate) : Predicate :=
  List.intercalate [if disjunctive then Token.disjunction else Token.conjunction] parts

/-- The parts as one predicate, in parentheses if they are several and `grouped` is set. -/
def joinGrouped (grouped disjunctive : Bool) (parts : List Predicate) : Predicate :=
  let joined := join disjunctive parts
  if grouped && 1 < parts.length then parenthesized joined else joined

/-- The denial of a predicate that is a single operand. -/
def negated (p : Predicate) : Predicate := .negation :: p

end Predicate

end EntitySql
