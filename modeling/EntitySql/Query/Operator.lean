import EntitySql.Query.Error
import EntitySql.Text.LetterCase
/-!
# Operators and directions

The operators that compare a field, the connectives that join filters, and the directions of an order,
each with the key under which it is written.
-/

namespace EntitySql

/-- Whether the key names something other than a field. -/
def isOperatorKey (key : String) : Bool := key.toList.head? == some '$'

/-- An operator that compares a field with an argument. -/
inductive FieldOperator
  | equal
  | notEqual
  | less
  | lessOrEqual
  | greater
  | greaterOrEqual
  | startsWith
  | startsWithAnyCase
  | endsWith
  | endsWithAnyCase
  | includes
  | includesAnyCase
  | like
  | likeAnyCase
  | oneOf
  | noneOf
  | regex
  | negation
deriving DecidableEq, Repr

namespace FieldOperator

/-- The key of an operator. -/
def key : FieldOperator → String
  | equal => "$eq"
  | notEqual => "$ne"
  | less => "$lt"
  | lessOrEqual => "$lte"
  | greater => "$gt"
  | greaterOrEqual => "$gte"
  | startsWith => "$startsWith"
  | startsWithAnyCase => "$istartsWith"
  | endsWith => "$endsWith"
  | endsWithAnyCase => "$iendsWith"
  | includes => "$includes"
  | includesAnyCase => "$iincludes"
  | like => "$like"
  | likeAnyCase => "$ilike"
  | oneOf => "$in"
  | noneOf => "$nin"
  | regex => "$regex"
  | negation => "$not"

/-- All operators. -/
def all : List FieldOperator :=
  [equal, notEqual, less, lessOrEqual, greater, greaterOrEqual, startsWith, startsWithAnyCase,
    endsWith, endsWithAnyCase, includes, includesAnyCase, like, likeAnyCase, oneOf, noneOf, regex,
    negation]

/-- The operator with the given key. -/
def ofKey (text : String) : Except QueryError FieldOperator :=
  match all.find? (·.key == text) with
  | some operator => .ok operator
  | none => .error (.unknownOperator text)

end FieldOperator

/-- A connective that joins the members of a group. -/
inductive Connective
  | all
  | any
  | notAll
  | notAny
deriving DecidableEq, Repr

namespace Connective

/-- The connective with the given key. -/
def ofKey? (text : String) : Option Connective :=
  match text with
  | "$and" => some all
  | "$or" => some any
  | "$not" => some notAll
  | "$nor" => some notAny
  | _ => none

/-- Whether the members are alternatives. -/
def isDisjunctive : Connective → Bool
  | all | notAll => false
  | any | notAny => true

/-- Whether the joined members are negated. -/
def isNegated : Connective → Bool
  | all | any => false
  | notAll | notAny => true

/-- The keyword between the members. -/
def joiner (c : Connective) : String := if c.isDisjunctive then " OR " else " AND "

end Connective

/-- A direction of an order. -/
inductive Direction
  | ascending
  | descending
deriving DecidableEq, Repr

namespace Direction

/-- What follows the column in `ORDER BY`. -/
def sqlSuffix : Direction → String
  | ascending => ""
  | descending => " DESC"

/-- The keyword of a direction. -/
def keyword : Direction → String
  | ascending => "ASC"
  | descending => "DESC"

/-- The direction written as `1` or `-1`. -/
def ofInt (n : Int) : Except QueryError Direction :=
  if n = 1 then .ok ascending
  else if n = -1 then .ok descending
  else .error (.invalidFilter "$sort" (.unknownDirectionNumber n))

/-- The direction written as a word or a number, in any case of letters. -/
def ofText (text : String) : Except QueryError Direction :=
  match Text.asciiLowered text with
  | "asc" | "1" => .ok ascending
  | "desc" | "-1" => .ok descending
  | _ => .error (.invalidFilter "$sort" (.unknownDirection text))

end Direction

end EntitySql
