import EntitySql.Query.Operator
import EntitySql.Value
/-!
# Filters

A filter maps field keys to conditions and connective keys to groups of filters. All its entries have to
hold. A condition is a bare value or a list of operators that all have to hold.
-/

namespace EntitySql

mutual

/-- A condition on one field. -/
inductive Condition
  /-- Equality with the value, or membership where it is a list. -/
  | value (v : Value)
  /-- Operator keys with their arguments. Keys are checked when the filter is compiled. -/
  | operators (entries : List (String × OperatorArgument))

/-- The argument of an operator. -/
inductive OperatorArgument
  | value (v : Value)
  /-- The condition that a negation denies. -/
  | condition (c : Condition)

end

/-- A full-text search. -/
structure TextSearch where
  /-- The keys of the fields that are searched. -/
  fields : List String
  /-- The terms. -/
  terms : String
deriving DecidableEq, Repr

mutual

/-- What a filter binds to a key. -/
inductive FilterEntry
  | field (condition : Condition)
  /-- The members of a connective. -/
  | group (items : List FilterItem)
  | search (request : TextSearch)
  /-- A subquery whose rows have to exist or not. -/
  | subquery (sql : RawSql)

/-- A member of a group. -/
inductive FilterItem
  | filter (entries : List (String × FilterEntry))
  | raw (sql : RawSql)

end

/-- Entries that all have to hold, in order and under distinct keys. -/
abbrev Filter := List (String × FilterEntry)

/-- The rows that a query is about. -/
inductive Criterion
  /-- The row with the given id. -/
  | id (value : Value)
  | filter (entries : Filter)

instance : Inhabited Condition := ⟨.value .null⟩

instance : Inhabited OperatorArgument := ⟨.value .null⟩

instance : Inhabited FilterEntry := ⟨.group []⟩

instance : Inhabited FilterItem := ⟨.filter []⟩

namespace Condition

/-- The operator that a bare value stands for. -/
def defaultOperator : Value → FieldOperator
  | .list _ => .oneOf
  | _ => .equal

/-- The condition as operator entries. -/
def toOperators : Condition → List (String × OperatorArgument)
  | .value v => [((defaultOperator v).key, .value v)]
  | .operators entries => entries

/-- The condition of one operator. -/
def ofOperator (operator : FieldOperator) (argument : OperatorArgument) : Condition :=
  .operators [(operator.key, argument)]

/-- The condition that holds where `c` does and the operator too. -/
def both (c : Condition) (operator : FieldOperator) (argument : OperatorArgument) : Condition :=
  .operators (c.toOperators ++ [(operator.key, argument)])

/-- The condition that holds where `c` does not. -/
def negate (c : Condition) : Condition := ofOperator .negation (.condition c)

end Condition

/-- The filter with the entry under the key. -/
def Filter.put (f : Filter) (key : String) (entry : FilterEntry) : Filter :=
  Entries.put key entry f

end EntitySql
