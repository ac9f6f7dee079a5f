import EntitySql.Compile.Predicate
import EntitySql.Compile.Value
/-!
# Filters in SQL

A filter becomes a predicate. The entries of a filter and the operators of a condition are joined by
`AND`, the members of a group by their connective. Parts that come out empty are left out, and
parentheses are set where a part of several predicates stands beside others or under `NOT`.

A stored field that marks deleted rows guards the filter: unless it is a key of the filter itself or the
guard is switched off, the predicate demands that it is null.
-/

namespace EntitySql

/-- The keyword in front of a predicate. -/
inductive Clause
  | where
  | having
  /-- No keyword, as in a join condition. -/
  | bare
deriving DecidableEq, Repr

/-- How a filter is compiled. -/
structure FilterOptions where
  /-- The table name or alias that qualifies columns. -/
  qualifier? : Option String := none
  /-- Whether the predicate has to be a single operand. -/
  grouped : Bool := false
  clause : Clause := .where
  /-- `some false` switches the guard against deleted rows off. -/
  softDelete? : Option Bool := none

namespace Compiler

open QueryError (fault)

/-- The text of a pattern, for values that have one. -/
def patternOf (key : String) (v : Value) : Except QueryError String :=
  match v.patternText? with
  | some text => .ok text
  | none => fault key .patternNeedsText

/-- The comparison of a column by an operator other than negation. -/
def comparison (c : Compiler) (m : Member) (key : String) (qualifier? : Option String)
    (operator : FieldOperator) (v : Value) : Except QueryError Predicate := do
  let column ← c.columnReference m key qualifier?
  let compared (sign : String) : Except QueryError Predicate := do
    return .ofAtom (column ++ .word sign :: (← c.value m qualifier? v))
  let pattern (before after : String) : Except QueryError String := do
    return before ++ (← patternOf key v) ++ after
  let like (before after : String) : Except QueryError Predicate := do
    return .ofAtom (column ++ [.word " LIKE ", .literal (← pattern before after)])
  let likeAnyCase (before after : String) : Except QueryError Predicate := do
    return .ofAtom (c.dialect.likeAnyCase column (← pattern before after))
  let listed (sign empty : String) : Except QueryError Predicate := do
    let items :=
      match v with
      | .list items => items
      | single => [single]
    if items.isEmpty then return .ofAtom [.word empty]
    else
      let sqls ← c.values m qualifier? items
      return .ofAtom (column ++ .word sign :: Sql.commaList sqls ++ [.word ")"])
  match operator with
  | .equal => if v.isNull then return .ofAtom (column ++ [.word " IS NULL"]) else compared " = "
  | .notEqual =>
    if v.isNull then return .ofAtom (column ++ [.word " IS NOT NULL"]) else compared " <> "
  | .less => compared " < "
  | .lessOrEqual => compared " <= "
  | .greater => compared " > "
  | .greaterOrEqual => compared " >= "
  | .startsWith => like "" "%"
  | .endsWith => like "%" ""
  | .includes => like "%" "%"
  | .like => like "" ""
  | .startsWithAnyCase => likeAnyCase "" "%"
  | .endsWithAnyCase => likeAnyCase "%" ""
  | .includesAnyCase => likeAnyCase "%" "%"
  | .likeAnyCase => likeAnyCase "" ""
  | .oneOf => listed " IN (" "1 = 0"
  | .noneOf => listed " NOT IN (" "1 = 1"
  | .regex =>
    return .ofAtom
      (column ++ [.word (" " ++ c.dialect.regexOperator ++ " "), .literal (← pattern "" "")])
  | .negation => fault key .misplacedCondition

mutual

/-- A condition on a field. Several operators stand in parentheses. -/
def condition (c : Compiler) (m : Member) (key : String) (qualifier? : Option String) :
    Condition → Except QueryError Predicate
  | .value v => c.comparison m key qualifier? (Condition.defaultOperator v) v
  | .operators entries => return .joinGrouped true false (← operators c m key qualifier? entries)
termination_by structural condition => condition

/-- The predicates of operators, in order. -/
def operators (c : Compiler) (m : Member) (key : String) (qualifier? : Option String) :
    List (String × OperatorArgument) → Except QueryError (List Predicate)
  | [] => return []
  | (name, argument) :: rest => do
    let first ← operator c m key qualifier? name argument
    let others ← operators c m key qualifier? rest
    return first :: others
termination_by structural entries => entries

/-- The predicate of one operator. Only a negation takes a condition. -/
def operator (c : Compiler) (m : Member) (key : String) (qualifier? : Option String)
    (name : String) : OperatorArgument → Except QueryError Predicate
  | .value v => do
    match ← FieldOperator.ofKey name with
    | .negation =>
      let inner ← c.comparison m key qualifier? (Condition.defaultOperator v) v
      return Predicate.negated (Predicate.parenthesized inner)
    | plain => c.comparison m key qualifier? plain v
  | .condition inner => do
    match ← FieldOperator.ofKey name with
    | .negation =>
      let denied ← condition c m key qualifier? inner
      return Predicate.negated (Predicate.parenthesized denied)
    | _ => fault key .misplacedCondition
termination_by structural argument => argument

end

/-- The members of a group as one predicate. `grouped` says that it has to be a single operand. -/
def groupPredicate (connective : Connective) (grouped : Bool) (parts : List Predicate) : Predicate :=
  if parts.isEmpty then []
  else
    let joined :=
      Predicate.joinGrouped (grouped || connective.isNegated) connective.isDisjunctive parts
    if connective.isNegated then Predicate.negated joined else joined

/-- The text of a raw fragment as a predicate; an empty one restricts nothing. -/
def rawPredicate (c : Compiler) (m : Member) (qualifier? : Option String) (sql : RawSql) :
    Except QueryError Predicate := do
  let text ← c.rawText m.registry sql (qualifier?.getD "")
  return if text.isEmpty then [] else .ofAtom [.raw text]

mutual

/-- The predicates of the entries of a filter, without the empty ones. `grouped` says that each of them
has to be a single operand. -/
def entries (c : Compiler) (m : Member) (qualifier? : Option String) (grouped : Bool) :
    List (String × FilterEntry) → Except QueryError (List Predicate)
  | [] => return []
  | (key, value) :: rest => do
    let first ← entry c m qualifier? grouped key value
    let others ← entries c m qualifier? grouped rest
    return if first.isEmpty then others else first :: others
termination_by structural list => list

/-- The predicate of one entry of a filter. -/
def entry (c : Compiler) (m : Member) (qualifier? : Option String) (grouped : Bool)
    (key : String) : FilterEntry → Except QueryError Predicate
  | .subquery sql =>
    if key = "$exists" then do
      return .ofAtom (.word "EXISTS (" :: (← c.raw m sql qualifier?) ++ [.word ")"])
    else if key = "$nexists" then do
      return .ofAtom (.word "NOT EXISTS (" :: (← c.raw m sql qualifier?) ++ [.word ")"])
    else fault key .misplacedRaw
  | .search request =>
    if key = "$text" then return .ofAtom (c.textSearch m request qualifier?)
    else fault key .misplacedText
  | .group items =>
    match Connective.ofKey? key with
    | none => .error (.unknownOperator key)
    | some connective => do
      let each := 1 < items.length || connective.isNegated || grouped
      return groupPredicate connective grouped (← groupItems c m qualifier? each items)
  | .field condition =>
    if isOperatorKey key then .error (.unknownOperator key)
    else c.condition m key qualifier? condition
termination_by structural value => value

/-- The predicates of the members of a group, without the empty ones. -/
def groupItems (c : Compiler) (m : Member) (qualifier? : Option String) (grouped : Bool) :
    List FilterItem → Except QueryError (List Predicate)
  | [] => return []
  | item :: rest => do
    let first ← groupItem c m qualifier? grouped item
    let others ← groupItems c m qualifier? grouped rest
    return if first.isEmpty then others else first :: others
termination_by structural list => list

/-- The predicate of a member of a group. -/
def groupItem (c : Compiler) (m : Member) (qualifier? : Option String) (grouped : Bool) :
    FilterItem → Except QueryError Predicate
  | .raw sql => c.rawPredicate m qualifier? sql
  | .filter list => do
    let parts ← entries c m qualifier? (1 < list.length || grouped) list
    return .joinGrouped grouped false parts
termination_by structural item => item

end

/-- The entry that guards a filter against deleted rows, unless the filter speaks of them itself. -/
def softDeleteGuard (m : Member) (filter? : Option Filter) (options : FilterOptions) : Filter :=
  match m.entity.softDelete? with
  | none => []
  | some key =>
    if options.clause = .having || options.softDelete? = some false
        || filter?.any (Entries.has key) then []
    else [(key, .field (.value .null))]

/-- The predicate of a filter with its guard. -/
def filterPredicate (c : Compiler) (m : Member) (filter? : Option Filter) (options : FilterOptions) :
    Except QueryError Predicate := do
  let list := filter?.getD [] ++ softDeleteGuard m filter? options
  let parts ← c.entries m options.qualifier? (1 < list.length || options.grouped) list
  return .joinGrouped options.grouped false parts

/-- A predicate behind its keyword; nothing where it restricts nothing. -/
def clauseOf (clause : Clause) (p : Predicate) : Sql :=
  if p.isEmpty then []
  else
    match clause with
    | .where => .word " WHERE " :: p.toSql
    | .having => .word " HAVING " :: p.toSql
    | .bare => p.toSql

/-- The clause of a filter. -/
def filterClause (c : Compiler) (m : Member) (filter? : Option Filter) (options : FilterOptions) :
    Except QueryError Sql := do
  return clauseOf options.clause (← c.filterPredicate m filter? options)

/-- The filter of a criterion. An id is a condition on the id field. -/
def filterOf (m : Member) : Criterion → Filter
  | .id v => [(m.entity.id, .field (.value v))]
  | .filter list => list

/-- The clause of the rows that a query is about. -/
def criterionClause (c : Compiler) (m : Member) (criterion? : Option Criterion)
    (options : FilterOptions) : Except QueryError Sql :=
  c.filterClause m (criterion?.map (filterOf m)) options

end Compiler

end EntitySql
