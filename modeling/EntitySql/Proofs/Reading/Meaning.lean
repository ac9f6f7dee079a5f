import EntitySql.Proofs.Reading.Formula
import EntitySql.Query.Filter
/-!
# What a filter means

The truth of a filter by its own structure, where the truth of its comparisons and text searches is
given: entries and operators all have to hold, connectives join or deny their members, and a part
that says nothing is passed over. Nothing here knows how a filter is written in SQL.
-/

namespace EntitySql

/-- A part of a filter without Boolean structure. -/
inductive Leaf
  | comparison (key : String) (operator : FieldOperator) (v : Value)
  | search (request : TextSearch)

/-- What a connective makes of its members; nothing of none. -/
def Connective.truth? : Connective → List Truth → Option Truth
  | _, [] => none
  | .all, ts => some (Truth.all ts)
  | .any, ts => some (Truth.any ts)
  | .notAll, ts => some (Truth.all ts).not
  | .notAny, ts => some (Truth.any ts).not

variable (leaf : Leaf → Truth)

mutual

/-- The truth of a condition on a field. -/
def Condition.truth (key : String) : Condition → Truth
  | .value v => leaf (.comparison key (Condition.defaultOperator v) v)
  | .operators entries => Truth.all (OperatorArgument.truths key entries)
termination_by structural condition => condition

/-- The truth of an operator. A key that names none says nothing that could be known. -/
def OperatorArgument.truth (key name : String) : OperatorArgument → Truth
  | .value v =>
    match FieldOperator.ofKey name with
    | .ok .negation => (leaf (.comparison key (Condition.defaultOperator v) v)).not
    | .ok operator => leaf (.comparison key operator v)
    | .error _ => .unknown
  | .condition inner => (Condition.truth key inner).not
termination_by structural argument => argument

/-- The truths of operators, in order. -/
def OperatorArgument.truths (key : String) : List (String × OperatorArgument) → List Truth
  | [] => []
  | (name, argument) :: rest =>
    OperatorArgument.truth key name argument :: OperatorArgument.truths key rest
termination_by structural entries => entries

end

mutual

/-- The truth of an entry, if it says anything. -/
def FilterEntry.truth? (key : String) : FilterEntry → Option Truth
  | .field condition => some (condition.truth leaf key)
  | .group items => (Connective.ofKey? key).bind (·.truth? (FilterItem.truths items))
  | .search request => some (leaf (.search request))
  | .subquery _ => none
termination_by structural entry => entry

/-- The truth of a member of a group, if it says anything. -/
def FilterItem.truth? : FilterItem → Option Truth
  | .filter entries => Connective.all.truth? (FilterEntry.truths entries)
  | .raw _ => none
termination_by structural item => item

/-- The truths of the members of a group that say anything. -/
def FilterItem.truths : List FilterItem → List Truth
  | [] => []
  | item :: rest => (FilterItem.truth? item).toList ++ FilterItem.truths rest
termination_by structural items => items

/-- The truths of the entries that say anything. -/
def FilterEntry.truths : List (String × FilterEntry) → List Truth
  | [] => []
  | (key, entry) :: rest => (FilterEntry.truth? key entry).toList ++ FilterEntry.truths rest
termination_by structural entries => entries

end

/-- The truth of a filter, if it says anything: all its entries have to hold. -/
def Filter.truth? (filter : Filter) : Option Truth :=
  Connective.all.truth? (FilterEntry.truths leaf filter)

/-! ## Conditions of a filter -/

mutual

/-- Whether no list of operators is empty. -/
def Condition.HasOperators : Condition → Prop
  | .value _ => True
  | .operators entries => entries ≠ [] ∧ OperatorArgument.HaveOperators entries
termination_by structural condition => condition

/-- Whether no list of operators in the argument is empty. -/
def OperatorArgument.HasOperators : OperatorArgument → Prop
  | .value _ => True
  | .condition inner => Condition.HasOperators inner
termination_by structural argument => argument

/-- Whether no list of operators in the arguments is empty. -/
def OperatorArgument.HaveOperators : List (String × OperatorArgument) → Prop
  | [] => True
  | (_, argument) :: rest =>
    OperatorArgument.HasOperators argument ∧ OperatorArgument.HaveOperators rest
termination_by structural entries => entries

end

variable (P : String → Condition → Prop)

mutual

/-- Whether all conditions in the entry have the property. -/
def FilterEntry.AllConditions (key : String) : FilterEntry → Prop
  | .field condition => P key condition
  | .group items => FilterItem.AllConditionsOfItems items
  | .search _ | .subquery _ => True
termination_by structural entry => entry

/-- Whether all conditions in the member of a group have the property. -/
def FilterItem.AllConditions : FilterItem → Prop
  | .filter entries => FilterEntry.AllConditionsOfEntries entries
  | .raw _ => True
termination_by structural item => item

/-- Whether all conditions in the members of a group have the property. -/
def FilterItem.AllConditionsOfItems : List FilterItem → Prop
  | [] => True
  | item :: rest => FilterItem.AllConditions item ∧ FilterItem.AllConditionsOfItems rest
termination_by structural items => items

/-- Whether all conditions in the entries have the property. -/
def FilterEntry.AllConditionsOfEntries : List (String × FilterEntry) → Prop
  | [] => True
  | (key, entry) :: rest =>
    FilterEntry.AllConditions key entry ∧ FilterEntry.AllConditionsOfEntries rest
termination_by structural entries => entries

end

/-- Whether all conditions in the filter have the property. -/
def Filter.AllConditions (filter : Filter) : Prop := FilterEntry.AllConditionsOfEntries P filter

end EntitySql
