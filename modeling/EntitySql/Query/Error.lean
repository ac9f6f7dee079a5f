/-!
# Query errors

Why a query cannot be read or compiled.
-/

namespace EntitySql

/-- What is wrong with the part of a query that a key names. -/
inductive FilterFault
  | expectedObject
  | expectedCount
  | expectedArray
  | expectedStrings
  | unknownQueryKey
  | expectedIdOrObject
  | missingFields
  | missingValue
  | expectedRawText
  | expectedFieldNames
  | expectedFlagOrRelation
  | expectedArrayOrObject
  | unknownRelationQueryKey
  | expectedDirectionNumber
  | expectedDirection
  | unknownDirectionNumber (n : Int)
  | unknownDirection (text : String)
  | misplacedRaw
  | misplacedText
  | misplacedCondition
  | patternNeedsText
deriving DecidableEq, Repr

/-- The wording of a fault. -/
def FilterFault.message : FilterFault → String
  | .expectedObject => "expected an object"
  | .expectedCount => "expected a non-negative integer"
  | .expectedArray => "expected an array"
  | .expectedStrings => "expected strings"
  | .unknownQueryKey => "unknown query key"
  | .expectedIdOrObject => "expected an id or an object"
  | .missingFields => "missing $fields"
  | .missingValue => "missing $value"
  | .expectedRawText => "expected raw SQL text"
  | .expectedFieldNames => "expected field names"
  | .expectedFlagOrRelation => "expected a flag or a relation query"
  | .expectedArrayOrObject => "expected an array or an object"
  | .unknownRelationQueryKey => "unknown relation query key"
  | .expectedDirectionNumber => "expected 1 or -1"
  | .expectedDirection => "expected a sort direction"
  | .unknownDirectionNumber n => "unknown direction " ++ toString n
  | .unknownDirection text => "unknown direction '" ++ text ++ "'"
  | .misplacedRaw => "raw sub-queries are only allowed under $exists and $nexists"
  | .misplacedText => "text search is only allowed under $text"
  | .misplacedCondition => "nested conditions are only allowed under $not"
  | .patternNeedsText => "pattern operators need a text value"

/-- Why a query cannot be read or compiled. -/
inductive QueryError
  /-- A key that starts with `$` and is no operator. -/
  | unknownOperator (key : String)
  /-- A key with a value of the wrong shape. -/
  | invalidFilter (key : String) (fault : FilterFault)
  /-- A soft delete of an entity that has no field for it. -/
  | softDeleteNotEnabled (entity : String)
  | unknownEntity (name : String)
  | unknownRelation (entity relation : String)
  /-- A write that sets no column. -/
  | emptyPayload (entity : String)
deriving DecidableEq, Repr

/-- Fails because of what stands under the key. -/
def QueryError.fault {α : Type} (key : String) (f : FilterFault) : Except QueryError α :=
  .error (.invalidFilter key f)

/-- The word for the kind of an error. -/
def QueryError.kind : QueryError → String
  | .unknownOperator _ => "UnknownOperator"
  | .invalidFilter _ _ => "InvalidFilter"
  | .softDeleteNotEnabled _ => "SoftDeleteNotEnabled"
  | .unknownEntity _ => "UnknownEntity"
  | .unknownRelation _ _ => "UnknownRelation"
  | .emptyPayload _ => "EmptyPayload"

/-- The wording of an error. -/
def QueryError.message : QueryError → String
  | .unknownOperator key => "unknown operator: " ++ key
  | .invalidFilter key fault => "invalid filter for '" ++ key ++ "': " ++ fault.message
  | .softDeleteNotEnabled entity => "'" ++ entity ++ "' has not enabled 'softDelete'"
  | .unknownEntity name => "unknown entity: " ++ name
  | .unknownRelation entity relation =>
    "unknown relation '" ++ relation ++ "' on entity '" ++ entity ++ "'"
  | .emptyPayload entity => "nothing to persist for '" ++ entity ++ "'"

end EntitySql
