import EntitySql.Compile.Projection
/-!
# Follow-up queries

The query that loads a deferred relation for the parents that were read. One-to-many relations are read
from the related entity by its foreign key, many-to-many relations from the junction by the column that
points back at the owner.
-/

namespace EntitySql

namespace DeferredRelation

/-- The relation under its owner. -/
def resolve (d : DeferredRelation) (registry : Registry) : Except QueryError (Member × Relation) := do
  let owner ← registry.member d.owner
  let relation ← owner.relation d.relation
  return (owner, relation)

/-- The projection of a follow-up query, which holds the key that tells the parents apart. Through a
junction everything is read. -/
def followUpProjection? (relation : Relation) (key : String) :
    Option Projection → Option Projection
  | some (.items list) =>
    if relation.through?.isSome then none
    else if list.contains (.field key) then some (.items list)
    else some (.items (list ++ [.field key]))
  | some (.map entries) =>
    if relation.through?.isSome then none
    else if entries.any fun (_, entry) => entry.isIncluded then
      some (.map (Entries.put key (.flag true) entries))
    else some (.map entries)
  | none => none

/-- The entity to query and the query that loads the relation for the given parents. -/
def followUp (d : DeferredRelation) (registry : Registry) (parents : List Value) :
    Except QueryError (String × Query) := do
  let (_, relation) ← d.resolve registry
  match relation.keyPairs with
  | [] => .error (.unknownRelation d.owner d.relation)
  | pair :: _ =>
    let (target, key) :=
      match relation.through? with
      | some junction => (junction, pair.near)
      | none => (relation.entity, pair.far)
    let condition := Condition.ofOperator .oneOf (.value (.list parents))
    return (target,
      { projection? := followUpProjection? relation key d.query.projection?
        criterion? := some (.filter
          (Entries.put key (.field condition) (d.query.filter?.getD [])))
        order? := d.query.order?
        limit? := d.query.limit?
        skip? := d.query.skip? })

/-- The key of the parents whose values the follow-up query needs. -/
def parentKey (d : DeferredRelation) (registry : Registry) : Except QueryError String := do
  let (owner, relation) ← d.resolve registry
  match relation.keyPairs with
  | [] => return owner.entity.id
  | pair :: _ => return if relation.through?.isSome then pair.far else pair.near

end DeferredRelation

end EntitySql
