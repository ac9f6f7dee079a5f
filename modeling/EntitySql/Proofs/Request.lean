import EntitySql.Compile.Find
import EntitySql.Compile.Write
import EntitySql.Proofs.Ensures
/-!
# Requests

The statements of an entity as the answers to requests. `Request.rows?` tells which rows a request
is about, and the clause that selects them stands in its statement.
-/

namespace EntitySql

/-- A request for a statement on an entity. -/
inductive Request
  | find (query : Query) (options : FindOptions)
  | count (query : Query) (options : FindOptions)
  | insert (records : List Record)
  | upsert (conflictKeys : List String) (record : Record)
  | update (criterion? : Option Criterion) (record : Record) (softDelete? : Option Bool)
  | delete (criterion? : Option Criterion) (softDelete? : Option Bool)

/-- The criterion of a request and how its clause is compiled, for requests that are about rows
which are there. Where deleted rows are not marked but removed, no guard is wanted. -/
def Request.rows? (m : Member) : Request → Option (Option Criterion × FilterOptions)
  | .find query options =>
    some (query.criterion?,
      { qualifier? := Compiler.rootQualifier? m query.projection? options
        softDelete? := options.softDelete? })
  | .count query options =>
    some (query.criterion?,
      { qualifier? := Compiler.rootQualifier? m (some Compiler.countProjection) options
        softDelete? := options.softDelete? })
  | .update criterion? _ softDelete? => some (criterion?, { softDelete? })
  | .delete criterion? softDelete? =>
    some (criterion?,
      { softDelete? := if m.entity.softDelete?.isSome then softDelete? else some false })
  | .insert _ | .upsert _ _ => none

/-- The clause of the rows is a `WHERE` clause. -/
theorem Request.rows?_where {m : Member} {r : Request} {criterion? : Option Criterion}
    {options : FilterOptions} (h : r.rows? m = some (criterion?, options)) :
    options.clause = .where ∧ options.grouped = false := by
  cases r with
  | insert _ | upsert _ _ => cases h
  | find _ _ | count _ _ | update _ _ _ | delete _ _ =>
    obtain ⟨rfl, rfl⟩ := Prod.mk.inj (Option.some.inj h)
    exact ⟨rfl, rfl⟩

namespace Compiler

/-- The statement that a request compiles to. -/
def statement (c : Compiler) (m : Member) : Request → Except QueryError Sql
  | .find query options => c.find m query options
  | .count query options => c.count m query options
  | .insert records => c.insert m records
  | .upsert conflictKeys record => c.upsert m conflictKeys record
  | .update criterion? record softDelete? => c.update m criterion? record softDelete?
  | .delete criterion? softDelete? => c.delete m criterion? softDelete?

/-- A statement with the clause in it. -/
def Contains (clause : Except QueryError Sql) (sql : Sql) : Prop :=
  ∃ before rows after, clause = .ok rows ∧ sql = before ++ rows ++ after

variable (c : Compiler) (m : Member)

theorem contains_find (query : Query) (options : FindOptions) :
    Ensures (Contains (c.criterionClause m query.criterion?
        { qualifier? := rootQualifier? m query.projection? options
          softDelete? := options.softDelete? }))
      (c.find m query options) := by
  apply Ensures.bind_any
  intro selection
  unfold criteria
  rw [bind_assoc]
  apply Ensures.bind_ok
  intro rows hrows
  simp only [bind_assoc, pure_bind]
  refine .bind_any fun group => .bind_any fun having => .bind_any fun order => .pure ?_
  exact ⟨selection, rows,
    group ++ having ++ order ++ c.dialect.page query.limit? query.skip?, hrows, by simp⟩

theorem contains_updateRows (criterion? : Option Criterion) (record : Record)
    (softDelete? : Option Bool) :
    Ensures (Contains (c.criterionClause m criterion? { softDelete? }))
      (c.updateRows m criterion? record softDelete?) := by
  apply Ensures.bind_any
  intro sets
  split
  · exact .error _
  · exact .bind_ok fun rows hrows => .pure ⟨_, rows, [], hrows, (List.append_nil _).symm⟩

theorem contains_removeRows (criterion? : Option Criterion) :
    Ensures (Contains (c.criterionClause m criterion? { softDelete? := some false }))
      (c.removeRows m criterion?) :=
  .bind_ok fun rows hrows => .pure ⟨_, rows, [], hrows, (List.append_nil _).symm⟩

/-- The clause of the rows that a request is about stands in its statement. -/
theorem contains_rows {r : Request} {criterion? : Option Criterion} {options : FilterOptions}
    (h : r.rows? m = some (criterion?, options)) :
    Ensures (Contains (c.criterionClause m criterion? options)) (c.statement m r) := by
  cases r with
  | find query options' =>
    obtain ⟨rfl, rfl⟩ := Prod.mk.inj (Option.some.inj h)
    exact c.contains_find m query options'
  | count query options' =>
    obtain ⟨rfl, rfl⟩ := Prod.mk.inj (Option.some.inj h)
    exact c.contains_find m _ options'
  | insert _ => cases h
  | upsert _ _ => cases h
  | update rows? record softDelete? =>
    obtain ⟨rfl, rfl⟩ := Prod.mk.inj (Option.some.inj h)
    exact c.contains_updateRows m rows? _ softDelete?
  | delete rows? softDelete? =>
    obtain ⟨rfl, rfl⟩ := Prod.mk.inj (Option.some.inj h)
    unfold statement delete
    cases hkey : m.entity.softDelete? with
    | none =>
      cases softDelete? with
      | none => exact c.contains_removeRows m rows?
      | some wanted => cases wanted <;> first | exact .error _ | exact c.contains_removeRows m rows?
    | some key =>
      cases softDelete? with
      | none => exact c.contains_updateRows m rows? _ none
      | some wanted =>
        cases wanted with
        | true => exact c.contains_updateRows m rows? _ (some true)
        | false => exact c.contains_removeRows m rows?

end Compiler

end EntitySql
