import EntitySql.Migration.Querier
/-!
# Transactions

Work that may be part of other work joins the transaction that is open, if there is one. Only the scope
that opened a transaction ends it.
-/

namespace EntitySql

/-- How work joins the transaction around it. -/
inductive Propagation
  /-- Joins the open transaction or opens one. -/
  | required
  /-- Joins the open transaction and never opens one. -/
  | supported
deriving DecidableEq, Repr

/-- A piece of work inside or outside of a transaction. -/
structure TransactionScope where
  /-- Whether the scope opened the transaction that it runs in. -/
  owned : Bool
deriving DecidableEq, Repr

namespace TransactionScope

variable {σ α : Type}

/-- Joins a transaction or opens one. -/
def enter (q : Querier σ) (propagation : Propagation) : Action σ TransactionScope := do
  let owned := propagation = .required && !q.isOpen (← get)
  if owned then q.beginTransaction
  return { owned }

/-- Commits the transaction, if the scope opened it. -/
def commit (scope : TransactionScope) (q : Querier σ) : Action σ Unit :=
  if scope.owned then q.commitTransaction else pure ()

/-- Takes the transaction back, if the scope opened it and it is still open. -/
def rollback (scope : TransactionScope) (q : Querier σ) : Action σ Unit := do
  if scope.owned && q.isOpen (← get) then q.rollbackTransaction

/-- Ends the scope: commits after success and takes back after failure. The error of the work counts before
that of taking back. -/
def finish (scope : TransactionScope) (q : Querier σ) (outcome : Except MigrationError α) :
    Action σ α :=
  match outcome with
  | .ok a => do
    scope.commit q
    return a
  | .error e => do
    let _ ← (scope.rollback q).attempt
    throw e

end TransactionScope

/-- Does the work inside a scope. -/
def Querier.transactional {σ α : Type} (q : Querier σ) (propagation : Propagation) (work : Action σ α) :
    Action σ α := do
  let scope ← TransactionScope.enter q propagation
  scope.finish q (← work.attempt)

end EntitySql
