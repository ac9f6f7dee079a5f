import EntitySql.Migration.Transaction
/-!
# Migrations

A migration is a named pair of actions that change a database and change it back.
-/

namespace EntitySql

/-- Whether a migration is applied or taken back. -/
inductive MigrationDirection
  | up
  | down
deriving DecidableEq, Repr

/-- The word for a direction. -/
def MigrationDirection.word : MigrationDirection → String
  | up => "up"
  | down => "down"

/-- A named change of a database. -/
structure Migration (σ : Type) where
  name : String
  /-- Applies the change. -/
  up : Querier σ → Action σ Unit
  /-- Takes the change back. -/
  down : Querier σ → Action σ Unit

namespace Migration

variable {σ : Type}

/-- The migration that runs fixed statements in order. -/
def ofStatements (name : String) (up down : List String) : Migration σ :=
  { name, up := fun q => q.runAll up, down := fun q => q.runAll down }

/-- Runs one of the two actions. -/
def run (m : Migration σ) : MigrationDirection → Querier σ → Action σ Unit
  | .up => m.up
  | .down => m.down

/-- Searches the `size` migrations from the place `low` on for the first one whose name is greater, by halving
that part until one migration is left. The migrations are in ascending order of names. -/
def searchByName (name : String) (migrations : List (Migration σ)) (low size : Nat) : Nat :=
  if 1 < size then
    let middle := low + size / 2
    if migrations[middle]?.any fun m => m.name ≤ name then
      searchByName name migrations middle (size - size / 2)
    else searchByName name migrations low (size - size / 2)
  else if migrations[low]?.any fun m => m.name ≤ name then low + 1
  else low
termination_by size

/-- Enters a migration behind all those whose names are not greater. The migrations are in ascending order of
names. -/
def insertByName (m : Migration σ) (migrations : List (Migration σ)) : List (Migration σ) :=
  let place := searchByName m.name migrations 0 migrations.length
  migrations.take place ++ m :: migrations.drop place

/-- The migrations in ascending order of names. Equal names keep their order. -/
def sorted (migrations : List (Migration σ)) : List (Migration σ) :=
  migrations.foldl (fun done m => insertByName m done) []

end Migration

/-- The outcome of one step. -/
structure MigrationStep where
  /-- The name of the migration. -/
  name : String
  direction : MigrationDirection
  /-- Why the step failed, if it did. -/
  error? : Option MigrationError
deriving DecidableEq, Repr

/-- Whether the step was committed. -/
def MigrationStep.success (s : MigrationStep) : Bool := s.error?.isNone

/-- How far a call goes. Without a bound all candidates run. -/
structure MigrationBounds where
  /-- The last migration that runs. -/
  last? : Option String := none
  /-- The greatest number of migrations that run. -/
  count? : Option Nat := none
deriving DecidableEq, Repr

/-- The candidates that are within the bounds. The last one has to be a candidate. -/
def MigrationBounds.select {σ : Type} (b : MigrationBounds) (candidates : List (Migration σ)) :
    Except MigrationError (List (Migration σ)) := do
  let upTo ←
    match b.last? with
    | none => .ok candidates
    | some name =>
      match candidates.findIdx? (·.name == name) with
      | some position => .ok (candidates.take (position + 1))
      | none => .error (.notFound name)
  return match b.count? with
    | some count => upTo.take count
    | none => upTo

end EntitySql
