import EntitySql.Migration.History
import EntitySql.Text.Numeral
import EntitySql.Text.Substring
/-!
# Recorded sessions

A database that only writes down what it is told, answers queries from a list and fails where it is told to.
It shows the sequence of statements that an operation leads to without any database. Times are masked, so
that two records of one session are equal.
-/

namespace EntitySql

/-- What a recorded session answers. -/
structure SessionScript where
  kind : QuerierKind := .sql .sqlite
  /-- The rows of queries. A query that is not listed has none. -/
  rows : List (String × List Row) := []
  /-- A statement fails if it holds one of these texts. -/
  failOn : List String := []
  /-- Whether commands of a document store are understood. -/
  commands : Bool := true

/-- The state of a recorded session. -/
structure Recording where
  /-- Whether a transaction is open. -/
  isOpen : Bool := false
  /-- What was told, last first. -/
  told : List String := []
  /-- The migrations that a history in memory holds. -/
  applied : List String := []
deriving DecidableEq, Repr

namespace Recording

/-- What a quoted time looks like, with a zero for every digit. -/
def timeShape : List Char := "'0000-00-00 00:00:00'".toList

/-- Whether the characters start with a quoted time. -/
def startsWithTime : List Char → List Char → Bool
  | [], _ => true
  | _ :: _, [] => false
  | shape :: shapes, c :: rest =>
    (if shape = '0' then Text.isDigit c else c = shape) && startsWithTime shapes rest

/-- The characters with a mark in the place of every quoted time, where `skip` characters still belong to
the last one. -/
def maskFrom (skip : Nat) : List Char → List Char
  | [] => []
  | c :: rest =>
    match skip with
    | k + 1 => maskFrom k rest
    | 0 =>
      if startsWithTime timeShape (c :: rest) then
        "'<NOW>'".toList ++ maskFrom (timeShape.length - 1) rest
      else c :: maskFrom 0 rest

/-- The text with a mark in the place of every quoted time. -/
def mask (text : String) : String := String.ofList (maskFrom 0 text.toList)

/-- Whether a text stands somewhere in another one. -/
def holds (text part : String) : Bool := Text.occursIn part.toList text.toList

variable (script : SessionScript)

/-- Writes down what is told, and fails if it has to. -/
def record (entry : String) : Action Recording Unit := do
  modify fun s => { s with told := mask entry :: s.told }
  if script.failOn.any (holds entry) then
    throw (.database ("encountered unexpected or invalid data: cannot run " ++ mask entry))

/-- Ends the open transaction. A failure leaves it open. -/
def endTransaction (entry : String) : Action Recording Unit := do
  if !(← get).isOpen then throw .noActiveTransaction
  record script entry
  modify fun s => { s with isOpen := false }

/-- The querier of a recorded session. -/
def querier : Querier Recording where
  kind := script.kind
  isOpen s := s.isOpen
  all sql := do
    record script sql
    return (script.rows.lookup sql).getD []
  run := record script
  beginTransaction := do
    if (← get).isOpen then throw .pendingTransaction
    record script "BEGIN"
    modify fun s => { s with isOpen := true }
  commitTransaction := endTransaction script "COMMIT"
  rollbackTransaction := endTransaction script "ROLLBACK"
  release := do
    if (← get).isOpen then throw .pendingTransaction
    record script "RELEASE"
  discard := do
    modify fun s => { s with isOpen := false }
    record script "DISCARD"
  runCommand c :=
    if script.commands then record script c.toStatement else throw (.unsupportedCommand c.action)

/-- A history in memory, which no transaction takes back. -/
def history (tables : List String) : MigrationHistory Recording where
  ensure _ := pure ()
  executed _ := do return (← get).applied.mergeSort fun a b => a ≤ b
  add _ name := modify fun s => { s with applied := s.applied ++ [name] }
  remove _ name := modify fun s => { s with applied := s.applied.filter (· != name) }
  tables := tables

/-- Takes a new connection, on which no transaction is open. -/
def acquire : Action Recording Unit := modify fun s => { s with isOpen := false }

end Recording

end EntitySql
