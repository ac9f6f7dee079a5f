import EntitySql.Proofs.Migration.Order
import EntitySql.Proofs.Migration.Store
/-!
# Steps of migrations

A call of a migrator over an abstract database makes its steps one after the other, each in a
transaction of its own. A step lasts with its entry in the history, or the removal of that entry, or
it does not last at all, and it is reported as successful if it lasts.
-/

namespace EntitySql

/-- A migration that consists of statements. -/
structure MigrationScript where
  name : String
  up : List String
  down : List String

/-- The statements of one direction. -/
def MigrationScript.statements (script : MigrationScript) : MigrationDirection → List String
  | .up => script.up
  | .down => script.down

/-- The migration that runs the statements. -/
def MigrationScript.migration {σ : Type} (script : MigrationScript) : Migration σ :=
  .ofStatements script.name script.up script.down

/-- The statement that keeps the history in line with a step. -/
def MigrationHistory.stepStatement (d : Dialect) (table now : String) :
    MigrationDirection → String → Except QueryError String
  | .up, name => addStatement d table now name
  | .down, name => removeStatement d table now name

/-- A migration that was applied or taken back. -/
structure MigrationChange where
  script : MigrationScript
  direction : MigrationDirection
  /-- The statement that kept the history in line. -/
  record : String

/-- The statements of the transaction. -/
def MigrationChange.statements (x : MigrationChange) : List String :=
  x.script.statements x.direction ++ [x.record]

/-- How the change is reported. -/
def MigrationChange.step (x : MigrationChange) : MigrationStep where
  name := x.script.name
  direction := x.direction
  error? := none

/-- A call of a migrator. -/
structure MigrationCall where
  /-- The migrations that the migrator knows. -/
  scripts : List MigrationScript
  /-- The time of the call. -/
  now : String
  direction : MigrationDirection
  bounds : MigrationBounds

/-- The migrator on a database, with its history in a table. -/
def Database.migrator {δ : Type} (db : Database δ) (table now : String)
    (scripts : List MigrationScript) : Migrator (Store δ) where
  acquire := db.acquire
  querier := db.querier
  history := .inTable table now
  migrations := Migration.sorted (scripts.map MigrationScript.migration)

/-- What a call does. -/
def MigrationCall.run {δ : Type} (call : MigrationCall) (db : Database δ) (table : String) :
    Action (Store δ) (List MigrationStep) :=
  match call.direction with
  | .up => (db.migrator table call.now call.scripts).up call.bounds
  | .down => (db.migrator table call.now call.scripts).down call.bounds

/-- What a call made lasting. -/
structure MigrationLog where
  /-- The statements that made sure of the history. -/
  setup : List String
  changes : List MigrationChange

/-- The transactions of a call, in order. -/
def MigrationLog.transactions (log : MigrationLog) : List (List String) :=
  log.setup.map ([·]) ++ log.changes.map MigrationChange.statements

/-- All statements of a call, in order. -/
def MigrationLog.statements (log : MigrationLog) : List String :=
  log.setup ++ log.changes.flatMap MigrationChange.statements

/-- A change that the call can make. -/
structure MigrationChange.IsOf (x : MigrationChange) (d : Dialect) (table : String)
    (call : MigrationCall) : Prop where
  script : x.script ∈ call.scripts
  direction : x.direction = call.direction
  record : MigrationHistory.stepStatement d table call.now x.direction x.script.name = .ok x.record

/-- A log of a call: first the history is made sure of, and then migrations that are known are
applied or taken back. -/
structure MigrationLog.IsOf (log : MigrationLog) (d : Dialect) (table : String)
    (call : MigrationCall) : Prop where
  setup : ∀ sql ∈ log.setup, ∃ sqls,
    MigrationHistory.ensureStatements d table call.now = .ok sqls ∧ sql ∈ sqls
  changes : ∀ x ∈ log.changes, x.IsOf d table call

/-- Whether the reported successes are what became lasting. -/
def MigrationLog.Explains (log : MigrationLog) (steps : List MigrationStep) : Prop :=
  steps.filter MigrationStep.success = log.changes.map MigrationChange.step

/-- Whether no statement that the call can run controls transactions. -/
structure MigrationCall.IsPlain {δ : Type} (call : MigrationCall) (db : Database δ)
    (table : String) : Prop where
  setup : ∀ sqls, MigrationHistory.ensureStatements db.dialect table call.now = .ok sqls →
    ∀ sql ∈ sqls, db.IsPlain sql
  script : ∀ script ∈ call.scripts, ∀ direction, ∀ sql ∈ script.statements direction, db.IsPlain sql
  record : ∀ script ∈ call.scripts, ∀ direction sql,
    MigrationHistory.stepStatement db.dialect table call.now direction script.name = .ok sql →
      db.IsPlain sql

/-! ## Which migrations a call can run -/

theorem MigrationBounds.mem_of_select {σ : Type} {b : MigrationBounds}
    {candidates selected : List (Migration σ)} (h : b.select candidates = .ok selected)
    {migration : Migration σ} (hmem : migration ∈ selected) : migration ∈ candidates := by
  unfold select at h
  cases hlast : b.last? with
  | none =>
    cases hcount : b.count? <;> simp only [hlast, hcount] at h <;> cases h
    · exact hmem
    · exact List.mem_of_mem_take hmem
  | some name =>
    cases hposition : candidates.findIdx? (·.name == name) with
    | none =>
      simp only [hlast, hposition] at h
      cases h
    | some position =>
      cases hcount : b.count? <;> simp only [hlast, hposition, hcount] at h <;> cases h
      · exact List.mem_of_mem_take hmem
      · exact List.mem_of_mem_take (List.mem_of_mem_take hmem)

theorem Migrator.mem_of_candidates {σ : Type} {m : Migrator σ} {direction : MigrationDirection}
    {applied : List String} {migration : Migration σ}
    (h : migration ∈ m.candidates direction applied) : migration ∈ m.migrations := by
  cases direction with
  | up => exact (List.mem_filter.1 h).1
  | down => exact List.mem_reverse.1 (List.mem_filter.1 h).1

namespace Database

open EntitySql.Action Store

variable {δ : Type} {db : Database δ} {c : δ} {journal : List (List String)}

theorem meets_runAll {sqls : List String} (hsqls : ∀ sql ∈ sqls, db.IsPlain sql)
    (statements : List String) :
    Meets (Works db c journal statements) (db.querier.runAll sqls)
      (fun _ => Works db c journal (statements ++ sqls)) (Breaks c journal) := by
  induction sqls generalizing statements with
  | nil => exact .of_pure fun s hs => by rwa [List.append_nil]
  | cons sql rest ih =>
    rw [List.append_cons]
    change Meets _ (db.querier.run sql >>= fun _ => db.querier.runAll rest) _ _
    exact .bind (meets_run (hsqls sql (.head rest))) fun _ =>
      ih (fun sql hsql => hsqls sql (.tail _ hsql)) _

/-- Where no transaction is open, the scope begins one and owns it. -/
theorem meets_enter :
    Meets (Idles c journal) (TransactionScope.enter db.querier .required)
      (fun scope s => scope.owned = true ∧ Works db c journal [] s) (Settles c journal) := by
  apply meets_get_bind
  intro s hnone
  have howned : (decide (Propagation.required = .required) && !db.querier.isOpen s) = true := by
    simp [querier, hnone]
  apply Meets.ite
  · intro _
    apply Meets.bind (meets_begin.failure fun _ hs => hs.toRests.settles)
    intro _
    exact .of_pure fun _ hs => ⟨howned, hs⟩
  · intro hjoined
    exact absurd howned hjoined

/-- Nothing of a transaction lasts that is taken back. -/
theorem meets_scopeRollback (scope : TransactionScope) :
    Meets (Breaks c journal) (scope.rollback db.querier) (fun _ => Settles c journal)
      (Settles c journal) := by
  apply Meets.bind (R := fun _ => Breaks c journal)
  · exact .of_get fun _ hs => hs
  intro s
  apply Meets.ite
  · intro _
    apply Meets.failure _ fun _ hs => Breaks.settles hs
    exact meets_rollback.success fun _ _ hs => hs.toRests.settles
  · intro _
    exact .of_pure fun _ hs => hs.settles

/-- Work in a transaction lasts as a whole or not at all. -/
theorem meets_transactional {α : Type} {work : Action (Store δ) α} {Q : α → List String → Prop}
    (hwork : Meets (Works db c journal []) work
      (fun a s => ∃ statements, Q a statements ∧ Works db c journal statements s)
      (Breaks c journal)) :
    Meets (Idles c journal) (db.querier.transactional .required work)
      (fun a s => ∃ statements, Q a statements ∧
        Idles (db.replay statements c) (journal ++ [statements]) s)
      (Settles c journal) := by
  apply meets_enter.bind
  intro scope
  apply Meets.assume
  intro howned
  apply hwork.attempt.bind
  intro outcome
  cases outcome with
  | ok a =>
    simp only [TransactionScope.finish, TransactionScope.commit, howned, if_true]
    apply Meets.each
    intro s hs
    obtain ⟨statements, hQ, hs⟩ := hs
    apply Meets.bind ((Meets.failure meets_commit fun _ hs => hs.settles).on hs)
    intro _
    exact .of_pure fun _ hs => ⟨statements, hQ, hs⟩
  | error e =>
    apply (meets_scopeRollback scope).attempt.bind
    intro outcome
    apply Meets.of_throw
    intro s hs
    cases outcome <;> exact hs

variable {table : String}

end Database

end EntitySql
