import EntitySql.Migration.Recording
import EntitySql.Proofs.Migration.Calls
import EntitySql.Proofs.Migration.Steps
import EntitySql.Sqlite.Catalog
import Mathlib.Control.Monad.Basic
/-!
# Connections are given back

Every operation of a migrator works on a connection that it takes and gives it back behind its work, whatever
comes of that. Giving back is the last thing that is asked of the connection, unless it is refused: then the
connection is closed. What the operation returns is told by its own work, and by the refusal only if the work
succeeded.

The history, the migrations and the reader of the live schema use the connection as well. They have it lent to
them (`Migrator.Lends`): whatever they ask of it, they neither give it back nor close it. So it is with the history
in a table, with migrations that run statements and with the reader of SQLite's catalog.
-/

namespace EntitySql

open EntitySql.Action

/-! ## Operations -/

/-- An operation of a migrator, told by what it gives. -/
inductive MigratorOperation (σ : Type) : Type → Type
  | executed : MigratorOperation σ (List String)
  | pending : MigratorOperation σ (List (Migration σ))
  | up (bounds : MigrationBounds) : MigratorOperation σ (List MigrationStep)
  | down (bounds : MigrationBounds) : MigratorOperation σ (List MigrationStep)
  | autoSync (options : SyncOptions) : MigratorOperation σ (List String)
  | diffStatements (options : SyncOptions) : MigratorOperation σ (List String)
  | syncForce : MigratorOperation σ (List String)

variable {σ α β : Type}

namespace Migrator

/-- Does an operation. -/
def perform (m : Migrator σ) : MigratorOperation σ α → Action σ α
  | .executed => m.executed
  | .pending => m.pending
  | .up bounds => m.up bounds
  | .down bounds => m.down bounds
  | .autoSync options => m.autoSync options
  | .diffStatements options => m.diffStatements options
  | .syncForce => m.syncForce

/-- What an operation does with the connection that it takes, before it gives it back. -/
def work (m : Migrator σ) : MigratorOperation σ α → Querier σ → Action σ α
  | .executed, q => m.readHistory q
  | .pending, q => do return m.pendingAmong (← m.readHistory q)
  | .up bounds, q =>
    match q.kind with
    | .sql _ => m.migrateWith q .up bounds
    | .document => throw .requiresSql
  | .down bounds, q =>
    match q.kind with
    | .sql _ => m.migrateWith q .down bounds
    | .document => throw .requiresSql
  | .autoSync options, q => do
    let statements ← m.syncStatements q options
    if !statements.isEmpty then
      match q.kind with
      | .sql _ => applyStatements q statements
      | .document => q.runDocumentStatements statements
    return statements
  | .diffStatements options, q => m.syncStatements q options
  | .syncForce, q => do
    let d ← q.requireDialect
    let statements ← Action.ofSchema (m.recreateStatements d)
    applyStatements q statements
    return statements

end Migrator

/-! ## Giving back -/

/-- What comes of giving back depends on the connection alone, and the outcome on the work first. -/
theorem Querier.releaseAfter_apply (q : Querier σ) (work : Action σ α) (s : σ) :
    q.releaseAfter work s =
      match q.release (work s).2 with
      | (.ok _, s') => ((work s).1, s')
      | (.error refusal, s') => ((work s).1.bind fun _ => .error refusal, (q.discard s').2) := by
  have hworked : work.attempt s = (.ok (work s).1, (work s).2) := rfl
  have hreleased : q.release.attempt (work s).2 =
      (.ok (q.release (work s).2).1, (q.release (work s).2).2) := rfl
  rw [releaseAfter, bind_apply, hworked]
  dsimp only
  rw [bind_apply, hreleased]
  rcases q.release (work s).2 with ⟨refusal | _, s'⟩
  · rcases (work s).1 with e | a <;> rfl
  · rfl

/-- A connection is given back in the same way behind work whose result is put into another form. -/
theorem Querier.releaseAfter_bind_pure (q : Querier σ) (work : Action σ β) (f : β → α) :
    (do return f (← q.releaseAfter work)) = q.releaseAfter (do return f (← work)) := by
  funext s
  have hwork : (do return f (← work) : Action σ α) s = ((work s).1.map f, (work s).2) := by
    rw [bind_apply]
    rcases work s with ⟨_ | _, _⟩ <;> rfl
  rw [bind_apply, releaseAfter_apply, releaseAfter_apply, hwork]
  dsimp only
  rcases q.release (work s).2 with ⟨refusal | _, s'⟩ <;> rcases (work s).1 with e | b <;> rfl

/-- Every operation does its work on the connection that it takes and gives it back. -/
theorem Migrator.perform_eq (m : Migrator σ) (op : MigratorOperation σ α) :
    m.perform op = m.withQuerier (m.work op) := by
  cases op with
  | pending =>
    change (do return m.pendingAmong (← m.executed)) = _
    rw [executed, withQuerier, bind_assoc, Querier.releaseAfter_bind_pure]
    rfl
  | executed | up _ | down _ | autoSync _ | diffStatements _ | syncForce => rfl

/-- How a connection is given back by a querier that writes down its calls, behind work that ended with `outcome`
in the world `s` and before which `log` was written down. -/
structure Querier.GivesBack (q : Querier σ) (outcome : Except MigrationError α) (s : σ)
    (log : List QuerierCall) (behind : Except MigrationError α × σ × List QuerierCall) : Prop where
  /-- A connection that is taken back is not asked for anything any more. -/
  released : ∀ s', q.release s = (.ok (), s') → behind = (outcome, s', log ++ [⟨.release, true⟩])
  /-- A connection that is not taken back is closed, whatever comes of that. The error of the work counts
  before the refusal. -/
  refused : ∀ refusal s', q.release s = (.error refusal, s') →
    behind = (outcome.bind fun _ => .error refusal, (q.discard s').2,
      log ++ [⟨.release, false⟩, ⟨.discard, (q.discard s').1.isOk⟩])

theorem Querier.givesBack_releaseAfter (q : Querier σ) (work : Action (σ × List QuerierCall) α)
    (s : σ × List QuerierCall) :
    q.GivesBack (work s).1 (work s).2.1 (work s).2.2 (q.logged.releaseAfter work s) := by
  rcases hworked : work s with ⟨outcome, s', log⟩
  have hrelease : q.logged.release (s', log) =
      ((q.release s').1, (q.release s').2, log ++ [⟨.release, (q.release s').1.isOk⟩]) := rfl
  rw [releaseAfter_apply, hworked, hrelease]
  constructor
  · intro s'' hreleased
    rw [hreleased]
    rfl
  · intro refusal s'' hrefused
    rw [hrefused]
    change (_, (q.discard s'').2, _ ++ _) = _
    rw [List.append_assoc]
    rfl

/-! ## What the parts of a migrator do -/

/-- Whether the history, the migrations and the reader of the live schema preserve what they find. -/
structure Migrator.PartsKeep (m : Migrator σ) (I : σ → Prop) : Prop where
  ensure : Keeps I (m.history.ensure m.querier)
  executed : Keeps I (m.history.executed m.querier)
  add : ∀ name, Keeps I (m.history.add m.querier name)
  remove : ∀ name, Keeps I (m.history.remove m.querier name)
  run : ∀ migration ∈ m.migrations, ∀ direction, Keeps I (migration.run direction m.querier)
  introspect : ∀ introspect ∈ m.introspect?, Keeps I (introspect m.querier)

namespace Migrator

variable {m : Migrator σ} {q : Querier σ} {I : σ → Prop}

/-! ## What an operation does with its connection -/

theorem PartsKeep.readHistory (h : m.PartsKeep I) : Keeps I (m.readHistory m.querier) :=
  h.ensure.bind fun _ => h.executed

/-- The statements of a synchronization are found by the reader of the live schema alone. -/
theorem keeps_syncStatements (hreads : ∀ introspect ∈ m.introspect?, Keeps I (introspect q))
    (options : SyncOptions) : Keeps I (m.syncStatements q options) := by
  have hdiffs : Keeps I (m.tableDiffs q options) := by
    unfold tableDiffs
    cases hintrospect : m.introspect? with
    | none => exact .of_throw _
    | some introspect =>
      exact (Keeps.ofSchema _).bind fun _ => (hreads introspect hintrospect).bind fun _ => .of_pure _
  refine hdiffs.bind fun diffs => ?_
  cases q.kind with
  | sql d => exact .ofSchema _
  | document => exact .of_pure _

section Borrowing

variable (hborrow : ∀ use, use.Borrows → Keeps I (q.ask use))

include hborrow

theorem keeps_transactional {p : Propagation} {work : Action σ α} (hwork : Keeps I work) :
    Keeps I (q.transactional p work) :=
  .transactional (hborrow .start ⟨nofun, nofun⟩) (hborrow .commit ⟨nofun, nofun⟩)
    (hborrow .rollback ⟨nofun, nofun⟩) hwork

theorem keeps_applyStatements (statements : List String) : Keeps I (applyStatements q statements) :=
  keeps_transactional hborrow (.runAll (fun sql => hborrow (.run sql) ⟨nofun, nofun⟩) _)

theorem keeps_runDocumentStatements (statements : List String) :
    Keeps I (q.runDocumentStatements statements) :=
  (Keeps.of_outcome _).bind fun _ => .forM fun c _ => hborrow (.command c) ⟨nofun, nofun⟩

end Borrowing

section Parts

variable (hborrow : ∀ use, use.Borrows → Keeps I (m.querier.ask use))

include hborrow

theorem PartsKeep.runSteps (h : m.PartsKeep I) (direction : MigrationDirection)
    {migrations : List (Migration σ)} (hknown : ∀ migration ∈ migrations, migration ∈ m.migrations) :
    Keeps I (m.runSteps m.querier direction migrations) := by
  induction migrations with
  | nil => exact .of_pure []
  | cons migration rest ih =>
    have hstep : Keeps I (m.runStep m.querier direction migration) := by
      refine keeps_transactional hborrow ?_
      refine (h.run migration (hknown migration (.head rest)) direction).bind fun _ => ?_
      cases direction with
      | up => exact h.add migration.name
      | down => exact h.remove migration.name
    refine hstep.attempt.bind fun outcome => ?_
    cases outcome with
    | ok _ => exact (ih fun migration hmem => hknown migration (.tail _ hmem)).bind fun _ => .of_pure _
    | error e => exact .of_pure _

theorem PartsKeep.migrateWith (h : m.PartsKeep I) (direction : MigrationDirection)
    (bounds : MigrationBounds) : Keeps I (m.migrateWith m.querier direction bounds) := by
  refine h.readHistory.bind fun applied => ?_
  cases hselected : bounds.select (m.candidates direction applied) with
  | error e => exact .of_throw e
  | ok selected =>
    refine h.runSteps hborrow direction fun migration hmem => ?_
    exact mem_of_candidates (MigrationBounds.mem_of_select hselected hmem)

/-- What every call but those that give the connection back preserves is preserved by the work of an
operation. -/
theorem PartsKeep.work (h : m.PartsKeep I) (op : MigratorOperation σ α) : Keeps I (m.work op m.querier) := by
  have hmigrate : ∀ direction bounds, Keeps I
      (match m.querier.kind with
        | .sql _ => m.migrateWith m.querier direction bounds
        | .document => throw .requiresSql) := by
    intro direction bounds
    cases m.querier.kind with
    | sql d => exact h.migrateWith hborrow direction bounds
    | document => exact .of_throw _
  cases op with
  | executed => exact h.readHistory
  | pending => exact h.readHistory.bind fun _ => .of_pure _
  | up bounds => exact hmigrate .up bounds
  | down bounds => exact hmigrate .down bounds
  | autoSync options =>
    refine (keeps_syncStatements h.introspect options).bind fun statements => ?_
    refine .ite (fun _ => ?_) fun _ => .of_pure _
    cases m.querier.kind with
    | sql d => exact (keeps_applyStatements hborrow statements).bind fun _ => .of_pure _
    | document => exact (keeps_runDocumentStatements hborrow statements).bind fun _ => .of_pure _
  | diffStatements options => exact keeps_syncStatements h.introspect options
  | syncForce =>
    refine Keeps.requireDialect.bind fun d => (Keeps.ofSchema _).bind fun statements => ?_
    exact (keeps_applyStatements hborrow statements).bind fun _ => .of_pure _

end Parts

end Migrator

/-! ## Parts that leave the connection with the migrator -/

section Parts

variable {q : Querier σ} {I : σ → Prop}

theorem Migration.keeps_run_ofStatements (hrun : ∀ sql, Keeps I (q.run sql)) (name : String)
    (up down : List String) (direction : MigrationDirection) :
    Keeps I ((ofStatements name up down).run direction q) := by
  cases direction <;> exact .runAll hrun _

/-- The reader of SQLite's catalog only asks for rows. -/
theorem Sqlite.uses_introspect (q : Querier σ) : q.Uses QuerierUse.IsQuery (introspect q) := by
  intro I hqueries
  have hrows : ∀ sql, Keeps I (rowsOf q sql) := fun sql => hqueries (.all _) ⟨_, rfl⟩
  have htable : ∀ name, Keeps I (table? q name) := by
    intro name
    refine (hrows _).bind fun definitions => ?_
    cases definitions with
    | nil => exact .of_pure _
    | cons definition _ =>
      refine (hrows _).bind fun _ => (hrows _).bind fun indexes => Keeps.bind ?_ fun _ => .of_pure _
      exact .foldlM (fun _ _ _ => (hrows _).bind fun _ => .of_pure _) _
  have hkey : ∀ name first parts, Keeps I (foreignKey q name first parts) := by
    intro name first parts
    refine .ite (fun _ => ?_) fun _ => ?_
    · exact (htable _).bind fun _ => .of_pure _
    · exact .of_pure _
  have hkeys : ∀ name, Keeps I (foreignKeys q name) := by
    intro name
    refine (hrows _).bind fun rows => Keeps.bind ?_ fun _ => .of_pure _
    refine .mapM fun group _ => ?_
    cases sortRows "seq" group with
    | nil => exact .of_pure _
    | cons first rest => exact (hkey name first _).bind fun _ => .of_pure _
  have hnames : Keeps I (tableNames q) := (hrows _).bind fun _ => .of_pure _
  refine hnames.bind fun names => (Keeps.mapM fun name _ => htable name).bind fun tables => ?_
  exact .foldlM (fun _ t _ => (hkeys t.name).bind fun _ => .of_pure _) _

end Parts

/-- Whether the history, the migrations and the reader of the live schema ask for anything but to give the
connection back or to close it. -/
def Migrator.Lends (m : Migrator (σ × List QuerierCall)) : Prop :=
  ∀ log, m.PartsKeep (Querier.Extends QuerierUse.Borrows log)

/-- A history in a table, migrations that run statements and the reader of SQLite's catalog only run statements
and ask for rows. -/
theorem Migrator.lends_of_inTable {m : Migrator (σ × List QuerierCall)} {q : Querier σ}
    (hq : m.querier = q.logged) {table now : String} (hhistory : m.history = .inTable table now)
    (hmigrations : ∀ migration ∈ m.migrations, ∃ name up down, migration = .ofStatements name up down)
    (hreads : ∀ introspect ∈ m.introspect?, introspect = Sqlite.introspect) : m.Lends := by
  intro log
  have hborrow : ∀ use : QuerierUse, use.Borrows →
      Keeps (Querier.Extends QuerierUse.Borrows log) (m.querier.ask use) := by
    intro use huse
    rw [hq]
    exact Querier.keeps_extends huse log
  have hrun : ∀ sql, Keeps (Querier.Extends QuerierUse.Borrows log) (m.querier.run sql) := fun sql =>
    hborrow (.run sql) ⟨nofun, nofun⟩
  have hall : ∀ sql, Keeps (Querier.Extends QuerierUse.Borrows log) (m.querier.all sql) := fun sql =>
    hborrow (.all sql) ⟨nofun, nofun⟩
  exact {
    ensure := by
      rw [hhistory]
      exact Keeps.requireDialect.bind fun _ => (Keeps.ofSchema _).bind fun _ => .runAll hrun _
    executed := by
      rw [hhistory]
      exact Keeps.requireDialect.bind fun _ => (Keeps.ofQuery _).bind fun _ => (hall _).bind fun _ => .of_pure _
    add := by
      rw [hhistory]
      exact fun _ => Keeps.requireDialect.bind fun _ => (Keeps.ofQuery _).bind fun _ => hrun _
    remove := by
      rw [hhistory]
      exact fun _ => Keeps.requireDialect.bind fun _ => (Keeps.ofQuery _).bind fun _ => hrun _
    run := by
      intro migration hmem direction
      obtain ⟨name, up, down, rfl⟩ := hmigrations migration hmem
      exact Migration.keeps_run_ofStatements hrun name up down direction
    introspect := by
      intro introspect hmem
      rw [hreads introspect hmem]
      refine Sqlite.uses_introspect m.querier _ ?_
      rintro _ ⟨sql, rfl⟩
      exact hall sql }

/-! ## Every operation -/

/-- Whatever an operation comes to, it gives the connection that it takes back behind its own work, once, and
closes it if that is refused. The work itself asks for neither, if the migrator's parts do not. -/
theorem Migrator.givesBack_perform {q : Querier σ} {m : Migrator (σ × List QuerierCall)}
    (hq : m.querier = q.logged) (op : MigratorOperation (σ × List QuerierCall) α)
    {s s' : σ × List QuerierCall} (hacquired : m.acquire s = (.ok (), s')) :
    let worked := m.work op m.querier s'
    q.GivesBack worked.1 worked.2.1 worked.2.2 (m.perform op s) ∧
      (m.Lends → Querier.Extends QuerierUse.Borrows s'.2 worked.2) := by
  intro worked
  constructor
  · have hperform : m.perform op s = q.logged.releaseAfter (m.work op m.querier) s' := by
      rw [perform_eq, withQuerier, bind_apply, hacquired, ← hq]
    rw [hperform]
    exact q.givesBack_releaseAfter _ s'
  · intro hlends
    refine (hlends s'.2).work (fun use huse => ?_) op s' (Querier.extends_self _ s')
    rw [hq]
    exact Querier.keeps_extends huse s'.2

/-- A migration fails and so does taking it back: the connection is refused and closed, and what is reported is
the refusal. -/
theorem Migrator.givesBack_perform_refused :
    let q := Recording.querier { failOn := ["CREATE TABLE a", "ROLLBACK"] }
    let m : Migrator (Recording × List QuerierCall) :=
      { querier := q.logged
        history := .inTable "t" "n"
        introspect? := some Sqlite.introspect
        migrations := [.ofStatements "m" ["CREATE TABLE a (x)"] ["DROP TABLE a"]] }
    let behind := m.perform (.up {}) ({}, [])
    m.querier = q.logged ∧ m.acquire ({}, []) = (.ok (), {}, []) ∧ m.Lends ∧
      Querier.Extends QuerierUse.Borrows [] (m.work (.up {}) m.querier ({}, [])).2 ∧
      behind.1 = .error .pendingTransaction ∧
      behind.2.2.drop 3 = [
        ⟨.run "CREATE TABLE a (x)", false⟩,
        ⟨.rollback, false⟩,
        ⟨.release, false⟩,
        ⟨.discard, true⟩] := by
  intro q m behind
  have hlends : m.Lends := by
    refine lends_of_inTable rfl rfl (fun migration hmem => ?_) fun introspect hmem => ?_
    · exact ⟨_, _, _, List.mem_singleton.1 hmem⟩
    · exact (Option.some.inj hmem).symm
  have hacquired : m.acquire ({}, []) = (.ok (), {}, []) := rfl
  have hgives := givesBack_perform (q := q) (m := m) rfl (.up {}) hacquired
  exact ⟨rfl, hacquired, hlends, hgives.2 hlends, by decide +kernel, by decide +kernel⟩

end EntitySql
