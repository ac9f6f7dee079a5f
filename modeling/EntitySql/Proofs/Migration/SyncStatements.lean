import EntitySql.Migration.Migrator
import EntitySql.Proofs.Action
import EntitySql.Proofs.Schema.Statements
/-!
# The statements of a synchronization

A synchronization sees the entities' schema and the live one and writes the statements of the differences
that it is allowed to apply (`Migrator.Syncs.syncStatements_eq`). Leaving out differences that are empty
leaves out no statement, so the statements are those of all allowed differences (`Migrator.syncDdl`).
-/

namespace EntitySql.Migrator

variable {σ : Type}

/-- What a synchronization sees from the given state: the dialect, the entities' schema and the live
one. -/
structure Syncs (m : Migrator σ) (q : Querier σ) (s : σ) (d : Dialect) (desired live : Schema) :
    Prop where
  kind : q.kind = .sql d
  built : m.registry.schema = .ok desired
  reads : ∃ introspect, m.introspect? = some introspect ∧ ∃ s', introspect q s = (.ok live, s')

/-- What a synchronization leaves out of the comparison. -/
def diffOptions (m : Migrator σ) : DiffOptions := { excludeTables := m.excludedTables }

/-- The differences that a synchronization may apply. -/
def allowedDiffs (m : Migrator σ) (options : SyncOptions) (desired live : Schema) : List TableDiff :=
  let diffs := (desired.diff live m.diffOptions).tableDiffs
  if options.isDestructive then diffs else diffs.map TableDiff.withoutDrops

/-- What the statements of a synchronization are to do, if the dialect can express it. -/
def syncDdl (m : Migrator σ) (d : Dialect) (options : SyncOptions) (desired live : Schema) :
    Except SchemaError (List Ddl) :=
  TableDiff.allStatements d (m.allowedDiffs options (desired.normalizeTypes d) live)

/-- What the statements that drop and create all tables do. -/
def recreateDdl (m : Migrator σ) (desired : Schema) : List Ddl :=
  let tables := desired.sortedTables.filter fun t => !m.excludedTables.contains t.name
  tables.reverse.map (fun t => .dropTable t.name true true) ++
    tables.flatMap fun t =>
      ({ table := t, foreignKeys := desired.outgoing t } : TableDefinition).statements false

/-- Differences that are empty have no statements. -/
theorem statements_of_isEmpty {d : Dialect} {t : TableDiff} (h : t.isEmpty = true) :
    t.statements d = .ok [] := by
  rcases t with ⟨_, _⟩ | ⟨table, changes⟩
  · cases h
  · simp only [TableDiff.isEmpty, TableChanges.isEmpty, Bool.and_eq_true, Option.isNone_iff_eq_none] at h
    obtain ⟨⟨⟨⟨⟨⟨hadd, halter⟩, hdrop⟩, haddIndexes⟩, hdropIndexes⟩, haddKeys⟩, hdropKeys⟩ := h
    simp [TableDiff.statements, TableChanges.statements, TableChanges.addColumns,
      TableChanges.alterColumns, TableChanges.dropColumns, TableChanges.addIndexes,
      TableChanges.dropIndexes, TableChanges.addForeignKeys, TableChanges.dropForeignKeys, hadd, halter,
      hdrop, haddIndexes, hdropIndexes, haddKeys, hdropKeys, ColumnChange.allStatements]
    rfl

theorem allStatements_filter (d : Dialect) (diffs : List TableDiff) :
    TableDiff.allStatements d (diffs.filter fun t => !t.isEmpty) = TableDiff.allStatements d diffs := by
  induction diffs with
  | nil => rfl
  | cons t rest ih =>
    rw [TableDiff.allStatements] at ih ⊢
    rw [TableDiff.allStatements, flatten_mapM_cons]
    by_cases hempty : t.isEmpty = true
    · rw [List.filter_cons_of_neg (by simpa using hempty), ih, statements_of_isEmpty hempty]
      exact (bind_pure _).symm
    · rw [List.filter_cons_of_pos (by simpa using hempty), flatten_mapM_cons, ih]
      rfl

/-- The texts of differences are those of their statements. -/
theorem statementsOf_eq (d : Dialect) (diffs : List TableDiff) :
    statementsOf d diffs = (TableDiff.allStatements d diffs).map (·.map (·.render d)) := by
  rw [statementsOf, TableDiff.allStatements]
  cases diffs.mapM (·.statements d) <;> rfl

/-- The statements of a synchronization are the texts of what they are to do. -/
theorem Syncs.syncStatements_eq {m : Migrator σ} {q : Querier σ} {s : σ} {d : Dialect}
    {desired live : Schema} (h : m.Syncs q s d desired live) (options : SyncOptions) :
    (m.syncStatements q options s).1 =
      match m.syncDdl d options desired live with
      | .ok statements => .ok (statements.map (·.render d))
      | .error e => .error (.schema e) := by
  obtain ⟨introspect, hintrospect, s', hlive⟩ := h.reads
  have hdiffs : m.tableDiffs q options s =
      (.ok ((m.allowedDiffs options (desired.normalizeTypes d) live).filter fun t => !t.isEmpty), s') := by
    simp only [tableDiffs, hintrospect, h.built, h.kind, QuerierKind.dialect?, Action.bind_apply,
      Action.ofSchema, Action.pure_apply, hlive]
    rfl
  rw [syncStatements, Action.bind_apply, hdiffs, h.kind, syncDdl, ← allStatements_filter]
  dsimp only
  rw [statementsOf_eq]
  generalize TableDiff.allStatements d _ = result
  cases result <;> rfl

theorem Syncs.syncStatements_of_syncDdl {m : Migrator σ} {q : Querier σ} {s : σ} {d : Dialect}
    {desired live : Schema} (h : m.Syncs q s d desired live) {options : SyncOptions}
    {statements : List Ddl} (hddl : m.syncDdl d options desired live = .ok statements) :
    (m.syncStatements q options s).1 = .ok (statements.map (·.render d)) := by
  rw [h.syncStatements_eq options, hddl]

theorem recreateStatements_eq {m : Migrator σ} {desired : Schema}
    (h : m.registry.schema = .ok desired) (d : Dialect) :
    m.recreateStatements d = .ok ((m.recreateDdl desired).map (·.render d)) := by
  rw [recreateStatements, h]
  rfl

/-! ## What the operations return -/

/-- The result of work on a connection that is given back is the result of the work. -/
theorem of_withQuerier_eq_ok {α : Type} {m : Migrator σ} {work : Querier σ → Action σ α} {s : σ} {a : α}
    (h : (m.withQuerier work s).1 = .ok a) :
    ∃ s', m.acquire s = (.ok (), s') ∧ (work m.querier s').1 = .ok a := by
  obtain ⟨_, s', hacquired, h⟩ := Action.of_bind_eq_ok h
  refine ⟨s', hacquired, ?_⟩
  obtain ⟨outcome, _, hworked, h⟩ := Action.of_bind_eq_ok h
  have houtcome : (work m.querier s').1 = outcome := Except.ok.inj (congrArg Prod.fst hworked)
  obtain ⟨released, _, _, h⟩ := Action.of_bind_eq_ok h
  rw [houtcome]
  cases released with
  | ok _ => exact h
  | error refusal =>
    obtain ⟨_, _, _, h⟩ := Action.of_bind_eq_ok h
    cases outcome <;> cases h

/-- What a synchronization returns, and what it would run, are the statements of what it sees behind the
connection that it takes. -/
theorem syncStatements_of_result {m : Migrator σ} {options : SyncOptions} {s : σ} {texts : List String}
    (h : (m.autoSync options s).1 = .ok texts ∨ (m.diffStatements options s).1 = .ok texts) :
    ∃ s', m.acquire s = (.ok (), s') ∧ (m.syncStatements m.querier options s').1 = .ok texts := by
  rcases h with h | h
  · obtain ⟨s', hacquired, h⟩ := of_withQuerier_eq_ok h
    obtain ⟨statements, s'', hstatements, h⟩ := Action.of_bind_eq_ok h
    refine ⟨s', hacquired, ?_⟩
    have hreturned : statements = texts := by
      generalize m.querier.kind = kind at h
      generalize (!statements.isEmpty) = applies at h
      cases applies with
      | false => exact Except.ok.inj h
      | true =>
        cases kind
        all_goals
          obtain ⟨_, _, _, h⟩ := Action.of_bind_eq_ok h
          exact Except.ok.inj h
    rw [hstatements, hreturned]
  · exact of_withQuerier_eq_ok h

theorem recreateStatements_of_result {m : Migrator σ} {d : Dialect} (hd : m.querier.kind = .sql d) {s : σ}
    {texts : List String} (h : (m.syncForce s).1 = .ok texts) : m.recreateStatements d = .ok texts := by
  obtain ⟨s', _, h⟩ := of_withQuerier_eq_ok h
  obtain ⟨found, _, hfound, h⟩ := Action.of_bind_eq_ok h
  obtain ⟨statements, _, hstatements, h⟩ := Action.of_bind_eq_ok h
  obtain ⟨_, _, _, h⟩ := Action.of_bind_eq_ok h
  cases h
  rw [Querier.requireDialect, hd] at hfound
  cases hfound
  cases hrecreated : m.recreateStatements d <;> rw [hrecreated] at hstatements <;> cases hstatements
  rfl

/-- Where foreign keys can be altered every synchronization can be expressed. -/
theorem syncDdl_eq (m : Migrator σ) {d : Dialect} (hd : d.alterForeignKeys = true)
    (options : SyncOptions) (desired live : Schema) :
    m.syncDdl d options desired live =
      .ok ((m.allowedDiffs options (desired.normalizeTypes d) live).flatMap (TableDiff.ddl d)) := by
  refine TableDiff.allStatements_eq hd fun table hmem => ?_
  rw [allowedDiffs] at hmem
  split at hmem <;> simp [SchemaDiff.tableDiffs, TableDiff.withoutDrops] at hmem

/-- A migrator that finds the given live schema through a connection that does nothing. -/
def against (registry : Registry) (live : Schema) (d : Dialect) (tables : List String := []) :
    Migrator Unit where
  querier :=
    { kind := .sql d
      isOpen := fun _ => false
      all := fun _ => pure []
      run := fun _ => pure ()
      beginTransaction := pure ()
      commitTransaction := pure ()
      rollbackTransaction := pure ()
      release := pure () }
  history :=
    { ensure := fun _ => pure ()
      executed := fun _ => pure []
      add := fun _ _ => pure ()
      remove := fun _ _ => pure ()
      tables }
  introspect? := some fun _ => pure live
  registry

theorem syncs_against {registry : Registry} {live desired : Schema} {d : Dialect}
    {tables : List String} (h : registry.schema = .ok desired) :
    (against registry live d tables).Syncs (against registry live d tables).querier () d desired live where
  kind := rfl
  built := h
  reads := ⟨_, rfl, (), rfl⟩

end EntitySql.Migrator
