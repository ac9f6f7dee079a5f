import EntitySql.Proofs.Migration.Freshness
import EntitySql.Proofs.Migration.HandingBack
/-!
# Synchronizations are all or nothing

A synchronization of a database with atomic transactions, whatever is refused at whichever moment, runs all of its
statements, once and in order, and makes them lasting together, or it leaves the database as it was. Only remarks
are passed over. Where the dialect cannot express one of the column changes nothing is run at all. The statements
can be had without running them: they are found by reading alone, and a synchronization that would run them can
only fail where one of its own statements does or a command about its transaction.
-/

namespace EntitySql

open EntitySql.Action Store

variable {δ α : Type} {db : Database δ} {c : δ} {journal : List (List String)}

/-! ## Connections that are taken back -/

/-- The querier on a connection that is taken back unless a transaction is open. -/
def Database.pooledQuerier (db : Database δ) : Querier (Store δ) :=
  { db.querier with
    release := do
      if (← get).pending then throw .pendingTransaction }

namespace Database

theorem release_pooledQuerier_of_closed {s : Store δ} (h : s.pending = false) :
    db.pooledQuerier.release s = (.ok (), s) := by
  change (if s.pending = true then throw .pendingTransaction else pure () : Action (Store δ) Unit) s = _
  rw [if_neg (by simp [h])]
  rfl

theorem release_pooledQuerier_of_open {s : Store δ} (h : s.pending = true) :
    db.pooledQuerier.release s = (.error .pendingTransaction, s) := by
  change (if s.pending = true then throw .pendingTransaction else pure () : Action (Store δ) Unit) s = _
  rw [if_pos h]
  rfl

/-- Work that leaves a transaction open only where it fails comes to the same when the connection is given back,
and then no transaction is open. -/
theorem releaseAfter_pooledQuerier {work : Action (Store δ × List QuerierCall) α}
    {s : Store δ × List QuerierCall} {outcome : Except MigrationError α} {s' : Store δ} {log : List QuerierCall}
    (hworked : work s = (outcome, s', log)) (hsettles : Settles c journal s')
    (hidle : outcome.isOk = true → s'.pending = false) :
    ∃ behind ends, db.pooledQuerier.logged.releaseAfter work s = (outcome, behind, log ++ ends) ∧
      Rests c journal behind ∧ ∀ call ∈ ends, call.item.Returns := by
  have hgives := db.pooledQuerier.givesBack_releaseAfter work s
  rw [hworked] at hgives
  cases hpending : s'.pending with
  | false =>
    exact ⟨s', _, hgives.released s' (release_pooledQuerier_of_closed hpending),
      ⟨hsettles.toHolds, hsettles.working hpending⟩, List.forall_mem_singleton.2 (.inl rfl)⟩
  | true =>
    have hrefused := hgives.refused _ s' (release_pooledQuerier_of_open hpending)
    cases outcome with
    | ok a => exact absurd (hpending.symm.trans (hidle rfl)) (by decide)
    | error e =>
      refine ⟨_, _, hrefused, ?_, List.forall_mem_cons.2 ⟨.inl rfl, List.forall_mem_singleton.2 (.inr rfl)⟩⟩
      have hdiscard : Meets (Holds c journal) db.querier.discard (fun _ => Rests c journal) (Rests c journal) :=
        meets_discard
      exact (hdiscard s' hsettles.toHolds).behind

end Database

/-! ## Running statements as a whole -/

/-- The statements of a synchronization that are run. -/
def Querier.executed (texts : List String) : List String := texts.filter fun text => !isComment text

/-- Statements that are run in a transaction of their own all last together, or something of that is refused and
nothing lasts. -/
theorem Database.applyStatements_cases {texts : List String} (hplain : ∀ sql ∈ texts, db.IsPlain sql)
    {s : Store δ} (hs : Idles c journal s) (log : List QuerierCall) :
    ∃ result behind calls,
      Migrator.applyStatements db.pooledQuerier.logged texts (s, log) = (result, behind, log ++ calls) ∧
      (result = .ok () ∧
          Idles (db.replay (Querier.executed texts) c) (journal ++ [Querier.executed texts]) behind ∧
          calls.map (·.item) = .start :: ((Querier.executed texts).map .run ++ [.commit]) ∨
        (∃ e, result = .error e) ∧ Settles c journal behind ∧
          ∃ call ∈ calls, call.succeeded = false ∧
            call.item ∈ QuerierUse.start :: ((Querier.executed texts).map .run ++ [.commit])) := by
  have hclosed : db.pooledQuerier.isOpen s = false := hs.pending
  have hrun := db.pooledQuerier.watches_runAll_logged (Querier.executed texts)
  obtain ⟨tried, ends, hlogged, hplan, hsuccess, hends, -⟩ :=
    db.pooledQuerier.watchesScopes_logged.transactional hrun hclosed log
  have hexecuted : ∀ sql ∈ Querier.executed texts, db.IsPlain sql := fun sql hsql =>
    hplain sql (List.mem_filter.1 hsql).1
  have hwhole : Ends
      (fun _ s => Idles (db.replay (Querier.executed texts) c) (journal ++ [Querier.executed texts]) s)
      (Settles c journal) (db.querier.transactional .required (db.querier.runAll (Querier.executed texts)) s) := by
    refine (meets_transactional (Q := fun _ statements => statements = Querier.executed texts)
      ((meets_runAll hexecuted []).success fun _ s hs => ⟨_, rfl, hs⟩) s hs).mono ?_ fun _ h => h
    rintro _ s' ⟨_, rfl, hs'⟩
    exact hs'
  refine ⟨_, _, _, hlogged, ?_⟩
  change Ends _ _ (db.pooledQuerier.transactional .required (db.pooledQuerier.runAll (Querier.executed texts)) s)
    at hwhole
  rcases hresult : db.pooledQuerier.transactional .required
    (db.pooledQuerier.runAll (Querier.executed texts)) s with ⟨e | _, s'⟩ <;> rw [hresult] at hwhole hsuccess
  · refine .inr ⟨⟨e, rfl⟩, hwhole, ?_⟩
    obtain ⟨call, hcall, hfailed⟩ := hplan.exists_failed hsuccess.symm
    exact ⟨call, List.mem_append_left _ hcall, hfailed⟩
  · have hall : tried.all (·.succeeded) = true := hsuccess.symm
    obtain rfl := hends hall
    exact .inl ⟨rfl, hwhole, by rw [List.append_nil, hplan.map_item hall]⟩

/-- A column change that the dialect cannot express leaves a synchronization without statements. -/
theorem Migrator.Syncs.exists_error_of_unsupported {σ : Type} {m : Migrator σ} {q : Querier σ} {s : σ}
    {d : Dialect} {desired live : Schema} (hsyncs : m.Syncs q s d desired live) (options : SyncOptions)
    {entry : String × Difference Column}
    (hentry : entry ∈ ((desired.normalizeTypes d).diff live m.diffOptions).columns) {change : ColumnChange}
    (hchange : entry.2.change = .alter change.old change.new) {e : SchemaError}
    (hunsupported : change.statements d entry.1 = .error e) :
    ∃ e, (m.syncStatements q options s).1 = .error e := by
  rw [hsyncs.syncStatements_eq options]
  cases hddl : m.syncDdl d options desired live with
  | error e => exact ⟨_, rfl⟩
  | ok statements =>
    let diff := (desired.normalizeTypes d).diff live m.diffOptions
    obtain ⟨parts, hparts, -⟩ := ok_of_bind_eq_ok hddl
    -- The table of the column is among the differences, and the change among its changes.
    have hmem : TableDiff.alter entry.1 (options.restrict (diff.changesOf entry.1)) ∈
        m.allowedDiffs options (desired.normalizeTypes d) live := by
      rw [Migrator.allowedDiffs_eq]
      exact List.mem_append_right _ (List.mem_map.2 ⟨_, SchemaDiff.mem_changedTables_of_column hentry, rfl⟩)
    have halters : change ∈ (options.restrict (diff.changesOf entry.1)).alterColumns := by
      rw [SyncOptions.alterColumns_restrict]
      simp only [TableChanges.alterColumns, SchemaDiff.changesOf, SchemaDiff.getD_nonEmpty?]
      exact List.mem_filterMap.2
        ⟨_, SchemaDiff.mem_ofTable_of_mem hentry, SchemaDiff.alteredColumn?_eq_some_iff.2 hchange⟩
    obtain ⟨part, hpart⟩ := ok_of_mapM_eq_ok hparts hmem
    obtain ⟨altered, haltered, -⟩ := ok_of_bind_eq_ok hpart
    obtain ⟨each, heach, -⟩ := ok_of_bind_eq_ok haltered
    obtain ⟨own, hown⟩ := ok_of_mapM_eq_ok heach halters
    cases hunsupported.symm.trans hown

/-! ## Operations on a connection -/

/-- A migrator on pooled connections to a database, where no statement about schemas controls transactions. It
reads the live schema by asking for rows alone. -/
structure Database.Serves (db : Database δ) (m : Migrator (Store δ × List QuerierCall)) : Prop where
  acquire : m.acquire = db.acquire.beside
  querier : m.querier = db.pooledQuerier.logged
  reads : ∀ introspect ∈ m.introspect?, m.querier.Uses QuerierUse.IsQuery (introspect m.querier)
  plain : ∀ statement : Ddl, db.IsPlain (statement.render db.dialect)

/-- What comes of statements that are run as a whole, told by the calls that are made for them. -/
inductive Database.Runs (db : Database δ) (c : δ) (journal : List (List String)) (texts : List String) :
    Except MigrationError (List String) → Store δ → List QuerierCall → Prop
  | lasting {behind : Store δ} {calls : List QuerierCall}
    (hbehind : Rests (db.replay (Querier.executed texts) c) (journal ++ [Querier.executed texts]) behind)
    (hcalls : calls.map (·.item) = .start :: ((Querier.executed texts).map .run ++ [.commit])) :
    Runs db c journal texts (.ok texts) behind calls
  | refused {e : MigrationError} {behind : Store δ} {calls : List QuerierCall} {call : QuerierCall}
    (hbehind : Rests c journal behind) (hcall : call ∈ calls) (hfailed : call.succeeded = false)
    (hitem : call.item ∈ QuerierUse.start :: ((Querier.executed texts).map .run ++ [.commit])) :
    Runs db c journal texts (.error e) behind calls

namespace Database.Serves

variable {m : Migrator (Store δ × List QuerierCall)} {options : SyncOptions} {s s₁ s₂ : Store δ}
  {queries : List QuerierCall}

theorem acquire_apply (h : db.Serves m) (s : Store δ) :
    m.acquire (s, []) = ((db.acquire s).1, (db.acquire s).2, []) := by
  rw [h.acquire]
  rfl

theorem kind (h : db.Serves m) : m.querier.kind = .sql db.dialect := by
  rw [h.querier]
  rfl

/-- Work on a connection comes to the same when the connection is given back. -/
theorem withQuerier (h : db.Serves m) (hacquired : m.acquire (s, []) = (.ok (), s₁, []))
    {work : Querier (Store δ × List QuerierCall) → Action (Store δ × List QuerierCall) α}
    {outcome : Except MigrationError α} {log : List QuerierCall}
    (hworked : work m.querier (s₁, []) = (outcome, s₂, log)) (hsettles : Settles c journal s₂)
    (hidle : outcome.isOk = true → s₂.pending = false) :
    ∃ behind ends, m.withQuerier work (s, []) = (outcome, behind, log ++ ends) ∧ Rests c journal behind ∧
      ∀ call ∈ ends, call.item.Returns := by
  have hwith : m.withQuerier work (s, []) = db.pooledQuerier.logged.releaseAfter (work m.querier) (s₁, []) := by
    rw [Migrator.withQuerier, bind_apply, hacquired, h.querier]
  rw [hwith]
  exact releaseAfter_pooledQuerier hworked hsettles hidle

/-- The statements of a synchronization are found by reading alone. -/
theorem reads_syncStatements (h : db.Serves m) (options : SyncOptions) (hs : Idles c journal s) :
    ∃ result behind queries, m.syncStatements m.querier options (s, []) = (result, behind, queries) ∧
      Idles c journal behind ∧ ∀ call ∈ queries, call.item.IsQuery := by
  have hqueries : ∀ use : QuerierUse, use.IsQuery →
      Keeps (fun s => Idles c journal s.1 ∧ Querier.Extends QuerierUse.IsQuery [] s) (m.querier.ask use) := by
    rintro use huse ⟨s, log⟩ ⟨hs, hextends⟩
    rw [h.querier]
    refine ⟨?_, Querier.keeps_extends huse [] _ hextends⟩
    obtain ⟨sql, rfl⟩ := huse
    have hall : Ends (fun rows s => rows = db.query sql c ∧ Idles c journal s) (Idles c journal)
        (db.querier.all sql s) := meets_all sql s hs
    exact (hall.mono (fun _ _ hrows => hrows.2) fun _ hidles => hidles).behind
  have hkeeps := Migrator.keeps_syncStatements (fun introspect hintrospect =>
    h.reads introspect hintrospect _ hqueries) options (s, []) ⟨hs, Querier.extends_self _ _⟩
  obtain ⟨hbehind, queries, hreads, hlog⟩ := hkeeps
  exact ⟨_, _, queries, Prod.ext rfl (Prod.ext rfl hlog), hbehind, hreads⟩

/-- The statements of a synchronization are texts of what is done to schemas. -/
theorem plain_syncStatements (h : db.Serves m) {s : Store δ × List QuerierCall} {texts : List String}
    (hread : (m.syncStatements m.querier options s).1 = .ok texts) : ∀ sql ∈ texts, db.IsPlain sql := by
  obtain ⟨diffs, s', -, hstatements⟩ := of_bind_eq_ok hread
  rw [h.kind] at hstatements
  dsimp only at hstatements
  rw [Migrator.statementsOf_eq] at hstatements
  cases hddl : TableDiff.allStatements db.dialect diffs with
  | error e =>
    rw [hddl] at hstatements
    cases hstatements
  | ok statements =>
    rw [hddl] at hstatements
    cases hstatements
    intro sql hsql
    obtain ⟨statement, -, rfl⟩ := List.mem_map.1 hsql
    exact h.plain statement

/-- The statements that create all tables again are texts of what is done to schemas as well. -/
theorem plain_recreateStatements (h : db.Serves m) {texts : List String}
    (hrecreate : m.recreateStatements db.dialect = .ok texts) : ∀ sql ∈ texts, db.IsPlain sql := by
  rw [Migrator.recreateStatements] at hrecreate
  cases hschema : m.registry.schema with
  | error e =>
    rw [hschema] at hrecreate
    cases hrecreate
  | ok desired =>
    rw [hschema] at hrecreate
    cases hrecreate
    intro sql hsql
    obtain ⟨statement, -, rfl⟩ := List.mem_map.1 hsql
    exact h.plain statement

/-- Work that runs statements as a whole on a connection. -/
theorem runs (h : db.Serves m) (hacquired : m.acquire (s, []) = (.ok (), s₁, []))
    {work : Querier (Store δ × List QuerierCall) → Action (Store δ × List QuerierCall) (List String)}
    {texts : List String} (hplain : ∀ sql ∈ texts, db.IsPlain sql) (hs : Idles c journal s₂)
    (hworked : work m.querier (s₁, []) = (do
      Migrator.applyStatements m.querier texts
      return texts : Action (Store δ × List QuerierCall) (List String)) (s₂, queries)) :
    ∃ result behind calls ends, m.withQuerier work (s, []) = (result, behind, queries ++ calls ++ ends) ∧
      db.Runs c journal texts result behind calls ∧ ∀ call ∈ ends, call.item.Returns := by
  obtain ⟨result, behind, calls, happlied, hcases⟩ := applyStatements_cases hplain hs queries
  rw [bind_apply, h.querier, happlied] at hworked
  obtain ⟨rfl, hidles, hcalls⟩ | ⟨⟨e, rfl⟩, hsettles, call, hcall, hfailed, hitem⟩ := hcases
  · obtain ⟨behind', ends, hwith, hrests, hends⟩ :=
      h.withQuerier hacquired (h.querier ▸ hworked) hidles.toRests.settles fun _ => hidles.pending
    exact ⟨_, behind', calls, ends, hwith, .lasting hrests hcalls, hends⟩
  · have hfails : (.error e : Except MigrationError (List String)).isOk = true → behind.pending = false := nofun
    obtain ⟨behind', ends, hwith, hrests, hends⟩ :=
      h.withQuerier hacquired (h.querier ▸ hworked) hsettles hfails
    exact ⟨_, behind', calls, ends, hwith, .refused hrests hcall hfailed hitem, hends⟩

end Database.Serves

/-! ## All or nothing -/

/-- What a synchronization makes of a database, told by the calls that it makes. -/
structure Database.AllOrNone (db : Database δ) (s : Store δ)
    (behind : Except MigrationError (List String) × Store δ × List QuerierCall) : Prop where
  /-- No transaction is left open. -/
  ended : behind.2.1.working? = none
  /-- The statements that are returned were all run, once and in order and but for the remarks, and they became
  lasting together. If there are none, nothing did. -/
  all : ∀ texts, behind.1 = .ok texts →
    Querier.statementsRun behind.2.2 = Querier.executed texts ∧
    behind.2.1.committed = db.replay (Querier.executed texts) s.committed ∧
    (behind.2.1.journal = s.journal ++ [Querier.executed texts] ∨ texts = [] ∧ behind.2.1.journal = s.journal)
  /-- After an error the database is as it was. -/
  none : ∀ e, behind.1 = .error e → behind.2.1.committed = s.committed ∧ behind.2.1.journal = s.journal

/-- Whether an answer was only read for. -/
def Querier.OnlyReads (log : List QuerierCall) : Prop := ∀ call ∈ log, call.item.IsQuery ∨ call.item.Returns

namespace Querier

theorem statementsRun_append (log others : List QuerierCall) :
    statementsRun (log ++ others) = statementsRun log ++ statementsRun others := by
  rw [statementsRun, List.map_append, List.filterMap_append]
  rfl

theorem statementsRun_of_onlyReads {log : List QuerierCall} (h : OnlyReads log) : statementsRun log = [] := by
  refine List.filterMap_eq_nil_iff.2 fun item hitem => ?_
  obtain ⟨call, hcall, rfl⟩ := List.mem_map.1 hitem
  obtain ⟨sql, hitem⟩ | hitem | hitem := h call hcall <;> rw [hitem] <;> rfl

end Querier

namespace Database

variable {s : Store δ}

/-- What was only read leaves the database as it was. -/
theorem allOrNone_of_reads {result : Except MigrationError (List String)} {behind : Store δ}
    {log : List QuerierCall} (hbehind : Rests s.committed s.journal behind) (hlog : Querier.OnlyReads log)
    (hresult : ∀ texts, result = .ok texts → texts = []) : db.AllOrNone s (result, behind, log) where
  ended := hbehind.working
  all texts hok := by
    obtain rfl := hresult texts hok
    exact ⟨Querier.statementsRun_of_onlyReads hlog, hbehind.committed, .inr ⟨rfl, hbehind.journal⟩⟩
  none _ _ := ⟨hbehind.committed, hbehind.journal⟩

theorem allOrNone_of_error {e : MigrationError} {behind : Store δ} {log : List QuerierCall}
    (hbehind : Rests s.committed s.journal behind) (hlog : Querier.OnlyReads log) :
    db.AllOrNone s (.error e, behind, log) := by
  refine allOrNone_of_reads hbehind hlog ?_
  rintro _ ⟨⟩

/-- Statements that are run as a whole behind what is read. -/
theorem allOrNone_of_runs {texts : List String} {result : Except MigrationError (List String)} {behind : Store δ}
    {queries calls ends : List QuerierCall} (hruns : db.Runs s.committed s.journal texts result behind calls)
    (hqueries : ∀ call ∈ queries, call.item.IsQuery) (hends : ∀ call ∈ ends, call.item.Returns) :
    db.AllOrNone s (result, behind, queries ++ calls ++ ends) := by
  cases hruns with
  | lasting hbehind hcalls =>
    refine ⟨hbehind.working, ?_, nofun⟩
    rintro _ ⟨⟩
    refine ⟨?_, hbehind.committed, .inl hbehind.journal⟩
    have hrun : Querier.statementsRun calls = Querier.executed texts := by
      rw [Querier.statementsRun, hcalls]
      change List.filterMap QuerierUse.statement? ((Querier.executed texts).map .run ++ [.commit]) = _
      rw [List.filterMap_append, List.filterMap_map]
      exact (List.append_nil _).trans List.filterMap_some
    rw [Querier.statementsRun_append, Querier.statementsRun_append,
      Querier.statementsRun_of_onlyReads fun call hcall => .inl (hqueries call hcall),
      Querier.statementsRun_of_onlyReads fun call hcall => .inr (hends call hcall), hrun, List.nil_append,
      List.append_nil]
  | refused hbehind =>
    exact ⟨hbehind.working, nofun, fun _ _ => ⟨hbehind.committed, hbehind.journal⟩⟩

end Database

/-! ## What an operation comes to -/

namespace Database.Serves

variable {m : Migrator (Store δ × List QuerierCall)} {options : SyncOptions} {s s₁ s₂ : Store δ}
  {queries : List QuerierCall}

/-- A connection is refused or taken, and in either case nothing has been done yet. -/
theorem acquire_cases (h : db.Serves m) (hs : Rests c journal s) :
    (∃ e s₁, m.acquire (s, []) = (.error e, s₁, []) ∧ Rests c journal s₁) ∨
      ∃ s₁, m.acquire (s, []) = (.ok (), s₁, []) ∧ Idles c journal s₁ := by
  rw [h.acquire_apply]
  have hacquired : Ends (fun _ => Idles c journal) (Rests c journal) (db.acquire s) := meets_acquire s hs
  rcases hresult : db.acquire s with ⟨e | _, s₁⟩ <;> rw [hresult] at hacquired
  · exact .inl ⟨e, s₁, rfl, hacquired⟩
  · exact .inr ⟨s₁, rfl, hacquired⟩

theorem withQuerier_of_refused {e : MigrationError} (hrefused : m.acquire (s, []) = (.error e, s₁, []))
    (work : Querier (Store δ × List QuerierCall) → Action (Store δ × List QuerierCall) α) :
    m.withQuerier work (s, []) = (.error e, s₁, []) := by
  rw [Migrator.withQuerier, bind_apply, hrefused]

/-- What a synchronization would run is read. -/
theorem diffStatements_of_read (h : db.Serves m) (hacquired : m.acquire (s, []) = (.ok (), s₁, []))
    {result : Except MigrationError (List String)}
    (hread : m.syncStatements m.querier options (s₁, []) = (result, s₂, queries)) (hs : Idles c journal s₂) :
    ∃ behind ends, m.diffStatements options (s, []) = (result, behind, queries ++ ends) ∧
      Rests c journal behind ∧ ∀ call ∈ ends, call.item.Returns :=
  h.withQuerier hacquired hread hs.toRests.settles fun _ => hs.pending

/-- Without statements to run a synchronization only reads. -/
theorem autoSync_of_idle (h : db.Serves m) (hacquired : m.acquire (s, []) = (.ok (), s₁, []))
    {result : Except MigrationError (List String)}
    (hread : m.syncStatements m.querier options (s₁, []) = (result, s₂, queries)) (hs : Idles c journal s₂)
    (hidle : ∀ texts, result = .ok texts → texts = []) :
    ∃ behind ends, m.autoSync options (s, []) = (result, behind, queries ++ ends) ∧
      Rests c journal behind ∧ ∀ call ∈ ends, call.item.Returns := by
  refine h.withQuerier hacquired ?_ hs.toRests.settles fun _ => hs.pending
  rw [bind_apply, hread]
  cases result with
  | error e => rfl
  | ok texts =>
    obtain rfl := hidle texts rfl
    rfl

/-- With statements to run a synchronization runs them as a whole. -/
theorem autoSync_of_statements (h : db.Serves m) (hacquired : m.acquire (s, []) = (.ok (), s₁, []))
    {texts : List String} (hread : m.syncStatements m.querier options (s₁, []) = (.ok texts, s₂, queries))
    (hs : Idles c journal s₂) (hsome : texts ≠ []) :
    ∃ result behind calls ends, m.autoSync options (s, []) = (result, behind, queries ++ calls ++ ends) ∧
      db.Runs c journal texts result behind calls ∧ ∀ call ∈ ends, call.item.Returns := by
  have hplain := h.plain_syncStatements (by rw [hread])
  refine h.runs hacquired hplain hs ?_
  rw [bind_apply, hread, h.kind]
  cases texts with
  | nil => exact absurd rfl hsome
  | cons first rest => rfl

/-- Dropping and creating all tables runs the statements for that as a whole, if there are any to be had. -/
theorem allOrNone_syncForce (h : db.Serves m) (hs : s.working? = none) :
    db.AllOrNone s (m.syncForce (s, [])) := by
  have hrests : Rests s.committed s.journal s := ⟨⟨rfl, rfl⟩, hs⟩
  obtain ⟨e, s₁, hrefused, hbehind⟩ | ⟨s₁, hacquired, hidles⟩ := h.acquire_cases hrests
  · rw [Migrator.syncForce, withQuerier_of_refused hrefused]
    exact allOrNone_of_error hbehind (List.forall_mem_nil _)
  · have hwork : m.work .syncForce m.querier (s₁, []) = (do
        let statements ← Action.ofSchema (m.recreateStatements db.dialect)
        Migrator.applyStatements m.querier statements
        return statements : Action (Store δ × List QuerierCall) (List String)) (s₁, []) := by
      rw [Migrator.work, Querier.requireDialect, h.kind]
      rfl
    change db.AllOrNone s (m.withQuerier (m.work .syncForce) (s, []))
    cases hrecreate : m.recreateStatements db.dialect with
    | error e =>
      rw [hrecreate] at hwork
      have hfailed : m.work .syncForce m.querier (s₁, []) = (.error (.schema e), s₁, []) := hwork
      obtain ⟨behind, ends, hforced, hbehind, hends⟩ :=
        h.withQuerier hacquired hfailed hidles.toRests.settles fun _ => hidles.pending
      rw [hforced]
      exact allOrNone_of_error hbehind fun call hcall => .inr (hends call hcall)
    | ok texts =>
      rw [hrecreate] at hwork
      obtain ⟨result, behind, calls, ends, hforced, hruns, hends⟩ :=
        h.runs hacquired (h.plain_recreateStatements hrecreate) hidles hwork
      rw [hforced]
      exact allOrNone_of_runs hruns (List.forall_mem_nil _) hends

/-- What a synchronization would run is read without running anything, and a synchronization either reads no more
than that or runs it as a whole. -/
theorem synchronization_cases (h : db.Serves m) (options : SyncOptions) (hs : Rests c journal s) :
    ∃ result behind log, m.diffStatements options (s, []) = (result, behind, log) ∧
      Rests c journal behind ∧ Querier.OnlyReads log ∧
      (∀ s₁, m.acquire (s, []) = (.ok (), s₁) → (m.syncStatements m.querier options s₁).1 = result) ∧
      ((∃ behind log, m.autoSync options (s, []) = (result, behind, log) ∧ Rests c journal behind ∧
          Querier.OnlyReads log ∧ ∀ texts, result = .ok texts → texts = []) ∨
        ∃ texts result' behind queries calls ends, result = .ok texts ∧
          m.autoSync options (s, []) = (result', behind, queries ++ calls ++ ends) ∧
          db.Runs c journal texts result' behind calls ∧ (∀ call ∈ queries, call.item.IsQuery) ∧
          ∀ call ∈ ends, call.item.Returns) := by
  obtain ⟨e, s₁, hrefused, hbehind⟩ | ⟨s₁, hacquired, hidles⟩ := h.acquire_cases hs
  · refine ⟨.error e, s₁, [], withQuerier_of_refused hrefused _, hbehind, nofun, fun s' hacquired => ?_,
      .inl ⟨s₁, [], withQuerier_of_refused hrefused _, hbehind, nofun, nofun⟩⟩
    cases hrefused.symm.trans hacquired
  · obtain ⟨result, s₂, queries, hread, hidles, hqueries⟩ := h.reads_syncStatements options hidles
    have honly : ∀ {ends : List QuerierCall}, (∀ call ∈ ends, call.item.Returns) →
        Querier.OnlyReads (queries ++ ends) := fun hends =>
      List.forall_mem_append.2
        ⟨fun call hcall => .inl (hqueries call hcall), fun call hcall => .inr (hends call hcall)⟩
    obtain ⟨behind, ends, hcompared, hbehind, hends⟩ := h.diffStatements_of_read hacquired hread hidles
    refine ⟨result, behind, _, hcompared, hbehind, honly hends, fun s' hacquired' => ?_, ?_⟩
    · cases hacquired.symm.trans hacquired'
      rw [hread]
    · by_cases hsome : ∃ texts, result = .ok texts ∧ texts ≠ []
      · obtain ⟨texts, rfl, hsome⟩ := hsome
        obtain ⟨result', behind', calls, ends', hsynced, hruns, hends'⟩ :=
          h.autoSync_of_statements hacquired hread hidles hsome
        exact .inr ⟨texts, result', behind', queries, calls, ends', rfl, hsynced, hruns, hqueries, hends'⟩
      · have hidle : ∀ texts, result = .ok texts → texts = [] := fun texts hok =>
          Classical.not_not.1 fun hne => hsome ⟨texts, hok, hne⟩
        obtain ⟨behind', ends', hsynced, hbehind', hends'⟩ := h.autoSync_of_idle hacquired hread hidles hidle
        exact .inl ⟨behind', _, hsynced, hbehind', honly hends', hidle⟩

/-- Whatever is refused, a synchronization is all or nothing, and so is dropping and creating all tables. A column
change that the dialect cannot express keeps a synchronization from running anything. What a synchronization would
run can be read without running anything: it is what a synchronization returns, unless one of those statements is
refused or a command about their transaction. -/
theorem allOrNone_synchronization (h : db.Serves m) (options : SyncOptions) (hs : s.working? = none) :
    let synced := m.autoSync options (s, [])
    let compared := m.diffStatements options (s, [])
    db.AllOrNone s synced ∧ db.AllOrNone s (m.syncForce (s, [])) ∧
      (∀ s₁ desired live, m.acquire (s, []) = (.ok (), s₁) →
        m.Syncs m.querier s₁ db.dialect desired live →
        ∀ entry ∈ ((desired.normalizeTypes db.dialect).diff live m.diffOptions).columns,
        ∀ change : ColumnChange, entry.2.change = .alter change.old change.new →
        ∀ e, change.statements db.dialect entry.1 = .error e →
          (∃ e, synced.1 = .error e) ∧ Querier.OnlyReads synced.2.2) ∧
      Rests s.committed s.journal compared.2.1 ∧ Querier.OnlyReads compared.2.2 ∧
      (∀ texts, synced.1 = .ok texts → compared.1 = .ok texts) ∧
      (∀ e, compared.1 = .error e → synced.1 = .error e) ∧
      ∀ texts, compared.1 = .ok texts → synced.1 = .ok texts ∨
        ∃ call ∈ synced.2.2, call.succeeded = false ∧
          call.item ∈ QuerierUse.start :: ((Querier.executed texts).map .run ++ [.commit]) := by
  intro synced compared
  have hrests : Rests s.committed s.journal s := ⟨⟨rfl, rfl⟩, hs⟩
  have hunsupported : ∀ {result s₁ desired live},
      (∀ s₁, m.acquire (s, []) = (.ok (), s₁) → (m.syncStatements m.querier options s₁).1 = result) →
      m.acquire (s, []) = (.ok (), s₁) → m.Syncs m.querier s₁ db.dialect desired live →
      ∀ entry ∈ ((desired.normalizeTypes db.dialect).diff live m.diffOptions).columns,
      ∀ change : ColumnChange, entry.2.change = .alter change.old change.new →
      ∀ e, change.statements db.dialect entry.1 = .error e → ∃ e, result = .error e := by
    intro result s₁ desired live hresult hacquired hsyncs entry hentry change hchange e hunsupported
    rw [← hresult s₁ hacquired]
    exact hsyncs.exists_error_of_unsupported options hentry hchange hunsupported
  obtain ⟨result, behind, log, hcompared, hbehind, hlog, hresult, hcases⟩ := h.synchronization_cases options hrests
  have hcompare : compared = (result, behind, log) := hcompared
  obtain ⟨behind', log', hsynced, hbehind', hlog', hidle⟩ |
    ⟨texts, result', behind', queries, calls, ends, rfl, hsynced, hruns, hqueries, hends⟩ := hcases
  · have hsync : synced = (result, behind', log') := hsynced
    rw [hcompare, hsync]
    refine ⟨allOrNone_of_reads hbehind' hlog' hidle, h.allOrNone_syncForce hs, ?_, hbehind, hlog, fun _ => id,
      fun _ => id, fun _ => .inl⟩
    intro s₁ desired live hacquired hsyncs entry hentry change hchange e he
    exact ⟨hunsupported hresult hacquired hsyncs entry hentry change hchange e he, hlog'⟩
  · have hsync : synced = (result', behind', queries ++ calls ++ ends) := hsynced
    rw [hcompare, hsync]
    refine ⟨allOrNone_of_runs hruns hqueries hends, h.allOrNone_syncForce hs, ?_, hbehind, hlog, ?_, nofun, ?_⟩
    · intro s₁ desired live hacquired hsyncs entry hentry change hchange e he
      obtain ⟨_, hfailed⟩ := hunsupported hresult hacquired hsyncs entry hentry change hchange e he
      cases hfailed
    · rintro found hfound
      cases hruns with
      | lasting => exact hfound
      | refused => cases hfound
    · rintro _ ⟨⟩
      cases hruns with
      | lasting => exact .inl rfl
      | refused _ hcall hfailed hitem =>
        exact .inr ⟨_, List.mem_append_left _ (List.mem_append_right _ hcall), hfailed, hitem⟩

/-- A commit that is refused takes the table back, which the statements were read to create. -/
theorem allOrNone_synchronization_refused :
    let db : Database (List String) :=
      { dialect := .sqlite
        execute := fun sql state => state ++ [sql]
        query := fun _ _ => []
        fails? := fun time => if time = 4 then some { error := .database "refused" } else none }
    let m : Migrator (Store (List String) × List QuerierCall) :=
      { acquire := db.acquire.beside
        querier := db.pooledQuerier.logged
        history := .inTable "t" "n"
        introspect? := some Sqlite.introspect
        registry :=
          Registry.ofList [({ name := "Note", id := "id" } : Entity).withField "id" { type := .integer }] }
    let s : Store (List String) := { committed := [] }
    let text := "CREATE TABLE \"Note\" (\"id\" INTEGER PRIMARY KEY)"
    db.Serves m ∧ s.working? = none ∧ db.AllOrNone s (m.autoSync {} (s, [])) ∧
      (m.autoSync {} (s, [])).1 = .error (.database "refused") ∧
      (m.autoSync {} (s, [])).2.1.committed = [] ∧
      (m.diffStatements {} (s, [])).1 = .ok [text] ∧
      ∃ call ∈ (m.autoSync {} (s, [])).2.2, call.succeeded = false ∧
        call.item ∈ [QuerierUse.start, .run text, .commit] := by
  intro db m s text
  have hserves : db.Serves m :=
    { acquire := rfl
      querier := rfl
      reads := by
        rintro introspect ⟨⟩
        exact Sqlite.uses_introspect m.querier
      plain := fun _ => rfl }
  obtain ⟨hwhole, -, -, -, -, -, -, hlist⟩ := allOrNone_synchronization hserves {} (s := s) rfl
  have hrefused : (m.autoSync {} (s, [])).1 = .error (.database "refused") := by decide +kernel
  have hcompared : (m.diffStatements {} (s, [])).1 = .ok [text] := by decide +kernel
  refine ⟨hserves, rfl, hwhole, hrefused, (hwhole.none _ hrefused).1, hcompared, ?_⟩
  have hexecuted : Querier.executed [text] = [text] := by decide +kernel
  obtain hok | hfailed := hlist [text] hcompared
  · cases hrefused.symm.trans hok
  · rwa [hexecuted] at hfailed

end Database.Serves

end EntitySql
