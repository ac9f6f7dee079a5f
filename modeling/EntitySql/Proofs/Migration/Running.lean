import EntitySql.Proofs.Migration.HandingBack
/-!
# The migrations that a call runs

A call selects some of the known migrations and runs them one after the other up to the first that fails. What it
does on the way is seen by watching it (`Migrator.watched`): the begin and the end of each transaction that it
opens itself, each action of a migration and each entry in the history are written down together with whether they
succeeded. Watching changes nothing else.

What is tried for one migration follows a plan (`MigrationTask.plan`) up to the first task that fails, and the
migrations of a call are tried in the same manner (`Tried.Follows`): a migration fails where one of its tasks does,
and the call ends there. A migration whose transaction cannot be begun fails before its action.
-/

namespace EntitySql

open EntitySql.Action

/-! ## What is tried for a migration -/

variable {σ α β : Type}

/-- One thing that is tried for a migration. -/
inductive MigrationTask (σ : Type)
  /-- A transaction is begun. -/
  | start
  /-- The action of a migration is run. -/
  | act (migration : Migration σ) (direction : MigrationDirection)
  /-- The history is kept in line. -/
  | record (name : String) (direction : MigrationDirection)
  /-- The transaction is committed. -/
  | commit

namespace MigrationTask

/-- What has to be done for a migration in order, in a transaction of its own or in one that is open already. -/
def plan (owned : Bool) (direction : MigrationDirection) (migration : Migration σ) : List (MigrationTask σ) :=
  let inside := [.act migration direction, .record migration.name direction]
  if owned then .start :: (inside ++ [.commit]) else inside

/-- The migration whose action is run. -/
def migration? : MigrationTask σ → Option (Migration σ)
  | act migration _ => some migration
  | _ => none

/-- The migrations whose actions were run, be it with success or without. -/
def migrationsRun (tried : List (Tried (MigrationTask σ))) : List (Migration σ) :=
  tried.filterMap (·.item.migration?)

/-- Without an action in the plan no action is run. -/
theorem migrationsRun_of_none {plan : List (MigrationTask σ)} {tried : List (Tried (MigrationTask σ))}
    (hplan : ∀ task ∈ plan, task.migration? = none) (h : Tried.Follows plan tried) : migrationsRun tried = [] := by
  rw [migrationsRun, List.filterMap_eq_nil_iff]
  exact fun t ht => hplan t.item (h.item_mem ht)

end MigrationTask

/-- One migration of a call. -/
structure MigrationTrial (σ : Type) where
  migration : Migration σ
  /-- Whether the migration had to have a transaction of its own. -/
  owned : Bool
  /-- What was tried for the migration. -/
  tried : List (Tried (MigrationTask σ))
  /-- Why the migration failed, if it did. -/
  error? : Option MigrationError

namespace MigrationTrial

/-- How a migration is reported. -/
def step (direction : MigrationDirection) (t : MigrationTrial σ) : MigrationStep :=
  { name := t.migration.name, direction, error? := t.error? }

/-- The migration and whether it succeeded. -/
def outcome (t : MigrationTrial σ) : Tried (Migration σ) := ⟨t.migration, t.error?.isNone⟩

/-- Whether the transaction of the migration could not be begun. -/
def Refused (t : MigrationTrial σ) : Prop := t.tried = [⟨.start, false⟩]

/-- What is tried for a migration follows the plan, and the migration succeeds if all of it does. -/
structure Conforms (direction : MigrationDirection) (t : MigrationTrial σ) : Prop where
  plan : Tried.Follows (MigrationTask.plan t.owned direction t.migration) t.tried
  success : t.error?.isNone = t.tried.all (·.succeeded)

/-- The action is run unless the transaction is refused, in which case the migration fails. -/
theorem Conforms.migrationsRun {direction : MigrationDirection} {t : MigrationTrial σ} (h : t.Conforms direction) :
    ¬t.Refused ∧ MigrationTask.migrationsRun t.tried = [t.migration] ∨
      t.Refused ∧ MigrationTask.migrationsRun t.tried = [] ∧ t.error?.isNone = false := by
  obtain ⟨migration, owned, tried, error?⟩ := t
  obtain ⟨hplan, hsuccess⟩ := h
  -- Whatever is behind the action is no action.
  have hacted : ∀ {behind : List (MigrationTask σ)} {tried : List (Tried (MigrationTask σ))},
      (∀ task ∈ behind, task.migration? = none) → Tried.Follows (.act migration direction :: behind) tried →
        MigrationTask.migrationsRun tried = [migration] ∧ tried ≠ [⟨.start, false⟩] := by
    intro behind tried hnone hfollows
    cases hfollows with
    | failed => exact ⟨rfl, nofun⟩
    | succeeded _ hbehind =>
      refine ⟨?_, nofun⟩
      change migration :: MigrationTask.migrationsRun _ = _
      rw [MigrationTask.migrationsRun_of_none hnone hbehind]
  cases owned with
  | false =>
    obtain ⟨hrun, hbegun⟩ := hacted (by simp [MigrationTask.migration?]) hplan
    exact .inl ⟨hbegun, hrun⟩
  | true =>
    cases hplan with
    | failed => exact .inr ⟨rfl, rfl, hsuccess⟩
    | succeeded _ hinside =>
      obtain ⟨hrun, -⟩ := hacted (by simp [MigrationTask.migration?]) hinside
      refine .inl ⟨fun hrefused => ?_, hrun⟩
      cases congrArg (·.head?.map Tried.succeeded) hrefused

end MigrationTrial

/-! ## Watching -/

/-- The querier that writes down how the transactions are begun and committed that are asked of it. -/
def Querier.watched (q : Querier σ) : Querier (σ × List (Tried (MigrationTask σ))) where
  kind := q.kind
  isOpen s := q.isOpen s.1
  all sql := (q.all sql).beside
  run sql := (q.run sql).beside
  beginTransaction := q.beginTransaction.noted .start
  commitTransaction := q.commitTransaction.noted .commit
  rollbackTransaction := q.rollbackTransaction.beside
  release := q.release.beside
  discard := q.discard.beside
  runCommand c := (q.runCommand c).beside

/-- The migration that does its actions on the given querier and writes that down. -/
def Migration.watched (q : Querier σ) (migration : Migration σ) :
    Migration (σ × List (Tried (MigrationTask σ))) where
  name := migration.name
  up _ := (migration.up q).noted (.act migration .up)
  down _ := (migration.down q).noted (.act migration .down)

/-- The migrator that writes down what it does for migrations. -/
def Migrator.watched (m : Migrator σ) : Migrator (σ × List (Tried (MigrationTask σ))) where
  acquire := m.acquire.beside
  querier := m.querier.watched
  history :=
    { ensure := fun _ => (m.history.ensure m.querier).beside
      executed := fun _ => (m.history.executed m.querier).beside
      add := fun _ name => (m.history.add m.querier name).noted (.record name .up)
      remove := fun _ name => (m.history.remove m.querier name).noted (.record name .down)
      tables := m.history.tables }
  introspect? := m.introspect?.map fun introspect _ => (introspect m.querier).beside
  registry := m.registry
  migrations := m.migrations.map (Migration.watched m.querier)
  excludeTables := m.excludeTables

theorem Querier.watchesScopes_watched (q : Querier σ) :
    q.WatchesScopes MigrationTask.start .commit (fun _ => False) q.watched where
  isOpen _ _ := rfl
  begin := rfl
  commit := rfl
  rollback _ log := ⟨[], by rw [List.append_nil]; rfl, nofun⟩

namespace Migrator

variable (m : Migrator σ) (direction : MigrationDirection)

/-- What a step does for a migration inside its transaction. -/
def stepWork (q : Querier σ) (migration : Migration σ) : Action σ Unit := do
  migration.run direction q
  match direction with
  | .up => m.history.add q migration.name
  | .down => m.history.remove q migration.name

theorem runStep_eq (q : Querier σ) (migration : Migration σ) :
    m.runStep q direction migration = q.transactional .required (m.stepWork direction q migration) := rfl

/-- A step tries what the plan for its migration says, in a transaction of its own if none is open. -/
theorem watches_runStep (migration : Migration σ) (s : σ) (log : List (Tried (MigrationTask σ))) :
    ∃ owned tried, m.watched.runStep m.watched.querier direction (migration.watched m.querier) (s, log) =
        ((m.runStep m.querier direction migration s).1, (m.runStep m.querier direction migration s).2,
          log ++ tried) ∧
      Tried.Follows (MigrationTask.plan owned direction migration) tried ∧
      (m.runStep m.querier direction migration s).1.isOk = tried.all (·.succeeded) := by
  have hwork : Watches [.act migration direction, .record migration.name direction]
      (m.stepWork direction m.querier migration)
      (m.watched.stepWork direction m.watched.querier (migration.watched m.querier)) := by
    cases direction <;> exact (Watches.noted _ _).bind fun _ => .noted _ _
  by_cases hclosed : m.querier.isOpen s = false
  · obtain ⟨tried, ends, hwatched, hplan, hsuccess, -, hends⟩ :=
      m.querier.watchesScopes_watched.transactional hwork hclosed log
    obtain rfl : ends = [] := List.eq_nil_iff_forall_not_mem.2 hends
    rw [List.append_nil] at hwatched
    exact ⟨true, tried, hwatched, hplan, hsuccess⟩
  · have hjoined : ¬(Propagation.required = .required ∧ m.querier.isOpen s = false) := fun h => hclosed h.2
    have henter := TransactionScope.enter_of_joined m.querier hjoined
    have hentered : TransactionScope.enter m.watched.querier .required (s, log) = (.ok ⟨false⟩, s, log) :=
      TransactionScope.enter_of_joined m.querier.watched hjoined
    obtain ⟨tried, hwatched, hplan, hsuccess⟩ := hwork s log
    rw [runStep_eq, runStep_eq, Querier.transactional_of_joined henter, Querier.transactional_of_joined hentered]
    exact ⟨false, tried, hwatched, hplan, hsuccess⟩

/-- A step that fails is the last one. -/
theorem runSteps_of_failed {m : Migrator σ} {q : Querier σ} {direction : MigrationDirection}
    {migration : Migration σ} {s s' : σ} {e : MigrationError}
    (h : m.runStep q direction migration s = (.error e, s')) (rest : List (Migration σ)) :
    m.runSteps q direction (migration :: rest) s =
      (.ok [{ name := migration.name, direction, error? := some e }], s') := by
  have hattempt : (m.runStep q direction migration).attempt s = (.ok (.error e), s') := by
    rw [Action.attempt, h]
  rw [runSteps, bind_apply, hattempt]
  rfl

/-- Behind a step that succeeds the others follow. -/
theorem runSteps_of_succeeded {m : Migrator σ} {q : Querier σ} {direction : MigrationDirection}
    {migration : Migration σ} {s s' : σ} (h : m.runStep q direction migration s = (.ok (), s'))
    (rest : List (Migration σ)) :
    m.runSteps q direction (migration :: rest) s =
      ((m.runSteps q direction rest s').1.map ({ name := migration.name, direction, error? := none } :: ·),
        (m.runSteps q direction rest s').2) := by
  have hattempt : (m.runStep q direction migration).attempt s = (.ok (.ok ()), s') := by
    rw [Action.attempt, h]
  rw [runSteps, bind_apply, hattempt]
  dsimp only
  rw [bind_apply]
  rcases m.runSteps q direction rest s' with ⟨_ | _, _⟩ <;> rfl

/-- The migrations of a call are tried up to the first that fails, and all that are tried are reported. -/
theorem watches_runSteps (migrations : List (Migration σ)) (s : σ) (log : List (Tried (MigrationTask σ))) :
    ∃ trials : List (MigrationTrial σ),
      m.watched.runSteps m.watched.querier direction (migrations.map (Migration.watched m.querier)) (s, log) =
        (.ok (trials.map (·.step direction)), (m.runSteps m.querier direction migrations s).2,
          log ++ trials.flatMap (·.tried)) ∧
      (m.runSteps m.querier direction migrations s).1 = .ok (trials.map (·.step direction)) ∧
      (∀ t ∈ trials, t.Conforms direction) ∧ Tried.Follows migrations (trials.map (·.outcome)) := by
  induction migrations generalizing s log with
  | nil => exact ⟨[], by rw [List.flatMap_nil, List.append_nil]; rfl, rfl, nofun, .nil⟩
  | cons migration rest ih =>
    obtain ⟨owned, tried, hwatched, hplan, hsuccess⟩ := watches_runStep m direction migration s log
    rcases hresult : m.runStep m.querier direction migration s with ⟨e | _, s₁⟩ <;>
      rw [hresult] at hwatched hsuccess
    · refine ⟨[{ migration, owned, tried, error? := some e }], ?_, ?_, ?_, .failed migration rest⟩
      · rw [List.map_cons, runSteps_of_failed hwatched, runSteps_of_failed hresult, List.flatMap_singleton]
        rfl
      · rw [runSteps_of_failed hresult]
        rfl
      · exact List.forall_mem_singleton.2 ⟨hplan, hsuccess⟩
    · obtain ⟨trials, hrest, hsteps, hconform, hfollows⟩ := ih s₁ (log ++ tried)
      refine ⟨{ migration, owned, tried, error? := none } :: trials, ?_, ?_, ?_, .succeeded migration hfollows⟩
      · rw [List.map_cons, runSteps_of_succeeded hwatched, hrest, runSteps_of_succeeded hresult,
          List.flatMap_cons, List.append_assoc]
        rfl
      · rw [runSteps_of_succeeded hresult, hsteps]
        rfl
      · exact List.forall_mem_cons.2 ⟨⟨hplan, hsuccess⟩, hconform⟩

end Migrator

/-! ## Which migrations are selected -/

namespace MigrationDirection

/-- Whether a migration of the name can be run in the direction. -/
def concerns (applied : List String) (name : String) : MigrationDirection → Bool
  | up => !applied.contains name
  | down => applied.contains name

/-- Whether a name may come before another one. -/
def Ordered : MigrationDirection → String → String → Prop
  | up, first, second => first ≤ second
  | down, first, second => second ≤ first

end MigrationDirection

/-- Whether a list holds the known migrations that can be run in the direction, in the order in which they are. -/
structure MigrationDirection.Candidates (direction : MigrationDirection) (known : List (Migration σ))
    (applied : List String) (candidates : List (Migration σ)) : Prop where
  perm : candidates.Perm (known.filter fun migration => direction.concerns applied migration.name)
  order : candidates.Pairwise fun first second => direction.Ordered first.name second.name

theorem Migrator.candidates_of_sorted {m : Migrator σ} {known : List (Migration σ)}
    (hknown : m.migrations = Migration.sorted known) (direction : MigrationDirection) (applied : List String) :
    direction.Candidates known applied (m.candidates direction applied) := by
  have hsort := Migration.isStableSort_sorted known
  rw [← hknown] at hsort
  cases direction with
  | up => exact ⟨hsort.perm.filter _, hsort.isAscending.sublist List.filter_sublist⟩
  | down =>
    exact ⟨((List.reverse_perm _).trans hsort.perm).filter _,
      (List.pairwise_reverse.2 hsort.isAscending).sublist List.filter_sublist⟩

/-- Whether the selected ones are the candidates up to the first of the bound's name, and of them only so many as
the bound says. -/
structure MigrationBounds.Cuts (b : MigrationBounds) (candidates upTo selected : List (Migration σ)) : Prop where
  all : b.last? = none → upTo = candidates
  last : ∀ name, b.last? = some name → ∃ before last after, candidates = before ++ last :: after ∧
    last.name = name ∧ (∀ migration ∈ before, migration.name ≠ name) ∧ upTo = before ++ [last]
  count : selected = match b.count? with
    | some count => upTo.take count
    | none => upTo

namespace MigrationBounds

/-- A bound by name cuts the candidates or is no name of any of them. -/
theorem cuts_or_notFound (b : MigrationBounds) (candidates : List (Migration σ)) :
    (∃ upTo selected, b.select candidates = .ok selected ∧ b.Cuts candidates upTo selected) ∨
      ∃ name, b.last? = some name ∧ (∀ migration ∈ candidates, migration.name ≠ name) ∧
        b.select candidates = .error (.notFound name) := by
  obtain ⟨last?, count?⟩ := b
  cases last? with
  | none => exact .inl ⟨candidates, _, rfl, fun _ => rfl, nofun, rfl⟩
  | some name =>
    cases hposition : candidates.findIdx? (·.name == name) with
    | none =>
      refine .inr ⟨name, rfl, fun migration hmem heq => ?_, ?_⟩
      · have hnone := List.findIdx?_eq_none_iff.1 hposition migration hmem
        simp [heq] at hnone
      · simp only [select, hposition]
        rfl
    | some position =>
      obtain ⟨hlt, hname, hbefore⟩ := List.findIdx?_eq_some_iff_getElem.1 hposition
      refine .inl ⟨candidates.take (position + 1), _, by simp only [select, hposition]; rfl, nofun, ?_, rfl⟩
      rintro _ ⟨⟩
      refine ⟨candidates.take position, candidates[position], candidates.drop (position + 1), ?_, ?_, ?_, ?_⟩
      · rw [← List.drop_eq_getElem_cons, List.take_append_drop]
      · exact beq_iff_eq.1 hname
      · intro migration hmem heq
        obtain ⟨i, hi, rfl⟩ := List.mem_take_iff_getElem.1 hmem
        exact hbefore i (by omega) (beq_iff_eq.2 heq)
      · rw [List.take_succ_eq_append_getElem hlt]

/-- What is selected depends on the names alone. -/
theorem select_map {τ : Type} (b : MigrationBounds) {f : Migration σ → Migration τ}
    (hf : ∀ migration, (f migration).name = migration.name) (candidates : List (Migration σ)) :
    b.select (candidates.map f) = (b.select candidates).map (List.map f) := by
  have hposition : ∀ name,
      (candidates.map f).findIdx? (·.name == name) = candidates.findIdx? (·.name == name) := by
    intro name
    rw [List.findIdx?_map]
    simp only [Function.comp_def, hf]
  obtain ⟨last?, count?⟩ := b
  cases last? with
  | none => cases count? <;> simp [select, List.map_take, Except.map]
  | some name =>
    simp only [select, hposition]
    cases candidates.findIdx? (·.name == name) with
    | none => rfl
    | some position => cases count? <;> simp [List.map_take, Except.map]

end MigrationBounds

/-! ## The migrations of a call -/

/-- What a call makes of the migrations that it selects: what it reports of them and what it tries on the way. -/
structure MigrationTrial.Account (direction : MigrationDirection) (selected : List (Migration σ))
    (steps : List MigrationStep) (tried : List (Tried (MigrationTask σ))) (trials : List (MigrationTrial σ)) :
    Prop where
  /-- The migrations are tried in order up to the first that fails. -/
  order : Tried.Follows selected (trials.map (·.outcome))
  /-- A migration fails where something does that has to be done for it. -/
  conforms : ∀ t ∈ trials, t.Conforms direction
  /-- All migrations that are tried are reported, and no others. -/
  reported : steps = trials.map (·.step direction)
  /-- Nothing is tried but for these migrations. -/
  covered : tried = trials.flatMap (·.tried)
  /-- The actions that are run are those of these migrations in order, save the last one's if its transaction
  cannot be begun. -/
  actions : MigrationTask.migrationsRun tried = trials.map (·.migration) ∨
    ∃ before last, trials = before ++ [last] ∧ last.Refused ∧
      MigrationTask.migrationsRun tried = before.map (·.migration)

/-- Only the last of the migrations that are tried can be one whose transaction is refused. -/
theorem MigrationTrial.migrationsRun_flatMap {direction : MigrationDirection} {selected : List (Migration σ)}
    {trials : List (MigrationTrial σ)} (horder : Tried.Follows selected (trials.map (·.outcome)))
    (hconforms : ∀ t ∈ trials, t.Conforms direction) :
    MigrationTask.migrationsRun (trials.flatMap (·.tried)) = trials.map (·.migration) ∨
      ∃ before last, trials = before ++ [last] ∧ last.Refused ∧
        MigrationTask.migrationsRun (trials.flatMap (·.tried)) = before.map (·.migration) := by
  induction trials generalizing selected with
  | nil => exact .inl rfl
  | cons t rest ih =>
    obtain ⟨hfirst, hconforms⟩ := List.forall_mem_cons.1 hconforms
    have hrun : MigrationTask.migrationsRun ((t :: rest).flatMap (·.tried)) =
        MigrationTask.migrationsRun t.tried ++ MigrationTask.migrationsRun (rest.flatMap (·.tried)) := by
      rw [List.flatMap_cons, MigrationTask.migrationsRun, List.filterMap_append]
      rfl
    rw [hrun]
    obtain ⟨others, -, ⟨hfailed, hlast⟩ | ⟨hsucceeded, horder⟩⟩ := horder.of_cons
    · obtain rfl : rest = [] := List.map_eq_nil_iff.1 hlast
      obtain ⟨-, hown⟩ | ⟨hrefused, hown, -⟩ := hfirst.migrationsRun
      · exact .inl (by rw [hown]; rfl)
      · exact .inr ⟨[], t, rfl, hrefused, by rw [hown]; rfl⟩
    · obtain ⟨-, hown⟩ | ⟨-, -, hfailed⟩ := hfirst.migrationsRun
      · rw [hown]
        refine (ih horder hconforms).imp ?_ ?_
        · intro hrest
          rw [hrest]
          rfl
        · rintro ⟨before, last, rfl, hrefused, hbefore⟩
          exact ⟨t :: before, last, rfl, hrefused, by rw [hbefore]; rfl⟩
      · exact absurd (hsucceeded.symm.trans hfailed) (by decide)

namespace Migrator

/-- A call whose connection is taken and given back comes to what it does with the connection. -/
theorem migrate_of_released {m : Migrator σ} {d : Dialect} (hsql : m.querier.kind = .sql d)
    {direction : MigrationDirection} {bounds : MigrationBounds} {s s₁ s₂ s' : σ}
    {result : Except MigrationError (List MigrationStep)} (hacquired : m.acquire s = (.ok (), s₁))
    (hworked : m.migrateWith m.querier direction bounds s₁ = (result, s₂))
    (hreleased : m.querier.release s₂ = (.ok (), s')) : m.migrate direction bounds s = (result, s') := by
  rw [migrate, withQuerier, bind_apply, hacquired]
  simp only [hsql]
  rw [Querier.releaseAfter_apply, hworked]
  simp only [hreleased]

/-- What is done with the connection once the history has been read. -/
theorem migrateWith_of_read {m : Migrator σ} {q : Querier σ} {applied : List String} {s s' : σ}
    (hread : m.readHistory q s = (.ok applied, s')) (direction : MigrationDirection) (bounds : MigrationBounds) :
    m.migrateWith q direction bounds s =
      match bounds.select (m.candidates direction applied) with
      | .ok selected => m.runSteps q direction selected s'
      | .error e => (.error e, s') := by
  rw [migrateWith, bind_apply, hread]
  dsimp only
  cases bounds.select (m.candidates direction applied) <;> rfl

variable {m : Migrator σ}

theorem readHistory_watched {applied : List String} {s s' : σ}
    (hread : m.readHistory m.querier s = (.ok applied, s')) (log : List (Tried (MigrationTask σ))) :
    m.watched.readHistory m.watched.querier (s, log) = (.ok applied, s', log) := by
  have hensured : m.watched.history.ensure m.watched.querier (s, log) =
      ((m.history.ensure m.querier s).1, (m.history.ensure m.querier s).2, log) := rfl
  rw [readHistory, bind_apply] at hread ⊢
  rw [hensured]
  rcases hresult : m.history.ensure m.querier s with ⟨e | _, s₁⟩ <;> rw [hresult] at hread
  · cases hread
  · have hexecuted : m.history.executed m.querier s₁ = (.ok applied, s') := hread
    change ((m.history.executed m.querier s₁).1, (m.history.executed m.querier s₁).2, log) = _
    rw [hexecuted]

theorem candidates_watched (direction : MigrationDirection) (applied : List String) :
    m.watched.candidates direction applied =
      (m.candidates direction applied).map (Migration.watched m.querier) := by
  cases direction with
  | up => exact List.filter_map
  | down =>
    change List.filter _ (List.reverse (List.map _ _)) = _
    rw [← List.map_reverse]
    exact List.filter_map

/-- What comes of the candidates once the history has been read. -/
theorem account_migrateWith {applied : List String} {s s' : σ}
    (hread : m.readHistory m.querier s = (.ok applied, s')) (direction : MigrationDirection)
    (bounds : MigrationBounds) :
    ∃ result behind tried,
      m.migrateWith m.querier direction bounds s = (result, behind) ∧
      m.watched.migrateWith m.watched.querier direction bounds (s, []) = (result, behind, tried) ∧
      (∀ name, bounds.last? = some name →
        (∀ migration ∈ m.candidates direction applied, migration.name ≠ name) →
          result = .error (.notFound name) ∧ tried = []) ∧
      ((∀ name, bounds.last? = some name →
        ∃ migration ∈ m.candidates direction applied, migration.name = name) →
          ∃ upTo selected steps trials, bounds.Cuts (m.candidates direction applied) upTo selected ∧
            result = .ok steps ∧ MigrationTrial.Account direction selected steps tried trials) := by
  have hworked := migrateWith_of_read hread direction bounds
  have hwatched := migrateWith_of_read (readHistory_watched hread []) direction bounds
  rw [candidates_watched, MigrationBounds.select_map bounds (f := Migration.watched m.querier) fun _ => rfl]
    at hwatched
  obtain ⟨upTo, selected, hselected, hcuts⟩ | ⟨name, hlast, hnone, hselected⟩ :=
    bounds.cuts_or_notFound (m.candidates direction applied) <;> rw [hselected] at hworked hwatched
  · obtain ⟨trials, hrun, hsteps, hconforms, horder⟩ := watches_runSteps m direction selected s' []
    refine ⟨_, _, _, hworked.trans (Prod.ext hsteps rfl), hwatched.trans hrun, ?_, ?_⟩
    · intro name hlast hnone
      obtain ⟨before, last, after, hsplit, hname, -⟩ := hcuts.last name hlast
      exact absurd hname (hnone last (by simp [hsplit]))
    · exact fun _ => ⟨upTo, selected, _, trials, hcuts, rfl, horder, hconforms, rfl, rfl,
        MigrationTrial.migrationsRun_flatMap horder hconforms⟩
  · refine ⟨_, _, _, hworked, hwatched, ?_, ?_⟩
    · intro other hother _
      cases hlast.symm.trans hother
      exact ⟨rfl, rfl⟩
    · intro hsome
      obtain ⟨migration, hmem, hname⟩ := hsome name hlast
      exact absurd hname (hnone migration hmem)

/-- Once the history has been read, a call on a connection that is taken back runs the candidates within its bounds
up to the first that fails and reports those. A bound that names no candidate is an error before anything is
tried. -/
theorem account_migrate {known : List (Migration σ)} (hknown : m.migrations = Migration.sorted known) {d : Dialect}
    (hsql : m.querier.kind = .sql d) (direction : MigrationDirection) (bounds : MigrationBounds) {s s₁ s₂ s' : σ}
    {applied : List String} (hacquired : m.acquire s = (.ok (), s₁))
    (hread : m.readHistory m.querier s₁ = (.ok applied, s₂))
    (hreleased : m.querier.release (m.migrateWith m.querier direction bounds s₁).2 = (.ok (), s')) :
    ∃ candidates result tried,
      direction.Candidates known applied candidates ∧
      m.migrate direction bounds s = (result, s') ∧
      m.watched.migrate direction bounds (s, []) = (result, s', tried) ∧
      (∀ name, bounds.last? = some name → (∀ migration ∈ candidates, migration.name ≠ name) →
        result = .error (.notFound name) ∧ tried = []) ∧
      ((∀ name, bounds.last? = some name → ∃ migration ∈ candidates, migration.name = name) →
        ∃ upTo selected steps trials, bounds.Cuts candidates upTo selected ∧ result = .ok steps ∧
          MigrationTrial.Account direction selected steps tried trials) := by
  obtain ⟨result, behind, tried, hworked, hwatched, haccount⟩ := account_migrateWith hread direction bounds
  rw [hworked] at hreleased
  have hacquired' : m.watched.acquire (s, []) = (.ok (), s₁, []) := by
    change ((m.acquire s).1, (m.acquire s).2, []) = _
    rw [hacquired]
  have hreleased' : m.watched.querier.release (behind, tried) = (.ok (), s', tried) := by
    change ((m.querier.release behind).1, (m.querier.release behind).2, tried) = _
    rw [hreleased]
  exact ⟨_, result, tried, candidates_of_sorted hknown direction applied,
    migrate_of_released hsql hacquired hworked hreleased,
    migrate_of_released (m := m.watched) hsql hacquired' hwatched hreleased', haccount⟩

/-- Of four known migrations one is applied, one succeeds, one fails and one is never tried. -/
theorem account_migrate_failing :
    let known := ["d", "b", "a", "c"].map fun name =>
      (Migration.ofStatements name ["CREATE TABLE " ++ name] [] : Migration Recording)
    let m : Migrator Recording :=
      { acquire := Recording.acquire
        querier := Recording.querier { failOn := ["CREATE TABLE c"] }
        history := { Recording.history [] with executed := fun _ => do return (← get).applied }
        migrations := Migration.sorted known }
    let bounds : MigrationBounds := { last? := some "d", count? := some 7 }
    let s : Recording := { applied := ["a", "z"] }
    m.querier.kind = .sql .sqlite ∧ m.acquire s = (.ok (), s) ∧
      m.readHistory m.querier s = (.ok ["a", "z"], s) ∧
      (m.querier.release (m.migrateWith m.querier .up bounds s).2).1 = .ok () ∧
      ∃ candidates steps tried upTo selected trials,
        MigrationDirection.up.Candidates known ["a", "z"] candidates ∧
        (m.watched.migrate .up bounds (s, [])).1 = .ok steps ∧
        (m.watched.migrate .up bounds (s, [])).2.2 = tried ∧
        bounds.Cuts candidates upTo selected ∧ MigrationTrial.Account .up selected steps tried trials ∧
        steps.map (fun step => (step.name, step.success)) = [("b", true), ("c", false)] ∧
        (MigrationTask.migrationsRun tried).map (·.name) = ["b", "c"] := by
  intro known m bounds s
  have hread : m.readHistory m.querier s = (.ok ["a", "z"], s) := rfl
  have hreleased : (m.querier.release (m.migrateWith m.querier .up bounds s).2).1 = .ok () := by decide +kernel
  have hacquired : m.acquire s = (.ok (), s) := rfl
  have hsql : m.querier.kind = .sql .sqlite := rfl
  have hsorted : m.migrations = Migration.sorted known := rfl
  obtain ⟨candidates, result, tried, hcandidates, -, hwatched, -, hfound⟩ :=
    account_migrate hsorted hsql .up bounds hacquired hread (Prod.ext hreleased rfl)
  obtain ⟨upTo, selected, steps, trials, hcuts, rfl, haccount⟩ := hfound (by
    rintro _ ⟨⟩
    refine ⟨.ofStatements "d" ["CREATE TABLE d"] [], hcandidates.perm.mem_iff.2 ?_, rfl⟩
    exact List.mem_filter.2 ⟨.head _, by decide⟩)
  have hsteps : (m.watched.migrate .up bounds (s, [])).1 = .ok steps := by rw [hwatched]
  have htried : (m.watched.migrate .up bounds (s, [])).2.2 = tried := by rw [hwatched]
  refine ⟨hsql, hacquired, hread, hreleased, candidates, steps, tried, upTo, selected, trials, hcandidates, hsteps,
    htried, hcuts, haccount, ?_, ?_⟩
  · have hnames : (m.watched.migrate .up bounds (s, [])).1.map
        (List.map fun step => (step.name, step.success)) = .ok [("b", true), ("c", false)] := by
      decide +kernel
    rw [hsteps] at hnames
    exact Except.ok.inj hnames
  · rw [← htried]
    decide +kernel

/-- A migration whose transaction cannot be begun fails, and its action is never run. -/
theorem not_acted_of_refused :
    let m : Migrator Recording :=
      { acquire := Recording.acquire
        querier := Recording.querier { failOn := ["BEGIN"] }
        history := { Recording.history [] with executed := fun _ => do return (← get).applied }
        migrations := [.ofStatements "m" ["CREATE TABLE a (x)"] ["DROP TABLE a"]] }
    m.querier.kind = .sql .sqlite ∧ m.readHistory m.querier {} = (.ok [], {}) ∧
      (m.querier.release (m.migrateWith m.querier .up {} {}).2).1 = .ok () ∧
      (m.candidates .up []).map (·.name) = ["m"] ∧
      (m.migrate .up {} {}).1.map (List.map fun step => (step.name, step.success)) = .ok [("m", false)] ∧
      MigrationTask.migrationsRun (m.watched.migrate .up {} ({}, [])).2.2 = [] ∧
      (m.migrate .up {} {}).2.told = ["RELEASE", "BEGIN"] := by
  refine ⟨rfl, rfl, ?_, rfl, ?_, ?_, ?_⟩ <;> decide +kernel

end Migrator

end EntitySql
