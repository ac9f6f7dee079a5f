import EntitySql.Proofs.Migration.Attempts
/-!
# What is asked of a querier

Everything that is done with a connection is a call of its querier, and a querier can write down the calls that
are made of it (`Querier.logged`). What is known of such calls is a matter of what actions preserve
(`Action.Keeps`): an action that is put together from others preserves what all of them do. So an action that uses
a querier for queries only (`Querier.Uses`) preserves whatever every query does, be it the calls that were written
down or the state of a database.
-/

namespace EntitySql

open EntitySql.Action

variable {σ α β : Type}

/-! ## What actions preserve -/

/-- Whether an action preserves what it finds, also where it fails. -/
def Action.Keeps (I : σ → Prop) (x : Action σ α) : Prop := ∀ s, I s → I (x s).2

/-- What holds behind an action in either case. -/
theorem Action.Ends.behind {I : σ → Prop} {result : Except MigrationError α × σ} (h : Ends (fun _ => I) I result) :
    I result.2 := by
  rcases result with ⟨_ | _, _⟩ <;> exact h

namespace Action.Keeps

variable {I : σ → Prop}

/-- An outcome that is known already. -/
theorem of_outcome (outcome : Except MigrationError α) : Keeps I (ExceptT.mk (pure outcome)) := fun _ hs => hs

theorem of_pure (a : α) : Keeps I (pure a : Action σ α) := of_outcome (.ok a)

theorem of_throw (e : MigrationError) : Keeps I (throw e : Action σ α) := of_outcome (.error e)

theorem ofQuery (result : Except QueryError α) : Keeps I (Action.ofQuery result) := by
  cases result with
  | ok a => exact of_pure a
  | error e => exact of_throw _

theorem ofSchema (result : Except SchemaError α) : Keeps I (Action.ofSchema result) := by
  cases result with
  | ok a => exact of_pure a
  | error e => exact of_throw _

theorem bind {x : Action σ β} {f : β → Action σ α} (hx : Keeps I x) (hf : ∀ b, Keeps I (f b)) :
    Keeps I (x >>= f) := by
  intro s hs
  have hfirst := hx s hs
  rw [bind_apply]
  rcases hresult : x s with ⟨_ | b, s'⟩ <;> rw [hresult] at hfirst
  · exact hfirst
  · exact hf b s' hfirst

/-- An action that looks at the world first. -/
theorem get_bind {f : σ → Action σ α} (hf : ∀ s, Keeps I (f s)) : Keeps I (get >>= f) :=
  bind (fun _ hs => hs) hf

theorem attempt {x : Action σ α} (hx : Keeps I x) : Keeps I x.attempt := hx

theorem ite {condition : Prop} [Decidable condition] {x y : Action σ α} (hx : condition → Keeps I x)
    (hy : ¬condition → Keeps I y) : Keeps I (if condition then x else y) := by
  split
  · exact hx ‹_›
  · exact hy ‹_›

section Lists

variable {ι : Type} {items : List ι}

theorem forM {f : ι → Action σ PUnit} (h : ∀ i ∈ items, Keeps I (f i)) : Keeps I (items.forM f) := by
  induction items with
  | nil => exact of_pure _
  | cons i rest ih => exact (h i (.head rest)).bind fun _ => ih fun j hj => h j (.tail i hj)

theorem mapM {f : ι → Action σ α} (h : ∀ i ∈ items, Keeps I (f i)) : Keeps I (items.mapM f) := by
  induction items with
  | nil => exact of_pure []
  | cons i rest ih =>
    rw [List.mapM_cons]
    exact (h i (.head rest)).bind fun _ => (ih fun j hj => h j (.tail i hj)).bind fun _ => of_pure _

theorem foldlM {f : β → ι → Action σ β} (h : ∀ b, ∀ i ∈ items, Keeps I (f b i)) (b : β) :
    Keeps I (items.foldlM f b) := by
  induction items generalizing b with
  | nil => exact of_pure b
  | cons i rest ih =>
    rw [List.foldlM_cons]
    exact (h b i (.head rest)).bind fun _ => ih (fun b j hj => h b j (.tail i hj)) _

end Lists

end Action.Keeps

/-! ## Calls -/

/-- One thing that is asked of a querier. -/
inductive QuerierUse
  | all (sql : String)
  | run (sql : String)
  | start
  | commit
  | rollback
  | command (c : DocumentCommand)
  | release
  | discard
deriving DecidableEq

namespace QuerierUse

/-- What a querier answers. -/
def Answer : QuerierUse → Type
  | all _ => List Row
  | _ => Unit

/-- Whether the database is only asked for rows. -/
def IsQuery (use : QuerierUse) : Prop := ∃ sql, use = .all sql

/-- Whether the connection is neither given back nor closed. -/
def Borrows (use : QuerierUse) : Prop := use ≠ .release ∧ use ≠ .discard

/-- Whether the connection is given back or closed. -/
def Returns (use : QuerierUse) : Prop := use = .release ∨ use = .discard

/-- The statement that is run. -/
def statement? : QuerierUse → Option String
  | run sql => some sql
  | _ => none

end QuerierUse

/-- A call that was made of a querier. -/
abbrev QuerierCall := Tried QuerierUse

namespace Querier

/-- Asks the querier for something. -/
def ask (q : Querier σ) : (use : QuerierUse) → Action σ use.Answer
  | .all sql => q.all sql
  | .run sql => q.run sql
  | .start => q.beginTransaction
  | .commit => q.commitTransaction
  | .rollback => q.rollbackTransaction
  | .command c => q.runCommand c
  | .release => q.release
  | .discard => q.discard

/-- The querier that writes down the calls that are made of it. -/
def logged (q : Querier σ) : Querier (σ × List QuerierCall) where
  kind := q.kind
  isOpen s := q.isOpen s.1
  all sql := (q.all sql).noted (.all sql)
  run sql := (q.run sql).noted (.run sql)
  beginTransaction := q.beginTransaction.noted .start
  commitTransaction := q.commitTransaction.noted .commit
  rollbackTransaction := q.rollbackTransaction.noted .rollback
  release := q.release.noted .release
  discard := q.discard.noted .discard
  runCommand c := (q.runCommand c).noted (.command c)

/-- The statements that were run in order, be it with success or without. -/
def statementsRun (log : List QuerierCall) : List String :=
  (log.map (·.item)).filterMap QuerierUse.statement?

theorem ask_logged (q : Querier σ) (use : QuerierUse) :
    q.logged.ask use = (q.ask use).noted use := by
  cases use <;> rfl

/-- Whether none but allowed calls were written down behind those in the log. -/
def Extends (allowed : QuerierUse → Prop) (log : List QuerierCall) (s : σ × List QuerierCall) : Prop :=
  ∃ calls, (∀ call ∈ calls, allowed call.item) ∧ s.2 = log ++ calls

theorem extends_self (allowed : QuerierUse → Prop) (s : σ × List QuerierCall) : Extends allowed s.2 s :=
  ⟨[], nofun, (List.append_nil _).symm⟩

theorem keeps_extends {q : Querier σ} {allowed : QuerierUse → Prop} {use : QuerierUse} (huse : allowed use)
    (log : List QuerierCall) : Keeps (Extends allowed log) (q.logged.ask use) := by
  rintro ⟨s, written⟩ ⟨calls, hcalls, rfl⟩
  rw [ask_logged]
  refine ⟨calls ++ [⟨use, (q.ask use s).1.isOk⟩], ?_, by rw [← List.append_assoc]; rfl⟩
  intro call hcall
  rcases List.mem_append.1 hcall with hcall | hcall
  · exact hcalls call hcall
  · rw [List.mem_singleton.1 hcall]
    exact huse

theorem watchesScopes_logged (q : Querier σ) :
    q.WatchesScopes QuerierUse.start .commit (· = .rollback) q.logged where
  isOpen _ _ := rfl
  begin := rfl
  commit := rfl
  rollback s _ := ⟨[⟨.rollback, (q.rollbackTransaction s).1.isOk⟩], rfl, List.forall_mem_singleton.2 rfl⟩

/-- Statements are run up to the first that fails. -/
theorem watches_runAll_logged (q : Querier σ) (sqls : List String) :
    Watches (sqls.map QuerierUse.run) (q.runAll sqls) (q.logged.runAll sqls) := by
  have hrun : ∀ sql, Watches [QuerierUse.run sql] (q.run sql) (q.logged.run sql) := fun sql => .noted _ _
  exact .forM hrun sqls

/-- Whether an action preserves whatever all allowed calls of the querier preserve. -/
def Uses (q : Querier σ) (allowed : QuerierUse → Prop) (x : Action σ α) : Prop :=
  ∀ I : σ → Prop, (∀ use, allowed use → Keeps I (q.ask use)) → Keeps I x

end Querier

/-! ## Actions on queriers -/

namespace Action.Keeps

variable {I : σ → Prop} {q : Querier σ}

theorem requireDialect : Keeps I q.requireDialect := by
  unfold Querier.requireDialect
  split
  · exact of_pure _
  · exact of_throw _

theorem runAll (hrun : ∀ sql, Keeps I (q.run sql)) (statements : List String) :
    Keeps I (q.runAll statements) :=
  forM fun sql _ => hrun sql

/-- Work in a scope preserves what the work and the commands about the transaction preserve. -/
theorem transactional {p : Propagation} {work : Action σ α} (hbegin : Keeps I q.beginTransaction)
    (hcommit : Keeps I q.commitTransaction) (hrollback : Keeps I q.rollbackTransaction)
    (hwork : Keeps I work) : Keeps I (q.transactional p work) := by
  have henter : Keeps I (TransactionScope.enter q p) :=
    get_bind fun _ => ite (fun _ => hbegin.bind fun _ => of_pure _) fun _ => of_pure _
  refine henter.bind fun scope => hwork.attempt.bind fun outcome => ?_
  cases outcome with
  | ok a => exact (ite (fun _ => hcommit) fun _ => of_pure _).bind fun _ => of_pure a
  | error e =>
    have hback : Keeps I (scope.rollback q) := get_bind fun _ => ite (fun _ => hrollback) fun _ => of_pure _
    exact hback.attempt.bind fun _ => of_throw e

end Action.Keeps

end EntitySql
