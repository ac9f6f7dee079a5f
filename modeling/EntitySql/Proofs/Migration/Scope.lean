import EntitySql.Migration.Recording
import EntitySql.Migration.Transaction
import EntitySql.Proofs.Action
import EntitySql.Sqlite.Connection
/-!
# The end of a scope

A scope that opened a transaction has to end it. After failing work it rolls back what is still open, and
the error of the work counts whatever comes of that. After successful work it commits, and nothing follows
the commit: one that fails and leaves the transaction open is not followed by a rollback. These two are
the only ways in which a transaction outlives the scope that opened it.

All this rests on what every querier promises: a transaction that was committed or rolled back is not
open any more.
-/

namespace EntitySql

open EntitySql.Action

variable {σ α : Type}

/-- What a querier promises of the ends of its transactions. -/
structure Querier.EndsTransactions (q : Querier σ) : Prop where
  /-- Behind a commit no transaction is open. -/
  commit : Meets (fun _ => True) q.commitTransaction (fun _ s => q.isOpen s = false) fun _ => True
  /-- Behind a rollback no transaction is open. -/
  rollback :
    Meets (fun _ => True) q.rollbackTransaction (fun _ s => q.isOpen s = false) fun _ => True

/-- Whether the action fails and leaves the transaction open. -/
def Querier.LeavesOpen (q : Querier σ) (action : Action σ Unit) (s s' : σ) : Prop :=
  ∃ refusal, action s = (.error refusal, s') ∧ q.isOpen s' = true

/-- Behind an action that ends the transaction where it succeeds, a transaction is open only because the
action failed. -/
theorem Querier.leavesOpen_iff {q : Querier σ} {action : Action σ Unit}
    (h : Meets (fun _ => True) action (fun _ s => q.isOpen s = false) fun _ => True) (s : σ) :
    q.LeavesOpen action s (action s).2 ↔ q.isOpen (action s).2 = true := by
  have hends := h s trivial
  unfold LeavesOpen
  rcases hresult : action s with ⟨refusal | _, s'⟩
  · exact ⟨fun ⟨_, _, hopen⟩ => hopen, fun hopen => ⟨refusal, rfl, hopen⟩⟩
  · rw [hresult] at hends
    have hclosed : q.isOpen s' = false := hends
    simp [hclosed]

/-- What a scope that opened its transaction makes of the world `s`, in which its work ended with
`outcome`. -/
structure TransactionScope.EndsAs (q : Querier σ) (outcome : Except MigrationError α) (s : σ)
    (behind : Except MigrationError α × σ) : Prop where
  /-- The first error counts, be it that of the work or that of the commit. -/
  result : behind.1 = outcome.bind fun a => (q.commitTransaction s).1.map fun _ => a
  /-- Nothing follows the commit. -/
  commit : ∀ a, outcome = .ok a → behind.2 = (q.commitTransaction s).2
  /-- What failing work left open is rolled back. -/
  rollback : ∀ e, outcome = .error e →
    behind.2 = if q.isOpen s then (q.rollbackTransaction s).2 else s
  /-- The transaction is left open by a rollback that fails, or by a commit that does. -/
  isOpen_iff : q.isOpen behind.2 = true ↔
    (∃ e, outcome = .error e) ∧ q.isOpen s = true ∧
        q.LeavesOpen q.rollbackTransaction s behind.2 ∨
      (∃ a, outcome = .ok a) ∧ q.LeavesOpen q.commitTransaction s behind.2

namespace TransactionScope

variable {q : Querier σ}

theorem finish_ok (a : α) (s : σ) :
    finish ⟨true⟩ q (.ok a) s =
      ((q.commitTransaction s).1.map fun _ => a, (q.commitTransaction s).2) := by
  simp only [finish, commit, if_true, bind_apply]
  rcases q.commitTransaction s with ⟨_ | _, s'⟩ <;> rfl

theorem finish_error (e : MigrationError) (s : σ) :
    finish ⟨true⟩ q (.error e : Except MigrationError α) s =
      (.error e, if q.isOpen s then (q.rollbackTransaction s).2 else s) := by
  have hrollback :
      (rollback ⟨true⟩ q s).2 = if q.isOpen s then (q.rollbackTransaction s).2 else s := by
    change ((if q.isOpen s = true then q.rollbackTransaction else pure ()) s).2 = _
    split <;> rfl
  rw [← hrollback]
  rfl

theorem endsAs_finish (hq : q.EndsTransactions) (outcome : Except MigrationError α) (s : σ) :
    EndsAs q outcome s (finish ⟨true⟩ q outcome s) := by
  cases outcome with
  | ok a =>
    rw [finish_ok]
    refine ⟨rfl, fun _ _ => rfl, fun _ h => (nomatch h), ?_⟩
    simp [Querier.leavesOpen_iff hq.commit]
  | error e =>
    rw [finish_error]
    refine ⟨rfl, fun _ h => (nomatch h), fun _ _ => rfl, ?_⟩
    by_cases hopen : q.isOpen s = true
    · simp [hopen, Querier.leavesOpen_iff hq.rollback]
    · simp [hopen]

end TransactionScope

/-- Work in a scope ends as the scope does. -/
theorem Querier.transactional_eq {q : Querier σ} {p : Propagation} {scope : TransactionScope}
    {s s' : σ} (henter : TransactionScope.enter q p s = (.ok scope, s')) (work : Action σ α) :
    q.transactional p work s = scope.finish q (work s').1 (work s').2 := by
  rw [transactional, bind_apply, henter]
  rfl

/-! ## Queriers that keep the promise -/

/-- In a recorded session only a command that is done changes what is open. -/
theorem Recording.endsTransactions_querier (script : SessionScript) :
    (querier script).EndsTransactions := by
  have hend : ∀ entry, Meets (fun _ => True) (endTransaction script entry)
      (fun _ s => s.isOpen = false) fun _ => True := by
    intro entry
    apply Meets.bind Meets.of_any
    intro s
    apply Meets.ite
    · exact fun _ => .bind (R := fun _ _ => False) (.of_throw fun _ _ => trivial) fun _ _ h => h.elim
    · exact fun _ => Meets.bind Meets.of_any fun _ => .of_modify fun _ _ => rfl
  exact ⟨hend "COMMIT", hend "ROLLBACK"⟩

/-- So it is on a connection to SQLite. -/
theorem Sqlite.Connection.endsTransactions_querier {δ : Type} (b : Backend δ) :
    (querier b).EndsTransactions := by
  have hend : ∀ sql, Meets (fun _ => True) (endTransaction b sql)
      (fun _ c => c.inTransaction = false) fun _ => True := by
    intro sql
    apply Meets.bind Meets.of_any
    intro c
    apply Meets.ite
    · exact fun _ => .bind (R := fun _ _ => False) (.of_throw fun _ _ => trivial) fun _ _ h => h.elim
    · exact fun _ => Meets.bind Meets.of_any fun _ => .of_modify fun _ _ => rfl
  exact ⟨hend "COMMIT", hend "ROLLBACK"⟩

/-! ## The end of a scope -/

/-- Whatever comes of the work and of each command, a scope that opened its transaction ends as
`TransactionScope.EndsAs` says, by itself and around work. -/
theorem TransactionScope.endsAs_of_owned {q : Querier σ} (hq : q.EndsTransactions) :
    (∀ (outcome : Except MigrationError α) (s : σ),
      EndsAs q outcome s (finish ⟨true⟩ q outcome s)) ∧
    ∀ (p : Propagation) (work : Action σ α) (s s' : σ), enter q p s = (.ok ⟨true⟩, s') →
      EndsAs q (work s').1 (work s').2 (q.transactional p work s) := by
  refine ⟨endsAs_finish hq, fun p work s s' henter => ?_⟩
  rw [Querier.transactional_eq henter]
  exact endsAs_finish hq _ _

/-- Work that fails is rolled back. Where the rollback fails as well the transaction stays open, and the
error is still that of the work. -/
theorem TransactionScope.endsAs_of_owned_refused :
    let q := Recording.querier { failOn := ["DELETE", "ROLLBACK"] }
    let behind := q.transactional .required (q.run "DELETE FROM tag") {}
    let s : Recording := { isOpen := true, told := ["DELETE FROM tag", "BEGIN"] }
    let refusal : MigrationError :=
      .database "encountered unexpected or invalid data: cannot run DELETE FROM tag"
    q.EndsTransactions ∧
      enter q .required {} = (.ok ⟨true⟩, { isOpen := true, told := ["BEGIN"] }) ∧
      EndsAs q (.error refusal) s behind ∧
      behind = (.error refusal, { s with told := "ROLLBACK" :: s.told }) := by
  intro q behind s refusal
  have hq : q.EndsTransactions := Recording.endsTransactions_querier _
  have henter : enter q .required {} = (.ok ⟨true⟩, { isOpen := true, told := ["BEGIN"] }) := by
    rfl
  have hwork : q.run "DELETE FROM tag" { isOpen := true, told := ["BEGIN"] } =
      (.error refusal, s) := by
    rfl
  have hends := (endsAs_of_owned hq).2 .required (q.run "DELETE FROM tag") _ _ henter
  rw [hwork] at hends
  exact ⟨hq, henter, hends, by rfl⟩

/-- A commit that fails leaves the transaction open, and no rollback is tried. -/
theorem TransactionScope.open_behind_commit :
    let q := Recording.querier { failOn := ["COMMIT"] }
    let behind := q.transactional .required (pure ()) {}
    let refusal : MigrationError :=
      .database "encountered unexpected or invalid data: cannot run COMMIT"
    enter q .required {} = (.ok ⟨true⟩, { isOpen := true, told := ["BEGIN"] }) ∧
      behind = (.error refusal, { isOpen := true, told := ["COMMIT", "BEGIN"] }) ∧
      q.isOpen behind.2 = true ∧ "ROLLBACK" ∉ behind.2.told := by
  intro q behind refusal
  have hbehind : behind = (.error refusal, { isOpen := true, told := ["COMMIT", "BEGIN"] }) := rfl
  refine ⟨rfl, hbehind, ?_⟩
  rw [hbehind]
  exact ⟨rfl, by decide⟩

end EntitySql
