import EntitySql.Proofs.Migration.Calls
import EntitySql.Proofs.Sequence
import EntitySql.Sqlite.Connection
/-!
# The transactions of a connection

A connection is called in any order, and every statement that it sends may fail. What can be seen of a run is
its history: each call with the statements that were sent for it (`Connection.serveAll`). A connection takes a
transaction for open exactly as long as the history leaves one open (`ServedCall.LeavesOpen`), and it begins, ends,
gives back and goes silent accordingly (`Connection.IsOrderly`).

One call is told by what it can do to the two marks of a connection, whether it is there and whether a transaction
is open (`Connection.Step`); all else is an induction on the run.
-/

namespace EntitySql.Sqlite

open EntitySql.Action

variable {δ : Type}

/-- The database that writes down the statements that it is sent. -/
def Backend.noting (b : Backend δ) : Backend (δ × List (Tried String)) where
  send sql := (b.send sql).noted sql
  close := fun (database, log) => ((b.close database).1, (b.close database).2, log)

/-- A call of a connection and what came of it. -/
structure ServedCall where
  call : QuerierUse
  /-- Whether the connection took a transaction for open when it was called. -/
  wasOpen : Bool
  /-- The statements that the database was sent. -/
  sent : List (Tried String)
  succeeded : Bool
deriving DecidableEq

/-! ## Histories -/

namespace ServedCall

/-- The statements that end a transaction. -/
def endings : List String := ["COMMIT", "ROLLBACK"]

/-- Whether a statement begins or ends a transaction. -/
def IsControl (sql : String) : Prop := sql = Dialect.sqlite.beginCommand ∨ sql ∈ endings

instance (sql : String) : Decidable (IsControl sql) :=
  inferInstanceAs (Decidable (sql = Dialect.sqlite.beginCommand ∨ sql ∈ endings))

/-- Whether the call is not about a transaction behind the back of the connection. -/
def IsHonest (call : QuerierUse) : Prop := ∀ sql, call = .run sql ∨ call = .all sql → ¬IsControl sql

/-- Whether the statement was sent. -/
def Sends (e : ServedCall) (sql : String) : Prop := ∃ t ∈ e.sent, t.item = sql

/-- Whether a transaction was begun with success. -/
def Begins (e : ServedCall) : Prop := ⟨Dialect.sqlite.beginCommand, true⟩ ∈ e.sent

/-- Whether a transaction was ended with success or the connection was closed. -/
def Ends (e : ServedCall) : Prop := (∃ sql ∈ endings, ⟨sql, true⟩ ∈ e.sent) ∨ e.call = .discard

/-- Whether the connection was given up: it was given back, or it was to be closed. -/
def GivesUp (e : ServedCall) : Prop := e.call = .release ∧ e.succeeded = true ∨ e.call = .discard

theorem beginCommand_notMem_endings : Dialect.sqlite.beginCommand ∉ endings := by decide

section Sent

variable {call : QuerierUse} {wasOpen succeeded : Bool} {sql : String} {outcome : Bool}

theorem sends_singleton_iff {other : String} :
    Sends ⟨call, wasOpen, [⟨sql, outcome⟩], succeeded⟩ other ↔ sql = other := by
  simp [Sends]

theorem not_sends_nil : ¬Sends ⟨call, wasOpen, [], succeeded⟩ sql := by
  simp [Sends]

/-- What a call that sent one statement began and ended. -/
theorem begins_singleton_iff :
    Begins ⟨call, wasOpen, [⟨sql, outcome⟩], succeeded⟩ ↔
      sql = Dialect.sqlite.beginCommand ∧ outcome = true := by
  simp [Begins, eq_comm]

theorem ends_singleton_iff :
    Ends ⟨call, wasOpen, [⟨sql, outcome⟩], succeeded⟩ ↔ sql ∈ endings ∧ outcome = true ∨ call = .discard := by
  simp only [Ends, List.mem_singleton, Tried.mk.injEq]
  refine or_congr_left ⟨?_, fun h => ⟨sql, h.1, rfl, h.2.symm⟩⟩
  rintro ⟨_, hmem, rfl, rfl⟩
  exact ⟨hmem, rfl⟩

/-- A call that sent nothing began nothing and ends a transaction only by closing the connection. -/
theorem not_begins_nil : ¬Begins ⟨call, wasOpen, [], succeeded⟩ := List.not_mem_nil

theorem ends_nil_iff : Ends ⟨call, wasOpen, [], succeeded⟩ ↔ call = .discard := by
  simp [Ends]

end Sent

/-- Whether the call was refused without a statement. -/
def IsRefused (e : ServedCall) : Prop := e.sent = [] ∧ e.succeeded = false

/-- Whether a transaction was begun and none was ended since. -/
def LeavesOpen (history : List ServedCall) : Prop :=
  ∃ before e after, history = before ++ e :: after ∧ e.Begins ∧ ∀ later ∈ after, ¬later.Ends

theorem not_leavesOpen_nil : ¬LeavesOpen [] := by
  rintro ⟨before, e, after, h, _⟩
  simp at h

theorem leavesOpen_cons_iff {e : ServedCall} {rest : List ServedCall} :
    LeavesOpen (e :: rest) ↔ e.Begins ∧ (∀ later ∈ rest, ¬later.Ends) ∨ LeavesOpen rest := by
  constructor
  · rintro ⟨before, begun, after, hsplit, h⟩
    cases before with
    | nil =>
      obtain ⟨rfl, rfl⟩ := List.cons.inj hsplit
      exact .inl h
    | cons first before =>
      obtain ⟨rfl, rfl⟩ := List.cons.inj hsplit
      exact .inr ⟨before, begun, after, rfl, h⟩
  · rintro (h | ⟨before, begun, after, rfl, h⟩)
    · exact ⟨[], e, rest, rfl, h⟩
    · exact ⟨e :: before, begun, after, rfl, h⟩

end ServedCall

namespace Connection

open ServedCall

/-! ## Serving calls -/

/-- Makes a call of the connection. What it sends is seen in front of a database that writes it down. -/
def serve (b : Backend δ) (call : QuerierUse) (c : Connection δ) : ServedCall × Connection δ :=
  let (outcome, after) := (querier b).ask call c
  let (_, noted) := (querier b.noting).ask call ⟨c.attached, c.inTransaction, (c.database, [])⟩
  ({ call, wasOpen := (querier b).isOpen c, sent := noted.database.2, succeeded := outcome.isOk }, after)

/-- Makes calls of the connection, one after the other. -/
def serveAll (b : Backend δ) : List QuerierUse → Connection δ → List ServedCall × Connection δ
  | [], c => ([], c)
  | call :: rest, c =>
    let (first, c) := serve b call c
    let (later, c) := serveAll b rest c
    (first :: later, c)

/-- The marks of a connection: whether it is there and whether it takes a transaction for open. -/
structure Marks where
  attached : Bool
  isOpen : Bool

/-- The marks without the database behind them. -/
def marks (c : Connection δ) : Marks := ⟨c.attached, c.inTransaction⟩

/-- What a call can do to the marks of a connection. -/
inductive Step : Marks → ServedCall → Marks → Prop
  | refused {m : Marks} {call : QuerierUse} (hgone : call = .discard → m.attached = false) :
    Step m ⟨call, m.isOpen, [], false⟩ m
  | stated {m : Marks} {call : QuerierUse} {sql : String} (succeeded : Bool) (hthere : m.attached = true)
    (hcall : call.Borrows) (hsql : ¬IsControl sql) :
    Step m ⟨call, m.isOpen, [⟨sql, succeeded⟩], succeeded⟩ m
  | begun (succeeded : Bool) :
    Step ⟨true, false⟩ ⟨.start, false, [⟨Dialect.sqlite.beginCommand, succeeded⟩], succeeded⟩ ⟨true, succeeded⟩
  | ended {call : QuerierUse} {sql : String} (succeeded : Bool) (hcall : call.Borrows)
    (hsql : sql ∈ endings) :
    Step ⟨true, true⟩ ⟨call, true, [⟨sql, succeeded⟩], succeeded⟩ ⟨true, !succeeded⟩
  | released : Step ⟨true, false⟩ ⟨.release, false, [], true⟩ ⟨false, false⟩
  | discarded (isOpen succeeded : Bool) : Step ⟨true, isOpen⟩ ⟨.discard, isOpen, [], succeeded⟩ ⟨false, false⟩

/-! ## What a call does -/

/-- Whether an action sends one statement, with its outcome for the outcome, and leaves a transaction open as the
outcome says. -/
def SendsOne {α : Type} (b : Backend δ) (x : Action (Connection δ) α) (isOpen : Bool) (sql : String)
    (opened : Bool → Bool) : Prop :=
  ∀ database, ∃ outcome, outcome.isOk = (b.send sql database).1.isOk ∧
    x ⟨true, isOpen, database⟩ = (outcome, ⟨true, opened outcome.isOk, (b.send sql database).2⟩)

section Serving

variable (b : Backend δ)

theorem sendsOne_send (isOpen : Bool) (sql : String) : SendsOne b (send b sql) isOpen sql fun _ => isOpen :=
  fun database => ⟨(b.send sql database).1, rfl, rfl⟩

theorem sendsOne_run (isOpen : Bool) (sql : String) : SendsOne b (run b sql) isOpen sql fun _ => isOpen := by
  intro database
  obtain ⟨outcome, hok, hsend⟩ := sendsOne_send b isOpen sql database
  rw [← hok, run, bind_apply, hsend]
  cases outcome with
  | error e => exact ⟨.error e, rfl, rfl⟩
  | ok rows => exact ⟨.ok (), rfl, rfl⟩

/-- A transaction that is begun is open if that succeeds. -/
theorem sendsOne_beginTransaction :
    SendsOne b (beginTransaction b) false Dialect.sqlite.beginCommand fun succeeded => succeeded := by
  intro database
  obtain ⟨outcome, hok, hrun⟩ := sendsOne_run b false Dialect.sqlite.beginCommand database
  have hbegin : beginTransaction b ⟨true, false, database⟩ = (run b Dialect.sqlite.beginCommand >>= fun _ =>
      modify fun c => { c with inTransaction := true }) ⟨true, false, database⟩ := rfl
  rw [← hok, hbegin, bind_apply, hrun]
  cases outcome with
  | error e => exact ⟨.error e, rfl, rfl⟩
  | ok => exact ⟨.ok (), rfl, rfl⟩

/-- A transaction that is ended is open if that fails. -/
theorem sendsOne_endTransaction (sql : String) :
    SendsOne b (endTransaction b sql) true sql fun succeeded => !succeeded := by
  intro database
  obtain ⟨outcome, hok, hrun⟩ := sendsOne_run b true sql database
  have hend : endTransaction b sql ⟨true, true, database⟩ = (run b sql >>= fun _ =>
      modify fun c => { c with inTransaction := false }) ⟨true, true, database⟩ := rfl
  rw [← hok, hend, bind_apply, hrun]
  cases outcome with
  | error e => exact ⟨.error e, rfl, rfl⟩
  | ok => exact ⟨.ok (), rfl, rfl⟩

/-- A call that sends one statement, be it written down or not. -/
theorem serve_of_sendsOne (call : QuerierUse) {isOpen : Bool} {sql : String} {opened : Bool → Bool}
    (h : ∀ {ε : Type} (b : Backend ε), SendsOne b ((querier b).ask call) isOpen sql opened) (database : δ) :
    ∃ succeeded after, serve b call ⟨true, isOpen, database⟩ =
      (⟨call, isOpen, [⟨sql, succeeded⟩], succeeded⟩, ⟨true, opened succeeded, after⟩) := by
  obtain ⟨outcome, hok, hask⟩ := h b database
  obtain ⟨_, _, hwritten⟩ := h b.noting (database, [])
  refine ⟨outcome.isOk, (b.send sql database).2, ?_⟩
  simp only [serve, hask, hwritten]
  rw [hok]
  rfl

/-- One call does what a step can do. -/
theorem step_serve {call : QuerierUse} (hcall : IsHonest call) (c : Connection δ) :
    Step c.marks (serve b call c).1 (serve b call c).2.marks := by
  rcases c with ⟨_ | _, isOpen, database⟩
  · -- Of a connection that is gone everything is refused.
    cases call <;> cases isOpen <;> exact .refused fun _ => rfl
  · cases call with
    | all sql =>
      obtain ⟨succeeded, after, hserve⟩ := serve_of_sendsOne b (.all sql)
        (fun b => sendsOne_send b isOpen sql) database
      rw [hserve]
      exact .stated succeeded rfl ⟨nofun, nofun⟩ (hcall sql (.inr rfl))
    | run sql =>
      obtain ⟨succeeded, after, hserve⟩ := serve_of_sendsOne b (.run sql)
        (fun b => sendsOne_run b isOpen sql) database
      rw [hserve]
      exact .stated succeeded rfl ⟨nofun, nofun⟩ (hcall sql (.inl rfl))
    | start =>
      cases isOpen with
      | true => exact .refused nofun
      | false =>
        obtain ⟨succeeded, after, hserve⟩ := serve_of_sendsOne b .start sendsOne_beginTransaction database
        rw [hserve]
        exact .begun succeeded
    | commit =>
      cases isOpen with
      | false => exact .refused nofun
      | true =>
        obtain ⟨succeeded, after, hserve⟩ := serve_of_sendsOne b .commit
          (fun b => sendsOne_endTransaction b "COMMIT") database
        rw [hserve]
        exact .ended succeeded ⟨nofun, nofun⟩ (by decide)
    | rollback =>
      cases isOpen with
      | false => exact .refused nofun
      | true =>
        obtain ⟨succeeded, after, hserve⟩ := serve_of_sendsOne b .rollback
          (fun b => sendsOne_endTransaction b "ROLLBACK") database
        rw [hserve]
        exact .ended succeeded ⟨nofun, nofun⟩ (by decide)
    | command c => exact .refused nofun
    | release =>
      cases isOpen with
      | true => exact .refused nofun
      | false => exact .released
    | discard => exact .discarded isOpen (b.close database).1.isOk

end Serving

/-! ## Steps -/

/-- Whether the transaction that is open is that of a connection which is there. -/
def Marks.IsSound (m : Marks) : Prop := m.isOpen = true → m.attached = true

namespace Step

variable {m m' : Marks} {e : ServedCall}

theorem wasOpen_eq (h : Step m e m') : e.wasOpen = m.isOpen := by
  cases h <;> rfl

theorem isSound (h : Step m e m') (hm : m.IsSound) : m'.IsSound := by
  cases h with
  | refused | stated => exact hm
  | begun | ended => exact fun _ => rfl
  | released | discarded => exact nofun

/-- A transaction is open behind a call that begins one, and as before behind one that ends none. -/
theorem isOpen_iff (h : Step m e m') (hm : m.IsSound) :
    m'.isOpen = true ↔ m.isOpen = true ∧ ¬e.Ends ∨ e.Begins := by
  cases h with
  | refused hgone =>
    rw [ends_nil_iff, or_iff_left not_begins_nil]
    refine ⟨fun hopen => ⟨hopen, fun hdiscard => ?_⟩, And.left⟩
    exact Bool.false_ne_true ((hgone hdiscard).symm.trans (hm hopen))
  | stated succeeded _ hcall hsql =>
    rw [begins_singleton_iff, ends_singleton_iff, or_iff_left fun hbegins => hsql (.inl hbegins.1)]
    exact (and_iff_left (not_or.2 ⟨fun hends => hsql (.inr hends.1), hcall.2⟩)).symm
  | begun succeeded =>
    rw [begins_singleton_iff]
    simp
  | @ended _ sql succeeded hcall hsql =>
    have hother : sql ≠ Dialect.sqlite.beginCommand := by
      rintro rfl
      exact beginCommand_notMem_endings hsql
    simp [begins_singleton_iff, ends_singleton_iff, hsql, hother, hcall.2]
  | released => simp [not_begins_nil]
  | discarded => simp [not_begins_nil, ends_nil_iff]

/-- A transaction is begun only where none is open. -/
theorem wasOpen_of_begins (h : Step m e m') (hsent : e.Sends Dialect.sqlite.beginCommand) :
    e.wasOpen = false := by
  cases h with
  | refused | released | discarded => exact absurd hsent not_sends_nil
  | stated _ _ _ hsql => exact absurd (.inl (sends_singleton_iff.1 hsent)) hsql
  | begun => rfl
  | ended _ _ hsql => exact absurd (sends_singleton_iff.1 hsent ▸ hsql) beginCommand_notMem_endings

/-- A transaction is ended only where one is open. -/
theorem wasOpen_of_ends (h : Step m e m') {sql : String} (hmem : sql ∈ endings) (hsent : e.Sends sql) :
    e.wasOpen = true := by
  cases h with
  | refused | released | discarded => exact absurd hsent not_sends_nil
  | stated _ _ _ hsql => exact absurd (.inr (sends_singleton_iff.1 hsent ▸ hmem)) hsql
  | begun => exact absurd (sends_singleton_iff.1 hsent ▸ hmem) beginCommand_notMem_endings
  | ended => rfl

/-- A connection is given up where no transaction is open, or it is to be closed; behind that it is gone. -/
theorem of_givesUp (h : Step m e m') (hgiven : e.GivesUp) :
    m'.attached = false ∧ (e.call = .release → e.wasOpen = false) := by
  cases h with
  | refused hgone =>
    obtain rfl := hgiven.resolve_left fun hreleased => Bool.false_ne_true hreleased.2
    exact ⟨hgone rfl, nofun⟩
  | stated _ _ hcall _ | ended _ hcall _ =>
    exact absurd (hgiven.imp_left And.left) (not_or.2 hcall)
  | begun => exact absurd (hgiven.imp_left And.left) (not_or.2 ⟨nofun, nofun⟩)
  | released => exact ⟨rfl, fun _ => rfl⟩
  | discarded => exact ⟨rfl, nofun⟩

/-- A connection that is gone refuses everything and stays away. -/
theorem of_gone (h : Step m e m') (hgone : m.attached = false) : e.IsRefused ∧ m'.attached = false := by
  cases h with
  | refused => exact ⟨⟨rfl, rfl⟩, hgone⟩
  | stated _ hthere => cases hgone.symm.trans hthere
  | begun | ended | released | discarded => cases hgone

end Step

/-! ## Runs -/

/-- What calls can do to the marks of a connection, one after the other. -/
inductive Run : Marks → List ServedCall → Marks → Prop
  | nil (m : Marks) : Run m [] m
  | cons {m m' m'' : Marks} {e : ServedCall} {rest : List ServedCall} (first : Step m e m')
    (later : Run m' rest m'') : Run m (e :: rest) m''

theorem run_serveAll (b : Backend δ) {calls : List QuerierUse} (hcalls : ∀ call ∈ calls, IsHonest call)
    (c : Connection δ) : Run c.marks (serveAll b calls c).1 (serveAll b calls c).2.marks := by
  induction calls generalizing c with
  | nil => exact .nil _
  | cons call rest ih =>
    exact .cons (step_serve b (hcalls call (.head rest)) c) (ih (fun call hcall => hcalls call (.tail _ hcall)) _)

namespace Run

variable {m m' : Marks} {history before after : List ServedCall} {e : ServedCall}

/-- A run passes by the marks in front of a call and those behind it. -/
theorem exists_step (h : Run m (before ++ e :: after) m') :
    ∃ m₁ m₂, Run m before m₁ ∧ Step m₁ e m₂ ∧ Run m₂ after m' := by
  induction before generalizing m with
  | nil =>
    cases h with
    | cons first later => exact ⟨m, _, .nil m, first, later⟩
  | cons e' before ih =>
    cases h with
    | cons first later =>
      obtain ⟨m₁, m₂, hbefore, hstep, hafter⟩ := ih later
      exact ⟨m₁, m₂, .cons first hbefore, hstep, hafter⟩

theorem exists_step_of_mem (h : Run m history m') (he : e ∈ history) : ∃ m₁ m₂, Step m₁ e m₂ := by
  obtain ⟨before, after, rfl⟩ := List.append_of_mem he
  obtain ⟨m₁, m₂, _, hstep, _⟩ := h.exists_step
  exact ⟨m₁, m₂, hstep⟩

/-- A transaction is open behind a run that leaves one open, and as before behind one that ends none. -/
theorem isOpen_iff (h : Run m history m') (hm : m.IsSound) :
    m'.isOpen = true ↔ m.isOpen = true ∧ (∀ e ∈ history, ¬e.Ends) ∨ LeavesOpen history := by
  induction h with
  | nil m => simp [not_leavesOpen_nil]
  | cons first later ih =>
    rw [ih (first.isSound hm), first.isOpen_iff hm, leavesOpen_cons_iff, List.forall_mem_cons, ← and_assoc,
      ← or_assoc, or_and_right]

/-- A connection that is gone stays away. -/
theorem attached_of_gone (h : Run m history m') (hgone : m.attached = false) : m'.attached = false := by
  induction h with
  | nil => exact hgone
  | cons first later ih => exact ih (first.of_gone hgone).2

/-- Behind a call that gives the connection up it is gone for good. -/
theorem attached_of_givesUp (h : Run m history m') (he : e ∈ history) (hgiven : e.GivesUp) :
    m'.attached = false := by
  obtain ⟨before, after, rfl⟩ := List.append_of_mem he
  obtain ⟨m₁, m₂, _, hstep, hafter⟩ := h.exists_step
  exact hafter.attached_of_gone (hstep.of_givesUp hgiven).1

end Run

/-! ## The account of a run -/

/-- What holds of a history at whose end a transaction is taken for open or not. -/
structure IsOrderly (history : List ServedCall) (isOpen : Bool) : Prop where
  /-- A transaction is taken for open exactly if one was begun and none was ended since. -/
  open_iff : isOpen = true ↔ LeavesOpen history
  /-- So it was when any of the calls was made. -/
  wasOpen_iff : EachAfter (fun before e => e.wasOpen = true ↔ LeavesOpen before) history
  /-- A transaction is begun only where none is open. -/
  begins : ∀ e ∈ history, e.Sends Dialect.sqlite.beginCommand → e.wasOpen = false
  /-- A transaction is ended only where one is open. -/
  ends : ∀ e ∈ history, ∀ sql ∈ endings, e.Sends sql → e.wasOpen = true
  /-- The connection is given back only where no transaction is open. -/
  releases : ∀ e ∈ history, e.call = .release → e.succeeded = true → e.wasOpen = false
  /-- Once the connection is given up every call is refused without a statement. -/
  silent : EachAfter (fun before e => (∃ earlier ∈ before, earlier.GivesUp) → e.IsRefused) history

/-- A connection keeps account of its transactions, whichever calls are made of it and whatever comes of the
statements that it sends. -/
theorem isOrderly_serveAll (b : Backend δ) (database : δ) {calls : List QuerierUse}
    (hcalls : ∀ call ∈ calls, IsHonest call) :
    let served := serveAll b calls { database }
    IsOrderly served.1 ((querier b).isOpen served.2) := by
  intro served
  have hrun : Run ⟨true, false⟩ served.1 served.2.marks := run_serveAll b hcalls { database }
  have hsound : Marks.IsSound ⟨true, false⟩ := nofun
  have hopen : ∀ {history m}, Run ⟨true, false⟩ history m → (m.isOpen = true ↔ LeavesOpen history) :=
    fun h => (h.isOpen_iff hsound).trans (by simp)
  refine ⟨hopen hrun, ?_, ?_, ?_, ?_, ?_⟩
  · intro before e after hsplit
    obtain ⟨m, _, hbefore, hstep, _⟩ := (hsplit ▸ hrun).exists_step
    rw [hstep.wasOpen_eq]
    exact hopen hbefore
  · intro e he hsent
    obtain ⟨_, _, hstep⟩ := hrun.exists_step_of_mem he
    exact hstep.wasOpen_of_begins hsent
  · intro e he sql hsql hsent
    obtain ⟨_, _, hstep⟩ := hrun.exists_step_of_mem he
    exact hstep.wasOpen_of_ends hsql hsent
  · intro e he hcall hsuccess
    obtain ⟨_, _, hstep⟩ := hrun.exists_step_of_mem he
    exact (hstep.of_givesUp (.inl ⟨hcall, hsuccess⟩)).2 hcall
  · rintro before e after hsplit ⟨earlier, hmem, hgiven⟩
    obtain ⟨m, _, hbefore, hstep, _⟩ := (hsplit ▸ hrun).exists_step
    exact (hstep.of_gone (hbefore.attached_of_givesUp hmem hgiven)).1

/-- A database that answers as it is told. -/
private def scripted : Backend (List Bool) where
  send _ := fun script => (if script.headD true then .ok [] else .error .released, script.tail)

/-- A transaction whose commit fails is rolled back before the connection is given back. -/
theorem isOrderly_serveAll_failing_commit :
    let calls : List QuerierUse := [.start, .start, .release, .commit, .rollback, .release, .run "SELECT 1"]
    let served := serveAll scripted calls { database := [true, false] }
    (∀ call ∈ calls, IsHonest call) ∧
      served.1.map (·.succeeded) = [true, false, false, false, true, true, false] ∧
        IsOrderly served.1 ((querier scripted).isOpen served.2) := by
  intro calls served
  have hcalls : ∀ call ∈ calls, IsHonest call := by
    have hselect : ¬IsControl "SELECT 1" := by decide
    simpa [calls, IsHonest] using hselect
  exact ⟨hcalls, by decide, isOrderly_serveAll scripted _ hcalls⟩

end Connection

end EntitySql.Sqlite
