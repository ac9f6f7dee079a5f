import EntitySql.Proofs.Migration.Scope
/-!
# Scopes in scopes

Work in a scope may open scopes of its own, and go on in any way after each of them. A tree of such scopes
(`Work`) is run here on queriers that know for which scope they work and write down each transaction command
(`Querier.traced`). What is written down falls into sessions: a scope begins a transaction while none is open,
and if that succeeds, the next command is the one by which the same scope ends it. In between the transaction
stays open, so no scope inside begins or ends anything.

All this rests on what every querier promises: a transaction that was begun is open, and a statement leaves it
open, whatever comes of the statement.
-/

namespace EntitySql

open EntitySql.Action

/-! ## Trees of scopes -/

/-- A statement, told by what it gives. -/
inductive Statement : Type → Type
  | run (sql : String) : Statement Unit
  | all (sql : String) : Statement (List Row)
  | command (c : DocumentCommand) : Statement Unit

/-- Work that does statements and opens scopes. Either may fail, and what follows depends on the outcome. -/
inductive Work : Type → Type 1
  | done {α : Type} (outcome : Except MigrationError α) : Work α
  | statement {α β : Type} (x : Statement β) (next : Except MigrationError β → Work α) : Work α
  | scope {α β : Type} (p : Propagation) (body : Work β) (next : Except MigrationError β → Work α) :
    Work α

/-- The name of a scope in a tree: its place among the scopes beside it and its propagation, and then those of
the scopes around it, the nearest first. -/
abbrev ScopeName := List (Nat × Propagation)

/-- Whether the scope with the name may open a transaction. -/
def ScopeName.IsRequired (name : ScopeName) : Prop := name.head?.map Prod.snd = some .required

variable {σ α β : Type}

/-- What a querier does for a statement. -/
def Statement.perform (q : Querier σ) : Statement α → Action σ α
  | .run sql => q.run sql
  | .all sql => q.all sql
  | .command c => q.runCommand c

/-- Does the work in the scope with the given name, in which `n` scopes were opened before. Each scope has the
querier of its name. -/
def Work.perform (q : ScopeName → Querier σ) {α : Type} : Work α → ScopeName → Nat → Action σ α
  | .done outcome, _, _ => ExceptT.mk (pure outcome)
  | .statement x next, name, n => do (next (← (x.perform (q name)).attempt)).perform q name n
  | .scope p body next, name, n => do
    let inner := (n, p) :: name
    let outcome ← ((q inner).transactional p (body.perform q inner 0)).attempt
    (next outcome).perform q name (n + 1)

/-! ## What is written down -/

/-- A command about transactions. -/
inductive TransactionCommand
  | start
  | commit
  | rollback
deriving DecidableEq, Repr

/-- One call of a transaction command. -/
structure TransactionCall where
  /-- The scope that made the call. -/
  scope : ScopeName
  command : TransactionCommand
  /-- Whether a transaction was open before. -/
  wasOpen : Bool
  succeeded : Bool
deriving DecidableEq, Repr

/-- Does something beside the calls that were written down. -/
def Action.beside {τ : Type} (x : Action σ α) : Action (σ × τ) α := fun (s, trace) =>
  ((x s).1, (x s).2, trace)

/-- Gives a transaction command for a scope and writes it down. -/
def Querier.call (q : Querier σ) (scope : ScopeName) (command : TransactionCommand) (x : Action σ Unit) :
    Action (σ × List TransactionCall) Unit := fun (s, trace) =>
  ((x s).1, (x s).2, trace ++ [{ scope, command, wasOpen := q.isOpen s, succeeded := (x s).1.isOk }])

/-- The querier as one scope has it, which writes down the transaction commands. -/
def Querier.traced (q : Querier σ) (scope : ScopeName) : Querier (σ × List TransactionCall) where
  kind := q.kind
  isOpen s := q.isOpen s.1
  all sql := (q.all sql).beside
  run sql := (q.run sql).beside
  beginTransaction := q.call scope .start q.beginTransaction
  commitTransaction := q.call scope .commit q.commitTransaction
  rollbackTransaction := q.call scope .rollback q.rollbackTransaction
  release := q.release.beside
  discard := q.discard.beside
  runCommand c := (q.runCommand c).beside

/-- What the transaction commands of a tree of scopes have to be like. -/
structure TransactionCall.IsDisciplined (trace : List TransactionCall) : Prop where
  /-- Only a scope that may do so begins a transaction, and only while none is open. -/
  starts : ∀ call ∈ trace, call.command = .start → call.wasOpen = false ∧ call.scope.IsRequired
  /-- A commit or a rollback is made while the transaction is open. The command before it is the one by which
  the same scope began it. -/
  ends : ∀ before call after, trace = before ++ call :: after → call.command ≠ .start →
    call.wasOpen = true ∧ before.getLast? =
      some { scope := call.scope, command := .start, wasOpen := false, succeeded := true }
  /-- No scope gives a command twice. -/
  once : ∀ scope command, trace.countP (fun call => call.scope = scope && call.command = command) ≤ 1

/-! ## Sessions -/

/-- The commands of one scope about the transaction that it begins. -/
inductive Session
  /-- The transaction is not begun. -/
  | refused (name : ScopeName)
  /-- The transaction is begun and ended, by a commit or by a rollback. -/
  | ended (name : ScopeName) (commits succeeded : Bool)

namespace Session

/-- The scope that begins the transaction. -/
def name : Session → ScopeName
  | refused name | ended name _ _ => name

/-- The calls of a session in order. -/
def calls : Session → List TransactionCall
  | refused name => [{ scope := name, command := .start, wasOpen := false, succeeded := false }]
  | ended name commits succeeded =>
    [{ scope := name, command := .start, wasOpen := false, succeeded := true },
      { scope := name, command := if commits then .commit else .rollback, wasOpen := true, succeeded }]

theorem scope_of_mem_calls {session : Session} {call : TransactionCall} (h : call ∈ session.calls) :
    call.scope = session.name := by
  cases session <;> simp [calls] at h <;> rcases h with rfl | rfl <;> rfl

theorem countP_calls_le (session : Session) (scope : ScopeName) (command : TransactionCommand) :
    session.calls.countP (fun call => call.scope = scope && call.command = command) ≤
      if session.name = scope then 1 else 0 := by
  by_cases hname : session.name = scope
  · rw [if_pos hname]
    cases session with
    | refused name => exact List.countP_le_length
    | ended name commits succeeded =>
      -- The two commands of a session are not the same.
      cases commits <;> cases command <;>
        simp only [calls, List.countP_cons, reduceCtorEq, decide_false, Bool.and_false, if_true, if_false,
          Bool.false_eq_true, List.countP_nil] <;> (repeat' split) <;> decide
  · rw [if_neg hname, Nat.le_zero, List.countP_eq_zero]
    intro call hcall
    simp [scope_of_mem_calls hcall, hname]

variable {sessions : List Session}

theorem starts_flatMap_calls (hrequired : ∀ session ∈ sessions, session.name.IsRequired) :
    ∀ call ∈ sessions.flatMap calls, call.command = .start →
      call.wasOpen = false ∧ call.scope.IsRequired := by
  intro call hcall hstart
  obtain ⟨session, hsession, hmem⟩ := List.mem_flatMap.1 hcall
  refine ⟨?_, scope_of_mem_calls hmem ▸ hrequired session hsession⟩
  cases session with
  | refused name => rw [List.mem_singleton.1 hmem]
  | ended name commits succeeded =>
    obtain rfl | hmem := List.mem_cons.1 hmem
    · rfl
    · rw [List.mem_singleton.1 hmem] at hstart
      cases commits <;> cases hstart

theorem ends_flatMap_calls : ∀ before call after, sessions.flatMap calls = before ++ call :: after →
    call.command ≠ .start → call.wasOpen = true ∧ before.getLast? =
      some { scope := call.scope, command := .start, wasOpen := false, succeeded := true } := by
  induction sessions with
  | nil =>
    intro before call after h
    simp at h
  | cons session rest ih =>
    intro before call after h hend
    have hlast : ∀ (first : TransactionCall) {last : TransactionCall} {before : List TransactionCall},
        before.getLast? = some last → (first :: before).getLast? = some last := by
      intro first last before hbefore
      rw [List.getLast?_cons, hbefore]
      rfl
    rw [List.flatMap_cons] at h
    -- The call is one of the session's own, or it is told by the sessions behind.
    cases session with
    | refused name =>
      rcases before with _ | ⟨first, before⟩
      · obtain ⟨rfl, -⟩ := List.cons.inj h
        exact absurd rfl hend
      · obtain ⟨hopen, hbefore⟩ := ih before call after (List.cons.inj h).2 hend
        exact ⟨hopen, hlast first hbefore⟩
    | ended name commits succeeded =>
      rcases before with _ | ⟨first, _ | ⟨second, before⟩⟩
      · obtain ⟨rfl, -⟩ := List.cons.inj h
        exact absurd rfl hend
      · obtain ⟨rfl, hrest⟩ := List.cons.inj h
        obtain ⟨rfl, -⟩ := List.cons.inj hrest
        exact ⟨rfl, rfl⟩
      · obtain ⟨hopen, hbefore⟩ :=
          ih before call after (List.cons.inj (List.cons.inj h).2).2 hend
        exact ⟨hopen, hlast first (hlast second hbefore)⟩

theorem countP_flatMap_calls_le (scope : ScopeName) (command : TransactionCommand) :
    (sessions.flatMap calls).countP (fun call => call.scope = scope && call.command = command) ≤
      (sessions.map name).count scope := by
  induction sessions with
  | nil => exact Nat.le_refl 0
  | cons session rest ih =>
    have hfirst := countP_calls_le session scope command
    rw [List.flatMap_cons, List.countP_append, List.map_cons, List.count_cons]
    simp only [beq_iff_eq]
    omega

/-- Sessions of different scopes that may begin a transaction. -/
theorem isDisciplined_flatMap_calls (hdistinct : (sessions.map name).Nodup)
    (hrequired : ∀ session ∈ sessions, session.name.IsRequired) :
    TransactionCall.IsDisciplined (sessions.flatMap calls) where
  starts := starts_flatMap_calls hrequired
  ends := ends_flatMap_calls
  once scope command :=
    Nat.le_trans (countP_flatMap_calls_le scope command) (List.nodup_iff_count.1 hdistinct scope)

end Session

/-! ## Entering a scope -/

namespace TransactionScope

variable (q : Querier σ)

/-- A scope that needs a transaction begins one where none is open. -/
theorem enter_of_closed {s : σ} (h : q.isOpen s = false) :
    enter q .required s =
      ((q.beginTransaction s).1.map fun _ => ⟨true⟩, (q.beginTransaction s).2) := by
  have hget : (get : Action σ σ) s = (.ok s, s) := rfl
  rw [enter, bind_apply, hget]
  simp only [h, Bool.not_false, Bool.and_true, decide_true, if_true, bind_apply]
  rcases q.beginTransaction s with ⟨_ | _, s'⟩ <;> rfl

/-- A scope that may not begin a transaction, or finds one open, joins what there is. -/
theorem enter_of_joined {p : Propagation} {s : σ} (h : ¬(p = .required ∧ q.isOpen s = false)) :
    enter q p s = (.ok ⟨false⟩, s) := by
  have hget : (get : Action σ σ) s = (.ok s, s) := rfl
  have hjoined : (decide (p = .required) && !q.isOpen s) = false := by simpa using h
  rw [enter, bind_apply, hget]
  simp only [hjoined, Bool.false_eq_true, if_false]
  rfl

end TransactionScope

/-- In a scope that began no transaction there is the work and nothing else. -/
theorem Querier.transactional_of_joined {q : Querier σ} {p : Propagation} {s : σ}
    (henter : TransactionScope.enter q p s = (.ok ⟨false⟩, s)) (work : Action σ α) :
    q.transactional p work s = work s := by
  rw [transactional_eq henter]
  rcases work s with ⟨_ | _, s'⟩ <;> rfl

/-- Without the transaction that it needs, a scope does no work. -/
theorem Querier.transactional_of_refused {q : Querier σ} {p : Propagation} {s s' : σ} {e : MigrationError}
    (henter : TransactionScope.enter q p s = (.error e, s')) (work : Action σ α) :
    q.transactional p work s = (.error e, s') := by
  rw [transactional, bind_apply, henter]

/-! ## Work in sessions -/

/-- What a querier promises of its transactions as long as they are not ended. -/
structure Querier.KeepsTransactions (q : Querier σ) : Prop where
  /-- A transaction that was begun is open. -/
  start : Meets (fun _ => True) q.beginTransaction (fun _ s => q.isOpen s = true) fun _ => True
  /-- A statement leaves the transaction open, also where it fails. -/
  statement : ∀ {α : Type} (x : Statement α), Meets (fun s => q.isOpen s = true) (x.perform q)
    (fun _ s => q.isOpen s = true) fun s => q.isOpen s = true

/-- What work in the world `s` comes to and what of it is written down behind `trace`: sessions of different
scopes with names in `names`, and none at all while a transaction is open. -/
structure Session.Explain (q : Querier σ) (names : ScopeName → Prop) (s : σ) (trace : List TransactionCall)
    (plain : Except MigrationError α × σ)
    (traced : Except MigrationError α × σ × List TransactionCall) (sessions : List Session) : Prop where
  result : traced = (plain.1, plain.2, trace ++ sessions.flatMap calls)
  distinct : (sessions.map name).Nodup
  names : ∀ session ∈ sessions, names session.name ∧ session.name.IsRequired
  isOpen : q.isOpen s = true → sessions = [] ∧ q.isOpen plain.2 = true

/-- Whether an action and its traced twin do the same, in sessions of the named scopes. -/
def Querier.Traces (q : Querier σ) (names : ScopeName → Prop) (x : Action σ α)
    (y : Action (σ × List TransactionCall) α) : Prop :=
  ∀ s trace, ∃ sessions, Session.Explain q names s trace (x s) (y (s, trace)) sessions

namespace Querier.Traces

variable {q : Querier σ} {names others all : ScopeName → Prop}

theorem done (outcome : Except MigrationError α) :
    q.Traces names (ExceptT.mk (pure outcome)) (ExceptT.mk (pure outcome)) := fun s trace =>
  ⟨[], { result := by rw [List.flatMap_nil, List.append_nil]; rfl
         distinct := .nil
         names := fun _ h => nomatch h
         isOpen := fun hopen => ⟨rfl, hopen⟩ }⟩

theorem statement (hq : q.KeepsTransactions) (x : Statement α) (name : ScopeName) :
    q.Traces names (x.perform q) (x.perform (q.traced name)) := fun s trace =>
  ⟨[], { result := by rw [List.flatMap_nil, List.append_nil]; cases x <;> rfl
         distinct := .nil
         names := fun _ h => nomatch h
         isOpen := fun hopen => ⟨rfl, by
          have hkept := hq.statement x s hopen
          rcases hresult : x.perform q s with ⟨_ | _, s'⟩ <;> rw [hresult] at hkept <;> exact hkept⟩ }⟩

/-- One after the other, whatever comes of the first. -/
theorem attempt_bind {x : Action σ β} {y : Action (σ × List TransactionCall) β}
    {f : Except MigrationError β → Action σ α}
    {g : Except MigrationError β → Action (σ × List TransactionCall) α}
    (hx : q.Traces names x y) (hf : ∀ outcome, q.Traces others (f outcome) (g outcome))
    (hnames : ∀ name, names name → all name) (hothers : ∀ name, others name → all name)
    (hapart : ∀ name, names name → ¬ others name) :
    q.Traces all (x.attempt >>= f) (y.attempt >>= g) := by
  intro s trace
  obtain ⟨first, hfirst⟩ := hx s trace
  obtain ⟨second, hsecond⟩ := hf (x s).1 (x s).2 (trace ++ first.flatMap Session.calls)
  have hplain : (x.attempt >>= f) s = f (x s).1 (x s).2 := rfl
  have htraced : (y.attempt >>= g) (s, trace) = g (y (s, trace)).1 (y (s, trace)).2 := rfl
  refine ⟨first ++ second, ?_, ?_, ?_, ?_⟩
  · rw [htraced, hfirst.result, hplain, List.flatMap_append, ← List.append_assoc]
    exact hsecond.result
  · rw [List.map_append, List.nodup_append]
    refine ⟨hfirst.distinct, hsecond.distinct, ?_⟩
    intro name hname other hother heq
    obtain ⟨session, hsession, rfl⟩ := List.mem_map.1 hname
    obtain ⟨session', hsession', rfl⟩ := List.mem_map.1 hother
    exact hapart _ (hfirst.names _ hsession).1 (heq ▸ (hsecond.names _ hsession').1)
  · intro session hsession
    rcases List.mem_append.1 hsession with h | h
    · exact ⟨hnames _ (hfirst.names _ h).1, (hfirst.names _ h).2⟩
    · exact ⟨hothers _ (hsecond.names _ h).1, (hsecond.names _ h).2⟩
  · intro hopen
    obtain ⟨hnone, hkept⟩ := hfirst.isOpen hopen
    obtain ⟨hnone', hkept'⟩ := hsecond.isOpen hkept
    exact ⟨by rw [hnone, hnone']; rfl, hkept'⟩

/-- A scope that begins a transaction writes down a session, in which the work writes down nothing. -/
theorem transactional_owned (hq : q.KeepsTransactions) (inner : ScopeName) {x : Action σ α}
    {y : Action (σ × List TransactionCall) α} (h : q.Traces names x y) {s : σ}
    (hclosed : q.isOpen s = false) (trace : List TransactionCall) :
    ∃ session : Session, session.name = inner ∧
      (q.traced inner).transactional .required y (s, trace) =
        ((q.transactional .required x s).1, (q.transactional .required x s).2,
          trace ++ session.calls) := by
  have henter := TransactionScope.enter_of_closed q hclosed
  have htraced := TransactionScope.enter_of_closed (q.traced inner) (s := (s, trace)) hclosed
  have hstart := hq.start s trivial
  let begun (succeeded : Bool) : TransactionCall :=
    { scope := inner, command := .start, wasOpen := false, succeeded }
  have hbegin : (q.traced inner).beginTransaction (s, trace) =
      ((q.beginTransaction s).1, (q.beginTransaction s).2, trace ++ [begun (q.beginTransaction s).1.isOk]) := by
    simp only [traced, call, hclosed, begun]
  rw [hbegin] at htraced
  rcases hresult : q.beginTransaction s with ⟨e | _, s₁⟩ <;> rw [hresult] at henter htraced hstart
  · rw [Querier.transactional_of_refused henter, Querier.transactional_of_refused htraced]
    exact ⟨.refused inner, rfl, rfl⟩
  · rw [Querier.transactional_eq henter, Querier.transactional_eq htraced]
    -- The work leaves the transaction open and writes down nothing.
    obtain ⟨sessions, hwork⟩ := h s₁ (trace ++ [begun true])
    obtain ⟨rfl, hopen⟩ := hwork.isOpen hstart
    have hy := hwork.result
    rw [List.flatMap_nil, List.append_nil] at hy
    change ∃ session : Session, session.name = inner ∧
      TransactionScope.finish ⟨true⟩ (q.traced inner) (y (s₁, trace ++ [begun true])).1
        (y (s₁, trace ++ [begun true])).2 = _
    rw [hy]
    rcases hx : x s₁ with ⟨e | a, s₂⟩ <;> rw [hx] at hopen
    · have hopen' : (q.traced inner).isOpen (s₂, trace ++ [begun true]) = true := hopen
      refine ⟨.ended inner false (q.rollbackTransaction s₂).1.isOk, rfl, ?_⟩
      rw [TransactionScope.finish_error, TransactionScope.finish_error, if_pos hopen, if_pos hopen']
      simp [traced, call, Session.calls, begun, hopen]
    · refine ⟨.ended inner true (q.commitTransaction s₂).1.isOk, rfl, ?_⟩
      rw [TransactionScope.finish_ok, TransactionScope.finish_ok]
      simp [traced, call, Session.calls, begun, hopen]

/-- A scope writes down one session if it begins a transaction, and otherwise what the work in it writes down. -/
theorem transactional (hq : q.KeepsTransactions) {place : Nat} {p : Propagation} {outer : ScopeName}
    {x : Action σ α} {y : Action (σ × List TransactionCall) α} (h : q.Traces names x y)
    (hnames : ∀ name, names name → (place, p) :: outer <:+ name) :
    q.Traces (fun name => (place, p) :: outer <:+ name) (q.transactional p x)
      ((q.traced ((place, p) :: outer)).transactional p y) := by
  intro s trace
  by_cases howned : p = .required ∧ q.isOpen s = false
  · obtain ⟨rfl, hclosed⟩ := howned
    have hrequired : ScopeName.IsRequired ((place, .required) :: outer) := rfl
    obtain ⟨session, hname, hsession⟩ := transactional_owned hq (_ :: outer) h hclosed trace
    refine ⟨[session], ?_, by simp, ?_, ?_⟩
    · rw [hsession, List.flatMap_singleton]
    · intro other hother
      rw [List.mem_singleton.1 hother, hname]
      exact ⟨List.suffix_refl _, hrequired⟩
    · intro hopen
      rw [hclosed] at hopen
      cases hopen
  · have henter := TransactionScope.enter_of_joined q howned
    have htraced := TransactionScope.enter_of_joined (q.traced ((place, p) :: outer)) (s := (s, trace)) howned
    obtain ⟨sessions, hsessions⟩ := h s trace
    rw [Querier.transactional_of_joined henter, Querier.transactional_of_joined htraced]
    exact ⟨sessions, hsessions.result, hsessions.distinct,
      fun session hmem => ⟨hnames _ (hsessions.names _ hmem).1, (hsessions.names _ hmem).2⟩,
      hsessions.isOpen⟩

end Querier.Traces

/-- Whether a scope is one of those inside `outer` behind the first `n`, or inside of one. -/
def ScopeName.Follows (outer : ScopeName) (n : Nat) (inner : ScopeName) : Prop :=
  ∃ m p, n ≤ m ∧ (m, p) :: outer <:+ inner

/-- A tree of scopes does on the queriers that write down what it does on the querier itself. -/
theorem Work.traces_perform {q : Querier σ} (hq : q.KeepsTransactions) (w : Work α) (name : ScopeName)
    (n : Nat) :
    q.Traces (name.Follows n) (w.perform (fun _ => q) name n) (w.perform q.traced name n) := by
  induction w generalizing name n with
  | done outcome => exact .done outcome
  | statement x next ih =>
    have hnone : q.Traces (fun _ => False) (x.perform q) (x.perform (q.traced name)) := .statement hq x name
    exact hnone.attempt_bind (fun outcome => ih outcome name n) nofun (fun _ h => h) nofun
  | scope p body next ihbody ihnext =>
    have hinside : ∀ inner, ScopeName.Follows ((n, p) :: name) 0 inner → (n, p) :: name <:+ inner :=
      fun inner ⟨_, _, _, h⟩ => (List.suffix_cons _ _).trans h
    refine .attempt_bind (.transactional hq (ihbody _ 0) hinside) (fun outcome => ihnext outcome name (n + 1))
      (fun inner h => ⟨n, p, Nat.le_refl n, h⟩) (fun inner ⟨m, p', hm, h⟩ => ⟨m, p', by omega, h⟩) ?_
    -- Names that end in different scopes beside each other are different.
    rintro inner h ⟨m, p', hm, h'⟩
    have hsame := (List.suffix_of_suffix_length_le h h' (by simp)).eq_of_length (by simp)
    simp only [List.cons.injEq, Prod.mk.injEq] at hsame
    omega

/-! ## Queriers that keep the promise -/

/-- In a recorded session a statement is only written down. -/
theorem Recording.keepsTransactions_querier (script : SessionScript) :
    (querier script).KeepsTransactions where
  start := by
    apply Meets.bind Meets.of_any
    intro s
    apply Meets.ite
    · exact fun _ => .bind (R := fun _ _ => False) (.of_throw fun _ _ => trivial) fun _ _ h => h.elim
    · exact fun _ => Meets.bind Meets.of_any fun _ => .of_modify fun _ _ => rfl
  statement x := by
    have hrecord : ∀ entry, Meets (fun s : Recording => s.isOpen = true) (record script entry)
        (fun _ s => s.isOpen = true) fun s => s.isOpen = true := by
      intro entry
      refine Meets.bind (R := fun _ (s : Recording) => s.isOpen = true) ?_ fun _ => Meets.ite ?_ ?_
      · exact .of_modify fun _ h => h
      · exact fun _ => .of_throw fun _ h => h
      · exact fun _ => .of_pure fun _ h => h
    cases x with
    | run sql => exact hrecord sql
    | all sql => exact (hrecord sql).bind fun _ => .of_pure fun _ h => h
    | command c =>
      apply Meets.ite
      · exact fun _ => hrecord _
      · exact fun _ => .of_throw fun _ h => h

/-- On a connection to SQLite only the commands that begin and end a transaction change what is open. -/
theorem Sqlite.Connection.keepsTransactions_querier {δ : Type} (b : Backend δ) :
    (querier b).KeepsTransactions where
  start := by
    apply Meets.bind Meets.of_any
    intro c
    apply Meets.ite
    · exact fun _ => .bind (R := fun _ _ => False) (.of_throw fun _ _ => trivial) fun _ _ h => h.elim
    · exact fun _ => Meets.bind Meets.of_any fun _ => .of_modify fun _ _ => rfl
  statement x := by
    have hsend : ∀ sql, Meets (fun c : Connection δ => c.inTransaction = true) (send b sql)
        (fun _ c => c.inTransaction = true) fun c => c.inTransaction = true := by
      intro sql
      refine Meets.bind (R := fun _ (c : Connection δ) => c.inTransaction = true) ?_ ?_
      · refine Meets.bind (R := fun _ (c : Connection δ) => c.inTransaction = true) ?_ fun c => Meets.ite ?_ ?_
        · exact .of_get fun _ h => h
        · exact fun _ => .of_throw fun _ h => h
        · exact fun _ => .of_pure fun _ h => h
      · intro _ c hopen
        change Ends _ _ (((b.send sql) c.database).1, { c with database := _ })
        rcases (b.send sql c.database).1 with _ | _ <;> exact hopen
    cases x with
    | run sql => exact (hsend sql).bind fun _ => .of_pure fun _ h => h
    | all sql => exact hsend sql
    | command c => exact .of_throw fun _ h => h

/-! ## Every tree of scopes -/

/-- Whatever a tree of scopes does and whatever comes of it, of its statements and of each transaction command,
the commands that are given are disciplined, and writing them down changes nothing else. A scope that is
entered while a transaction is open gives no command and leaves the transaction open. -/
theorem Work.isDisciplined_perform {q : Querier σ} (hq : q.KeepsTransactions) :
    (∀ {α : Type} (w : Work α) (s : σ), ∃ trace,
      w.perform q.traced [] 0 (s, []) =
          ((w.perform (fun _ => q) [] 0 s).1, (w.perform (fun _ => q) [] 0 s).2, trace) ∧
        TransactionCall.IsDisciplined trace) ∧
    ∀ {α : Type} (p : Propagation) (body : Work α) (place : Nat) (outer : ScopeName) (s : σ)
      (trace : List TransactionCall), q.isOpen s = true →
        let inner := (place, p) :: outer
        let behind := (q.traced inner).transactional p (body.perform q.traced inner 0) (s, trace)
        q.isOpen behind.2.1 = true ∧ behind.2.2 = trace := by
  refine ⟨fun w s => ?_, fun p body place outer s trace hopen => ?_⟩
  · obtain ⟨sessions, hsessions⟩ := w.traces_perform hq [] 0 s []
    exact ⟨sessions.flatMap Session.calls, hsessions.result,
      Session.isDisciplined_flatMap_calls hsessions.distinct fun session h => (hsessions.names session h).2⟩
  · intro inner behind
    have hjoined : ¬(p = .required ∧ q.isOpen s = false) := by simp [hopen]
    have henter := TransactionScope.enter_of_joined (q.traced inner) (s := (s, trace)) hjoined
    have hbehind : behind = body.perform q.traced inner 0 (s, trace) :=
      Querier.transactional_of_joined henter _
    obtain ⟨sessions, hsessions⟩ := body.traces_perform hq inner 0 s trace
    obtain ⟨rfl, hkept⟩ := hsessions.isOpen hopen
    rw [hbehind, hsessions.result]
    exact ⟨hkept, List.append_nil trace⟩

/-- A scope that fails inside of a transaction, where its failure is passed over, does not keep the scope around
it from its commit. The scope outside of both begins nothing. -/
theorem Work.isDisciplined_perform_swallowed :
    let q := Recording.querier { failOn := ["DROP"] }
    let failing : Work Unit := .statement (.run "DROP TABLE tag") .done
    let swallowing : Work Unit := .scope .required failing fun _ => .done (.ok ())
    let cleaning : Work Unit := .statement (.run "DELETE FROM tag") fun _ => swallowing
    let w : Work Unit := .scope .supported (.scope .required cleaning .done) .done
    let cleaner : ScopeName := [(0, .required), (0, .supported)]
    let trace : List TransactionCall :=
      [{ scope := cleaner, command := .start, wasOpen := false, succeeded := true },
        { scope := cleaner, command := .commit, wasOpen := true, succeeded := true }]
    let told := ["DROP TABLE tag", "DELETE FROM tag", "BEGIN"]
    q.KeepsTransactions ∧
      w.perform q.traced [] 0 ({}, []) = (.ok (), { told := "COMMIT" :: told }, trace) ∧
      TransactionCall.IsDisciplined trace ∧
      q.isOpen ((q.traced ((0, .required) :: cleaner)).transactional .required
        (failing.perform q.traced ((0, .required) :: cleaner) 0) ({ isOpen := true }, [])).2.1 = true := by
  intro q failing swallowing cleaning w cleaner trace told
  have hq : q.KeepsTransactions := Recording.keepsTransactions_querier _
  have hrun : w.perform q.traced [] 0 ({}, []) = (.ok (), { told := "COMMIT" :: told }, trace) := by
    rfl
  obtain ⟨written, hwritten, hdisciplined⟩ := (isDisciplined_perform hq).1 w {}
  have hsame : written = trace := congrArg (·.2.2) (hwritten.symm.trans hrun)
  have hopen := (isDisciplined_perform hq).2 .required failing 0 cleaner { isOpen := true } [] rfl
  exact ⟨hq, hrun, hsame ▸ hdisciplined, hopen.1⟩

end EntitySql
