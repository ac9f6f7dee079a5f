import EntitySql.Migration.Transaction
import EntitySql.Proofs.Action
/-!
# A database with atomic transactions

A database behind one pooled connection. What is done in a transaction is done to a copy, which
takes the place of the database when the transaction is committed and is forgotten when it is rolled
back or the connection closed. Anything that is asked of the database may fail, and a failure may
cost the open transaction. What a statement does and which rows a query has is left open.

The journal lists what became lasting: the statements of each committed transaction, and each
statement outside of one.
-/

namespace EntitySql

/-- An open transaction. -/
structure Transaction (δ : Type) where
  /-- The copy that the transaction works on. -/
  state : δ
  /-- What has been run, in order. -/
  statements : List String

/-- A database and the connection to it. -/
structure Store (δ : Type) where
  /-- What is lasting. -/
  committed : δ
  /-- The transactions that made it so, in order. -/
  journal : List (List String) := []
  /-- The transaction that the database has open. -/
  working? : Option (Transaction δ) := none
  /-- Whether the connection takes a transaction to be open. -/
  pending : Bool := false
  /-- How often something was asked of the database. -/
  clock : Nat := 0

/-- A refusal of the database. -/
structure Failure where
  error : MigrationError
  /-- Whether the database gives up the open transaction. -/
  aborts : Bool := false

/-- How a database behaves. -/
structure Database (δ : Type) where
  dialect : Dialect
  /-- What a statement does that does not control transactions. -/
  execute : String → δ → δ
  /-- The rows of a query. -/
  query : String → δ → List Row
  /-- What a statement does that controls transactions. -/
  control? : String → Option (Store δ → Store δ) := fun _ => none
  /-- The failure, if there is one, of whatever is asked at that time. -/
  fails? : Nat → Option Failure := fun _ => none

namespace Store

variable {δ : Type}

/-- What a query sees. -/
def visible (s : Store δ) : δ :=
  match s.working? with
  | some t => t.state
  | none => s.committed

/-- Ends the open transaction and makes it lasting. -/
def commit (s : Store δ) : Store δ :=
  match s.working? with
  | some t =>
    { s with
      committed := t.state
      journal := s.journal ++ [t.statements]
      working? := none
      pending := false }
  | none => { s with pending := false }

/-- Forgets the open transaction. -/
def forget (s : Store δ) : Store δ := { s with working? := none, pending := false }

end Store

namespace Database

variable {δ : Type} (db : Database δ)

/-- The outcome of statements that are run one after the other. -/
def replay (statements : List String) (state : δ) : δ :=
  statements.foldl (fun state sql => db.execute sql state) state

/-- Runs a statement in the open transaction, or in one of its own. -/
def write (sql : String) (s : Store δ) : Store δ :=
  match s.working? with
  | some t =>
    { s with
      working? := some { state := db.execute sql t.state, statements := t.statements ++ [sql] } }
  | none =>
    { s with committed := db.execute sql s.committed, journal := s.journal ++ [[sql]] }

/-- Asks something of the database, which may refuse. -/
def ask : Action (Store δ) Unit := do
  let failure? := db.fails? (← get).clock
  modify fun s => { s with clock := s.clock + 1 }
  match failure? with
  | some failure => do
    modify fun s => { s with working? := if failure.aborts then none else s.working? }
    throw failure.error
  | none => pure ()

/-- Takes the connection out of the pool, with whatever transaction the database has open there. -/
def acquire : Action (Store δ) Unit := do
  db.ask
  modify fun s => { s with pending := false }

/-- The querier on the connection. -/
def querier : Querier (Store δ) where
  kind := .sql db.dialect
  isOpen s := s.pending
  all sql := do
    db.ask
    return db.query sql (← get).visible
  run sql := do
    db.ask
    modify ((db.control? sql).getD (db.write sql))
  beginTransaction := do
    if (← get).pending then throw .pendingTransaction
    db.ask
    modify fun s =>
      { s with working? := some { state := s.committed, statements := [] }, pending := true }
  commitTransaction := do
    if !(← get).pending then throw .noActiveTransaction
    db.ask
    modify Store.commit
  rollbackTransaction := do
    if !(← get).pending then throw .noActiveTransaction
    db.ask
    modify Store.forget
  release := do
    if (← get).pending then throw .pendingTransaction
    db.ask
  discard := do
    modify Store.forget
    db.ask

/-- Whether a statement does not control transactions. -/
def IsPlain (sql : String) : Prop := db.control? sql = none

end Database

namespace Store

variable {δ : Type} {db : Database δ} {c : δ} {journal : List (List String)}

/-! ## States of the connection -/

/-- What is lasting. -/
structure Holds (c : δ) (journal : List (List String)) (s : Store δ) : Prop where
  committed : s.committed = c
  journal : s.journal = journal

/-- No transaction is open. -/
structure Rests (c : δ) (journal : List (List String)) (s : Store δ) : Prop
    extends Holds c journal s where
  working : s.working? = none

/-- No transaction is open, and the connection knows it. -/
structure Idles (c : δ) (journal : List (List String)) (s : Store δ) : Prop
    extends Rests c journal s where
  pending : s.pending = false

/-- A transaction is open and has run the statements. -/
structure Works (db : Database δ) (c : δ) (journal : List (List String)) (statements : List String)
    (s : Store δ) : Prop extends Holds c journal s where
  working : s.working? = some { state := db.replay statements c, statements }
  pending : s.pending = true

/-- The connection takes a transaction to be open, and what is left of it is not to last. -/
structure Breaks (c : δ) (journal : List (List String)) (s : Store δ) : Prop
    extends Holds c journal s where
  pending : s.pending = true

/-- No transaction is open behind the back of the connection. -/
structure Settles (c : δ) (journal : List (List String)) (s : Store δ) : Prop
    extends Holds c journal s where
  working : s.pending = false → s.working? = none

theorem Rests.settles {s : Store δ} (h : Rests c journal s) : Settles c journal s :=
  ⟨h.toHolds, fun _ => h.working⟩

theorem Breaks.settles {s : Store δ} (h : Breaks c journal s) : Settles c journal s :=
  ⟨h.toHolds, fun hpending => absurd hpending (by simp [h.pending])⟩

end Store

/-! ## What the querier does -/

namespace Database

open EntitySql.Action Store

variable {δ : Type} {db : Database δ} {c : δ} {journal : List (List String)}

/-- What is asked of the database leaves everything as it is, but for the open transaction where it
fails. -/
theorem meets_ask {P E : Store δ → Prop} (hP : ∀ s, P s → P { s with clock := s.clock + 1 })
    (hE : ∀ s, P s → ∀ working?, working? = s.working? ∨ working? = none → E { s with working? }) :
    Meets P db.ask (fun _ => P) E := by
  unfold ask
  apply Meets.bind (R := fun _ => P)
  · exact .of_get fun _ hs => hs
  intro s
  apply Meets.bind (R := fun _ => P)
  · exact .of_modify hP
  intro _
  cases db.fails? s.clock with
  | none => exact .of_pure fun _ hs => hs
  | some failure =>
    apply Meets.bind (R := fun _ => E)
    · apply Meets.of_modify
      intro s hs
      apply hE s hs
      by_cases haborts : failure.aborts = true
      · exact .inr (if_pos haborts)
      · exact .inl (if_neg haborts)
    · intro _
      exact .of_throw fun _ hs => hs

theorem meets_ask_rests :
    Meets (Rests c journal) db.ask (fun _ => Rests c journal) (Rests c journal) := by
  apply meets_ask
  · intro s hs
    exact ⟨⟨hs.committed, hs.journal⟩, hs.working⟩
  · intro s hs working? hworking
    refine ⟨⟨hs.committed, hs.journal⟩, ?_⟩
    rcases hworking with rfl | rfl
    · exact hs.working
    · rfl

theorem meets_ask_idles :
    Meets (Idles c journal) db.ask (fun _ => Idles c journal) (Idles c journal) := by
  apply meets_ask
  · intro s hs
    exact ⟨⟨⟨hs.committed, hs.journal⟩, hs.working⟩, hs.pending⟩
  · intro s hs working? hworking
    refine ⟨⟨⟨hs.committed, hs.journal⟩, ?_⟩, hs.pending⟩
    rcases hworking with rfl | rfl
    · exact hs.working
    · rfl

theorem meets_ask_works {statements : List String} :
    Meets (Works db c journal statements) db.ask (fun _ => Works db c journal statements)
      (Breaks c journal) :=
  meets_ask (fun _ hs => ⟨⟨hs.committed, hs.journal⟩, hs.working, hs.pending⟩)
    fun _ hs _ _ => ⟨⟨hs.committed, hs.journal⟩, hs.pending⟩

theorem meets_ask_breaks :
    Meets (Breaks c journal) db.ask (fun _ => Breaks c journal) (Breaks c journal) :=
  meets_ask (fun _ hs => ⟨⟨hs.committed, hs.journal⟩, hs.pending⟩)
    fun _ hs _ _ => ⟨⟨hs.committed, hs.journal⟩, hs.pending⟩

theorem meets_acquire :
    Meets (Rests c journal) db.acquire (fun _ => Idles c journal) (Rests c journal) :=
  .bind meets_ask_rests fun _ => .of_modify fun _ hs =>
    ⟨⟨⟨hs.committed, hs.journal⟩, hs.working⟩, rfl⟩

/-- Who looks finds no transaction open. -/
theorem meets_get_bind {α : Type} {f : Store δ → Action (Store δ) α} {Q : α → Store δ → Prop}
    {E : Store δ → Prop} (hf : ∀ s, s.pending = false → Meets (Idles c journal) (f s) Q E) :
    Meets (Idles c journal) (get >>= f) Q E := by
  apply Meets.bind (R := fun s s' => s.pending = false ∧ Idles c journal s')
  · exact .of_get fun _ hs => ⟨hs.pending, hs⟩
  · exact fun s => .assume (hf s)

theorem meets_begin :
    Meets (Idles c journal) db.querier.beginTransaction (fun _ => Works db c journal [])
      (Idles c journal) := by
  apply meets_get_bind
  intro s hnone
  apply Meets.ite
  · intro hpending
    simp [hnone] at hpending
  · intro _
    apply Meets.bind meets_ask_idles
    intro _
    exact .of_modify fun s hs => ⟨⟨hs.committed, hs.journal⟩, by rw [hs.committed]; rfl, rfl⟩

theorem meets_run {sql : String} (hsql : db.IsPlain sql) {statements : List String} :
    Meets (Works db c journal statements) (db.querier.run sql)
      (fun _ => Works db c journal (statements ++ [sql])) (Breaks c journal) := by
  apply Meets.bind meets_ask_works
  intro _
  apply Meets.of_modify
  intro s hs
  rw [hsql, Option.getD_none, write, hs.working]
  exact ⟨⟨hs.committed, hs.journal⟩, by simp [replay], hs.pending⟩

theorem meets_all (sql : String) :
    Meets (Idles c journal) (db.querier.all sql)
      (fun rows s => rows = db.query sql c ∧ Idles c journal s)
      (Idles c journal) := by
  apply Meets.bind meets_ask_idles
  intro _
  apply Meets.bind (R := fun s s' => s.visible = c ∧ Idles c journal s')
  · apply Meets.of_get
    intro s hs
    refine ⟨?_, hs⟩
    rw [visible, hs.working]
    exact hs.committed
  intro s
  apply Meets.assume
  intro hvisible
  exact .of_pure fun _ hs => ⟨by rw [hvisible], hs⟩

/-- Only a transaction that the connection takes to be open is ended. -/
theorem meets_end {P E : Store δ → Prop} {Q : Unit → Store δ → Prop} {f : Store δ → Store δ}
    (hpending : ∀ s, P s → s.pending = true) (hask : Meets P db.ask (fun _ => P) E)
    (hf : ∀ s, P s → Q () (f s)) :
    Meets P (do
      if !(← get).pending then throw .noActiveTransaction
      db.ask
      modify f) Q E := by
  apply Meets.bind (R := fun s s' => s.pending = true ∧ P s')
  · exact .of_get fun s hs => ⟨hpending s hs, hs⟩
  intro s
  apply Meets.assume
  intro hsome
  apply Meets.ite
  · intro hnone
    simp [hsome] at hnone
  · intro _
    exact .bind hask fun _ => .of_modify hf

theorem meets_commit {statements : List String} :
    Meets (Works db c journal statements) db.querier.commitTransaction
      (fun _ => Idles (db.replay statements c) (journal ++ [statements])) (Breaks c journal) := by
  apply meets_end (fun _ hs => hs.pending) meets_ask_works
  intro s hs
  simp only [Store.commit, hs.working]
  exact ⟨⟨⟨rfl, by rw [hs.journal]⟩, rfl⟩, rfl⟩

theorem meets_rollback :
    Meets (Breaks c journal) db.querier.rollbackTransaction (fun _ => Idles c journal)
      (Breaks c journal) :=
  meets_end (fun _ hs => hs.pending) meets_ask_breaks fun _ hs =>
    ⟨⟨⟨hs.committed, hs.journal⟩, rfl⟩, rfl⟩

theorem meets_discard :
    Meets (Holds c journal) db.querier.discard (fun _ => Rests c journal) (Rests c journal) :=
  .bind (R := fun _ => Rests c journal) (.of_modify fun _ hs => ⟨⟨hs.committed, hs.journal⟩, rfl⟩)
    fun _ => meets_ask_rests

end Database

end EntitySql
