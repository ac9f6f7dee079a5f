import EntitySql.Proofs.Migration.NestedScopes
/-!
# Attempts in order

What consists of several things to do ends at the first of them that fails (`Tried.Follows`). An action can be
watched while it is done: a twin of it does the same and writes down what it tries (`Action.Watches`). So the
twin of work in a scope that begins a transaction tries to begin it, to do the work and to commit it
(`Querier.WatchesScopes.transactional`).
-/

namespace EntitySql

open EntitySql.Action

/-- Something that was tried. -/
structure Tried (ι : Type) where
  item : ι
  succeeded : Bool
deriving DecidableEq

/-- Whether items were tried one after the other up to the first that failed. -/
inductive Tried.Follows {ι : Type} : List ι → List (Tried ι) → Prop
  | nil : Follows [] []
  | failed (i : ι) (rest : List ι) : Follows (i :: rest) [⟨i, false⟩]
  | succeeded (i : ι) {rest : List ι} {tried : List (Tried ι)} (h : Follows rest tried) :
    Follows (i :: rest) (⟨i, true⟩ :: tried)

namespace Tried.Follows

variable {ι : Type} {plan others : List ι} {tried behind : List (Tried ι)}

theorem item_mem (h : Follows plan tried) {t : Tried ι} (ht : t ∈ tried) : t.item ∈ plan := by
  induction h with
  | nil => cases ht
  | failed i rest => rw [List.mem_singleton.1 ht]; exact .head rest
  | succeeded i _ ih =>
    rcases List.mem_cons.1 ht with rfl | ht
    · exact .head _
    · exact .tail i (ih ht)

/-- If nothing fails, all of the plan succeeds in its order. -/
theorem eq_map (h : Follows plan tried) (hall : tried.all (·.succeeded) = true) :
    tried = plan.map (⟨·, true⟩) := by
  induction h with
  | nil => rfl
  | failed i rest => cases hall
  | succeeded i _ ih => exact congrArg (_ :: ·) (ih hall)

theorem map_item (h : Follows plan tried) (hall : tried.all (·.succeeded) = true) : tried.map (·.item) = plan := by
  rw [h.eq_map hall, List.map_map]
  exact List.map_id plan

theorem exists_failed (h : Follows plan tried) (hfailed : tried.all (·.succeeded) = false) :
    ∃ t ∈ tried, t.succeeded = false ∧ t.item ∈ plan := by
  obtain ⟨t, ht, hfailed⟩ := List.all_eq_false.1 hfailed
  exact ⟨t, ht, Bool.eq_false_iff.2 hfailed, h.item_mem ht⟩

theorem of_cons {t : Tried ι} (h : Follows plan (t :: behind)) : ∃ rest, plan = t.item :: rest ∧
    (t.succeeded = false ∧ behind = [] ∨ t.succeeded = true ∧ Follows rest behind) := by
  cases h with
  | failed i rest => exact ⟨rest, rfl, .inl ⟨rfl, rfl⟩⟩
  | succeeded i h => exact ⟨_, rfl, .inr ⟨rfl, h⟩⟩

theorem singleton (i : ι) (succeeded : Bool) : Follows [i] [⟨i, succeeded⟩] := by
  cases succeeded with
  | false => exact .failed i []
  | true => exact .succeeded i .nil

/-- Once all items have succeeded, others can follow. -/
theorem append (h : Follows plan tried) (hall : tried.all (·.succeeded) = true) (hothers : Follows others behind) :
    Follows (plan ++ others) (tried ++ behind) := by
  induction h with
  | nil => exact hothers
  | failed i rest => cases hall
  | succeeded i _ ih => exact .succeeded i (ih hall)

/-- Behind a failure nothing is tried. -/
theorem append_of_failed (h : Follows plan tried) (hfailed : tried.all (·.succeeded) = false) (others : List ι) :
    Follows (plan ++ others) tried := by
  induction h with
  | nil => cases hfailed
  | failed i rest => exact .failed i (rest ++ others)
  | succeeded i _ ih => exact .succeeded i (ih hfailed)

end Tried.Follows

/-! ## Watched actions -/

variable {σ α β ι : Type}

/-- Does something and writes it down as an attempt at `item`. -/
def Action.noted (x : Action σ α) (item : ι) : Action (σ × List (Tried ι)) α := fun (s, log) =>
  ((x s).1, (x s).2, log ++ [{ item, succeeded := (x s).1.isOk }])

/-- Whether an action does the same as another one and writes down what it tries of a plan. It succeeds if all of
that does. -/
def Action.Watches (plan : List ι) (x : Action σ α) (y : Action (σ × List (Tried ι)) α) : Prop :=
  ∀ s log, ∃ tried, y (s, log) = ((x s).1, (x s).2, log ++ tried) ∧ Tried.Follows plan tried ∧
    (x s).1.isOk = tried.all (·.succeeded)

namespace Action.Watches

variable {plan others : List ι}

theorem noted (x : Action σ α) (item : ι) : Watches [item] x (x.noted item) := fun s _ =>
  ⟨[⟨item, (x s).1.isOk⟩], rfl, .singleton item _, (Bool.and_true _).symm⟩

theorem of_pure (a : α) : Watches ([] : List ι) (pure a : Action σ α) (pure a) := fun s log =>
  ⟨[], by rw [List.append_nil]; rfl, .nil, rfl⟩

theorem bind {x : Action σ β} {y : Action (σ × List (Tried ι)) β} {f : β → Action σ α}
    {g : β → Action (σ × List (Tried ι)) α} (hx : Watches plan x y) (hf : ∀ b, Watches others (f b) (g b)) :
    Watches (plan ++ others) (x >>= f) (y >>= g) := by
  intro s log
  obtain ⟨tried, hy, hplan, hsuccess⟩ := hx s log
  rcases hresult : x s with ⟨e | b, s'⟩ <;> rw [hresult] at hy hsuccess
  · exact ⟨tried, by rw [bind_apply, bind_apply, hy, hresult], hplan.append_of_failed hsuccess.symm others,
      by rw [bind_apply, hresult, ← hsuccess]; rfl⟩
  · obtain ⟨behind, hg, hothers, hrest⟩ := hf b s' (log ++ tried)
    refine ⟨tried ++ behind, ?_, hplan.append hsuccess.symm hothers, ?_⟩
    · rw [bind_apply, bind_apply, hy, hresult, ← List.append_assoc]
      exact hg
    · rw [bind_apply, hresult, List.all_append, ← hsuccess]
      exact hrest

theorem forM {κ : Type} {f : κ → Action σ PUnit} {g : κ → Action (σ × List (Tried ι)) PUnit} {item : κ → ι}
    (h : ∀ k, Watches [item k] (f k) (g k)) (items : List κ) :
    Watches (items.map item) (items.forM f) (items.forM g) := by
  induction items with
  | nil => exact .of_pure _
  | cons k rest ih => exact (h k).bind fun _ => ih

end Action.Watches

/-! ## Watched scopes -/

/-- Whether a querier does the same as another one about transactions and writes down how they are begun and
committed. How they are taken back is written down as `back`, if at all. -/
structure Querier.WatchesScopes (start commit : ι) (back : ι → Prop) (q : Querier σ)
    (watching : Querier (σ × List (Tried ι))) : Prop where
  isOpen : ∀ s log, watching.isOpen (s, log) = q.isOpen s
  begin : watching.beginTransaction = q.beginTransaction.noted start
  commit : watching.commitTransaction = q.commitTransaction.noted commit
  rollback : ∀ s log, ∃ ends, watching.rollbackTransaction (s, log) =
    ((q.rollbackTransaction s).1, (q.rollbackTransaction s).2, log ++ ends) ∧ ∀ entry ∈ ends, back entry.item

namespace Querier.WatchesScopes

variable {start commit : ι} {back : ι → Prop} {q : Querier σ} {watching : Querier (σ × List (Tried ι))}
  {plan : List ι} {work : Action σ α} {watched : Action (σ × List (Tried ι)) α}

/-- How a watched scope ends behind work that failed. -/
theorem finish_error (h : q.WatchesScopes start commit back watching) (e : MigrationError) (s : σ)
    (log : List (Tried ι)) :
    ∃ ends, TransactionScope.finish ⟨true⟩ watching (.error e : Except MigrationError α) (s, log) =
        (.error e, (TransactionScope.finish ⟨true⟩ q (.error e : Except MigrationError α) s).2, log ++ ends) ∧
      ∀ entry ∈ ends, back entry.item := by
  rw [TransactionScope.finish_error, TransactionScope.finish_error, h.isOpen]
  by_cases hopen : q.isOpen s = true
  · obtain ⟨ends, hrollback, hback⟩ := h.rollback s log
    exact ⟨ends, by rw [if_pos hopen, if_pos hopen, hrollback], hback⟩
  · exact ⟨[], by rw [if_neg hopen, if_neg hopen, List.append_nil], nofun⟩

/-- Work in a scope that has to begin a transaction is done between the begin and the commit. What is written down
of a rollback is behind that, and there is nothing of it if all succeeded. -/
theorem transactional (h : q.WatchesScopes start commit back watching) (hwork : Watches plan work watched) {s : σ}
    (hclosed : q.isOpen s = false) (log : List (Tried ι)) :
    ∃ tried ends, watching.transactional .required watched (s, log) =
        ((q.transactional .required work s).1, (q.transactional .required work s).2, log ++ (tried ++ ends)) ∧
      Tried.Follows (start :: (plan ++ [commit])) tried ∧
      (q.transactional .required work s).1.isOk = tried.all (·.succeeded) ∧
      (tried.all (·.succeeded) = true → ends = []) ∧ ∀ entry ∈ ends, back entry.item := by
  have henter := TransactionScope.enter_of_closed q hclosed
  have hentered := TransactionScope.enter_of_closed watching (s := (s, log)) (by rw [h.isOpen, hclosed])
  have hbegin : watching.beginTransaction (s, log) =
      ((q.beginTransaction s).1, (q.beginTransaction s).2, log ++ [⟨start, (q.beginTransaction s).1.isOk⟩]) := by
    rw [h.begin]
    rfl
  rw [hbegin] at hentered
  rcases hresult : q.beginTransaction s with ⟨e | _, s₁⟩ <;> rw [hresult] at henter hentered
  · rw [Querier.transactional_of_refused henter, Querier.transactional_of_refused hentered]
    exact ⟨[⟨start, false⟩], [], rfl, .failed _ _, rfl, fun _ => rfl, nofun⟩
  · let begun := log ++ [⟨start, true⟩]
    obtain ⟨tried, hwatched, hplan, hsuccess⟩ := hwork s₁ begun
    have hfinished : watching.transactional .required watched (s, log) =
        TransactionScope.finish ⟨true⟩ watching (work s₁).1 ((work s₁).2, begun ++ tried) := by
      rw [Querier.transactional_eq hentered]
      change TransactionScope.finish ⟨true⟩ watching (watched (s₁, begun)).1 (watched (s₁, begun)).2 = _
      rw [hwatched]
    rw [hfinished, Querier.transactional_eq henter]
    rcases hworked : work s₁ with ⟨e | a, s₂⟩ <;> rw [hworked] at hsuccess
    · have hfailed : (⟨start, true⟩ :: tried).all (·.succeeded) = false := hsuccess.symm
      obtain ⟨ends, hends, hback⟩ := h.finish_error (α := α) e s₂ (begun ++ tried)
      refine ⟨⟨start, true⟩ :: tried, ends, ?_, .succeeded start (hplan.append_of_failed hsuccess.symm _), ?_, ?_,
        hback⟩
      · rw [hends, TransactionScope.finish_error, List.append_assoc, List.append_assoc]
        rfl
      · rw [TransactionScope.finish_error, hfailed]
        rfl
      · exact fun hall => absurd (hfailed.symm.trans hall) (by decide)
    · let committed : Tried ι := ⟨commit, (q.commitTransaction s₂).1.isOk⟩
      have hcommit : watching.commitTransaction (s₂, begun ++ tried) =
          ((q.commitTransaction s₂).1, (q.commitTransaction s₂).2, begun ++ tried ++ [committed]) := by
        rw [h.commit]
        rfl
      refine ⟨⟨start, true⟩ :: (tried ++ [committed]), [], ?_,
        .succeeded start (hplan.append hsuccess.symm (.singleton commit _)), ?_, fun _ => rfl, nofun⟩
      · rw [TransactionScope.finish_ok, TransactionScope.finish_ok, hcommit, List.append_nil, List.append_assoc,
          List.append_assoc]
        rfl
      · rw [TransactionScope.finish_ok, List.all_cons, List.all_append, ← hsuccess]
        change ((q.commitTransaction s₂).1.map _).isOk = ((q.commitTransaction s₂).1.isOk && true)
        rcases (q.commitTransaction s₂).1 with _ | _ <;> rfl

end Querier.WatchesScopes

end EntitySql
