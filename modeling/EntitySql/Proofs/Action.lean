import EntitySql.Migration.Querier
/-!
# Triples for actions

What an action does to the world, told by a condition before it and two conditions behind it, one
for success and one for failure. An action that fails has still been done, so failure has a state of
its own.
-/

namespace EntitySql.Action

variable {σ α β : Type}

/-- What follows an action is done in the world behind it, unless the action fails. -/
theorem bind_apply (x : Action σ β) (f : β → Action σ α) (s : σ) :
    (x >>= f) s =
      match x s with
      | (.ok b, s') => f b s'
      | (.error e, s') => (.error e, s') := by
  change (ExceptT.bindCont f (x s).1) (x s).2 = _
  rcases x s with ⟨_ | b, s'⟩ <;> rfl

/-- An action in two steps has a result only if both steps have one. -/
theorem of_bind_eq_ok {x : Action σ β} {f : β → Action σ α} {s : σ} {a : α}
    (h : ((x >>= f) s).1 = .ok a) : ∃ b s', x s = (.ok b, s') ∧ (f b s').1 = .ok a := by
  rw [bind_apply] at h
  rcases hresult : x s with ⟨_ | b, s'⟩ <;> rw [hresult] at h
  · cases h
  · exact ⟨b, s', rfl, h⟩

theorem pure_apply (a : α) (s : σ) : (pure a : Action σ α) s = (.ok a, s) := rfl

/-- The condition behind an action: `Q` after success and `E` after failure. -/
def Ends (Q : α → σ → Prop) (E : σ → Prop) : Except MigrationError α × σ → Prop
  | (.ok a, s) => Q a s
  | (.error _, s) => E s

theorem Ends.mono {Q Q' : α → σ → Prop} {E E' : σ → Prop} {result : Except MigrationError α × σ}
    (h : Ends Q E result) (hQ : ∀ a s, Q a s → Q' a s) (hE : ∀ s, E s → E' s) :
    Ends Q' E' result := by
  rcases result with ⟨_ | a, s⟩
  · exact hE s h
  · exact hQ a s h

/-- Where `P` holds before the action, `Q` holds of its result and the world behind it if it
succeeds, and `E` of the world if it fails. -/
def Meets (P : σ → Prop) (x : Action σ α) (Q : α → σ → Prop) (E : σ → Prop) : Prop :=
  ∀ s, P s → Ends Q E (x s)

namespace Meets

variable {P P' : σ → Prop} {Q Q' : α → σ → Prop} {R : β → σ → Prop} {E E' : σ → Prop}

theorem of_pure {a : α} (h : ∀ s, P s → Q a s) : Meets P (pure a) Q E := h

theorem of_throw {e : MigrationError} (h : ∀ s, P s → E s) : Meets P (throw e) Q E := h

theorem of_get {Q : σ → σ → Prop} (h : ∀ s, P s → Q s s) : Meets P get Q E := h

theorem of_modify {f : σ → σ} {Q : PUnit → σ → Prop} (h : ∀ s, P s → Q ⟨⟩ (f s)) :
    Meets P (modify f) Q E := h

/-- An outcome that is known already. -/
theorem of_outcome {outcome : Except MigrationError α} (h : ∀ s, P s → Ends Q E (outcome, s)) :
    Meets P (ExceptT.mk (pure outcome)) Q E := h

/-- Of an action that may fail nothing has to be known. -/
theorem of_any {x : Action σ α} : Meets P x (fun _ _ => True) fun _ => True := by
  intro s _
  rcases x s with ⟨_ | _, _⟩ <;> exact trivial

theorem bind {x : Action σ β} {f : β → Action σ α} (hx : Meets P x R E)
    (hf : ∀ b, Meets (R b) (f b) Q E) : Meets P (x >>= f) Q E := by
  intro s hs
  have hfirst := hx s hs
  rw [bind_apply]
  rcases hresult : x s with ⟨_ | b, s'⟩ <;> rw [hresult] at hfirst
  · exact hfirst
  · exact hf b s' hfirst

/-- An action whose outcome is looked at does not fail. -/
theorem attempt {x : Action σ α} (hx : Meets P x Q E) :
    Meets P x.attempt (fun outcome s => Ends Q E (outcome, s)) E' := hx

theorem before {x : Action σ α} (h : Meets P x Q E) (hP : ∀ s, P' s → P s) : Meets P' x Q E :=
  fun s hs => h s (hP s hs)

theorem success {x : Action σ α} (h : Meets P x Q E) (hQ : ∀ a s, Q a s → Q' a s) :
    Meets P x Q' E :=
  fun s hs => (h s hs).mono hQ fun _ hs => hs

theorem failure {x : Action σ α} (h : Meets P x Q E) (hE : ∀ s, E s → E' s) : Meets P x Q E' :=
  fun s hs => (h s hs).mono (fun _ _ hs => hs) hE

/-- What an action does to one world. -/
theorem on {x : Action σ α} (h : Meets P x Q E) {s : σ} (hs : P s) : Meets (· = s) x Q E := by
  intro s' hs'
  rw [hs']
  exact h s hs

/-- What does not depend on the world may be assumed. -/
theorem assume {p : Prop} {x : Action σ α} (h : p → Meets P x Q E) :
    Meets (fun s => p ∧ P s) x Q E := fun s hs => h hs.1 s hs.2

/-- Worlds may be looked at one by one. -/
theorem each {x : Action σ α} (h : ∀ s, P s → Meets (· = s) x Q E) : Meets P x Q E :=
  fun s hs => h s hs s rfl

theorem ite {condition : Prop} [Decidable condition] {x y : Action σ α}
    (hx : condition → Meets P x Q E) (hy : ¬condition → Meets P y Q E) :
    Meets P (if condition then x else y) Q E := by
  split
  · exact hx ‹_›
  · exact hy ‹_›

end Meets

/-! ## Actions that only look -/

/-- Whether the action has the result and leaves the world as it is. -/
def Yields (x : Action σ α) (s : σ) (a : α) : Prop := x s = (.ok a, s)

namespace Yields

variable {s : σ}

theorem of_pure (a : α) : Yields (pure a) s a := rfl

theorem bind {x : Action σ β} {f : β → Action σ α} {b : β} {a : α} (hx : Yields x s b)
    (hf : Yields (f b) s a) : Yields (x >>= f) s a := by
  rw [Yields, bind_apply, hx]
  exact hf

theorem mapM {ι : Type} {f : ι → Action σ α} {g : ι → α} {items : List ι}
    (h : ∀ i ∈ items, Yields (f i) s (g i)) : Yields (items.mapM f) s (items.map g) := by
  induction items with
  | nil => exact of_pure []
  | cons i rest ih =>
    rw [List.mapM_cons]
    exact (h i (.head rest)).bind ((ih fun j hj => h j (.tail i hj)).bind (of_pure _))

theorem foldlM {ι : Type} {f : β → ι → Action σ β} {g : β → ι → β} {items : List ι}
    (h : ∀ b, ∀ i ∈ items, Yields (f b i) s (g b i)) (b : β) :
    Yields (items.foldlM f b) s (items.foldl g b) := by
  induction items generalizing b with
  | nil => exact of_pure b
  | cons i rest ih =>
    rw [List.foldlM_cons]
    exact (h b i (.head rest)).bind (ih (fun b j hj => h b j (.tail i hj)) _)

end Yields

end EntitySql.Action
