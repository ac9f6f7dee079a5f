import EntitySql.Query.Error
import Mathlib.Data.List.Forall2
/-!
# Results of computations that may fail

What holds of the result if there is one, along the steps of the computation.
-/

namespace EntitySql

/-- What holds of the result of a computation, if it has one. -/
def Ensures {α : Type} (P : α → Prop) (x : Except QueryError α) : Prop := ∀ a, x = .ok a → P a

namespace Ensures

variable {α β : Type} {P : α → Prop} {Q : β → Prop}

theorem pure {a : α} (h : P a) : Ensures P (Pure.pure a : Except QueryError α) := by
  intro b hb
  cases hb
  exact h

theorem error (e : QueryError) : Ensures P (.error e) := by
  intro a ha
  cases ha

/-- What follows a computation may know its result. -/
theorem bind_ok {x : Except QueryError α} {f : α → Except QueryError β}
    (hf : ∀ a, x = .ok a → Ensures Q (f a)) : Ensures Q (x >>= f) := by
  cases x with
  | error e => exact error e
  | ok a => exact hf a rfl

theorem bind {x : Except QueryError α} {f : α → Except QueryError β} (hx : Ensures P x)
    (hf : ∀ a, P a → Ensures Q (f a)) : Ensures Q (x >>= f) :=
  bind_ok fun a ha => hf a (hx a ha)

/-- A computation of which nothing has to be known. -/
theorem bind_any {x : Except QueryError α} {f : α → Except QueryError β}
    (hf : ∀ a, Ensures Q (f a)) : Ensures Q (x >>= f) := bind_ok fun a _ => hf a

theorem mapM {f : α → Except QueryError β} {items : List α} (h : ∀ a ∈ items, Ensures Q (f a)) :
    Ensures (fun results => ∀ b ∈ results, Q b) (items.mapM f) := by
  induction items with
  | nil => exact pure nofun
  | cons a rest ih =>
    rw [List.mapM_cons]
    exact (h a (.head rest)).bind fun b hb => (ih fun a ha => h a (.tail _ ha)).bind fun results hresults =>
      pure (List.forall_mem_cons.2 ⟨hb, hresults⟩)

theorem mono {P' : α → Prop} {x : Except QueryError α} (h : Ensures P x) (hP : ∀ a, P a → P' a) :
    Ensures P' x := fun a ha => hP a (h a ha)

end Ensures

theorem toOption_eq_some_iff {ε α : Type} {x : Except ε α} {a : α} :
    x.toOption = some a ↔ x = .ok a := by
  cases x <;> simp [Except.toOption]

/-- A computation whose result has an image has a result. -/
theorem exists_of_map_toOption_eq_some {ε α β : Type} {x : Except ε α} {f : α → β} {b : β}
    (h : x.toOption.map f = some b) : ∃ a, x = .ok a ∧ f a = b := by
  obtain ⟨a, ha, hb⟩ := Option.map_eq_some_iff.1 h
  exact ⟨a, toOption_eq_some_iff.1 ha, hb⟩

/-- A computation has a result only if its first step has one. -/
theorem ok_of_bind_eq_ok {ε α β : Type} {x : Except ε α} {f : α → Except ε β} {b : β}
    (h : x >>= f = .ok b) : ∃ a, x = .ok a ∧ f a = .ok b := by
  cases x with
  | error e => cases h
  | ok a => exact ⟨a, rfl, h⟩

/-- A computation has a result if both of its steps have one. -/
theorem exists_bind_eq_ok {ε α β : Type} {x : Except ε α} {f : α → Except ε β} (hx : ∃ a, x = .ok a)
    (hf : ∀ a, ∃ b, f a = .ok b) : ∃ b, x >>= f = .ok b := by
  obtain ⟨a, rfl⟩ := hx
  exact hf a

/-- There is one result for each item. -/
theorem forall₂_of_mapM_eq_ok {ε α β : Type} {f : α → Except ε β} {items : List α} {results : List β}
    (h : items.mapM f = .ok results) : List.Forall₂ (fun a b => f a = .ok b) items results := by
  induction items generalizing results with
  | nil =>
    cases h
    exact .nil
  | cons a rest ih =>
    rw [List.mapM_cons] at h
    obtain ⟨b, hb, h⟩ := ok_of_bind_eq_ok h
    obtain ⟨bs, hbs, h⟩ := ok_of_bind_eq_ok h
    cases h
    exact .cons hb (ih hbs)

theorem forall_mem_of_forall₂ {α β : Type} {P : β → Prop} {as : List α} {bs : List β}
    (h : List.Forall₂ (fun _ b => P b) as bs) : ∀ b ∈ bs, P b := by
  induction h with
  | nil => exact nofun
  | cons hfirst _ ih => exact List.forall_mem_cons.2 ⟨hfirst, ih⟩

/-- The result for an item is among the results. -/
theorem exists_mem_of_mapM_eq_ok {ε α β : Type} {f : α → Except ε β} {items : List α} {results : List β}
    (h : items.mapM f = .ok results) {a : α} (ha : a ∈ items) : ∃ b ∈ results, f a = .ok b := by
  have hresults := forall₂_of_mapM_eq_ok h
  clear h
  induction hresults with
  | nil => cases ha
  | @cons _ b _ _ hb _ ih =>
    rcases List.mem_cons.1 ha with rfl | ha
    · exact ⟨b, .head _, hb⟩
    · exact (ih ha).imp fun _ h => ⟨.tail _ h.1, h.2⟩

/-- A computation for each item has results only if it has one for every item. -/
theorem ok_of_mapM_eq_ok {ε α β : Type} {f : α → Except ε β} {items : List α} {results : List β}
    (h : items.mapM f = .ok results) {a : α} (ha : a ∈ items) : ∃ b, f a = .ok b :=
  (exists_mem_of_mapM_eq_ok h ha).imp fun _ => And.right

/-- A computation for each item has results if it has one for every item. -/
theorem exists_mapM_eq_ok {ε α β : Type} {f : α → Except ε β} {items : List α}
    (h : ∀ a ∈ items, ∃ b, f a = .ok b) : ∃ results, items.mapM f = .ok results := by
  induction items with
  | nil => exact ⟨[], rfl⟩
  | cons a rest ih =>
    obtain ⟨b, hb⟩ := h a (.head _)
    obtain ⟨bs, hbs⟩ := ih fun a ha => h a (.tail _ ha)
    exact ⟨b :: bs, by rw [List.mapM_cons, hb, hbs]; rfl⟩

/-- What can be computed of the items is the list of results where nothing fails. -/
theorem filterMap_toOption_of_mapM_eq_ok {ε α β : Type} {f : α → Except ε β} {items : List α}
    {results : List β} (h : items.mapM f = .ok results) :
    items.filterMap (fun a => (f a).toOption) = results := by
  have hresults := forall₂_of_mapM_eq_ok h
  clear h
  induction hresults with
  | nil => rfl
  | cons hb _ ih =>
    rw [List.filterMap_cons, hb, ih]
    rfl

/-- What every step preserves holds of the result if it holds at first; a step may know its item. -/
theorem of_foldlM_eq_ok_of_mem {ε α σ : Type} {P : σ → Prop} {f : σ → α → Except ε σ} {items : List α}
    (hf : ∀ a ∈ items, ∀ s s', P s → f s a = .ok s' → P s') {s s' : σ} (hs : P s)
    (h : items.foldlM f s = .ok s') : P s' := by
  induction items generalizing s with
  | nil =>
    cases h
    exact hs
  | cons a rest ih =>
    obtain ⟨next, hnext, hrest⟩ := ok_of_bind_eq_ok h
    exact ih (fun b hb => hf b (.tail a hb)) (hf a (.head rest) s next hs hnext) hrest

/-- What every step preserves holds of the result if it holds at first. -/
theorem of_foldlM_eq_ok {ε α σ : Type} {P : σ → Prop} {f : σ → α → Except ε σ}
    (hf : ∀ s a s', P s → f s a = .ok s' → P s') {items : List α} {s s' : σ} (hs : P s)
    (h : items.foldlM f s = .ok s') : P s' :=
  of_foldlM_eq_ok_of_mem (fun a _ s s' => hf s a s') hs h

/-- Every step of a run that ends well has a result. -/
theorem exists_step_of_foldlM_eq_ok {ε α σ : Type} {f : σ → α → Except ε σ} {items : List α} {s s' : σ}
    (h : items.foldlM f s = .ok s') {a : α} (ha : a ∈ items) : ∃ before after, f before a = .ok after := by
  induction items generalizing s with
  | nil => cases ha
  | cons first rest ih =>
    obtain ⟨next, hnext, hrest⟩ := ok_of_bind_eq_ok h
    rcases List.mem_cons.1 ha with rfl | ha
    · exact ⟨s, next, hnext⟩
    · exact ih hrest ha

end EntitySql
