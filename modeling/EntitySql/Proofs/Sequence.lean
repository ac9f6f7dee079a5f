import Mathlib.Data.List.Basic
/-!
# What comes before what

A condition on each item of a list together with those in front of it (`EachAfter`).
-/

namespace EntitySql

variable {α β : Type} {P Q : List α → α → Prop} {items rest : List α}

/-- Whether each item of the list meets the condition together with the items in front of it. -/
def EachAfter (P : List α → α → Prop) (items : List α) : Prop :=
  ∀ before item after, items = before ++ item :: after → P before item

namespace EachAfter

@[simp]
theorem nil : EachAfter P [] := by
  intro before item after h
  simp at h

/-- The items of two lists: behind the first one all its items are in front. -/
theorem append_iff :
    EachAfter P (items ++ rest) ↔
      EachAfter P items ∧ EachAfter (fun before => P (items ++ before)) rest := by
  constructor
  · intro h
    refine ⟨fun before item after hitems => ?_, fun before item after hrest => ?_⟩
    · exact h before item (after ++ rest) (by rw [hitems, List.append_assoc, List.cons_append])
    · exact h (items ++ before) item after (by rw [hrest, List.append_assoc])
  · rintro ⟨hitems, hrest⟩ before item after h
    rcases List.append_eq_append_iff.1 h with ⟨middle, hbefore, hafter⟩ | ⟨middle, hsplit, hafter⟩
    · rw [hbefore]
      exact hrest middle item after hafter
    · cases middle with
      | nil =>
        rw [List.append_nil] at hsplit
        rw [← hsplit, ← List.append_nil items]
        exact hrest [] item after hafter.symm
      | cons first middle =>
        obtain ⟨rfl, -⟩ := List.cons.inj hafter
        exact hitems before item middle hsplit

@[simp]
theorem singleton_iff {item : α} : EachAfter P [item] ↔ P [] item := by
  refine ⟨fun h => h [] item [] rfl, fun h before other after heq => ?_⟩
  cases before with
  | nil =>
    obtain ⟨rfl, -⟩ := List.cons.inj heq
    exact h
  | cons first before => simp at heq

theorem cons_iff {item : α} :
    EachAfter P (item :: rest) ↔
      P [] item ∧ EachAfter (fun before => P (item :: before)) rest := by
  rw [← List.singleton_append, append_iff, singleton_iff]
  rfl

theorem mono (h : EachAfter P items)
    (hPQ : ∀ before item after, items = before ++ item :: after → P before item → Q before item) :
    EachAfter Q items :=
  fun before item after hitems => hPQ before item after hitems (h before item after hitems)

/-- What is in front of an item is part of the list. -/
theorem of_within (h : EachAfter (fun before item => (∀ a ∈ before, a ∈ items) → P before item) items) :
    EachAfter P items := by
  rintro before item after rfl
  exact h before item after rfl fun a ha => List.mem_append_left _ ha

theorem within (h : EachAfter P items) :
    EachAfter (fun before item => (∀ a ∈ before, a ∈ items) ∧ P before item) items := by
  rintro before item after rfl
  exact ⟨fun a ha => List.mem_append_left _ ha, h before item after rfl⟩

theorem congr (hPQ : ∀ before item, item ∈ items → (P before item ↔ Q before item)) :
    EachAfter P items ↔ EachAfter Q items := by
  have hmem : ∀ {before item after}, items = before ++ item :: after → item ∈ items := by
    rintro before item after rfl
    exact List.mem_append_right _ (.head after)
  exact ⟨fun h => h.mono fun before item _ hitems => (hPQ before item (hmem hitems)).1,
    fun h => h.mono fun before item _ hitems => (hPQ before item (hmem hitems)).2⟩

/-- A condition that does not depend on what is in front. -/
theorem of_forall (h : ∀ item ∈ items, ∀ before, P before item) : EachAfter P items := by
  rintro before item after rfl
  exact h item (List.mem_append_right _ (.head after)) before

theorem map_iff {f : β → α} {items : List β} :
    EachAfter P (items.map f) ↔ EachAfter (fun before item => P (before.map f) (f item)) items := by
  constructor
  · intro h before item after hitems
    exact h _ _ (after.map f) (by rw [hitems, List.map_append, List.map_cons])
  · intro h before item after hitems
    obtain ⟨first, tail, rfl, rfl, htail⟩ := List.map_eq_append_iff.1 hitems
    obtain ⟨item, after, rfl, rfl, rfl⟩ := List.map_eq_cons_iff.1 htail
    exact h first item after rfl

/-- Parts that are put together one after the other: each part meets the condition behind the parts in
front of it. -/
theorem flatMap_iff {f : β → List α} {items : List β} :
    EachAfter P (items.flatMap f) ↔
      EachAfter (fun before item =>
        EachAfter (fun front => P (before.flatMap f ++ front)) (f item)) items := by
  induction items generalizing P with
  | nil => simp
  | cons first rest ih =>
    rw [List.flatMap_cons, append_iff, ih, cons_iff]
    simp

/-- What is left of a list stands behind what is left of the items in front. -/
theorem filter (h : EachAfter P items) (keep : α → Bool) :
    EachAfter (fun before item => keep item = true ∧ ∃ front, before = front.filter keep ∧ P front item)
      (items.filter keep) := by
  intro before item after hitems
  obtain ⟨front, back, rfl, hfront, hback⟩ := List.filter_eq_append_iff.1 hitems
  obtain ⟨skipped, rest, rfl, hskipped, hitem, -⟩ := List.filter_eq_cons_iff.1 hback
  refine ⟨hitem, front ++ skipped, ?_, h _ item rest (by simp)⟩
  rw [List.filter_append, hfront, List.filter_eq_nil_iff.2 hskipped, List.append_nil]

/-- Without repetitions the items of a first part stand in front of those that are not among them. -/
theorem eraseDups_append [BEq α] [LawfulBEq α] :
    EachAfter (fun before item => item ∉ items → ∀ a ∈ items, a ∈ before)
      (items ++ rest).eraseDups := by
  intro before item after hsplit hnew a ha
  rw [List.eraseDups_append] at hsplit
  rcases List.append_eq_append_iff.1 hsplit with ⟨middle, hbefore, _⟩ | ⟨middle, hitems, hafter⟩
  · rw [hbefore]
    exact List.mem_append_left _ (List.mem_eraseDups.2 ha)
  · cases middle with
    | nil =>
      rw [List.append_nil] at hitems
      exact hitems ▸ List.mem_eraseDups.2 ha
    | cons found middle =>
      obtain ⟨rfl, -⟩ := List.cons.inj hafter
      refine absurd (List.mem_eraseDups.1 ?_) hnew
      rw [hitems]
      exact List.mem_append_right _ (.head middle)

instance decidable : {P : List α → α → Prop} → [∀ before item, Decidable (P before item)] →
    (items : List α) → Decidable (EachAfter P items)
  | _, _, [] => isTrue nil
  | P, _, item :: rest =>
    have := decidable (P := fun before => P (item :: before)) rest
    decidable_of_iff _ (cons_iff (P := P)).symm

end EachAfter

end EntitySql
