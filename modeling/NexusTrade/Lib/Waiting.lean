import Mathlib.Data.List.Forall2

/-!
# Waiting in a queue

A queue some time later: some of its entries have left it, others have been replaced by entries with the same key,
and more have joined it at the back.

* **`Advanced`** says so; it is transitive (`Advanced.trans`);
* **`ahead`** is what is ahead of a key; **`Advanced.ahead`**: nothing comes ahead of an entry that waits;
* **`Before`**: one key is ahead of another, or the other has left; **`Advanced.before`**: that stays as long as the
  first one waits.
-/

universe u v

namespace Waiting

open List

variable {α : Type u} {κ : Type v} (key : α → κ) (R : α → α → Prop) (joins : κ → Prop)

/-- **A queue some time later.** -/
def Advanced (earlier later : List α) : Prop :=
  ∃ kept added, later = kept ++ added ∧ SublistForall₂ R kept earlier ∧ ∀ a ∈ added, joins (key a)

/-- What is ahead of a key; all of the queue where the key does not wait. -/
def ahead [DecidableEq κ] (k : κ) (l : List α) : List α := l.takeWhile fun a => key a ≠ k

/-- The first key waits ahead of the second one, or the second one does not wait. -/
def Before [DecidableEq κ] (k k' : κ) (l : List α) : Prop := k ∈ (ahead key k' l).map key

instance [DecidableEq κ] (k k' : κ) (l : List α) : Decidable (Before key k k' l) :=
  inferInstanceAs (Decidable (k ∈ _))

variable {key R joins} {earlier middle later : List α}

theorem Advanced.refl [Std.Refl R] (l : List α) : Advanced key R joins l l :=
  ⟨l, [], (append_nil l).symm, (Sublist.refl l).sublistForall₂, fun a ha => absurd ha (not_mem_nil (a := a))⟩

theorem Advanced.mono {joins' : κ → Prop} (h : Advanced key R joins earlier later) (hsub : ∀ k, joins k → joins' k) :
    Advanced key R joins' earlier later := by
  obtain ⟨kept, added, hlater, hkept, hadded⟩ := h
  exact ⟨kept, added, hlater, hkept, fun a ha => hsub _ (hadded a ha)⟩

/-- What is kept of two queues, one behind the other. -/
theorem sublistForall₂_append {l l₁ l₂ : List α} (h : SublistForall₂ R l (l₁ ++ l₂)) :
    ∃ p q, l = p ++ q ∧ SublistForall₂ R p l₁ ∧ SublistForall₂ R q l₂ := by
  obtain ⟨m, hforall, hsub⟩ := sublistForall₂_iff.mp h
  obtain ⟨m₁, m₂, rfl, hsub₁, hsub₂⟩ := sublist_append_iff.mp hsub
  refine ⟨l.take m₁.length, l.drop m₁.length, (take_append_drop _ l).symm, ?_, ?_⟩
  · exact sublistForall₂_iff.mpr ⟨m₁, forall₂_take_append l m₁ m₂ hforall, hsub₁⟩
  · exact sublistForall₂_iff.mpr ⟨m₂, forall₂_drop_append l m₁ m₂ hforall, hsub₂⟩

/-- What is kept has keys that were there before. -/
theorem mem_keys (hkey : ∀ a b, R a b → key a = key b) {l l' : List α} (h : SublistForall₂ R l l') {k : κ}
    (hk : k ∈ l.map key) : k ∈ l'.map key := by
  induction h with
  | nil => cases hk
  | cons hab _ ih =>
      rw [map_cons, mem_cons] at hk ⊢
      exact hk.imp (fun heq => heq.trans (hkey _ _ hab)) ih
  | cons_right _ ih => exact mem_cons_of_mem _ (ih hk)

/-- **Later still.** -/
theorem Advanced.trans [IsTrans α R] (hkey : ∀ a b, R a b → key a = key b) (h : Advanced key R joins earlier middle)
    (h' : Advanced key R joins middle later) : Advanced key R joins earlier later := by
  obtain ⟨kept, added, rfl, hkept, hadded⟩ := h
  obtain ⟨kept', added', rfl, hkept', hadded'⟩ := h'
  obtain ⟨p, q, rfl, hp, hq⟩ := sublistForall₂_append hkept'
  refine ⟨p, q ++ added', append_assoc p q added', IsTrans.trans p kept earlier hp hkept, forall_mem_append.mpr ⟨?_, hadded'⟩⟩
  intro a ha
  obtain ⟨b, hb, heq⟩ := mem_map.mp (mem_keys hkey hq (mem_map_of_mem ha))
  exact heq ▸ hadded b hb

/-- A key that waits later and has not joined waits among what was kept. -/
theorem mem_kept {kept added : List α} (hadded : ∀ a ∈ added, joins (key a)) {k : κ}
    (hk : k ∈ (kept ++ added).map key) (hjoins : ¬joins k) : k ∈ kept.map key := by
  rw [map_append, mem_append] at hk
  refine hk.resolve_right fun hin => ?_
  obtain ⟨a, ha, rfl⟩ := mem_map.mp hin
  exact hjoins (hadded a ha)

/-- **What waits and has not joined was there before.** -/
theorem Advanced.mem (hkey : ∀ a b, R a b → key a = key b) (h : Advanced key R joins earlier later) {k : κ}
    (hk : k ∈ later.map key) (hjoins : ¬joins k) : k ∈ earlier.map key := by
  obtain ⟨kept, added, rfl, hkept, hadded⟩ := h
  exact mem_keys hkey hkept (mem_kept hadded hk hjoins)

/-- The entry of a key that waits and has not joined stems from the one there was. -/
theorem Advanced.related (h : Advanced key R joins earlier later) {a : α}
    (ha : a ∈ later) (hjoins : ¬joins (key a)) : ∃ b ∈ earlier, R a b := by
  obtain ⟨kept, added, rfl, hkept, hadded⟩ := h
  have hin : a ∈ kept := (mem_append.mp ha).resolve_right fun hin => hjoins (hadded a hin)
  clear ha hadded hjoins
  induction hkept with
  | nil => cases hin
  | cons hab _ ih =>
      rcases mem_cons.mp hin with rfl | hin
      · exact ⟨_, mem_cons_self, hab⟩
      · obtain ⟨b, hb, hR⟩ := ih hin
        exact ⟨b, mem_cons_of_mem _ hb, hR⟩
  | cons_right _ ih =>
      obtain ⟨b, hb, hR⟩ := ih hin
      exact ⟨b, mem_cons_of_mem _ hb, hR⟩

section Decidable

variable [DecidableEq κ]

theorem ahead_append {k : κ} {l l' : List α} (h : k ∈ l.map key) : ahead key k (l ++ l') = ahead key k l := by
  induction l with
  | nil => cases h
  | cons a l ih =>
      rw [ahead, ahead, cons_append, takeWhile_cons, takeWhile_cons]
      split
      · rename_i hne
        have hne : key a ≠ k := of_decide_eq_true hne
        have hrest : k ∈ l.map key := (mem_cons.mp h).resolve_left fun heq => hne heq.symm
        exact congrArg (a :: ·) (ih hrest)
      · rfl

theorem ahead_cons_self (a : α) (l : List α) : ahead key (key a) (a :: l) = [] := by
  rw [ahead, takeWhile_cons, if_neg (by simp)]

theorem ahead_cons_ne {k : κ} {a : α} (h : key a ≠ k) (l : List α) : ahead key k (a :: l) = a :: ahead key k l := by
  rw [ahead, takeWhile_cons, if_pos (by simpa using h)]
  rfl

/-- **Nothing comes ahead of an entry that waits**; what is ahead of it can only leave. -/
theorem Advanced.ahead (hkey : ∀ a b, R a b → key a = key b) (h : Advanced key R joins earlier later)
    (hnodup : (earlier.map key).Nodup) {k : κ} (hk : k ∈ later.map key) (hjoins : ¬joins k) :
    SublistForall₂ R (ahead key k later) (ahead key k earlier) := by
  obtain ⟨kept, added, rfl, hkept, hadded⟩ := h
  have hin := mem_kept hadded hk hjoins
  rw [ahead_append hin]
  clear hk hadded
  induction hkept with
  | nil => cases hin
  | @cons a b l l' hab hrest ih =>
      rw [map_cons, nodup_cons] at hnodup
      by_cases heq : key b = k
      · rw [← heq, ← hkey a b hab, ahead_cons_self]
        exact .nil
      · have hne : key a ≠ k := fun h => heq ((hkey a b hab).symm.trans h)
        rw [ahead_cons_ne hne, ahead_cons_ne heq]
        exact .cons hab (ih hnodup.2 ((mem_cons.mp hin).resolve_left fun h => hne h.symm))
  | @cons_right b l l' hrest ih =>
      rw [map_cons, nodup_cons] at hnodup
      have hne : key b ≠ k := fun heq => hnodup.1 (heq ▸ mem_keys hkey hrest hin)
      rw [ahead_cons_ne hne]
      exact .cons_right (ih hnodup.2 hin)

/-- **One that waits is not overtaken.** -/
theorem Advanced.before (hkey : ∀ a b, R a b → key a = key b) (h : Advanced key R joins earlier later)
    (hnodup : (earlier.map key).Nodup) {k k' : κ} (hbefore : Before key k k' earlier) (hk : k ∈ later.map key)
    (hjoins : ¬joins k) : Before key k k' later := by
  obtain ⟨kept, added, rfl, hkept, hadded⟩ := h
  have hin := mem_kept hadded hk hjoins
  clear hk hadded
  induction hkept with
  | nil => cases hin
  | @cons a b l l' hab hrest ih =>
      rw [map_cons, nodup_cons] at hnodup
      have hne : key b ≠ k' := by
        rintro rfl
        rw [Before, ahead_cons_self] at hbefore
        cases hbefore
      have hne' : key a ≠ k' := fun h => hne ((hkey a b hab).symm.trans h)
      rw [Before, ahead_cons_ne hne, map_cons, mem_cons] at hbefore
      rw [Before, cons_append, ahead_cons_ne hne', map_cons, mem_cons]
      rcases mem_cons.mp hin with heq | hin
      · exact Or.inl heq
      · refine Or.inr (ih hnodup.2 (hbefore.resolve_left fun heq => ?_) hin)
        exact hnodup.1 (heq ▸ mem_keys hkey hrest hin)
  | @cons_right b l l' hrest ih =>
      rw [map_cons, nodup_cons] at hnodup
      have hne : key b ≠ k' := by
        rintro rfl
        rw [Before, ahead_cons_self] at hbefore
        cases hbefore
      rw [Before, ahead_cons_ne hne, map_cons, mem_cons] at hbefore
      refine ih hnodup.2 (hbefore.resolve_left fun heq => ?_) hin
      exact hnodup.1 (heq ▸ mem_keys hkey hrest hin)

/-- The first of a queue has nobody before it. -/
theorem not_before_front (k : κ) (a : α) (l : List α) : ¬Before key k (key a) (a :: l) := by
  rw [Before, ahead_cons_self]
  exact not_mem_nil

end Decidable

end Waiting
