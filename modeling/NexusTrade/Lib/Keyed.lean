import Mathlib.Data.List.Nodup

/-!
# Lists whose members have keys

`alter key k f l` puts `f` of them in the place of the members with a key, or nothing.  Where keys are
distinct it is what an assignment to a position, or a removal there, does.

* **`eraseIdx_eq_alter`**, **`set_eq_alter`**: positions and keys;
* **`keys_alter`**: the keys that are left;
* **`filterMap_alter`**: an altered list seen through a partial function.
-/

namespace Keyed

universe u v w

variable {α : Type u} {κ : Type v} [DecidableEq κ] {key : α → κ}

/-- Put something else in the place of the members with a key, or nothing. -/
def alter (key : α → κ) (k : κ) (f : α → Option α) (l : List α) : List α :=
  l.filterMap fun a => if key a = k then f a else some a

theorem alter_cons (k : κ) (f : α → Option α) (a : α) (l : List α) :
    alter key k f (a :: l) = (if key a = k then f a else some a).toList ++ alter key k f l := by
  rw [alter, List.filterMap_cons]
  cases if key a = k then f a else some a <;> rfl

/-- Nothing is altered where no member has the key. -/
theorem alter_of_not_mem {k : κ} {f : α → Option α} {l : List α} (h : ∀ a ∈ l, key a ≠ k) :
    alter key k f l = l := by
  induction l with
  | nil => rfl
  | cons a l ih =>
      rw [alter_cons, if_neg (h a List.mem_cons_self), ih fun b hb => h b (List.mem_cons_of_mem _ hb)]
      rfl

/-- Removing the members with a key. -/
theorem alter_none (k : κ) (l : List α) :
    alter key k (fun _ => none) l = l.filter fun a => key a ≠ k := by
  induction l with
  | nil => rfl
  | cons a l ih =>
      rw [alter_cons, ih]
      by_cases hk : key a = k
      · rw [if_pos hk, List.filter_cons_of_neg (by simp [hk])]
        rfl
      · rw [if_neg hk, List.filter_cons_of_pos (by simp [hk])]
        rfl

omit [DecidableEq κ] in
/-- Where keys are distinct, the first member shares its key with no other. -/
theorem key_ne {a : α} {l : List α} (hkeys : ((a :: l).map key).Nodup) {b : α} (hb : b ∈ l) :
    key b ≠ key a := by
  intro hk
  rw [List.map_cons, List.nodup_cons] at hkeys
  exact hkeys.1 (hk ▸ List.mem_map_of_mem hb)

/-- **Removing at a position**, where keys are distinct. -/
theorem eraseIdx_eq_alter {l : List α} (hkeys : (l.map key).Nodup) {i : ℕ} {a : α}
    (h : l[i]? = some a) : l.eraseIdx i = alter key (key a) (fun _ => none) l := by
  induction l generalizing i with
  | nil => cases h
  | cons b l ih =>
      rw [alter_cons]
      cases i with
      | zero =>
          obtain rfl : b = a := Option.some.inj h
          rw [if_pos rfl, alter_of_not_mem fun c hc => key_ne hkeys hc]
          rfl
      | succ i =>
          have ha : l[i]? = some a := h
          have hne : key b ≠ key a := (key_ne hkeys (List.mem_of_getElem? ha)).symm
          rw [if_neg hne, List.eraseIdx_cons_succ, ih (List.nodup_cons.mp hkeys).2 ha]
          rfl

/-- **Assigning to a position**, where keys are distinct. -/
theorem set_eq_alter {l : List α} (hkeys : (l.map key).Nodup) {i : ℕ} {a : α} (h : l[i]? = some a)
    (b : α) : l.set i b = alter key (key a) (fun _ => some b) l := by
  induction l generalizing i with
  | nil => cases h
  | cons c l ih =>
      rw [alter_cons]
      cases i with
      | zero =>
          obtain rfl : c = a := Option.some.inj h
          rw [if_pos rfl, alter_of_not_mem fun d hd => key_ne hkeys hd]
          rfl
      | succ i =>
          have ha : l[i]? = some a := h
          have hne : key c ≠ key a := (key_ne hkeys (List.mem_of_getElem? ha)).symm
          rw [if_neg hne, List.set_cons_succ, ih (List.nodup_cons.mp hkeys).2 ha]
          rfl

/-- **The keys that are left**, if what is put in has the key of what was there. -/
theorem keys_alter {k : κ} {f : α → Option α} (hf : ∀ a b, key a = k → f a = some b → key b = k)
    (l : List α) : ((alter key k f l).map key).Sublist (l.map key) := by
  induction l with
  | nil => exact List.Sublist.slnil
  | cons a l ih =>
      rw [alter_cons, List.map_append, List.map_cons]
      by_cases hk : key a = k
      · rw [if_pos hk]
        cases hfa : f a with
        | none => exact ih.cons (key a)
        | some b =>
            rw [Option.toList_some, List.map_singleton, hf a b hk hfa, hk]
            exact ih.cons_cons k
      · rw [if_neg hk]
        exact ih.cons_cons (key a)

/-- **An altered list seen through a partial function.** -/
theorem filterMap_alter {β : Type w} (k : κ) (f : α → Option α) (g : α → Option β) (l : List α) :
    (alter key k f l).filterMap g
      = l.filterMap fun a => if key a = k then (f a).bind g else g a := by
  rw [alter, List.filterMap_filterMap]
  refine List.filterMap_congr fun a _ => ?_
  split
  · rfl
  · rfl

/-- The position that is found holds what was looked for. -/
theorem getElem?_of_findIdx? {p : α → Bool} {l : List α} {i : ℕ} (h : l.findIdx? p = some i) :
    ∃ a, l[i]? = some a ∧ p a = true := by
  obtain ⟨hi, hp, _⟩ := List.findIdx?_eq_some_iff_getElem.mp h
  exact ⟨l[i], List.getElem?_eq_getElem hi, hp⟩

end Keyed
