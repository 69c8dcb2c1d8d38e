import Mathlib.Algebra.BigOperators.Group.List.Basic
import Mathlib.Tactic.Abel
import NexusTrade.Lib.SortedMap

/-!
# Sums over a map

`sumOf` adds up a weight of the entries of a finite map.

* **`sumOf_insert`**: setting the value at a key changes the sum by the weight of the new value, less that of
  the value it replaces;
* **`sumOf_single`**: where only one key has a weight, the sum is the weight at that key;
* **`sumOf_closed`** and **`sumOf_drop`**: what holds of sums of the weights, and what changes when the weight of one
  key is dropped.
-/

universe u v w

namespace SortedMap

variable {κ : Type u} {ν : Type v} {M : Type w} [LinearOrder κ] [AddCommGroup M]

/-- The sum of the weights of the entries. -/
def sumOf (weight : κ → ν → M) (m : SortedMap κ ν) : M :=
  (m.entries.map fun e => weight e.1 e.2).sum

/-- The weight at a key; zero where the key is absent. -/
def weightAt (weight : κ → ν → M) (m : SortedMap κ ν) (k : κ) : M :=
  ((m.find k).map (weight k)).getD 0

@[simp] theorem sumOf_empty (weight : κ → ν → M) : sumOf weight empty = 0 := rfl

/-- The sum, taken apart at a key. -/
theorem sumOf_erase (weight : κ → ν → M) (m : SortedMap κ ν) (k : κ) :
    sumOf weight m = sumOf weight (m.erase k) + weightAt weight m k := by
  cases hk : m.find k with
  | none =>
      have herase : m.erase k = m := by
        refine ext_find fun k' => ?_
        rw [find_erase]
        split
        · rename_i heq
          rw [heq, hk]
        · rfl
      rw [weightAt, hk, herase, Option.map_none, Option.getD_none, add_zero]
  | some x =>
      obtain ⟨pre, post, hsplit⟩ := List.append_of_mem ((m.mem_entries_iff k x).mpr hk)
      rw [weightAt, hk, sumOf, sumOf, entries_erase hsplit, hsplit, List.map_append, List.map_cons,
        List.sum_append, List.sum_cons, List.map_append, List.sum_append, Option.map_some,
        Option.getD_some]
      abel

theorem erase_insert (m : SortedMap κ ν) (k : κ) (x : ν) : (m.insert k x).erase k = m.erase k := by
  refine ext_find fun k' => ?_
  rw [find_erase, find_erase, find_insert]
  split <;> rfl

/-- **Setting a value** changes the sum by the difference of the weights. -/
theorem sumOf_insert (weight : κ → ν → M) (m : SortedMap κ ν) (k : κ) (x : ν) :
    sumOf weight (m.insert k x) = sumOf weight m + (weight k x - weightAt weight m k) := by
  have hnew : weightAt weight (m.insert k x) k = weight k x := by
    rw [weightAt, find_insert, if_pos rfl]
    rfl
  rw [sumOf_erase weight (m.insert k x) k, erase_insert, hnew, sumOf_erase weight m k]
  abel

/-- **A weight of one key.** -/
theorem sumOf_single {weight : κ → ν → M} {k : κ} (hweight : ∀ k' x, k' ≠ k → weight k' x = 0)
    (m : SortedMap κ ν) : sumOf weight m = weightAt weight m k := by
  have hzero : sumOf weight (m.erase k) = 0 := by
    refine List.sum_eq_zero fun y hy => ?_
    obtain ⟨e, he, rfl⟩ := List.mem_map.mp hy
    have hne : e.1 ≠ k := by
      intro heq
      have hfind := (mem_entries_iff (m.erase k) e.1 e.2).mp he
      rw [find_erase, if_pos heq] at hfind
      cases hfind
    exact hweight e.1 e.2 hne
  rw [sumOf_erase weight m k, hzero, zero_add]

/-- **What is closed under sums** holds of the sum if it holds of the weights. -/
theorem sumOf_closed {weight : κ → ν → M} {m : SortedMap κ ν} {P : M → Prop} (hzero : P 0)
    (hadd : ∀ x y, P x → P y → P (x + y)) (hweight : ∀ k x, m.find k = some x → P (weight k x)) :
    P (sumOf weight m) := by
  have hlist : ∀ entries : List (κ × ν), (∀ e ∈ entries, P (weight e.1 e.2)) →
      P (entries.map fun e => weight e.1 e.2).sum := by
    intro entries
    induction entries with
    | nil => exact fun _ => hzero
    | cons e entries ih =>
        intro h
        rw [List.map_cons, List.sum_cons]
        exact hadd _ _ (h e List.mem_cons_self) (ih fun e' he' => h e' (List.mem_cons_of_mem _ he'))
  exact hlist m.entries fun e he => hweight e.1 e.2 ((m.mem_entries_iff e.1 e.2).mp he)

theorem sumOf_congr {weight weight' : κ → ν → M} {m : SortedMap κ ν}
    (h : ∀ k x, m.find k = some x → weight k x = weight' k x) : sumOf weight m = sumOf weight' m := by
  rw [sumOf, sumOf]
  congr 1
  exact List.map_congr_left fun e he => h e.1 e.2 ((m.mem_entries_iff e.1 e.2).mp he)

/-- **The weight of one key is dropped.** -/
theorem sumOf_drop {weight weight' : κ → ν → M} {m : SortedMap κ ν} (k : κ)
    (hother : ∀ k' x, k' ≠ k → weight' k' x = weight k' x) (hkey : ∀ x, weight' k x = 0) :
    sumOf weight' m = sumOf weight m - weightAt weight m k := by
  have hzero : weightAt weight' m k = 0 := by
    rw [weightAt]
    cases m.find k with
    | none => rfl
    | some x => exact hkey x
  have herase : sumOf weight' (m.erase k) = sumOf weight (m.erase k) := by
    refine sumOf_congr fun k' x hfind => hother k' x ?_
    rintro rfl
    rw [find_erase, if_pos rfl] at hfind
    cases hfind
  rw [sumOf_erase weight' m k, sumOf_erase weight m k, hzero, herase]
  abel

end SortedMap
