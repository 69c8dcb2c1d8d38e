import Mathlib.Algebra.Order.BigOperators.Group.List
import Mathlib.Data.List.Dedup
import Mathlib.Data.List.Nodup
import Mathlib.Data.List.Range

/-!
# Messages that may be delivered more than once

A log of messages and the positions at which a consumer has acted, in the order in which it has.  What the
consumer does with a message is an effect under a key, or nothing.

* **`effects`** are the effects of the messages acted on;
* **`Distinct`** says that no two messages of the log have an effect under one key;
* **`effects_nodup`**: where a log is distinct and no message is acted on twice, there is at most one effect
  under each key, and **`log_nodup`** says it of the messages;
* **`filter_key_of_nodup`** reads one key off such a list;
* **`sum_redelivered`**: what is added up over the deliveries is the sum over the messages or more.
-/

namespace Delivery

universe u v w

variable {M : Type u} {K : Type v} {A : Type w} (act : M → Option (K × A))

/-- The effect of the message at a position. -/
def effectAt (log : List M) (i : ℕ) : Option (K × A) := log[i]?.bind act

/-- The effects of the messages acted on. -/
def effects (log : List M) (taken : List ℕ) : List (K × A) := taken.filterMap (effectAt act log)

/-- No two messages have an effect under one key. -/
def Distinct (log : List M) : Prop :=
  ∀ i j k a b, effectAt act log i = some (k, a) → effectAt act log j = some (k, b) → i = j

variable {act} {log : List M}

/-! ### The log grows -/

theorem effectAt_append {i : ℕ} (hi : i < log.length) (more : List M) :
    effectAt act (log ++ more) i = effectAt act log i := by
  rw [effectAt, effectAt, List.getElem?_append_left hi]

theorem effectAt_snoc (m : M) (i : ℕ) :
    effectAt act (log ++ [m]) i = if i = log.length then act m else effectAt act log i := by
  split
  · rename_i hi
    subst hi
    rw [effectAt, List.getElem?_concat_length]
    rfl
  · rename_i hi
    rcases Nat.lt_or_ge i log.length with hlt | hge
    · exact effectAt_append hlt [m]
    · have hout : (log ++ [m]).length ≤ i := by
        rw [List.length_append, List.length_singleton]
        omega
      rw [effectAt, effectAt, List.getElem?_eq_none hout, List.getElem?_eq_none hge]

theorem effectAt_lt {i : ℕ} {e : K × A} (h : effectAt act log i = some e) : i < log.length := by
  obtain ⟨m, hm, _⟩ := Option.bind_eq_some_iff.mp h
  exact (List.getElem?_eq_some_iff.mp hm).1

theorem effects_append {taken : List ℕ} (htaken : ∀ i ∈ taken, i < log.length) (more : List M) :
    effects act (log ++ more) taken = effects act log taken :=
  List.filterMap_congr fun i hi => effectAt_append (htaken i hi) more

theorem effects_snoc (taken : List ℕ) {i : ℕ} {e : K × A} (h : effectAt act log i = some e) :
    effects act log (taken ++ [i]) = effects act log taken ++ [e] := by
  rw [effects, effects, List.filterMap_append]
  simp only [List.filterMap_cons, List.filterMap_nil, h]

theorem distinct_nil : Distinct act [] := by
  intro i j k a b h
  exact absurd (effectAt_lt h) (Nat.not_lt_zero i)

/-- A message without an effect, or with one under a new key, leaves a log distinct. -/
theorem Distinct.snoc (h : Distinct act log) {m : M}
    (hnew : ∀ k a, act m = some (k, a) → ∀ i b, effectAt act log i ≠ some (k, b)) :
    Distinct act (log ++ [m]) := by
  intro i j k a b hi hj
  rw [effectAt_snoc] at hi hj
  split at hi
  · split at hj
    · omega
    · exact absurd hj (hnew k a hi j b)
  · split at hj
    · exact absurd hi (hnew k b hj i a)
    · exact h i j k a b hi hj

/-! ### One effect under a key -/

/-- **At most one effect under each key.** -/
theorem effects_nodup (h : Distinct act log) {taken : List ℕ} (htaken : taken.Nodup) :
    ((effects act log taken).map Prod.fst).Nodup := by
  rw [effects, List.map_filterMap]
  refine htaken.filterMap ?_
  intro i j k hkeyi hkeyj
  obtain ⟨⟨_, a⟩, hi, rfl⟩ := Option.map_eq_some_iff.mp hkeyi
  obtain ⟨⟨_, b⟩, hj, rfl⟩ := Option.map_eq_some_iff.mp hkeyj
  exact h i j _ a b hi hj

/-- **At most one message with an effect under each key.** -/
theorem log_nodup (h : Distinct act log) : ((log.filterMap act).map Prod.fst).Nodup := by
  have hall : effects act log (List.range log.length) = log.filterMap act := by
    clear h
    induction log using List.reverseRecOn with
    | nil => rfl
    | append_singleton log m ih =>
        rw [List.length_append, List.length_singleton, List.range_succ, effects,
          List.filterMap_append, List.filterMap_append, ← ih]
        congr 1
        · exact effects_append (fun i hi => List.mem_range.mp hi) [m]
        · rw [List.filterMap_cons, List.filterMap_cons, effectAt_snoc, if_pos rfl]
          rfl
  rw [← hall]
  exact effects_nodup h List.nodup_range

theorem mem_effects {taken : List ℕ} {e : K × A} (h : e ∈ effects act log taken) :
    ∃ i ∈ taken, effectAt act log i = some e := List.mem_filterMap.mp h

/-- What a list without repeated keys holds under a key. -/
theorem filter_key_of_nodup [DecidableEq K] {l : List (K × A)} (h : (l.map Prod.fst).Nodup) (k : K) :
    l.filter (fun e => e.1 = k) = [] ∨
      ∃ a, (k, a) ∈ l ∧ l.filter (fun e => e.1 = k) = [(k, a)] := by
  induction l with
  | nil => exact Or.inl rfl
  | cons e l ih =>
      obtain ⟨k', a⟩ := e
      rw [List.map_cons, List.nodup_cons] at h
      by_cases hk : k' = k
      · subst hk
        refine Or.inr ⟨a, List.mem_cons_self, ?_⟩
        have hrest : l.filter (fun e => e.1 = k') = [] := by
          rw [List.filter_eq_nil_iff]
          intro e he hkey
          have heq : e.1 = k' := of_decide_eq_true hkey
          exact h.1 (List.mem_map.mpr ⟨e, he, heq⟩)
        simp only [List.filter_cons, decide_true, if_true, hrest]
      · simp only [List.filter_cons, hk, decide_false, Bool.false_eq_true, if_false]
        rcases ih h.2 with hnone | ⟨b, hb, hone⟩
        · exact Or.inl hnone
        · exact Or.inr ⟨b, List.mem_cons_of_mem _ hb, hone⟩

theorem filter_key_length_le_one [DecidableEq K] {l : List (K × A)} (h : (l.map Prod.fst).Nodup)
    (k : K) : (l.filter fun e => e.1 = k).length ≤ 1 := by
  rcases filter_key_of_nodup h k with hnone | ⟨a, _, hone⟩
  · rw [hnone]
    exact Nat.zero_le 1
  · rw [hone]
    exact Nat.le_refl 1

/-! ### Sums over deliveries -/

/-- **Messages that are counted once for each delivery** count too much, unless each is delivered once. -/
theorem sum_redelivered {M A : Type} [DecidableEq M] [AddCommMonoid A] [PartialOrder A] [IsOrderedCancelAddMonoid A]
    {weight : M → A} {delivered : List M} (hpositive : ∀ m ∈ delivered, 0 < weight m) :
    (delivered.dedup.map weight).sum ≤ (delivered.map weight).sum ∧
      ((delivered.map weight).sum = (delivered.dedup.map weight).sum ↔ delivered.Nodup) := by
  induction delivered with
  | nil => simp
  | cons m delivered ih =>
      obtain ⟨hle, hiff⟩ := ih fun m' hm' => hpositive m' (List.mem_cons_of_mem m hm')
      have hm := hpositive m List.mem_cons_self
      rw [List.map_cons, List.sum_cons]
      by_cases hmem : m ∈ delivered
      · rw [List.dedup_cons_of_mem hmem]
        have hlt : (delivered.dedup.map weight).sum < weight m + (delivered.map weight).sum :=
          hle.trans_lt (lt_add_of_pos_left _ hm)
        refine ⟨hlt.le, iff_of_false hlt.ne' ?_⟩
        intro hnodup
        exact (List.nodup_cons.mp hnodup).1 hmem
      · rw [List.dedup_cons_of_notMem hmem, List.map_cons, List.sum_cons, List.nodup_cons, and_iff_right hmem, ← hiff,
          add_right_inj]
        exact ⟨add_le_add_right hle _, Iff.rfl⟩

end Delivery
