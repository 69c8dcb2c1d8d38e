import Mathlib.Data.List.Basic
import Mathlib.Data.List.TakeDrop
import Mathlib.Order.Basic

/-!
# Stores behind a write-ahead log

A store keeps a value for each key.  Every record changes the value of its key.  Records are first
appended to a log and applied to the store later, by whoever appended them; a snapshot of the store allows
the log to be truncated.

* **`replay`** applies records to a store; only the order of the records of one key matters;
* **`History`** is the past of such a store: all records in the order of the log, the records that have
  been applied in the order in which they were, those that have not, and how many are truncated;
* **`Ordered`** says that the records of each key are applied in the order of the log, and that no record
  is truncated before it is applied;
* **`Ordered.load`**: loading a snapshot that covers what is truncated, and replaying the log over it,
  gives the store with the records that are still to be applied.
-/

namespace Logged

universe u v w

variable {κ : Type u} {σ : Type v} {ρ : Type w} [DecidableEq κ] (key : ρ → κ) (step : σ → ρ → σ)

/-! ### Replaying -/

/-- The records of a key. -/
def ofKey (k : κ) (records : List ρ) : List ρ := records.filter fun r => key r = k

/-- Apply records to a store. -/
def replay (store : κ → σ) (records : List ρ) : κ → σ :=
  fun k => (ofKey key k records).foldl step (store k)

theorem ofKey_append (k : κ) (records records' : List ρ) :
    ofKey key k (records ++ records') = ofKey key k records ++ ofKey key k records' :=
  List.filter_append ..

theorem ofKey_singleton (k : κ) (r : ρ) : ofKey key k [r] = if key r = k then [r] else [] := by
  by_cases h : key r = k <;> simp [ofKey, h]

theorem replay_append (store : κ → σ) (records records' : List ρ) :
    replay key step store (records ++ records')
      = replay key step (replay key step store records) records' := by
  funext k
  rw [replay, ofKey_append, List.foldl_append]
  rfl

/-- One record changes the value of its key. -/
theorem replay_snoc (store : κ → σ) (records : List ρ) (r : ρ) (k : κ) :
    replay key step store (records ++ [r]) k
      = if key r = k then step (replay key step store records k) r
        else replay key step store records k := by
  rw [replay_append, replay, ofKey_singleton]
  by_cases h : key r = k
  · rw [if_pos h, if_pos h]
    rfl
  · rw [if_neg h, if_neg h]
    rfl

/-- Only the order of the records of each key matters. -/
theorem replay_congr {records records' : List ρ} (store : κ → σ)
    (h : ∀ k, ofKey key k records = ofKey key k records') :
    replay key step store records = replay key step store records' := by
  funext k
  rw [replay, h k]
  rfl

/-- Records that change nothing. -/
theorem replay_unchanged {store : κ → σ} (records : List ρ)
    (h : ∀ r ∈ records, step (store (key r)) r = store (key r)) :
    replay key step store records = store := by
  funext k
  have hk : ∀ r ∈ ofKey key k records, step (store k) r = store k := by
    intro r hr
    obtain ⟨hin, heq⟩ := List.mem_filter.mp hr
    have hsame := h r hin
    rwa [of_decide_eq_true heq] at hsame
  rw [replay]
  generalize ofKey key k records = own at hk
  induction own with
  | nil => rfl
  | cons r rest ih =>
      rw [List.foldl_cons, hk r List.mem_cons_self]
      exact ih fun r' hr' => hk r' (List.mem_cons_of_mem r hr')

/-! ### Histories -/

/-- **The past of a store**: all records that were appended, those that were applied, those that were not
yet, and how many are no longer in the log. -/
structure History (ρ : Type w) where
  total : List ρ
  applied : List ρ
  pending : List ρ
  truncated : ℕ

namespace History

/-- Before any record. -/
def start : History ρ := ⟨[], [], [], 0⟩

variable (h : History ρ)

/-- The records in the log. -/
def log : List ρ := h.total.drop h.truncated

/-- A record is appended. -/
def append (r : ρ) : History ρ := { h with total := h.total ++ [r], pending := h.pending ++ [r] }

/-- A record that was appended is applied. -/
def apply (pos : ℕ) (r : ρ) : History ρ :=
  { h with applied := h.applied ++ [r], pending := h.pending.eraseIdx pos }

/-- The log is truncated. -/
def truncate : History ρ := { h with truncated := h.total.length }

end History

/-- **Records are applied in the order of the log**, key by key, and before they are truncated. -/
structure Ordered (h : History ρ) : Prop where
  split : ∀ k, ofKey key k h.total = ofKey key k h.applied ++ ofKey key k h.pending
  length : h.total.length = h.applied.length + h.pending.length
  bound : h.truncated ≤ h.applied.length
  cut : ∀ k, ofKey key k (h.total.take h.truncated) = ofKey key k (h.applied.take h.truncated)

variable {key} {h : History ρ}

theorem ordered_start : Ordered key (History.start : History ρ) :=
  ⟨fun _ => rfl, rfl, Nat.le_refl _, fun _ => rfl⟩

theorem Ordered.bound_total (ho : Ordered key h) : h.truncated ≤ h.total.length :=
  Nat.le_trans ho.bound (by rw [ho.length]; exact Nat.le_add_right _ _)

theorem Ordered.append (ho : Ordered key h) (r : ρ) : Ordered key (h.append r) := by
  refine ⟨fun k => ?_, ?_, ho.bound, fun k => ?_⟩
  · show ofKey key k (h.total ++ [r]) = ofKey key k h.applied ++ ofKey key k (h.pending ++ [r])
    rw [ofKey_append, ofKey_append, ho.split, List.append_assoc]
  · show (h.total ++ [r]).length = h.applied.length + (h.pending ++ [r]).length
    rw [List.length_append, List.length_append, ho.length, Nat.add_assoc]
  · show ofKey key k ((h.total ++ [r]).take h.truncated) = _
    rw [List.take_append_of_le_length ho.bound_total]
    exact ho.cut k

/-- A record that is the first of its key may as well be the first of all. -/
theorem ofKey_eraseIdx {records : List ρ} {pos : ℕ} {r : ρ} (hr : records[pos]? = some r)
    (hfirst : ∀ r' ∈ records.take pos, key r' ≠ key r) (k : κ) :
    ofKey key k records = ofKey key k [r] ++ ofKey key k (records.eraseIdx pos) := by
  obtain ⟨hpos, hget⟩ := List.getElem?_eq_some_iff.mp hr
  have hsplit : records = records.take pos ++ r :: records.drop (pos + 1) := by
    rw [← hget, List.getElem_cons_drop hpos, List.take_append_drop]
  have hsplit' : ofKey key k records
      = ofKey key k (records.take pos) ++ ofKey key k (r :: records.drop (pos + 1)) := by
    rw [← ofKey_append, ← hsplit]
  have hcons : ofKey key k (r :: records.drop (pos + 1))
      = ofKey key k [r] ++ ofKey key k (records.drop (pos + 1)) :=
    ofKey_append key k [r] _
  have hbefore : ofKey key k (records.take pos) ++ ofKey key k [r]
      = ofKey key k [r] ++ ofKey key k (records.take pos) := by
    rw [ofKey_singleton]
    by_cases h : key r = k
    · have hnone : ofKey key k (records.take pos) = [] := by
        refine List.filter_eq_nil_iff.mpr fun r' hr' heq => hfirst r' hr' ?_
        rw [of_decide_eq_true heq, h]
      rw [hnone, List.append_nil, List.nil_append]
    · rw [if_neg h, List.append_nil, List.nil_append]
  rw [hsplit', hcons, ← List.append_assoc, hbefore, List.append_assoc, ← ofKey_append,
    ← List.eraseIdx_eq_take_drop_succ]

/-- **Applying the first record of its key.** -/
theorem Ordered.apply (ho : Ordered key h) {pos : ℕ} {r : ρ} (hr : h.pending[pos]? = some r)
    (hfirst : ∀ r' ∈ h.pending.take pos, key r' ≠ key r) : Ordered key (h.apply pos r) := by
  obtain ⟨hpos, _⟩ := List.getElem?_eq_some_iff.mp hr
  refine ⟨fun k => ?_, ?_, ?_, fun k => ?_⟩
  · show ofKey key k h.total
      = ofKey key k (h.applied ++ [r]) ++ ofKey key k (h.pending.eraseIdx pos)
    rw [ho.split, ofKey_eraseIdx hr hfirst, ofKey_append, List.append_assoc]
  · show h.total.length = (h.applied ++ [r]).length + (h.pending.eraseIdx pos).length
    rw [List.length_append, List.length_eraseIdx_of_lt hpos, ho.length, List.length_singleton]
    omega
  · show h.truncated ≤ (h.applied ++ [r]).length
    rw [List.length_append]
    exact Nat.le_trans ho.bound (Nat.le_add_right _ _)
  · show _ = ofKey key k ((h.applied ++ [r]).take h.truncated)
    rw [List.take_append_of_le_length ho.bound]
    exact ho.cut k

/-- **Truncating** a log all of whose records have been applied. -/
theorem Ordered.truncate (ho : Ordered key h) (hall : h.total.length ≤ h.applied.length) :
    Ordered key h.truncate := by
  have hnone : h.pending = [] := by
    have hlength := ho.length
    exact List.length_eq_zero_iff.mp (by omega)
  refine ⟨ho.split, ho.length, hall, fun k => ?_⟩
  show ofKey key k (h.total.take h.total.length) = ofKey key k (h.applied.take h.total.length)
  rw [List.take_length, List.take_of_length_le (by have hlength := ho.length; omega), ho.split, hnone]
  exact List.append_nil _

/-! ### Loading -/

/-- The log, key by key: what a snapshot of the first `seen` applied records covers of it, what was applied
after the snapshot, and what is still to be applied. -/
theorem Ordered.log_split (ho : Ordered key h) {seen : ℕ} (hseen : h.truncated ≤ seen) (k : κ) :
    ofKey key k h.log = ofKey key k ((h.applied.take seen).drop h.truncated
      ++ h.applied.drop seen ++ h.pending) := by
  have htotal : ofKey key k h.total
      = ofKey key k (h.total.take h.truncated) ++ ofKey key k h.log := by
    rw [← ofKey_append, History.log, List.take_append_drop]
  have hcovered : h.applied.take seen
      = h.applied.take h.truncated ++ (h.applied.take seen).drop h.truncated := by
    have hsplit := List.take_append_drop h.truncated (h.applied.take seen)
    rw [List.take_take, Nat.min_eq_left hseen] at hsplit
    exact hsplit.symm
  have happlied : h.applied
      = h.applied.take h.truncated ++ ((h.applied.take seen).drop h.truncated ++ h.applied.drop seen) := by
    rw [← List.append_assoc, ← hcovered, List.take_append_drop]
  have hsplit : ofKey key k (h.total.take h.truncated) ++ ofKey key k h.log
      = ofKey key k (h.total.take h.truncated) ++ ofKey key k ((h.applied.take seen).drop h.truncated
          ++ h.applied.drop seen ++ h.pending) := by
    rw [← htotal, ho.split, ho.cut k, ← ofKey_append, ← ofKey_append, ← List.append_assoc,
      ← happlied]
  exact List.append_cancel_left hsplit

/-- **Loading** a snapshot and replaying the log over it gives the store with the records that are still to
be applied, if the snapshot covers what is truncated and absorbs what it covers of the log. -/
theorem Ordered.load (step : σ → ρ → σ) (ho : Ordered key h) (initial : κ → σ) {seen : ℕ}
    (hseen : h.truncated ≤ seen)
    (habsorbed : ∀ r ∈ (h.applied.take seen).drop h.truncated,
      step (replay key step initial (h.applied.take seen) (key r)) r
        = replay key step initial (h.applied.take seen) (key r)) :
    replay key step (replay key step initial (h.applied.take seen)) h.log
      = replay key step (replay key step initial h.applied) h.pending := by
  rw [replay_congr key step _ (ho.log_split hseen), replay_append, replay_append,
    replay_unchanged key step _ habsorbed, ← replay_append key step initial, List.take_append_drop]

end Logged
