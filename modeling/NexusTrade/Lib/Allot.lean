import Mathlib.Algebra.Order.Group.Defs
import Mathlib.Algebra.Order.Monoid.Unbundled.MinMax
import Mathlib.Algebra.BigOperators.Group.List.Basic

/-!
# Allotting a quantity along a queue

`allot cap q as` serves a demand `q` from the members of a queue in order, each up to its capacity, and
stops when the demand is met.  The library is about an arbitrary ordered group of quantities.

* **`allot_cons`** is one step; **`allot_of_nonpos`** the end;
* **`sum_allot`**: what is served is the demand or everything there is, whichever is smaller;
* **`mem_allot`**: who is served is in the queue, with at most its capacity;
* **`left`** is what a demand leaves of the queue; **`left_add`** and **`amount_add`** say that two demands one
  after the other leave and give what one of their sum does;
* **`Reached`** is a condition on those that a demand gets to, each with those before it; **`reached_cons`** and
  **`reached_append`** take it apart along the queue.
-/

namespace Allot

universe u v

variable {α : Type u} {R : Type v} [AddCommGroup R] {cap : α → R}

/-- Everything there is in a queue. -/
def total (cap : α → R) (as : List α) : R := (as.map cap).sum

@[simp] theorem total_nil : total cap [] = 0 := rfl

@[simp] theorem total_cons (a : α) (as : List α) : total cap (a :: as) = cap a + total cap as := by
  rw [total, List.map_cons, List.sum_cons]
  rfl

theorem total_append (as bs : List α) : total cap (as ++ bs) = total cap as + total cap bs := by
  rw [total, List.map_append, List.sum_append]
  rfl

/-! ### What each is given -/

section Amount

variable {κ : Type*} [DecidableEq κ] (key : α → κ) (k : κ)

/-- What those of a key are given. -/
def amount (served : List (α × R)) : R := (served.map fun p => if key p.1 = k then p.2 else 0).sum

@[simp] theorem amount_nil : amount key k ([] : List (α × R)) = 0 := rfl

@[simp] theorem amount_cons (p : α × R) (served : List (α × R)) :
    amount key k (p :: served) = (if key p.1 = k then p.2 else 0) + amount key k served := by
  rw [amount, List.map_cons, List.sum_cons]
  rfl

end Amount

variable [LinearOrder R]

/-- Serve a demand from a queue, each member up to its capacity. -/
def allot (cap : α → R) : R → List α → List (α × R)
  | _, [] => []
  | q, a :: as => if q ≤ 0 then [] else (a, min q (cap a)) :: allot cap (q - min q (cap a)) as

@[simp] theorem allot_nil (q : R) : allot cap q [] = [] := rfl

/-- A demand that is met serves nobody. -/
theorem allot_of_nonpos {q : R} (h : q ≤ 0) (as : List α) : allot cap q as = [] := by
  cases as with
  | nil => rfl
  | cons a as => rw [allot, if_pos h]

theorem allot_cons {q : R} (h : 0 < q) (a : α) (as : List α) :
    allot cap q (a :: as) = (a, min q (cap a)) :: allot cap (q - min q (cap a)) as := by
  rw [allot, if_neg (not_le.mpr h)]

/-- A demand serves nobody only if there is nobody. -/
theorem allot_eq_nil {q : R} (h : 0 < q) {as : List α} : allot cap q as = [] ↔ as = [] := by
  cases as with
  | nil => exact iff_of_true rfl rfl
  | cons a as =>
      rw [allot_cons h]
      exact iff_of_false (List.cons_ne_nil _ _) (List.cons_ne_nil _ _)

/-- **Who is served** is in the queue, with at most its capacity. -/
theorem mem_allot {q : R} {as : List α} {p : α × R} (h : p ∈ allot cap q as) :
    p.1 ∈ as ∧ p.2 ≤ cap p.1 := by
  induction as generalizing q with
  | nil => cases h
  | cons a as ih =>
      by_cases hq : q ≤ 0
      · rw [allot_of_nonpos hq] at h
        cases h
      · rw [allot_cons (not_le.mp hq)] at h
        rcases List.mem_cons.mp h with rfl | h
        · exact ⟨List.mem_cons_self, min_le_right _ _⟩
        · exact ⟨List.mem_cons_of_mem _ (ih h).1, (ih h).2⟩

/-- What is served is positive, if capacities are. -/
theorem pos_of_mem_allot {q : R} {as : List α} (hcap : ∀ a ∈ as, 0 < cap a) {p : α × R}
    (h : p ∈ allot cap q as) : 0 < p.2 := by
  induction as generalizing q with
  | nil => cases h
  | cons a as ih =>
      by_cases hq : q ≤ 0
      · rw [allot_of_nonpos hq] at h
        cases h
      · rw [allot_cons (not_le.mp hq)] at h
        rcases List.mem_cons.mp h with rfl | h
        · exact lt_min (not_le.mp hq) (hcap a List.mem_cons_self)
        · exact ih (fun b hb => hcap b (List.mem_cons_of_mem _ hb)) h

/-! ### What a demand leaves -/

section Left

variable (cap) (reduce : α → R → α)

/-- What a demand leaves of a queue: a member with nothing left is gone. -/
def left : R → List α → List α
  | _, [] => []
  | q, a :: as => if q ≤ 0 then a :: as else if cap a ≤ q then left (q - cap a) as else reduce a q :: as

/-- Taking from a member lowers its capacity, and taking twice takes the sum. -/
structure Reduces : Prop where
  cap_reduce : ∀ a q, cap (reduce a q) = cap a - q
  reduce_reduce : ∀ a p q, reduce (reduce a p) q = reduce a (p + q)

end Left

variable {reduce : α → R → α}

@[simp] theorem left_nil (q : R) : left cap reduce q [] = [] := rfl

theorem left_of_nonpos {q : R} (h : q ≤ 0) (as : List α) : left cap reduce q as = as := by
  cases as with
  | nil => rfl
  | cons a as => rw [left, if_pos h]

/-- A member that a demand exhausts is gone. -/
theorem left_cons_gone {q : R} {a : α} (h : 0 < q) (ha : cap a ≤ q) (as : List α) :
    left cap reduce q (a :: as) = left cap reduce (q - cap a) as := by
  rw [left, if_neg (not_le.mpr h), if_pos ha]

/-- A member with more than is asked for meets the demand. -/
theorem left_cons_kept {q : R} {a : α} (h : 0 < q) (ha : q < cap a) (as : List α) :
    left cap reduce q (a :: as) = reduce a q :: as := by
  rw [left, if_neg (not_le.mpr h), if_neg (not_le.mpr ha)]

/-- Who is left was there, or is what a demand has left of somebody who was. -/
theorem mem_left {q : R} {as : List α} {b : α} (h : b ∈ left cap reduce q as) :
    b ∈ as ∨ ∃ a ∈ as, ∃ p, b = reduce a p := by
  induction as generalizing q with
  | nil => cases h
  | cons a as ih =>
      by_cases hq : q ≤ 0
      · rw [left_of_nonpos hq] at h
        exact Or.inl h
      · by_cases ha : cap a ≤ q
        · rw [left_cons_gone (not_le.mp hq) ha] at h
          rcases ih h with h | ⟨c, hc, p, hp⟩
          · exact Or.inl (List.mem_cons_of_mem _ h)
          · exact Or.inr ⟨c, List.mem_cons_of_mem _ hc, p, hp⟩
        · rw [left_cons_kept (not_le.mp hq) (not_le.mp ha)] at h
          rcases List.mem_cons.mp h with h | h
          · exact Or.inr ⟨a, List.mem_cons_self, q, h⟩
          · exact Or.inl (List.mem_cons_of_mem _ h)

variable [IsOrderedAddMonoid R]

theorem total_nonneg {as : List α} (h : ∀ a ∈ as, 0 ≤ cap a) : 0 ≤ total cap as := by
  induction as with
  | nil => exact le_refl _
  | cons a as ih =>
      rw [total_cons]
      exact add_nonneg (h a List.mem_cons_self) (ih fun b hb => h b (List.mem_cons_of_mem _ hb))

/-- **What is served**: the demand, or everything there is. -/
theorem sum_allot {q : R} (hq : 0 ≤ q) {as : List α} (h : ∀ a ∈ as, 0 ≤ cap a) :
    ((allot cap q as).map Prod.snd).sum = min q (total cap as) := by
  induction as generalizing q with
  | nil => rw [allot_nil, total_nil, min_eq_right hq]; rfl
  | cons a as ih =>
      have htail : ∀ b ∈ as, 0 ≤ cap b := fun b hb => h b (List.mem_cons_of_mem _ hb)
      have htotal := total_nonneg htail
      have ha := h a List.mem_cons_self
      rcases eq_or_lt_of_le hq with hz | hpos
      · rw [allot_of_nonpos hz.symm.le, total_cons, ← hz, min_eq_left (add_nonneg ha htotal)]
        rfl
      · rw [allot_cons hpos, List.map_cons, List.sum_cons, total_cons,
          ih (sub_nonneg.mpr (min_le_left _ _)) htail]
        rcases le_total q (cap a) with hle | hle
        · rw [min_eq_left hle, sub_self, min_eq_left htotal, add_zero,
            min_eq_left (hle.trans (le_add_of_nonneg_right htotal))]
        · rw [min_eq_right hle, ← min_add_add_left, add_sub_cancel]

/-! ### Two demands -/

/-- **Two demands leave what their sum leaves.** -/
theorem left_add (hreduce : Reduces cap reduce) {p q : R} (hp : 0 ≤ p) (hq : 0 ≤ q) (as : List α) :
    left cap reduce (p + q) as = left cap reduce q (left cap reduce p as) := by
  rcases hq.eq_or_lt with rfl | hq
  · rw [add_zero, left_of_nonpos le_rfl]
  induction as generalizing p with
  | nil => rfl
  | cons a as ih =>
      rcases hp.eq_or_lt with rfl | hp
      · rw [zero_add, left_of_nonpos le_rfl]
      have hsum : 0 < p + q := add_pos hp hq
      by_cases ha : cap a ≤ p
      · have hboth : cap a ≤ p + q := ha.trans (le_add_of_nonneg_right hq.le)
        rw [left_cons_gone hp ha, left_cons_gone hsum hboth, add_sub_right_comm]
        exact ih (sub_nonneg.mpr ha)
      · -- the first demand is met by the first member, the second begins with what is left of it
        have ha : p < cap a := not_le.mp ha
        rw [left_cons_kept hp ha]
        by_cases hboth : cap a ≤ p + q
        · have hrest : cap (reduce a p) ≤ q := by
            rw [hreduce.cap_reduce]
            exact sub_le_iff_le_add'.mpr hboth
          rw [left_cons_gone hsum hboth, left_cons_gone hq hrest, hreduce.cap_reduce, sub_sub_eq_add_sub,
            add_comm q p]
        · have hrest : q < cap (reduce a p) := by
            rw [hreduce.cap_reduce]
            exact lt_sub_iff_add_lt'.mpr (not_le.mp hboth)
          rw [left_cons_kept hsum (not_le.mp hboth), left_cons_kept hq hrest, hreduce.reduce_reduce]

/-- **Two demands give what their sum gives**, to those of each key. -/
theorem amount_add {κ : Type*} [DecidableEq κ] (key : α → κ) (k : κ) (hreduce : Reduces cap reduce)
    (hkey : ∀ a q, key (reduce a q) = key a) {p q : R} (hp : 0 ≤ p) (hq : 0 ≤ q) (as : List α) :
    amount key k (allot cap (p + q) as)
      = amount key k (allot cap p as) + amount key k (allot cap q (left cap reduce p as)) := by
  rcases hq.eq_or_lt with rfl | hq
  · rw [add_zero, allot_of_nonpos le_rfl, amount_nil, add_zero]
  induction as generalizing p with
  | nil => simp
  | cons a as ih =>
      rcases hp.eq_or_lt with rfl | hp
      · rw [zero_add, left_of_nonpos le_rfl, allot_of_nonpos le_rfl, amount_nil, zero_add]
      have hsum : 0 < p + q := add_pos hp hq
      by_cases ha : cap a ≤ p
      · have hboth : cap a ≤ p + q := ha.trans (le_add_of_nonneg_right hq.le)
        rw [left_cons_gone hp ha, allot_cons hsum, allot_cons hp, min_eq_right hboth, min_eq_right ha,
          add_sub_right_comm, amount_cons, amount_cons, ih (sub_nonneg.mpr ha), add_assoc]
      · have ha : p < cap a := not_le.mp ha
        have hmin : min (p + q) (cap a) = p + min q (cap a - p) := by
          rw [← min_add_add_left, add_sub_cancel]
        have hrest : p + q - (p + min q (cap a - p)) = q - min q (cap a - p) := add_sub_add_left_eq_sub _ _ _
        rw [left_cons_kept hp ha, allot_cons hsum, allot_cons hp, allot_cons hq, hreduce.cap_reduce, hmin,
          min_eq_left ha.le, sub_self, allot_of_nonpos le_rfl, hrest]
        simp only [amount_cons, amount_nil, hkey]
        split
        · rw [add_zero, add_assoc]
        · rw [zero_add, zero_add, zero_add]

/-! ### Who is reached -/

section Each

variable {α : Type*} {P Q : List α → α → Prop}

/-- A condition on each member of a queue and those before it. -/
def Each (P : List α → α → Prop) (as : List α) : Prop := ∀ before a, before ++ [a] <+: as → P before a

@[simp] theorem each_nil : Each P [] := fun _ _ hpre => absurd (List.prefix_nil.mp hpre) (by simp)

theorem each_congr {as : List α} (h : ∀ before a, before ++ [a] <+: as → (P before a ↔ Q before a)) :
    Each P as ↔ Each Q as :=
  forall_congr' fun before => forall_congr' fun a => forall_congr' fun hpre => h before a hpre

/-- **The first in the queue**, and the rest of it. -/
theorem each_cons {a : α} {as : List α} : Each P (a :: as) ↔ P [] a ∧ Each (fun before => P (a :: before)) as := by
  constructor
  · intro h
    refine ⟨h [] a (by simp), fun before b hpre => h (a :: before) b ?_⟩
    rw [List.cons_append, List.cons_prefix_cons]
    exact ⟨rfl, hpre⟩
  · rintro ⟨hfirst, hrest⟩ before b hpre
    cases before with
    | nil =>
        rw [List.nil_append, List.cons_prefix_cons] at hpre
        rw [hpre.1]
        exact hfirst
    | cons c before =>
        rw [List.cons_append, List.cons_prefix_cons] at hpre
        rw [hpre.1]
        exact hrest before b hpre.2

end Each

section Reached

variable {α : Type*} {R : Type*} [AddCommGroup R] [LinearOrder R] {cap : α → R} {P Q : List α → α → Prop} {q : R}

/-- A condition on those that a demand gets to, each with those before it. -/
def Reached (cap : α → R) (P : List α → α → Prop) (q : R) : List α → Prop :=
  Each fun before a => total cap before < q → P before a

@[simp] theorem reached_nil : Reached cap P q [] := each_nil

theorem reached_congr {as : List α} (h : ∀ before a, before ++ [a] <+: as → (P before a ↔ Q before a)) :
    Reached cap P q as ↔ Reached cap Q q as :=
  each_congr fun before a hpre => imp_congr_right fun _ => h before a hpre

variable [IsOrderedAddMonoid R]

/-- A demand that is met gets to nobody. -/
theorem reached_of_nonpos {as : List α} (hcap : ∀ a ∈ as, 0 ≤ cap a) (hq : q ≤ 0) : Reached cap P q as := by
  intro before a hpre hlt
  have hbefore : 0 ≤ total cap before :=
    total_nonneg fun b hb => hcap b (hpre.subset (List.mem_append_left _ hb))
  exact absurd (hlt.trans_le hq) (not_lt.mpr hbefore)

/-- **The first in the queue**, if the demand gets to it, and the rest of it. -/
theorem reached_cons {a : α} {as : List α} :
    Reached cap P q (a :: as) ↔
      (0 < q → P [] a) ∧ Reached cap (fun before => P (a :: before)) (q - cap a) as := by
  rw [Reached, each_cons, total_nil]
  refine and_congr_right fun _ => each_congr fun before b _ => ?_
  rw [total_cons, lt_sub_iff_add_lt']

/-- **One queue behind another.** -/
theorem reached_append {as bs : List α} :
    Reached cap P q (as ++ bs) ↔
      Reached cap P q as ∧ Reached cap (fun before => P (as ++ before)) (q - total cap as) bs := by
  induction as generalizing P q with
  | nil => simp
  | cons a as ih =>
      rw [List.cons_append, reached_cons, ih, reached_cons, total_cons, and_assoc, sub_sub]
      rfl

end Reached

end Allot
