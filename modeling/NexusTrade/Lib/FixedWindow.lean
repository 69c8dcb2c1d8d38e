import Mathlib.Algebra.Order.Ring.Int
import Mathlib.Data.List.Induction

/-!
# Fixed windows

A limit on requests that counts them in windows: the first request after a window has ended opens the next one, and a
window grants its first requests, up to a limit, the opening one in any case.

* **`request`**: one request at a time;
* **`Tallied`**: the invariant that links the window with the requests so far;
* **`Tallied.request`**: a request keeps it, if the clock does not go back;
* **`Tallied.bound`** and **`Tallied.refused`** are what follows: no stretch of time of the width of a window sees more
  than twice the limit granted, and who is refused has made more requests than the limit in such a stretch.
-/

namespace FixedWindow

structure Window where
  count : ℕ
  resetAt : ℤ
  deriving DecidableEq

/-- A request that was made, and what came of it. -/
structure Hit where
  time : ℤ
  granted : Bool
  deriving DecidableEq

/-- A request: whether it is granted, and the window after it. -/
def request (width : ℤ) (limit : ℕ) (window : Option Window) (now : ℤ) : Bool × Window :=
  match window with
  | none => (true, ⟨1, now + width⟩)
  | some w =>
    if w.resetAt ≤ now then (true, ⟨1, now + width⟩)
    else (decide (w.count + 1 ≤ limit), ⟨w.count + 1, w.resetAt⟩)

/-! ### Counting -/

/-- The requests from a time on and before another. -/
def made (hits : List Hit) (start stop : ℤ) : ℕ := hits.countP fun h => start ≤ h.time && h.time < stop

/-- Those of them that were granted. -/
def granted (hits : List Hit) (start stop : ℤ) : ℕ :=
  hits.countP fun h => h.granted && (start ≤ h.time && h.time < stop)

variable {hits : List Hit} {start stop start' stop' : ℤ}

theorem made_snoc (hits : List Hit) (h : Hit) (start stop : ℤ) :
    made (hits ++ [h]) start stop = made hits start stop + if start ≤ h.time ∧ h.time < stop then 1 else 0 := by
  rw [made, List.countP_append, List.countP_singleton]
  simp [made]

theorem granted_snoc (hits : List Hit) (h : Hit) (start stop : ℤ) :
    granted (hits ++ [h]) start stop
      = granted hits start stop + if h.granted = true ∧ start ≤ h.time ∧ h.time < stop then 1 else 0 := by
  rw [granted, List.countP_append, List.countP_singleton]
  simp [granted]

theorem granted_le_made (hits : List Hit) (start stop : ℤ) : granted hits start stop ≤ made hits start stop := by
  apply List.countP_mono_left
  intro h _ hin
  exact (Bool.and_eq_true_iff.mp hin).2

/-- A stretch that holds what another one does. -/
theorem made_mono (h : ∀ hit ∈ hits, start ≤ hit.time → hit.time < stop → start' ≤ hit.time ∧ hit.time < stop') :
    made hits start stop ≤ made hits start' stop' := by
  apply List.countP_mono_left
  intro hit hmem hin
  simp only [Bool.and_eq_true, decide_eq_true_eq] at hin ⊢
  exact h hit hmem hin.1 hin.2

theorem granted_mono (h : ∀ hit ∈ hits, start ≤ hit.time → hit.time < stop → start' ≤ hit.time ∧ hit.time < stop') :
    granted hits start stop ≤ granted hits start' stop' := by
  apply List.countP_mono_left
  intro hit hmem hin
  simp only [Bool.and_eq_true, decide_eq_true_eq] at hin ⊢
  exact ⟨hin.1, h hit hmem hin.2.1 hin.2.2⟩

theorem made_eq_zero (h : ∀ hit ∈ hits, hit.time < start) : made hits start stop = 0 := by
  apply List.countP_eq_zero.mpr
  intro hit hmem hin
  have hbefore := h hit hmem
  simp only [Bool.and_eq_true, decide_eq_true_eq] at hin
  omega

/-- A stretch is covered by its parts. -/
theorem granted_split (hits : List Hit) (start middle stop : ℤ) :
    granted hits start stop ≤ granted hits start middle + granted hits middle stop := by
  induction hits using List.reverseRecOn with
  | nil => exact Nat.zero_le _
  | append_singleton hits h ih =>
      rw [granted_snoc, granted_snoc, granted_snoc]
      cases hgranted : h.granted with
      | false => simpa using ih
      | true =>
          simp only [true_and]
          split_ifs <;> omega

/-! ### The invariant -/

/-- **The invariant** of a window and the requests so far: the window counts those in it; it and the stretch before it
have granted no more than the limit. -/
structure Tallied (width : ℤ) (limit : ℕ) (window : Option Window) (hits : List Hit) (clock : ℤ) : Prop where
  absent : window = none → hits = []
  past : ∀ hit ∈ hits, hit.time ≤ clock
  opened : ∀ w ∈ window, w.resetAt - width ≤ clock
  inside : ∀ w ∈ window, ∀ hit ∈ hits, hit.time < w.resetAt
  count : ∀ w ∈ window, w.count = made hits (w.resetAt - width) w.resetAt
  current : ∀ w ∈ window, granted hits (w.resetAt - width) w.resetAt ≤ max 1 limit
  before : ∀ w ∈ window, granted hits (w.resetAt - 2 * width) (w.resetAt - width) ≤ max 1 limit
  bound : ∀ start, granted hits start (start + width) ≤ 2 * max 1 limit
  refused : ∀ (n : ℕ) (hit : Hit), hits[n]? = some hit → hit.granted = false →
    limit < made (hits.take (n + 1)) (hit.time - width + 1) (hit.time + 1)

variable {width : ℤ} {limit : ℕ} {window : Option Window} {clock now : ℤ}

theorem Tallied.nil (width : ℤ) (limit : ℕ) (clock : ℤ) : Tallied width limit none [] clock where
  absent := fun _ => rfl
  past := fun _ h => nomatch h
  opened := fun _ h => nomatch h
  inside := fun _ h => nomatch h
  count := fun _ h => nomatch h
  current := fun _ h => nomatch h
  before := fun _ h => nomatch h
  bound := fun _ => Nat.zero_le _
  refused := fun _ _ h => nomatch h

/-- A refused request is one of those before, or the last. -/
theorem Tallied.refused_snoc (h : Tallied width limit window hits clock) {last : Hit}
    (hlast : last.granted = false → limit < made (hits ++ [last]) (last.time - width + 1) (last.time + 1))
    (n : ℕ) (hit : Hit) (hn : (hits ++ [last])[n]? = some hit) (hrefused : hit.granted = false) :
    limit < made ((hits ++ [last]).take (n + 1)) (hit.time - width + 1) (hit.time + 1) := by
  by_cases hlt : n < hits.length
  · rw [List.getElem?_append_left hlt] at hn
    rw [List.take_append_of_le_length (by omega)]
    exact h.refused n hit hn hrefused
  · have hlength : n = hits.length := by
      have hbound := (List.getElem?_eq_some_iff.mp hn).1
      rw [List.length_append, List.length_singleton] at hbound
      omega
    subst hlength
    rw [List.getElem?_append_right (Nat.le_refl _), Nat.sub_self] at hn
    obtain rfl := Option.some.inj hn
    rw [List.take_of_length_le (by simp)]
    exact hlast hrefused

/-- **A request opens a window.** -/
theorem Tallied.opens (h : Tallied width limit window hits clock) (hwidth : 0 < width)
    (hover : ∀ w ∈ window, w.resetAt ≤ now) :
    Tallied width limit (some ⟨1, now + width⟩) (hits ++ [⟨now, true⟩]) now := by
  have hearlier : ∀ hit ∈ hits, hit.time < now := by
    intro hit hmem
    cases hw : window with
    | none =>
        rw [h.absent hw] at hmem
        cases hmem
    | some w => exact (h.inside w hw hit hmem).trans_le (hover w hw)
  -- a stretch that ends after the last window holds nothing of what came before that window
  have hfew : ∀ start stop : ℤ, now - width ≤ start → granted hits start stop ≤ max 1 limit := by
    intro start stop hstart
    cases hw : window with
    | none =>
        rw [h.absent hw]
        exact Nat.zero_le _
    | some w =>
        refine le_trans (granted_mono fun hit hmem hfrom _ => ?_) (h.current w hw)
        have hreset := hover w hw
        exact ⟨by omega, h.inside w hw hit hmem⟩
  constructor
  · intro hnone
    cases hnone
  · intro hit hmem
    rcases List.mem_append.mp hmem with hmem | hmem
    · exact (hearlier hit hmem).le
    · rw [List.mem_singleton.mp hmem]
  · rintro _ ⟨⟩
    show now + width - width ≤ now
    omega
  · rintro _ ⟨⟩ hit hmem
    show hit.time < now + width
    rcases List.mem_append.mp hmem with hmem | hmem
    · have hbefore := hearlier hit hmem
      omega
    · rw [List.mem_singleton.mp hmem]
      show now < now + width
      omega
  · rintro _ ⟨⟩
    show 1 = made _ (now + width - width) (now + width)
    rw [add_sub_cancel_right, made_snoc, made_eq_zero hearlier, if_pos ⟨le_refl _, by simpa using hwidth⟩]
  · rintro _ ⟨⟩
    show granted _ (now + width - width) (now + width) ≤ max 1 limit
    have hone := granted_le_made (hits ++ [⟨now, true⟩]) (now + width - width) (now + width)
    rw [add_sub_cancel_right, made_snoc, made_eq_zero hearlier] at hone
    rw [add_sub_cancel_right]
    split_ifs at hone <;> omega
  · rintro _ ⟨⟩
    show granted _ (now + width - 2 * width) (now + width - width) ≤ max 1 limit
    have hbefore := hfew (now + width - 2 * width) (now + width - width) (by omega)
    rw [granted_snoc, if_neg]
    · exact hbefore
    · rintro ⟨_, _, hlt⟩
      simp only at hlt
      omega
  · intro start
    rw [granted_snoc]
    split_ifs with hin
    · have hbefore := hfew start (start + width) (by
        have hlt := hin.2.2
        simp only at hlt
        omega)
      omega
    · exact h.bound start
  · apply h.refused_snoc
    intro hrefused
    cases hrefused

/-- **A request in a window.** -/
theorem Tallied.joins {w : Window} (h : Tallied width limit (some w) hits clock) (hnow : clock ≤ now)
    (hopen : now < w.resetAt) :
    Tallied width limit (some ⟨w.count + 1, w.resetAt⟩) (hits ++ [⟨now, decide (w.count + 1 ≤ limit)⟩]) now := by
  have hopened := h.opened w rfl
  have hcount := h.count w rfl
  have hinside := h.inside w rfl
  have hmade : made (hits ++ [⟨now, decide (w.count + 1 ≤ limit)⟩]) (w.resetAt - width) w.resetAt = w.count + 1 := by
    rw [made_snoc, if_pos ⟨by simp only; omega, hopen⟩, hcount]
  constructor
  · intro hnone
    cases hnone
  · intro hit hmem
    rcases List.mem_append.mp hmem with hmem | hmem
    · exact (h.past hit hmem).trans hnow
    · rw [List.mem_singleton.mp hmem]
  · rintro _ ⟨⟩
    show w.resetAt - width ≤ now
    omega
  · rintro _ ⟨⟩ hit hmem
    rcases List.mem_append.mp hmem with hmem | hmem
    · exact hinside hit hmem
    · rw [List.mem_singleton.mp hmem]
      exact hopen
  · rintro _ ⟨⟩
    exact hmade.symm
  · rintro _ ⟨⟩
    show granted _ (w.resetAt - width) w.resetAt ≤ max 1 limit
    have hcurrent := h.current w rfl
    have hcounted := granted_le_made hits (w.resetAt - width) w.resetAt
    rw [granted_snoc]
    split_ifs with hin
    · have hroom := of_decide_eq_true hin.1
      omega
    · omega
  · rintro _ ⟨⟩
    show granted _ (w.resetAt - 2 * width) (w.resetAt - width) ≤ max 1 limit
    have hbefore := h.before w rfl
    rw [granted_snoc, if_neg]
    · exact hbefore
    · rintro ⟨_, _, hlt⟩
      simp only at hlt
      omega
  · intro start
    rw [granted_snoc]
    split_ifs with hin
    · -- what the stretch holds is in this window or in the stretch before it
      have hlt := hin.2.2
      have hroom := of_decide_eq_true hin.1
      simp only at hlt
      have hsplit := granted_split hits start (w.resetAt - width) (start + width)
      have hbefore : granted hits start (w.resetAt - width) ≤ max 1 limit := by
        refine le_trans (granted_mono fun hit _ hfrom hto => ?_) (h.before w rfl)
        exact ⟨by omega, hto⟩
      have hcurrent : granted hits (w.resetAt - width) (start + width) ≤ w.count := by
        rw [hcount]
        refine le_trans (granted_mono fun hit hmem hfrom _ => ?_) (granted_le_made hits _ _)
        exact ⟨hfrom, hinside hit hmem⟩
      omega
    · exact h.bound start
  · apply h.refused_snoc
    intro hrefused
    have hfull := of_decide_eq_false hrefused
    have hlimit : limit < made (hits ++ [⟨now, decide (w.count + 1 ≤ limit)⟩]) (w.resetAt - width) w.resetAt := by
      omega
    refine lt_of_lt_of_le hlimit (made_mono fun hit hmem hfrom _ => ?_)
    have hlast : hit.time ≤ now := by
      rcases List.mem_append.mp hmem with hmem | hmem
      · exact (h.past hit hmem).trans hnow
      · rw [List.mem_singleton.mp hmem]
    simp only
    omega

/-- **A request keeps the invariant.** -/
theorem Tallied.request (h : Tallied width limit window hits clock) (hwidth : 0 < width) (hnow : clock ≤ now) :
    Tallied width limit (some (FixedWindow.request width limit window now).2)
      (hits ++ [⟨now, (FixedWindow.request width limit window now).1⟩]) now := by
  cases window with
  | none =>
      apply h.opens hwidth
      intro w hw
      cases hw
  | some w =>
      rw [FixedWindow.request]
      by_cases hreset : w.resetAt ≤ now
      · rw [if_pos hreset]
        apply h.opens hwidth
        rintro _ ⟨⟩
        exact hreset
      · rw [if_neg hreset]
        exact h.joins hnow (not_le.mp hreset)

/-- Time passes. -/
theorem Tallied.later (h : Tallied width limit window hits clock) (hnow : clock ≤ now) :
    Tallied width limit window hits now :=
  ⟨h.absent, fun hit hmem => (h.past hit hmem).trans hnow, fun w hw => (h.opened w hw).trans hnow, h.inside, h.count,
    h.current, h.before, h.bound, h.refused⟩

end FixedWindow
