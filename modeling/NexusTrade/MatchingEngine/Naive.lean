import Mathlib.Data.Finset.Sort
import NexusTrade.MatchingEngine.Conservation
import NexusTrade.MatchingEngine.Sweep

/-!
# The naive matcher

What the order book is for, without its data structures: one list of open orders in order of arrival,
scanned from end to end for every trade.

* **`pick`** finds the best-priced order of a side, among equals the earliest;
* **`sweep`** trades the incoming order with what `pick` finds until a stop condition holds;
* **`submit`**, **`cancel`** and **`depth`** are the calls of the order book in these terms;
* **`pick_eq_some`** and **`pick_eq_none`** characterise the scan by the orders of one price.

The calls covered are the submissions that are neither fill-or-kill nor stop orders, and the
cancellations (`BookOp.plain`).
-/

namespace NexusTrade.MatchingEngine

/-- The calls the naive matcher knows. -/
def BookOp.plain : BookOp → Bool
  | .submit _ o => o.kind = .limit ∨ o.kind = .postOnly ∨ o.kind = .ioc ∨ o.kind = .market
  | .cancel _ _ => true
  | .triggerStops _ _ => false

namespace Naive

/-- An open order. -/
structure OpenOrder where
  orderId : String
  userId : String
  side : Side
  price : Decimal
  remaining : Decimal
  deriving DecidableEq

/-- An open order of a side at a price. -/
def OpenOrder.sits (side : Side) (price : Decimal) (o : OpenOrder) : Bool :=
  o.side = side ∧ o.price = price

theorem OpenOrder.sits_iff {side : Side} {price : Decimal} {o : OpenOrder} :
    o.sits side price = true ↔ o.side = side ∧ o.price = price :=
  decide_eq_true_iff

/-- What a call returns. -/
inductive Reply
  | submitted (accepted : Bool) (trades : List Trade)
  | cancelled (done : Bool)
  deriving DecidableEq

/-- A resting price of a side is strictly better than another for those who trade against it. -/
def beats : Side → Decimal → Decimal → Bool
  | .buy, p, q => decide (q < p)
  | .sell, p, q => decide (p < q)

/-- The best-priced open order of a side, among equals the earliest arrived. -/
def pick (side : Side) : List OpenOrder → Option OpenOrder
  | [] => none
  | o :: os =>
      match pick side os with
      | none => if o.side = side then some o else none
      | some best =>
          if o.side = side ∧ beats side best.price o.price = false then some o else some best

/-- The limit of an incoming order; a market order has none. -/
def limitOf (o : Order) : Option Decimal := if o.kind = .market then none else o.price

/-- A price within the limit of an incoming order of a side. -/
def withinLimit (side : Side) (limit : Option Decimal) (price : Decimal) : Bool :=
  match limit, side with
  | none, _ => true
  | some limit, .buy => decide (price ≤ limit)
  | some limit, .sell => decide (limit ≤ price)

/-- The orders picked by an incoming order are beyond its limit. -/
def beyondLimit (o : Order) (opens : List OpenOrder) : Bool :=
  match pick (opposite o.side) opens with
  | none => true
  | some best => !withinLimit o.side (limitOf o) best.price

/-- The open orders after one of them has traded; it is deleted when it is exhausted. -/
def fillOpen (orderId : String) (quantity : Decimal) (opens : List OpenOrder) : List OpenOrder :=
  opens.filterMap fun o =>
    if o.orderId = orderId then
      if o.remaining - quantity = 0 then none else some { o with remaining := o.remaining - quantity }
    else some o

/-- What the sweep carries along. -/
structure Sweep where
  opens : List OpenOrder
  remaining : Decimal
  trades : List Trade

/-- Trade with the picked order: the smaller of the two quantities at the price of the picked order. -/
def Sweep.trade (o : Order) (s : Sweep) (best : OpenOrder) : Sweep :=
  let quantity := min s.remaining best.remaining
  { opens := fillOpen best.orderId quantity s.opens
    remaining := s.remaining - quantity
    trades := s.trades ++
      [⟨best.orderId, o.orderId, best.userId, o.userId, best.price, quantity⟩] }

/-- Trade until the incoming quantity is used up, no opposite order is left, the picked price is
beyond the limit, or the picked order has the same user; the flag says that it was the last. -/
def sweep (o : Order) : ℕ → Sweep → Bool × Sweep
  | 0, s => (false, s)
  | fuel + 1, s =>
      if s.remaining ≤ 0 then (false, s)
      else match pick (opposite o.side) s.opens with
        | none => (false, s)
        | some best =>
            if withinLimit o.side (limitOf o) best.price = false then (false, s)
            else if best.userId = o.userId then (true, s)
            else sweep o fuel (s.trade o best)

/-- Process an incoming order. -/
def submit (opens : List OpenOrder) (o : Order) : Reply × List OpenOrder :=
  if o.remainingQuantity ≤ 0 ∨ o.kind ≠ .market ∧ o.price = none then (.submitted false [], opens)
  else if o.kind = .postOnly ∧ beyondLimit o opens = false then (.submitted false [], opens)
  else
    let (selfTrade, s) := sweep o (opens.length + 1) ⟨opens, o.remainingQuantity, []⟩
    if selfTrade then (.submitted (!s.trades.isEmpty) s.trades, s.opens)
    else if s.remaining = 0 ∨ o.kind = .market ∨ o.kind = .ioc then
      (.submitted true s.trades, s.opens)
    else (.submitted true s.trades,
      s.opens ++ [⟨o.orderId, o.userId, o.side, o.price.getD 0, s.remaining⟩])

/-- Cancel an open order of a user. -/
def cancel (opens : List OpenOrder) (orderId userId : String) : Reply × List OpenOrder :=
  if opens.any fun o => o.orderId = orderId ∧ o.userId = userId then
    (.cancelled true, opens.filter fun o => o.orderId ≠ orderId)
  else (.cancelled false, opens)

/-- The prices of a side, increasing. -/
def prices (side : Side) (opens : List OpenOrder) : List Decimal :=
  ((opens.filter fun o => o.side = side).map OpenOrder.price).toFinset.sort

/-- The open quantity of a side at a price. -/
def quantityAt (side : Side) (opens : List OpenOrder) (price : Decimal) : Decimal :=
  ((opens.filter (OpenOrder.sits side price)).map OpenOrder.remaining).sum

/-- The best prices of both sides, with the open quantity at each. -/
def depth (opens : List OpenOrder) (levels : ℕ) :
    List (Decimal × Decimal) × List (Decimal × Decimal) :=
  (((prices .buy opens).reverse.take levels).map fun p => (p, quantityAt .buy opens p),
    ((prices .sell opens).take levels).map fun p => (p, quantityAt .sell opens p))

/-- Make one call; a call outside the naive matcher's reach changes nothing. -/
def exec (opens : List OpenOrder) : BookOp → Reply × List OpenOrder
  | .submit _ o => submit opens o
  | .cancel orderId userId => cancel opens orderId userId
  | .triggerStops _ _ => (.cancelled false, opens)

/-- Make a sequence of calls without open orders at the start. -/
def run (ops : List BookOp) : List Reply × List OpenOrder :=
  ops.foldl (fun s op => (s.1 ++ [(exec s.2 op).1], (exec s.2 op).2)) ([], [])

theorem run_snoc (ops : List BookOp) (op : BookOp) :
    run (ops ++ [op]) = ((run ops).1 ++ [(exec (run ops).2 op).1], (exec (run ops).2 op).2) := by
  rw [run, List.foldl_append]
  rfl

/-! ### The scan -/

theorem pick_mem {side : Side} {opens : List OpenOrder} {best : OpenOrder}
    (h : pick side opens = some best) : best ∈ opens ∧ best.side = side := by
  induction opens generalizing best with
  | nil => cases h
  | cons o os ih =>
      rw [pick] at h
      cases hp : pick side os with
      | none =>
          simp only [hp] at h
          split at h
          · cases h
            exact ⟨List.mem_cons_self, ‹_›⟩
          · cases h
      | some b =>
          simp only [hp] at h
          split at h
          · rename_i hcond
            cases h
            exact ⟨List.mem_cons_self, hcond.1⟩
          · cases h
            exact ⟨List.mem_cons_of_mem _ (ih hp).1, (ih hp).2⟩

/-- Nothing is picked from a list without orders of the side. -/
theorem pick_eq_none {side : Side} {opens : List OpenOrder} (h : ∀ o ∈ opens, o.side ≠ side) :
    pick side opens = none := by
  cases hp : pick side opens with
  | none => rfl
  | some best => exact absurd (pick_mem hp).2 (h best (pick_mem hp).1)

/-- Two prices neither of which is better are equal. -/
theorem beats_of_ne {side : Side} {p q : Decimal} (hne : p ≠ q) (h : beats side p q = false) :
    beats side q p = true := by
  cases side with
  | buy =>
      rw [beats, decide_eq_false_iff_not, not_lt] at h
      rw [beats, decide_eq_true_eq]
      exact lt_of_le_of_ne h hne
  | sell =>
      rw [beats, decide_eq_false_iff_not, not_lt] at h
      rw [beats, decide_eq_true_eq]
      exact lt_of_le_of_ne h (Ne.symm hne)

/-- **The scan finds the front order of the best price.** -/
theorem pick_eq_some {side : Side} {price : Decimal} {opens rest : List OpenOrder}
    {best : OpenOrder} (hfront : opens.filter (OpenOrder.sits side price) = best :: rest)
    (hbest : ∀ o ∈ opens, o.side = side → beats side o.price price = false) :
    pick side opens = some best := by
  induction opens generalizing rest with
  | nil => cases hfront
  | cons o os ih =>
      have htail : ∀ o ∈ os, o.side = side → beats side o.price price = false := fun o ho =>
        hbest o (List.mem_cons_of_mem _ ho)
      by_cases ho : o.sits side price = true
      · rw [List.filter_cons_of_pos ho] at hfront
        cases hfront
        obtain ⟨hside, hprice⟩ := OpenOrder.sits_iff.mp ho
        rw [pick]
        cases hp : pick side os with
        | none => simp only [hside, if_true]
        | some b =>
            obtain ⟨hb, hbside⟩ := pick_mem hp
            have hnot := htail b hb hbside
            simp only [hside, hprice, hnot, and_self, if_true]
      · rw [List.filter_cons_of_neg ho] at hfront
        rw [pick, ih hfront htail]
        have hsits : best.sits side price = true :=
          (List.mem_filter.mp (hfront ▸ List.mem_cons_self)).2
        obtain ⟨_, hprice⟩ := OpenOrder.sits_iff.mp hsits
        have hworse : ¬(o.side = side ∧ beats side best.price o.price = false) := by
          rintro ⟨hside, hnot⟩
          have hne : price ≠ o.price := fun e => ho (OpenOrder.sits_iff.mpr ⟨hside, e.symm⟩)
          rw [hprice] at hnot
          have hbeat := beats_of_ne hne hnot
          rw [hbest o List.mem_cons_self hside] at hbeat
          cases hbeat
        simp only [if_neg hworse]

/-! ### Filling an open order -/

/-- Filling an order keeps the side and price of every order. -/
theorem filter_fillOpen (side : Side) (price : Decimal) (orderId : String) (quantity : Decimal)
    (opens : List OpenOrder) :
    (fillOpen orderId quantity opens).filter (OpenOrder.sits side price)
      = fillOpen orderId quantity (opens.filter (OpenOrder.sits side price)) := by
  induction opens with
  | nil => rfl
  | cons o os ih =>
      by_cases hid : o.orderId = orderId
      · by_cases hzero : o.remaining - quantity = 0
        · have hnone : fillOpen orderId quantity (o :: os) = fillOpen orderId quantity os := by
            simp [fillOpen, hid, hzero]
          rw [hnone, ih]
          by_cases ho : o.sits side price = true
          · rw [List.filter_cons_of_pos ho]
            simp [fillOpen, hid, hzero]
          · rw [List.filter_cons_of_neg ho]
        · have hsome : fillOpen orderId quantity (o :: os)
              = { o with remaining := o.remaining - quantity } :: fillOpen orderId quantity os := by
            simp [fillOpen, hid, hzero]
          have hsits : ({ o with remaining := o.remaining - quantity } : OpenOrder).sits side price
              = o.sits side price := rfl
          rw [hsome]
          by_cases ho : o.sits side price = true
          · rw [List.filter_cons_of_pos (hsits.trans ho), List.filter_cons_of_pos ho, ih]
            simp [fillOpen, hid, hzero]
          · rw [List.filter_cons_of_neg (by rw [hsits]; exact ho), List.filter_cons_of_neg ho, ih]
      · have hkeep : ∀ os', fillOpen orderId quantity (o :: os')
            = o :: fillOpen orderId quantity os' := by
          intro os'
          simp [fillOpen, hid]
        rw [hkeep]
        by_cases ho : o.sits side price = true
        · rw [List.filter_cons_of_pos ho, List.filter_cons_of_pos ho, hkeep, ih]
        · rw [List.filter_cons_of_neg ho, List.filter_cons_of_neg ho, ih]

/-- Filling the front order. -/
theorem fillOpen_front (o : OpenOrder) (quantity : Decimal) (os : List OpenOrder) :
    fillOpen o.orderId quantity (o :: os)
      = if o.remaining - quantity = 0 then fillOpen o.orderId quantity os
        else { o with remaining := o.remaining - quantity } :: fillOpen o.orderId quantity os := by
  by_cases hzero : o.remaining - quantity = 0
  · rw [if_pos hzero, fillOpen, List.filterMap_cons_none (by rw [if_pos rfl, if_pos hzero])]
    rfl
  · rw [if_neg hzero, fillOpen, List.filterMap_cons_some (by rw [if_pos rfl, if_neg hzero])]
    rfl

/-- Filling an order that is not in the list changes nothing. -/
theorem fillOpen_of_not_mem {orderId : String} {opens : List OpenOrder} (quantity : Decimal)
    (h : ∀ o ∈ opens, o.orderId ≠ orderId) : fillOpen orderId quantity opens = opens := by
  induction opens with
  | nil => rfl
  | cons o os ih =>
      have hos := ih fun o ho => h o (List.mem_cons_of_mem _ ho)
      rw [fillOpen] at hos ⊢
      rw [List.filterMap_cons_some (by rw [if_neg (h o List.mem_cons_self)]), hos]

end Naive

end NexusTrade.MatchingEngine
