import Mathlib.Algebra.Order.BigOperators.Group.List
import NexusTrade.MatchingEngine.Refinement

/-!
# What is left of an order

How much of an order trades when it is submitted, and what stops it, by the book before it.

* **`OrderBook.refuses`**: the checks of `submit` that refuse an order;
* **`executed_quantity`**: what is traded is the quantity of the order or all that it reaches;
* **`OrderBook.stopsAtOwn`**: behind what an order reaches stands an order of the same user within the
  limit; **`stopsAtOwn_of_blocked`** and **`not_stopsAtOwn_of_exhausted`** say that self-trade prevention
  stops exactly such orders;
* **`Simulates.trade`** is one trade on the list of open orders.
-/

namespace NexusTrade.MatchingEngine

open Naive

namespace OrderBook

/-- The checks of `submit` that refuse an order. -/
def refuses (book : OrderBook) (o : Order) : Bool :=
  (book.status.contains o.orderId || book.orderIndex.contains o.orderId) ||
    decide (o.remainingQuantity ≤ 0) || (requiresPrice o.kind && o.price.isNone) ||
    (o.kind.isStop && o.stopPrice.isNone) || (decide (o.kind = .postOnly) && book.wouldCross o)

/-- All that an order reaches. -/
def reach (book : OrderBook) (o : Order) : Decimal :=
  Allot.total Order.remainingQuantity (book.reachable o)

/-- The first order that an incoming one does not trade with is within its limit, and so of the same
user. -/
def stopsAtOwn (book : OrderBook) (o : Order) : Bool :=
  match (book.opposingOrders o.side).dropWhile (tradesWith o) with
  | [] => false
  | resting :: _ => crosses o (resting.price.getD 0)

end OrderBook

theorem Refused.refuses {book : OrderBook} {o : Order} {reason : String} (h : Refused book o reason) :
    book.refuses o = true := by
  cases h with
  | duplicate hknown => rcases hknown with hk | hk <;> simp [OrderBook.refuses, hk]
  | quantity hq => simp [OrderBook.refuses, hq]
  | price hkind hp => simp [OrderBook.refuses, hkind, hp]
  | stopPrice hkind hs => simp [OrderBook.refuses, hkind, hs]
  | postOnly hkind hc => simp [OrderBook.refuses, hkind, hc]

/-- An order that passes the checks is not refused. -/
theorem Admissible.not_refuses {book : OrderBook} {o : Order} (h : Admissible book o)
    (hstop : o.kind.isStop = true → o.stopPrice.isSome)
    (hpost : o.kind = .postOnly → book.wouldCross o = false) : book.refuses o = false := by
  have hstatus := (SortedMap.contains_eq_false_iff _ _).mpr h.fresh
  have hindex := (SortedMap.contains_eq_false_iff _ _).mpr h.unqueued
  have hpriced : (requiresPrice o.kind && o.price.isNone) = false := by
    cases hreq : requiresPrice o.kind with
    | false => rfl
    | true =>
        obtain ⟨price, hp⟩ := Option.isSome_iff_exists.mp (h.priced hreq)
        rw [hp]
        rfl
  have hstops : (o.kind.isStop && o.stopPrice.isNone) = false := by
    cases hk : o.kind.isStop with
    | false => rfl
    | true =>
        obtain ⟨price, hp⟩ := Option.isSome_iff_exists.mp (hstop hk)
        rw [hp]
        rfl
  have hposts : (decide (o.kind = .postOnly) && book.wouldCross o) = false := by
    by_cases hk : o.kind = .postOnly
    · rw [hpost hk, Bool.and_false]
    · rw [decide_eq_false hk, Bool.false_and]
  rw [OrderBook.refuses, hstatus, hindex, hpriced, hstops, hposts,
    decide_eq_false (not_le.mpr h.positive)]
  rfl

/-- An order that the checks refuse leaves the book as it is. -/
theorem Submitted.of_refuses {uuid : UuidSource} {book book' : OrderBook} {o : Order}
    {report : ExecutionReport} (hx : Submitted uuid book o report book')
    (h : book.refuses o = true) : report.accepted = false ∧ book' = book := by
  cases hx with
  | refused _ _ => exact ⟨rfl, rfl⟩
  | held ha hkind hstop =>
      rw [ha.not_refuses (fun _ => hstop) fun hk => by rw [hk] at hkind; cases hkind] at h
      cases h
  | killed ha hkind _ =>
      rw [ha.not_refuses (fun hk => by rw [hkind] at hk; cases hk)
        fun hk => by rw [hkind] at hk; cases hk] at h
      cases h
  | executed ha hkind hpost _ _ _ _ =>
      rw [ha.not_refuses (fun hk => by rw [hkind] at hk; cases hk) hpost] at h
      cases h

/-! ### What is traded -/

/-- What fills that are the trades of a sweep come to. -/
theorem swept_quantity {book : OrderBook} {o : Order} {fills : List Fill} (hinv : Inv book)
    (ha : Admissible book o) (h : fills.map Fill.toTrade = book.sweepTrades o) :
    (fills.map Fill.quantity).sum = min o.remainingQuantity (book.reach o) := by
  have hmap : fills.map Fill.quantity
      = (Allot.allot Order.remainingQuantity o.remainingQuantity (book.reachable o)).map Prod.snd := by
    have h := congrArg (List.map Trade.quantity) h
    rw [OrderBook.sweepTrades, List.map_map, List.map_map] at h
    exact h
  rw [hmap]
  exact Allot.sum_allot ha.positive.le
    fun r hr => (hinv.opposing (OrderBook.reachable_subset hr)).2.1.le

/-- **What is traded** is the quantity of the order, or all that it reaches. -/
theorem executed_quantity {uuid : UuidSource} {book book' : OrderBook} {o : Order}
    {report : ExecutionReport} (hx : Executed uuid book o report book') (hinv : Inv book)
    (ha : Admissible book o) :
    (report.fills.map Fill.quantity).sum = min o.remainingQuantity (book.reach o) :=
  swept_quantity hinv ha (executed_trades hx hinv ha)

/-- An order that reaches nothing trades nothing. -/
theorem executed_nothing {uuid : UuidSource} {book book' : OrderBook} {o : Order}
    {report : ExecutionReport} (hx : Executed uuid book o report book') (hinv : Inv book)
    (ha : Admissible book o) (hreach : book.reach o = 0) : report.fills = [] := by
  have hsum := executed_quantity hx hinv ha
  rw [hreach, min_eq_right ha.positive.le] at hsum
  have hpos : ∀ q ∈ report.fills.map Fill.quantity, 0 < q := by
    intro q hq
    obtain ⟨f, hf, rfl⟩ := List.mem_map.mp hq
    have hmem : f.toTrade ∈ book.sweepTrades o := by
      rw [← executed_trades hx hinv ha]
      exact List.mem_map_of_mem hf
    obtain ⟨p, hp, htrade⟩ := List.mem_map.mp hmem
    have hq := Allot.pos_of_mem_allot
      (fun r hr => (hinv.opposing (OrderBook.reachable_subset hr)).2.1) hp
    rw [show f.quantity = f.toTrade.quantity from rfl, ← htrade]
    exact hq
  cases hfills : report.fills with
  | nil => rfl
  | cons f fs =>
      have hne : report.fills.map Fill.quantity ≠ [] := by
        rw [hfills]
        exact List.cons_ne_nil _ _
      exact absurd hsum (List.sum_pos _ hpos hne).ne'

/-! ### What stops an order -/

/-- **Trades leave what stops an order**: the orders from the first that it does not trade with on. -/
theorem trades_beyond {uuid : UuidSource} {s t : MatchState} (hs : LoopInv s) (h : Trades uuid s t) :
    (t.book.opposingOrders s.incoming.side).dropWhile (tradesWith s.incoming)
      = (s.book.opposingOrders s.incoming.side).dropWhile (tradesWith s.incoming) := by
  refine (trades_preserve (P := fun t => LoopInv t ∧
    (∃ r, t.incoming = { s.incoming with remainingQuantity := r }) ∧
    (t.book.opposingOrders s.incoming.side).dropWhile (tradesWith s.incoming)
      = (s.book.opposingOrders s.incoming.side).dropWhile (tradesWith s.incoming)) ?_ h
    ⟨hs, ⟨_, rfl⟩, rfl⟩).2.2
  rintro t u ⟨ht, ⟨r, hin⟩, hbeyond⟩ htu
  refine ⟨ht.step htu, ?_⟩
  obtain ⟨price, level, resting, queue, hc, rfl⟩ := htu
  refine ⟨⟨_, by rw [MatchState.trade_incoming, Order.reduce, hin]⟩, ?_⟩
  obtain ⟨behind, hbefore, hafter⟩ := hc.opposingOrders uuid
  obtain ⟨_, hprice, _⟩ := hc.restingInv ht.book
  have hside : t.incoming.side = s.incoming.side := by rw [hin]
  rw [hside] at hbefore hafter
  have hsame : tradesWith t.incoming = tradesWith s.incoming := by
    rw [hin]
    rfl
  have htrades : tradesWith s.incoming resting = true := by
    rw [← hsame, tradesWith, hprice, Option.getD_some, hc.crosses, decide_eq_true hc.other]
    rfl
  rw [← hbeyond, hbefore, hafter, List.dropWhile_cons_of_pos htrades]
  by_cases hzero : (resting.reduce (tradeQuantity t.incoming resting)).remainingQuantity = 0
  · have horders : (t.tradedLevel level resting queue).orders = queue := by
      simp only [MatchState.tradedLevel, PriceLevel.tradeFront, if_pos hzero]
    rw [horders]
  · have horders : (t.tradedLevel level resting queue).orders
        = resting.reduce (tradeQuantity t.incoming resting) :: queue := by
      simp only [MatchState.tradedLevel, PriceLevel.tradeFront, if_neg hzero]
    rw [horders, List.cons_append, List.dropWhile_cons_of_pos]
    exact htrades

/-- **Self-trade prevention stops an order** only where one of the same user stands in its way. -/
theorem stopsAtOwn_of_blocked {uuid : UuidSource} {book : OrderBook} {o : Order} {t : MatchState}
    (hinv : Inv book) (ha : Admissible book o) (h : Trades uuid (book.startMatch o) t)
    {price : Decimal} {level : PriceLevel} {resting : Order} {queue : List Order}
    (hb : Blocked t price level resting queue) : book.stopsAtOwn o = true := by
  have hs := LoopInv.start hinv ha
  have hbeyond : (t.book.opposingOrders o.side).dropWhile (tradesWith o)
      = (book.opposingOrders o.side).dropWhile (tradesWith o) := trades_beyond hs h
  have hin := trades_incoming h
  have hside := trades_side h
  have huser : t.incoming.userId = o.userId := by rw [hin]; rfl
  have hcross : crosses o price = true := by
    have hc := hb.crosses
    rw [hin] at hc
    exact hc
  have hprice : resting.price = some price :=
    (((hs.trades h).book.level _ _ _ hb.atLevel).own resting (by
      rw [hb.front]
      exact List.mem_cons_self)).2.1
  obtain ⟨behind, hfront⟩ := opposingOrders_front hb.best hb.atLevel hb.front
  rw [hside] at hfront
  have hnot : ¬tradesWith o resting = true := by
    rw [tradesWith, Bool.and_eq_true, decide_eq_true_eq]
    exact fun hc => hc.2 (hb.own.trans huser)
  rw [hfront, List.dropWhile_cons_of_neg hnot] at hbeyond
  rw [OrderBook.stopsAtOwn, ← hbeyond]
  show crosses o (resting.price.getD 0) = true
  rw [hprice]
  exact hcross

/-- What is left of an order that has met all it can trade with was not stopped by one of the same
user. -/
theorem not_stopsAtOwn_of_exhausted {uuid : UuidSource} {book : OrderBook} {o : Order} {t : MatchState}
    (hinv : Inv book) (ha : Admissible book o) (h : Trades uuid (book.startMatch o) t)
    (he : Exhausted t) (hleft : t.incoming.remainingQuantity ≠ 0) : book.stopsAtOwn o = false := by
  have hs := LoopInv.start hinv ha
  have ht := hs.trades h
  have hin := trades_incoming h
  have hside := trades_side h
  have hbeyond : (t.book.opposingOrders o.side).dropWhile (tradesWith o)
      = (book.opposingOrders o.side).dropWhile (tradesWith o) := trades_beyond hs h
  have hcross : ∀ p l, t.book.level (opposite t.incoming.side) p = some l →
      crosses t.incoming p = false :=
    he.resolve_left fun hle => hleft (le_antisymm hle ht.nonneg)
  rw [OrderBook.stopsAtOwn, ← hbeyond]
  cases hrest : (t.book.opposingOrders o.side).dropWhile (tradesWith o) with
  | nil => rfl
  | cons resting rest =>
      have hmem : resting ∈ t.book.opposingOrders o.side :=
        (List.dropWhile_sublist _).subset (hrest ▸ List.mem_cons_self)
      obtain ⟨_, _, price, l, hprice, hl, _⟩ := ht.book.opposing hmem
      have hnot := hcross price l (by rw [hside]; exact hl)
      rw [hin] at hnot
      show crosses o (resting.price.getD 0) = false
      rw [hprice]
      exact hnot

/-! ### One trade on the open orders -/

/-- **A trade fills the maker** among the open orders. -/
theorem Simulates.trade {s : MatchState} {price : Decimal} {level : PriceLevel} {resting : Order}
    {queue : List Order} {opens : List OpenOrder} (h : Simulates s.book opens) (hs : LoopInv s)
    (hc : CanTrade s price level resting queue) (uuid : UuidSource) :
    Simulates (s.trade uuid price level resting queue).book
      (fillOpen resting.orderId (tradeQuantity s.incoming resting) opens) := by
  have hsim : SweepSim s.incoming s ⟨opens, s.incoming.remainingQuantity, s.fills.map Fill.toTrade⟩ :=
    ⟨h, rfl, rfl, _, _, rfl⟩
  exact (hsim.trade hs hc uuid).book

end NexusTrade.MatchingEngine
