import Mathlib.Data.List.TakeWhile
import NexusTrade.Lib.Allot
import NexusTrade.MatchingEngine.Submit

/-!
# What a submission trades

The trades of an order are determined by the book before it: its quantity is allotted along the orders
it can reach.

* **`OrderBook.reachable`** lists these: the opposing orders in priority, up to the first that is beyond
  the limit or belongs to the same user;
* **`OrderBook.sweepTrades`** are the trades; **`CanTrade.allot`** says that one trade makes the first of them, and
  **`executed_trades`** that the loop makes them all;
* **`OrderBook.enters`** decides which orders get to the loop, and **`submitted_trades`** says what any
  submission trades.
-/

namespace NexusTrade.MatchingEngine

/-- A fill without its random identifier. -/
structure Trade where
  makerOrderId : String
  takerOrderId : String
  makerUserId : String
  takerUserId : String
  price : Decimal
  quantity : Decimal
  deriving DecidableEq

def Fill.toTrade (f : Fill) : Trade :=
  ⟨f.makerOrderId, f.takerOrderId, f.makerUserId, f.takerUserId, f.price, f.quantity⟩

/-- An order can trade with a resting one: within the limit, and of another user. -/
def tradesWith (o resting : Order) : Bool :=
  crosses o (resting.price.getD 0) && decide (resting.userId ≠ o.userId)

/-- The opposing orders an order reaches before it is stopped. -/
def OrderBook.reachable (book : OrderBook) (o : Order) : List Order :=
  (book.opposingOrders o.side).takeWhile (tradesWith o)

/-- The trade of an order with a resting one. -/
def tradeOf (o : Order) (p : Order × Decimal) : Trade :=
  ⟨p.1.orderId, o.orderId, p.1.userId, o.userId, p.1.price.getD 0, p.2⟩

/-- The trades of an order that gets to the matching loop. -/
def OrderBook.sweepTrades (book : OrderBook) (o : Order) : List Trade :=
  (Allot.allot Order.remainingQuantity o.remainingQuantity (book.reachable o)).map (tradeOf o)

/-! ### The opposing orders -/

/-- The opposing orders are the queued orders of the opposite side. -/
theorem mem_opposingOrders {book : OrderBook} {side : Side} {o : Order} :
    o ∈ book.opposingOrders side ↔
      ∃ price l, book.level (opposite side) price = some l ∧ o ∈ l.orders := by
  have hmem : ∀ l, l ∈ book.opposingLevels side ↔ ∃ price, book.level (opposite side) price = some l := by
    intro l
    cases side with
    | buy => exact SortedMap.mem_values_iff _ _
    | sell => exact List.mem_reverse.trans (SortedMap.mem_values_iff _ _)
  rw [OrderBook.opposingOrders, List.mem_flatMap]
  constructor
  · rintro ⟨l, hl, ho⟩
    obtain ⟨price, hl⟩ := (hmem l).mp hl
    exact ⟨price, l, hl, ho⟩
  · rintro ⟨price, l, hl, ho⟩
    exact ⟨l, (hmem l).mpr ⟨price, hl⟩, ho⟩

/-- The front order of the best level leads the opposing orders. -/
theorem opposingOrders_front {book : OrderBook} {side : Side} {price : Decimal} {level : PriceLevel}
    {resting : Order} {queue : List Order} (hbest : book.bestPrice side = some price)
    (hl : book.level (opposite side) price = some level) (hfront : level.orders = resting :: queue) :
    ∃ behind, book.opposingOrders side = resting :: behind := by
  cases side with
  | buy =>
      obtain ⟨⟨p, l⟩, hf, hp⟩ := Option.map_eq_some_iff.mp hbest
      cases hp
      have heq : l = level := Option.some.inj ((SortedMap.find_of_first hf).symm.trans hl)
      obtain ⟨es, hes⟩ := SortedMap.entries_of_first hf
      refine ⟨queue ++ (es.map Prod.snd).flatMap fun level => level.orders, ?_⟩
      simp only [OrderBook.opposingOrders, OrderBook.opposingLevels, SortedMap.values, hes,
        List.map_cons, List.flatMap_cons, heq, hfront, List.cons_append]
  | sell =>
      obtain ⟨⟨p, l⟩, hf, hp⟩ := Option.map_eq_some_iff.mp hbest
      cases hp
      have heq : l = level := Option.some.inj ((SortedMap.find_of_last hf).symm.trans hl)
      obtain ⟨es, hes⟩ := SortedMap.entries_of_last hf
      refine ⟨queue ++ (es.map Prod.snd).reverse.flatMap fun level => level.orders, ?_⟩
      simp only [OrderBook.opposingOrders, OrderBook.opposingLevels, SortedMap.values, hes,
        List.map_append, List.map_cons, List.map_nil, List.reverse_append, List.reverse_cons,
        List.reverse_nil, List.nil_append, List.cons_append, List.flatMap_cons, heq, hfront]

/-- A queued order of the opposite side has its price and something left. -/
theorem Inv.opposing {book : OrderBook} (h : Inv book) {side : Side} {o : Order}
    (ho : o ∈ book.opposingOrders side) :
    o.side = opposite side ∧ 0 < o.remainingQuantity ∧
      ∃ price l, o.price = some price ∧ book.level (opposite side) price = some l ∧ o ∈ l.orders := by
  obtain ⟨price, l, hl, ho⟩ := mem_opposingOrders.mp ho
  obtain ⟨hside, hprice, hpos⟩ := (h.level _ _ _ hl).own o ho
  exact ⟨hside, hpos, price, l, hprice, hl, ho⟩

theorem OrderBook.reachable_subset {book : OrderBook} {o r : Order} (h : r ∈ book.reachable o) :
    r ∈ book.opposingOrders o.side :=
  (List.takeWhile_prefix _).subset h

/-- A reachable order is crossed and belongs to another user. -/
theorem OrderBook.reachable_trades {book : OrderBook} {o r : Order} (h : r ∈ book.reachable o) :
    crosses o (r.price.getD 0) = true ∧ r.userId ≠ o.userId := by
  have htrades := List.mem_takeWhile_imp h
  rw [tradesWith, Bool.and_eq_true, decide_eq_true_eq] at htrades
  exact htrades

/-! ### The trades of the loop -/

section Trade

variable {s : MatchState} {price : Decimal} {level : PriceLevel} {resting : Order}
  {queue : List Order}

/-- What the incoming order takes next, and what is left for the loop after that. -/
theorem CanTrade.allot (h : CanTrade s price level resting queue) (hs : Inv s.book) (uuid : UuidSource) :
    Allot.allot Order.remainingQuantity s.incoming.remainingQuantity (s.book.reachable s.incoming)
      = (resting, tradeQuantity s.incoming resting)
        :: Allot.allot Order.remainingQuantity
            (s.trade uuid price level resting queue).incoming.remainingQuantity
            ((s.trade uuid price level resting queue).book.reachable
              (s.trade uuid price level resting queue).incoming) := by
  obtain ⟨behind, hbefore, hafter⟩ := h.opposingOrders uuid
  obtain ⟨_, hprice, _⟩ := h.restingInv hs
  have htrades : tradesWith s.incoming resting = true := by
    rw [tradesWith, hprice, Option.getD_some, h.crosses, decide_eq_true h.other]
    rfl
  have hreach : s.book.reachable s.incoming
      = resting :: (queue ++ behind).takeWhile (tradesWith s.incoming) := by
    rw [OrderBook.reachable, hbefore, List.takeWhile_cons_of_pos htrades]
  have htail : Allot.allot Order.remainingQuantity
      (s.trade uuid price level resting queue).incoming.remainingQuantity
      ((s.trade uuid price level resting queue).book.reachable
        (s.trade uuid price level resting queue).incoming)
        = Allot.allot Order.remainingQuantity
            (s.incoming.remainingQuantity - tradeQuantity s.incoming resting)
            ((queue ++ behind).takeWhile (tradesWith s.incoming)) := by
    show Allot.allot Order.remainingQuantity
      (s.incoming.remainingQuantity - tradeQuantity s.incoming resting)
      (((s.trade uuid price level resting queue).book.opposingOrders s.incoming.side).takeWhile
        (tradesWith s.incoming)) = _
    rw [hafter]
    by_cases hzero : (resting.reduce (tradeQuantity s.incoming resting)).remainingQuantity = 0
    · have horders : (s.tradedLevel level resting queue).orders = queue := by
        simp only [MatchState.tradedLevel, PriceLevel.tradeFront, if_pos hzero]
      rw [horders]
    · have hdone : s.incoming.remainingQuantity - tradeQuantity s.incoming resting ≤ 0 := by
        have hne : resting.remainingQuantity - tradeQuantity s.incoming resting ≠ 0 := hzero
        rcases min_choice s.incoming.remainingQuantity resting.remainingQuantity with hmin | hmin
        · rw [tradeQuantity, hmin, sub_self]
        · rw [tradeQuantity, hmin, sub_self] at hne
          exact absurd rfl hne
      rw [Allot.allot_of_nonpos hdone, Allot.allot_of_nonpos hdone]
  rw [hreach, Allot.allot_cons h.positive, htail]
  rfl

/-- What the incoming order trades next, and what is left for the loop after that. -/
theorem CanTrade.sweepTrades (h : CanTrade s price level resting queue) (hs : Inv s.book)
    (uuid : UuidSource) :
    s.book.sweepTrades s.incoming
      = (s.fill uuid price resting).toTrade
        :: (s.trade uuid price level resting queue).book.sweepTrades
            (s.trade uuid price level resting queue).incoming := by
  obtain ⟨_, hprice, _⟩ := h.restingInv hs
  have hhead : tradeOf s.incoming (resting, tradeQuantity s.incoming resting)
      = (s.fill uuid price resting).toTrade := by
    rw [tradeOf, hprice]
    rfl
  rw [OrderBook.sweepTrades, h.allot hs uuid, List.map_cons, hhead]
  rfl

end Trade

/-- **The loop makes the trades of the sweep.** -/
theorem trades_sweep {uuid : UuidSource} {s t : MatchState} (hs : LoopInv s)
    (h : Trades uuid s t) :
    s.fills.map Fill.toTrade ++ s.book.sweepTrades s.incoming
      = t.fills.map Fill.toTrade ++ t.book.sweepTrades t.incoming := by
  refine (trades_preserve (P := fun t => LoopInv t ∧
    s.fills.map Fill.toTrade ++ s.book.sweepTrades s.incoming
      = t.fills.map Fill.toTrade ++ t.book.sweepTrades t.incoming) ?_ h ⟨hs, rfl⟩).2
  intro t u ht htu
  refine ⟨ht.1.step htu, ?_⟩
  obtain ⟨price, level, resting, queue, hc, rfl⟩ := htu
  rw [ht.2, hc.sweepTrades ht.1.book uuid, MatchState.trade_fills, List.map_append, List.append_assoc]
  rfl

/-- An order that crosses no level reaches nothing. -/
theorem reachable_beyond {book : OrderBook} (hinv : Inv book) {o : Order}
    (hbeyond : ∀ p l, book.level (opposite o.side) p = some l → crosses o p = false) : book.reachable o = [] := by
  refine List.eq_nil_iff_forall_not_mem.mpr fun r hr => ?_
  obtain ⟨_, _, price, l, hprice, hl, _⟩ := hinv.opposing (OrderBook.reachable_subset hr)
  have hcross := (OrderBook.reachable_trades hr).1
  rw [hprice] at hcross
  rw [show (some price).getD 0 = price from rfl, hbeyond price l hl] at hcross
  cases hcross

/-- Nothing is left to trade for an exhausted order. -/
theorem sweepTrades_exhausted {t : MatchState} (hinv : Inv t.book) (h : Exhausted t) :
    t.book.sweepTrades t.incoming = [] := by
  rcases h with hdone | hbeyond
  · rw [OrderBook.sweepTrades, Allot.allot_of_nonpos hdone]
    rfl
  · rw [OrderBook.sweepTrades, reachable_beyond hinv hbeyond]
    rfl

/-- Nothing is left to trade for a blocked order. -/
theorem reachable_blocked {t : MatchState} {price : Decimal} {level : PriceLevel} {resting : Order}
    {queue : List Order} (h : Blocked t price level resting queue) :
    t.book.reachable t.incoming = [] := by
  obtain ⟨behind, hfront⟩ := opposingOrders_front h.best h.atLevel h.front
  rw [OrderBook.reachable, hfront, List.takeWhile_cons_of_neg]
  rw [tradesWith, Bool.and_eq_true, decide_eq_true_eq]
  exact fun hc => hc.2 h.own

theorem sweepTrades_blocked {t : MatchState} {price : Decimal} {level : PriceLevel} {resting : Order}
    {queue : List Order} (h : Blocked t price level resting queue) :
    t.book.sweepTrades t.incoming = [] := by
  rw [OrderBook.sweepTrades, reachable_blocked h]
  rfl

/-- **What execution trades** is determined by the book before it. -/
theorem executed_trades {uuid : UuidSource} {book book' : OrderBook} {o : Order}
    {report : ExecutionReport} (hx : Executed uuid book o report book') (hinv : Inv book)
    (ha : Admissible book o) : report.fills.map Fill.toTrade = book.sweepTrades o := by
  have hstart := LoopInv.start hinv ha
  have hsweep : (book.startMatch o).book.sweepTrades (book.startMatch o).incoming
      = book.sweepTrades o := rfl
  cases hx with
  | blocked t trades inv blocked =>
      obtain ⟨price, level, resting, queue, hb⟩ := blocked
      have h := trades_sweep hstart trades
      rw [hsweep, sweepTrades_blocked hb, List.append_nil] at h
      exact h.symm
  | finished t trades inv exhausted st settled hsettled =>
      have h := trades_sweep hstart trades
      rw [hsweep, sweepTrades_exhausted inv.book exhausted, List.append_nil] at h
      exact h.symm

/-- The quantities traded and the remaining quantity add up. -/
theorem trades_quantity {uuid : UuidSource} {s t : MatchState} (h : Trades uuid s t) :
    (t.fills.map Fill.quantity).sum + t.incoming.remainingQuantity
      = (s.fills.map Fill.quantity).sum + s.incoming.remainingQuantity := by
  refine trades_preserve (P := fun t => (t.fills.map Fill.quantity).sum + t.incoming.remainingQuantity
    = (s.fills.map Fill.quantity).sum + s.incoming.remainingQuantity) ?_ h rfl
  intro t u ht htu
  obtain ⟨price, level, resting, queue, _, rfl⟩ := htu
  rw [← ht, MatchState.trade_fills, List.map_append, List.sum_append]
  show _ + (tradeQuantity t.incoming resting + 0)
    + (t.incoming.remainingQuantity - tradeQuantity t.incoming resting) = _
  ring

/-! ### What a submission trades -/

/-- The checks of `submit` before the loop: the orders that get to it. -/
def OrderBook.enters (book : OrderBook) (o : Order) : Bool :=
  !(book.status.contains o.orderId || book.orderIndex.contains o.orderId) &&
    decide (0 < o.remainingQuantity) && !(requiresPrice o.kind && o.price.isNone) &&
    !o.kind.isStop && !(o.kind = .postOnly && book.wouldCross o) &&
    !(o.kind = .fok && decide (book.availableCrossingQuantity o < o.remainingQuantity))

/-- What a submission trades, by the book before it. -/
def OrderBook.expectedTrades (book : OrderBook) (o : Order) : List Trade :=
  if book.enters o then book.sweepTrades o else []

/-- An order that gets to the loop is admissible and not a stop order. -/
theorem OrderBook.enters_iff {book : OrderBook} {o : Order} :
    book.enters o = true ↔ Admissible book o ∧ o.kind.isStop = false ∧
      (o.kind = .postOnly → book.wouldCross o = false) ∧
      (o.kind = .fok → o.remainingQuantity ≤ book.availableCrossingQuantity o) := by
  simp only [OrderBook.enters, Bool.and_eq_true, Bool.not_eq_true', Bool.and_eq_false_iff,
    Bool.or_eq_false_iff, SortedMap.contains_eq_false_iff, decide_eq_true_eq, decide_eq_false_iff_not,
    not_lt]
  constructor
  · rintro ⟨⟨⟨⟨⟨⟨hstatus, hindex⟩, hpos⟩, hprice⟩, hstop⟩, hpost⟩, hfok⟩
    refine ⟨⟨hstatus, hindex, hpos, fun hreq => ?_⟩, hstop, fun hk => ?_, fun hk => ?_⟩
    · rcases hprice with hno | hsome
      · rw [hreq] at hno
        cases hno
      · exact Option.isSome_iff_ne_none.mpr fun hnone => by rw [hnone] at hsome; cases hsome
    · exact hpost.resolve_left fun hne => hne hk
    · exact hfok.resolve_left fun hne => hne hk
  · rintro ⟨⟨hstatus, hindex, hpos, hprice⟩, hstop, hpost, hfok⟩
    refine ⟨⟨⟨⟨⟨⟨hstatus, hindex⟩, hpos⟩, ?_⟩, hstop⟩, ?_⟩, ?_⟩
    · cases hreq : requiresPrice o.kind with
      | false => exact Or.inl rfl
      | true =>
          obtain ⟨price, hp⟩ := Option.isSome_iff_exists.mp (hprice hreq)
          exact Or.inr (by rw [hp]; rfl)
    · by_cases hk : o.kind = .postOnly
      · exact Or.inr (hpost hk)
      · exact Or.inl hk
    · by_cases hk : o.kind = .fok
      · exact Or.inr (hfok hk)
      · exact Or.inl hk

/-- **An order that gets to the loop** is neither refused nor held nor killed. -/
theorem Submitted.entered {uuid : UuidSource} {book book' : OrderBook} {o : Order}
    {report : ExecutionReport} (hx : Submitted uuid book o report book') (henters : book.enters o = true) :
    Executed uuid book o report book' := by
  obtain ⟨ha, hstop, hpost, hfok⟩ := OrderBook.enters_iff.mp henters
  cases hx with
  | executed _ _ _ _ _ _ result => exact result
  | refused reason why =>
      cases why with
      | duplicate hknown =>
          rcases hknown with hknown | hknown
          · obtain ⟨e, he⟩ := (SortedMap.contains_iff _ _).mp hknown
            rw [ha.fresh] at he
            cases he
          · obtain ⟨e, he⟩ := (SortedMap.contains_iff _ _).mp hknown
            rw [ha.unqueued] at he
            cases he
      | quantity hquantity => exact absurd ha.positive (not_lt.mpr hquantity)
      | price hkind hprice =>
          have hsome := ha.priced hkind
          rw [hprice] at hsome
          cases hsome
      | stopPrice hkind _ =>
          rw [hstop] at hkind
          cases hkind
      | postOnly hkind hcross =>
          rw [hpost hkind] at hcross
          cases hcross
  | held _ hkind _ =>
      rw [hstop] at hkind
      cases hkind
  | killed _ hkind hshort => exact absurd (hfok hkind) (not_le.mpr hshort)

/-- **What a submission trades.** -/
theorem submitted_trades {uuid : UuidSource} {book book' : OrderBook} {o : Order}
    {report : ExecutionReport} (hx : Submitted uuid book o report book') (hinv : Inv book) :
    report.fills.map Fill.toTrade = book.expectedTrades o := by
  rw [OrderBook.expectedTrades]
  by_cases henters : book.enters o = true
  · rw [if_pos henters]
    exact executed_trades (hx.entered henters) hinv (OrderBook.enters_iff.mp henters).1
  · rw [if_neg henters]
    cases hx with
    | refused _ _ => rfl
    | held _ _ _ => rfl
    | killed _ _ _ => rfl
    | executed ha hkind hpost hfok _ _ _ => exact absurd (OrderBook.enters_iff.mpr ⟨ha, hkind, hpost, hfok⟩) henters

end NexusTrade.MatchingEngine
