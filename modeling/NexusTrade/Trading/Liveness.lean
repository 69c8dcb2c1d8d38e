import NexusTrade.Lib.Keyed
import NexusTrade.MatchingEngine.Origins
import NexusTrade.MatchingEngine.Recovery
import NexusTrade.MatchingEngine.Remainder
import NexusTrade.Trading.Orders

/-!
# The live orders of the service and of the engine

`TradingService.orders` are the orders that the service takes to be live; the engine has its own.

* **`opensOf`**: the orders of the service, as the list of open orders of one symbol;
* **`Mirrors.trades`**: while the matching loop trades, the updates of the service keep that list the one
  that the book simulates;
* **`Synced`** is the invariant of both sides, **`Agreement`** what it says about live orders;
* **`Keeps`** is the condition on a call under which the two stay together, and **`run_agrees`** proves it
  of every run.
-/

namespace NexusTrade.Trading

open MatchingEngine (Side OrderKind Decimal Fill ExecutionReport OrderBook MatchState Core CallFiles
  UuidSource DecimalCodec Inv LoopInv Simulates Trades CanTrade Absent orderIds)
open MatchingEngine.Naive (OpenOrder fillOpen)

/-! ### The open orders of the service -/

/-- An order of the service as an open order, at the price that the engine has read. -/
def StoredOrder.toOpen (parse : DecimalParser) (order : StoredOrder) : OpenOrder :=
  ⟨order.id, order.userId, order.side, (order.price.bind parse).getD 0,
    order.quantity - order.filledQuantity⟩

/-- The orders of one symbol as open orders. -/
def opensOf (parse : DecimalParser) (symbol : String) (orders : List StoredOrder) : List OpenOrder :=
  orders.filterMap fun order => if order.symbol = symbol then some (order.toOpen parse) else none

variable {parse : DecimalParser}

theorem mem_opensOf {symbol : String} {orders : List StoredOrder} {x : OpenOrder} :
    x ∈ opensOf parse symbol orders ↔ ∃ o ∈ orders, o.symbol = symbol ∧ o.toOpen parse = x := by
  rw [opensOf, List.mem_filterMap]
  constructor
  · rintro ⟨o, ho, hx⟩
    split at hx
    · rename_i hs
      exact ⟨o, ho, hs, Option.some.inj hx⟩
    · cases hx
  · rintro ⟨o, ho, hs, rfl⟩
    exact ⟨o, ho, if_pos hs⟩

theorem opensOf_append (symbol : String) (orders orders' : List StoredOrder) :
    opensOf parse symbol (orders ++ orders')
      = opensOf parse symbol orders ++ opensOf parse symbol orders' :=
  List.filterMap_append

/-- The open orders without one of the orders. -/
theorem opensOf_remove (symbol id : String) (orders : List StoredOrder) :
    opensOf parse symbol (Keyed.alter StoredOrder.id id (fun _ => none) orders)
      = (opensOf parse symbol orders).filter fun x => x.orderId ≠ id := by
  rw [opensOf, opensOf, Keyed.filterMap_alter, List.filter_filterMap]
  refine List.filterMap_congr fun o _ => ?_
  by_cases hid : o.id = id
  · rw [if_pos hid]
    split
    · rw [Option.filter_some, if_neg]
      · rfl
      · exact fun hne => absurd hid (of_decide_eq_true hne)
    · rfl
  · rw [if_neg hid]
    split
    · rw [Option.filter_some, if_pos]
      exact decide_eq_true hid
    · rfl

/-- Orders with distinct identifiers are known by them. -/
theorem eq_of_id {orders : List StoredOrder} (hids : (orders.map StoredOrder.id).Nodup)
    {o o' : StoredOrder} (ho : o ∈ orders) (ho' : o' ∈ orders) (hid : o.id = o'.id) : o = o' :=
  List.inj_on_of_nodup_map hids ho ho' hid

/-! ### What the steps of the service change -/

namespace TradingService

@[simp] theorem orders_lockBalance (service : TradingService) (order : StoredOrder) (q : Decimal) :
    (service.lockBalance order q).orders = service.orders := rfl

@[simp] theorem closed_lockBalance (service : TradingService) (order : StoredOrder) (q : Decimal) :
    (service.lockBalance order q).closed = service.closed := rfl

@[simp] theorem orders_unlockBalance (service : TradingService) (order : StoredOrder) (q : Decimal) :
    (service.unlockBalance order q).orders = service.orders := by
  rw [unlockBalance]
  split <;> rfl

@[simp] theorem closed_unlockBalance (service : TradingService) (order : StoredOrder) (q : Decimal) :
    (service.unlockBalance order q).closed = service.closed := by
  rw [unlockBalance]
  split <;> rfl

@[simp] theorem orders_settleTrade (service : TradingService) (incoming : StoredOrder) (trade : Trade) :
    (service.settleTrade incoming trade).orders = service.orders := rfl

@[simp] theorem closed_settleTrade (service : TradingService) (incoming : StoredOrder) (trade : Trade) :
    (service.settleTrade incoming trade).closed = service.closed := rfl

end TradingService

/-- **What the handling of fills and cancellations does** to the orders of the service: some leave
`orders`, with nothing locked. -/
structure Evolves (before after : TradingService) : Prop where
  ids : (after.orders.map StoredOrder.id).Sublist (before.orders.map StoredOrder.id)
  closed : ∀ o ∈ after.closed, o ∈ before.closed ∨ o.lockedAmount = 0

theorem Evolves.of_eq {before after : TradingService} (horders : after.orders = before.orders)
    (hclosed : after.closed = before.closed) : Evolves before after := by
  refine ⟨?_, ?_⟩
  · rw [horders]
  · rw [hclosed]
    exact fun o ho => Or.inl ho

theorem Evolves.trans {s t u : TradingService} (h : Evolves s t) (h' : Evolves t u) : Evolves s u := by
  refine ⟨h'.ids.trans h.ids, fun o ho => ?_⟩
  rcases h'.closed o ho with ho | hzero
  · exact h.closed o ho
  · exact Or.inr hzero

/-- Taking an order out of `orders`. -/
theorem Evolves.remove {before after : TradingService} {order done : StoredOrder}
    (horders : after.orders = Keyed.alter StoredOrder.id order.id (fun _ => none) before.orders)
    (hclosed : after.closed = before.closed ++ [done])
    (hlocked : done.lockedAmount = 0) : Evolves before after := by
  have hsub : after.orders.Sublist before.orders := by
    rw [horders, Keyed.alter_none]
    exact List.filter_sublist
  refine ⟨hsub.map _, fun o ho => ?_⟩
  rw [hclosed] at ho
  rcases List.mem_append.mp ho with ho | ho
  · exact Or.inl ho
  · rw [List.mem_singleton.mp ho]
    exact Or.inr hlocked

/-! ### A fill -/

section Fill

variable {service : TradingService} (trade : Trade)

/-- **The cases of `applyFillToLocalOrders`**: the maker is unknown, is filled, or is partly filled. -/
theorem applyFill_cases (hids : (service.orders.map StoredOrder.id).Nodup) :
    ((∀ o ∈ service.orders, o.id ≠ trade.makerOrderId) ∧
        service.applyFillToLocalOrders trade = service) ∨
      ∃ maker ∈ service.orders, maker.id = trade.makerOrderId ∧
        ((maker.quantity ≤ maker.filledQuantity + trade.quantity ∧
            (service.applyFillToLocalOrders trade).orders
              = Keyed.alter StoredOrder.id maker.id (fun _ => none) service.orders ∧
            (service.applyFillToLocalOrders trade).closed
              = service.closed ++ [{ service.fillMaker maker trade with lockedAmount := 0 }]) ∨
          (¬maker.quantity ≤ maker.filledQuantity + trade.quantity ∧
            (service.applyFillToLocalOrders trade).orders = Keyed.alter StoredOrder.id maker.id
              (fun _ => some (service.fillMaker maker trade)) service.orders ∧
            (service.applyFillToLocalOrders trade).closed = service.closed)) := by
  rw [TradingService.applyFillToLocalOrders]
  cases hfind : service.orders.findIdx? fun order => decide (order.id = trade.makerOrderId) with
  | none =>
      refine Or.inl ⟨fun o ho hid => ?_, rfl⟩
      have hnot := List.findIdx?_eq_none_iff.mp hfind o ho
      rw [decide_eq_true hid] at hnot
      cases hnot
  | some pos =>
      obtain ⟨maker, hget, hid⟩ := Keyed.getElem?_of_findIdx? hfind
      have hid := of_decide_eq_true hid
      refine Or.inr ⟨maker, List.mem_of_getElem? hget, hid, ?_⟩
      simp only [hget]
      by_cases hfull : maker.quantity ≤ maker.filledQuantity + trade.quantity
      · have hstatus : (service.fillMaker maker trade).status = .filled := if_pos hfull
        refine Or.inl ⟨hfull, ?_, ?_⟩
        · simp only [if_pos hstatus, TradingService.orders_unlockBalance]
          exact Keyed.eraseIdx_eq_alter hids hget
        · simp only [if_pos hstatus, TradingService.closed_unlockBalance]
      · have hstatus : ¬(service.fillMaker maker trade).status = .filled := by
          rw [show (service.fillMaker maker trade).status = .partiallyFilled from if_neg hfull]
          simp
        refine Or.inr ⟨hfull, ?_, ?_⟩
        · simp only [if_neg hstatus]
          exact Keyed.set_eq_alter hids hget _
        · simp only [if_neg hstatus]

theorem applyFill_evolves (hids : (service.orders.map StoredOrder.id).Nodup) :
    Evolves service (service.applyFillToLocalOrders trade) := by
  rcases applyFill_cases trade hids with ⟨_, heq⟩ | ⟨maker, hmem, _, hcase⟩
  · rw [heq]
    exact Evolves.of_eq rfl rfl
  · rcases hcase with ⟨_, horders, hclosed⟩ | ⟨_, horders, hclosed⟩
    · exact Evolves.remove horders hclosed rfl
    · refine ⟨?_, fun o ho => Or.inl (hclosed ▸ ho)⟩
      rw [horders]
      refine Keyed.keys_alter ?_ _
      intro a b _ hb
      rw [← Option.some.inj hb]
      rfl

/-- What a fill leaves of an open order. -/
def filledAs (orderId : String) (quantity : Decimal) (x : OpenOrder) : Option OpenOrder :=
  if x.orderId = orderId then
    if x.remaining - quantity = 0 then none else some { x with remaining := x.remaining - quantity }
  else some x

theorem filledAs_of_ne {orderId : String} {x : OpenOrder} (h : x.orderId ≠ orderId) (q : Decimal) :
    filledAs orderId q x = some x := if_neg h

theorem filledAs_full {orderId : String} {q : Decimal} {x : OpenOrder} (h : x.orderId = orderId)
    (hzero : x.remaining - q = 0) : filledAs orderId q x = none := by
  rw [filledAs, if_pos h, if_pos hzero]

theorem filledAs_left {orderId : String} {q : Decimal} {x : OpenOrder} (h : x.orderId = orderId)
    (hzero : x.remaining - q ≠ 0) :
    filledAs orderId q x = some { x with remaining := x.remaining - q } := by
  rw [filledAs, if_pos h, if_neg hzero]

theorem fillOpen_opensOf (orderId : String) (quantity : Decimal) (symbol : String)
    (orders : List StoredOrder) :
    fillOpen orderId quantity (opensOf parse symbol orders) = orders.filterMap fun o =>
      if o.symbol = symbol then filledAs orderId quantity (o.toOpen parse) else none := by
  rw [fillOpen, opensOf, List.filterMap_filterMap]
  refine List.filterMap_congr fun o _ => ?_
  split <;> rfl

variable (parse) in
/-- **A fill of the service is a fill among the open orders**, if the maker has enough left. -/
theorem opensOf_applyFill (hids : (service.orders.map StoredOrder.id).Nodup)
    (hleft : ∀ o ∈ service.orders, o.id = trade.makerOrderId →
      trade.quantity ≤ o.quantity - o.filledQuantity) (symbol : String) :
    opensOf parse symbol (service.applyFillToLocalOrders trade).orders
      = fillOpen trade.makerOrderId trade.quantity (opensOf parse symbol service.orders) := by
  rcases applyFill_cases trade hids with ⟨hnone, heq⟩ | ⟨maker, hmem, hid, hcase⟩
  · rw [heq, MatchingEngine.Naive.fillOpen_of_not_mem]
    intro x hx
    obtain ⟨o, ho, _, rfl⟩ := mem_opensOf.mp hx
    exact hnone o ho
  · have hle := hleft maker hmem hid
    have hfilled : maker.quantity ≤ maker.filledQuantity + trade.quantity ↔
        maker.quantity - maker.filledQuantity - trade.quantity = 0 :=
      ⟨fun h => by linarith, fun h => by linarith⟩
    rw [fillOpen_opensOf]
    have hother : ∀ o ∈ service.orders, o.id ≠ maker.id →
        filledAs trade.makerOrderId trade.quantity (o.toOpen parse) = some (o.toOpen parse) :=
      fun o _ hk => filledAs_of_ne (fun h => hk (h.trans hid.symm)) _
    rcases hcase with ⟨hfull, horders, _⟩ | ⟨hfull, horders, _⟩
    · have hself : filledAs trade.makerOrderId trade.quantity (maker.toOpen parse) = none :=
        filledAs_full hid (hfilled.mp hfull)
      rw [horders, opensOf, Keyed.filterMap_alter]
      refine List.filterMap_congr fun o ho => ?_
      by_cases hk : o.id = maker.id
      · rw [if_pos hk, eq_of_id hids ho hmem hk, hself, ite_self]
        rfl
      · rw [if_neg hk, hother o ho hk]
    · have hself : filledAs trade.makerOrderId trade.quantity (maker.toOpen parse)
          = some ((service.fillMaker maker trade).toOpen parse) := by
        rw [filledAs_left hid (fun h => hfull (hfilled.mpr h))]
        refine congrArg some ?_
        show OpenOrder.mk _ _ _ _ (maker.quantity - maker.filledQuantity - trade.quantity)
          = OpenOrder.mk _ _ _ _ (maker.quantity - (maker.filledQuantity + trade.quantity))
        rw [sub_sub]
        rfl
      rw [horders, opensOf, Keyed.filterMap_alter]
      refine List.filterMap_congr fun o ho => ?_
      by_cases hk : o.id = maker.id
      · rw [if_pos hk, eq_of_id hids ho hmem hk, hself]
        rfl
      · rw [if_neg hk, hother o ho hk]

end Fill

/-! ### The matching loop -/

theorem applyTrades_snoc (service : TradingService) (order : StoredOrder) (trades : List Trade)
    (trade : Trade) :
    service.applyTrades order (trades ++ [trade])
      = ((service.applyTrades order trades).settleTrade order trade).applyFillToLocalOrders trade := by
  rw [TradingService.applyTrades, List.foldl_append]
  rfl

/-- What ties the service to the book while the trades of an order are applied. -/
structure Mirrors (parse : DecimalParser) (symbol : String) (before after : TradingService)
    (book : OrderBook) : Prop where
  book : Simulates book (opensOf parse symbol after.orders)
  evolves : Evolves before after
  others : ∀ symbol', symbol' ≠ symbol →
    opensOf parse symbol' after.orders = opensOf parse symbol' before.orders

/-- **A trade with an order of the service** fills that order among the open orders of its symbol, and
leaves those of the other symbols alone. -/
theorem opensOf_traded {symbol : String} {service : TradingService} {incoming resting : MatchingEngine.Order}
    {trade : Trade} (hids : (service.orders.map StoredOrder.id).Nodup)
    (hresting : resting.toOpen ∈ opensOf parse symbol service.orders)
    (hmaker : trade.makerOrderId = resting.orderId)
    (hquantity : trade.quantity = MatchingEngine.tradeQuantity incoming resting) :
    opensOf parse symbol (service.applyFillToLocalOrders trade).orders
        = fillOpen resting.orderId (MatchingEngine.tradeQuantity incoming resting)
          (opensOf parse symbol service.orders) ∧
      ∀ symbol', symbol' ≠ symbol →
        opensOf parse symbol' (service.applyFillToLocalOrders trade).orders
          = opensOf parse symbol' service.orders := by
  obtain ⟨o, ho, hsymbol, hopen⟩ := mem_opensOf.mp hresting
  have hid : o.id = trade.makerOrderId := (congrArg OpenOrder.orderId hopen).trans hmaker.symm
  have hfill := opensOf_applyFill parse trade hids (by
    intro o' ho' hid'
    obtain rfl : o' = o := eq_of_id hids ho' ho (hid'.trans hid.symm)
    rw [hquantity, show o'.quantity - o'.filledQuantity = resting.remainingQuantity from
      congrArg OpenOrder.remaining hopen]
    exact min_le_right _ _)
  refine ⟨?_, fun symbol' hne => ?_⟩
  · rw [hfill, hmaker, hquantity]
  · rw [hfill]
    refine MatchingEngine.Naive.fillOpen_of_not_mem _ fun x hx hk => ?_
    obtain ⟨o', ho', hsymbol', rfl⟩ := mem_opensOf.mp hx
    obtain rfl : o' = o := eq_of_id hids ho' ho (hk.trans hid.symm)
    exact hne (hsymbol'.symm.trans hsymbol)

/-- **A trade of the loop is mirrored by the service.** -/
theorem Mirrors.trade {symbol : String} {before service : TradingService} {s : MatchState}
    {price : Decimal} {level : MatchingEngine.PriceLevel} {resting : MatchingEngine.Order}
    {queue : List MatchingEngine.Order} (h : Mirrors parse symbol before service s.book)
    (hids : (before.orders.map StoredOrder.id).Nodup) (hs : LoopInv s)
    (hc : CanTrade s price level resting queue) (uuid : UuidSource) {trade : Trade}
    (hmaker : trade.makerOrderId = resting.orderId)
    (hquantity : trade.quantity = MatchingEngine.tradeQuantity s.incoming resting) :
    Mirrors parse symbol before (service.applyFillToLocalOrders trade)
      (s.trade uuid price level resting queue).book := by
  have hnodup := hids.sublist h.evolves.ids
  obtain ⟨hown, hothers⟩ := opensOf_traded hnodup (h.book.toOpen_mem hc.atLevel hc.front_mem) hmaker
    hquantity
  refine ⟨?_, h.evolves.trans (applyFill_evolves trade hnodup), fun symbol' hne => ?_⟩
  · rw [hown]
    exact h.book.trade hs hc uuid
  · rw [hothers symbol' hne, h.others symbol' hne]

/-- **The trades of the loop are mirrored by the service.** -/
theorem Mirrors.trades {symbol : String} {service : TradingService} (order : StoredOrder)
    {uuid : UuidSource} {s t : MatchState} (hbook : Simulates s.book (opensOf parse symbol service.orders))
    (hids : (service.orders.map StoredOrder.id).Nodup) (hs : LoopInv s) (hfills : s.fills = [])
    (h : Trades uuid s t) :
    Mirrors parse symbol service (service.applyTrades order (t.fills.map (service.toTrade order)))
      t.book := by
  refine (MatchingEngine.trades_preserve (P := fun t => LoopInv t ∧ Mirrors parse symbol service
    (service.applyTrades order (t.fills.map (service.toTrade order))) t.book) ?_ h ⟨hs, ?_⟩).2
  · rintro t u ⟨ht, hmirrors⟩ htu
    refine ⟨ht.step htu, ?_⟩
    obtain ⟨price, level, resting, queue, hc, rfl⟩ := htu
    rw [MatchState.trade_fills, List.map_append, List.map_singleton, applyTrades_snoc]
    have hsettled : Mirrors parse symbol service ((service.applyTrades order
        (t.fills.map (service.toTrade order))).settleTrade order
          (service.toTrade order (t.fill uuid price resting))) t.book :=
      ⟨hmirrors.book, hmirrors.evolves.trans (Evolves.of_eq rfl rfl), hmirrors.others⟩
    exact hsettled.trade hids ht hc uuid rfl rfl
  · rw [hfills]
    exact ⟨hbook, Evolves.of_eq rfl rfl, fun _ _ => rfl⟩

/-! ### The order after its fills -/

/-- What the service makes of a status of the engine. -/
theorem mapOrderStatus_wire (status : MatchingEngine.OrderStatus) :
    mapOrderStatus (statusToWire status) = match status with
      | .new => .new
      | .partiallyFilled => .partiallyFilled
      | .filled => .filled
      | .cancelled => .cancelled
      | .expired => .expired
      | .rejected => .rejected
      | .pendingStop => .rejected := by
  cases status <;> decide +kernel

theorem foldl_quantity (trades : List Trade) (q : Decimal) :
    trades.foldl (fun filled trade => filled + trade.quantity) q
      = q + (trades.map Trade.quantity).sum := by
  induction trades generalizing q with
  | nil => exact (add_zero q).symm
  | cons trade trades ih =>
      rw [List.foldl_cons, ih, List.map_cons, List.sum_cons, add_assoc]

/-! ### The answer of the engine -/

namespace TradingService

variable {service : TradingService} {order : StoredOrder} {report : ExecutionReport}

variable (service order) in
/-- An order that the engine refuses is rejected, with the lock that it had. -/
theorem takeReport_refused (h : report.accepted = false) :
    (service.takeReport order report).2.orders = service.orders ∧
      (service.takeReport order report).2.closed
        = service.closed ++ [{ order with status := .rejected }] := by
  rw [takeReport, if_pos h]
  exact ⟨orders_unlockBalance _ _ _, congrArg (· ++ _) (closed_unlockBalance _ _ _)⟩

/-- The order after its fills, and the trades that they are. -/
def filledBy (service : TradingService) (order : StoredOrder) (report : ExecutionReport) : StoredOrder :=
  fillIncoming order report (report.fills.map (service.toTrade order))

@[simp] theorem orders_unlockUnusedIncomingLock (fills : List Fill) :
    (service.unlockUnusedIncomingLock order fills).2.orders = service.orders :=
  orders_unlockBalance _ _ _

@[simp] theorem closed_unlockUnusedIncomingLock (fills : List Fill) :
    (service.unlockUnusedIncomingLock order fills).2.closed = service.closed :=
  closed_unlockBalance _ _ _

/-- The service after the trades of a report. -/
def tradedBy (service : TradingService) (order : StoredOrder) (report : ExecutionReport) :
    TradingService :=
  service.applyTrades order (report.fills.map (service.toTrade order))

/-- The order and the service once the lock is settled. -/
def settledBy (service : TradingService) (order : StoredOrder) (report : ExecutionReport) :
    StoredOrder × TradingService :=
  (service.tradedBy order report).unlockUnusedIncomingLock (service.filledBy order report) report.fills

theorem takeReport_accepted (h : report.accepted = true) :
    (service.takeReport order report).2 =
      if shouldRest (service.filledBy order report) then
        { (service.settledBy order report).2 with
          orders := (service.settledBy order report).2.orders ++ [(service.settledBy order report).1] }
      else
        { (service.settledBy order report).2 with
          closed := (service.settledBy order report).2.closed ++ [(service.settledBy order report).1] } := by
  rw [takeReport, if_neg (by rw [h]; simp)]
  rfl

variable (service order report) in
/-- An order that rests joins `orders`. -/
theorem takeReport_rests (h : report.accepted = true)
    (hrest : shouldRest (service.filledBy order report) = true) :
    (service.takeReport order report).2.orders
        = (service.tradedBy order report).orders ++ [(service.settledBy order report).1] ∧
      (service.takeReport order report).2.closed = (service.tradedBy order report).closed := by
  rw [takeReport_accepted h, if_pos hrest]
  exact ⟨congrArg (· ++ [_]) (orders_unlockUnusedIncomingLock _), closed_unlockUnusedIncomingLock _⟩

/-- An order that does not rest has nothing locked. -/
theorem takeReport_done (h : report.accepted = true)
    (hrest : shouldRest (service.filledBy order report) = false) :
    (service.takeReport order report).2.orders = (service.tradedBy order report).orders ∧
      (service.takeReport order report).2.closed = (service.tradedBy order report).closed
        ++ [{ service.filledBy order report with lockedAmount := 0 }] := by
  have hnot : ¬shouldRest (service.filledBy order report) = true := by rw [hrest]; simp
  have hdone : (service.settledBy order report).1
      = { service.filledBy order report with lockedAmount := 0 } := by
    rw [settledBy, unlockUnusedIncomingLock, if_neg hnot]
  rw [takeReport_accepted h, if_neg hnot, hdone]
  exact ⟨orders_unlockUnusedIncomingLock _, congrArg (· ++ [_]) (closed_unlockUnusedIncomingLock _)⟩

end TradingService

/-- The orders of the service are known by their identifiers, and those that are done have nothing
locked. -/
structure Tidy (service : TradingService) : Prop where
  ids : (service.orders.map StoredOrder.id).Nodup
  closed : ∀ o ∈ service.closed, o.lockedAmount = 0

namespace Tidy

variable {before after : TradingService} {order : StoredOrder}

theorem evolves (h : Tidy before) (he : Evolves before after) : Tidy after := by
  refine ⟨h.ids.sublist he.ids, fun o ho => ?_⟩
  rcases he.closed o ho with ho | hzero
  · exact h.closed o ho
  · exact hzero

theorem close (h : Tidy before) (horders : after.orders = before.orders)
    (hclosed : after.closed = before.closed ++ [order]) (hlocked : order.lockedAmount = 0) :
    Tidy after := by
  refine ⟨horders ▸ h.ids, fun o ho => ?_⟩
  rw [hclosed] at ho
  rcases List.mem_append.mp ho with ho | ho
  · exact h.closed o ho
  · rw [List.mem_singleton.mp ho]
    exact hlocked

theorem rest (h : Tidy before) (horders : after.orders = before.orders ++ [order])
    (hclosed : after.closed = before.closed) (hnew : order.id ∉ before.orders.map StoredOrder.id) :
    Tidy after := by
  refine ⟨?_, hclosed ▸ h.closed⟩
  rw [horders, List.map_append, List.nodup_append]
  refine ⟨h.ids, List.nodup_singleton _, ?_⟩
  rintro id hid _ hid' rfl
  rw [List.map_singleton, List.mem_singleton] at hid'
  exact hnew (hid' ▸ hid)

end Tidy

/-- What ties the service to the book of a symbol after a call on it. -/
structure Places (parse : DecimalParser) (symbol : String) (before after : TradingService)
    (book : OrderBook) : Prop where
  book : Simulates book (opensOf parse symbol after.orders)
  tidy : Tidy after
  others : ∀ symbol', symbol' ≠ symbol →
    opensOf parse symbol' after.orders = opensOf parse symbol' before.orders

namespace Mirrors

variable {symbol : String} {before middle after : TradingService} {book book' : OrderBook}
  {order : StoredOrder}

/-- An order that is done leaves the open orders as they are. -/
theorem close (h : Mirrors parse symbol before middle book) (htidy : Tidy before)
    (hlevels : ∀ side, book'.levels side = book.levels side) (horders : after.orders = middle.orders)
    (hclosed : after.closed = middle.closed ++ [order]) (hlocked : order.lockedAmount = 0) :
    Places parse symbol before after book' := by
  refine ⟨?_, (htidy.evolves h.evolves).close horders hclosed hlocked, ?_⟩
  · rw [horders]
    exact h.book.of_levels hlevels
  · rw [horders]
    exact h.others

/-- An order that rests is an open order more. -/
theorem rest (h : Mirrors parse symbol before middle book) (htidy : Tidy before)
    (hbook : Simulates book' (opensOf parse symbol middle.orders ++ [order.toOpen parse]))
    (horders : after.orders = middle.orders ++ [order]) (hclosed : after.closed = middle.closed)
    (hnew : order.id ∉ before.orders.map StoredOrder.id) (hown : order.symbol = symbol) :
    Places parse symbol before after book' := by
  have hlast : ∀ symbol', opensOf parse symbol' [order]
      = if order.symbol = symbol' then [order.toOpen parse] else [] := by
    intro symbol'
    rw [opensOf, List.filterMap_cons]
    split
    · rename_i hnone
      rw [if_neg fun hs => by rw [if_pos hs] at hnone; cases hnone]
      rfl
    · rename_i x hsome
      split at hsome
      · rename_i hs
        rw [if_pos hs, ← Option.some.inj hsome]
        rfl
      · cases hsome
  refine ⟨?_, (htidy.evolves h.evolves).rest horders hclosed fun hid => hnew (h.evolves.ids.subset hid),
    fun symbol' hne => ?_⟩
  · rw [horders, opensOf_append, hlast, if_pos hown]
    exact hbook
  · rw [horders, opensOf_append, hlast, if_neg fun hs => hne (hs.symm.trans hown), List.append_nil]
    exact h.others symbol' hne

end Mirrors

/-! ### Placing an order -/

/-- **The condition on an order that is placed**, once the engine has its request.  An order that the
engine does not take has nothing locked.  An order that it takes is no stop order, and leaves no remainder
but one that rests and that both sides count alike. -/
def KeepsOrder (logged : Bool) (book : OrderBook) (order : StoredOrder)
    (request : MatchingEngine.Order) : Prop :=
  if logged = false ∨ book.refuses request = true then order.lockedAmount = 0
  else request.kind.isStop = false ∧
    ((request.kind = .fok ∧ book.availableCrossingQuantity request < request.remainingQuantity) ∨
      request.remainingQuantity ≤ book.reach request ∨
      if book.stopsAtOwn request then book.reach request = 0 ∧ order.lockedAmount = 0
      else if request.kind = .market ∨ request.kind = .ioc then book.reach request = 0
      else request.originalQuantity = order.quantity)

instance (logged : Bool) (book : OrderBook) (order : StoredOrder) (request : MatchingEngine.Order) :
    Decidable (KeepsOrder logged book order request) := by
  unfold KeepsOrder
  infer_instance

namespace TradingService

variable {service : TradingService} {order : StoredOrder} {report : ExecutionReport}

theorem filledBy_filledQuantity :
    (service.filledBy order report).filledQuantity
      = order.filledQuantity + (report.fills.map Fill.quantity).sum := by
  rw [filledBy, fillIncoming, foldl_quantity, List.map_map]
  rfl

/-- An order whose status is final does not rest. -/
theorem shouldRest_done (status : OrderStatus)
    (h : mapOrderStatus (statusToWire report.status) = status) (hnew : status ≠ .new)
    (hopen : status ≠ .partiallyFilled) : shouldRest (service.filledBy order report) = false := by
  have hstatus : (service.filledBy order report).status = status := h
  rw [shouldRest, hstatus, decide_eq_false hnew, decide_eq_false hopen]
  exact Bool.and_false _

/-- An order that is open, with something left, rests. -/
theorem shouldRest_open
    (hleft : 0 < order.quantity - (order.filledQuantity + (report.fills.map Fill.quantity).sum))
    (h : mapOrderStatus (statusToWire report.status) = .new ∨
      mapOrderStatus (statusToWire report.status) = .partiallyFilled) :
    shouldRest (service.filledBy order report) = true := by
  have hstatus : (service.filledBy order report).status
      = mapOrderStatus (statusToWire report.status) := rfl
  have hquantity : (service.filledBy order report).quantity = order.quantity := rfl
  rw [shouldRest, hstatus, hquantity, filledBy_filledQuantity, decide_eq_true hleft, Bool.true_and]
  rcases h with h | h <;> rw [h] <;> rfl

/-- An order of the service is found by its identifier, symbol and user. -/
theorem takeCancel_found (hids : (service.orders.map StoredOrder.id).Nodup)
    (horder : order ∈ service.orders) :
    ∃ pos, service.orders.findIdx? (fun o => decide (o.id = order.id ∧ o.symbol = order.symbol ∧
      o.userId = order.userId)) = some pos ∧ service.orders[pos]? = some order := by
  cases hfind : service.orders.findIdx? fun o =>
      decide (o.id = order.id ∧ o.symbol = order.symbol ∧ o.userId = order.userId) with
  | none =>
      have hnot := List.findIdx?_eq_none_iff.mp hfind order horder
      rw [decide_eq_true ⟨rfl, rfl, rfl⟩] at hnot
      cases hnot
  | some pos =>
      obtain ⟨o, hget, hfound⟩ := Keyed.getElem?_of_findIdx? hfind
      obtain rfl : o = order :=
        eq_of_id hids (List.mem_of_getElem? hget) horder (of_decide_eq_true hfound).1
      exact ⟨pos, rfl, hget⟩

/-- An order that is cancelled leaves `orders`. -/
theorem takeCancel_done (hids : (service.orders.map StoredOrder.id).Nodup)
    (horder : order ∈ service.orders) :
    (service.takeCancel order.id order.symbol order.userId true).orders
        = Keyed.alter StoredOrder.id order.id (fun _ => none) service.orders ∧
      (service.takeCancel order.id order.symbol order.userId true).closed
        = service.closed ++ [{ order with lockedAmount := 0, status := .cancelled }] := by
  obtain ⟨pos, hfind, hget⟩ := takeCancel_found hids horder
  simp only [takeCancel, hfind, hget, orders_unlockBalance, closed_unlockBalance, and_true]
  exact Keyed.eraseIdx_eq_alter hids hget

end TradingService

section Placed

variable {service : TradingService} {order : StoredOrder} {request : MatchingEngine.Order}
  {report : ExecutionReport} {uuid : UuidSource} {book book' : OrderBook} {symbol : String}

theorem Mirrors.refl (h : Simulates book (opensOf parse symbol service.orders)) :
    Mirrors parse symbol service service book :=
  ⟨h, Evolves.of_eq rfl rfl, fun _ _ => rfl⟩

/-- An order that is refused, with nothing locked. -/
theorem Places.refused (hsim : Simulates book (opensOf parse symbol service.orders))
    (htidy : Tidy service) (h : report.accepted = false) (hlock : order.lockedAmount = 0) :
    Places parse symbol service (service.takeReport order report).2 book := by
  obtain ⟨horders, hclosed⟩ := TradingService.takeReport_refused service order h
  exact (Mirrors.refl hsim).close htidy (fun _ => rfl) horders hclosed hlock

/-- An order that is done once it has traded. -/
theorem Mirrors.done (h : Mirrors parse symbol service (service.tradedBy order report) book)
    (htidy : Tidy service) (hlevels : ∀ side, book'.levels side = book.levels side)
    (haccepted : report.accepted = true) (hrest : shouldRest (service.filledBy order report) = false) :
    Places parse symbol service (service.takeReport order report).2 book' := by
  obtain ⟨horders, hclosed⟩ := TradingService.takeReport_done haccepted hrest
  exact h.close htidy hlevels horders hclosed rfl

variable (service report) in
/-- The request and the order, once both are filled alike. -/
theorem toOpen_settledBy {t : MatchState} (hrequest : engineOrder parse order = some request)
    (hfilled : order.filledQuantity = 0) (hquantity : request.originalQuantity = order.quantity)
    (h : Trades uuid (book.startMatch request) t) (hfills : report.fills = t.fills) :
    (service.settledBy order report).1.toOpen parse = t.incoming.toOpen := by
  obtain ⟨price, stopPrice, quantity, hprice, _, _, rfl⟩ := engineOrder_fields hrequest
  have hsum := MatchingEngine.trades_quantity h
  have hin := MatchingEngine.trades_incoming h
  have hread : order.price.bind parse = price := by
    cases hp : order.price with
    | none =>
        rw [hp] at hprice
        exact Option.some.inj hprice
    | some p =>
        rw [hp] at hprice
        obtain ⟨p', hp', rfl⟩ := Option.map_eq_some_iff.mp hprice
        exact hp'
  have hremaining : order.quantity - (service.filledBy order report).filledQuantity
      = t.incoming.remainingQuantity := by
    rw [TradingService.filledBy_filledQuantity, hfilled, hfills, ← hquantity]
    have hstart : (t.fills.map Fill.quantity).sum + t.incoming.remainingQuantity
        = 0 + (MatchingEngine.Order.new order.id order.userId order.side order.type price stopPrice
            quantity).originalQuantity := hsum
    linarith
  have hleft : (service.settledBy order report).1.toOpen parse
      = ⟨order.id, order.userId, order.side, (order.price.bind parse).getD 0,
          order.quantity - (service.filledBy order report).filledQuantity⟩ := rfl
  rw [hleft, hremaining, hread, hin]
  rfl

/-- What is left of an order in the loop is left of it for the service. -/
theorem quantity_left {t : MatchState} (hrequest : engineOrder parse order = some request)
    (hfilled : order.filledQuantity = 0) (hquantity : request.originalQuantity = order.quantity)
    (h : Trades uuid (book.startMatch request) t) (hinv : LoopInv t)
    (hleft : t.incoming.remainingQuantity ≠ 0) :
    0 < order.quantity - (order.filledQuantity + (t.fills.map Fill.quantity).sum) := by
  have hbuilt : request.remainingQuantity = request.originalQuantity := by
    obtain ⟨_, _, _, _, _, _, rfl⟩ := engineOrder_fields hrequest
    rfl
  have hsum : (t.fills.map Fill.quantity).sum + t.incoming.remainingQuantity
      = 0 + request.remainingQuantity := MatchingEngine.trades_quantity h
  have hpositive := lt_of_le_of_ne hinv.nonneg (Ne.symm hleft)
  linarith

/-- The status of an order that rests. -/
theorem rested_status (t : MatchState) :
    mapOrderStatus (statusToWire (if t.fills.isEmpty then .new else .partiallyFilled)) = .new ∨
      mapOrderStatus (statusToWire (if t.fills.isEmpty then .new else .partiallyFilled))
        = .partiallyFilled := by
  split
  · exact Or.inl (mapOrderStatus_wire .new)
  · exact Or.inr (mapOrderStatus_wire .partiallyFilled)

/-- **An order that goes through the matching loop.** -/
theorem Places.executed (htidy : Tidy service)
    (hsim : Simulates book (opensOf parse order.symbol service.orders)) (hinv : Inv book)
    (ha : MatchingEngine.Admissible book request) (hrequest : engineOrder parse order = some request)
    (hfilled : order.filledQuantity = 0) (hnew : order.id ∉ service.orders.map StoredOrder.id)
    (hleft : request.remainingQuantity ≤ book.reach request ∨
      if book.stopsAtOwn request then book.reach request = 0 ∧ order.lockedAmount = 0
      else if request.kind = .market ∨ request.kind = .ioc then book.reach request = 0
      else request.originalQuantity = order.quantity)
    (hx : MatchingEngine.Executed uuid book request report book') :
    Places parse order.symbol service (service.takeReport order report).2 book' := by
  have hquantity := MatchingEngine.executed_quantity hx hinv ha
  have hnothing := MatchingEngine.executed_nothing hx hinv ha
  have hstart := LoopInv.start hinv ha
  have hbook : Simulates (book.startMatch request).book (opensOf parse order.symbol service.orders) :=
    hsim.of_levels fun side => by cases side <;> rfl
  cases hx with
  | blocked t trades inv hb =>
      obtain ⟨price, level, resting, queue, hb⟩ := hb
      have hown := MatchingEngine.stopsAtOwn_of_blocked hinv ha trades hb
      have hsum := MatchingEngine.trades_quantity trades
      rcases hleft with hle | hleft
      · rw [min_eq_left hle] at hquantity
        have hpositive := hb.positive
        have htotal : (t.fills.map Fill.quantity).sum + t.incoming.remainingQuantity
            = 0 + request.remainingQuantity := hsum
        have hall : (t.fills.map Fill.quantity).sum = request.remainingQuantity := hquantity
        linarith
      · rw [if_pos hown] at hleft
        have hnone : t.fills = [] := hnothing hleft.1
        have hmirrors := Mirrors.trades order hbook htidy.ids hstart rfl trades
        rw [hnone] at hmirrors
        refine Places.refused (hmirrors.book.of_levels fun side => ?_) htidy ?_ hleft.2
        · cases side <;> rfl
        · show (!t.fills.isEmpty) = false
          rw [hnone]
          rfl
  | finished t trades inv exhausted st settled hsettled =>
      have hmirrors := Mirrors.trades order hbook htidy.ids hstart rfl trades
      have hsum : (t.fills.map Fill.quantity).sum + t.incoming.remainingQuantity
          = 0 + request.remainingQuantity := MatchingEngine.trades_quantity trades
      have hkind := MatchingEngine.trades_kind trades
      -- where something is left, the second part of the condition is the one that holds
      have hrule : t.incoming.remainingQuantity ≠ 0 →
          if request.kind = .market ∨ request.kind = .ioc then t.fills = []
          else request.originalQuantity = order.quantity := by
        intro hrest
        rcases hleft with hle | hleft
        · rw [min_eq_left hle] at hquantity
          have hall : (t.fills.map Fill.quantity).sum = request.remainingQuantity := hquantity
          exact absurd (by linarith) hrest
        · rw [MatchingEngine.not_stopsAtOwn_of_exhausted hinv ha trades exhausted hrest,
            if_neg (by simp)] at hleft
          split at hleft
          · rename_i hk
            rw [if_pos hk]
            exact hnothing hleft
          · rename_i hk
            rw [if_neg hk]
            exact hleft
      cases hsettled with
      | filled hdone =>
          exact hmirrors.done htidy (fun side => t.book.levels_close _ _ _ side) rfl
            (TradingService.shouldRest_done .filled (mapOrderStatus_wire .filled) (by simp) (by simp))
      | dropped hrest hdropped =>
          have hnone := hrule hrest
          rw [if_pos (hkind ▸ hdropped)] at hnone
          refine hmirrors.done htidy (fun side => t.book.levels_close _ _ _ side) rfl
            (TradingService.shouldRest_done .rejected ?_ (by simp) (by simp))
          rw [MatchingEngine.OrderBook.finishReport, hnone]
          exact mapOrderStatus_wire .rejected
      | expired hrest hfok =>
          exact hmirrors.done htidy (fun side => t.book.levels_close _ _ _ side) rfl
            (TradingService.shouldRest_done .expired (mapOrderStatus_wire .expired) (by simp) (by simp))
      | rested hrest hlasting price hprice =>
          have hsame := hrule hrest
          rw [if_neg (by rw [← hkind]; exact fun hk => hk.elim hlasting.1 hlasting.2.1)] at hsame
          have hopen := toOpen_settledBy service
            (OrderBook.finishReport t (if t.fills.isEmpty then .new else .partiallyFilled)) hrequest
            hfilled hsame trades rfl
          have hstill := quantity_left hrequest hfilled hsame trades inv hrest
          obtain ⟨horders, hclosed⟩ := TradingService.takeReport_rests service order
            (OrderBook.finishReport t (if t.fills.isEmpty then .new else .partiallyFilled)) rfl
            (TradingService.shouldRest_open hstill (rested_status t))
          refine hmirrors.rest htidy ?_ horders hclosed hnew rfl
          rw [hopen]
          exact (hmirrors.book.restAt hprice).of_levels fun side => OrderBook.levels_close _ _ _ _ side

end Placed

/-! ### Calls -/

/-- The book of a symbol, under the name that the engine has it. -/
def bookOf (engine : Core) (symbol : String) : OrderBook := (engine.books.find symbol).getD .default

/-- Nothing stops the engine from writing to its log. -/
def logs (engine : Core) (files : CallFiles) : Bool :=
  engine.persistence.isNone || files.append.isNone

theorem bookOf_congr {engine engine' : Core} (h : engine'.books = engine.books) (symbol : String) :
    bookOf engine' symbol = bookOf engine symbol := by
  rw [bookOf, bookOf, h]

theorem bookOf_insert {engine engine' : Core} {symbol : String} {book : OrderBook}
    (h : engine'.books = engine.books.insert symbol book) (symbol' : String) :
    bookOf engine' symbol' = if symbol' = symbol then book else bookOf engine symbol' := by
  rw [bookOf, bookOf, h, SortedMap.find_insert]
  split <;> rfl

section Engine

variable {engine : Core} {symbol : String}

/-- **A submission** that is logged reaches the book of its symbol. -/
theorem submitOrder_traded (codec : DecimalCodec) (files : CallFiles) (source : UuidSource)
    (request : MatchingEngine.Order) (hinv : MatchingEngine.CoreInv engine)
    (hsymbol : MatchingEngine.normalizeSymbol symbol = symbol) :
    ∃ report dropped engine', engine.submitOrder codec files source symbol request
        = .ok (report, dropped, engine') ∧ MatchingEngine.CoreInv engine' ∧
      ((logs engine files = false ∧ report.accepted = false ∧ report.fills = [] ∧ engine' = engine) ∨
        ∃ book, logs engine files = true ∧
          MatchingEngine.Traded source (bookOf engine symbol) request report dropped book ∧
          engine'.books = engine.books.insert symbol book) := by
  obtain ⟨reply, engine', hexec, hinv', hserved⟩ :=
    MatchingEngine.core_exec_spec codec hinv (.submitOrder files source symbol request)
  obtain ⟨⟨report, dropped, engine''⟩, hsubmit, hreply⟩ := bind_eq_ok.mp hexec
  cases hreply
  refine ⟨report, dropped, engine', hsubmit, hinv', ?_⟩
  have hbook : engine.bookFor symbol = bookOf engine symbol := by
    rw [Core.bookFor, hsymbol]
    rfl
  cases hserved with
  | submitFailed append =>
      have hnot := MatchingEngine.appendWal_error append
      refine Or.inl ⟨?_, rfl, rfl, rfl⟩
      rw [logs, Bool.eq_false_iff]
      simpa using hnot
  | @submitted _ _ _ _ logged _ _ book append traded inv =>
      have hlogs : logs engine files = true := by
        have hok := MatchingEngine.appendWal_ok append
        rw [logs]
        simpa using hok
      rw [hbook] at traded
      refine Or.inr ⟨book, hlogs, traded, ?_⟩
      rw [MatchingEngine.afterTrades_books, hsymbol]

theorem bookOf_inv (h : MatchingEngine.CoreInv engine) (symbol : String) : Inv (bookOf engine symbol) := by
  rw [bookOf]
  cases hfind : engine.books.find symbol with
  | none => exact MatchingEngine.inv_default
  | some book => exact h symbol book hfind

/-- **A submission to a book without stop orders.** -/
theorem submitOrder_cases (codec : DecimalCodec) (files : CallFiles) (source : UuidSource)
    (request : MatchingEngine.Order) (hinv : MatchingEngine.CoreInv engine)
    (hsymbol : MatchingEngine.normalizeSymbol symbol = symbol)
    (hstops : (bookOf engine symbol).stopOrders = []) :
    ∃ report dropped engine', engine.submitOrder codec files source symbol request
        = .ok (report, dropped, engine') ∧ MatchingEngine.CoreInv engine' ∧
      ((logs engine files = false ∧ report.accepted = false ∧ report.fills = [] ∧ engine' = engine) ∨
        ∃ book, logs engine files = true ∧
          MatchingEngine.Submitted source.head (bookOf engine symbol) request report book ∧
          engine'.books = engine.books.insert symbol book) := by
  obtain ⟨report, dropped, engine', hsubmit, hinv', hcase⟩ :=
    submitOrder_traded codec files source request hinv hsymbol
  refine ⟨report, dropped, engine', hsubmit, hinv', ?_⟩
  rcases hcase with hrefused | ⟨book, hlogs, htraded, hbooks⟩
  · exact Or.inl hrefused
  · have hcalm : (bookOf engine symbol).setsOffStop request = false := by
      rw [OrderBook.setsOffStop, hstops]
      simp
    have hbookInv := bookOf_inv hinv symbol
    have hone := (MatchingEngine.submit_inv hbookInv (htraded.calm hbookInv hcalm).1).2
    exact Or.inr ⟨book, hlogs, hone, hbooks⟩

/-- **A cancellation.** -/
theorem cancelOrder_cases (files : CallFiles) (orderId userId : String) (hinv : MatchingEngine.CoreInv engine)
    (hsymbol : MatchingEngine.normalizeSymbol symbol = symbol) :
    ∃ done engine', engine.cancelOrder files symbol orderId userId = .ok (done, engine') ∧
      MatchingEngine.CoreInv engine' ∧
      ((done = false ∧ engine'.books = engine.books) ∨
        ∃ book, (bookOf engine symbol).cancel orderId userId = .ok (done, book) ∧
          MatchingEngine.Cancelled (bookOf engine symbol) orderId userId done book ∧
          engine'.books = engine.books.insert symbol book) := by
  obtain ⟨reply, engine', hexec, hinv', hserved⟩ := MatchingEngine.core_exec_spec
    MatchingEngine.fractionCodec hinv (.cancelOrder files symbol orderId userId)
  obtain ⟨⟨done, engine''⟩, hcancel, hreply⟩ := bind_eq_ok.mp hexec
  cases hreply
  refine ⟨done, engine', hcancel, hinv', ?_⟩
  cases hserved with
  | cancelFailed append => exact Or.inl ⟨rfl, rfl⟩
  | cancelUnknown append unknown => exact Or.inl ⟨rfl, MatchingEngine.appendWal_books append⟩
  | @cancelled _ _ _ _ logged book book' _ append known returned result inv =>
      have hbook : bookOf engine symbol = book := by
        rw [hsymbol] at known
        rw [bookOf, known]
        rfl
      refine Or.inr ⟨book', ?_, ?_, ?_⟩
      · rw [hbook]
        exact returned
      · rw [hbook]
        exact result
      · rw [hsymbol]

end Engine

/-- **The service and the engine in step.** -/
structure Synced (parse : DecimalParser) (system : TradingSystem) : Prop where
  inv : MatchingEngine.CoreInv system.engine
  tidy : Tidy system.trading
  book : ∀ symbol, Simulates (bookOf system.engine symbol)
    (opensOf parse symbol system.trading.orders)
  stops : ∀ symbol, (bookOf system.engine symbol).stopOrders = []

/-- The condition on `placeOrder`: it is that on the order, for one that reaches the engine. -/
def KeepsPlaced (parse : DecimalParser) (system : TradingSystem) (uuid : String) (files : CallFiles)
    (dto : PlaceOrderDto) : Prop :=
  match system.prepare uuid dto with
  | .error _ => True
  | .ok order =>
    match engineOrder parse order with
    | none => True
    | some request =>
      KeepsOrder (logs system.engine files) (bookOf system.engine order.symbol) order request

instance (system : TradingSystem) (uuid : String) (files : CallFiles) (dto : PlaceOrderDto) :
    Decidable (KeepsPlaced parse system uuid files dto) := by
  unfold KeepsPlaced
  cases system.prepare uuid dto with
  | error _ => infer_instance
  | ok order => cases hrequest : engineOrder parse order <;> simp only [hrequest] <;> infer_instance

/-- **The condition on a call.** -/
def Keeps (parse : DecimalParser) (system : TradingSystem) : TradingCall → Prop
  | .placeOrder uuid files _ dto => KeepsPlaced parse system uuid files dto
  | .cancelOrder _ _ _ _ => True

instance (system : TradingSystem) : DecidablePred (Keeps parse system)
  | .placeOrder uuid files _ dto => inferInstanceAs (Decidable (KeepsPlaced parse system uuid files dto))
  | .cancelOrder _ _ _ _ => inferInstanceAs (Decidable True)

/-- The identifier drawn for an order is new. -/
def NewOrderId (system : TradingSystem) : TradingCall → Prop
  | .placeOrder uuid _ _ _ =>
    uuid ∉ (system.trading.orders ++ system.trading.closed).map StoredOrder.id
  | .cancelOrder _ _ _ _ => True

instance (system : TradingSystem) : DecidablePred (NewOrderId system)
  | .placeOrder uuid _ _ _ => inferInstanceAs
      (Decidable (uuid ∉ (system.trading.orders ++ system.trading.closed).map StoredOrder.id))
  | .cancelOrder _ _ _ _ => inferInstanceAs (Decidable True)

section Steps

variable {codec : DecimalCodec} {system : TradingSystem} {files : CallFiles}

theorem Synced.bookInv (h : Synced parse system) (symbol : String) :
    Inv (bookOf system.engine symbol) := bookOf_inv h.inv symbol

/-- Another state of the same orders and books. -/
theorem Synced.of_same (h : Synced parse system) {system' : TradingSystem}
    (hinv : MatchingEngine.CoreInv system'.engine)
    (horders : system'.trading.orders = system.trading.orders)
    (hclosed : system'.trading.closed = system.trading.closed)
    (hbooks : system'.engine.books = system.engine.books) : Synced parse system' := by
  refine ⟨hinv, ⟨horders ▸ h.tidy.ids, hclosed ▸ h.tidy.closed⟩, fun symbol => ?_, fun symbol => ?_⟩
  · rw [bookOf_congr hbooks, horders]
    exact h.book symbol
  · rw [bookOf_congr hbooks]
    exact h.stops symbol

/-- A state in which the book of one symbol has changed, and the orders with it. -/
theorem Synced.of_places (h : Synced parse system) {system' : TradingSystem} {symbol : String}
    {book : OrderBook} (hinv : MatchingEngine.CoreInv system'.engine)
    (hplaces : Places parse symbol system.trading system'.trading book)
    (hstops : book.stopOrders = [])
    (hbooks : ∀ symbol', bookOf system'.engine symbol'
      = if symbol' = symbol then book else bookOf system.engine symbol') : Synced parse system' := by
  refine ⟨hinv, hplaces.tidy, fun symbol' => ?_, fun symbol' => ?_⟩
  · rw [hbooks]
    split
    · rename_i hs
      rw [hs]
      exact hplaces.book
    · rename_i hs
      rw [hplaces.others symbol' hs]
      exact h.book symbol'
  · rw [hbooks]
    split
    · exact hstops
    · exact h.stops symbol'

/-- What `placeOrder` has prepared. -/
theorem prepare_spec {uuid : String} {dto : PlaceOrderDto} {order : StoredOrder}
    (h : system.prepare uuid dto = .ok order) :
    order.id = uuid ∧ order.filledQuantity = 0 ∧ isSymbol order.symbol = true := by
  obtain ⟨_, _, h⟩ := bind_eq_ok.mp h
  obtain ⟨order', hnew, h⟩ := bind_eq_ok.mp h
  obtain ⟨lock, _, h⟩ := bind_eq_ok.mp h
  cases h
  have hspec := newOrder_spec hnew
  exact ⟨hspec.id, hspec.unfilled, hspec.symbol⟩

/-- **An order that the engine answers.** -/
theorem Synced.submitted (h : Synced parse system) {order : StoredOrder}
    {request : MatchingEngine.Order} {report : ExecutionReport} {uuid : UuidSource} {book : OrderBook}
    (hrequest : engineOrder parse order = some request) (hfilled : order.filledQuantity = 0)
    (hnew : order.id ∉ system.trading.orders.map StoredOrder.id)
    (hkeeps : KeepsOrder true (bookOf system.engine order.symbol) order request)
    (hx : MatchingEngine.Submitted uuid (bookOf system.engine order.symbol) request report book) :
    Places parse order.symbol system.trading (system.trading.takeReport order report).2 book ∧
      book.stopOrders = [] := by
  have hsim := h.book order.symbol
  have hinv := h.bookInv order.symbol
  have hstops := h.stops order.symbol
  cases hx with
  | refused reason why =>
      rw [KeepsOrder, if_pos (Or.inr why.refuses)] at hkeeps
      exact ⟨Places.refused hsim h.tidy rfl hkeeps, hstops⟩
  | held ha hkind hstop =>
      have hnot := ha.not_refuses (fun _ => hstop) fun hpost => by
        rw [hpost] at hkind
        cases hkind
      rw [KeepsOrder, if_neg (by rw [hnot]; simp), hkind] at hkeeps
      cases hkeeps.1
  | killed ha hkind hshort =>
      exact ⟨(Mirrors.refl hsim).done h.tidy (fun _ => rfl) rfl
        (TradingService.shouldRest_done .expired (mapOrderStatus_wire .expired) (by simp) (by simp)),
        hstops⟩
  | executed ha hkind hpost hfok _ _ result =>
      have hnot := ha.not_refuses (fun hstop => by rw [hkind] at hstop; cases hstop) hpost
      rw [KeepsOrder, if_neg (by rw [hnot]; simp)] at hkeeps
      refine ⟨Places.executed h.tidy hsim hinv ha hrequest hfilled hnew ?_ result,
        (result.frame hinv ha).1.trans hstops⟩
      rcases hkeeps.2 with ⟨hk, hshort⟩ | hleft
      · exact absurd (hfok hk) (not_le.mpr hshort)
      · exact hleft

theorem Synced.placeOrder (h : Synced parse system) {uuid : String} {source : UuidSource}
    {dto : PlaceOrderDto} (hkeeps : Keeps parse system (.placeOrder uuid files source dto))
    (hnew : NewOrderId system (.placeOrder uuid files source dto)) :
    Synced parse (system.placeOrder codec parse uuid files source dto).2 := by
  rw [TradingSystem.placeOrder]
  cases hprepare : system.prepare uuid dto with
  | error e => exact h
  | ok order =>
      obtain ⟨hid, hfilled, hsymbol⟩ := prepare_spec hprepare
      rw [Keeps, KeepsPlaced, hprepare] at hkeeps
      dsimp only at hkeeps ⊢
      rw [submitToEngine]
      cases hrequest : engineOrder parse order with
      | none => exact h.of_same h.inv (by simp) (by simp) rfl
      | some request =>
          rw [hrequest] at hkeeps
          dsimp only at hkeeps
          obtain ⟨report, dropped, engine, hsubmit, hinv, hcase⟩ := submitOrder_cases codec files source
            request h.inv (normalizeSymbol_of_isSymbol hsymbol) (h.stops order.symbol)
          simp only [hsubmit]
          -- the order is locked for before it is sent
          have hlocked : Synced parse
              ⟨system.trading.lockBalance order order.lockedAmount, system.engine⟩ :=
            h.of_same h.inv rfl rfl rfl
          have hfresh : order.id ∉ system.trading.orders.map StoredOrder.id := by
            intro hin
            rw [hid] at hin
            exact hnew (by rw [List.map_append]; exact List.mem_append_left _ hin)
          rcases hcase with ⟨hlogs, haccepted, _, rfl⟩ | ⟨book, hlogs, hx, hbooks⟩
          · rw [KeepsOrder, if_pos (Or.inl hlogs)] at hkeeps
            refine hlocked.of_places h.inv
              (Places.refused (hlocked.book order.symbol) hlocked.tidy haccepted hkeeps)
              (h.stops order.symbol) fun symbol' => ?_
            split
            · rename_i hs
              rw [hs]
            · rfl
          · have hkeeps : KeepsOrder true (bookOf system.engine order.symbol) order request := by
              rw [← hlogs]
              exact hkeeps
            obtain ⟨hplaces, hstops⟩ := hlocked.submitted hrequest hfilled hfresh hkeeps hx
            exact hlocked.of_places hinv hplaces hstops (bookOf_insert hbooks)

/-- **A cancellation of the service is one among the open orders.** -/
theorem Synced.cancelled (h : Synced parse system) {symbol orderId userId : String} {done : Bool}
    {book : OrderBook}
    (hx : MatchingEngine.Cancelled (bookOf system.engine symbol) orderId userId done book) :
    Places parse symbol system.trading
      (system.trading.takeCancel orderId symbol userId done) book := by
  obtain ⟨opens, hcancel, hsim⟩ := (h.book symbol).cancel (h.bookInv symbol) (h.stops symbol) hx
  rw [MatchingEngine.Naive.cancel] at hcancel
  by_cases hany : ((opensOf parse symbol system.trading.orders).any fun o =>
      decide (o.orderId = orderId ∧ o.userId = userId)) = true
  · rw [if_pos hany] at hcancel
    obtain ⟨hdone, rfl⟩ := Prod.mk.inj hcancel
    obtain rfl : true = done := MatchingEngine.Naive.Reply.cancelled.inj hdone
    obtain ⟨x, hx, hmatch⟩ := List.any_eq_true.mp hany
    obtain ⟨o, ho, rfl, rfl⟩ := mem_opensOf.mp hx
    obtain ⟨hid, huser⟩ : o.id = orderId ∧ o.userId = userId := of_decide_eq_true hmatch
    subst hid huser
    obtain ⟨horders, hclosed⟩ := TradingService.takeCancel_done h.tidy.ids ho
    refine ⟨?_, h.tidy.evolves (Evolves.remove horders hclosed rfl), fun symbol' hne => ?_⟩
    · rw [horders, opensOf_remove]
      exact hsim
    · rw [horders, opensOf_remove, List.filter_eq_self]
      intro x hx
      obtain ⟨o', ho', rfl, rfl⟩ := mem_opensOf.mp hx
      refine decide_eq_true fun hid => hne ?_
      rw [eq_of_id h.tidy.ids ho' ho hid]
  · rw [if_neg hany] at hcancel
    obtain ⟨hdone, rfl⟩ := Prod.mk.inj hcancel
    obtain rfl : false = done := MatchingEngine.Naive.Reply.cancelled.inj hdone
    exact ⟨hsim, h.tidy, fun _ _ => rfl⟩

theorem Synced.cancelOrder (h : Synced parse system) (orderId symbol userId : String) :
    Synced parse (system.cancelOrder files orderId symbol userId).2 := by
  rw [TradingSystem.cancelOrder]
  cases hrequire : requireSymbol symbol with
  | error e => exact h
  | ok s =>
      rw [requireSymbol] at hrequire
      split at hrequire
      · rename_i his
        cases hrequire
        obtain ⟨done, engine, hcancel, hinv, hcase⟩ :=
          cancelOrder_cases files orderId userId h.inv (normalizeSymbol_of_isSymbol his)
        simp only [hcancel]
        rcases hcase with ⟨rfl, hbooks⟩ | ⟨book, _, hx, hbooks⟩
        · exact h.of_same hinv rfl rfl hbooks
        · have hstops := hx.stopOrders_subset
          rw [h.stops symbol] at hstops
          exact h.of_places hinv (h.cancelled hx) (List.subset_nil.mp hstops) (bookOf_insert hbooks)
      · cases hrequire

/-- **A call that meets the condition** keeps the service and the engine in step. -/
theorem Synced.step (h : Synced parse system) {call : TradingCall} {reply : TradingReply}
    {system' : TradingSystem} (hkeeps : Keeps parse system call) (hnew : NewOrderId system call)
    (hstep : TradingSystem.exec codec parse system call = .ok (reply, system')) :
    Synced parse system' := by
  cases call with
  | placeOrder uuid files source dto =>
      have hnext : (system.placeOrder codec parse uuid files source dto).2 = system' :=
        congrArg Prod.snd (Except.ok.inj hstep)
      rw [← hnext]
      exact h.placeOrder hkeeps hnew
  | cancelOrder files orderId symbol userId =>
      have hnext : (system.cancelOrder files orderId symbol userId).2 = system' :=
        congrArg Prod.snd (Except.ok.inj hstep)
      rw [← hnext]
      exact h.cancelOrder orderId symbol userId

end Steps

/-! ### Agreement -/

/-- The orders that the engine holds for a symbol: those that rest and the pending stop orders. -/
def liveOrders (engine : Core) (symbol : String) : List MatchingEngine.Order :=
  (bookOf engine symbol).queuedOrders .buy ++ (bookOf engine symbol).queuedOrders .sell
    ++ (bookOf engine symbol).stopOrders

/-- **The service and the engine agree on the live orders.** -/
structure Agreement (system : TradingSystem) : Prop where
  ids : ∀ symbol id, (∃ o ∈ system.trading.orders, o.symbol = symbol ∧ o.id = id) ↔
    id ∈ orderIds (liveOrders system.engine symbol)
  remaining : ∀ o ∈ system.trading.orders, ∀ live ∈ liveOrders system.engine o.symbol,
    live.orderId = o.id → o.quantity - o.filledQuantity = live.remainingQuantity
  locks : ∀ o ∈ system.trading.orders ++ system.trading.closed,
    o.id ∉ orderIds (liveOrders system.engine o.symbol) → o.lockedAmount = 0

theorem Synced.mem_liveOrders {system : TradingSystem} (h : Synced parse system) {symbol : String}
    {live : MatchingEngine.Order} (hlive : live ∈ liveOrders system.engine symbol) :
    live.toOpen ∈ opensOf parse symbol system.trading.orders := by
  rw [liveOrders, h.stops symbol, List.append_nil] at hlive
  rcases List.mem_append.mp hlive with hlive | hlive <;>
  · obtain ⟨price, l, hl, hmem⟩ := MatchingEngine.mem_queuedOrders.mp hlive
    exact (h.book symbol).toOpen_mem hl hmem

theorem Synced.live_of_open {system : TradingSystem} (h : Synced parse system) {symbol : String}
    {x : OpenOrder} (hx : x ∈ opensOf parse symbol system.trading.orders) :
    ∃ live ∈ liveOrders system.engine symbol, live.toOpen = x := by
  obtain ⟨l, live, hl, hmem, rfl⟩ := (h.book symbol).mem hx
  refine ⟨live, List.mem_append_left _ (List.mem_append.mpr ?_), rfl⟩
  have hqueued := MatchingEngine.mem_queuedOrders.mpr ⟨_, l, hl, hmem⟩
  cases hside : live.toOpen.side with
  | buy => exact Or.inl (hside ▸ hqueued)
  | sell => exact Or.inr (hside ▸ hqueued)

/-- **In step, the two sides agree.** -/
theorem Synced.agreement {system : TradingSystem} (h : Synced parse system) : Agreement system := by
  have hids : ∀ symbol id, (∃ o ∈ system.trading.orders, o.symbol = symbol ∧ o.id = id) ↔
      id ∈ orderIds (liveOrders system.engine symbol) := by
    intro symbol id
    constructor
    · rintro ⟨o, ho, hsymbol, rfl⟩
      obtain ⟨live, hlive, hopen⟩ := h.live_of_open (mem_opensOf.mpr ⟨o, ho, hsymbol, rfl⟩)
      exact List.mem_map.mpr ⟨live, hlive, congrArg OpenOrder.orderId hopen⟩
    · intro hid
      obtain ⟨live, hlive, rfl⟩ := List.mem_map.mp hid
      obtain ⟨o, ho, hsymbol, hopen⟩ := mem_opensOf.mp (h.mem_liveOrders hlive)
      exact ⟨o, ho, hsymbol, congrArg OpenOrder.orderId hopen⟩
  refine ⟨hids, ?_, ?_⟩
  · intro o ho live hlive hid
    obtain ⟨o', ho', _, hopen⟩ := mem_opensOf.mp (h.mem_liveOrders hlive)
    obtain rfl : o' = o := eq_of_id h.tidy.ids ho' ho ((congrArg OpenOrder.orderId hopen).trans hid)
    exact congrArg OpenOrder.remaining hopen
  · intro o ho hdead
    rcases List.mem_append.mp ho with ho | ho
    · exact absurd ((hids o.symbol o.id).mp ⟨o, ho, rfl, rfl⟩) hdead
    · exact h.tidy.closed o ho

/-- Two users, and an engine without books. -/
def quietMarket : TradingSystem where
  trading :=
    { users := (SortedMap.empty.insert "alice" .active).insert "bob" .active
      accounts := [⟨"account-1", "alice", false⟩, ⟨"account-2", "bob", false⟩]
      makerFeeBps := 2
      takerFeeBps := 4
      orders := []
      closed := []
      requests := [] }
  engine := .new

/-- An order for bitcoin. -/
def bitcoinOrder (userId accountId : String) (side : Side) (type : OrderKind) (price : Decimal)
    (stopPrice : Option Decimal) (quantity : Decimal) : PlaceOrderDto where
  userId := userId
  accountId := accountId
  symbol := "BTC-USDT"
  side := side
  type := type
  price := some (.number (.fin price))
  stopPrice := stopPrice.map fun q => .number (.fin q)
  quantity := .number (.fin quantity)

/-- An offer of two, half of it taken, the rest cancelled. -/
def halfTakenThenCancelled : List TradingCall :=
  [.placeOrder "order-1" MatchingEngine.filesOk (fun _ => "first")
      (bitcoinOrder "alice" "account-1" .sell .limit 100 none 2),
    .placeOrder "order-2" MatchingEngine.filesOk (fun _ => "second")
      (bitcoinOrder "bob" "account-2" .buy .limit 100 none 1),
    .cancelOrder MatchingEngine.filesOk "order-1" "BTC-USDT" "alice"]

end NexusTrade.Trading
