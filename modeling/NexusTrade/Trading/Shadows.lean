import NexusTrade.Trading.Retries

/-!
# The orders behind a book

The service may have more orders than the book of a symbol, but what rests there is an order of the service.

* **`Shadowed`**: what rests in a book are orders of the service, with the quantity that is left of them;
* **`Shadowed.submitted`**: an answered submission keeps that, unless the service cannot follow the order;
* **`unlocks_takeReport`**: what the answer to a submission unlocks.
-/

namespace NexusTrade.Trading

open MatchingEngine (Decimal ExecutionReport OrderBook MatchState UuidSource Inv LoopInv Simulates Trades
  CanTrade Submitted Executed orderIds)
open MatchingEngine.Naive (OpenOrder)

/-! ### The orders behind a book -/

/-- What rests in a book are orders of the service. -/
def Shadowed (parse : DecimalParser) (symbol : String) (orders : List StoredOrder) (book : OrderBook) :
    Prop :=
  ∃ opens, Simulates book opens ∧ opens ⊆ opensOf parse symbol orders

variable {parse : DecimalParser} {symbol : String}

theorem Shadowed.of_levels {orders : List StoredOrder} {book book' : OrderBook}
    (h : Shadowed parse symbol orders book) (hlevels : ∀ side, book'.levels side = book.levels side) :
    Shadowed parse symbol orders book' := by
  obtain ⟨opens, hsim, hsub⟩ := h
  exact ⟨opens, hsim.of_levels hlevels, hsub⟩

theorem Shadowed.mono {orders orders' : List StoredOrder} {book : OrderBook}
    (h : Shadowed parse symbol orders book) (hsub : orders ⊆ orders') :
    Shadowed parse symbol orders' book := by
  obtain ⟨opens, hsim, hopens⟩ := h
  exact ⟨opens, hsim, List.Subset.trans hopens (List.filterMap_subset _ hsub)⟩

/-- An order that is queued is one of the service. -/
theorem Shadowed.order {orders : List StoredOrder} {book : OrderBook}
    (h : Shadowed parse symbol orders book) {live : MatchingEngine.Order} (hlive : live ∈ book.liveOrders)
    (hstops : book.stopOrders = []) :
    ∃ o ∈ orders, o.symbol = symbol ∧ o.toOpen parse = live.toOpen := by
  obtain ⟨opens, hsim, hsub⟩ := h
  rcases MatchingEngine.mem_liveOrders.mp hlive with ⟨side, price, l, hl, hmem⟩ | hpending
  · exact mem_opensOf.mp (hsub (hsim.toOpen_mem hl hmem))
  · rw [hstops] at hpending
    cases hpending

/-- What ties the service to the book while the trades of an order are applied. -/
structure Shadows (parse : DecimalParser) (symbol : String) (before after : TradingService)
    (book : OrderBook) : Prop where
  book : Shadowed parse symbol after.orders book
  ids : (after.orders.map StoredOrder.id).Sublist (before.orders.map StoredOrder.id)
  others : ∀ symbol', symbol' ≠ symbol →
    opensOf parse symbol' after.orders = opensOf parse symbol' before.orders

/-- **A trade of the loop keeps the maker an order of the service**, as long as it rests. -/
theorem Shadows.trade {before service : TradingService} {s : MatchState} {price : Decimal}
    {level : MatchingEngine.PriceLevel} {resting : MatchingEngine.Order}
    {queue : List MatchingEngine.Order} (h : Shadows parse symbol before service s.book)
    (hids : (before.orders.map StoredOrder.id).Nodup) (hs : LoopInv s)
    (hc : CanTrade s price level resting queue) (uuid : UuidSource) {trade : Trade}
    (hmaker : trade.makerOrderId = resting.orderId)
    (hquantity : trade.quantity = MatchingEngine.tradeQuantity s.incoming resting) :
    Shadows parse symbol before (service.applyFillToLocalOrders trade)
      (s.trade uuid price level resting queue).book := by
  have hnodup := hids.sublist h.ids
  obtain ⟨opens, hsim, hsub⟩ := h.book
  obtain ⟨hown, hothers⟩ := opensOf_traded hnodup (hsub (hsim.toOpen_mem hc.atLevel hc.front_mem)) hmaker
    hquantity
  refine ⟨⟨_, hsim.trade hs hc uuid, ?_⟩, (applyFill_evolves trade hnodup).ids.trans h.ids,
    fun symbol' hne => ?_⟩
  · rw [hown]
    exact List.filterMap_subset _ hsub
  · rw [hothers symbol' hne, h.others symbol' hne]

/-- **The trades of the loop.** -/
theorem Shadows.trades {service : TradingService} (order : StoredOrder) {uuid : UuidSource}
    {s t : MatchState} (hbook : Shadowed parse symbol service.orders s.book)
    (hids : (service.orders.map StoredOrder.id).Nodup) (hs : LoopInv s) (hfills : s.fills = [])
    (h : Trades uuid s t) :
    Shadows parse symbol service (service.applyTrades order (t.fills.map (service.toTrade order)))
      t.book := by
  refine (MatchingEngine.trades_preserve (P := fun t => LoopInv t ∧ Shadows parse symbol service
    (service.applyTrades order (t.fills.map (service.toTrade order))) t.book) ?_ h ⟨hs, ?_⟩).2
  · rintro t u ⟨ht, hshadows⟩ htu
    refine ⟨ht.step htu, ?_⟩
    obtain ⟨price, level, resting, queue, hc, rfl⟩ := htu
    rw [MatchState.trade_fills, List.map_append, List.map_singleton, applyTrades_snoc]
    have hsettled : Shadows parse symbol service ((service.applyTrades order
        (t.fills.map (service.toTrade order))).settleTrade order
          (service.toTrade order (t.fill uuid price resting))) t.book :=
      ⟨hshadows.book, hshadows.ids, hshadows.others⟩
    exact hsettled.trade hids ht hc uuid rfl rfl
  · rw [hfills]
    exact ⟨hbook, List.Sublist.refl _, fun _ _ => rfl⟩

/-! ### The answer of the engine -/

namespace TradingService

variable {service : TradingService} {order : StoredOrder} {report : ExecutionReport}

@[simp] theorem takerFeeBps_unlockBalance (order : StoredOrder) (q : Decimal) :
    (service.unlockBalance order q).takerFeeBps = service.takerFeeBps := by
  rw [unlockBalance]
  split <;> rfl

theorem takerFeeBps_applyFill (service : TradingService) (trade : Trade) :
    (service.applyFillToLocalOrders trade).takerFeeBps = service.takerFeeBps := by
  rw [applyFillToLocalOrders]
  split
  · rfl
  · split
    · rfl
    · dsimp only
      split
      · exact takerFeeBps_unlockBalance _ _
      · rfl

/-- The fees stay as they are. -/
theorem takerFeeBps_tradedBy : (service.tradedBy order report).takerFeeBps = service.takerFeeBps := by
  rw [tradedBy, applyTrades]
  generalize report.fills.map (service.toTrade order) = trades
  induction trades using List.reverseRecOn with
  | nil => rfl
  | append_singleton trades trade ih =>
      rw [List.foldl_append, List.foldl_cons, List.foldl_nil, takerFeeBps_applyFill]
      exact ih

theorem takeReport_order (h : report.accepted = true) :
    (service.takeReport order report).1 = (service.settledBy order report).1 := by
  rw [takeReport, if_neg (by rw [h]; simp)]
  rfl

/-- What a report that is accepted leaves locked. -/
theorem settledBy_lockedAmount :
    (service.settledBy order report).1.lockedAmount
      = if shouldRest (service.filledBy order report) = true then
          remainingLock (service.settledBy order report).1 (splitSymbol order.symbol).2 service.takerFeeBps
        else 0 := by
  have hfees : (service.tradedBy order report).takerFeeBps = service.takerFeeBps := takerFeeBps_tradedBy
  rw [← hfees]
  rfl

variable (service order) in
/-- The orders after a report are those after its trades, and perhaps the order that was placed. -/
theorem orders_takeReport (hfills : report.accepted = false → report.fills = []) :
    ∃ rest, (service.takeReport order report).2.orders
        = (service.tradedBy order report).orders ++ rest ∧
      (rest = [] ∨ rest = [(service.settledBy order report).1] ∧ report.accepted = true ∧
        (service.settledBy order report).1.lockedAmount
          = remainingLock (service.settledBy order report).1 (splitSymbol order.symbol).2
            service.takerFeeBps) := by
  cases haccepted : report.accepted with
  | false =>
      refine ⟨[], ?_, Or.inl rfl⟩
      rw [(takeReport_refused service order haccepted).1, tradedBy, hfills haccepted, List.append_nil]
      rfl
  | true =>
      cases hrest : shouldRest (service.filledBy order report) with
      | false => exact ⟨[], (takeReport_done haccepted hrest).1.trans (List.append_nil _).symm, Or.inl rfl⟩
      | true =>
          refine ⟨_, (takeReport_rests service order report haccepted hrest).1, Or.inr ⟨rfl, rfl, ?_⟩⟩
          rw [settledBy_lockedAmount, if_pos hrest]

end TradingService

section Answered

variable {service : TradingService} {order : StoredOrder} {request : MatchingEngine.Order}
  {report : ExecutionReport} {uuid : UuidSource} {book book' : OrderBook}

/-- The request has the identifier and the kind of the order. -/
theorem engineOrder_same (h : engineOrder parse order = some request) :
    request.orderId = order.id ∧ request.kind = order.type := by
  obtain ⟨_, _, _, _, _, _, rfl⟩ := engineOrder_fields h
  exact ⟨rfl, rfl⟩

/-- **An order that goes through the matching loop.** -/
theorem Shadowed.executed (hids : (service.orders.map StoredOrder.id).Nodup)
    (hbook : Shadowed parse order.symbol service.orders book) (hinv : Inv book)
    (ha : MatchingEngine.Admissible book request) (hrequest : engineOrder parse order = some request)
    (hfilled : order.filledQuantity = 0)
    (hread : order.id ∈ orderIds book'.liveOrders → Followed parse order)
    (hx : Executed uuid book request report book') :
    Shadowed parse order.symbol (service.takeReport order report).2.orders book' ∧
      ∃ b, Shadows parse order.symbol service (service.tradedBy order report) b := by
  have hstart := LoopInv.start hinv ha
  have hmirrors : ∀ t, Trades uuid (book.startMatch request) t → report.fills = t.fills →
      Shadows parse order.symbol service (service.tradedBy order report) t.book := by
    intro t trades hfills
    rw [TradingService.tradedBy, hfills]
    refine Shadows.trades order (hbook.of_levels fun side => ?_) hids hstart rfl trades
    cases side <;> rfl
  obtain ⟨rest, horders, _⟩ := TradingService.orders_takeReport service order hx.no_fills
  -- where nothing rests, the orders are those that the trades leave, and perhaps one more
  have hdone : ∀ t, Trades uuid (book.startMatch request) t → report.fills = t.fills →
      (∀ side, book'.levels side = t.book.levels side) →
      Shadowed parse order.symbol (service.takeReport order report).2.orders book' ∧
        ∃ b, Shadows parse order.symbol service (service.tradedBy order report) b := by
    intro t trades hfills hlevels
    have hshadows := hmirrors t trades hfills
    refine ⟨(hshadows.book.of_levels hlevels).mono ?_, _, hshadows⟩
    rw [horders]
    exact List.subset_append_left _ _
  cases hx with
  | blocked t trades _ _ => exact hdone t trades rfl fun side => by cases side <;> rfl
  | finished t trades inv exhausted st settled hsettled =>
      cases hsettled with
      | filled _ => exact hdone t trades rfl fun side => t.book.levels_close _ _ _ side
      | dropped _ _ => exact hdone t trades rfl fun side => t.book.levels_close _ _ _ side
      | expired _ _ => exact hdone t trades rfl fun side => t.book.levels_close _ _ _ side
      | rested hrest _ price hprice =>
          have hid : t.incoming.orderId = order.id :=
            (MatchingEngine.trades_orderId trades).trans (engineOrder_same hrequest).1
          have hlive := MatchingEngine.rested_live t.book t.incoming price
            (if t.fills.isEmpty then .new else .partiallyFilled)
            (t.incoming.originalQuantity - t.incoming.remainingQuantity)
          -- the order rests, so the service can follow it
          have hfollowed := hread (hid ▸ List.mem_map_of_mem hlive)
          have hopen := toOpen_settledBy service
            (OrderBook.finishReport t (if t.fills.isEmpty then .new else .partiallyFilled)) hrequest
            hfilled (hfollowed.2 request hrequest) trades rfl
          have hstill := quantity_left hrequest hfilled (hfollowed.2 request hrequest) trades inv hrest
          obtain ⟨horders, _⟩ := TradingService.takeReport_rests service order
            (OrderBook.finishReport t (if t.fills.isEmpty then .new else .partiallyFilled)) rfl
            (TradingService.shouldRest_open hstill (rested_status t))
          have hshadows := hmirrors t trades rfl
          obtain ⟨opens, hsim, hsub⟩ := hshadows.book
          refine ⟨⟨opens ++ [t.incoming.toOpen],
            (hsim.restAt hprice).of_levels fun side => OrderBook.levels_close _ _ _ _ side, ?_⟩,
            _, hshadows⟩
          rw [horders, opensOf_append, ← hopen]
          refine List.append_subset.mpr ⟨List.subset_append_of_subset_left _ hsub,
            List.subset_append_of_subset_right _ ?_⟩
          intro x hx
          rw [List.mem_singleton.mp hx]
          exact mem_opensOf.mpr ⟨_, List.mem_singleton_self _, rfl, rfl⟩

/-- The trades of a report without fills are none. -/
theorem tradedBy_nothing (service : TradingService) (order : StoredOrder) (h : report.fills = []) :
    service.tradedBy order report = service := by
  rw [TradingService.tradedBy, h]
  rfl

/-- **An order that the engine answers**, unless the service cannot follow it. -/
theorem Shadowed.submitted (hids : (service.orders.map StoredOrder.id).Nodup)
    (hbook : Shadowed parse order.symbol service.orders book) (hinv : Inv book)
    (hrequest : engineOrder parse order = some request) (hfilled : order.filledQuantity = 0)
    (hread : order.id ∈ orderIds book'.liveOrders → Followed parse order)
    (hx : Submitted uuid book request report book') :
    Shadowed parse order.symbol (service.takeReport order report).2.orders book' ∧
      (∃ b, Shadows parse order.symbol service (service.tradedBy order report) b) ∧
      (report.accepted = false → report.fills = []) ∧ book'.stopOrders = book.stopOrders := by
  -- where nothing trades, the orders of the service are still there
  have hidle : report.fills = [] → book' = book →
      Shadowed parse order.symbol (service.takeReport order report).2.orders book' ∧
        ∃ b, Shadows parse order.symbol service (service.tradedBy order report) b := by
    rintro hfills rfl
    obtain ⟨rest, horders, _⟩ := TradingService.orders_takeReport service order fun _ => hfills
    rw [tradedBy_nothing service order hfills] at horders ⊢
    refine ⟨hbook.mono ?_, book', hbook, List.Sublist.refl _, fun _ _ => rfl⟩
    rw [horders]
    exact List.subset_append_left _ _
  cases hx with
  | refused _ _ =>
      obtain ⟨hshadowed, hshadows⟩ := hidle rfl rfl
      exact ⟨hshadowed, hshadows, fun _ => rfl, rfl⟩
  | held ha hkind hstop =>
      obtain ⟨hid, htype⟩ := engineOrder_same hrequest
      have hfollowed := (hread (hid ▸ MatchingEngine.held_live book request)).1
      rw [← htype, hkind] at hfollowed
      cases hfollowed
  | killed _ _ _ =>
      obtain ⟨hshadowed, hshadows⟩ := hidle rfl rfl
      exact ⟨hshadowed, hshadows, fun _ => rfl, rfl⟩
  | executed ha _ _ _ _ _ result =>
      obtain ⟨hshadowed, hshadows⟩ := hbook.executed hids hinv ha hrequest hfilled hread result
      exact ⟨hshadowed, hshadows, result.no_fills, (result.frame hinv ha).1⟩

end Answered

/-! ### What is unlocked -/

/-- The requests grew, and what was unlocked is of a kind. -/
def Unlocks (kind : Wallet.BalanceMutationDto → Prop) (before after : TradingService) : Prop :=
  ∃ new, after.requests = before.requests ++ new ∧
    ∀ mutation, WalletRequest.unlock mutation ∈ new → kind mutation

namespace Unlocks

variable {kind : Wallet.BalanceMutationDto → Prop} {s t u : TradingService}

theorem of_eq (h : t.requests = s.requests) : Unlocks kind s t :=
  ⟨[], by rw [h, List.append_nil], fun _ hm => nomatch hm⟩

theorem mono {kind' : Wallet.BalanceMutationDto → Prop} (h : Unlocks kind s t)
    (hkind : ∀ mutation, kind mutation → kind' mutation) : Unlocks kind' s t := by
  obtain ⟨new, ht, hnew⟩ := h
  exact ⟨new, ht, fun mutation hm => hkind mutation (hnew mutation hm)⟩

theorem trans (h : Unlocks kind s t) (h' : Unlocks kind t u) : Unlocks kind s u := by
  obtain ⟨new, ht, hnew⟩ := h
  obtain ⟨new', hu, hnew'⟩ := h'
  refine ⟨new ++ new', by rw [hu, ht, List.append_assoc], fun mutation hm => ?_⟩
  rcases List.mem_append.mp hm with hm | hm
  · exact hnew mutation hm
  · exact hnew' mutation hm

/-- A request that unlocks nothing. -/
theorem push {request : WalletRequest} (h : t.requests = s.requests ++ [request])
    (hnot : ∀ mutation, request ≠ .unlock mutation) : Unlocks kind s t := by
  refine ⟨[request], h, fun mutation hm => ?_⟩
  exact absurd (List.mem_singleton.mp hm).symm (hnot mutation)

theorem unlockBalance (service : TradingService) (order : StoredOrder) (amount : Decimal)
    (h : kind (TradingService.mutationOf order amount)) :
    Unlocks kind service (service.unlockBalance order amount) := by
  rw [TradingService.unlockBalance]
  split
  · exact of_eq rfl
  · refine ⟨_, rfl, fun mutation hm => ?_⟩
    cases List.mem_singleton.mp hm
    exact h

end Unlocks

/-- A fill unlocks nothing but what is left of an order of the service. -/
theorem unlocks_applyFill (service : TradingService) (trade : Trade) :
    Unlocks (fun mutation => mutation.referenceId ∈ service.orders.map StoredOrder.id) service
      (service.applyFillToLocalOrders trade) := by
  rw [TradingService.applyFillToLocalOrders]
  split
  · exact Unlocks.of_eq rfl
  · split
    · exact Unlocks.of_eq rfl
    · rename_i maker hget
      dsimp only
      split
      · have hmaker : maker.id ∈ service.orders.map StoredOrder.id :=
          List.mem_map_of_mem (List.mem_of_getElem? hget)
        exact (Unlocks.unlockBalance service _ _ hmaker).trans (Unlocks.of_eq rfl)
      · exact Unlocks.of_eq rfl

/-- The trades of a report unlock nothing but what is left of orders of the service. -/
theorem unlocks_tradedBy (service : TradingService) (order : StoredOrder) (report : ExecutionReport)
    (hids : (service.orders.map StoredOrder.id).Nodup) :
    Unlocks (fun mutation => mutation.referenceId ∈ service.orders.map StoredOrder.id) service
      (service.tradedBy order report) := by
  rw [TradingService.tradedBy]
  generalize report.fills.map (service.toTrade order) = trades
  have hall : (((service.applyTrades order trades).orders.map StoredOrder.id).Sublist
      (service.orders.map StoredOrder.id)) ∧
      Unlocks (fun mutation => mutation.referenceId ∈ service.orders.map StoredOrder.id) service
        (service.applyTrades order trades) := by
    induction trades using List.reverseRecOn with
    | nil => exact ⟨List.Sublist.refl _, Unlocks.of_eq rfl⟩
    | append_singleton trades trade ih =>
        obtain ⟨hsub, hunlocks⟩ := ih
        rw [applyTrades_snoc]
        have hsettled : Unlocks (fun mutation => mutation.referenceId ∈ service.orders.map StoredOrder.id)
            (service.applyTrades order trades)
            ((service.applyTrades order trades).settleTrade order trade) :=
          Unlocks.push rfl fun _ h => nomatch h
        have hfilled := unlocks_applyFill ((service.applyTrades order trades).settleTrade order trade) trade
        have hids' : (((service.applyTrades order trades).settleTrade order trade).orders.map
            StoredOrder.id).Nodup := hids.sublist hsub
        exact ⟨(applyFill_evolves trade hids').ids.trans hsub,
          hunlocks.trans (hsettled.trans (hfilled.mono fun mutation hm => hsub.subset hm))⟩
  exact hall.2

/-- What is unlocked for an order is some amount. -/
def UnlocksOf (order : StoredOrder) (amount : Decimal) : TradingService → TradingService → Prop :=
  Unlocks fun mutation => mutation.referenceId = order.id → mutation.amount = .fin amount

/-- **What a report that is accepted unlocks of the lock of the order** is what neither its fills nor what
is left of it need. -/
theorem unlocks_takeReport {service : TradingService} {order : StoredOrder} {report : ExecutionReport}
    (hids : (service.orders.map StoredOrder.id).Nodup)
    (hnew : order.id ∉ service.orders.map StoredOrder.id) (h : report.accepted = true) :
    UnlocksOf order (order.lockedAmount - consumedLock service order report.fills
      - (service.takeReport order report).1.lockedAmount) service (service.takeReport order report).2 := by
  have htraded : UnlocksOf order (order.lockedAmount - consumedLock service order report.fills
      - (service.settledBy order report).1.lockedAmount) service (service.tradedBy order report) :=
    (unlocks_tradedBy service order report hids).mono fun mutation hm hown => absurd (hown ▸ hm) hnew
  have hconsumed : consumedLock (service.tradedBy order report) order report.fills
      = consumedLock service order report.fills := by
    rw [consumedLock, TradingService.takerFeeBps_tradedBy, consumedLock]
  have hsettled : (service.settledBy order report).2
      = (service.tradedBy order report).unlockBalance (service.filledBy order report)
        (order.lockedAmount - consumedLock (service.tradedBy order report) order report.fills
          - (service.settledBy order report).1.lockedAmount) := rfl
  have hunlocked : UnlocksOf order (order.lockedAmount - consumedLock service order report.fills
      - (service.settledBy order report).1.lockedAmount) (service.tradedBy order report)
      (service.settledBy order report).2 := by
    rw [hsettled, hconsumed]
    exact Unlocks.unlockBalance _ _ _ fun _ => rfl
  rw [TradingService.takeReport_order h]
  refine (htraded.trans hunlocked).trans (Unlocks.of_eq ?_)
  rw [TradingService.takeReport_accepted h]
  split <;> rfl

end NexusTrade.Trading
