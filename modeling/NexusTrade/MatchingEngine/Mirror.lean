import NexusTrade.Lib.Reflection
import NexusTrade.MatchingEngine.Accessors
import NexusTrade.MatchingEngine.Runs

/-!
# Buy and sell are mirror images

`mirror` flips the side of an order and negates its prices; it swaps the two sides of a book and negates
the prices of their levels.  Each branch of the order book that a side chooses is the mirror image of the
branch of the other side.

* **`submit_mirror`**, **`cancel_mirror`** and **`triggerStops_mirror`**: the operations commute with
  mirroring, because the level accessors, the checks and the matching loop do;
* **`depth_mirror`**: the depth of the mirrored book is the depth of the book, sides swapped;
* **`run_mirror`**: so do sequences of calls from the empty book.
-/

namespace NexusTrade.MatchingEngine

/-! ### The mirror image -/

theorem neg_strictAnti : StrictAnti fun d : Decimal => -d := fun _ _ h => neg_lt_neg h

theorem neg_onto : Function.Surjective fun d : Decimal => -d := neg_surjective

/-- The order on the other side, at negated prices. -/
def Order.mirror (order : Order) : Order :=
  { order with
    side := opposite order.side
    price := order.price.map fun d => -d
    stopPrice := order.stopPrice.map fun d => -d }

def Fill.mirror (fill : Fill) : Fill := { fill with price := -fill.price }

def ExecutionReport.mirror (report : ExecutionReport) : ExecutionReport :=
  { report with fills := report.fills.map Fill.mirror }

def PriceLevel.mirror (level : PriceLevel) : PriceLevel where
  price := -level.price
  orders := level.orders.map Order.mirror
  totalQuantity := level.totalQuantity

/-- The levels of a side, as levels of the other side. -/
def mirrorLevels (levels : SortedMap Decimal PriceLevel) : SortedMap Decimal PriceLevel :=
  levels.reflect (fun d => -d) neg_strictAnti PriceLevel.mirror

/-- An entry of the index. -/
def mirrorEntry (entry : Side × Decimal) : Side × Decimal := (opposite entry.1, -entry.2)

/-- The book with its sides swapped, at negated prices. -/
def OrderBook.mirror (book : OrderBook) : OrderBook where
  bids := mirrorLevels book.asks
  asks := mirrorLevels book.bids
  stopOrders := book.stopOrders.map Order.mirror
  orderIndex := book.orderIndex.mapValues mirrorEntry
  status := book.status
  auditLog := book.auditLog.map Fill.mirror
  nextSequence := book.nextSequence

def MatchState.mirror (s : MatchState) : MatchState :=
  ⟨s.book.mirror, s.incoming.mirror, s.fills.map Fill.mirror⟩

/-- What `depth` returns, with the two sides swapped and the prices negated. -/
def mirrorDepth (depth : List (Decimal × Decimal) × List (Decimal × Decimal)) :
    List (Decimal × Decimal) × List (Decimal × Decimal) :=
  (depth.2.map fun e => (-e.1, e.2), depth.1.map fun e => (-e.1, e.2))

/-! ### Checks of one order -/

theorem crosses_mirror (order : Order) (price : Decimal) :
    crosses order.mirror (-price) = crosses order price := by
  obtain ⟨orderId, userId, side, kind, limit, stop, original, remaining, sequence⟩ := order
  cases kind <;> cases side <;> cases limit <;> simp [crosses, Order.mirror, opposite]

theorem shouldTrigger_mirror (lastPrice stopPrice : Decimal) (side : Side) :
    OrderBook.shouldTrigger (-lastPrice) (-stopPrice) (opposite side)
      = OrderBook.shouldTrigger lastPrice stopPrice side := by
  cases side <;> simp [OrderBook.shouldTrigger, opposite]

theorem reduce_mirror (order : Order) (quantity : Decimal) :
    order.mirror.reduce quantity = (order.reduce quantity).mirror := rfl

/-! ### Levels -/

theorem push_mirror (level : PriceLevel) (order : Order) :
    (level.push order).mirror = level.mirror.push order.mirror := by
  simp only [PriceLevel.mirror, PriceLevel.push, List.map_append, List.map_cons, List.map_nil]
  rfl

theorem removeAt_mirror (level : PriceLevel) (pos : ℕ) (order : Order) :
    (level.removeAt pos order).mirror = level.mirror.removeAt pos order.mirror := by
  simp only [PriceLevel.mirror, PriceLevel.removeAt, List.eraseIdx_map]
  rfl

theorem tradeFront_mirror (level : PriceLevel) (resting : Order) (queue : List Order)
    (quantity : Decimal) :
    (level.tradeFront resting queue quantity).mirror
      = level.mirror.tradeFront resting.mirror (queue.map Order.mirror) quantity := by
  have hremaining : (resting.reduce quantity).mirror.remainingQuantity
      = (resting.reduce quantity).remainingQuantity := rfl
  simp only [PriceLevel.mirror, PriceLevel.tradeFront, reduce_mirror, hremaining]
  split <;> rfl

theorem isEmpty_mirror (level : PriceLevel) : level.mirror.orders.isEmpty = level.orders.isEmpty :=
  List.isEmpty_map

namespace OrderBook

variable (book : OrderBook)

/-! ### Updates commute with mirroring -/

theorem levels_mirror (side : Side) :
    book.mirror.levels (opposite side) = mirrorLevels (book.levels side) := by
  cases side <;> rfl

theorem level_mirror (side : Side) (price : Decimal) :
    book.mirror.level (opposite side) (-price) = (book.level side price).map PriceLevel.mirror := by
  rw [level, level, levels_mirror]
  exact SortedMap.find_reflect neg_strictAnti PriceLevel.mirror _ price

theorem bestPrice_mirror (side : Side) :
    book.mirror.bestPrice (opposite side) = (book.bestPrice side).map fun d => -d := by
  cases side with
  | buy =>
      show ((mirrorLevels book.asks).last.map Prod.fst) = _
      rw [mirrorLevels, SortedMap.last_reflect, Option.map_map, bestPrice, Option.map_map]
      rfl
  | sell =>
      show ((mirrorLevels book.bids).first.map Prod.fst) = _
      rw [mirrorLevels, SortedMap.first_reflect, Option.map_map, bestPrice, Option.map_map]
      rfl

theorem opposingLevels_mirror (side : Side) :
    book.mirror.opposingLevels (opposite side) = (book.opposingLevels side).map PriceLevel.mirror := by
  cases side with
  | buy =>
      show (mirrorLevels book.asks).values.reverse = _
      rw [mirrorLevels, SortedMap.values_reflect, List.reverse_reverse]
      rfl
  | sell =>
      show (mirrorLevels book.bids).values = _
      rw [mirrorLevels, SortedMap.values_reflect, ← List.map_reverse]
      rfl

theorem setLevels_mirror (side : Side) (levels : SortedMap Decimal PriceLevel) :
    (book.setLevels side levels).mirror
      = book.mirror.setLevels (opposite side) (mirrorLevels levels) := by
  cases side <;> rfl

theorem setStatus_mirror (id : String) (st : OrderStatus) (q : Decimal) :
    (book.setStatus id st q).mirror = book.mirror.setStatus id st q := rfl

theorem indexOrder_mirror (id : String) (side : Side) (price : Decimal) :
    (book.indexOrder id side price).mirror
      = book.mirror.indexOrder id (opposite side) (-price) := by
  simp only [OrderBook.mirror, indexOrder, SortedMap.mapValues_insert]
  rfl

theorem unindexOrder_mirror (id : String) :
    (book.unindexOrder id).mirror = book.mirror.unindexOrder id := by
  simp only [OrderBook.mirror, unindexOrder, SortedMap.mapValues_erase]

theorem pushFill_mirror (fill : Fill) :
    (book.pushFill fill).mirror = book.mirror.pushFill fill.mirror := by
  simp only [OrderBook.mirror, pushFill, List.map_append, List.map_cons, List.map_nil]

theorem nextSequenced_mirror : book.nextSequenced.mirror = book.mirror.nextSequenced := rfl

theorem setStopOrders_mirror (stops : List Order) :
    (book.setStopOrders stops).mirror = book.mirror.setStopOrders (stops.map Order.mirror) := rfl

theorem removeLevel_mirror (side : Side) (price : Decimal) :
    (book.removeLevel side price).mirror = book.mirror.removeLevel (opposite side) (-price) := by
  rw [removeLevel, removeLevel, setLevels_mirror, levels_mirror, mirrorLevels,
    SortedMap.reflect_erase neg_strictAnti PriceLevel.mirror _ neg_onto]
  rfl

theorem retainsStatus_mirror : book.mirror.retainsStatus = book.retainsStatus := by
  funext id entry
  rw [retainsStatus, retainsStatus]
  show ((book.orderIndex.mapValues mirrorEntry).contains id || _) = _
  rw [SortedMap.contains_mapValues]

theorem pruneStatusLog_mirror : book.pruneStatusLog.mirror = book.mirror.pruneStatusLog := by
  have hsize : book.mirror.status.size = book.status.size := rfl
  rw [pruneStatusLog, pruneStatusLog, hsize, retainsStatus_mirror]
  generalize maxOrderStatusEntries = room
  split <;> rfl

theorem pruneAuditLog_mirror : book.pruneAuditLog.mirror = book.mirror.pruneAuditLog := by
  have hlength : book.mirror.auditLog.length = book.auditLog.length := List.length_map _
  rw [pruneAuditLog, pruneAuditLog, hlength]
  generalize maxAuditLogFills = room
  split
  · simp only [OrderBook.mirror, List.map_drop]
  · rfl

theorem recordMaker_mirror (resting : Order) :
    (book.recordMaker resting).mirror = book.mirror.recordMaker resting.mirror := by
  have hremaining : resting.mirror.remainingQuantity = resting.remainingQuantity := rfl
  rw [recordMaker, recordMaker, hremaining]
  split
  · rw [setStatus_mirror, unindexOrder_mirror]
    rfl
  · rw [pruneStatusLog_mirror, setStatus_mirror]
    rfl

/-- A level that `or_insert_with` may have to create. -/
theorem find_getD_mirror (levels : SortedMap Decimal PriceLevel) (price : Decimal) :
    ((levels.find price).getD (.empty price)).mirror
      = ((mirrorLevels levels).find (-price)).getD (.empty (-price)) := by
  have hfind : (mirrorLevels levels).find (-price) = (levels.find price).map PriceLevel.mirror :=
    SortedMap.find_reflect neg_strictAnti PriceLevel.mirror levels price
  rw [hfind]
  cases levels.find price <;> rfl

theorem mirrorLevels_insert (levels : SortedMap Decimal PriceLevel) (price : Decimal)
    (level : PriceLevel) :
    mirrorLevels (levels.insert price level) = (mirrorLevels levels).insert (-price) level.mirror :=
  SortedMap.reflect_insert neg_strictAnti PriceLevel.mirror levels neg_onto price level

theorem mirrorLevels_modify (levels : SortedMap Decimal PriceLevel) (price : Decimal)
    (level : PriceLevel) :
    mirrorLevels (levels.modify price fun _ => level)
      = (mirrorLevels levels).modify (-price) fun _ => level.mirror :=
  SortedMap.reflect_modify neg_strictAnti PriceLevel.mirror levels neg_onto price level

theorem restAt_mirror (order : Order) (price : Decimal) :
    (book.restAt order price).mirror = book.mirror.restAt order.mirror (-price) := by
  have hside : order.mirror.side = opposite order.side := rfl
  simp only [restAt, pruneStatusLog_mirror, setStatus_mirror, indexOrder_mirror, setLevels_mirror,
    mirrorLevels_insert, push_mirror, find_getD_mirror, hside, levels_mirror]
  rfl

theorem close_mirror (id : String) (st : OrderStatus) (q : Decimal) :
    (book.close id st q).mirror = book.mirror.close id st q := by
  rw [close, close, pruneAuditLog_mirror, pruneStatusLog_mirror, setStatus_mirror]

theorem isSelfTrade_mirror (side : Side) (price : Decimal) (userId : String) :
    book.mirror.isSelfTrade (opposite side) (-price) userId = book.isSelfTrade side price userId := by
  rw [isSelfTrade, isSelfTrade, level_mirror]
  cases book.level side price with
  | none => rfl
  | some level =>
      simp only [Option.map_some, Option.bind_some, PriceLevel.mirror, List.head?_map]
      cases level.orders.head? <;> rfl

theorem wouldCross_mirror (order : Order) : book.mirror.wouldCross order.mirror = book.wouldCross order := by
  have hside : order.mirror.side = opposite order.side := rfl
  rw [wouldCross, wouldCross, hside, bestPrice_mirror]
  cases book.bestPrice order.side with
  | none => rfl
  | some price => exact crosses_mirror order price

theorem opposingOrders_mirror (side : Side) :
    book.mirror.opposingOrders (opposite side) = (book.opposingOrders side).map Order.mirror := by
  rw [opposingOrders, opposingOrders, opposingLevels_mirror, List.flatMap_map, List.map_flatMap]
  rfl

theorem availableInLevel_mirror (incoming : Order) (orders : List Order) : ∀ available : Decimal,
    availableInLevel incoming.mirror available (orders.map Order.mirror)
      = availableInLevel incoming available orders := by
  induction orders with
  | nil => exact fun available => rfl
  | cons order orders ih =>
      intro available
      have huser : order.mirror.userId = order.userId := rfl
      have hincoming : incoming.mirror.userId = incoming.userId := rfl
      have hremaining : order.mirror.remainingQuantity = order.remainingQuantity := rfl
      have hwanted : incoming.mirror.remainingQuantity = incoming.remainingQuantity := rfl
      rw [List.map_cons, availableInLevel, availableInLevel, huser, hincoming, hremaining, hwanted,
        ih, ih]

theorem availableInLevels_mirror (incoming : Order) (levels : List PriceLevel) :
    ∀ available : Decimal,
      availableInLevels incoming.mirror available (levels.map PriceLevel.mirror)
        = availableInLevels incoming available levels := by
  induction levels with
  | nil => exact fun available => rfl
  | cons level levels ih =>
      intro available
      have hcrosses : crosses incoming.mirror level.mirror.price = crosses incoming level.price :=
        crosses_mirror incoming level.price
      have hlevel : availableInLevel incoming.mirror available level.mirror.orders
          = availableInLevel incoming available level.orders :=
        availableInLevel_mirror incoming level.orders available
      rw [List.map_cons, availableInLevels, availableInLevels, hcrosses, hlevel]
      split
      · split
        · rfl
        · exact ih _
      · rfl

theorem availableCrossingQuantity_mirror (order : Order) :
    book.mirror.availableCrossingQuantity order.mirror = book.availableCrossingQuantity order := by
  have hside : order.mirror.side = opposite order.side := rfl
  rw [availableCrossingQuantity, availableCrossingQuantity, hside, opposingLevels_mirror]
  exact availableInLevels_mirror order (book.opposingLevels order.side) 0

/-- **Depth shows the two sides swapped.** -/
theorem depth_mirror (levels : ℕ) : book.mirror.depth levels = mirrorDepth (book.depth levels) := by
  rw [depth, depth, mirrorDepth]
  simp only [OrderBook.mirror, mirrorLevels, SortedMap.reflect, List.reverse_reverse, List.map_take,
    List.map_map, List.map_reverse]
  rfl

end OrderBook

/-! ### The matching loop -/

theorem fill_mirror (uuid : UuidSource) (s : MatchState) (price : Decimal) (resting : Order) :
    s.mirror.fill uuid (-price) resting.mirror = (s.fill uuid price resting).mirror := by
  have hlength : s.mirror.fills.length = s.fills.length := List.length_map _
  rw [MatchState.fill, hlength]
  rfl

theorem trade_mirror (uuid : UuidSource) (s : MatchState) (price : Decimal) (level : PriceLevel)
    (resting : Order) (queue : List Order) :
    (s.trade uuid price level resting queue).mirror
      = s.mirror.trade uuid (-price) level.mirror resting.mirror (queue.map Order.mirror) := by
  have hbook : s.mirror.book = s.book.mirror := rfl
  have hside : s.mirror.incoming.side = opposite s.incoming.side := rfl
  have hquantity : tradeQuantity s.mirror.incoming resting.mirror = tradeQuantity s.incoming resting :=
    rfl
  simp only [MatchState.trade, fill_mirror, hquantity, reduce_mirror, hbook, hside,
    OrderBook.levels_mirror, ← tradeFront_mirror, isEmpty_mirror]
  simp only [MatchState.mirror, apply_ite OrderBook.mirror, OrderBook.removeLevel_mirror,
    OrderBook.recordMaker_mirror, OrderBook.pushFill_mirror, OrderBook.setLevels_mirror,
    OrderBook.mirrorLevels_modify, List.map_append, List.map_cons, List.map_nil]
  rfl

/-- What a pass leads to, mirrored. -/
def Pass.mirror : Pass → Pass
  | .finished => .finished
  | .selfTrade => .selfTrade
  | .traded next => .traded next.mirror

theorem matchPass_mirror (uuid : UuidSource) (s : MatchState) :
    matchPass uuid s.mirror = (matchPass uuid s).map Pass.mirror := by
  have hbook : s.mirror.book = s.book.mirror := rfl
  have hside : s.mirror.incoming.side = opposite s.incoming.side := rfl
  have huser : s.mirror.incoming.userId = s.incoming.userId := rfl
  have hremaining : s.mirror.incoming.remainingQuantity = s.incoming.remainingQuantity := rfl
  rw [matchPass, matchPass, hbook, hside, huser, hremaining, OrderBook.bestPrice_mirror]
  split
  · rfl
  · cases s.book.bestPrice s.incoming.side with
    | none => rfl
    | some price =>
        have hcrosses : crosses s.mirror.incoming (-price) = crosses s.incoming price :=
          crosses_mirror s.incoming price
        simp only [Option.map_some, hcrosses, OrderBook.isSelfTrade_mirror, OrderBook.level_mirror]
        split
        · rfl
        · split
          · rfl
          · cases s.book.level (opposite s.incoming.side) price with
            | none => rfl
            | some level =>
                simp only [Option.map_some]
                cases hqueue : level.orders with
                | nil =>
                    have hmirrored : level.mirror.orders = [] := by rw [PriceLevel.mirror, hqueue]; rfl
                    simp only [hmirrored]
                    rfl
                | cons resting queue =>
                    have hmirrored : level.mirror.orders = resting.mirror :: queue.map Order.mirror := by
                      rw [PriceLevel.mirror, hqueue]
                      rfl
                    simp only [hmirrored, ← trade_mirror]
                    rfl

theorem matchLoop_mirror (uuid : UuidSource) (fuel : ℕ) : ∀ s : MatchState,
    matchLoop uuid fuel s.mirror = (matchLoop uuid fuel s).map fun r => (r.1, r.2.mirror) := by
  induction fuel with
  | zero => intro s; rfl
  | succ fuel ih =>
      intro s
      rw [matchLoop, matchLoop, matchPass_mirror]
      cases matchPass uuid s with
      | error p => rfl
      | ok pass =>
          cases pass with
          | finished => rfl
          | selfTrade => rfl
          | traded next => exact ih next

/-! ### Submitting, cancelling and triggering -/

/-- A report and a book, mirrored. -/
def mirrorResult (r : ExecutionReport × OrderBook) : ExecutionReport × OrderBook :=
  (r.1.mirror, r.2.mirror)

theorem noFills_mirror (s : MatchState) : s.mirror.fills.isEmpty = s.fills.isEmpty :=
  List.isEmpty_map

theorem settleRemainder_mirror (s : MatchState) :
    OrderBook.settleRemainder s.mirror
      = (OrderBook.settleRemainder s).map fun r => (r.1, r.2.mirror) := by
  have hbook : s.mirror.book = s.book.mirror := rfl
  have hkind : s.mirror.incoming.kind = s.incoming.kind := rfl
  have hremaining : s.mirror.incoming.remainingQuantity = s.incoming.remainingQuantity := rfl
  have hincoming : s.mirror.incoming = s.incoming.mirror := rfl
  rw [OrderBook.settleRemainder, OrderBook.settleRemainder, noFills_mirror, hbook, hkind, hremaining,
    hincoming]
  split
  · rfl
  · split
    · rfl
    · split
      · rfl
      · have hprice : s.incoming.mirror.price = s.incoming.price.map fun d => -d := rfl
        rw [OrderBook.rest, OrderBook.rest, hprice]
        cases s.incoming.price with
        | none => rfl
        | some price => simp only [Option.map_some, ok_bind, Except.map, OrderBook.restAt_mirror]

theorem finish_mirror (s : MatchState) :
    OrderBook.finish s.mirror = (OrderBook.finish s).map mirrorResult := by
  rw [OrderBook.finish, OrderBook.finish, settleRemainder_mirror]
  cases OrderBook.settleRemainder s with
  | error p => rfl
  | ok r =>
      simp only [Except.map, ok_bind, mirrorResult, OrderBook.close_mirror]
      rfl

theorem selfTradeExit_mirror (s : MatchState) :
    OrderBook.selfTradeExit s.mirror = mirrorResult (OrderBook.selfTradeExit s) := by
  simp only [OrderBook.selfTradeExit, noFills_mirror, mirrorResult, OrderBook.setStatus_mirror]
  rfl

theorem execute_mirror (uuid : UuidSource) (book : OrderBook) (o : Order) :
    book.mirror.execute uuid o.mirror = (book.execute uuid o).map mirrorResult := by
  have hside : o.mirror.side = opposite o.side := rfl
  have hstart : book.mirror.startMatch o.mirror = (book.startMatch o).mirror := rfl
  rw [OrderBook.execute, OrderBook.execute, hside, OrderBook.opposingOrders_mirror, List.length_map,
    hstart, matchLoop_mirror]
  cases matchLoop uuid ((book.opposingOrders o.side).length + 1) (book.startMatch o) with
  | error p => rfl
  | ok r =>
      obtain ⟨selfTrade, s⟩ := r
      cases selfTrade with
      | true => exact congrArg Except.ok (selfTradeExit_mirror s)
      | false => exact finish_mirror s

theorem holdStop_mirror (book : OrderBook) (o : Order) :
    book.mirror.holdStop o.mirror = mirrorResult (book.holdStop o) := by
  simp only [OrderBook.holdStop, mirrorResult, OrderBook.setStopOrders_mirror,
    OrderBook.pruneStatusLog_mirror, OrderBook.setStatus_mirror, OrderBook.nextSequenced_mirror,
    OrderBook.pruneStatusLog_stopOrders, OrderBook.setStatus_stopOrders,
    OrderBook.nextSequenced_stopOrders, List.map_append, List.map_cons, List.map_nil]
  rfl

/-- **Submitting commutes with mirroring.** -/
theorem submit_mirror (uuid : UuidSource) (book : OrderBook) (o : Order) :
    book.mirror.submit uuid o.mirror = (book.submit uuid o).map mirrorResult := by
  have hstatus : book.mirror.status = book.status := rfl
  have hindex : book.mirror.orderIndex.contains o.orderId = book.orderIndex.contains o.orderId :=
    SortedMap.contains_mapValues mirrorEntry book.orderIndex o.orderId
  have hid : o.mirror.orderId = o.orderId := rfl
  have hkind : o.mirror.kind = o.kind := rfl
  have hremaining : o.mirror.remainingQuantity = o.remainingQuantity := rfl
  have hprice : o.mirror.price.isNone = o.price.isNone := Option.isNone_map
  have hstop : o.mirror.stopPrice.isNone = o.stopPrice.isNone := Option.isNone_map
  rw [OrderBook.submit, OrderBook.submit, hstatus, hid, hindex, hkind, hremaining, hprice, hstop,
    holdStop_mirror, OrderBook.wouldCross_mirror, OrderBook.availableCrossingQuantity_mirror,
    execute_mirror]
  repeat' split
  all_goals rfl

theorem removeQueued_mirror (book : OrderBook) (side : Side) (price : Decimal) (level : PriceLevel)
    (pos : ℕ) (o : Order) (orderId : String) :
    book.mirror.removeQueued (opposite side) (-price) level.mirror pos o.mirror orderId
      = (book.removeQueued side price level pos o orderId).mirror := by
  have hfilled : o.mirror.originalQuantity - o.mirror.remainingQuantity
      = o.originalQuantity - o.remainingQuantity := rfl
  have hempty : ∀ b : OrderBook, b.mirror.levelIsEmpty (opposite side) (-price)
      = b.levelIsEmpty side price := by
    intro b
    rw [OrderBook.levelIsEmpty, OrderBook.levelIsEmpty, OrderBook.level_mirror]
    cases b.level side price with
    | none => rfl
    | some l => exact isEmpty_mirror l
  simp only [OrderBook.removeQueued, apply_ite OrderBook.mirror, OrderBook.removeLevel_mirror, ← hempty,
    OrderBook.pruneStatusLog_mirror, OrderBook.setStatus_mirror, OrderBook.unindexOrder_mirror,
    OrderBook.setLevels_mirror, OrderBook.mirrorLevels_modify, OrderBook.levels_mirror,
    removeAt_mirror, hfilled]

/-- **Cancelling commutes with mirroring.** -/
theorem cancel_mirror (book : OrderBook) (orderId userId : String) :
    book.mirror.cancel orderId userId
      = (book.cancel orderId userId).map fun r => (r.1, r.2.mirror) := by
  have hindex : book.mirror.orderIndex.find orderId = (book.orderIndex.find orderId).map mirrorEntry :=
    SortedMap.find_mapValues book.orderIndex mirrorEntry orderId
  have hstops : book.mirror.stopOrders = book.stopOrders.map Order.mirror := rfl
  have hfound : ∀ orders : List Order,
      (orders.map Order.mirror).findIdx? (fun o => decide (o.orderId = orderId ∧ o.userId = userId))
        = orders.findIdx? fun o => decide (o.orderId = orderId ∧ o.userId = userId) := by
    intro orders
    rw [List.findIdx?_map]
    rfl
  rw [OrderBook.cancel, OrderBook.cancel, hindex]
  cases book.orderIndex.find orderId with
  | none =>
      simp only [Option.map_none]
      rw [OrderBook.cancelStopOrder, OrderBook.cancelStopOrder, hstops, hfound]
      cases book.stopOrders.findIdx? fun o => o.orderId = orderId ∧ o.userId = userId with
      | none => rfl
      | some pos =>
          simp only [List.getElem?_map]
          cases book.stopOrders[pos]? with
          | none => rfl
          | some o =>
              simp only [Option.map_some, Except.map, OrderBook.removePending, hstops,
                OrderBook.pruneStatusLog_mirror, OrderBook.setStatus_mirror,
                OrderBook.setStopOrders_mirror, List.eraseIdx_map]
              rfl
  | some entry =>
      obtain ⟨side, price⟩ := entry
      simp only [Option.map_some, mirrorEntry, OrderBook.level_mirror]
      cases book.level side price with
      | none => rfl
      | some level =>
          have horders : level.mirror.orders = level.orders.map Order.mirror := rfl
          simp only [Option.map_some, horders, hfound]
          cases level.orders.findIdx? fun o => o.orderId = orderId ∧ o.userId = userId with
          | none => rfl
          | some pos =>
              simp only [List.getElem?_map]
              cases level.orders[pos]? with
              | none => rfl
              | some o =>
                  exact congrArg (fun b => Except.ok (true, b)) (removeQueued_mirror book _ _ _ _ _ _)

theorem drainStops_mirror (lastPrice : Decimal) (orders : List Order) :
    ∀ status : SortedMap String (OrderStatus × Decimal),
      OrderBook.drainStops (-lastPrice) status (orders.map Order.mirror)
        = (OrderBook.drainStops lastPrice status orders).map fun r =>
            (r.1.map Order.mirror, r.2.1.map Order.mirror, r.2.2) := by
  induction orders with
  | nil => exact fun status => rfl
  | cons o orders ih =>
      intro status
      have hstop : o.mirror.stopPrice = o.stopPrice.map fun d => -d := rfl
      have hside : o.mirror.side = opposite o.side := rfl
      have hid : o.mirror.orderId = o.orderId := rfl
      rw [List.map_cons, OrderBook.drainStops, OrderBook.drainStops, hstop, hside, hid]
      cases o.stopPrice with
      | none => rfl
      | some stopPrice =>
          simp only [Option.map_some, shouldTrigger_mirror, ih]
          split
          · cases OrderBook.drainStops lastPrice (status.erase o.orderId) orders with
            | error p => rfl
            | ok r => rfl
          · cases OrderBook.drainStops lastPrice status orders with
            | error p => rfl
            | ok r => rfl

theorem submitAll_mirror (orders : List Order) : ∀ (uuid : UuidSource) (book : OrderBook),
    OrderBook.submitAll uuid book.mirror (orders.map Order.mirror)
      = (OrderBook.submitAll uuid book orders).map fun r =>
          (r.1.map ExecutionReport.mirror, r.2.mirror) := by
  induction orders with
  | nil => exact fun uuid book => rfl
  | cons o orders ih =>
      intro uuid book
      rw [List.map_cons, OrderBook.submitAll, OrderBook.submitAll, submit_mirror]
      cases book.submit uuid.head o with
      | error p => rfl
      | ok r =>
          obtain ⟨report, book'⟩ := r
          simp only [Except.map, mirrorResult, ok_bind, ih uuid.tail book']
          cases OrderBook.submitAll uuid.tail book' orders with
          | error p => rfl
          | ok r => rfl

/-- **Triggering stop orders commutes with mirroring.** -/
theorem triggerStops_mirror (uuid : UuidSource) (book : OrderBook) (lastPrice : Decimal) :
    book.mirror.triggerStops uuid (-lastPrice)
      = (book.triggerStops uuid lastPrice).map fun r =>
          (r.1.map ExecutionReport.mirror, r.2.mirror) := by
  have hstatus : book.mirror.status = book.status := rfl
  have hstops : book.mirror.stopOrders = book.stopOrders.map Order.mirror := rfl
  rw [OrderBook.triggerStops, OrderBook.triggerStops, hstatus, hstops, drainStops_mirror]
  cases OrderBook.drainStops lastPrice book.status book.stopOrders with
  | error p => rfl
  | ok r => exact submitAll_mirror r.1 uuid { book with stopOrders := r.2.1, status := r.2.2 }

/-! ### Runs -/

def BookOp.mirror : BookOp → BookOp
  | .submit uuid order => .submit uuid order.mirror
  | .cancel orderId userId => .cancel orderId userId
  | .triggerStops uuid lastPrice => .triggerStops uuid (-lastPrice)

def BookReply.mirror : BookReply → BookReply
  | .submitted report => .submitted report.mirror
  | .cancelled done => .cancelled done
  | .triggered reports => .triggered (reports.map ExecutionReport.mirror)

/-- **A call commutes with mirroring.** -/
theorem exec_mirror (book : OrderBook) (op : BookOp) :
    book.mirror.exec op.mirror = (book.exec op).map (Prod.map BookReply.mirror OrderBook.mirror) := by
  cases op with
  | submit uuid order =>
      rw [OrderBook.exec, BookOp.mirror, OrderBook.exec, submit_mirror]
      cases book.submit uuid order with
      | error p => rfl
      | ok r => rfl
  | cancel orderId userId =>
      rw [OrderBook.exec, BookOp.mirror, OrderBook.exec, cancel_mirror]
      cases book.cancel orderId userId with
      | error p => rfl
      | ok r => rfl
  | triggerStops uuid lastPrice =>
      rw [OrderBook.exec, BookOp.mirror, OrderBook.exec, triggerStops_mirror]
      cases book.triggerStops uuid lastPrice with
      | error p => rfl
      | ok r => rfl

/-- **Buy and sell are mirror images.**  The mirrored calls on the empty book give the mirrored replies
and the mirrored book, and its depth is that of the book with the sides swapped. -/
theorem run_mirror (ops : List BookOp) :
    ∃ replies book, bookRun ops = .ok (replies, book) ∧
      bookRun (ops.map BookOp.mirror) = .ok (replies.map BookReply.mirror, book.mirror) ∧
      ∀ levels, book.mirror.depth levels = mirrorDepth (book.depth levels) := by
  obtain ⟨replies, book, hrun, _⟩ := bookRun_spec ops
  have hmirror := Machine.run_map exec_mirror ops OrderBook.default
  rw [bookRun] at hrun
  rw [hrun] at hmirror
  exact ⟨replies, book, hrun, hmirror, book.depth_mirror⟩

end NexusTrade.MatchingEngine
