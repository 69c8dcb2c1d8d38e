import NexusTrade.MatchingEngine.Types

/-!
# The order book

`impl OrderBook` of `services/matching-engine/src/lib.rs`, statement by statement.  A method that can
panic returns `Except Panic`; a method that changes the book returns the new one.

The `while` loop of `submit` is `matchLoop`, one pass of its body is `matchPass`, and the block of the
body that trades with the front order is `MatchState.trade`.  The loop runs on fuel; `submit` gives it
one pass more than there are orders to trade with.
-/

namespace NexusTrade.MatchingEngine

/-- `MAX_AUDIT_LOG_FILLS`. -/
def maxAuditLogFills : ℕ := 10000

/-- `MAX_ORDER_STATUS_ENTRIES`. -/
def maxOrderStatusEntries : ℕ := 100000

def requiresPrice : OrderKind → Bool
  | .limit | .stopLimit | .ioc | .fok | .postOnly => true
  | .market | .stopMarket => false

/-- `matches!(kind, StopMarket | StopLimit)`. -/
def OrderKind.isStop : OrderKind → Bool
  | .stopMarket | .stopLimit => true
  | _ => false

def opposite : Side → Side
  | .buy => .sell
  | .sell => .buy

def crosses (order : Order) (restingPrice : Decimal) : Bool :=
  match order.kind with
  | .market => true
  | _ =>
    match order.side, order.price with
    | .buy, some price => decide (restingPrice ≤ price)
    | .sell, some price => decide (price ≤ restingPrice)
    | _, none => false

namespace OrderBook

/-! ### Level accessors -/

/-- `levels_mut`, for reading. -/
def levels (book : OrderBook) : Side → SortedMap Decimal PriceLevel
  | .buy => book.bids
  | .sell => book.asks

/-- `levels_mut`, for writing. -/
def setLevels (book : OrderBook) (side : Side) (levels : SortedMap Decimal PriceLevel) : OrderBook :=
  match side with
  | .buy => { book with bids := levels }
  | .sell => { book with asks := levels }

def level (book : OrderBook) (side : Side) (price : Decimal) : Option PriceLevel :=
  (book.levels side).find price

def levelIsEmpty (book : OrderBook) (side : Side) (price : Decimal) : Bool :=
  ((book.level side price).map fun level => level.orders.isEmpty).getD true

def removeLevel (book : OrderBook) (side : Side) (price : Decimal) : OrderBook :=
  book.setLevels side ((book.levels side).erase price)

/-- The best price an incoming order of a side meets: the first key of the asks, the last key of the
bids. -/
def bestPrice (book : OrderBook) : Side → Option Decimal
  | .buy => book.asks.first.map Prod.fst
  | .sell => book.bids.last.map Prod.fst

/-- The levels an incoming order of a side meets, from the best price on. -/
def opposingLevels (book : OrderBook) : Side → List PriceLevel
  | .buy => book.asks.values
  | .sell => book.bids.values.reverse

/-! ### Bounded logs -/

def pruneAuditLog (book : OrderBook) : OrderBook :=
  if maxAuditLogFills < book.auditLog.length then
    { book with auditLog := book.auditLog.drop (book.auditLog.length - maxAuditLogFills) }
  else book

/-- The entries `prune_status_log` retains. -/
def retainsStatus (book : OrderBook) (orderId : String) (entry : OrderStatus × Decimal) : Bool :=
  book.orderIndex.contains orderId ||
    match entry.1 with
    | .new | .partiallyFilled | .pendingStop => true
    | _ => false

def pruneStatusLog (book : OrderBook) : OrderBook :=
  if book.status.size ≤ maxOrderStatusEntries then book
  else { book with status := book.status.filter book.retainsStatus }

/-- `self.status.insert(order_id, (status, filled))`. -/
def setStatus (book : OrderBook) (orderId : String) (status : OrderStatus) (filled : Decimal) :
    OrderBook :=
  { book with status := book.status.insert orderId (status, filled) }

/-- `self.order_index.insert(order_id, (side, price))`. -/
def indexOrder (book : OrderBook) (orderId : String) (side : Side) (price : Decimal) : OrderBook :=
  { book with orderIndex := book.orderIndex.insert orderId (side, price) }

/-- `self.order_index.remove(order_id)`. -/
def unindexOrder (book : OrderBook) (orderId : String) : OrderBook :=
  { book with orderIndex := book.orderIndex.erase orderId }

/-- `self.audit_log.push(fill)`. -/
def pushFill (book : OrderBook) (fill : Fill) : OrderBook :=
  { book with auditLog := book.auditLog ++ [fill] }

/-- `self.next_sequence += 1`. -/
def nextSequenced (book : OrderBook) : OrderBook :=
  { book with nextSequence := book.nextSequence + 1 }

/-- The book with other stop orders. -/
def setStopOrders (book : OrderBook) (stopOrders : List Order) : OrderBook :=
  { book with stopOrders := stopOrders }

/-! ### Checks before matching -/

def wouldCross (book : OrderBook) (incoming : Order) : Bool :=
  match book.bestPrice incoming.side with
  | none => false
  | some price => crosses incoming price

/-- The inner loop of `available_crossing_quantity`; the flag says that it returned. -/
def availableInLevel (incoming : Order) (available : Decimal) : List Order → Decimal × Bool
  | [] => (available, false)
  | order :: orders =>
      if order.userId ≠ incoming.userId then
        if incoming.remainingQuantity ≤ available + order.remainingQuantity then
          (available + order.remainingQuantity, true)
        else availableInLevel incoming (available + order.remainingQuantity) orders
      else availableInLevel incoming available orders

/-- The outer loop of `available_crossing_quantity`. -/
def availableInLevels (incoming : Order) (available : Decimal) : List PriceLevel → Decimal
  | [] => available
  | level :: levels =>
      if crosses incoming level.price then
        match availableInLevel incoming available level.orders with
        | (available, true) => available
        | (available, false) => availableInLevels incoming available levels
      else available

def availableCrossingQuantity (book : OrderBook) (incoming : Order) : Decimal :=
  availableInLevels incoming 0 (book.opposingLevels incoming.side)

def rejected (orderId reason : String) : ExecutionReport where
  orderId := orderId
  accepted := false
  status := .rejected
  fills := []
  rejectReason := some reason

/-! ### The matching loop -/

/-- `is_self_trade`: the front order of the level belongs to the user. -/
def isSelfTrade (book : OrderBook) (side : Side) (price : Decimal) (userId : String) : Bool :=
  match (book.level side price).bind fun level => level.orders.head? with
  | some resting => resting.userId = userId
  | none => false

/-- The bookkeeping for the maker after a trade: a filled order leaves the index and is logged as
filled, a partly filled one is logged with what it has filled. -/
def recordMaker (book : OrderBook) (resting : Order) : OrderBook :=
  if resting.remainingQuantity = 0 then
    (book.unindexOrder resting.orderId).setStatus resting.orderId .filled resting.originalQuantity
  else
    (book.setStatus resting.orderId .partiallyFilled
      (resting.originalQuantity - resting.remainingQuantity)).pruneStatusLog

end OrderBook

/-- What the loop of `submit` carries from pass to pass. -/
structure MatchState where
  book : OrderBook
  incoming : Order
  fills : List Fill

/-- The quantity the incoming order trades with a resting one. -/
def tradeQuantity (incoming resting : Order) : Decimal :=
  min incoming.remainingQuantity resting.remainingQuantity

/-- An order after a trade. -/
def Order.reduce (order : Order) (quantity : Decimal) : Order :=
  { order with remainingQuantity := order.remainingQuantity - quantity }

/-- The level `or_insert_with` creates. -/
def PriceLevel.empty (price : Decimal) : PriceLevel := ⟨price, [], 0⟩

/-- The level with one order more at its back. -/
def PriceLevel.push (level : PriceLevel) (order : Order) : PriceLevel :=
  { level with
    orders := level.orders ++ [order]
    totalQuantity := level.totalQuantity + order.remainingQuantity }

/-- The level without the order at a position. -/
def PriceLevel.removeAt (level : PriceLevel) (pos : ℕ) (order : Order) : PriceLevel :=
  { level with
    orders := level.orders.eraseIdx pos
    totalQuantity := level.totalQuantity - order.remainingQuantity }

/-- The level after its front order has traded: the order leaves the queue when it is filled. -/
def PriceLevel.tradeFront (level : PriceLevel) (resting : Order) (queue : List Order)
    (quantity : Decimal) : PriceLevel :=
  { level with
    orders := if (resting.reduce quantity).remainingQuantity = 0 then queue
      else resting.reduce quantity :: queue
    totalQuantity := level.totalQuantity - quantity }

namespace MatchState

/-- The fill of the incoming order with a resting one. -/
def fill (uuid : UuidSource) (s : MatchState) (price : Decimal) (resting : Order) : Fill where
  tradeId := uuid s.fills.length
  makerOrderId := resting.orderId
  takerOrderId := s.incoming.orderId
  makerUserId := resting.userId
  takerUserId := s.incoming.userId
  price := price
  quantity := tradeQuantity s.incoming resting

/-- The block of the loop body that trades with the front order of the best level. -/
def trade (uuid : UuidSource) (s : MatchState) (price : Decimal) (level : PriceLevel)
    (resting : Order) (queue : List Order) : MatchState :=
  let side := opposite s.incoming.side
  let quantity := tradeQuantity s.incoming resting
  let traded := level.tradeFront resting queue quantity
  let fill := s.fill uuid price resting
  let book := s.book.setLevels side ((s.book.levels side).modify price fun _ => traded)
  let book := (book.pushFill fill).recordMaker (resting.reduce quantity)
  { book := if traded.orders.isEmpty then book.removeLevel side price else book
    incoming := s.incoming.reduce quantity
    fills := s.fills ++ [fill] }

end MatchState

/-- How a pass through the loop body ends. -/
inductive Pass
  /-- the loop condition fails, or a `break` -/
  | finished
  /-- the early return of self-trade prevention -/
  | selfTrade
  /-- a trade; the loop goes on -/
  | traded (next : MatchState)

/-- One evaluation of the loop condition and, where it holds, of the loop body. -/
def matchPass (uuid : UuidSource) (s : MatchState) : Except Panic Pass :=
  if s.incoming.remainingQuantity ≤ 0 then .ok .finished
  else match s.book.bestPrice s.incoming.side with
    | none => .ok .finished
    | some price =>
      if !crosses s.incoming price then .ok .finished
      else if s.book.isSelfTrade (opposite s.incoming.side) price s.incoming.userId then .ok .selfTrade
      else match s.book.level (opposite s.incoming.side) price with
        | none => .error (.expect "best level exists")
        | some level =>
          match level.orders with
          | [] => .error (.expect "best level has resting order")
          | resting :: queue => .ok (.traded (s.trade uuid price level resting queue))

/-- The `while` loop; the flag says that self-trade prevention returned from it. -/
def matchLoop (uuid : UuidSource) : ℕ → MatchState → Except Panic (Bool × MatchState)
  | 0, _ => .error .diverges
  | fuel + 1, s => do
      match ← matchPass uuid s with
      | .finished => .ok (false, s)
      | .selfTrade => .ok (true, s)
      | .traded next => matchLoop uuid fuel next

namespace OrderBook

/-- The orders of a side, best price first and in queue order within a price. -/
def opposingOrders (book : OrderBook) (side : Side) : List Order :=
  (book.opposingLevels side).flatMap fun level => level.orders

/-- `rest`, for an order with a price. -/
def restAt (book : OrderBook) (order : Order) (price : Decimal) : OrderBook :=
  let side := order.side
  let filledQuantity := order.originalQuantity - order.remainingQuantity
  let level := (((book.levels side).find price).getD (.empty price)).push order
  let book := book.setLevels side ((book.levels side).insert price level)
  let book := book.indexOrder order.orderId side price
  (book.setStatus order.orderId .new filledQuantity).pruneStatusLog

/-- `rest`. -/
def rest (book : OrderBook) (order : Order) : Except Panic OrderBook :=
  match order.price with
  | none => .error (.expect "resting order requires price")
  | some price => .ok (book.restAt order price)

/-- The early return of self-trade prevention. -/
def selfTradeExit (s : MatchState) : ExecutionReport × OrderBook :=
  let status := if s.fills.isEmpty then OrderStatus.rejected else .partiallyFilled
  ({ orderId := s.incoming.orderId
     accepted := !s.fills.isEmpty
     status := status
     fills := s.fills
     rejectReason := some "self-trade prevention blocked match" },
   s.book.setStatus s.incoming.orderId status
    (s.incoming.originalQuantity - s.incoming.remainingQuantity))

/-- The status of the incoming order after the loop, and the book with its remainder resting where
its kind lets it rest. -/
def settleRemainder (s : MatchState) : Except Panic (OrderStatus × OrderBook) :=
  if s.incoming.remainingQuantity = 0 then .ok (.filled, s.book)
  else if s.incoming.kind = .market ∨ s.incoming.kind = .ioc then
    .ok (if s.fills.isEmpty then .rejected else .partiallyFilled, s.book)
  else if s.incoming.kind = .fok then .ok (.expired, s.book)
  else do
    let book ← s.book.rest s.incoming
    .ok (if s.fills.isEmpty then .new else .partiallyFilled, book)

/-- The report of an order that went through the loop. -/
def finishReport (s : MatchState) (status : OrderStatus) : ExecutionReport where
  orderId := s.incoming.orderId
  accepted := true
  status := status
  fills := s.fills
  rejectReason := none

/-- The last writes of `submit`. -/
def close (book : OrderBook) (orderId : String) (status : OrderStatus) (filled : Decimal) :
    OrderBook :=
  (book.setStatus orderId status filled).pruneStatusLog.pruneAuditLog

/-- The end of `submit` after the loop. -/
def finish (s : MatchState) : Except Panic (ExecutionReport × OrderBook) := do
  let filledQuantity := s.incoming.originalQuantity - s.incoming.remainingQuantity
  let (status, book) ← settleRemainder s
  .ok (finishReport s status, book.close s.incoming.orderId status filledQuantity)

/-- What the loop starts from: the incoming order with its sequence number. -/
def startMatch (book : OrderBook) (incoming : Order) : MatchState where
  book := book.nextSequenced
  incoming := { incoming with sequence := book.nextSequence + 1 }
  fills := []

/-- `submit` from the assignment of the sequence number on. -/
def execute (uuid : UuidSource) (book : OrderBook) (incoming : Order) :
    Except Panic (ExecutionReport × OrderBook) := do
  let (selfTrade, s) ← matchLoop uuid ((book.opposingOrders incoming.side).length + 1)
    (book.startMatch incoming)
  if selfTrade then .ok (selfTradeExit s) else finish s

/-- The branch of `submit` that keeps a stop order pending. -/
def holdStop (book : OrderBook) (incoming : Order) : ExecutionReport × OrderBook :=
  let incoming := { incoming with sequence := book.nextSequence + 1 }
  let book := (book.nextSequenced.setStatus incoming.orderId .pendingStop 0).pruneStatusLog
  ({ orderId := incoming.orderId
     accepted := true
     status := .pendingStop
     fills := []
     rejectReason := none },
   book.setStopOrders (book.stopOrders ++ [incoming]))

/-- `submit`. -/
def submit (uuid : UuidSource) (book : OrderBook) (incoming : Order) :
    Except Panic (ExecutionReport × OrderBook) :=
  if book.status.contains incoming.orderId || book.orderIndex.contains incoming.orderId then
    .ok (rejected incoming.orderId "duplicate order_id", book)
  else if incoming.remainingQuantity ≤ 0 then
    .ok (rejected incoming.orderId "quantity must be positive", book)
  else if requiresPrice incoming.kind && incoming.price.isNone then
    .ok (rejected incoming.orderId "limit-style orders require price", book)
  else if incoming.kind.isStop then
    if incoming.stopPrice.isNone then
      .ok (rejected incoming.orderId "stop orders require stop_price", book)
    else .ok (book.holdStop incoming)
  else if incoming.kind = .postOnly ∧ book.wouldCross incoming then
    .ok (rejected incoming.orderId "post-only order would take liquidity", book)
  else if incoming.kind = .fok ∧ book.availableCrossingQuantity incoming < incoming.remainingQuantity
  then
    .ok ({ orderId := incoming.orderId
           accepted := true
           status := .expired
           fills := []
           rejectReason := none }, book)
  else book.execute uuid incoming

/-! ### Cancelling -/

/-- The writes of `cancel_stop_order` for the order it found. -/
def removePending (book : OrderBook) (pos : ℕ) (order : Order) (orderId : String) : OrderBook :=
  let book := book.setStopOrders (book.stopOrders.eraseIdx pos)
  (book.setStatus orderId .cancelled
    (order.originalQuantity - order.remainingQuantity)).pruneStatusLog

/-- `cancel_stop_order`. -/
def cancelStopOrder (book : OrderBook) (orderId userId : String) : Except Panic (Bool × OrderBook) :=
  match book.stopOrders.findIdx? fun order => order.orderId = orderId ∧ order.userId = userId with
  | none => .ok (false, book)
  | some pos =>
    match book.stopOrders[pos]? with
    | none => .error .indexOutOfBounds
    | some order => .ok (true, book.removePending pos order orderId)

/-- The writes of `cancel` for the order it found in a level. -/
def removeQueued (book : OrderBook) (side : Side) (price : Decimal) (level : PriceLevel) (pos : ℕ)
    (order : Order) (orderId : String) : OrderBook :=
  let level := level.removeAt pos order
  let book := book.setLevels side ((book.levels side).modify price fun _ => level)
  let book := ((book.unindexOrder orderId).setStatus orderId .cancelled
    (order.originalQuantity - order.remainingQuantity)).pruneStatusLog
  if book.levelIsEmpty side price then book.removeLevel side price else book

/-- `cancel`. -/
def cancel (book : OrderBook) (orderId userId : String) : Except Panic (Bool × OrderBook) :=
  match book.orderIndex.find orderId with
  | none => book.cancelStopOrder orderId userId
  | some (side, price) =>
    match book.level side price with
    | none => .ok (false, book)
    | some level =>
      match level.orders.findIdx? fun order => order.orderId = orderId ∧ order.userId = userId with
      | none => .ok (false, book)
      | some pos =>
        match level.orders[pos]? with
        | none => .error (.expect "position was located")
        | some order => .ok (true, book.removeQueued side price level pos order orderId)

/-! ### Stop orders -/

/-- `should_trigger`. -/
def shouldTrigger (lastPrice stopPrice : Decimal) : Side → Bool
  | .buy => decide (stopPrice ≤ lastPrice)
  | .sell => decide (lastPrice ≤ stopPrice)

/-- The order a triggered stop order becomes. -/
def activate (order : Order) : Order :=
  { order with kind := if order.kind = .stopMarket then .market else .limit }

/-- The loop of `trigger_stops` over the drained stop orders: those that trigger, those that stay
pending, and the status log without the entries of the first. -/
def drainStops (lastPrice : Decimal) :
    SortedMap String (OrderStatus × Decimal) → List Order →
      Except Panic (List Order × List Order × SortedMap String (OrderStatus × Decimal))
  | status, [] => .ok ([], [], status)
  | status, order :: orders =>
      match order.stopPrice with
      | none => .error (.expect "validated stop price")
      | some stopPrice =>
        if shouldTrigger lastPrice stopPrice order.side then do
          let (ready, pending, status) ← drainStops lastPrice (status.erase order.orderId) orders
          .ok (activate order :: ready, pending, status)
        else do
          let (ready, pending, status) ← drainStops lastPrice status orders
          .ok (ready, order :: pending, status)

/-- `ready.into_iter().map(|order| self.submit(order))`. -/
def submitAll (uuid : UuidSource) (book : OrderBook) :
    List Order → Except Panic (List ExecutionReport × OrderBook)
  | [] => .ok ([], book)
  | order :: orders => do
      let (report, book) ← book.submit uuid.head order
      let (reports, book) ← submitAll uuid.tail book orders
      .ok (report :: reports, book)

/-- `trigger_stops`. -/
def triggerStops (uuid : UuidSource) (book : OrderBook) (lastPrice : Decimal) :
    Except Panic (List ExecutionReport × OrderBook) := do
  let (ready, pending, status) ← drainStops lastPrice book.status book.stopOrders
  submitAll uuid { book with stopOrders := pending, status := status } ready

/-! ### Queries -/

/-- `depth`. -/
def depth (book : OrderBook) (levels : ℕ) : List (Decimal × Decimal) × List (Decimal × Decimal) :=
  ((book.bids.entries.reverse.take levels).map fun e => (e.1, e.2.totalQuantity),
    (book.asks.entries.take levels).map fun e => (e.1, e.2.totalQuantity))

/-- `order_status`. -/
def orderStatus (book : OrderBook) (orderId : String) : Option (OrderStatus × Decimal) :=
  book.status.find orderId

end OrderBook

end NexusTrade.MatchingEngine
