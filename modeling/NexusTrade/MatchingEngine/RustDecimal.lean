import NexusTrade.MatchingEngine.Runs
import NexusTrade.MatchingEngine.Snapshot

/-!
# The arithmetic of the matching engine

The methods of `OrderBook` and `from_snapshot` of `services/matching-engine/src/lib.rs` once more, with the operators
of `rust_decimal` where the source adds and subtracts.  The operators are a parameter: `rust_decimal` holds a 96-bit
integer over a power of ten, an operator returns the exact result where that can be held, and it rounds or panics
where it cannot.

* **`Representable`** and **`Arithmetic.Lawful`**: the numbers, and what is documented of the operators;
* **`Arithmetic.asserting`**: the operators with an assertion that the result is exact;
* **`RustDecimal.submit`**, **`cancel`**, **`triggerStops`** and **`fromSnapshot`**: the methods;
* **`RustDecimal.engineRun`**: a sequence of calls and restarts.
-/

namespace NexusTrade.MatchingEngine

/-- A number that `rust_decimal` holds: a 96-bit integer and a sign, over a power of ten of at most 28. -/
def Representable (q : Decimal) : Prop :=
  ∃ scale : Fin 29, (q * 10 ^ scale.val).den = 1 ∧ (q * 10 ^ scale.val).num.natAbs < 2 ^ 96

instance (q : Decimal) : Decidable (Representable q) := inferInstanceAs (Decidable (∃ _, _))

/-- The operators `+` and `-` of `rust_decimal`, on the numbers it holds. -/
structure Arithmetic where
  add : Decimal → Decimal → Except Panic Decimal
  sub : Decimal → Decimal → Except Panic Decimal

namespace Arithmetic

/-- What is documented of them: a result that can be held is exact, any other is rounded to one that can be held,
or the operator panics. -/
structure Lawful (arith : Arithmetic) : Prop where
  add_exact : ∀ x y, Representable (x + y) → arith.add x y = .ok (x + y)
  add_representable : ∀ x y z, arith.add x y = .ok z → Representable z
  sub_exact : ∀ x y, Representable (x - y) → arith.sub x y = .ok (x - y)
  sub_representable : ∀ x y z, arith.sub x y = .ok z → Representable z

/-- The assertion that a result is exact. -/
def exactly (known : Decimal) (result : Except Panic Decimal) : Except Panic Decimal :=
  match result with
  | .error e => .error e
  | .ok z => if z = known then .ok z else .error (.expect "exact result")

/-- The same operators, with the assertion that each result is exact. -/
def asserting (arith : Arithmetic) : Arithmetic where
  add := fun x y => exactly (x + y) (arith.add x y)
  sub := fun x y => exactly (x - y) (arith.sub x y)

end Arithmetic

namespace RustDecimal

variable (arith : Arithmetic)

/-! ### Checks before matching -/

/-- The inner loop of `available_crossing_quantity`; the flag says that it returned. -/
def availableInLevel (incoming : Order) : Decimal → List Order → Except Panic (Decimal × Bool)
  | available, [] => .ok (available, false)
  | available, order :: orders =>
      if order.userId ≠ incoming.userId then do
        let available ← arith.add available order.remainingQuantity
        if incoming.remainingQuantity ≤ available then .ok (available, true)
        else availableInLevel incoming available orders
      else availableInLevel incoming available orders

/-- The outer loop of `available_crossing_quantity`. -/
def availableInLevels (incoming : Order) : Decimal → List PriceLevel → Except Panic Decimal
  | available, [] => .ok available
  | available, level :: levels =>
      if crosses incoming level.price then do
        match ← availableInLevel arith incoming available level.orders with
        | (available, true) => .ok available
        | (available, false) => availableInLevels incoming available levels
      else .ok available

/-- `available_crossing_quantity`. -/
def availableCrossingQuantity (book : OrderBook) (incoming : Order) : Except Panic Decimal :=
  availableInLevels arith incoming 0 (book.opposingLevels incoming.side)

/-! ### The matching loop -/

/-- `order.remaining_quantity -= quantity`. -/
def reduce (order : Order) (quantity : Decimal) : Except Panic Order := do
  let remainingQuantity ← arith.sub order.remainingQuantity quantity
  .ok { order with remainingQuantity := remainingQuantity }

/-- The bookkeeping for the maker after a trade. -/
def recordMaker (book : OrderBook) (resting : Order) : Except Panic OrderBook :=
  if resting.remainingQuantity = 0 then
    .ok ((book.unindexOrder resting.orderId).setStatus resting.orderId .filled resting.originalQuantity)
  else do
    let filledQuantity ← arith.sub resting.originalQuantity resting.remainingQuantity
    .ok (book.setStatus resting.orderId .partiallyFilled filledQuantity).pruneStatusLog

/-- The block of the loop body that trades with the front order of the best level. -/
def trade (uuid : UuidSource) (s : MatchState) (price : Decimal) (level : PriceLevel) (resting : Order)
    (queue : List Order) : Except Panic MatchState := do
  let side := opposite s.incoming.side
  let quantity := tradeQuantity s.incoming resting
  let incoming ← reduce arith s.incoming quantity
  let reduced ← reduce arith resting quantity
  let totalQuantity ← arith.sub level.totalQuantity quantity
  let traded := { level with
    orders := if reduced.remainingQuantity = 0 then queue else reduced :: queue
    totalQuantity := totalQuantity }
  let fill := s.fill uuid price resting
  let book := s.book.setLevels side ((s.book.levels side).modify price fun _ => traded)
  let book ← recordMaker arith (book.pushFill fill) reduced
  .ok { book := if traded.orders.isEmpty then book.removeLevel side price else book
        incoming := incoming
        fills := s.fills ++ [fill] }

/-- One evaluation of the loop condition and, where it holds, of the loop body. -/
def matchPass (uuid : UuidSource) (s : MatchState) : Except Panic Pass :=
  if s.incoming.remainingQuantity ≤ 0 then .ok .finished
  else match s.book.bestPrice s.incoming.side with
    | none => .ok .finished
    | some price =>
      if !crosses s.incoming price then .ok .finished
      else if s.book.isSelfTrade (opposite s.incoming.side) price s.incoming.userId then .ok .selfTrade
      else match s.book.level (opposite s.incoming.side) price with
        | none => .error (.expect "best level exists")
        | some level =>
          match level.orders with
          | [] => .error (.expect "best level has resting order")
          | resting :: queue => do
              let next ← trade arith uuid s price level resting queue
              .ok (.traded next)

/-- The `while` loop; the flag says that self-trade prevention returned from it. -/
def matchLoop (uuid : UuidSource) : ℕ → MatchState → Except Panic (Bool × MatchState)
  | 0, _ => .error .diverges
  | fuel + 1, s => do
      match ← matchPass arith uuid s with
      | .finished => .ok (false, s)
      | .selfTrade => .ok (true, s)
      | .traded next => matchLoop uuid fuel next

/-! ### Submitting -/

/-- `rest`. -/
def rest (book : OrderBook) (order : Order) : Except Panic OrderBook :=
  match order.price with
  | none => .error (.expect "resting order requires price")
  | some price => do
    let side := order.side
    let filledQuantity ← arith.sub order.originalQuantity order.remainingQuantity
    let level := ((book.levels side).find price).getD (.empty price)
    let totalQuantity ← arith.add level.totalQuantity order.remainingQuantity
    let level := { level with orders := level.orders ++ [order], totalQuantity := totalQuantity }
    let book := book.setLevels side ((book.levels side).insert price level)
    let book := book.indexOrder order.orderId side price
    .ok (book.setStatus order.orderId .new filledQuantity).pruneStatusLog

/-- The early return of self-trade prevention. -/
def selfTradeExit (s : MatchState) : Except Panic (ExecutionReport × OrderBook) := do
  let status := if s.fills.isEmpty then OrderStatus.rejected else .partiallyFilled
  let filledQuantity ← arith.sub s.incoming.originalQuantity s.incoming.remainingQuantity
  .ok ({ orderId := s.incoming.orderId
         accepted := !s.fills.isEmpty
         status := status
         fills := s.fills
         rejectReason := some "self-trade prevention blocked match" },
    s.book.setStatus s.incoming.orderId status filledQuantity)

/-- The status of the incoming order after the loop, and the book with its remainder resting where
its kind lets it rest. -/
def settleRemainder (s : MatchState) : Except Panic (OrderStatus × OrderBook) :=
  if s.incoming.remainingQuantity = 0 then .ok (.filled, s.book)
  else if s.incoming.kind = .market ∨ s.incoming.kind = .ioc then
    .ok (if s.fills.isEmpty then .rejected else .partiallyFilled, s.book)
  else if s.incoming.kind = .fok then .ok (.expired, s.book)
  else do
    let book ← rest arith s.book s.incoming
    .ok (if s.fills.isEmpty then .new else .partiallyFilled, book)

/-- The end of `submit` after the loop. -/
def finish (s : MatchState) : Except Panic (ExecutionReport × OrderBook) := do
  let filledQuantity ← arith.sub s.incoming.originalQuantity s.incoming.remainingQuantity
  let (status, book) ← settleRemainder arith s
  .ok (OrderBook.finishReport s status, book.close s.incoming.orderId status filledQuantity)

/-- `submit` from the assignment of the sequence number on. -/
def execute (uuid : UuidSource) (book : OrderBook) (incoming : Order) :
    Except Panic (ExecutionReport × OrderBook) := do
  let (selfTrade, s) ← matchLoop arith uuid ((book.opposingOrders incoming.side).length + 1)
    (book.startMatch incoming)
  if selfTrade then selfTradeExit arith s else finish arith s

/-- The check of a fill-or-kill order: other users offer less than it asks for. -/
def fallsShort (book : OrderBook) (incoming : Order) : Except Panic Bool :=
  if incoming.kind = .fok then do
    let available ← availableCrossingQuantity arith book incoming
    .ok (decide (available < incoming.remainingQuantity))
  else .ok false

/-- `submit`. -/
def submit (uuid : UuidSource) (book : OrderBook) (incoming : Order) :
    Except Panic (ExecutionReport × OrderBook) :=
  if book.status.contains incoming.orderId || book.orderIndex.contains incoming.orderId then
    .ok (OrderBook.rejected incoming.orderId "duplicate order_id", book)
  else if incoming.remainingQuantity ≤ 0 then
    .ok (OrderBook.rejected incoming.orderId "quantity must be positive", book)
  else if requiresPrice incoming.kind && incoming.price.isNone then
    .ok (OrderBook.rejected incoming.orderId "limit-style orders require price", book)
  else if incoming.kind.isStop then
    if incoming.stopPrice.isNone then
      .ok (OrderBook.rejected incoming.orderId "stop orders require stop_price", book)
    else .ok (book.holdStop incoming)
  else if incoming.kind = .postOnly ∧ book.wouldCross incoming then
    .ok (OrderBook.rejected incoming.orderId "post-only order would take liquidity", book)
  else do
    if ← fallsShort arith book incoming then
      .ok ({ orderId := incoming.orderId
             accepted := true
             status := .expired
             fills := []
             rejectReason := none }, book)
    else execute arith uuid book incoming

/-- `ready.into_iter().map(|order| self.submit(order))`. -/
def submitAll : UuidSource → OrderBook → List Order → Except Panic (List ExecutionReport × OrderBook)
  | _, book, [] => .ok ([], book)
  | uuid, book, order :: orders => do
      let (report, book) ← submit arith uuid.head book order
      let (reports, book) ← submitAll uuid.tail book orders
      .ok (report :: reports, book)

/-- `trigger_stops`. -/
def triggerStops (uuid : UuidSource) (book : OrderBook) (lastPrice : Decimal) :
    Except Panic (List ExecutionReport × OrderBook) := do
  let (ready, pending, status) ← OrderBook.drainStops lastPrice book.status book.stopOrders
  submitAll arith uuid { book with stopOrders := pending, status := status } ready

/-! ### Cancelling -/

/-- `cancel_stop_order`. -/
def cancelStopOrder (book : OrderBook) (orderId userId : String) : Except Panic (Bool × OrderBook) :=
  match book.stopOrders.findIdx? fun order => order.orderId = orderId ∧ order.userId = userId with
  | none => .ok (false, book)
  | some pos =>
    match book.stopOrders[pos]? with
    | none => .error .indexOutOfBounds
    | some order => do
      let book := book.setStopOrders (book.stopOrders.eraseIdx pos)
      let filledQuantity ← arith.sub order.originalQuantity order.remainingQuantity
      .ok (true, (book.setStatus orderId .cancelled filledQuantity).pruneStatusLog)

/-- `cancel`. -/
def cancel (book : OrderBook) (orderId userId : String) : Except Panic (Bool × OrderBook) :=
  match book.orderIndex.find orderId with
  | none => cancelStopOrder arith book orderId userId
  | some (side, price) =>
    match book.level side price with
    | none => .ok (false, book)
    | some level =>
      match level.orders.findIdx? fun order => order.orderId = orderId ∧ order.userId = userId with
      | none => .ok (false, book)
      | some pos =>
        match level.orders[pos]? with
        | none => .error (.expect "position was located")
        | some order => do
          let totalQuantity ← arith.sub level.totalQuantity order.remainingQuantity
          let level := { level with orders := level.orders.eraseIdx pos, totalQuantity := totalQuantity }
          let book := book.setLevels side ((book.levels side).modify price fun _ => level)
          let filledQuantity ← arith.sub order.originalQuantity order.remainingQuantity
          let book := ((book.unindexOrder orderId).setStatus orderId .cancelled filledQuantity).pruneStatusLog
          .ok (true, if book.levelIsEmpty side price then book.removeLevel side price else book)

/-! ### Restoring -/

/-- The `fold` of `restore_level`. -/
def sumRemaining (orders : List Order) : Except Panic Decimal :=
  orders.foldlM (fun acc order => arith.add acc order.remainingQuantity) 0

/-- `restore_level`. -/
def restoreLevel (codec : DecimalCodec) (side : Side) (book : OrderBook) (snapshot : PriceLevelSnapshot) :
    Except LoadError OrderBook := do
  let price ← parseDecimalString codec snapshot.price
  let orders ← snapshot.orders.mapM (orderFromSnapshot codec)
  let totalQuantity ← (sumRemaining arith orders).mapError .panic
  let book := orders.foldl (fun book order => book.indexOrder order.orderId side price) book
  .ok (book.setLevels side ((book.levels side).insert price ⟨price, orders, totalQuantity⟩))

/-- `from_snapshot`. -/
def fromSnapshot (codec : DecimalCodec) (snapshot : OrderBookSnapshot) : Except LoadError OrderBook := do
  let stopOrders ← snapshot.stopOrders.mapM (orderFromSnapshot codec)
  let status ← snapshot.status.mapM (statusFromSnapshot codec)
  let auditLog ← snapshot.auditLog.mapM (fillFromSnapshot codec)
  let book : OrderBook := { OrderBook.default with
    stopOrders := stopOrders
    status := SortedMap.collect status
    auditLog := auditLog
    nextSequence := snapshot.nextSequence }
  let book ← snapshot.bids.foldlM (restoreLevel arith codec .buy) book
  snapshot.asks.foldlM (restoreLevel arith codec .sell) book

end RustDecimal

/-! ### Runs -/

/-- A call, or a restart of the engine from a snapshot. -/
inductive EngineOp
  | call (op : BookOp)
  | restart

/-- Make one call, or restart. -/
def OrderBook.serve (codec : DecimalCodec) (book : OrderBook) :
    EngineOp → Except LoadError (Option BookReply × OrderBook)
  | .call op => do
      let (reply, book) ← (book.exec op).mapError .panic
      .ok (some reply, book)
  | .restart => do
      let book ← OrderBook.fromSnapshot codec (book.toSnapshot codec)
      .ok (none, book)

namespace RustDecimal

variable (arith : Arithmetic)

/-- Make one call. -/
def exec (book : OrderBook) : BookOp → Except Panic (BookReply × OrderBook)
  | .submit uuid order => do
      let (report, book) ← submit arith uuid book order
      .ok (.submitted report, book)
  | .cancel orderId userId => do
      let (done, book) ← cancel arith book orderId userId
      .ok (.cancelled done, book)
  | .triggerStops uuid lastPrice => do
      let (reports, book) ← triggerStops arith uuid book lastPrice
      .ok (.triggered reports, book)

/-- Make one call, or restart. -/
def serve (codec : DecimalCodec) (book : OrderBook) : EngineOp → Except LoadError (Option BookReply × OrderBook)
  | .call op => do
      let (reply, book) ← (exec arith book op).mapError .panic
      .ok (some reply, book)
  | .restart => do
      let book ← fromSnapshot arith codec (book.toSnapshot codec)
      .ok (none, book)

end RustDecimal

/-- A sequence of calls and restarts, from the empty book. -/
def engineRun (codec : DecimalCodec) (ops : List EngineOp) :
    Except LoadError (List (Option BookReply) × OrderBook) :=
  Machine.run (OrderBook.serve codec) OrderBook.default ops

/-- The same in the arithmetic of `rust_decimal`. -/
def RustDecimal.engineRun (arith : Arithmetic) (codec : DecimalCodec) (ops : List EngineOp) :
    Except LoadError (List (Option BookReply) × OrderBook) :=
  Machine.run (RustDecimal.serve arith codec) OrderBook.default ops

end NexusTrade.MatchingEngine
