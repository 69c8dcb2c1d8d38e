import NexusTrade.Lib.Interleaving
import NexusTrade.Lib.Retry
import NexusTrade.MatchingEngine.Histories
import NexusTrade.Trading.Entities
import NexusTrade.Trading.Liveness

/-!
# Calls on the trading service that proceed together

`placeOrder` and `cancelOrder` of `services/trading-service/src/services/trading.service.ts` as asynchronous
code: between one `await` and the next a call runs alone, and at each `await` other calls may proceed.

The orders in memory are objects that several calls hold; an object is known by the identifier of its order.  The
object of a call that places an order is its own until it is pushed.  What an `await` waits for may fail, before
or after it has had its effect; requests to the engine are sent again as in `unary`.  The wallet service has its
database, and computes exactly.

* **`Memory`** and **`Remote`**: what the calls share, in the service and outside of it;
* **`Operation`** and **`Point`**: what a call awaits, and where it goes on;
* **`resume`** is the code of the service between two points, **`perform`** the effect of an operation;
* **`program`** is the program, **`start`** its first state.
-/

namespace NexusTrade.Trading

open MatchingEngine (Side Decimal Fill ExecutionReport Core CallFiles UuidSource DecimalCodec fillsOf)

/-! ### What the calls share -/

/-- **A submission that has reached a book**: whether the engine accepts it, with the fills that it reports, and
those of the stop orders that it set off, which the engine drops. -/
structure Handled where
  symbol : String
  request : MatchingEngine.Order
  accepted : Bool
  fills : List Fill
  dropped : List Fill
  deriving DecidableEq

/-- The tables of the trading service, the database of the wallet service with a record of the requests that it
has served, and the engine with one of the submissions that have reached its books. -/
structure Remote where
  rows : List OrderEntity
  trades : List Trade
  wallet : Wallet.Database
  served : List WalletRequest
  engine : Core
  handled : List Handled
  deriving DecidableEq

/-- Every fill that the engine has reported. -/
def Remote.fills (remote : Remote) : List Fill := remote.handled.flatMap Handled.fills

/-- `orders`, and the orders taken out of it, which a call may still hold; with a record of the amounts that
cancellations ask to unlock. -/
structure Memory where
  orders : List StoredOrder
  spliced : List StoredOrder
  released : List (String × Decimal)
  deriving DecidableEq

namespace Memory

variable (memory : Memory)

/-- The objects that calls share. -/
def objects : List StoredOrder := memory.orders ++ memory.spliced

def object (id : String) : Option StoredOrder := memory.objects.find? fun order => order.id = id

/-- Assign to fields of an object. -/
def change (id : String) (f : StoredOrder → StoredOrder) : Memory :=
  { memory with
    orders := memory.orders.map fun order => if order.id = id then f order else order
    spliced := memory.spliced.map fun order => if order.id = id then f order else order }

/-- `this.orders.splice(this.orders.indexOf(order), 1)`: where the order is not found, the index is `-1`, and the
last order is taken out. -/
def splice (id : String) : Memory :=
  match memory.orders.findIdx? fun order => order.id = id with
  | some pos => { memory with
      orders := memory.orders.eraseIdx pos
      spliced := memory.spliced ++ memory.orders[pos]?.toList }
  | none => { memory with
      orders := memory.orders.dropLast
      spliced := memory.spliced ++ memory.orders.getLast?.toList }

end Memory

/-! ### Operations -/

/-- What a call awaits: reads and writes of the database, a request to the wallet service or to the engine, an
event that is produced, or nothing. -/
inductive Operation
  | findRows
  | saveOrder (row : OrderEntity)
  | updateOrder (id : String) (filledQuantity : Option Decimal) (status : OrderStatus)
  | saveTrade (trade : Trade)
  | walletPost (request : WalletRequest)
  | submitOrder (order : StoredOrder)
  | cancelOrder (orderId symbol userId : String)
  | produce
  | resolved
  deriving DecidableEq

/-- What is thrown where an operation fails; `retryable` is that of a `ServiceError`. -/
structure Failure where
  error : TradingError
  retryable : Bool
  deriving DecidableEq

def TradingError.message : TradingError → String
  | .error message => message
  | .http _ message => message

inductive Answer
  | done
  | report (report : ExecutionReport)
  | cancelled (done : Bool)
  | failed (failure : Failure)
  deriving DecidableEq

/-- The operation of the wallet service that a request asks for. -/
def WalletRequest.op : WalletRequest → Wallet.WalletOp
  | .lock dto => .lock dto
  | .unlock dto => .unlock dto
  | .settleTrade dto => .settleTrade dto

/-- What the wallet service answers where it throws. -/
def responseText : Wallet.WalletError → String
  | .http status message =>
    "\x7b\"statusCode\":" ++ toString status ++ ",\"message\":\"" ++ message ++ "\"\x7d"
  | .error _ | .database => "\x7b\"statusCode\":500,\"message\":\"Internal server error\"\x7d"

/-- `walletPost`. -/
def Remote.walletPost (remote : Remote) (request : WalletRequest) : Except Failure Remote :=
  match remote.wallet.exec .fin some request.op with
  | .error e => .error ⟨.http 400 ("wallet request failed: " ++ responseText e), false⟩
  | .ok (_, wallet) => .ok { remote with wallet := wallet, served := remote.served ++ [request] }

theorem walletPost_eq_ok {remote remote' : Remote} {request : WalletRequest} :
    remote.walletPost request = .ok remote' ↔
      ∃ reply wallet, remote.wallet.exec .fin some request.op = .ok (reply, wallet) ∧
        remote' = { remote with wallet := wallet, served := remote.served ++ [request] } := by
  rw [Remote.walletPost]
  cases hexec : remote.wallet.exec .fin some request.op with
  | error e => exact iff_of_false (fun h => nomatch h) fun ⟨_, _, h, _⟩ => nomatch h
  | ok p =>
      constructor
      · intro h
        cases h
        exact ⟨p.1, p.2, rfl, rfl⟩
      · rintro ⟨_, _, h, rfl⟩
        cases h
        rfl

variable (codec : DecimalCodec) (parse : DecimalParser)

/-- The effect of an operation. -/
def Remote.handle (operation : Operation) (input : CallFiles × UuidSource) (remote : Remote) :
    Except Failure (Answer × Remote) :=
  match operation with
  | .saveOrder row => .ok (.done, { remote with rows := saveOrder remote.rows row })
  | .updateOrder id filledQuantity status =>
    .ok (.done, { remote with rows := updateOrder remote.rows id filledQuantity status })
  | .saveTrade trade => .ok (.done, { remote with trades := saveTrade remote.trades trade })
  | .walletPost request => (remote.walletPost request).map fun remote => (.done, remote)
  | .submitOrder order =>
    match engineOrder parse order with
    | none => .error ⟨.error "invalid decimal", false⟩
    | some request =>
      match remote.engine.submitOrder codec input.1 input.2 order.symbol request with
      | .error _ => .error ⟨.error "panic", false⟩
      | .ok (report, dropped, engine) =>
        .ok (.report report, { remote with
          engine := engine
          handled := if logs remote.engine input.1 then
              remote.handled ++
                [⟨order.symbol, request, report.accepted, report.fills, fillsOf dropped⟩]
            else remote.handled })
  | .cancelOrder orderId symbol userId =>
    match remote.engine.cancelOrder input.1 symbol orderId userId with
    | .error _ => .error ⟨.error "panic", false⟩
    | .ok (done, engine) => .ok (.cancelled done, { remote with engine := engine })
  | .findRows | .produce | .resolved => .ok (.done, remote)

/-- What an operation is answered, and what it leaves; a promise that is resolved does not fail. -/
def perform (operation : Operation) (attempt : Attempt Failure (CallFiles × UuidSource))
    (remote : Remote) : Answer × Remote :=
  match operation with
  | .resolved => (.done, remote)
  | operation =>
    match attempt.run (Remote.handle codec parse operation) remote with
    | (.ok answer, remote) => (answer, remote)
    | (.error failure, remote) => (.failed failure, remote)

/-- Where an operation can fail. -/
theorem perform_eq {operation : Operation} (h : operation ≠ .resolved)
    (attempt : Attempt Failure (CallFiles × UuidSource)) (remote : Remote) :
    perform codec parse operation attempt remote
      = match attempt.run (Remote.handle codec parse operation) remote with
        | (.ok answer, remote) => (answer, remote)
        | (.error failure, remote) => (.failed failure, remote) := by
  cases operation with
  | resolved => exact absurd rfl h
  | _ => rfl

/-! ### The code between two points -/

inductive OrderCall
  | placeOrder (uuid : String) (dto : PlaceOrderDto)
  | cancelOrder (orderId symbol userId : String)
  deriving DecidableEq

/-- Where a call goes on, with its local variables: after what it has awaited. -/
inductive Point
  | checked (uuid : String) (dto : PlaceOrderDto)
  | saved (order : StoredOrder)
  | locked (order : StoredOrder)
  | submitted (order : StoredOrder) (attempt : ℕ)
  | unreachable (error : TradingError)
  | rejectedUpdated (order : StoredOrder) (report : ExecutionReport)
  | rejectedUnlocked (order : StoredOrder) (report : ExecutionReport)
  | settled (order : StoredOrder) (report : ExecutionReport) (fill : Fill) (rest : List Fill)
  | recorded (order : StoredOrder) (report : ExecutionReport) (fill : Fill) (rest : List Fill)
  | makerUpdated (order : StoredOrder) (report : ExecutionReport) (maker : String) (rest : List Fill)
  | makerUnlocked (order : StoredOrder) (report : ExecutionReport) (maker : String) (rest : List Fill)
  | produced (order : StoredOrder) (report : ExecutionReport) (rest : List Fill)
  | orderUpdated (order : StoredOrder) (report : ExecutionReport)
  | unlocked (order : StoredOrder) (report : ExecutionReport) (restLock : Decimal)
  | announced (order : StoredOrder) (report : ExecutionReport)
  | matched (order : StoredOrder) (report : ExecutionReport)
  | cancelAnswered (orderId symbol userId : String) (attempt : ℕ)
  | cancelUnlocked (orderId : String)
  | cancelSaved (orderId : String)
  | cancelAnnounced
  deriving DecidableEq

/-- How a call ends; one that throws after the engine has accepted its order is abandoned. -/
inductive Outcome
  | placed (order : StoredOrder) (report : ExecutionReport)
  | cancelled (done : Bool)
  | threw (error : TradingError)
  | abandoned (error : TradingError)
  deriving DecidableEq

/-- The engine has accepted the order of the call. -/
def Point.taken : Point → Bool
  | .settled _ _ _ _ | .recorded _ _ _ _ | .makerUpdated _ _ _ _ | .makerUnlocked _ _ _ _
  | .produced _ _ _ | .orderUpdated _ _ | .unlocked _ _ _ | .announced _ _ | .matched _ _ => true
  | _ => false

abbrev OrderPause := Pause Operation Point Outcome

/-- `unlockBalance`. -/
def unlocking (order : StoredOrder) (amount : Decimal) (point : Point) : OrderPause :=
  if amount ≤ 0 then .await .resolved point
  else .await (.walletPost (.unlock (TradingService.mutationOf order amount))) point

variable (service : TradingService) (maxRetries : ℕ)

/-- `assertCanTrade` once its rows are read, and `placeOrder` up to the insertion of the row. -/
def afterCheck (uuid : String) (dto : PlaceOrderDto) : OrderPause :=
  match service.assertCanTrade dto.userId dto.accountId with
  | .error e => .finish (.threw e)
  | .ok () =>
    match newOrder uuid dto with
    | .error e => .finish (.threw e)
    | .ok order => .await (.saveOrder (OrderEntity.create order)) (.saved order)

/-- `placeOrder` up to the lock. -/
def afterSave (order : StoredOrder) : OrderPause :=
  match estimateLockAmount order (splitSymbol order.symbol).2 service.takerFeeBps with
  | .error e => .finish (.threw e)
  | .ok amount =>
    .await (.walletPost (.lock (TradingService.mutationOf order amount)))
      (.locked { order with lockedAmount := amount })

/-- The loop of `placeOrder`: the next trade is settled, or the order is updated. -/
def nextTrade (memory : Memory) (order : StoredOrder) (report : ExecutionReport) : List Fill → OrderPause
  | [] =>
    let order := TradingService.fillIncoming order report (report.fills.map (service.toTrade order))
    .await (.updateOrder order.id (some order.filledQuantity) order.status) (.orderUpdated order report)
  | fill :: rest =>
    let maker := memory.orders.find? fun maker => maker.id = fill.makerOrderId
    let makerSide := (maker.map StoredOrder.side).getD (MatchingEngine.opposite order.side)
    .await (.walletPost (.settleTrade
      (TradingService.settlement (service.toTrade order fill) makerSide))) (.settled order report fill rest)

/-- `placeOrder` from the answer of the engine on. -/
def afterReport (memory : Memory) (order : StoredOrder) (report : ExecutionReport) : OrderPause :=
  if report.accepted = false then
    .await (.updateOrder order.id none .rejected)
      (.rejectedUpdated { order with status := .rejected } report)
  else nextTrade service memory order report report.fills

/-- `applyFillToLocalOrders` up to the update of the row of the maker. -/
def applyFill (memory : Memory) (order : StoredOrder) (report : ExecutionReport) (fill : Fill)
    (rest : List Fill) : OrderPause × Memory :=
  match memory.orders.find? fun maker => maker.id = fill.makerOrderId with
  | none => (.await .produce (.produced order report rest), memory)
  | some maker =>
    let filled := service.fillMaker maker (service.toTrade order fill)
    (.await (.updateOrder maker.id (some filled.filledQuantity) filled.status)
      (.makerUpdated order report maker.id rest), memory.change maker.id fun _ => filled)

/-- `applyFillToLocalOrders` from there on. -/
def releaseMaker (memory : Memory) (order : StoredOrder) (report : ExecutionReport) (id : String)
    (rest : List Fill) : OrderPause :=
  match memory.object id with
  | none => .await .produce (.produced order report rest)
  | some maker =>
    if maker.status = .filled then unlocking maker maker.lockedAmount (.makerUnlocked order report id rest)
    else .await .produce (.produced order report rest)

/-- `unlockUnusedIncomingLock`. -/
def unlockUnused (order : StoredOrder) (report : ExecutionReport) : OrderPause :=
  let consumed := report.fills.foldl (fun total fill =>
    total + consumedLockForFill order.side fill.price fill.quantity service.takerFeeBps) 0
  let restLock := if shouldRest order then
    remainingLock order (splitSymbol order.symbol).2 service.takerFeeBps else 0
  unlocking order (order.lockedAmount - consumed - restLock) (.unlocked order report restLock)

/-- The end of `placeOrder`. -/
def finishPlacing (memory : Memory) (order : StoredOrder) (report : ExecutionReport) :
    OrderPause × Memory :=
  (.finish (.placed order report),
    if shouldRest order then { memory with orders := memory.orders ++ [order] } else memory)

/-- `cancelOrder` from the answer of the engine on. -/
def afterCancel (memory : Memory) (orderId symbol userId : String) (done : Bool) : OrderPause × Memory :=
  let order := memory.orders.find? fun order =>
    order.id = orderId ∧ order.symbol = symbol ∧ order.userId = userId
  match done, order with
  | true, some order =>
    (unlocking order order.lockedAmount (.cancelUnlocked orderId),
      { memory with released := memory.released ++ [(orderId, order.lockedAmount)] })
  | _, _ => (.finish (.cancelled done), memory)

/-- The code that follows a point where the operation has failed. -/
def resumeFailed (failure : Failure) : Point → OrderPause
  | .submitted order attempt =>
    if failure.retryable = true ∧ attempt < maxRetries then
      .await (.submitOrder order) (.submitted order (attempt + 1))
    else unlocking order order.lockedAmount
      (.unreachable (.http 503 ("matching engine unavailable: " ++ failure.error.message)))
  | .cancelAnswered orderId symbol userId attempt =>
    if failure.retryable = true ∧ attempt < maxRetries then
      .await (.cancelOrder orderId symbol userId) (.cancelAnswered orderId symbol userId (attempt + 1))
    else .finish (.threw failure.error)
  | point => .finish (if point.taken then .abandoned failure.error else .threw failure.error)

/-- The code that follows a point where the operation has been answered. -/
def resumeDone (memory : Memory) : Point → Answer → OrderPause × Memory
  | .submitted order _, .report report => (afterReport service memory order report, memory)
  | .cancelAnswered orderId symbol userId _, .cancelled done =>
    afterCancel memory orderId symbol userId done
  | .checked uuid dto, _ => (afterCheck service uuid dto, memory)
  | .saved order, _ => (afterSave service order, memory)
  | .locked order, _ => (.await (.submitOrder order) (.submitted order 0), memory)
  | .unreachable error, _ => (.finish (.threw error), memory)
  | .rejectedUpdated order report, _ =>
    (unlocking order order.lockedAmount (.rejectedUnlocked order report), memory)
  | .rejectedUnlocked order report, _ => (.finish (.placed order report), memory)
  | .settled order report fill rest, _ =>
    (.await (.saveTrade (service.toTrade order fill)) (.recorded order report fill rest), memory)
  | .recorded order report fill rest, _ => applyFill service memory order report fill rest
  | .makerUpdated order report maker rest, _ => (releaseMaker memory order report maker rest, memory)
  | .makerUnlocked order report maker rest, _ =>
    (.await .produce (.produced order report rest),
      (memory.change maker fun maker => { maker with lockedAmount := 0 }).splice maker)
  | .produced order report rest, _ => (nextTrade service memory order report rest, memory)
  | .orderUpdated order report, _ => (unlockUnused service order report, memory)
  | .unlocked order report restLock, _ =>
    (.await .produce (.announced { order with lockedAmount := restLock } report), memory)
  | .announced order report, _ =>
    if report.fills.isEmpty then finishPlacing memory order report
    else (.await .produce (.matched order report), memory)
  | .matched order report, _ => finishPlacing memory order report
  | .cancelUnlocked orderId, _ =>
    (.await (.updateOrder orderId none .cancelled) (.cancelSaved orderId),
      memory.change orderId fun order => { order with lockedAmount := 0, status := .cancelled })
  | .cancelSaved orderId, _ => (.await .produce .cancelAnnounced, memory.splice orderId)
  | .cancelAnnounced, _ => (.finish (.cancelled true), memory)
  -- the engine gives no other answers
  | _, _ => (.finish (.threw (.error "unexpected answer")), memory)

/-- **The code that follows a point.** -/
def resume (point : Point) (answer : Answer) (memory : Memory) : OrderPause × Memory :=
  match answer with
  | .failed failure => (resumeFailed maxRetries failure point, memory)
  | answer => resumeDone service memory point answer

/-- The code of a call up to its first `await`. -/
def enter (call : OrderCall) (memory : Memory) : OrderPause × Memory :=
  match call with
  | .placeOrder uuid dto => (.await .findRows (.checked uuid dto), memory)
  | .cancelOrder orderId symbol userId =>
    match requireSymbol symbol with
    | .error e => (.finish (.threw e), memory)
    | .ok symbol =>
      (.await (.cancelOrder orderId symbol userId) (.cancelAnswered orderId symbol userId 0), memory)

abbrev OrderThread := Thread OrderCall Operation Answer Point Outcome

abbrev OrderWorld := World OrderCall Memory Remote Operation Answer Point Outcome

abbrev OrderTurn := Turn OrderCall (Attempt Failure (CallFiles × UuidSource))

/-- **The program**: `placeOrder` and `cancelOrder` of a service with its users, accounts and fees. -/
def program : Program OrderCall Memory Remote Operation Answer Point Outcome
    (Attempt Failure (CallFiles × UuidSource)) where
  enter := enter
  resume := resume service maxRetries
  perform := perform codec parse

/-- No call has been made. -/
def start (wallet : Wallet.Database) (persistence : Option MatchingEngine.Persistence) : OrderWorld :=
  ⟨⟨[], [], []⟩, ⟨[], [], wallet, [], ⟨.empty, persistence⟩, []⟩, []⟩

end NexusTrade.Trading
