import NexusTrade.Lib.Retry
import NexusTrade.MatchingEngine.Acceptance
import NexusTrade.Trading.Liveness

/-!
# Retried calls on the engine

`GrpcMatchingClient` of `packages/shared/src/grpc/matching-client.ts` between the trading service and the
matching engine: `unary` sends a request again when it sees an error that it may retry, whether or not the
engine has handled the request before.

* **`unary`**, **`TradingSystem.placeOrderRetried`** and **`TradingSystem.cancelOrderRetried`**: the two
  operations of the service through the client;
* **`Accepted`**: the engine has accepted an order;
* **`PlacedOnce`** and **`CancelledOnce`**: what the service makes of a call is what the engine did;
* **`KeepsResponses`**: the condition on a call under which it is.
-/

namespace NexusTrade.Trading

open MatchingEngine (Side OrderKind Decimal Fill ExecutionReport OrderBook Core CallFiles UuidSource
  DecimalCodec orderIds)

/-! ### The client -/

/-- A `ServiceError`; `retryable` says that its code is one of those of `isRetryable`. -/
structure GrpcError where
  message : String
  retryable : Bool
  deriving DecidableEq

/-- `unary`, with `maxRetries` retries. -/
def unary {ι β : Type} (maxRetries : ℕ) (handle : ι → Core → Except GrpcError (β × Core))
    (pattern : ℕ → Attempt GrpcError ι) (engine : Core) : Except GrpcError β × Core :=
  Attempt.retry GrpcError.retryable handle pattern maxRetries 0 engine

variable (codec : DecimalCodec) (parse : DecimalParser)

/-- The engine handles `submitOrder`; a request that it cannot read is an invalid argument. -/
def handleSubmit (order : StoredOrder) (input : CallFiles × UuidSource) (engine : Core) :
    Except GrpcError (ExecutionReport × Core) :=
  match submitToEngine codec parse engine input.1 input.2 order with
  | .error message => .error ⟨message, false⟩
  | .ok r => .ok r

/-- The engine handles `cancelOrder`. -/
def handleCancel (orderId symbol userId : String) (files : CallFiles) (engine : Core) :
    Except GrpcError (Bool × Core) :=
  match engine.cancelOrder files symbol orderId userId with
  | .error _ => .error ⟨"panic", false⟩
  | .ok r => .ok r

/-! ### The service -/

/-- A call on the trading service, with what happens to the attempts of its request. -/
inductive RetriedCall
  | placeOrder (uuid : String) (pattern : ℕ → Attempt GrpcError (CallFiles × UuidSource))
      (dto : PlaceOrderDto)
  | cancelOrder (pattern : ℕ → Attempt GrpcError CallFiles) (orderId symbol userId : String)

namespace TradingSystem

variable (maxRetries : ℕ)

/-- `placeOrder`. -/
def placeOrderRetried (system : TradingSystem) (uuid : String)
    (pattern : ℕ → Attempt GrpcError (CallFiles × UuidSource)) (dto : PlaceOrderDto) :
    TradingReply × TradingSystem :=
  match system.prepare uuid dto with
  | .error e => (.threw e, system)
  | .ok order =>
    let trading := system.trading.lockBalance order order.lockedAmount
    match unary maxRetries (handleSubmit codec parse order) pattern system.engine with
    | (.error e, engine) =>
      (.threw (.http 503 ("matching engine unavailable: " ++ e.message)),
        ⟨trading.unlockBalance order order.lockedAmount, engine⟩)
    | (.ok report, engine) =>
      let (order, trading) := trading.takeReport order report
      (.placed order report, ⟨trading, engine⟩)

/-- `cancelOrder`. -/
def cancelOrderRetried (system : TradingSystem) (pattern : ℕ → Attempt GrpcError CallFiles)
    (orderId symbol userId : String) : TradingReply × TradingSystem :=
  match requireSymbol symbol with
  | .error e => (.threw e, system)
  | .ok symbol =>
    match unary maxRetries (handleCancel orderId symbol userId) pattern system.engine with
    | (.error e, engine) => (.threw (.error e.message), { system with engine := engine })
    | (.ok cancelled, engine) =>
      (.cancelled cancelled, ⟨system.trading.takeCancel orderId symbol userId cancelled, engine⟩)

/-- One call. -/
def execRetried (system : TradingSystem) : RetriedCall → Except Empty (TradingReply × TradingSystem)
  | .placeOrder uuid pattern dto => .ok (system.placeOrderRetried codec parse maxRetries uuid pattern dto)
  | .cancelOrder pattern orderId symbol userId =>
    .ok (system.cancelOrderRetried maxRetries pattern orderId symbol userId)

end TradingSystem

/-! ### What is claimed of a call -/

/-- The engine has accepted an order. -/
def Accepted (engine : Core) (symbol id : String) : Prop := (bookOf engine symbol).Accepted id

instance (engine : Core) (symbol id : String) : Decidable (Accepted engine symbol id) :=
  inferInstanceAs (Decidable ((bookOf engine symbol).Accepted id))

/-- What the fills of an order have consumed of its lock. -/
def consumedLock (service : TradingService) (order : StoredOrder) (fills : List Fill) : Decimal :=
  fills.foldl (fun total fill =>
    total + consumedLockForFill order.side fill.price fill.quantity service.takerFeeBps) 0

/-- **An order that the engine has accepted** is not rejected, and its lock is not released: of it is
unlocked only what neither its fills nor what is left of it need. -/
def PlacedOnce (system system' : TradingSystem) (uuid : String) (dto : PlaceOrderDto)
    (reply : TradingReply) : Prop :=
  ∀ order, system.prepare uuid dto = .ok order → Accepted system'.engine order.symbol order.id →
    ∃ placed report, reply = .placed placed report ∧ placed.status ≠ .rejected ∧
      (∀ mutation, .unlock mutation ∈ system'.trading.requests.drop system.trading.requests.length →
        mutation.referenceId = order.id → mutation.amount = .fin (order.lockedAmount
          - consumedLock system.trading order report.fills - placed.lockedAmount)) ∧
      (order.id ∈ orderIds (liveOrders system'.engine order.symbol) →
        placed ∈ system'.trading.orders ∧ placed.lockedAmount
          = remainingLock placed (splitSymbol order.symbol).2 system.trading.takerFeeBps)

/-- **An order that the engine has cancelled** is one of the service, which releases its lock. -/
def CancelledOnce (system system' : TradingSystem) (orderId symbol : String) (reply : TradingReply) :
    Prop :=
  orderId ∈ orderIds (liveOrders system.engine symbol) →
  orderId ∉ orderIds (liveOrders system'.engine symbol) →
    reply = .cancelled true ∧ ∃ order ∈ system.trading.orders, order.id = orderId ∧
      order.symbol = symbol ∧ (∀ o ∈ system'.trading.orders, o.id ≠ orderId) ∧
      { order with lockedAmount := 0, status := .cancelled } ∈ system'.trading.closed ∧
      system'.trading.requests = system.trading.requests ++
        if order.lockedAmount ≤ 0 then []
        else [.unlock (TradingService.mutationOf order order.lockedAmount)]

/-- What is claimed of a call that has been answered. -/
def HadEffectOnce (system system' : TradingSystem) (reply : TradingReply) : RetriedCall → Prop
  | .placeOrder uuid _ dto => PlacedOnce system system' uuid dto reply
  | .cancelOrder _ orderId symbol _ => CancelledOnce system system' orderId symbol reply

/-- **A call has its effect once.** -/
def ExactlyOnce (maxRetries : ℕ) (system : TradingSystem) (call : RetriedCall) : Prop :=
  ∀ reply system', system.execRetried codec parse maxRetries call = .ok (reply, system') →
    HadEffectOnce system system' reply call

/-! ### Conditions on a call -/

/-- The identifier drawn for an order is new, to the service and to the engine. -/
def NewToBoth (system : TradingSystem) : RetriedCall → Prop
  | .placeOrder uuid _ dto =>
    uuid ∉ (system.trading.orders ++ system.trading.closed).map StoredOrder.id ∧
      ¬Accepted system.engine dto.symbol uuid
  | .cancelOrder _ _ _ _ => True

instance (system : TradingSystem) : DecidablePred (NewToBoth system)
  | .placeOrder uuid _ dto => inferInstanceAs (Decidable
      (uuid ∉ (system.trading.orders ++ system.trading.closed).map StoredOrder.id ∧
        ¬Accepted system.engine dto.symbol uuid))
  | .cancelOrder _ _ _ _ => inferInstanceAs (Decidable True)

/-- An order that the service can follow in the engine: it is no stop order, and its quantity is read as
it was sent. -/
def Followed (order : StoredOrder) : Prop :=
  order.type.isStop = false ∧
    ∀ request ∈ engineOrder parse order, request.originalQuantity = order.quantity

instance (order : StoredOrder) : Decidable (Followed parse order) :=
  inferInstanceAs (Decidable (_ ∧ _))

/-- The condition on an order that is sent: no response is lost to a submission after which the engine has
accepted it, and none is answered that leaves it to the engine if the service cannot follow it. -/
def KeepsSubmitted (maxRetries : ℕ) (engine : Core) (order : StoredOrder)
    (pattern : ℕ → Attempt GrpcError (CallFiles × UuidSource)) : Prop :=
  Attempt.AllSpare GrpcError.retryable (fun _ engine => Accepted engine order.symbol order.id)
    (fun _ engine => order.id ∈ orderIds (liveOrders engine order.symbol) ∧ ¬Followed parse order)
    (handleSubmit codec parse order) pattern maxRetries 0 engine

instance (maxRetries : ℕ) (engine : Core) (order : StoredOrder)
    (pattern : ℕ → Attempt GrpcError (CallFiles × UuidSource)) :
    Decidable (KeepsSubmitted codec parse maxRetries engine order pattern) :=
  inferInstanceAs (Decidable (Attempt.AllSpare _ _ _ _ _ _ _ _))

/-- The condition on `placeOrder`: it is that on the order, for one that is sent. -/
def KeepsPlacing (maxRetries : ℕ) (engine : Core)
    (pattern : ℕ → Attempt GrpcError (CallFiles × UuidSource)) : Except TradingError StoredOrder → Prop
  | .error _ => True
  | .ok order => KeepsSubmitted codec parse maxRetries engine order pattern

instance (maxRetries : ℕ) (engine : Core) (pattern : ℕ → Attempt GrpcError (CallFiles × UuidSource)) :
    DecidablePred (KeepsPlacing codec parse maxRetries engine pattern)
  | .error _ => inferInstanceAs (Decidable True)
  | .ok order => inferInstanceAs (Decidable (KeepsSubmitted codec parse maxRetries engine order pattern))

/-- **The condition on a call.**  No response is lost to a cancellation that was made. -/
def KeepsResponses (maxRetries : ℕ) (system : TradingSystem) : RetriedCall → Prop
  | .placeOrder uuid pattern dto =>
    KeepsPlacing codec parse maxRetries system.engine pattern (system.prepare uuid dto)
  | .cancelOrder pattern orderId symbol userId =>
    Attempt.AllSpare GrpcError.retryable (fun done _ => done = true) (fun _ _ => False)
      (handleCancel orderId symbol userId) pattern maxRetries 0 system.engine

instance (maxRetries : ℕ) (system : TradingSystem) :
    DecidablePred (KeepsResponses codec parse maxRetries system)
  | .placeOrder uuid pattern dto => inferInstanceAs (Decidable
      (KeepsPlacing codec parse maxRetries system.engine pattern (system.prepare uuid dto)))
  | .cancelOrder pattern orderId symbol userId => inferInstanceAs (Decidable
      (Attempt.AllSpare GrpcError.retryable (fun done _ => done = true) (fun _ _ => False)
        (handleCancel orderId symbol userId) pattern maxRetries 0 system.engine))

end NexusTrade.Trading
