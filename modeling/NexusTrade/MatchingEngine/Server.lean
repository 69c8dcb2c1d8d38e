import NexusTrade.MatchingEngine.Symbols
import NexusTrade.Trading.Service

/-!
# The server of the matching engine

The messages of `packages/shared/src/proto/matching.proto`, and the handlers of
`services/matching-engine/src/main.rs` that answer them.

The fields of a message are always there: one that is not sent has the value that is empty for its type.  So an empty
price is no price, and an empty reason no reason.

* **`parseSide`**, **`parseKind`**, **`parseSymbol`** and **`parseOptionalDecimal`** read the fields of a request;
* **`MatchingService.submitOrder`**, **`cancelOrder`**, **`getOrderBook`** and **`getOrderStatus`** are the handlers.
-/

namespace NexusTrade.MatchingEngine

open Trading (statusToWire)

/-! ### Messages -/

structure SubmitOrderRequest where
  orderId : String
  userId : String
  symbol : String
  side : String
  orderType : String
  price : String
  quantity : String
  clientOrderId : String
  stopPrice : String
  deriving DecidableEq

structure FillMessage where
  tradeId : String
  makerOrderId : String
  takerOrderId : String
  makerUserId : String
  takerUserId : String
  price : String
  quantity : String
  deriving DecidableEq

structure SubmitOrderResponse where
  orderId : String
  accepted : Bool
  status : String
  fills : List FillMessage
  rejectReason : String
  deriving DecidableEq

structure CancelOrderRequest where
  orderId : String
  symbol : String
  userId : String
  deriving DecidableEq

structure CancelOrderResponse where
  cancelled : Bool
  deriving DecidableEq

structure GetOrderBookRequest where
  symbol : String
  depth : UInt32
  deriving DecidableEq

structure PriceLevelMessage where
  price : String
  quantity : String
  deriving DecidableEq

structure GetOrderBookResponse where
  bids : List PriceLevelMessage
  asks : List PriceLevelMessage
  deriving DecidableEq

structure GetOrderStatusRequest where
  orderId : String
  symbol : String
  deriving DecidableEq

structure GetOrderStatusResponse where
  orderId : String
  status : String
  filledQuantity : String
  deriving DecidableEq

/-- How a call fails: with `Status::invalid_argument`, or because the handler panics. -/
inductive CallError
  | invalidArgument (message : String)
  | panicked (panic : Panic)
  deriving DecidableEq

/-! ### Fields -/

def parseSymbol (value : String) : Except CallError String :=
  match trim value.toList with
  | [] => .error (.invalidArgument "symbol is required")
  | c :: cs => .ok (String.ofList (c :: cs))

def parseSide : String → Except CallError Side
  | "BUY" | "Buy" => .ok .buy
  | "SELL" | "Sell" => .ok .sell
  | _ => .error (.invalidArgument "invalid side")

def parseKind : String → Except CallError OrderKind
  | "MARKET" | "Market" => .ok .market
  | "LIMIT" | "Limit" => .ok .limit
  | "STOP_MARKET" | "StopMarket" => .ok .stopMarket
  | "STOP_LIMIT" | "StopLimit" => .ok .stopLimit
  | "IOC" | "Ioc" => .ok .ioc
  | "FOK" | "Fok" => .ok .fok
  | "FOC" => .ok .ioc
  | "POST_ONLY" | "PostOnly" => .ok .postOnly
  | _ => .error (.invalidArgument "invalid order_type")

variable (codec : DecimalCodec)

def parseDecimal (value : String) : Except CallError Decimal :=
  match codec.fromStr value with
  | none => .error (.invalidArgument "invalid decimal")
  | some q => .ok q

/-- A price that is empty is no price. -/
def parseOptionalDecimal (value : String) : Except CallError (Option Decimal) :=
  if value = "" then .ok none
  else do
    let q ← parseDecimal codec value
    .ok (some q)

/-! ### Answers -/

def fillMessage (fill : Fill) : FillMessage where
  tradeId := fill.tradeId
  makerOrderId := fill.makerOrderId
  takerOrderId := fill.takerOrderId
  makerUserId := fill.makerUserId
  takerUserId := fill.takerUserId
  price := codec.toString fill.price
  quantity := codec.toString fill.quantity

def reportMessage (report : ExecutionReport) : SubmitOrderResponse where
  orderId := report.orderId
  accepted := report.accepted
  status := statusToWire report.status
  fills := report.fills.map (fillMessage codec)
  rejectReason := report.rejectReason.getD ""

def levelMessage (level : Decimal × Decimal) : PriceLevelMessage := ⟨codec.toString level.1, codec.toString level.2⟩

/-! ### Handlers -/

namespace MatchingService

variable (engine : Core)

def submitOrder (files : CallFiles) (uuid : UuidSource) (input : SubmitOrderRequest) :
    Except CallError (SubmitOrderResponse × Core) := do
  let side ← parseSide input.side
  let kind ← parseKind input.orderType
  let price ← parseOptionalDecimal codec input.price
  let stopPrice ← parseOptionalDecimal codec input.stopPrice
  let quantity ← parseDecimal codec input.quantity
  let symbol ← parseSymbol input.symbol
  let order := Order.new input.orderId input.userId side kind price stopPrice quantity
  match engine.submitOrder codec files uuid symbol order with
  | .error panic => .error (.panicked panic)
  | .ok (report, _, engine) => .ok (reportMessage codec report, engine)

def cancelOrder (files : CallFiles) (input : CancelOrderRequest) : Except CallError (CancelOrderResponse × Core) := do
  let symbol ← parseSymbol input.symbol
  match engine.cancelOrder files symbol input.orderId input.userId with
  | .error panic => .error (.panicked panic)
  | .ok (cancelled, engine) => .ok (⟨cancelled⟩, engine)

def getOrderBook (input : GetOrderBookRequest) : Except CallError GetOrderBookResponse := do
  let symbol ← parseSymbol input.symbol
  let (bids, asks) := engine.getOrderBook symbol input.depth.toNat
  .ok ⟨bids.map (levelMessage codec), asks.map (levelMessage codec)⟩

def getOrderStatus (input : GetOrderStatusRequest) : Except CallError GetOrderStatusResponse := do
  let symbol ← parseSymbol input.symbol
  let (status, filled) := (engine.getOrderStatus symbol input.orderId).getD (.rejected, 0)
  .ok ⟨input.orderId, statusToWire status, codec.toString filled⟩

end MatchingService

end NexusTrade.MatchingEngine
