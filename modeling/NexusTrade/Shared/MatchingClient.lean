import NexusTrade.MatchingEngine.Server

/-!
# The client of the matching engine

`GrpcMatchingClient` of `packages/shared/src/grpc/matching-client.ts`: what it makes of its arguments, and of the
answers.  A call is answered at its first attempt.

* **`sideValue`** and **`typeValue`**: the values of the enumerations of `domain.ts`;
* **`toMessage`** and **`ofMessage`**: the two conversions of `submitOrder`;
* **`parseKind_typeValue`**, **`unlessEmpty_getD`**: what is written is read back;
* **`Served.reason_ne`**: the engine never gives an empty reason;
* **`ofMessage_reportMessage`**: so the client gets the report of the engine, with its numbers as texts.
-/

namespace NexusTrade.MatchingClient

open MatchingEngine (Side OrderKind Decimal DecimalCodec Fill ExecutionReport Core CallFiles UuidSource CallError
  FillMessage OrderBook Refused Submitted Executed Served CoreInv CoreReply)

/-! ### Types -/

/-- `OrderSide`. -/
def sideValue : Side → String
  | .buy => "BUY"
  | .sell => "SELL"

/-- `OrderType`. -/
def typeValue : OrderKind → String
  | .market => "MARKET"
  | .limit => "LIMIT"
  | .stopMarket => "STOP_MARKET"
  | .stopLimit => "STOP_LIMIT"
  | .ioc => "IOC"
  | .fok => "FOK"
  | .postOnly => "POST_ONLY"

structure SubmitOrderRequest where
  orderId : String
  userId : String
  symbol : String
  side : Side
  orderType : OrderKind
  price : Option String
  quantity : String
  clientOrderId : Option String
  stopPrice : Option String
  deriving DecidableEq

structure MatchFill where
  tradeId : String
  makerOrderId : String
  takerOrderId : String
  makerUserId : String
  takerUserId : String
  price : String
  quantity : String
  deriving DecidableEq

structure SubmitOrderResponse where
  orderId : String
  accepted : Bool
  status : String
  fills : List MatchFill
  rejectReason : Option String
  deriving DecidableEq

/-! ### Conversions -/

/-- The message of `submitOrder`. -/
def toMessage (request : SubmitOrderRequest) : MatchingEngine.SubmitOrderRequest where
  orderId := request.orderId
  userId := request.userId
  symbol := request.symbol
  side := sideValue request.side
  orderType := typeValue request.orderType
  price := request.price.getD ""
  quantity := request.quantity
  clientOrderId := request.clientOrderId.getD ""
  stopPrice := request.stopPrice.getD ""

/-- `text || undefined`. -/
def unlessEmpty (text : String) : Option String := if text = "" then none else some text

def matchFill (fill : FillMessage) : MatchFill where
  tradeId := fill.tradeId
  makerOrderId := fill.makerOrderId
  takerOrderId := fill.takerOrderId
  makerUserId := fill.makerUserId
  takerUserId := fill.takerUserId
  price := fill.price
  quantity := fill.quantity

/-- What `submitOrder` makes of the answer, of which all fields are there. -/
def ofMessage (response : MatchingEngine.SubmitOrderResponse) : SubmitOrderResponse where
  orderId := response.orderId
  accepted := response.accepted
  status := response.status
  fills := response.fills.map matchFill
  rejectReason := unlessEmpty response.rejectReason

/-! ### Calls -/

section Calls

variable (codec : DecimalCodec) (engine : Core)

def submitOrder (files : CallFiles) (uuid : UuidSource) (request : SubmitOrderRequest) :
    Except CallError (SubmitOrderResponse × Core) := do
  let (response, engine) ← MatchingEngine.MatchingService.submitOrder codec engine files uuid (toMessage request)
  .ok (ofMessage response, engine)

def cancelOrder (files : CallFiles) (orderId symbol userId : String) : Except CallError (Bool × Core) := do
  let (response, engine) ← MatchingEngine.MatchingService.cancelOrder engine files ⟨orderId, symbol, userId⟩
  .ok (response.cancelled, engine)

/-- `getOrderBook`; a depth is sent in 32 bits. -/
def getOrderBook (symbol : String) (depth : ℕ) :
    Except CallError (List (String × String) × List (String × String)) := do
  let response ← MatchingEngine.MatchingService.getOrderBook codec engine ⟨symbol, UInt32.ofNat depth⟩
  .ok (response.bids.map fun level => (level.price, level.quantity),
    response.asks.map fun level => (level.price, level.quantity))

/-- `getOrderStatus`: the status and the filled quantity. -/
def getOrderStatus (orderId symbol : String) : Except CallError (String × String) := do
  let response ← MatchingEngine.MatchingService.getOrderStatus codec engine ⟨orderId, symbol⟩
  .ok (response.status, response.filledQuantity)

end Calls

/-! ### Round trips -/

theorem parseSide_sideValue (side : Side) : MatchingEngine.parseSide (sideValue side) = .ok side := by
  cases side <;> rfl

theorem parseKind_typeValue (kind : OrderKind) : MatchingEngine.parseKind (typeValue kind) = .ok kind := by
  cases kind <;> rfl

theorem unlessEmpty_getD {reason : Option String} (h : reason ≠ some "") : unlessEmpty (reason.getD "") = reason := by
  cases reason with
  | none => rfl
  | some text => exact if_neg fun hempty => h (congrArg some hempty)

/-- A symbol that is neither blank nor padded is read as it is. -/
theorem parseSymbol_eq {symbol : String} (htrim : MatchingEngine.trim symbol.toList = symbol.toList)
    (hne : symbol ≠ "") : MatchingEngine.parseSymbol symbol = .ok symbol := by
  rw [MatchingEngine.parseSymbol, htrim]
  cases hchars : symbol.toList with
  | nil => exact absurd (String.toList_eq_nil_iff.mp hchars) hne
  | cons c cs =>
      show Except.ok (String.ofList (c :: cs)) = _
      rw [← hchars, String.ofList_toList]

/-! ### Reasons -/

/-- No reason for a refusal is empty. -/
theorem Refused.reason_ne {book : OrderBook} {order : MatchingEngine.Order} {reason : String}
    (h : Refused book order reason) : reason ≠ "" := by
  cases h with
  | duplicate => decide
  | quantity => decide
  | price => decide
  | stopPrice => decide
  | postOnly => decide

/-- **A book gives a reason, or none.** -/
theorem Submitted.reason_ne {uuid : UuidSource} {book book' : OrderBook} {order : MatchingEngine.Order}
    {report : ExecutionReport} (h : Submitted uuid book order report book') : report.rejectReason ≠ some "" := by
  cases h with
  | refused reason why => exact fun heq => Refused.reason_ne why (Option.some.inj heq)
  | held | killed => exact fun heq => by cases heq
  | executed _ _ _ _ _ _ result =>
      cases result with
      | blocked => exact fun heq => absurd (Option.some.inj heq) (by decide)
      | finished => exact fun heq => by cases heq

/-- **The engine gives a reason, or none.** -/
theorem Served.reason_ne {codec : DecimalCodec} {core core' : Core} {op : MatchingEngine.CoreOp}
    {report : ExecutionReport} {dropped : List ExecutionReport}
    (h : Served codec core op (.submitted report dropped) core') : report.rejectReason ≠ some "" := by
  cases h with
  | @submitFailed _ _ _ _ error _ =>
      intro heq
      have hempty : "persistence wal append failed: " ++ error = "" := Option.some.inj heq
      have hlength := congrArg String.length hempty
      rw [String.length_append, show "persistence wal append failed: ".length = 31 from rfl] at hlength
      have hzero : "".length = 0 := rfl
      omega
  | submitted _ traded _ =>
      obtain ⟨middle, _, _, hsubmitted, _⟩ := traded.steps
      exact Submitted.reason_ne hsubmitted

/-! ### Answers -/

/-- What the client makes of a report. -/
def responseOf (codec : DecimalCodec) (report : ExecutionReport) : SubmitOrderResponse where
  orderId := report.orderId
  accepted := report.accepted
  status := Trading.statusToWire report.status
  fills := report.fills.map fun fill => matchFill (MatchingEngine.fillMessage codec fill)
  rejectReason := report.rejectReason

theorem ofMessage_reportMessage (codec : DecimalCodec) {report : ExecutionReport}
    (h : report.rejectReason ≠ some "") :
    ofMessage (MatchingEngine.reportMessage codec report) = responseOf codec report := by
  rw [ofMessage, responseOf]
  congr 1
  · exact List.map_map
  · exact unlessEmpty_getD h

end NexusTrade.MatchingClient
