import NexusTrade.Shared.MatchingClient
import NexusTrade.Trading.Liveness

/-!
# The trading service over the wire

The trading service and the matching engine exchange texts.  The numbers of an order are written by `decimal.js` and
read by `rust_decimal`, those of a fill the other way round, and the sides, types, statuses and reasons have texts of
their own.  The system of `TradingSystem` knows nothing of this; here it is shown that it need not.

* **`TradingSystem.placeOrderOverWire`** and **`TradingSystem.cancelOrderOverWire`**: the operations with the texts;
* **`submitOrder_over_wire`** and **`cancelOrder_over_wire`**: a call of the client is a call on the engine;
* **`runs_over_wire`**: so the two systems give the same answers, and end in the same state, in every run.
-/

namespace NexusTrade.Trading

open MatchingEngine (Decimal Fill ExecutionReport Core CoreInv CallFiles UuidSource DecimalCodec CallError)
open MatchingClient (MatchFill SubmitOrderRequest SubmitOrderResponse)

/-! ### Texts -/

/-- The request of `placeOrder`, with the client's own identifier of the order. -/
def requestOf (decimal : DecimalCodec) (clientOrderId : Option String) (order : StoredOrder) : SubmitOrderRequest where
  orderId := order.id
  userId := order.userId
  symbol := order.symbol
  side := order.side
  orderType := order.type
  price := order.price.map decimal.toString
  quantity := decimal.toString order.quantity
  clientOrderId := clientOrderId
  stopPrice := order.stopPrice.map decimal.toString

/-- How the engine reads a number of the service. -/
def wireParser (decimal codec : DecimalCodec) : DecimalParser := fun q => codec.fromStr (decimal.toString q)

/-- A fill as `placeOrder` reads it. -/
def readFill (decimal : DecimalCodec) (fill : MatchFill) : Option Fill := do
  let price ← decimal.fromStr fill.price
  let quantity ← decimal.fromStr fill.quantity
  some
    { tradeId := fill.tradeId
      makerOrderId := fill.makerOrderId
      takerOrderId := fill.takerOrderId
      makerUserId := fill.makerUserId
      takerUserId := fill.takerUserId
      price := price
      quantity := quantity }

/-- The answer of the engine as `placeOrder` uses it. -/
structure MatchingAnswer where
  orderId : String
  accepted : Bool
  status : String
  fills : List Fill
  rejectReason : Option String
  deriving DecidableEq

def readAnswer (decimal : DecimalCodec) (response : SubmitOrderResponse) : Option MatchingAnswer := do
  let fills ← response.fills.mapM (readFill decimal)
  some ⟨response.orderId, response.accepted, response.status, fills, response.rejectReason⟩

/-- The answer that a report becomes. -/
def answerOf (report : ExecutionReport) : MatchingAnswer :=
  ⟨report.orderId, report.accepted, statusToWire report.status, report.fills, report.rejectReason⟩

/-! ### The service -/

/-- `placeOrder` after the answer of the engine. -/
def TradingService.takeAnswer (service : TradingService) (order : StoredOrder) (answer : MatchingAnswer) :
    StoredOrder × TradingService :=
  if answer.accepted = false then
    let order := { order with status := .rejected }
    let service := service.unlockBalance order order.lockedAmount
    (order, { service with closed := service.closed ++ [order] })
  else
    let trades := answer.fills.map (service.toTrade order)
    let service := service.applyTrades order trades
    let order := { order with
      filledQuantity := trades.foldl (fun filled trade => filled + trade.quantity) order.filledQuantity
      status := mapOrderStatus answer.status }
    let (order, service) := service.unlockUnusedIncomingLock order answer.fills
    (order, if shouldRest order then { service with orders := service.orders ++ [order] }
      else { service with closed := service.closed ++ [order] })

inductive WireReply
  | threw (error : TradingError)
  | placed (order : StoredOrder) (answer : MatchingAnswer)
  | cancelled (done : Bool)
  deriving DecidableEq

namespace TradingSystem

variable (decimal codec : DecimalCodec) (describe : CallError → String) (label : StoredOrder → Option String)

/-- `placeOrder`, with the texts; `describe` is the message that `grpc-js` gives to an error, and `label` the client's own
identifier of an order. -/
def placeOrderOverWire (system : TradingSystem) (uuid : String) (files : CallFiles) (source : UuidSource)
    (dto : PlaceOrderDto) : WireReply × TradingSystem :=
  match system.prepare uuid dto with
  | .error e => (.threw e, system)
  | .ok order =>
    let trading := system.trading.lockBalance order order.lockedAmount
    match MatchingClient.submitOrder codec system.engine files source (requestOf decimal (label order) order) with
    | .error error =>
      (.threw (.http 503 ("matching engine unavailable: " ++ describe error)),
        { system with trading := trading.unlockBalance order order.lockedAmount })
    | .ok (response, engine) =>
      match readAnswer decimal response with
      | none => (.threw (.error "[DecimalError] Invalid argument"), ⟨trading, engine⟩)
      | some answer =>
        let (order, trading) := trading.takeAnswer order answer
        (.placed order answer, ⟨trading, engine⟩)

/-- `cancelOrder`, with the texts. -/
def cancelOrderOverWire (system : TradingSystem) (files : CallFiles) (orderId symbol userId : String) :
    WireReply × TradingSystem :=
  match requireSymbol symbol with
  | .error e => (.threw e, system)
  | .ok symbol =>
    match MatchingClient.cancelOrder system.engine files orderId symbol userId with
    | .error error => (.threw (.error (describe error)), system)
    | .ok (cancelled, engine) =>
      (.cancelled cancelled, ⟨system.trading.takeCancel orderId symbol userId cancelled, engine⟩)

/-- One call. -/
def execOverWire (system : TradingSystem) : TradingCall → Except Empty (WireReply × TradingSystem)
  | .placeOrder uuid files source dto =>
    .ok (system.placeOrderOverWire decimal codec describe label uuid files source dto)
  | .cancelOrder files orderId symbol userId =>
    .ok (system.cancelOrderOverWire describe files orderId symbol userId)

end TradingSystem

/-- **The same reply**, but for the text about an engine that is unavailable. -/
inductive Agree : TradingReply → WireReply → Prop
  | threw (error : TradingError) : Agree (.threw error) (.threw error)
  | unavailable (text text' : String) :
      Agree (.threw (.http 503 ("matching engine unavailable: " ++ text)))
        (.threw (.http 503 ("matching engine unavailable: " ++ text')))
  | placed (order : StoredOrder) (report : ExecutionReport) :
      Agree (.placed order report) (.placed order (answerOf report))
  | cancelled (done : Bool) : Agree (.cancelled done) (.cancelled done)

/-! ### Numbers -/

section Numbers

variable {decimal codec : DecimalCodec}

/-- A number that may be missing is sent as a text that may be empty. -/
theorem parseOptionalDecimal_sent (hwritten : ∀ q, decimal.toString q ≠ "") (price : Option Decimal) :
    MatchingEngine.parseOptionalDecimal codec ((price.map decimal.toString).getD "")
      = match parseOptional (wireParser decimal codec) price with
        | none => .error (.invalidArgument "invalid decimal")
        | some read => .ok read := by
  cases price with
  | none => rfl
  | some q =>
      show MatchingEngine.parseOptionalDecimal codec (decimal.toString q) = _
      rw [MatchingEngine.parseOptionalDecimal, if_neg (hwritten q), MatchingEngine.parseDecimal, parseOptional,
        wireParser]
      cases codec.fromStr (decimal.toString q) <;> rfl

/-- A fill is read as it was written. -/
theorem readFill_fillMessage (hread : ∀ q, decimal.fromStr (codec.toString q) = some q) (fill : Fill) :
    readFill decimal (MatchingClient.matchFill (MatchingEngine.fillMessage codec fill)) = some fill := by
  simp only [readFill, MatchingClient.matchFill, MatchingEngine.fillMessage, hread, Option.bind_eq_bind,
    Option.bind_some]

theorem readAnswer_responseOf (hread : ∀ q, decimal.fromStr (codec.toString q) = some q) (report : ExecutionReport) :
    readAnswer decimal (MatchingClient.responseOf codec report) = some (answerOf report) := by
  have hfills : ∀ fills : List Fill, (fills.map fun fill =>
      MatchingClient.matchFill (MatchingEngine.fillMessage codec fill)).mapM (readFill decimal) = some fills := by
    intro fills
    induction fills with
    | nil => rfl
    | cons fill fills ih =>
        rw [List.map_cons, List.mapM_cons, readFill_fillMessage hread, ih]
        rfl
  rw [readAnswer, MatchingClient.responseOf, hfills]
  rfl

end Numbers

/-! ### Calls -/

section Calls

variable {decimal codec : DecimalCodec} {engine : Core}

/-- A symbol of the service is read as it is. -/
theorem parseSymbol_of_isSymbol {symbol : String} (h : isSymbol symbol = true) :
    MatchingEngine.parseSymbol symbol = .ok symbol := by
  have hnormal := congrArg String.toList (normalizeSymbol_of_isSymbol h)
  rw [MatchingEngine.normalizeSymbol, String.toList_ofList] at hnormal
  -- nothing was trimmed, or the symbol would have become shorter
  have hsublist : List.Sublist (MatchingEngine.trim symbol.toList) symbol.toList :=
    (List.rdropWhile_prefix _ _).sublist.trans (List.dropWhile_sublist _)
  have hlength : (MatchingEngine.trim symbol.toList).length = symbol.toList.length := by
    rw [← List.length_map (f := MatchingEngine.toAsciiUppercase), hnormal]
  apply MatchingClient.parseSymbol_eq
  · exact hsublist.eq_of_length hlength
  · rintro rfl
    cases h

/-- **A submission over the wire** is one to the engine. -/
theorem submitOrder_over_wire (codec : DecimalCodec) (hwritten : ∀ q, decimal.toString q ≠ "") (hinv : CoreInv engine)
    {order : StoredOrder} (hsymbol : isSymbol order.symbol = true) (files : CallFiles) (source : UuidSource) (clientOrderId : Option String) :
    (∃ message error, submitToEngine codec (wireParser decimal codec) engine files source order = .error message ∧
      MatchingClient.submitOrder codec engine files source (requestOf decimal clientOrderId order) = .error error) ∨
    ∃ report engine', submitToEngine codec (wireParser decimal codec) engine files source order = .ok (report, engine') ∧
      CoreInv engine' ∧
      MatchingClient.submitOrder codec engine files source (requestOf decimal clientOrderId order)
        = .ok (MatchingClient.responseOf codec report, engine') := by
  simp only [MatchingClient.submitOrder, MatchingEngine.MatchingService.submitOrder, MatchingClient.toMessage, requestOf,
    MatchingClient.parseSide_sideValue, MatchingClient.parseKind_typeValue, parseOptionalDecimal_sent hwritten,
    parseSymbol_of_isSymbol hsymbol, ok_bind, submitToEngine, engineOrder]
  cases parseOptional (wireParser decimal codec) order.price with
  | none => exact .inl ⟨_, _, rfl, rfl⟩
  | some price =>
      cases parseOptional (wireParser decimal codec) order.stopPrice with
      | none => exact .inl ⟨_, _, rfl, rfl⟩
      | some stopPrice =>
          have hquantity : MatchingEngine.parseDecimal codec (decimal.toString order.quantity)
              = (wireParser decimal codec order.quantity).elim (.error (.invalidArgument "invalid decimal")) .ok := by
            show MatchingEngine.parseDecimal codec _ = (codec.fromStr (decimal.toString order.quantity)).elim _ _
            rw [MatchingEngine.parseDecimal]
            cases codec.fromStr (decimal.toString order.quantity) with
            | none => rfl
            | some quantity => rfl
          rw [hquantity]
          cases wireParser decimal codec order.quantity with
          | none => exact .inl ⟨_, _, rfl, rfl⟩
          | some quantity =>
              let request := MatchingEngine.Order.new order.id order.userId order.side order.type price stopPrice quantity
              obtain ⟨reply, engine', hexec, hinv', hserved⟩ :=
                MatchingEngine.core_exec_spec codec hinv (.submitOrder files source order.symbol request)
              obtain ⟨⟨report, dropped, engine''⟩, hsubmit, hreply⟩ := bind_eq_ok.mp hexec
              cases hreply
              have hreason := MatchingClient.Served.reason_ne hserved
              refine .inr ⟨report, engine', ?_, hinv', ?_⟩
              · simp only [Option.bind_eq_bind, Option.bind_some, request] at hsubmit ⊢
                rw [hsubmit]
              · simp only [request] at hsubmit
                simp only [Option.elim_some, ok_bind, hsubmit, MatchingClient.ofMessage_reportMessage codec hreason]

/-- **A cancellation over the wire** is one at the engine. -/
theorem cancelOrder_over_wire (hinv : CoreInv engine) {symbol : String} (hsymbol : isSymbol symbol = true)
    (files : CallFiles) (orderId userId : String) :
    ∃ done engine', engine.cancelOrder files symbol orderId userId = .ok (done, engine') ∧ CoreInv engine' ∧
      MatchingClient.cancelOrder engine files orderId symbol userId = .ok (done, engine') := by
  obtain ⟨done, engine', hcancel, hinv', _⟩ :=
    cancelOrder_cases files orderId userId hinv (normalizeSymbol_of_isSymbol hsymbol)
  refine ⟨done, engine', hcancel, hinv', ?_⟩
  simp only [MatchingClient.cancelOrder, MatchingEngine.MatchingService.cancelOrder, parseSymbol_of_isSymbol hsymbol,
    ok_bind, hcancel]

/-- What is made of an answer is what is made of the report. -/
theorem takeAnswer_answerOf (service : TradingService) (order : StoredOrder) (report : ExecutionReport) :
    service.takeAnswer order (answerOf report) = service.takeReport order report := rfl

end Calls

/-! ### Runs -/

section Runs

variable {decimal codec : DecimalCodec} {system : TradingSystem}

/-- The order that is prepared has a symbol. -/
theorem prepare_isSymbol {uuid : String} {dto : PlaceOrderDto} {order : StoredOrder}
    (h : system.prepare uuid dto = .ok order) : isSymbol order.symbol = true := by
  obtain ⟨_, _, h⟩ := bind_eq_ok.mp h
  obtain ⟨made, hmade, h⟩ := bind_eq_ok.mp h
  obtain ⟨locked, _, h⟩ := bind_eq_ok.mp h
  cases h
  exact (newOrder_spec hmade).symbol

/-- **One call over the wire.** -/
theorem exec_over_wire (describe : CallError → String) (label : StoredOrder → Option String)
    (hwritten : ∀ q, decimal.toString q ≠ "")
    (hread : ∀ q, decimal.fromStr (codec.toString q) = some q) (hinv : CoreInv system.engine) (call : TradingCall) :
    ∃ reply reply' system', system.exec codec (wireParser decimal codec) call = .ok (reply, system') ∧
      CoreInv system'.engine ∧ system.execOverWire decimal codec describe label call = .ok (reply', system') ∧
      Agree reply reply' := by
  cases call with
  | cancelOrder files orderId symbol userId =>
      simp only [TradingSystem.exec, TradingSystem.execOverWire, TradingSystem.cancelOrder,
        TradingSystem.cancelOrderOverWire]
      by_cases hsymbol : isSymbol symbol = true
      · obtain ⟨done, engine', hcancel, hinv', hwire⟩ := cancelOrder_over_wire hinv hsymbol files orderId userId
        simp only [requireSymbol, if_pos hsymbol, hcancel, hwire]
        exact ⟨_, _, _, rfl, hinv', rfl, .cancelled done⟩
      · simp only [requireSymbol, if_neg hsymbol]
        exact ⟨_, _, _, rfl, hinv, rfl, .threw _⟩
  | placeOrder uuid files source dto =>
      rw [TradingSystem.exec, TradingSystem.execOverWire, TradingSystem.placeOrder, TradingSystem.placeOrderOverWire]
      cases hprepared : system.prepare uuid dto with
      | error error => exact ⟨_, _, _, rfl, hinv, rfl, .threw error⟩
      | ok order =>
          rcases submitOrder_over_wire codec hwritten hinv (prepare_isSymbol hprepared) files source (label order) with
            ⟨message, error, hdirect, hwire⟩ | ⟨report, engine', hdirect, hinv', hwire⟩
          · simp only [hdirect, hwire]
            exact ⟨_, _, _, rfl, hinv, rfl, .unavailable message (describe error)⟩
          · simp only [hdirect, hwire, readAnswer_responseOf hread, takeAnswer_answerOf]
            exact ⟨_, _, _, rfl, hinv', rfl, .placed _ report⟩

/-- **The wire changes nothing.**  `decimal.js` writes no number as an empty text, and reads what `rust_decimal` writes.
Then in every run of the trading service and the engine behind the client and the server, the answers are those of the
two without them, but for the text about an engine that is unavailable, and so is the state at its end. -/
theorem runs_over_wire (hwritten : ∀ q, decimal.toString q ≠ "")
    (hread : ∀ q, decimal.fromStr (codec.toString q) = some q) (describe : CallError → String)
    (label : StoredOrder → Option String) (calls : List TradingCall) :
    ∀ {system : TradingSystem}, CoreInv system.engine →
      ∃ replies replies' system',
        Machine.run (TradingSystem.exec codec (wireParser decimal codec)) system calls = .ok (replies, system') ∧
        Machine.run (TradingSystem.execOverWire decimal codec describe label) system calls = .ok (replies', system') ∧
        List.Forall₂ Agree replies replies' := by
  induction calls with
  | nil => exact fun _ => ⟨[], [], _, rfl, rfl, .nil⟩
  | cons call calls ih =>
      intro system hinv
      obtain ⟨reply, reply', middle, hexec, hinv', hwire, hagree⟩ :=
        exec_over_wire describe label hwritten hread hinv call
      obtain ⟨replies, replies', system', hrun, hrun', hall⟩ := ih hinv'
      exact ⟨reply :: replies, reply' :: replies', system', Machine.run_cons_ok.mpr ⟨_, _, _, hexec, hrun, rfl⟩,
        Machine.run_cons_ok.mpr ⟨_, _, _, hwire, hrun', rfl⟩, .cons hagree hall⟩

end Runs

theorem fractionCodec_written (q : Decimal) : MatchingEngine.fractionCodec.toString q ≠ "" := by
  intro hempty
  have hread : MatchingEngine.fractionCodec.fromStr "" = some q := by
    rw [← hempty]
    exact MatchingEngine.fractionCodec_lawful q
  have hnone : MatchingEngine.fractionCodec.fromStr "" = none := by decide
  rw [hnone] at hread
  cases hread

/-- An offer of two, half of it taken, the rest cancelled, over the wire. -/
theorem runs_over_wire_halfTaken :
    ∃ replies system, Machine.run (TradingSystem.execOverWire MatchingEngine.fractionCodec MatchingEngine.fractionCodec
        (fun _ => "3 INVALID_ARGUMENT: invalid decimal") fun _ => none) quietMarket halfTakenThenCancelled
          = .ok (replies, system) ∧
      system.trading.orders = [] ∧ system.trading.closed.map StoredOrder.status = [.filled, .cancelled] := by
  have hinv : CoreInv quietMarket.engine := MatchingEngine.coreInv_empty none
  obtain ⟨_, replies, system, hrun, hwire, _⟩ := runs_over_wire fractionCodec_written
    MatchingEngine.fractionCodec_lawful (fun _ => "3 INVALID_ARGUMENT: invalid decimal") (fun _ => none)
    halfTakenThenCancelled hinv
  have hends : (Machine.run (TradingSystem.exec MatchingEngine.fractionCodec
      (wireParser MatchingEngine.fractionCodec MatchingEngine.fractionCodec)) quietMarket halfTakenThenCancelled).map
        (fun r => (r.2.trading.orders, r.2.trading.closed.map StoredOrder.status)) = .ok ([], [.filled, .cancelled]) := by
    decide +kernel
  rw [hrun] at hends
  obtain ⟨horders, hclosed⟩ := Prod.mk.inj (Except.ok.inj hends)
  exact ⟨replies, system, hwire, horders, hclosed⟩

end NexusTrade.Trading
