import NexusTrade.Gateway.Routes
import NexusTrade.MatchingEngine.Reported
import NexusTrade.MatchingEngine.StopCascade
import NexusTrade.Trading.Liveness

/-!
# Orders that come through the gateway

`placeOrder` of the gateway names the fields that it forwards, and `stopPrice` is not one of them.  So no stop order
ever waits in the engine, and nothing that it executes is set off by a trade: every fill is in a report that the
trading service takes.

* **`readPlaceOrder`**: the body of an order, as the trading service validates it;
* **`FrontCall`** and **`frontExec`**: a request through the gateway, or a cancellation at the trading service;
* **`Unstopped`**: no stop order is pending;
* **`front_orders_are_reported`**: in every run the audit logs grow by the fills that are reported, and stop orders are
  refused.
-/

namespace NexusTrade.Gateway

open MatchingEngine (Core CoreInv CallFiles UuidSource DecimalCodec Side OrderKind Fill ExecutionReport AuditGrowth)
open Trading (PlaceOrderDto DecimalText DecimalParser StoredOrder TradingReply TradingSystem bookOf)

/-! ### The order as it is validated -/

/-- `OrderSide`. -/
def sideOf : String → Option Side
  | "BUY" => some .buy
  | "SELL" => some .sell
  | _ => none

/-- `OrderType`. -/
def typeOf : String → Option OrderKind
  | "MARKET" => some .market
  | "LIMIT" => some .limit
  | "STOP_MARKET" => some .stopMarket
  | "STOP_LIMIT" => some .stopLimit
  | "IOC" => some .ioc
  | "FOK" => some .fok
  | "POST_ONLY" => some .postOnly
  | _ => none

/-- A field with `@IsOptional()` and `@IsString()`. -/
def optionalText (body : Body) (name : String) : Option (Option String) :=
  match field body name with
  | none => some none
  | some .null => some none
  | some (.string value) => some (some value)
  | some _ => none

/-- The fields of `PlaceOrderDto`; a body with another field is refused. -/
def placeOrderFields : List String :=
  ["userId", "accountId", "symbol", "side", "type", "price", "stopPrice", "quantity", "clientOrderId"]

/-- **The body of an order, as the validation pipe reads it**; `decimal` is how `decimal.js` reads a text. -/
def readPlaceOrder (decimal : String → DecimalText) (body : Body) : Option PlaceOrderDto := do
  guard (body.all fun entry => placeOrderFields.contains entry.1)
  let userId ← stringField body "userId"
  let accountId ← stringField body "accountId"
  let symbol ← stringField body "symbol"
  let side ← (stringField body "side").bind sideOf
  let type ← (stringField body "type").bind typeOf
  let price ← optionalText body "price"
  let stopPrice ← optionalText body "stopPrice"
  let quantity ← stringField body "quantity"
  let _ ← optionalText body "clientOrderId"
  some
    { userId := userId
      accountId := accountId
      symbol := symbol
      side := side
      type := type
      price := price.map decimal
      stopPrice := stopPrice.map decimal
      quantity := decimal quantity }

/-! ### The system -/

/-- A request for an order through the gateway, with what the services draw for it, or a cancellation, which the
gateway does not offer. -/
inductive FrontCall
  | order (request : Request) (body : Body) (uuid : String) (files : CallFiles) (source : UuidSource)
  | cancelOrder (files : CallFiles) (orderId symbol userId : String)

/-- The gateway or the validation refuses a request, or the trading service answers it. -/
inductive FrontReply
  | refused (error : ServiceError)
  | invalid
  | answered (reply : TradingReply)
  deriving DecidableEq

section System

variable (config : AccessConfig) (decimal : String → DecimalText) (codec : DecimalCodec) (parse : DecimalParser)

def frontExec (system : TradingSystem) : FrontCall → Except Empty (FrontReply × TradingSystem)
  | .order request body uuid files source =>
    match receive config request (.placeOrder body) with
    | .error error => .ok (.refused error, system)
    | .ok (.answer _) => .ok (.invalid, system)
    | .ok (.forward forward) =>
      match forward.body.bind (readPlaceOrder decimal) with
      | none => .ok (.invalid, system)
      | some dto =>
        let (reply, system) := system.placeOrder codec parse uuid files source dto
        .ok (.answered reply, system)
  | .cancelOrder files orderId symbol userId =>
    let (reply, system) := system.cancelOrder files orderId symbol userId
    .ok (.answered reply, system)

end System

/-- The fills on a symbol in the reports of a reply. -/
def FrontReply.reported (symbol : String) : FrontReply → List Fill
  | .answered (.placed order report) => if order.symbol = symbol then report.fills else []
  | .answered (.threw _) | .answered (.cancelled _) | .refused _ | .invalid => []

/-- A stop order is refused. -/
def FrontReply.RefusesStops : FrontReply → Prop
  | .answered (.placed order report) => order.type.isStop = true → report.accepted = false
  | .answered (.threw _) | .answered (.cancelled _) | .refused _ | .invalid => True

/-- **No stop order is pending.** -/
def Unstopped (engine : Core) : Prop := ∀ symbol, (bookOf engine symbol).stopOrders = []

/-! ### What the gateway leaves out -/

theorem literal_keys {fields : List (String × Option Json)} {name : String}
    (h : name ∉ fields.map Prod.fst) : field (literal fields) name = none := by
  have hfind : (literal fields).find? (fun entry => entry.1 = name) = none := by
    refine List.find?_eq_none.mpr fun entry hentry heq => h ?_
    obtain ⟨source, hsource, hmap⟩ := List.mem_filterMap.mp hentry
    obtain ⟨value, _, rfl⟩ := Option.map_eq_some_iff.mp hmap
    exact List.mem_map.mpr ⟨source, hsource, of_decide_eq_true heq⟩
  rw [field, hfind]
  rfl

/-- An order that the gateway forwards has no stop price. -/
theorem stopPrice_of_read {decimal : String → DecimalText} {userId : String} {body : Body} {dto : PlaceOrderDto}
    (h : readPlaceOrder decimal (orderBody userId body) = some dto) : dto.stopPrice = none := by
  have habsent : field (orderBody userId body) "stopPrice" = none := literal_keys (by simp)
  have hoptional : optionalText (orderBody userId body) "stopPrice" = some none := by
    rw [optionalText, habsent]
  simp only [readPlaceOrder, hoptional, Option.bind_eq_bind, Option.bind_eq_some_iff, Option.some.injEq] at h
  obtain ⟨_, _, _, _, _, _, _, _, _, _, _, _, _, _, stopPrice, rfl, _, _, _, _, rfl⟩ := h
  rfl

/-- What the gateway forwards for an order. -/
theorem forward_order {config : AccessConfig} {request : Request} {body : Body} {forward : Forwarded}
    (h : receive config request (.placeOrder body) = .ok (.forward forward)) :
    ∃ userId, forward.body = some (orderBody userId body) := by
  obtain ⟨_, _, h⟩ := bind_eq_ok.mp h
  obtain ⟨found, _, h⟩ := bind_eq_ok.mp h
  cases hfound : configured found with
  | none =>
      rw [hfound] at h
      cases h
  | some userId =>
      rw [hfound] at h
      obtain ⟨_, _, hsent⟩ := bind_eq_ok.mp h
      exact ⟨userId, by rw [← Handled.forward.inj (Except.ok.inj hsent)]⟩

/-! ### An order without a stop price -/

section Engine

variable {engine : Core} {symbol : String}

theorem auditLog_bookOf (engine : Core) (symbol : String) :
    engine.auditLog symbol = (bookOf engine symbol).auditLog := rfl

/-- **A submission without a stop price** to an engine without stop orders executes what it reports. -/
theorem submission_reported (codec : DecimalCodec) (files : CallFiles) (source : UuidSource)
    {request : MatchingEngine.Order} (hinv : CoreInv engine) (hstops : Unstopped engine)
    (hsymbol : MatchingEngine.normalizeSymbol symbol = symbol) (hstop : request.stopPrice = none) :
    ∃ report dropped engine', engine.submitOrder codec files source symbol request
        = .ok (report, dropped, engine') ∧ CoreInv engine' ∧ Unstopped engine' ∧
      (∀ other, AuditGrowth (engine.auditLog other) (if symbol = other then report.fills else [])
        (engine'.auditLog other)) ∧
      (request.kind.isStop = true → report.accepted = false) := by
  obtain ⟨report, dropped, engine', hsubmit, hinv', hcase⟩ :=
    Trading.submitOrder_cases codec files source request hinv hsymbol (hstops symbol)
  refine ⟨report, dropped, engine', hsubmit, hinv', ?_⟩
  rcases hcase with ⟨_, haccepted, hfills, rfl⟩ | ⟨book, _, hsubmitted, hbooks⟩
  · refine ⟨hstops, fun other => ?_, fun _ => haccepted⟩
    rw [hfills, ite_self]
    exact AuditGrowth.refl _
  have hrefused : request.kind.isStop = true → report.accepted = false := by
    intro hkind
    cases hsubmitted with
    | refused => rfl
    | held _ _ hsome =>
        rw [hstop] at hsome
        cases hsome
    | killed _ hfok _ =>
        rw [hfok] at hkind
        cases hkind
    | executed _ hnone =>
        rw [hnone] at hkind
        cases hkind
  have hbook : ∀ other, bookOf engine' other = if other = symbol then book else bookOf engine other :=
    Trading.bookOf_insert hbooks
  refine ⟨fun other => ?_, fun other => ?_, hrefused⟩
  · rw [hbook other]
    by_cases hother : other = symbol
    · rw [if_pos hother, hsubmitted.pending (Trading.bookOf_inv hinv symbol), hstops symbol,
        MatchingEngine.OrderBook.held]
      cases hkind : request.kind.isStop with
      | false => rfl
      | true =>
          rw [hrefused hkind]
          rfl
    · rw [if_neg hother]
      exact hstops other
  · rw [auditLog_bookOf, auditLog_bookOf, hbook other]
    by_cases hother : other = symbol
    · subst hother
      rw [if_pos rfl, if_pos rfl]
      exact hsubmitted.audit
    · rw [if_neg hother, if_neg fun h => hother h.symm]
      exact AuditGrowth.refl _

/-- **A cancellation** executes nothing. -/
theorem cancellation_silent (files : CallFiles) (orderId userId : String) (hinv : CoreInv engine)
    (hstops : Unstopped engine) (hsymbol : MatchingEngine.normalizeSymbol symbol = symbol) :
    ∃ done engine', engine.cancelOrder files symbol orderId userId = .ok (done, engine') ∧ CoreInv engine' ∧
      Unstopped engine' ∧ ∀ other, engine'.auditLog other = engine.auditLog other := by
  obtain ⟨done, engine', hcancel, hinv', hcase⟩ := Trading.cancelOrder_cases files orderId userId hinv hsymbol
  refine ⟨done, engine', hcancel, hinv', ?_⟩
  rcases hcase with ⟨_, hbooks⟩ | ⟨book, _, hcancelled, hbooks⟩
  · have hsame := Trading.bookOf_congr hbooks
    refine ⟨fun other => ?_, fun other => ?_⟩
    · rw [hsame other]
      exact hstops other
    · rw [auditLog_bookOf, auditLog_bookOf, hsame other]
  · have hbook : ∀ other, bookOf engine' other = if other = symbol then book else bookOf engine other :=
      Trading.bookOf_insert hbooks
    refine ⟨fun other => ?_, fun other => ?_⟩
    · rw [hbook other]
      by_cases hother : other = symbol
      · rw [if_pos hother]
        refine List.eq_nil_of_subset_nil ?_
        rw [← hstops symbol]
        exact hcancelled.stopOrders_subset
      · rw [if_neg hother]
        exact hstops other
    · rw [auditLog_bookOf, auditLog_bookOf, hbook other]
      by_cases hother : other = symbol
      · rw [if_pos hother, hcancelled.audit, hother]
      · rw [if_neg hother]

end Engine

/-! ### One call -/

/-- What a call keeps, and what it reports. -/
structure Reports (system : TradingSystem) (reply : FrontReply) (system' : TradingSystem) : Prop where
  inv : CoreInv system'.engine
  stops : Unstopped system'.engine
  audit : ∀ symbol, AuditGrowth (system.engine.auditLog symbol) (reply.reported symbol) (system'.engine.auditLog symbol)
  refuses : reply.RefusesStops

/-- A call that leaves the engine alone. -/
theorem Reports.idle {system system' : TradingSystem} (hinv : CoreInv system.engine)
    (hstops : Unstopped system.engine) (hengine : system'.engine = system.engine) {reply : FrontReply}
    (hnothing : ∀ order report, reply ≠ .answered (.placed order report)) : Reports system reply system' := by
  have hreported : ∀ symbol, reply.reported symbol = [] := by
    intro symbol
    unfold FrontReply.reported
    split
    · exact absurd rfl (hnothing _ _)
    all_goals rfl
  refine ⟨hengine ▸ hinv, hengine ▸ hstops, fun symbol => ?_, ?_⟩
  · rw [hreported symbol, hengine]
    exact AuditGrowth.refl _
  · unfold FrontReply.RefusesStops
    split
    · exact absurd rfl (hnothing _ _)
    all_goals trivial

/-- The order that `placeOrder` returns is the one that it made. -/
theorem takeReport_fields (service : Trading.TradingService) (order : StoredOrder) (report : ExecutionReport) :
    (service.takeReport order report).1.symbol = order.symbol ∧ (service.takeReport order report).1.type = order.type := by
  rw [Trading.TradingService.takeReport]
  split
  · exact ⟨rfl, rfl⟩
  · exact ⟨rfl, rfl⟩

/-- What is prepared for an order without a stop price. -/
theorem prepare_stopless {system : TradingSystem} {uuid : String} {dto : PlaceOrderDto} {order : StoredOrder}
    (h : system.prepare uuid dto = .ok order) (hstop : dto.stopPrice = none) :
    MatchingEngine.normalizeSymbol order.symbol = order.symbol ∧ order.stopPrice = none := by
  obtain ⟨_, _, h⟩ := bind_eq_ok.mp h
  obtain ⟨made, hmade, h⟩ := bind_eq_ok.mp h
  obtain ⟨locked, _, h⟩ := bind_eq_ok.mp h
  have hsymbol := Trading.normalizeSymbol_of_isSymbol (Trading.newOrder_spec hmade).symbol
  obtain ⟨_, _, hmade⟩ := bind_eq_ok.mp hmade
  obtain ⟨_, _, hmade⟩ := bind_eq_ok.mp hmade
  obtain ⟨_, _, hmade⟩ := bind_eq_ok.mp hmade
  obtain ⟨stopPrice, hread, hmade⟩ := bind_eq_ok.mp hmade
  rw [hstop] at hread
  cases hread
  cases hmade
  cases h
  exact ⟨hsymbol, rfl⟩

/-- What the engine is sent for an order without a stop price. -/
theorem engineOrder_stopless {parse : DecimalParser} {order : StoredOrder} {request : MatchingEngine.Order}
    (h : Trading.engineOrder parse order = some request) (hstop : order.stopPrice = none) :
    request.stopPrice = none ∧ request.kind = order.type := by
  obtain ⟨price, stopPrice, quantity, _, hread, _, rfl⟩ := Trading.engineOrder_fields h
  rw [hstop] at hread
  exact ⟨(Option.some.inj hread).symm, rfl⟩

section Steps

variable {config : AccessConfig} {decimal : String → DecimalText} {codec : DecimalCodec} {parse : DecimalParser}
  {system : TradingSystem}

/-- **An order without a stop price** is reported. -/
theorem placeOrder_reports (hinv : CoreInv system.engine) (hstops : Unstopped system.engine) (uuid : String)
    (files : CallFiles) (source : UuidSource) {dto : PlaceOrderDto} (hstop : dto.stopPrice = none) :
    Reports system (.answered (system.placeOrder codec parse uuid files source dto).1)
      (system.placeOrder codec parse uuid files source dto).2 := by
  rw [TradingSystem.placeOrder]
  cases hprepared : system.prepare uuid dto with
  | error e =>
      refine Reports.idle hinv hstops rfl fun order report h => ?_
      cases h
  | ok order =>
      obtain ⟨hsymbol, hnone⟩ := prepare_stopless hprepared hstop
      cases hrequest : Trading.engineOrder parse order with
      | none =>
          simp only [Trading.submitToEngine, hrequest]
          apply Reports.idle hinv hstops
          · rfl
          · intro placed report h
            cases h
      | some request =>
          obtain ⟨hrequestStop, hkind⟩ := engineOrder_stopless hrequest hnone
          obtain ⟨report, dropped, engine', hsubmit, hinv', hstops', haudit, hrefused⟩ :=
            submission_reported codec files source hinv hstops hsymbol hrequestStop
          simp only [Trading.submitToEngine, hrequest, hsubmit]
          obtain ⟨hplacedSymbol, hplacedType⟩ := takeReport_fields
            (system.trading.lockBalance order order.lockedAmount) order report
          refine ⟨hinv', hstops', fun symbol => ?_, ?_⟩
          · show AuditGrowth _ (if (_ : StoredOrder).symbol = symbol then report.fills else []) _
            rw [hplacedSymbol]
            exact haudit symbol
          · show (_ : StoredOrder).type.isStop = true → report.accepted = false
            rw [hplacedType, ← hkind]
            exact hrefused

theorem cancelOrder_reports (hinv : CoreInv system.engine) (hstops : Unstopped system.engine) (files : CallFiles)
    (orderId symbol userId : String) :
    Reports system (.answered (system.cancelOrder files orderId symbol userId).1)
      (system.cancelOrder files orderId symbol userId).2 := by
  rw [TradingSystem.cancelOrder]
  by_cases hsymbol : Trading.isSymbol symbol = true
  · obtain ⟨done, engine', hcancel, hinv', hstops', haudit⟩ := cancellation_silent files orderId userId hinv hstops
      (Trading.normalizeSymbol_of_isSymbol hsymbol)
    simp only [Trading.requireSymbol, if_pos hsymbol, hcancel]
    refine ⟨hinv', hstops', fun other => ?_, trivial⟩
    rw [haudit other]
    exact AuditGrowth.refl _
  · simp only [Trading.requireSymbol, if_neg hsymbol]
    refine Reports.idle hinv hstops rfl fun order report h => ?_
    cases h

/-- **One call** of the system behind the gateway. -/
theorem frontExec_reports (hinv : CoreInv system.engine) (hstops : Unstopped system.engine) {call : FrontCall}
    {reply : FrontReply} {system' : TradingSystem}
    (h : frontExec config decimal codec parse system call = .ok (reply, system')) : Reports system reply system' := by
  cases call with
  | cancelOrder files orderId symbol userId =>
      cases h
      exact cancelOrder_reports hinv hstops files orderId symbol userId
  | order request body uuid files source =>
      rw [frontExec] at h
      cases hreceived : receive config request (.placeOrder body) with
      | error error =>
          rw [hreceived] at h
          cases h
          exact Reports.idle hinv hstops rfl fun order report h => by cases h
      | ok handled =>
          rw [hreceived] at h
          cases handled with
          | answer body =>
              cases h
              exact Reports.idle hinv hstops rfl fun order report h => by cases h
          | forward forward =>
              obtain ⟨userId, hbody⟩ := forward_order hreceived
              simp only [hbody, Option.bind_some] at h
              cases hread : readPlaceOrder decimal (orderBody userId body) with
              | none =>
                  rw [hread] at h
                  cases h
                  exact Reports.idle hinv hstops rfl fun order report h => by cases h
              | some dto =>
                  rw [hread] at h
                  cases h
                  exact placeOrder_reports hinv hstops uuid files source (stopPrice_of_read hread)

end Steps

/-! ### Runs -/

/-- **Orders that come through the gateway are reported.**  In every run from an engine without stop orders none is
ever pending, a stop order is refused, and the audit log of each symbol grows by the fills, one by one, in the reports
that the trading service answers with. -/
theorem front_orders_are_reported (config : AccessConfig) (decimal : String → DecimalText) (codec : DecimalCodec)
    (parse : DecimalParser) (calls : List FrontCall) :
    ∀ {system system' : TradingSystem} {replies : List FrontReply}, CoreInv system.engine → Unstopped system.engine →
      Machine.run (frontExec config decimal codec parse) system calls = .ok (replies, system') →
      Unstopped system'.engine ∧ (∀ reply ∈ replies, reply.RefusesStops) ∧
      ∀ symbol, AuditGrowth (system.engine.auditLog symbol) (replies.flatMap (FrontReply.reported symbol))
        (system'.engine.auditLog symbol) := by
  induction calls with
  | nil =>
      intro system system' replies _ hstops hrun
      cases hrun
      refine ⟨hstops, ?_, fun symbol => AuditGrowth.refl _⟩
      intro reply hreply
      cases hreply
  | cons call calls ih =>
      intro system system' replies hinv hstops hrun
      obtain ⟨reply, middle, rest, hexec, hrest, rfl⟩ := Machine.run_cons_ok.mp hrun
      have hstep := frontExec_reports hinv hstops hexec
      obtain ⟨hstops', hrefuses, haudit⟩ := ih hstep.inv hstep.stops hrest
      refine ⟨hstops', ?_, fun symbol => ?_⟩
      · intro other hother
        rcases List.mem_cons.mp hother with rfl | hother
        · exact hstep.refuses
        · exact hrefuses other hother
      · rw [List.flatMap_cons]
        exact (hstep.audit symbol).trans (haudit symbol)

/-! ### A run -/

/-- A gateway that knows two users. -/
def frontConfig : AccessConfig where
  jwtSecret := some "secret"
  verify := fun token _ =>
    if token = "alice-token" then some ⟨some "alice", none, ["user"]⟩
    else if token = "bob-token" then some ⟨some "bob", none, ["user"]⟩
    else none
  apiKeySecret := none
  hmac := fun _ text => text
  serviceAuthToken := none

/-- How two numbers are read. -/
def readNumber (text : String) : DecimalText :=
  if text = "100" then .number (.fin 100) else if text = "1" then .number (.fin 1) else .malformed text

/-- A request for an order at a price, which is the stop price as well. -/
def orderRequest (user accountId side type uuid : String) : FrontCall :=
  .order ⟨some ("Bearer " ++ user ++ "-token"), none, none, none, "POST", "/api/v3/orders", 0⟩
    [("accountId", .string accountId), ("pair", .string "BTCUSDT"), ("side", .string side), ("type", .string type),
      ("price", .string "100"), ("stopPrice", .string "100"), ("quantity", .string "1")]
    uuid MatchingEngine.filesOk fun _ => uuid

/-- A stop order, an offer, and an order that takes the offer at the stop price. -/
def frontCalls : List FrontCall :=
  [orderRequest "alice" "account-1" "BUY" "STOP_LIMIT" "stop", orderRequest "bob" "account-2" "SELL" "LIMIT" "offer",
    orderRequest "alice" "account-1" "BUY" "LIMIT" "taker"]

theorem front_orders_are_reported_stop :
    ∃ replies system', Machine.run (frontExec frontConfig readNumber MatchingEngine.fractionCodec some)
        Trading.quietMarket frontCalls = .ok (replies, system') ∧
      (replies.flatMap (FrontReply.reported "BTC-USDT")).length = 1 ∧ Unstopped system'.engine ∧
      AuditGrowth [] (replies.flatMap (FrontReply.reported "BTC-USDT")) (system'.engine.auditLog "BTC-USDT") := by
  obtain ⟨replies, system', hrun⟩ := Machine.run_returns
    (frontExec frontConfig readNumber MatchingEngine.fractionCodec some) Trading.quietMarket frontCalls
  have hlength : (Machine.run (frontExec frontConfig readNumber MatchingEngine.fractionCodec some)
      Trading.quietMarket frontCalls).map
        (fun result => (result.1.flatMap (FrontReply.reported "BTC-USDT")).length) = .ok 1 := by
    decide +kernel
  rw [hrun] at hlength
  obtain ⟨hstops, _, haudit⟩ := front_orders_are_reported frontConfig readNumber MatchingEngine.fractionCodec some
    frontCalls (MatchingEngine.coreInv_empty none) (fun _ => rfl) hrun
  exact ⟨replies, system', hrun, Except.ok.inj hlength, hstops, haudit "BTC-USDT"⟩

end NexusTrade.Gateway
