import NexusTrade.MatchingEngine.Core
import NexusTrade.Wallet.Service

/-!
# The trading service

`TradingService` of `services/trading-service/src/services/trading.service.ts`, in front of the matching
engine: its `placeOrder` and `cancelOrder`, the requests it sends to the wallet service, and the handlers
of `services/matching-engine/src/main.rs` between the two.

Prices, quantities and fees are exact.  A number that the service sends is read by `rust_decimal`, which is
a parameter.  The database and the topics are only written to, and are left out; the requests to the wallet
service succeed and are recorded.

* **`estimateLockAmount`**, **`consumedLockForFill`** and **`remainingLock`** are the amounts locked;
* **`TradingService.takeReport`** is `placeOrder` from the answer of the engine on;
* **`TradingSystem.placeOrder`** and **`TradingSystem.cancelOrder`** are the two operations.
-/

namespace NexusTrade.Trading

open MatchingEngine (Side OrderKind Decimal Fill ExecutionReport Core CallFiles UuidSource
  DecimalCodec toAsciiUppercase)

/-! ### Data -/

inductive OrderStatus
  | new
  | partiallyFilled
  | filled
  | cancelled
  | rejected
  | expired
  | triggered
  deriving DecidableEq, Repr

/-- What the service throws: an `Error` or an `HttpException`. -/
inductive TradingError
  | error (message : String)
  | http (status : ℕ) (message : String)
  deriving DecidableEq

/-- The text of a number in a request: empty, blank, refused by `decimal.js`, or one that denotes an amount. -/
inductive DecimalText
  | empty
  | blank
  | malformed (text : String)
  | number (value : Amount)
  deriving DecidableEq

/-- The sides and order types of the service have the names of those of the engine. -/
structure PlaceOrderDto where
  userId : String
  accountId : String
  symbol : String
  side : Side
  type : OrderKind
  price : Option DecimalText
  stopPrice : Option DecimalText
  quantity : DecimalText
  deriving DecidableEq

structure StoredOrder where
  id : String
  userId : String
  accountId : String
  symbol : String
  side : Side
  type : OrderKind
  price : Option Decimal
  stopPrice : Option Decimal
  quantity : Decimal
  filledQuantity : Decimal
  status : OrderStatus
  lockedAsset : String
  lockedAmount : Decimal
  deriving DecidableEq

structure Trade where
  id : String
  symbol : String
  makerOrderId : String
  takerOrderId : String
  makerUserId : String
  takerUserId : String
  price : Decimal
  quantity : Decimal
  feeAsset : String
  makerFee : Decimal
  takerFee : Decimal
  deriving DecidableEq

structure AccountEntity where
  id : String
  userId : String
  isFrozen : Bool
  deriving DecidableEq

/-- A request to the wallet service. -/
inductive WalletRequest
  | lock (dto : Wallet.BalanceMutationDto)
  | unlock (dto : Wallet.BalanceMutationDto)
  | settleTrade (dto : Wallet.SettlementDto)
  deriving DecidableEq

/-! ### Validation -/

/-- `[A-Z0-9]`. -/
def isSymbolChar (c : Char) : Bool :=
  (65 ≤ c.toNat && c.toNat ≤ 90) || (48 ≤ c.toNat && c.toNat ≤ 57)

/-- `/^[A-Z0-9]{2,12}-[A-Z0-9]{2,12}$/`. -/
def isSymbol (symbol : String) : Bool :=
  let base := symbol.toList.takeWhile isSymbolChar
  match symbol.toList.dropWhile isSymbolChar with
  | [] => false
  | separator :: quote =>
    separator = '-' && (2 ≤ base.length && base.length ≤ 12) &&
      (2 ≤ quote.length && quote.length ≤ 12) && quote.all isSymbolChar

def requireSymbol (symbol : String) : Except TradingError String :=
  if isSymbol symbol then .ok symbol else .error (.error "symbol must be formatted as BASE-QUOTE")

/-- `requireDecimalString`. -/
def requireDecimalString (value : DecimalText) (field : String) : Except TradingError Decimal :=
  match value with
  | .empty | .blank => .error (.error (field ++ " must be a decimal string"))
  | .malformed text => .error (.error ("[DecimalError] Invalid argument: " ++ text))
  | .number (.fin q) => .ok q
  | .number (.inf _) => .error (.error (field ++ " must be finite"))
  | .number .nan => .error (.error (field ++ " must be finite"))

/-- A field that may be missing: `value ? requireDecimalString(value, field) : undefined`. -/
def optionalDecimal (value : Option DecimalText) (field : String) :
    Except TradingError (Option Decimal) :=
  match value with
  | none | some .empty => .ok none
  | some value => do
    let q ← requireDecimalString value field
    .ok (some q)

/-- `splitSymbol`. -/
def splitSymbol (symbol : String) : String × String :=
  (String.ofList (symbol.toList.takeWhile (· ≠ '-')),
    String.ofList (((symbol.toList.dropWhile (· ≠ '-')).drop 1).takeWhile (· ≠ '-')))

/-! ### Amounts -/

/-- `calculateFee`. -/
def calculateFee (notional feeBps : Decimal) : Decimal := notional * feeBps / 10000

/-- `estimateLockAmount`. -/
def estimateLockAmount (order : StoredOrder) (quoteAsset : String) (feeBps : Decimal) :
    Except TradingError Decimal :=
  match order.side with
  | .sell => .ok order.quantity
  | .buy =>
    match order.price with
    | none => .error (.http 400 "buy orders require price for pre-trade balance locking")
    | some price =>
      let notional := price * order.quantity
      .ok (if quoteAsset ≠ "" then notional + calculateFee notional feeBps else notional)

/-- `consumedLockForFill`. -/
def consumedLockForFill (side : Side) (price quantity feeBps : Decimal) : Decimal :=
  match side with
  | .sell => quantity
  | .buy => price * quantity + calculateFee (price * quantity) feeBps

/-- `remainingLock`. -/
def remainingLock (order : StoredOrder) (quoteAsset : String) (takerFeeBps : Decimal) : Decimal :=
  let remainingQuantity := order.quantity - order.filledQuantity
  match order.side, order.price with
  | .sell, _ => remainingQuantity
  | .buy, none => 0
  | .buy, some price =>
    let notional := price * remainingQuantity
    if quoteAsset ≠ "" then notional + calculateFee notional takerFeeBps else notional

/-- `shouldRest`. -/
def shouldRest (order : StoredOrder) : Bool :=
  decide (0 < order.quantity - order.filledQuantity) &&
    (order.status = .new || order.status = .partiallyFilled)

/-- `status_to_wire`. -/
def statusToWire : MatchingEngine.OrderStatus → String
  | .new => "NEW"
  | .partiallyFilled => "PARTIALLY_FILLED"
  | .filled => "FILLED"
  | .cancelled => "CANCELLED"
  | .expired => "EXPIRED"
  | .rejected => "REJECTED"
  | .pendingStop => "PENDING_STOP"

/-- `mapOrderStatus`. -/
def mapOrderStatus (status : String) : OrderStatus :=
  let normalized := String.ofList (status.toList.map toAsciiUppercase)
  if normalized = "NEW" then .new
  else if normalized = "PARTIALLY_FILLED" then .partiallyFilled
  else if normalized = "FILLED" then .filled
  else if normalized = "CANCELLED" then .cancelled
  else if normalized = "EXPIRED" then .expired
  else .rejected

/-! ### The service -/

/-- `TradingService`, with the rows that it reads; `orders` are the orders it takes to be live, `closed`
those that are no longer in `orders` or never were, as the service left them. -/
structure TradingService where
  users : SortedMap String UserStatus
  accounts : List AccountEntity
  makerFeeBps : Decimal
  takerFeeBps : Decimal
  orders : List StoredOrder
  closed : List StoredOrder
  requests : List WalletRequest
  deriving DecidableEq

/-- The order that `placeOrder` makes of its argument. -/
def newOrder (uuid : String) (dto : PlaceOrderDto) : Except TradingError StoredOrder := do
  let symbol ← requireSymbol dto.symbol
  let price ← optionalDecimal dto.price "price"
  let quantity ← requireDecimalString dto.quantity "quantity"
  let stopPrice ← optionalDecimal dto.stopPrice "stopPrice"
  .ok
    { id := uuid
      userId := dto.userId
      accountId := dto.accountId
      symbol := symbol
      side := dto.side
      type := dto.type
      price := price
      stopPrice := stopPrice
      quantity := quantity
      filledQuantity := 0
      status := .new
      lockedAsset := if dto.side = .buy then (splitSymbol symbol).2 else (splitSymbol symbol).1
      lockedAmount := 0 }

namespace TradingService

/-- `assertCanTrade`. -/
def assertCanTrade (service : TradingService) (userId accountId : String) : Except TradingError Unit :=
  match service.users.find userId with
  | none => .error (.http 404 "user not found")
  | some status =>
    if status = .frozen ∨ status = .closed then .error (.http 403 "account is not active")
    else match service.accounts.find? fun account => account.id = accountId ∧ account.userId = userId with
      | none => .error (.http 404 "account not found")
      | some account => if account.isFrozen then .error (.http 403 "account is frozen") else .ok ()

/-- The body of a request about the lock of an order. -/
def mutationOf (order : StoredOrder) (amount : Decimal) : Wallet.BalanceMutationDto :=
  ⟨order.userId, order.lockedAsset, .fin amount, order.id⟩

/-- `lockBalance`. -/
def lockBalance (service : TradingService) (order : StoredOrder) (amount : Decimal) : TradingService :=
  { service with requests := service.requests ++ [.lock (mutationOf order amount)] }

/-- `unlockBalance`. -/
def unlockBalance (service : TradingService) (order : StoredOrder) (amount : Decimal) :
    TradingService :=
  if amount ≤ 0 then service
  else { service with requests := service.requests ++ [.unlock (mutationOf order amount)] }

/-- `toTrades`, for one fill. -/
def toTrade (service : TradingService) (incoming : StoredOrder) (fill : Fill) : Trade :=
  let notional := fill.price * fill.quantity
  { id := fill.tradeId
    symbol := incoming.symbol
    makerOrderId := fill.makerOrderId
    takerOrderId := fill.takerOrderId
    makerUserId := fill.makerUserId
    takerUserId := fill.takerUserId
    price := fill.price
    quantity := fill.quantity
    feeAsset := (splitSymbol incoming.symbol).2
    makerFee := calculateFee notional service.makerFeeBps
    takerFee := calculateFee notional service.takerFeeBps }

/-- What `settleTrade` sends. -/
def settlement (trade : Trade) (makerSide : Side) : Wallet.SettlementDto where
  makerUserId := trade.makerUserId
  takerUserId := trade.takerUserId
  makerSide := match makerSide with | .buy => "BUY" | .sell => "SELL"
  baseAsset := (splitSymbol trade.symbol).1
  quoteAsset := (splitSymbol trade.symbol).2
  price := .fin trade.price
  quantity := .fin trade.quantity
  makerFee := some (.fin trade.makerFee)
  takerFee := some (.fin trade.takerFee)
  referenceId := trade.id

/-- `settleTrade`. -/
def settleTrade (service : TradingService) (incoming : StoredOrder) (trade : Trade) : TradingService :=
  let maker := service.orders.find? fun order => order.id = trade.makerOrderId
  let makerSide := (maker.map StoredOrder.side).getD (MatchingEngine.opposite incoming.side)
  { service with requests := service.requests ++ [.settleTrade (settlement trade makerSide)] }

/-- The maker after a trade, before its lock is released. -/
def fillMaker (service : TradingService) (maker : StoredOrder) (trade : Trade) : StoredOrder :=
  let filledQuantity := maker.filledQuantity + trade.quantity
  { maker with
    filledQuantity := filledQuantity
    lockedAmount := maker.lockedAmount
      - consumedLockForFill maker.side trade.price trade.quantity service.makerFeeBps
    status := if filledQuantity ≥ maker.quantity then .filled else .partiallyFilled }

/-- `applyFillToLocalOrders`. -/
def applyFillToLocalOrders (service : TradingService) (trade : Trade) : TradingService :=
  match service.orders.findIdx? fun order => order.id = trade.makerOrderId with
  | none => service
  | some pos =>
    match service.orders[pos]? with
    | none => service
    | some maker =>
      let maker := service.fillMaker maker trade
      if maker.status = .filled then
        let service := service.unlockBalance maker maker.lockedAmount
        { service with
          orders := service.orders.eraseIdx pos
          closed := service.closed ++ [{ maker with lockedAmount := 0 }] }
      else { service with orders := service.orders.set pos maker }

/-- The loop of `placeOrder` over the trades. -/
def applyTrades (service : TradingService) (incoming : StoredOrder) (trades : List Trade) :
    TradingService :=
  trades.foldl (fun service trade => (service.settleTrade incoming trade).applyFillToLocalOrders trade)
    service

/-- `unlockUnusedIncomingLock`. -/
def unlockUnusedIncomingLock (service : TradingService) (order : StoredOrder) (fills : List Fill) :
    StoredOrder × TradingService :=
  let consumed := fills.foldl (fun total fill =>
    total + consumedLockForFill order.side fill.price fill.quantity service.takerFeeBps) 0
  let restLock := if shouldRest order then
    remainingLock order (splitSymbol order.symbol).2 service.takerFeeBps else 0
  let unused := order.lockedAmount - consumed - restLock
  ({ order with lockedAmount := restLock }, service.unlockBalance order unused)

/-- The order after its fills. -/
def fillIncoming (order : StoredOrder) (report : ExecutionReport) (trades : List Trade) : StoredOrder :=
  { order with
    filledQuantity := trades.foldl (fun filled trade => filled + trade.quantity) order.filledQuantity
    status := mapOrderStatus (statusToWire report.status) }

/-- `placeOrder` after the answer of the engine. -/
def takeReport (service : TradingService) (order : StoredOrder) (report : ExecutionReport) :
    StoredOrder × TradingService :=
  if report.accepted = false then
    let order := { order with status := .rejected }
    let service := service.unlockBalance order order.lockedAmount
    (order, { service with closed := service.closed ++ [order] })
  else
    let trades := report.fills.map (service.toTrade order)
    let service := service.applyTrades order trades
    let order := fillIncoming order report trades
    let (order, service) := service.unlockUnusedIncomingLock order report.fills
    (order, if shouldRest order then { service with orders := service.orders ++ [order] }
      else { service with closed := service.closed ++ [order] })

/-- `cancelOrder` after the answer of the engine. -/
def takeCancel (service : TradingService) (orderId symbol userId : String) (cancelled : Bool) :
    TradingService :=
  let pos := service.orders.findIdx? fun order =>
    order.id = orderId ∧ order.symbol = symbol ∧ order.userId = userId
  match cancelled, pos with
  | true, some pos =>
    match service.orders[pos]? with
    | none => service
    | some order =>
      let service := service.unlockBalance order order.lockedAmount
      { service with
        orders := service.orders.eraseIdx pos
        closed := service.closed ++ [{ order with lockedAmount := 0, status := .cancelled }] }
  | _, _ => service

end TradingService

/-! ### The service and the engine -/

/-- How `rust_decimal` reads the text of a number, if it does. -/
abbrev DecimalParser := Decimal → Option Decimal

/-- An empty text is no number, and another is one or an error. -/
def parseOptional (parse : DecimalParser) : Option Decimal → Option (Option Decimal)
  | none => some none
  | some q => (parse q).map some

/-- The order that `submit_order` of `main.rs` makes of a request. -/
def engineOrder (parse : DecimalParser) (order : StoredOrder) : Option MatchingEngine.Order := do
  let price ← parseOptional parse order.price
  let stopPrice ← parseOptional parse order.stopPrice
  let quantity ← parse order.quantity
  some (MatchingEngine.Order.new order.id order.userId order.side order.type price stopPrice quantity)

variable (codec : DecimalCodec) (parse : DecimalParser)

/-- `submit_order` of `main.rs`. -/
def submitToEngine (engine : Core) (files : CallFiles) (source : UuidSource) (order : StoredOrder) :
    Except String (ExecutionReport × Core) :=
  match engineOrder parse order with
  | none => .error "invalid decimal"
  | some request =>
    match engine.submitOrder codec files source order.symbol request with
    | .error _ => .error "panic"
    | .ok (report, _, engine) => .ok (report, engine)

/-- The trading service and the matching engine behind it. -/
structure TradingSystem where
  trading : TradingService
  engine : Core
  deriving DecidableEq

/-- A call on the trading service; with an order come the identifiers that it and the engine draw, and
what the files of the engine do. -/
inductive TradingCall
  | placeOrder (uuid : String) (files : CallFiles) (source : UuidSource) (dto : PlaceOrderDto)
  | cancelOrder (files : CallFiles) (orderId symbol userId : String)

inductive TradingReply
  | threw (error : TradingError)
  | placed (order : StoredOrder) (report : ExecutionReport)
  | cancelled (done : Bool)
  deriving DecidableEq

namespace TradingSystem

/-- `placeOrder` up to the lock: the order, with the amount to lock. -/
def prepare (system : TradingSystem) (uuid : String) (dto : PlaceOrderDto) :
    Except TradingError StoredOrder := do
  system.trading.assertCanTrade dto.userId dto.accountId
  let order ← newOrder uuid dto
  let lockedAmount ← estimateLockAmount order (splitSymbol order.symbol).2 system.trading.takerFeeBps
  .ok { order with lockedAmount := lockedAmount }

/-- `placeOrder`. -/
def placeOrder (system : TradingSystem) (uuid : String) (files : CallFiles) (source : UuidSource)
    (dto : PlaceOrderDto) : TradingReply × TradingSystem :=
  match system.prepare uuid dto with
  | .error e => (.threw e, system)
  | .ok order =>
    let trading := system.trading.lockBalance order order.lockedAmount
    match submitToEngine codec parse system.engine files source order with
    | .error message =>
      (.threw (.http 503 ("matching engine unavailable: " ++ message)),
        { system with trading := trading.unlockBalance order order.lockedAmount })
    | .ok (report, engine) =>
      let (order, trading) := trading.takeReport order report
      (.placed order report, ⟨trading, engine⟩)

/-- `cancelOrder`. -/
def cancelOrder (system : TradingSystem) (files : CallFiles) (orderId symbol userId : String) :
    TradingReply × TradingSystem :=
  match requireSymbol symbol with
  | .error e => (.threw e, system)
  | .ok symbol =>
    match system.engine.cancelOrder files symbol orderId userId with
    | .error _ => (.threw (.error "panic"), system)
    | .ok (cancelled, engine) =>
      (.cancelled cancelled, ⟨system.trading.takeCancel orderId symbol userId cancelled, engine⟩)

/-- One call. -/
def exec (system : TradingSystem) : TradingCall → Except Empty (TradingReply × TradingSystem)
  | .placeOrder uuid files source dto => .ok (system.placeOrder codec parse uuid files source dto)
  | .cancelOrder files orderId symbol userId =>
    .ok (system.cancelOrder files orderId symbol userId)

end TradingSystem

end NexusTrade.Trading
