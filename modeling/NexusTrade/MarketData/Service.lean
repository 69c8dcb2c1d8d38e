import NexusTrade.Shared.MatchingClient

/-!
# The market data service

`MarketDataService` of `services/market-data-service/src/main.ts`: what it keeps of the trades that the topic delivers
to it, and what it answers.

Prices and quantities are exact.  The service keeps everything in memory, so that its state is that since its last
start.

* **`recordTrade`** and **`handle`**: a trade, and an event of the topic;
* **`getTicker`**, **`getKlines`**, **`getTrades`** and **`getDepth`**: the answers.
-/

namespace NexusTrade.MarketData

open MatchingEngine (Decimal DecimalCodec Core)

/-! ### Data -/

/-- A trade with the time of its execution, in milliseconds. -/
structure ExecutedTrade extends Trading.Trade where
  executedAt : ℤ
  deriving DecidableEq

/-- An event of the topic of trades. -/
inductive TopicEvent
  | tradeExecuted (trade : ExecutedTrade)
  | other

structure Ticker where
  symbol : String
  lastPrice : Decimal
  volume : Decimal
  high : Decimal
  low : Decimal
  deriving DecidableEq

/-- What `getTicker` answers: the changes are there only for a symbol without trades. -/
structure TickerView extends Ticker where
  priceChange : Option Decimal
  priceChangePercent : Option Decimal
  deriving DecidableEq

structure Kline where
  symbol : String
  interval : String
  openTime : ℤ
  openPrice : Decimal
  high : Decimal
  low : Decimal
  close : Decimal
  volume : Decimal
  deriving DecidableEq

/-- What the gateway of the sockets emits. -/
inductive Publication
  | trade (trade : ExecutedTrade)
  | ticker (view : TickerView)
  deriving DecidableEq

structure MarketDataService where
  trades : SortedMap String (List ExecutedTrade)
  tickers : SortedMap String Ticker
  published : List Publication
  deriving DecidableEq

namespace MarketDataService

def new : MarketDataService := ⟨.empty, .empty, []⟩

variable (service : MarketDataService)

/-! ### Answers -/

def getTrades (symbol : String) : List ExecutedTrade := (service.trades.find symbol).getD []

def getTicker (symbol : String) : TickerView :=
  match service.tickers.find symbol with
  | some ticker => { ticker with priceChange := none, priceChangePercent := none }
  | none =>
    { symbol := symbol
      lastPrice := 0
      volume := 0
      high := 0
      low := 0
      priceChange := some 0
      priceChangePercent := some 0 }

/-- `DecimalMax` of a list with this head. -/
def decimalMax (first : Decimal) (values : List Decimal) : Decimal :=
  values.foldl (fun max value => if max < value then value else max) first

/-- `DecimalMin` of a list with this head. -/
def decimalMin (first : Decimal) (values : List Decimal) : Decimal :=
  values.foldl (fun min value => if value < min then value else min) first

def getKlines (symbol interval : String) : List Kline :=
  match service.getTrades symbol with
  | [] => []
  | first :: rest =>
    let prices := (first :: rest).map fun trade => trade.price
    [{ symbol := symbol
       interval := interval
       openTime := first.executedAt
       openPrice := first.price
       high := decimalMax first.price prices
       low := decimalMin first.price prices
       close := ((first :: rest).getLast (List.cons_ne_nil first rest)).price
       volume := (first :: rest).foldl (fun total trade => total + trade.quantity) 0 }]

/-- `Math.max(1, Math.min(Number(limit) || 100, 1000))`; a limit that is no number is none, and one that is has no
fraction. -/
def clampDepth (limit : Option ℤ) : ℕ := (max 1 (min (if limit.getD 0 = 0 then 100 else limit.getD 0) 1000)).toNat

/-- `getDepth`; an engine that cannot be reached is none. -/
def getDepth (codec : DecimalCodec) (engine : Option Core) (symbol : String) (limit : Option ℤ) :
    List (String × String) × List (String × String) :=
  match engine with
  | none => ([], [])
  | some engine =>
    match MatchingClient.getOrderBook codec engine symbol (clampDepth limit) with
    | .error _ => ([], [])
    | .ok depth => depth

/-! ### Trades -/

/-- `trades.slice(-1000)`. -/
def lastThousand (trades : List ExecutedTrade) : List ExecutedTrade := trades.drop (trades.length - 1000)

/-- The ticker after a trade. -/
def nextTicker (ticker : Option Ticker) (trade : ExecutedTrade) : Ticker where
  symbol := trade.symbol
  lastPrice := trade.price
  volume := (ticker.elim 0 Ticker.volume) + trade.quantity
  high := match ticker with
    | none => trade.price
    | some ticker => if ticker.high < trade.price then trade.price else ticker.high
  low := match ticker with
    | none => trade.price
    | some ticker => if trade.price < ticker.low then trade.price else ticker.low

def recordTrade (trade : ExecutedTrade) : MarketDataService :=
  let trades := service.trades.insert trade.symbol (lastThousand (service.getTrades trade.symbol ++ [trade]))
  let tickers := service.tickers.insert trade.symbol (nextTicker (service.tickers.find trade.symbol) trade)
  let service : MarketDataService := ⟨trades, tickers, service.published ++ [.trade trade]⟩
  { service with published := service.published ++ [.ticker (service.getTicker trade.symbol)] }

/-- The handler of the consumer. -/
def handle : TopicEvent → MarketDataService
  | .tradeExecuted trade => service.recordTrade trade
  | .other => service

/-- The service after the events that are delivered to it. -/
def after (events : List TopicEvent) : MarketDataService := events.foldl handle service

end MarketDataService

end NexusTrade.MarketData
