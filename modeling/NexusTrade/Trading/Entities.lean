import NexusTrade.Shared.Places
import NexusTrade.Trading.Service

/-!
# The rows of the trading service

The tables `orders` and `trades`, to which `services/trading-service/src/services/trading.service.ts` writes, and
what it makes of the first when it starts.

* **`OrderEntity`** is a row of `orders`, and **`OrderEntity.create`** the one that `placeOrder` inserts;
* **`OrderEntity.filledColumn`** is what the column of the filled quantity holds of it;
* **`saveOrder`**, **`updateOrder`** and **`saveTrade`** are the writes;
* **`onModuleInit`** are the orders that a new service takes to be live.
-/

namespace NexusTrade.Trading

open MatchingEngine (Side OrderKind Decimal)

/-- A row of `orders`; the rows of the table stand in the order of `createdAt`. -/
structure OrderEntity where
  id : String
  userId : String
  accountId : String
  symbol : String
  side : Side
  type : OrderKind
  price : Option Decimal
  stopPrice : Option Decimal
  quantity : Decimal
  filledQuantity : Decimal
  status : OrderStatus
  deriving DecidableEq

/-- The row that `placeOrder` makes of an order; it has no `stopPrice`. -/
def OrderEntity.create (order : StoredOrder) : OrderEntity where
  id := order.id
  userId := order.userId
  accountId := order.accountId
  symbol := order.symbol
  side := order.side
  type := order.type
  price := order.price
  stopPrice := none
  quantity := order.quantity
  filledQuantity := order.filledQuantity
  status := order.status

/-- What the column `filled_quantity`, a `numeric(38,18)`, holds of a row.  A row of the model has the number that was
sent; the column rounds it to 18 places after the point. -/
def OrderEntity.filledColumn (row : OrderEntity) : Option Amount := numeric 38 18 (.fin row.filledQuantity)

/-- `orderRepository.save`: a new row, or the columns that are given of a row that exists. -/
def saveOrder (rows : List OrderEntity) (row : OrderEntity) : List OrderEntity :=
  if rows.any fun old => old.id = row.id then
    rows.map fun old => if old.id = row.id then
      { row with price := row.price.or old.price, stopPrice := row.stopPrice.or old.stopPrice } else old
  else rows ++ [row]

/-- `orderRepository.update`, of the rows with an identifier. -/
def updateOrder (rows : List OrderEntity) (id : String) (filledQuantity : Option Decimal)
    (status : OrderStatus) : List OrderEntity :=
  rows.map fun row => if row.id = id then
    { row with filledQuantity := filledQuantity.getD row.filledQuantity, status := status } else row

/-- `tradeRepository.save`. -/
def saveTrade (trades : List Trade) (trade : Trade) : List Trade :=
  if trades.any fun old => old.id = trade.id then
    trades.map fun old => if old.id = trade.id then trade else old
  else trades ++ [trade]

/-- `In([OrderStatus.New, OrderStatus.PartiallyFilled])`. -/
def OrderStatus.active : OrderStatus → Bool
  | .new | .partiallyFilled => true
  | .filled | .cancelled | .rejected | .expired | .triggered => false

/-- The order that `onModuleInit` makes of a row. -/
def restored (takerFeeBps : Decimal) (entity : OrderEntity) : StoredOrder :=
  let (baseAsset, quoteAsset) := splitSymbol entity.symbol
  let order : StoredOrder :=
    { id := entity.id
      userId := entity.userId
      accountId := entity.accountId
      symbol := entity.symbol
      side := entity.side
      type := entity.type
      price := entity.price
      stopPrice := entity.stopPrice
      quantity := entity.quantity
      filledQuantity := entity.filledQuantity
      status := entity.status
      lockedAsset := if entity.side = .buy then quoteAsset else baseAsset
      lockedAmount := 0 }
  { order with lockedAmount := remainingLock order quoteAsset takerFeeBps }

/-- `onModuleInit`. -/
def onModuleInit (takerFeeBps : Decimal) (rows : List OrderEntity) : List StoredOrder :=
  (rows.filter fun entity => entity.status.active).filterMap fun entity =>
    if entity.quantity - entity.filledQuantity ≤ 0 then none else some (restored takerFeeBps entity)

/-! ### The writes -/

theorem saveOrder_new {rows : List OrderEntity} {row : OrderEntity} (h : ∀ old ∈ rows, old.id ≠ row.id) :
    saveOrder rows row = rows ++ [row] := by
  have hany : ¬(rows.any fun old => decide (old.id = row.id)) = true := by
    rw [List.any_eq_true]
    rintro ⟨old, hold, hid⟩
    exact h old hold (of_decide_eq_true hid)
  rw [saveOrder, if_neg hany]

theorem saveTrade_new {trades : List Trade} {trade : Trade} (h : ∀ old ∈ trades, old.id ≠ trade.id) :
    saveTrade trades trade = trades ++ [trade] := by
  have hany : ¬(trades.any fun old => decide (old.id = trade.id)) = true := by
    rw [List.any_eq_true]
    rintro ⟨old, hold, hid⟩
    exact h old hold (of_decide_eq_true hid)
  rw [saveTrade, if_neg hany]

/-- The identifiers of the rows stay when they are updated. -/
theorem ids_updateOrder (rows : List OrderEntity) (id : String) (filledQuantity : Option Decimal)
    (status : OrderStatus) :
    (updateOrder rows id filledQuantity status).map OrderEntity.id = rows.map OrderEntity.id := by
  rw [updateOrder, List.map_map]
  refine List.map_congr_left fun row _ => ?_
  show (if row.id = id then _ else row : OrderEntity).id = row.id
  split <;> rfl

end NexusTrade.Trading
