import Mathlib.Data.Rat.Defs
import Mathlib.Algebra.Order.Ring.Rat
import Mathlib.Data.String.Basic
import NexusTrade.Lib.SortedMap

/-!
# The data of the matching engine

The types of `services/matching-engine/src/lib.rs`, field by field.  Prices and quantities are exact
rationals; the maps of the order book (`BTreeMap`, `HashMap`) are canonical finite maps, so two books
with the same contents are equal.

The random source behind `Uuid::new_v4` is a parameter of the operations that draw from it: a
`UuidSource` lists the identifiers of one call in the order in which they are drawn, and splits where
one call runs several others.
-/

namespace NexusTrade.MatchingEngine

/-- `rust_decimal::Decimal`, in exact arithmetic. -/
abbrev Decimal := ℚ

inductive Side
  | buy
  | sell
  deriving DecidableEq, Repr

inductive OrderKind
  | market
  | limit
  | stopMarket
  | stopLimit
  | ioc
  | fok
  | postOnly
  deriving DecidableEq, Repr

inductive OrderStatus
  | new
  | partiallyFilled
  | filled
  | cancelled
  | expired
  | rejected
  | pendingStop
  deriving DecidableEq, Repr

/-- `Order`.  The `u64` sequence number counts submissions and is kept unbounded. -/
structure Order where
  orderId : String
  userId : String
  side : Side
  kind : OrderKind
  price : Option Decimal
  stopPrice : Option Decimal
  originalQuantity : Decimal
  remainingQuantity : Decimal
  sequence : ℕ
  deriving DecidableEq

/-- `Order::new`. -/
def Order.new (orderId userId : String) (side : Side) (kind : OrderKind)
    (price stopPrice : Option Decimal) (quantity : Decimal) : Order where
  orderId := orderId
  userId := userId
  side := side
  kind := kind
  price := price
  stopPrice := stopPrice
  originalQuantity := quantity
  remainingQuantity := quantity
  sequence := 0

/-- `Order::limit`. -/
def Order.limit (orderId userId : String) (side : Side) (price quantity : Decimal) : Order :=
  Order.new orderId userId side .limit (some price) none quantity

/-- An order as `Order::new` builds it: nothing is filled yet and no sequence number is assigned. -/
structure Order.Built (o : Order) : Prop where
  unfilled : o.remainingQuantity = o.originalQuantity
  unsequenced : o.sequence = 0

instance (o : Order) : Decidable o.Built :=
  decidable_of_iff (o.remainingQuantity = o.originalQuantity ∧ o.sequence = 0)
    ⟨fun h => ⟨h.1, h.2⟩, fun h => ⟨h.unfilled, h.unsequenced⟩⟩

structure Fill where
  tradeId : String
  makerOrderId : String
  takerOrderId : String
  makerUserId : String
  takerUserId : String
  price : Decimal
  quantity : Decimal
  deriving DecidableEq

structure ExecutionReport where
  orderId : String
  accepted : Bool
  status : OrderStatus
  fills : List Fill
  rejectReason : Option String
  deriving DecidableEq

/-- `PriceLevel`, with its `VecDeque` of orders from front to back. -/
structure PriceLevel where
  price : Decimal
  orders : List Order
  totalQuantity : Decimal
  deriving DecidableEq

structure OrderBook where
  bids : SortedMap Decimal PriceLevel
  asks : SortedMap Decimal PriceLevel
  stopOrders : List Order
  orderIndex : SortedMap String (Side × Decimal)
  status : SortedMap String (OrderStatus × Decimal)
  auditLog : List Fill
  nextSequence : ℕ
  deriving DecidableEq

/-- `OrderBook::default`. -/
def OrderBook.default : OrderBook where
  bids := .empty
  asks := .empty
  stopOrders := []
  orderIndex := .empty
  status := .empty
  auditLog := []
  nextSequence := 0

/-- How a call can fail to return: an `expect` that meets `None`, a removal past the end of a vector,
or a loop that does not end. -/
inductive Panic
  | expect (message : String)
  | indexOutOfBounds
  | diverges
  deriving DecidableEq, Repr

/-- The identifiers `Uuid::new_v4` hands out during one call. -/
abbrev UuidSource := ℕ → String

namespace UuidSource

/-- The identifiers drawn by the first of several inner calls. -/
def head (uuid : UuidSource) : UuidSource := fun k => uuid (2 * k)

/-- The identifiers left for the inner calls after the first. -/
def tail (uuid : UuidSource) : UuidSource := fun k => uuid (2 * k + 1)

end UuidSource

end NexusTrade.MatchingEngine
