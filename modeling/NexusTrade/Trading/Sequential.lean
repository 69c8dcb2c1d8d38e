import NexusTrade.Trading.Alone
import NexusTrade.Trading.Fillable
import NexusTrade.Trading.Holdings

/-!
# Calls on the trading service, one after another

Runs in which each call on the trading service ends before the next one is made, and users are credited in between.
The database and the connections work: a service that is asked answers, if only with a refusal.

* **`Market.exec`** makes one call, or one credit; **`Admitted`** says which orders are placed;
* **`Held`** is what holds of an order that the service takes to be live: above all, what is locked for it.
-/

namespace NexusTrade.Trading

open MatchingEngine (Side OrderKind Decimal Fill ExecutionReport Core CallFiles UuidSource DecimalCodec opposite)

/-! ### Runs -/

/-- The memory of the service, and what is outside of it. -/
structure Market where
  memory : Memory
  remote : Remote
  deriving DecidableEq

/-- A call, with what its operations meet; or a credit. -/
inductive Deed
  | call (call : OrderCall) (inputs : List (CallFiles × UuidSource))
  | credit (dto : Wallet.BalanceMutationDto) (type : TransactionType)

/-- A call has not returned. -/
inductive Unfinished
  | unfinished

section Machine

variable (codec : DecimalCodec) (parse : DecimalParser) (service : TradingService) (maxRetries : ℕ)

/-- A call that is made, as far as its inputs take it. -/
def Market.made (market : Market) (call : OrderCall) (inputs : List (CallFiles × UuidSource)) : OrderState :=
  (program codec parse service maxRetries).alone
    ((program codec parse service maxRetries).made call market.memory market.remote) (inputs.map .answered)

/-- **One call, or one credit.** -/
def Market.exec (market : Market) : Deed → Except Unfinished (Option Outcome × Market)
  | .call call inputs =>
    let s := market.made codec parse service maxRetries call inputs
    match s.pause with
    | .finish outcome => .ok (some outcome, ⟨s.memory, s.remote⟩)
    | .await _ _ => .error .unfinished
  | .credit dto type =>
    match market.remote.wallet.exec .fin some (.credit dto type) with
    | .ok (_, wallet) => .ok (none, { market with remote := { market.remote with wallet := wallet } })
    | .error _ => .ok (none, market)

end Machine

/-- The text of a positive number. -/
def DecimalText.Positive : DecimalText → Prop
  | .number (.fin q) => 0 < q
  | .number (.inf _) | .number .nan | .empty | .blank | .malformed _ => False

instance : DecidablePred DecimalText.Positive
  | .number (.fin q) => inferInstanceAs (Decidable (0 < q))
  | .number (.inf _) => isFalse id
  | .number .nan => isFalse id
  | .empty => isFalse id
  | .blank => isFalse id
  | .malformed _ => isFalse id

/-- An order with a limit, and with a price and a quantity that are positive. -/
def PositiveLimit (dto : PlaceOrderDto) : Prop :=
  (dto.type = .limit ∨ dto.type = .postOnly) ∧ (∃ price ∈ dto.price, price.Positive) ∧ dto.quantity.Positive

instance (dto : PlaceOrderDto) : Decidable (PositiveLimit dto) :=
  inferInstanceAs (Decidable ((_ ∨ _) ∧ (∃ price ∈ dto.price, price.Positive) ∧ _))

/-- **The orders that are placed** have limits, and identifiers that are new. -/
def Admitted (market : Market) : Deed → Prop
  | .call (.placeOrder uuid dto) _ => PositiveLimit dto ∧ uuid ∉ market.remote.rows.map OrderEntity.id
  | .call (.cancelOrder _ _ _) _ => True
  | .credit _ _ => True

instance (market : Market) : DecidablePred (Admitted market)
  | .call (.placeOrder uuid dto) _ => inferInstanceAs
      (Decidable (PositiveLimit dto ∧ uuid ∉ market.remote.rows.map OrderEntity.id))
  | .call (.cancelOrder _ _ _) _ => inferInstanceAs (Decidable True)
  | .credit _ _ => inferInstanceAs (Decidable True)

/-! ### The lock of an order -/

/-- What is locked, or taken, for each unit that an order trades at its price. -/
def StoredOrder.unitLock (order : StoredOrder) (feeBps : Decimal) : Decimal :=
  match order.side with
  | .sell => 1
  | .buy => order.price.getD 0 * feeFactor feeBps

/-- What some fills take of an order that they name as the maker. -/
def asMaker (fills : List Fill) (id : String) : Decimal :=
  ((fills.filter fun fill => fill.makerOrderId = id).map Fill.quantity).sum

section Lock

variable {service : TradingService} {order : StoredOrder} {fill : Fill} {fills fills' : List Fill}

theorem remainingLock_eq (hsymbol : isSymbol order.symbol = true) (feeBps : Decimal) :
    remainingLock order (splitSymbol order.symbol).2 feeBps
      = order.unitLock feeBps * (order.quantity - order.filledQuantity) := by
  rw [remainingLock, StoredOrder.unitLock]
  cases hside : order.side with
  | sell => exact (one_mul _).symm
  | buy =>
      cases hprice : order.price with
      | none => exact ((congrArg (· * _) (zero_mul _)).trans (zero_mul _)).symm
      | some price =>
          simp only [if_pos (quoteAsset_ne_empty hsymbol), withFee_eq, Option.getD_some]
          ring

theorem consumedLockForFill_eq (hprice : order.price = some fill.price) (feeBps : Decimal) :
    consumedLockForFill order.side fill.price fill.quantity feeBps = order.unitLock feeBps * fill.quantity := by
  rw [StoredOrder.unitLock, hprice]
  cases order.side with
  | sell => exact (one_mul _).symm
  | buy =>
      show fill.price * fill.quantity + calculateFee (fill.price * fill.quantity) feeBps
        = fill.price * feeFactor feeBps * fill.quantity
      rw [withFee_eq]
      ring

theorem unitLock_nonneg {price feeBps : Decimal} (hprice : order.price = some price) (hpositive : 0 < price)
    (hfee : 0 ≤ feeBps) : 0 ≤ order.unitLock feeBps := by
  rw [StoredOrder.unitLock, hprice, feeFactor]
  cases order.side with
  | sell => exact zero_le_one
  | buy =>
      show 0 ≤ price * (1 + feeBps / 10000)
      positivity

theorem unitLock_mono {price a b : Decimal} (hprice : order.price = some price) (hpositive : 0 < price)
    (hle : a ≤ b) : order.unitLock a ≤ order.unitLock b := by
  rw [StoredOrder.unitLock, StoredOrder.unitLock, hprice]
  cases order.side with
  | sell => exact le_refl _
  | buy => exact mul_le_mul_of_nonneg_left (feeFactor_mono hle) hpositive.le

theorem asMaker_append (id : String) : asMaker (fills ++ fills') id = asMaker fills id + asMaker fills' id := by
  rw [asMaker, List.filter_append, List.map_append, List.sum_append]
  rfl

theorem asMaker_singleton (fill : Fill) (id : String) :
    asMaker [fill] id = if fill.makerOrderId = id then fill.quantity else 0 := by
  rw [asMaker, List.filter_singleton]
  by_cases h : fill.makerOrderId = id
  · rw [if_pos h, decide_eq_true h]
    exact add_zero _
  · rw [if_neg h, decide_eq_false h]
    rfl

theorem asMaker_nonneg (h : ∀ fill ∈ fills, 0 < fill.quantity) (id : String) : 0 ≤ asMaker fills id := by
  refine List.sum_nonneg fun q hq => ?_
  obtain ⟨fill, hfill, rfl⟩ := List.mem_map.mp hq
  exact (h fill (List.mem_of_mem_filter hfill)).le

/-- **Fills take nothing of an order** exactly if none names it as the maker. -/
theorem asMaker_eq_zero_iff (h : ∀ fill ∈ fills, 0 < fill.quantity) (id : String) :
    asMaker fills id = 0 ↔ ∀ fill ∈ fills, fill.makerOrderId ≠ id := by
  constructor
  · intro hzero fill hfill hid
    have hmem : fill.quantity ∈ (fills.filter fun fill => fill.makerOrderId = id).map Fill.quantity :=
      List.mem_map_of_mem (List.mem_filter.mpr ⟨hfill, decide_eq_true hid⟩)
    have hsum : 0 < asMaker fills id := by
      refine List.sum_pos _ (fun q hq => ?_) (List.ne_nil_of_mem hmem)
      obtain ⟨other, hother, rfl⟩ := List.mem_map.mp hq
      exact h other (List.mem_of_mem_filter hother)
    exact absurd hzero hsum.ne'
  · intro hnone
    rw [asMaker, List.filter_eq_nil_iff.mpr fun fill hfill hid => hnone fill hfill (of_decide_eq_true hid)]
    rfl

end Lock

/-! ### Rows -/

/-- The rows have one of the order, whatever it says of what is filled. -/
def RowOf (rows : List OrderEntity) (order : StoredOrder) : Prop :=
  ∃ row ∈ rows, { row with filledQuantity := order.filledQuantity, status := order.status } = OrderEntity.create order

section Rows

variable {rows : List OrderEntity} {order order' : StoredOrder}

theorem RowOf.of_mem (h : OrderEntity.create order ∈ rows) : RowOf rows order := ⟨_, h, rfl⟩

/-- Another state of an order. -/
theorem RowOf.congr (h : RowOf rows order) (hsame : { OrderEntity.create order with
    filledQuantity := order'.filledQuantity, status := order'.status } = OrderEntity.create order') :
    RowOf rows order' := by
  obtain ⟨row, hrow, heq⟩ := h
  refine ⟨row, hrow, ?_⟩
  rw [← hsame, ← heq]

/-- **The row of an order is updated.** -/
theorem RowOf.update (h : RowOf rows order) :
    OrderEntity.create order ∈ updateOrder rows order.id (some order.filledQuantity) order.status := by
  obtain ⟨row, hrow, heq⟩ := h
  have hid : row.id = order.id := congrArg OrderEntity.id heq
  refine List.mem_map.mpr ⟨row, hrow, ?_⟩
  rw [if_pos hid]
  exact heq

theorem RowOf.update_of_ne (h : RowOf rows order) {id : String} (hne : order.id ≠ id)
    (filledQuantity : Option Decimal) (status : OrderStatus) :
    RowOf (updateOrder rows id filledQuantity status) order := by
  obtain ⟨row, hrow, heq⟩ := h
  have hid : row.id = order.id := congrArg OrderEntity.id heq
  exact ⟨row, List.mem_map.mpr ⟨row, hrow, if_neg (hid ▸ hne)⟩, heq⟩

/-- The row of another order stays. -/
theorem mem_updateOrder_of_ne {id : String} (h : OrderEntity.create order ∈ rows) (hne : order.id ≠ id)
    (filledQuantity : Option Decimal) (status : OrderStatus) :
    OrderEntity.create order ∈ updateOrder rows id filledQuantity status :=
  List.mem_map.mpr ⟨_, h, if_neg hne⟩

end Rows

/-! ### Orders that are live -/

/-- A user who may trade. -/
def CanTransact (users : SortedMap String UserStatus) (userId : String) : Prop :=
  ∃ status, users.find userId = some status ∧ ¬(status = .frozen ∨ status = .closed)

theorem CanTransact.wallet {wallet : Wallet.Database} {userId : String} (h : CanTransact wallet.users userId) :
    wallet.assertUserCanTransact userId = .ok () := by
  obtain ⟨status, hfind, hstatus⟩ := h
  simp only [Wallet.Database.assertUserCanTransact, hfind, if_neg hstatus]

theorem canTransact_of_assertCanTrade {service : TradingService} {userId accountId : String}
    (h : service.assertCanTrade userId accountId = .ok ()) : CanTransact service.users userId := by
  rw [TradingService.assertCanTrade] at h
  cases hfind : service.users.find userId with
  | none =>
      rw [hfind] at h
      cases h
  | some status =>
      rw [hfind] at h
      refine ⟨status, hfind, fun hstatus => ?_⟩
      simp only [if_pos hstatus] at h
      cases h

/-- An order with a limit, of a user who may trade. -/
structure Proper (service : TradingService) (order : StoredOrder) : Prop where
  symbol : isSymbol order.symbol = true
  lockedAsset : order.lockedAsset = lockedAssetOf order.side order.symbol
  price : ∃ price, order.price = some price ∧ 0 < price
  user : CanTransact service.users order.userId

/-- **An order that the service takes to be live**, after some fills.  What is locked for it is what its remaining
quantity takes as a taker, and what it has saved of the fees by fills as a maker. -/
structure Held (parse : DecimalParser) (service : TradingService) (done : List Fill) (order : StoredOrder) : Prop
    extends Proper service order where
  readable : ∃ price, order.price = some price ∧ parse price = some price
  left : order.filledQuantity < order.quantity
  active : order.status.active = true
  lock : order.lockedAmount = order.unitLock service.takerFeeBps * (order.quantity - order.filledQuantity)
    + (order.unitLock service.takerFeeBps - order.unitLock service.makerFeeBps) * asMaker done order.id

namespace Held

variable {parse : DecimalParser} {service : TradingService} {done : List Fill} {fill : Fill}
  {order maker : StoredOrder}

/-- A fill of another order. -/
theorem other (h : Held parse service done order) (hne : fill.makerOrderId ≠ order.id) :
    Held parse service (done ++ [fill]) order := by
  refine ⟨h.toProper, h.readable, h.left, h.active, ?_⟩
  rw [asMaker_append, asMaker_singleton, if_neg hne, add_zero]
  exact h.lock

/-- What is locked for a maker after a fill. -/
theorem fillMaker_lock (h : Held parse service done maker) (hmeets : Meets order fill maker) :
    (service.fillMaker maker (service.toTrade order fill)).lockedAmount
      = maker.unitLock service.takerFeeBps * (maker.quantity - (maker.filledQuantity + fill.quantity))
        + (maker.unitLock service.takerFeeBps - maker.unitLock service.makerFeeBps)
          * asMaker (done ++ [fill]) maker.id := by
  have hconsumed := consumedLockForFill_eq hmeets.price service.makerFeeBps
  show maker.lockedAmount - consumedLockForFill maker.side fill.price fill.quantity service.makerFeeBps = _
  rw [hconsumed, h.lock, asMaker_append, asMaker_singleton, if_pos hmeets.id.symm]
  ring

/-- A maker that a fill leaves open. -/
theorem fillMaker (h : Held parse service done maker) (hmeets : Meets order fill maker)
    (hopens : maker.filledQuantity + fill.quantity < maker.quantity) :
    Held parse service (done ++ [fill]) (service.fillMaker maker (service.toTrade order fill)) := by
  refine ⟨⟨h.symbol, h.lockedAsset, h.price, h.user⟩, h.readable, hopens, ?_, h.fillMaker_lock hmeets⟩
  show (if maker.quantity ≤ maker.filledQuantity + fill.quantity then OrderStatus.filled
    else .partiallyFilled).active = true
  rw [if_neg (not_le.mpr hopens)]
  rfl

/-- **The lock of an order covers what it has left.** -/
theorem covers (h : Held parse service done order) (hfees : FeesInRange service)
    (hdone : ∀ fill ∈ done, 0 < fill.quantity) :
    order.unitLock service.takerFeeBps * (order.quantity - order.filledQuantity) ≤ order.lockedAmount := by
  obtain ⟨price, hprice, hpositive⟩ := h.price
  rw [h.lock]
  exact le_add_of_nonneg_right
    (mul_nonneg (sub_nonneg.mpr (unitLock_mono hprice hpositive hfees.ordered)) (asMaker_nonneg hdone order.id))

theorem lock_nonneg (h : Held parse service done order) (hfees : FeesInRange service)
    (hdone : ∀ fill ∈ done, 0 < fill.quantity) : 0 ≤ order.lockedAmount := by
  obtain ⟨price, hprice, hpositive⟩ := h.price
  exact (mul_nonneg (unitLock_nonneg hprice hpositive (hfees.maker.trans hfees.ordered))
    (sub_nonneg.mpr h.left.le)).trans (h.covers hfees hdone)

/-- **The lock of a maker covers a fill.** -/
theorem covers_fill (h : Held parse service done maker) (hfees : FeesInRange service)
    (hdone : ∀ fill ∈ done, 0 < fill.quantity) (hmeets : Meets order fill maker) :
    consumedLockForFill maker.side fill.price fill.quantity service.makerFeeBps ≤ maker.lockedAmount := by
  obtain ⟨price, hprice, hpositive⟩ := h.price
  rw [consumedLockForFill_eq hmeets.price]
  calc maker.unitLock service.makerFeeBps * fill.quantity
      ≤ maker.unitLock service.takerFeeBps * fill.quantity :=
        mul_le_mul_of_nonneg_right (unitLock_mono hprice hpositive hfees.ordered) hmeets.positive.le
    _ ≤ maker.unitLock service.takerFeeBps * (maker.quantity - maker.filledQuantity) :=
        mul_le_mul_of_nonneg_left hmeets.left
          (unitLock_nonneg hprice hpositive (hfees.maker.trans hfees.ordered))
    _ ≤ maker.lockedAmount := h.covers hfees hdone

end Held

end NexusTrade.Trading
