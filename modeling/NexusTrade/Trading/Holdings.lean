import Mathlib.Tactic.Linarith
import Mathlib.Tactic.Positivity
import NexusTrade.Trading.Leftovers
import NexusTrade.Trading.Locks
import NexusTrade.Wallet.Settling

/-!
# What the wallets hold for orders

The locked balances of the wallets as the sum of the locks of some orders, and the three requests of the trading
service that change them.

* **`lockedFor`** is what some orders lock of an asset for a user, **`Accounted`** that the wallets have just that
  locked;
* **`Accounted.lock`** and **`Accounted.credit`**: a lock that is made adds an order, a credit changes nothing;
* **`settlementLegs_eq`**: a settlement takes from what two orders lock, and adds to what is available;
* **`Accounted.unlock`** and **`Accounted.settle`**: a release and a settlement are carried out, if no order ends
  with a lock below zero.
-/

namespace NexusTrade.Trading

open MatchingEngine (Side Decimal Fill opposite)
open Wallet (walletAt lockedChange)

/-! ### Locks of orders -/

/-- What an order locks of an asset for a user. -/
def StoredOrder.locks (order : StoredOrder) (userId asset : String) : Decimal :=
  if order.userId = userId ∧ order.lockedAsset = asset then order.lockedAmount else 0

/-- What some orders lock of an asset for a user. -/
def lockedFor (orders : List StoredOrder) (userId asset : String) : Decimal :=
  (orders.map fun order => order.locks userId asset).sum

section Sums

variable (userId asset : String)

theorem lockedFor_append (orders orders' : List StoredOrder) :
    lockedFor (orders ++ orders') userId asset = lockedFor orders userId asset + lockedFor orders' userId asset := by
  rw [lockedFor, List.map_append, List.sum_append]
  rfl

theorem lockedFor_cons (order : StoredOrder) (orders : List StoredOrder) :
    lockedFor (order :: orders) userId asset = order.locks userId asset + lockedFor orders userId asset :=
  List.sum_cons

theorem lockedFor_singleton (order : StoredOrder) : lockedFor [order] userId asset = order.locks userId asset :=
  List.sum_singleton

theorem lockedFor_nonneg {orders : List StoredOrder} (h : ∀ order ∈ orders, 0 ≤ order.lockedAmount) :
    0 ≤ lockedFor orders userId asset := by
  refine List.sum_nonneg fun x hx => ?_
  obtain ⟨order, horder, rfl⟩ := List.mem_map.mp hx
  rw [StoredOrder.locks]
  split
  · exact h order horder
  · exact le_refl 0

/-- An order with another lock. -/
theorem locks_with (order : StoredOrder) (amount : Decimal) :
    StoredOrder.locks { order with lockedAmount := amount } userId asset
      = if order.userId = userId ∧ order.lockedAsset = asset then amount else 0 := rfl

/-- An order that locks nothing. -/
theorem locks_of_zero {order : StoredOrder} (h : order.lockedAmount = 0) : order.locks userId asset = 0 := by
  rw [StoredOrder.locks, h, ite_self]

end Sums

/-! ### The wallets -/

/-- **The wallets have locked what some orders lock**, and no available balance is below zero. -/
structure Accounted (wallet : Wallet.Database) (orders : List StoredOrder) : Prop where
  locked : ∀ userId asset, (walletAt wallet.wallets (Wallet.Database.rowKey userId asset)).locked
    = .fin (lockedFor orders userId asset)
  available : ∀ key, (walletAt wallet.wallets key).available.ltZero = false

section Requests

variable {wallet wallet' : Wallet.Database} {orders orders' : List StoredOrder} {order : StoredOrder}
  {amount : Decimal}

/-- Every key is that of a user and an asset. -/
theorem rowKey_surjective (key : String ×ₗ String) :
    ∃ userId asset, key = Wallet.Database.rowKey userId asset := ⟨(ofLex key).1, (ofLex key).2, rfl⟩

theorem rowKey_eq_iff {userId asset userId' asset' : String} :
    Wallet.Database.rowKey userId asset = Wallet.Database.rowKey userId' asset' ↔
      userId = userId' ∧ asset = asset' := by
  rw [Wallet.Database.rowKey, Wallet.Database.rowKey, EmbeddingLike.apply_eq_iff_eq, Prod.mk.injEq]

/-- The same locks, in another order. -/
theorem Accounted.congr (h : Accounted wallet orders)
    (hsame : ∀ userId asset, lockedFor orders userId asset = lockedFor orders' userId asset) :
    Accounted wallet orders' :=
  ⟨fun userId asset => by rw [h.locked, hsame], h.available⟩

/-- **A lock that is made** adds an order. -/
theorem Accounted.lock (h : Accounted wallet orders) {reply : Wallet.WalletReply}
    (hexec : wallet.exec .fin some (.lock (TradingService.mutationOf order amount)) = .ok (reply, wallet')) :
    wallet'.users = wallet.users ∧ Accounted wallet' (orders ++ [{ order with lockedAmount := amount }]) := by
  obtain ⟨_, hpasses, _, _⟩ := Wallet.exec_wallets hexec
  obtain ⟨_, husers, hwallets⟩ := Wallet.lock_wallets hexec
  refine ⟨husers, fun userId asset => ?_, fun key => ?_⟩
  · rw [hwallets, lockedFor_append, lockedFor_singleton, locks_with, Function.update_apply]
    show (if Wallet.Database.rowKey userId asset = Wallet.Database.rowKey order.userId order.lockedAsset then
      (walletAt wallet.wallets (Wallet.Database.rowKey order.userId order.lockedAsset)).lock (.fin amount)
      else walletAt wallet.wallets (Wallet.Database.rowKey userId asset)).locked = _
    by_cases hkey : order.userId = userId ∧ order.lockedAsset = asset
    · obtain ⟨rfl, rfl⟩ := hkey
      rw [if_pos rfl, if_pos ⟨rfl, rfl⟩]
      show Amount.add .fin (walletAt wallet.wallets _).locked (.fin amount) = _
      rw [h.locked]
      rfl
    · rw [if_neg hkey, add_zero, if_neg fun heq => hkey ?_]
      · exact h.locked userId asset
      · obtain ⟨huser, hasset⟩ := rowKey_eq_iff.mp heq
        exact ⟨huser.symm, hasset.symm⟩
  · rw [hwallets, Function.update_apply]
    split
    · exact Wallet.passes_lock.mp hpasses
    · exact h.available key

/-- **A credit** leaves what is locked. -/
theorem Accounted.credit (h : Accounted wallet orders) {dto : Wallet.BalanceMutationDto}
    {type : TransactionType} {reply : Wallet.WalletReply}
    (hexec : wallet.exec .fin some (.credit dto type) = .ok (reply, wallet')) :
    wallet'.users = wallet.users ∧ Accounted wallet' orders := by
  obtain ⟨_, hpasses, hwallets, husers⟩ := Wallet.exec_wallets hexec
  have hupdate : walletAt wallet'.wallets = Function.update (walletAt wallet.wallets)
      (Wallet.Database.rowKey dto.userId dto.asset)
      { walletAt wallet.wallets (Wallet.Database.rowKey dto.userId dto.asset) with
        available := Amount.add .fin
          (walletAt wallet.wallets (Wallet.Database.rowKey dto.userId dto.asset)).available dto.amount } := hwallets
  refine ⟨husers, fun userId asset => ?_, fun key => ?_⟩
  · rw [hupdate, Function.update_apply]
    split
    · rename_i hkey
      rw [← h.locked userId asset, hkey]
    · exact h.locked userId asset
  · rw [hupdate, Function.update_apply]
    split
    · exact hpasses.1 rfl
    · exact h.available key

variable (op : Wallet.WalletOp) in
/-- **A request whose writes settle** is carried out, if no order ends with a lock below zero. -/
theorem Accounted.settles (h : Accounted wallet orders)
    (husers : ∀ userId ∈ op.users, wallet.assertUserCanTransact userId = .ok ())
    (hsettles : ∀ write ∈ op.typeOrmWrites .fin, write.Settles)
    (hchange : ∀ userId asset, lockedFor orders userId asset
      + lockedChange (op.typeOrmWrites .fin) (Wallet.Database.rowKey userId asset)
        = lockedFor orders' userId asset)
    (hnonneg : ∀ order ∈ orders', 0 ≤ order.lockedAmount) :
    ∃ reply wallet', wallet.exec .fin some op = .ok (reply, wallet') ∧ wallet'.users = wallet.users ∧
      Accounted wallet' orders' := by
  have hlocked : ∀ key, (walletAt wallet.wallets key).locked
      = .fin (lockedFor orders (ofLex key).1 (ofLex key).2) := by
    intro key
    obtain ⟨userId, asset, rfl⟩ := rowKey_surjective key
    exact h.locked userId asset
  obtain ⟨hpasses, hlocked', havailable'⟩ := Wallet.settling_spec hsettles hlocked (fun key => by
    obtain ⟨userId, asset, rfl⟩ := rowKey_surjective key
    exact (hchange userId asset).symm ▸ lockedFor_nonneg userId asset hnonneg) h.available
  obtain ⟨reply, wallet', hexec, _⟩ := Wallet.exec_returns husers hpasses
  obtain ⟨_, _, hwallets, hsame⟩ := Wallet.exec_wallets hexec
  refine ⟨reply, wallet', hexec, hsame, fun userId asset => ?_, fun key => ?_⟩
  · rw [hwallets, hlocked']
    exact congrArg Extended.fin (hchange userId asset)
  · rw [hwallets]
    exact havailable' key

/-- **A release is carried out**, if no more is released than the order locks. -/
theorem Accounted.unlock {pre post : List StoredOrder} (h : Accounted wallet (pre ++ order :: post))
    (huser : wallet.assertUserCanTransact order.userId = .ok ()) (hamount : 0 ≤ amount)
    (hle : amount ≤ order.lockedAmount) (hnonneg : ∀ o ∈ pre ++ post, 0 ≤ o.lockedAmount) :
    ∃ reply wallet', wallet.exec .fin some (.unlock (TradingService.mutationOf order amount))
        = .ok (reply, wallet') ∧ wallet'.users = wallet.users ∧
      Accounted wallet' (pre ++ { order with lockedAmount := order.lockedAmount - amount } :: post) := by
  refine h.settles (.unlock (TradingService.mutationOf order amount))
    (List.forall_mem_singleton.mpr huser) ?_ ?_ ?_
  · intro write hwrite
    rcases List.mem_cons.mp hwrite with rfl | hwrite
    · exact ⟨-amount, rfl, neg_nonpos.mpr hamount⟩
    · rw [List.mem_singleton.mp hwrite]
      exact ⟨amount, rfl, hamount⟩
  · intro userId asset
    have hchange : lockedChange (Wallet.WalletOp.typeOrmWrites .fin
        (.unlock (TradingService.mutationOf order amount))) (Wallet.Database.rowKey userId asset)
        = if order.userId = userId ∧ order.lockedAsset = asset then -amount else 0 := by
      simp only [Wallet.WalletOp.typeOrmWrites, Wallet.adjustWrite, Wallet.lockedChange_cons,
        Wallet.lockedChange_nil, TradingService.mutationOf, rowKey_eq_iff, and_true, reduceCtorEq, and_false,
        if_false, add_zero]
      rfl
    rw [hchange, lockedFor_append, lockedFor_append, lockedFor_cons, lockedFor_cons, locks_with, StoredOrder.locks]
    split
    · ring
    · ring
  · intro o ho
    rcases List.mem_append.mp ho with ho | ho
    · exact hnonneg o (List.mem_append_left _ ho)
    · rcases List.mem_cons.mp ho with rfl | ho
      · exact sub_nonneg.mpr hle
      · exact hnonneg o (List.mem_append_right _ ho)

/-! ### Settlements -/

/-- The asset that an order of a side locks. -/
def lockedAssetOf (side : Side) (symbol : String) : String :=
  if side = .buy then (splitSymbol symbol).2 else (splitSymbol symbol).1

/-- The fee rates under which no one is paid less than nothing. -/
structure FeesInRange (service : TradingService) : Prop where
  maker : 0 ≤ service.makerFeeBps
  ordered : service.makerFeeBps ≤ service.takerFeeBps
  taker : service.takerFeeBps ≤ 10000

variable {service : TradingService} {fill : Fill}

theorem calculateFee_nonneg {notional feeBps : Decimal} (hnotional : 0 ≤ notional) (hfee : 0 ≤ feeBps) :
    0 ≤ calculateFee notional feeBps := by
  rw [calculateFee]
  positivity

theorem calculateFee_le {notional feeBps : Decimal} (hnotional : 0 ≤ notional) (hfee : feeBps ≤ 10000) :
    calculateFee notional feeBps ≤ notional := by
  have hbound := mul_le_mul_of_nonneg_left hfee hnotional
  rw [calculateFee, div_le_iff₀ (by norm_num)]
  exact hbound

/-- What a fill pays to an order of a side. -/
def receivedForFill (side : Side) (price quantity feeBps : Decimal) : Decimal :=
  match side with
  | .sell => price * quantity - calculateFee (price * quantity) feeBps
  | .buy => quantity

theorem consumedLockForFill_nonneg (side : Side) {price quantity feeBps : Decimal} (hprice : 0 ≤ price)
    (hquantity : 0 ≤ quantity) (hfee : 0 ≤ feeBps) : 0 ≤ consumedLockForFill side price quantity feeBps := by
  have hnotional := mul_nonneg hprice hquantity
  cases side with
  | sell => exact hquantity
  | buy => exact add_nonneg hnotional (calculateFee_nonneg hnotional hfee)

theorem receivedForFill_nonneg (side : Side) {price quantity feeBps : Decimal} (hprice : 0 ≤ price)
    (hquantity : 0 ≤ quantity) (hfee : feeBps ≤ 10000) : 0 ≤ receivedForFill side price quantity feeBps := by
  cases side with
  | sell => exact sub_nonneg.mpr (calculateFee_le (mul_nonneg hprice hquantity) hfee)
  | buy => exact hquantity

variable (service order fill) in
/-- **The legs of a settlement**: what each of the two orders locks is taken, and what it is paid is added. -/
theorem settlementLegs_eq (side : Side) :
    Wallet.settlementLegs .fin (TradingService.settlement (service.toTrade order fill) side)
      = [⟨fill.makerUserId, lockedAssetOf side order.symbol,
            .fin (-consumedLockForFill side fill.price fill.quantity service.makerFeeBps), .locked⟩,
          ⟨fill.makerUserId, lockedAssetOf (opposite side) order.symbol,
            .fin (receivedForFill side fill.price fill.quantity service.makerFeeBps), .available⟩,
          ⟨fill.takerUserId, lockedAssetOf (opposite side) order.symbol,
            .fin (-consumedLockForFill (opposite side) fill.price fill.quantity service.takerFeeBps), .locked⟩,
          ⟨fill.takerUserId, lockedAssetOf side order.symbol,
            .fin (receivedForFill (opposite side) fill.price fill.quantity service.takerFeeBps), .available⟩] := by
  have hreceived : ∀ feeBps, receivedForFill .sell fill.price fill.quantity feeBps
      = fill.price * fill.quantity + -calculateFee (fill.price * fill.quantity) feeBps :=
    fun feeBps => sub_eq_add_neg _ _
  cases side with
  | sell =>
      have hside : (TradingService.settlement (service.toTrade order fill) .sell).makerSide = "SELL" := rfl
      rw [hreceived, Wallet.settlementLegs, if_pos hside]
      rfl
  | buy =>
      have hside : ¬(TradingService.settlement (service.toTrade order fill) .buy).makerSide = "SELL" :=
        show ¬("BUY" : String) = "SELL" by decide
      rw [show opposite .buy = .sell from rfl, hreceived, Wallet.settlementLegs, if_neg hside]
      rfl

/-- The writes of a settlement take from what is locked, and add to what is available. -/
theorem settlement_settles (hfees : FeesInRange service) (hprice : 0 ≤ fill.price) (hquantity : 0 ≤ fill.quantity)
    (side : Side) :
    ∀ write ∈ (Wallet.WalletOp.settleTrade
      (TradingService.settlement (service.toTrade order fill) side)).typeOrmWrites .fin, write.Settles := by
  have htaker : 0 ≤ service.takerFeeBps := hfees.maker.trans hfees.ordered
  have hmaker : service.makerFeeBps ≤ 10000 := hfees.ordered.trans hfees.taker
  intro write hwrite
  obtain ⟨leg, hleg, rfl⟩ := List.mem_map.mp hwrite
  rw [settlementLegs_eq] at hleg
  simp only [List.mem_cons, List.not_mem_nil, or_false] at hleg
  rcases hleg with rfl | rfl | rfl | rfl
  · exact ⟨_, rfl, neg_nonpos.mpr (consumedLockForFill_nonneg side hprice hquantity hfees.maker)⟩
  · exact ⟨_, rfl, receivedForFill_nonneg side hprice hquantity hmaker⟩
  · exact ⟨_, rfl, neg_nonpos.mpr (consumedLockForFill_nonneg (opposite side) hprice hquantity htaker)⟩
  · exact ⟨_, rfl, receivedForFill_nonneg (opposite side) hprice hquantity hfees.taker⟩

variable (service order fill) in
/-- What a settlement takes from the locked balances. -/
theorem settlement_lockedChange (side : Side) (userId asset : String) :
    lockedChange ((Wallet.WalletOp.settleTrade
        (TradingService.settlement (service.toTrade order fill) side)).typeOrmWrites .fin)
        (Wallet.Database.rowKey userId asset)
      = (if fill.makerUserId = userId ∧ lockedAssetOf side order.symbol = asset then
          -consumedLockForFill side fill.price fill.quantity service.makerFeeBps else 0)
        + if fill.takerUserId = userId ∧ lockedAssetOf (opposite side) order.symbol = asset then
          -consumedLockForFill (opposite side) fill.price fill.quantity service.takerFeeBps else 0 := by
  rw [Wallet.WalletOp.typeOrmWrites, settlementLegs_eq]
  simp only [Wallet.legWrites, List.map_cons, List.map_nil, Wallet.lockedChange_cons,
    Wallet.lockedChange_nil, rowKey_eq_iff, and_true, reduceCtorEq, and_false, if_false, add_zero, zero_add]
  rfl

/-- **A settlement is carried out**, if no more is taken than the maker and the taker lock. -/
theorem Accounted.settle {maker : StoredOrder} {pre post : List StoredOrder} {left : Decimal}
    (h : Accounted wallet (pre ++ maker :: (post ++ [{ order with lockedAmount := left }])))
    (hfees : FeesInRange service) (hprice : 0 ≤ fill.price) (hquantity : 0 ≤ fill.quantity)
    (hmaker : fill.makerUserId = maker.userId) (htaker : fill.takerUserId = order.userId)
    (hmakerUser : wallet.assertUserCanTransact maker.userId = .ok ())
    (htakerUser : wallet.assertUserCanTransact order.userId = .ok ())
    (hside : maker.side = opposite order.side)
    (hmakerAsset : maker.lockedAsset = lockedAssetOf maker.side order.symbol)
    (htakerAsset : order.lockedAsset = lockedAssetOf order.side order.symbol)
    (hmakerLe : consumedLockForFill maker.side fill.price fill.quantity service.makerFeeBps ≤ maker.lockedAmount)
    (htakerLe : consumedLockForFill order.side fill.price fill.quantity service.takerFeeBps ≤ left)
    (hnonneg : ∀ o ∈ pre ++ post, 0 ≤ o.lockedAmount) :
    ∃ reply wallet', wallet.exec .fin some
        (.settleTrade (TradingService.settlement (service.toTrade order fill) maker.side)) = .ok (reply, wallet') ∧
      wallet'.users = wallet.users ∧
      Accounted wallet' (pre ++ service.fillMaker maker (service.toTrade order fill) :: (post ++
        [{ order with
          lockedAmount := left - consumedLockForFill order.side fill.price fill.quantity service.takerFeeBps }])) := by
  have hopposite : opposite maker.side = order.side := by
    rw [hside]
    cases order.side <;> rfl
  refine h.settles (.settleTrade (TradingService.settlement (service.toTrade order fill) maker.side)) ?_
    (settlement_settles hfees hprice hquantity maker.side) ?_ ?_
  · intro userId huser
    rcases List.mem_cons.mp huser with rfl | huser
    · exact (congrArg wallet.assertUserCanTransact hmaker).trans hmakerUser
    · rw [List.mem_singleton.mp huser]
      exact (congrArg wallet.assertUserCanTransact htaker).trans htakerUser
  · intro userId asset
    have hfilled : StoredOrder.locks (service.fillMaker maker (service.toTrade order fill)) userId asset
        = if maker.userId = userId ∧ maker.lockedAsset = asset then maker.lockedAmount
            - consumedLockForFill maker.side fill.price fill.quantity service.makerFeeBps else 0 := rfl
    rw [settlement_lockedChange, hopposite, hmaker, htaker, ← hmakerAsset, ← htakerAsset]
    simp only [lockedFor_append, lockedFor_cons, locks_with, hfilled]
    rw [StoredOrder.locks]
    split
    · split
      · ring
      · ring
    · split
      · ring
      · ring
  · intro o ho
    rcases List.mem_append.mp ho with ho | ho
    · exact hnonneg o (List.mem_append_left _ ho)
    · rcases List.mem_cons.mp ho with rfl | ho
      · exact sub_nonneg.mpr hmakerLe
      · rcases List.mem_append.mp ho with ho | ho
        · exact hnonneg o (List.mem_append_right _ ho)
        · rw [List.mem_singleton.mp ho]
          exact sub_nonneg.mpr htakerLe

end Requests

end NexusTrade.Trading
