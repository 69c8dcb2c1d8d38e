import NexusTrade.Trading.Accounting

/-!
# A restart

What `onModuleInit` of `services/trading-service/src/services/trading.service.ts` makes of the rows that calls, one
after another, have left.

* **`SurvivesRestart`**: a service that starts on the rows has an order as it was;
* **`mem_onModuleInit`** and **`restored_unique`**: it has every live order, with the lock of a taker for what is left;
* **`survives_restart_iff`**: what a buyer has saved of the fees as a maker is no longer locked for it.
-/

namespace NexusTrade.Trading

open MatchingEngine (Side OrderKind Decimal Fill UuidSource CallFiles DecimalCodec)

/-- **A service that starts on the rows has the order** with the same quantity filled, status and lock. -/
def SurvivesRestart (service : TradingService) (rows : List OrderEntity) (order : StoredOrder) : Prop :=
  ∃ o ∈ onModuleInit service.takerFeeBps rows, o.id = order.id ∧ o.filledQuantity = order.filledQuantity ∧
    o.status = order.status ∧ o.lockedAmount = order.lockedAmount

section Restored

variable {parse : DecimalParser} {service : TradingService} {done : List Fill} {rows : List OrderEntity}
  {order : StoredOrder}

/-- **The order that is made of the row** of a live order. -/
theorem mem_onModuleInit (h : Held parse service done order) (hrow : OrderEntity.create order ∈ rows) :
    restored service.takerFeeBps (OrderEntity.create order) ∈ onModuleInit service.takerFeeBps rows := by
  have hleft : ¬(OrderEntity.create order).quantity - (OrderEntity.create order).filledQuantity ≤ 0 :=
    not_le.mpr (sub_pos.mpr h.left)
  exact List.mem_filterMap.mpr ⟨_, List.mem_filter.mpr ⟨hrow, h.active⟩, if_neg hleft⟩

/-- No other order has its identifier. -/
theorem restored_unique (hids : (rows.map OrderEntity.id).Nodup) (hrow : OrderEntity.create order ∈ rows)
    {feeBps : Decimal} {o : StoredOrder} (ho : o ∈ onModuleInit feeBps rows) (hid : o.id = order.id) :
    o = restored feeBps (OrderEntity.create order) := by
  obtain ⟨row, hmem, hmade⟩ := List.mem_filterMap.mp ho
  have hrestored : restored feeBps row = o := by
    split at hmade
    · cases hmade
    · exact Option.some.inj hmade
  have hsame : row = OrderEntity.create order := by
    refine List.inj_on_of_nodup_map hids (List.mem_of_mem_filter hmem) hrow ?_
    rw [← hrestored] at hid
    exact hid
  rw [← hrestored, hsame]

/-- What is locked for the order that is made of a row. -/
theorem restored_lockedAmount (hsymbol : isSymbol order.symbol = true) (feeBps : Decimal) :
    (restored feeBps (OrderEntity.create order)).lockedAmount
      = order.unitLock feeBps * (order.quantity - order.filledQuantity) :=
  remainingLock_eq hsymbol feeBps

/-- **What a live order has saved of the fees**, as a maker. -/
theorem Held.saved_eq_zero_iff (h : Held parse service done order) (hdone : ∀ fill ∈ done, 0 < fill.quantity) :
    (order.unitLock service.takerFeeBps - order.unitLock service.makerFeeBps) * asMaker done order.id = 0 ↔
      order.side = .sell ∨ service.makerFeeBps = service.takerFeeBps ∨
        ∀ fill ∈ done, fill.makerOrderId ≠ order.id := by
  obtain ⟨price, hprice, hpositive⟩ := h.price
  rw [mul_eq_zero, asMaker_eq_zero_iff hdone, ← or_assoc]
  refine or_congr_left ?_
  rw [StoredOrder.unitLock, StoredOrder.unitLock, hprice]
  cases order.side with
  | sell => exact iff_of_true (sub_self 1) (Or.inl rfl)
  | buy =>
      have hdifference : price * feeFactor service.takerFeeBps - price * feeFactor service.makerFeeBps
          = price * ((service.takerFeeBps - service.makerFeeBps) / 10000) := by
        rw [feeFactor, feeFactor]
        ring
      show price * feeFactor service.takerFeeBps - price * feeFactor service.makerFeeBps = 0 ↔ _
      rw [hdifference, mul_eq_zero, div_eq_zero_iff, sub_eq_zero]
      constructor
      · rintro (hzero | hsame | hzero)
        · exact absurd hzero hpositive.ne'
        · exact Or.inr hsame.symm
        · exact absurd hzero (by norm_num)
      · rintro (hside | hsame)
        · cases hside
        · exact Or.inr (Or.inl hsame.symm)

/-- **When an order survives a restart.** -/
theorem Held.survives_iff (h : Held parse service done order) (hdone : ∀ fill ∈ done, 0 < fill.quantity)
    (hids : (rows.map OrderEntity.id).Nodup) (hrow : OrderEntity.create order ∈ rows) :
    SurvivesRestart service rows order ↔
      order.side = .sell ∨ service.makerFeeBps = service.takerFeeBps ∨
        ∀ fill ∈ done, fill.makerOrderId ≠ order.id := by
  rw [← h.saved_eq_zero_iff hdone]
  have hlock := restored_lockedAmount h.symbol service.takerFeeBps
  constructor
  · rintro ⟨o, ho, hid, _, _, hsame⟩
    rw [restored_unique hids hrow ho hid, hlock, h.lock] at hsame
    exact left_eq_add.mp hsame
  · intro hzero
    refine ⟨_, mem_onModuleInit h hrow, rfl, rfl, rfl, ?_⟩
    rw [hlock, h.lock, hzero, add_zero]

end Restored

/-- **An order survives a restart exactly if** it sells, or makers pay the fees of takers, or it has been the maker of
no fill: after calls, one after another, on a service that starts without orders, none of which is abandoned. -/
theorem survives_restart_iff (codec : DecimalCodec) (parse : DecimalParser) (service : TradingService)
    (maxRetries : ℕ) (hexact : parse.Exact) (wallet : Wallet.Database) (husers : wallet.users = service.users)
    (persistence : Option MatchingEngine.Persistence) (deeds : List Deed) (replies : List (Option Outcome))
    (market : Market)
    (hrun : Machine.run (Market.exec codec parse service maxRetries) (.start wallet persistence) deeds
      = .ok (replies, market))
    (halong : Machine.Along (Market.exec codec parse service maxRetries) Admitted (.start wallet persistence) deeds)
    (hsucceed : ∀ error, some (.abandoned error) ∉ replies) (order : StoredOrder)
    (horder : order ∈ market.memory.orders) :
    SurvivesRestart service market.remote.rows order ↔
      order.side = .sell ∨ service.makerFeeBps = service.takerFeeBps ∨
        ∀ fill ∈ market.remote.fills, fill.makerOrderId ≠ order.id := by
  -- whatever the wallets hold, the orders and their rows agree
  have hstart : (Market.start wallet persistence).Quiet parse service False :=
    Market.quiet_start husers False.elim persistence
  have hquiet := hstart.run hexact False.elim hrun halong fun _ => hsucceed
  have horderly := hquiet.orderly
  exact (horderly.held order horder).survives_iff horderly.positive horderly.rows (horderly.recorded order horder)

/-- A bid of two, of which one is taken. -/
def bidTaken : List Deed :=
  let inputs := fun tradeId : String => List.replicate 16 (MatchingEngine.filesOk, fun _ => tradeId)
  [.credit ⟨"alice", "BTC", .fin 5, "credit-1"⟩ .deposit,
    .credit ⟨"bob", "USDT", .fin 1000, "credit-2"⟩ .deposit,
    .call (.placeOrder "order-1" (bitcoinOrder "bob" "account-2" .buy .limit 100 none 2)) (inputs "trade-1"),
    .call (.placeOrder "order-2" (bitcoinOrder "alice" "account-1" .sell .limit 100 none 1)) (inputs "trade-2")]

/-- The orders after the calls, with their locks, and those of a service that starts on the rows. -/
theorem bidTaken_restarts :
    (Machine.run (Market.exec MatchingEngine.fractionCodec some quietMarket.trading 3) (.start emptyWallets none)
        bidTaken).toOption.map (fun r => (r.1.all fun reply => match reply with
          | some (.abandoned _) => false
          | _ => true, r.2.memory.orders.map fun order => (order.id, order.lockedAmount),
          (onModuleInit 4 r.2.remote.rows).map StoredOrder.lockedAmount))
      = some (true, [("order-1", 5003 / 50)], [2501 / 25]) := by decide +kernel

theorem bidTaken_admitted :
    Machine.Along (Market.exec MatchingEngine.fractionCodec some quietMarket.trading 3) Admitted
      (.start emptyWallets none) bidTaken := by decide +kernel

/-- The run, with the bid that is left. -/
theorem bidTaken_runs :
    ∃ replies market order, Machine.run (Market.exec MatchingEngine.fractionCodec some quietMarket.trading 3)
        (.start emptyWallets none) bidTaken = .ok (replies, market) ∧
      (∀ error, some (.abandoned error) ∉ replies) ∧ order ∈ market.memory.orders ∧
      order.lockedAmount = 5003 / 50 ∧
        (onModuleInit 4 market.remote.rows).map StoredOrder.lockedAmount = [2501 / 25] := by
  have hrestarts := bidTaken_restarts
  cases hrun : Machine.run (Market.exec MatchingEngine.fractionCodec some quietMarket.trading 3)
      (.start emptyWallets none) bidTaken with
  | error e =>
      rw [hrun] at hrestarts
      cases hrestarts
  | ok p =>
      obtain ⟨replies, market⟩ := p
      rw [hrun] at hrestarts
      obtain ⟨htold, hrestarts⟩ := Prod.mk.inj (Option.some.inj hrestarts)
      obtain ⟨horders, hrestored⟩ := Prod.mk.inj hrestarts
      obtain ⟨order, horder, hpair⟩ :=
        List.mem_map.mp (horders ▸ List.mem_singleton_self ("order-1", (5003 / 50 : Decimal)))
      refine ⟨replies, market, order, rfl, fun error hmem => ?_, horder, congrArg Prod.snd hpair, hrestored⟩
      exact absurd (List.all_eq_true.mp htold _ hmem) Bool.false_ne_true

theorem survives_restart_iff_taken :
    ∃ replies market order, Machine.run (Market.exec MatchingEngine.fractionCodec some quietMarket.trading 3)
        (.start emptyWallets none) bidTaken = .ok (replies, market) ∧ order ∈ market.memory.orders ∧
      (SurvivesRestart quietMarket.trading market.remote.rows order ↔
        order.side = .sell ∨ quietMarket.trading.makerFeeBps = quietMarket.trading.takerFeeBps ∨
          ∀ fill ∈ market.remote.fills, fill.makerOrderId ≠ order.id) := by
  obtain ⟨replies, market, order, hrun, hsucceed, horder, _, _⟩ := bidTaken_runs
  exact ⟨replies, market, order, hrun, horder, survives_restart_iff MatchingEngine.fractionCodec some quietMarket.trading 3
    (fun q q' h => (Option.some.inj h).symm) emptyWallets rfl none bidTaken replies market hrun bidTaken_admitted
    hsucceed order horder⟩

/-- **What is saved of the fees is forgotten**: the bid has a hundred and six hundredths locked, and after a restart
a hundred and four hundredths. -/
theorem bid_taken_does_not_survive :
    ¬∀ (deeds : List Deed) (replies : List (Option Outcome)) (market : Market),
      Machine.run (Market.exec MatchingEngine.fractionCodec some quietMarket.trading 3) (.start emptyWallets none)
          deeds = .ok (replies, market) →
        Machine.Along (Market.exec MatchingEngine.fractionCodec some quietMarket.trading 3) Admitted
          (.start emptyWallets none) deeds →
        (∀ error, some (.abandoned error) ∉ replies) →
        ∀ order ∈ market.memory.orders, SurvivesRestart quietMarket.trading market.remote.rows order := by
  intro h
  obtain ⟨replies, market, order, hrun, hsucceed, horder, hlock, hrestored⟩ := bidTaken_runs
  obtain ⟨o, ho, _, _, _, hsame⟩ := h bidTaken replies market hrun bidTaken_admitted hsucceed order horder
  have hmem : o.lockedAmount ∈ (onModuleInit 4 market.remote.rows).map StoredOrder.lockedAmount :=
    List.mem_map_of_mem ho
  rw [hrestored, List.mem_singleton, hsame, hlock] at hmem
  exact absurd hmem (by decide +kernel)

end NexusTrade.Trading
