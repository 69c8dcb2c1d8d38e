import NexusTrade.Lib.Asserts
import NexusTrade.MatchingEngine.RustDecimal
import NexusTrade.MatchingEngine.Sweep

/-!
# Exact arithmetic in the matching loop

What the loop of `submit` asserts, by the book before it: of each resting order that the incoming one reaches, the
differences that the trade with it forms.

* **`add_asserts`** and **`sub_asserts`** are the two operators;
* **`MatchExact`** is the condition for one trade and **`trade_asserts`** its rule;
* **`OrderBook.TradeExact`** is the condition for an order that is reached, with those that are reached before it;
  **`CanTrade.reached`** takes a trade off it, and **`matchLoop_asserts`** is the rule of the loop.
-/

namespace NexusTrade.MatchingEngine

/-! ### The operators -/

/-- An operator that is exact where the result can be held asserts just that. -/
theorem exactly_asserts {known : Decimal} {result : Except Panic Decimal}
    (hexact : Representable known → result = .ok known) (hheld : ∀ z, result = .ok z → Representable z) :
    Asserts (Representable known) (Arithmetic.exactly known result) result (.ok known) where
  returns := fun z => by
    constructor
    · intro h
      cases hresult : result with
      | error e =>
          rw [hresult] at h
          cases h
      | ok z' =>
          rw [hresult, Arithmetic.exactly] at h
          split at h
          · rename_i hknown
            exact ⟨hknown ▸ hheld z' hresult, by rw [← h, hknown]⟩
          · cases h
    · rintro ⟨hknown, hz⟩
      cases hz
      rw [hexact hknown, Arithmetic.exactly]
      exact if_pos rfl
  agrees := hexact

section Arithmetic

variable {arith : Arithmetic} (harith : arith.Lawful)

include harith

theorem add_asserts (x y : Decimal) :
    Asserts (Representable (x + y)) (arith.asserting.add x y) (arith.add x y) (.ok (x + y)) :=
  exactly_asserts (harith.add_exact x y) (harith.add_representable x y)

theorem sub_asserts (x y : Decimal) :
    Asserts (Representable (x - y)) (arith.asserting.sub x y) (arith.sub x y) (.ok (x - y)) :=
  exactly_asserts (harith.sub_exact x y) (harith.sub_representable x y)

end Arithmetic

/-! ### One trade -/

/-- **The condition** for one trade: the differences that it forms of what the incoming order has left and the level
has in all. -/
structure MatchExact (left levelTotal : Decimal) (resting : Order) : Prop where
  incoming : Representable (left - min left resting.remainingQuantity)
  maker : Representable (resting.remainingQuantity - min left resting.remainingQuantity)
  level : Representable (levelTotal - min left resting.remainingQuantity)
  logged : resting.remainingQuantity - min left resting.remainingQuantity ≠ 0 →
    Representable (resting.originalQuantity - (resting.remainingQuantity - min left resting.remainingQuantity))

section Trade

variable {arith : Arithmetic} (harith : arith.Lawful)

include harith

theorem reduce_asserts (order : Order) (quantity : Decimal) :
    Asserts (Representable (order.remainingQuantity - quantity)) (RustDecimal.reduce arith.asserting order quantity)
      (RustDecimal.reduce arith order quantity) (.ok (order.reduce quantity)) :=
  (sub_asserts harith _ _).bind_same _

theorem recordMaker_asserts (book : OrderBook) (resting : Order) :
    Asserts (resting.remainingQuantity ≠ 0 → Representable (resting.originalQuantity - resting.remainingQuantity))
      (RustDecimal.recordMaker arith.asserting book resting) (RustDecimal.recordMaker arith book resting)
      (.ok (book.recordMaker resting)) := by
  rw [RustDecimal.recordMaker, RustDecimal.recordMaker, OrderBook.recordMaker]
  by_cases hdone : resting.remainingQuantity = 0
  · rw [if_pos hdone, if_pos hdone, if_pos hdone]
    exact .of_holds (fun h => absurd hdone h) _
  · rw [if_neg hdone, if_neg hdone, if_neg hdone]
    exact ((sub_asserts harith _ _).bind_same _).congr ⟨fun h _ => h, fun h => h hdone⟩

/-- **One trade** asserts its condition. -/
theorem trade_asserts (uuid : UuidSource) (s : MatchState) (price : Decimal) (level : PriceLevel)
    (resting : Order) (queue : List Order) :
    Asserts (MatchExact s.incoming.remainingQuantity level.totalQuantity resting)
      (RustDecimal.trade arith.asserting uuid s price level resting queue)
      (RustDecimal.trade arith uuid s price level resting queue)
      (.ok (s.trade uuid price level resting queue)) := by
  refine ((reduce_asserts harith _ _).bind_ok ((reduce_asserts harith _ _).bind_ok
    ((sub_asserts harith _ _).bind_ok ((recordMaker_asserts harith _ _).bind_same _)))).congr ?_
  exact ⟨fun ⟨hincoming, hmaker, hlevel, hlogged⟩ => ⟨hincoming, hmaker, hlevel, hlogged⟩,
    fun h => ⟨h.incoming, h.maker, h.level, h.logged⟩⟩

end Trade

/-! ### The orders that are reached -/

/-- What a side has in all at the price of an order. -/
def OrderBook.totalAt (book : OrderBook) (side : Side) (o : Order) : Decimal :=
  (book.levelOrEmpty side (o.price.getD 0)).totalQuantity

/-- **The condition** for an order that is reached, with those that are reached before it, by the book before any
trade. -/
def OrderBook.TradeExact (book : OrderBook) (o : Order) (before : List Order) (resting : Order) : Prop :=
  MatchExact (o.remainingQuantity - Allot.total Order.remainingQuantity before)
    (book.totalAt (opposite o.side) resting
      - Allot.total Order.remainingQuantity (before.filter fun r => r.price = resting.price)) resting

section Reached

variable {s : MatchState} {price : Decimal} {level : PriceLevel} {resting : Order} {queue : List Order}

/-- What the side has at each price after a trade. -/
theorem CanTrade.total_trade (h : CanTrade s price level resting queue) (hs : Inv s.book) (uuid : UuidSource)
    (p : Decimal) :
    ((s.trade uuid price level resting queue).book.levelOrEmpty (opposite s.incoming.side) p).totalQuantity
      = if p = price then level.totalQuantity - tradeQuantity s.incoming resting
        else (s.book.levelOrEmpty (opposite s.incoming.side) p).totalQuantity := by
  rw [OrderBook.levelOrEmpty, s.level_trade uuid price level resting queue _ p h.atLevel]
  by_cases hp : p = price
  · rw [if_pos ⟨rfl, hp⟩, if_pos hp]
    split
    · -- the level is removed: it held the resting order alone, which is filled
      rename_i hempty
      have htotal := (hs.level _ _ _ h.atLevel).total
      have hempty : (if resting.remainingQuantity - tradeQuantity s.incoming resting = 0 then queue
          else resting.reduce (tradeQuantity s.incoming resting) :: queue) = [] := hempty
      split at hempty
      · rename_i hfilled
        rw [htotal, h.front, hempty, totalRemaining, List.map_singleton, List.sum_singleton, hfilled]
        rfl
      · cases hempty
    · rfl
  · rw [if_neg fun hc => hp hc.2, if_neg hp, OrderBook.levelOrEmpty]

/-- **A trade and what is reached after it.** -/
theorem CanTrade.reached (h : CanTrade s price level resting queue) (hs : Inv s.book) (uuid : UuidSource) :
    Allot.Reached Order.remainingQuantity (s.book.TradeExact s.incoming) s.incoming.remainingQuantity
        (s.book.reachable s.incoming) ↔
      MatchExact s.incoming.remainingQuantity level.totalQuantity resting ∧
        Allot.Reached Order.remainingQuantity
          ((s.trade uuid price level resting queue).book.TradeExact
            (s.trade uuid price level resting queue).incoming)
          (s.trade uuid price level resting queue).incoming.remainingQuantity
          ((s.trade uuid price level resting queue).book.reachable
            (s.trade uuid price level resting queue).incoming) := by
  obtain ⟨behind, hbefore, hafter⟩ := h.opposingOrders uuid
  obtain ⟨_, hprice, hpos⟩ := h.restingInv hs
  have htrades : tradesWith s.incoming resting = true := by
    rw [tradesWith, hprice, Option.getD_some, h.crosses, decide_eq_true h.other]
    rfl
  have hreach : s.book.reachable s.incoming = resting :: (queue ++ behind).takeWhile (tradesWith s.incoming) := by
    rw [OrderBook.reachable, hbefore, List.takeWhile_cons_of_pos htrades]
  have hpositive : ∀ r ∈ s.book.reachable s.incoming, 0 ≤ r.remainingQuantity :=
    fun r hr => (hs.opposing (OrderBook.reachable_subset hr)).2.1.le
  have hat : s.book.totalAt (opposite s.incoming.side) resting = level.totalQuantity := by
    rw [OrderBook.totalAt, hprice, Option.getD_some, OrderBook.levelOrEmpty, h.atLevel]
    rfl
  have hfirst : s.book.TradeExact s.incoming [] resting
      ↔ MatchExact s.incoming.remainingQuantity level.totalQuantity resting := by
    rw [OrderBook.TradeExact, List.filter_nil, Allot.total_nil, sub_zero, sub_zero, hat]
  have hafter_reach : (s.trade uuid price level resting queue).book.reachable
      (s.trade uuid price level resting queue).incoming
        = ((s.tradedLevel level resting queue).orders ++ behind).takeWhile (tradesWith s.incoming) := by
    rw [← hafter]
    rfl
  rw [hreach, Allot.reached_cons, hfirst]
  refine and_congr ⟨fun hm => hm h.positive, fun hm _ => hm⟩ ?_
  rcases le_or_gt resting.remainingQuantity s.incoming.remainingQuantity with hle | hlt
  · -- the resting order is filled and leaves the queue
    have hq : tradeQuantity s.incoming resting = resting.remainingQuantity := min_eq_right hle
    have horders : (s.tradedLevel level resting queue).orders = queue := by
      simp [MatchState.tradedLevel, PriceLevel.tradeFront, hq, Order.reduce]
    have hleft : (s.trade uuid price level resting queue).incoming.remainingQuantity
        = s.incoming.remainingQuantity - resting.remainingQuantity := by
      rw [← hq]
      rfl
    rw [hafter_reach, horders, hleft]
    refine Allot.reached_congr fun before a hpre => ?_
    have hmem : a ∈ s.book.reachable s.incoming := by
      rw [hreach]
      exact List.mem_cons_of_mem _ (hpre.subset (List.mem_append_right _ List.mem_cons_self))
    obtain ⟨_, _, p, _, hp, _⟩ := hs.opposing (OrderBook.reachable_subset hmem)
    have hdemand : (s.trade uuid price level resting queue).incoming.remainingQuantity
        - Allot.total Order.remainingQuantity before
          = s.incoming.remainingQuantity - Allot.total Order.remainingQuantity (resting :: before) := by
      rw [hleft, Allot.total_cons, sub_sub]
    have htotal : (s.trade uuid price level resting queue).book.totalAt
          (opposite (s.trade uuid price level resting queue).incoming.side) a
        - Allot.total Order.remainingQuantity (before.filter fun r => r.price = a.price)
          = s.book.totalAt (opposite s.incoming.side) a
            - Allot.total Order.remainingQuantity ((resting :: before).filter fun r => r.price = a.price) := by
      rw [OrderBook.totalAt, OrderBook.totalAt, hp, Option.getD_some, MatchState.trade_incoming]
      show ((s.trade uuid price level resting queue).book.levelOrEmpty (opposite s.incoming.side) p).totalQuantity
        - _ = _
      rw [h.total_trade hs, hq]
      by_cases hsame : p = price
      · rw [if_pos hsame, List.filter_cons_of_pos (by simp [hprice, hsame]), Allot.total_cons, hsame,
          OrderBook.levelOrEmpty, h.atLevel, Option.getD_some, sub_sub]
      · rw [if_neg hsame, List.filter_cons_of_neg (by simp [hprice, Ne.symm hsame])]
    rw [OrderBook.TradeExact, OrderBook.TradeExact, hdemand, htotal]
  · -- the incoming order is used up
    have hq : tradeQuantity s.incoming resting = s.incoming.remainingQuantity := min_eq_left hlt.le
    have hleft : (s.trade uuid price level resting queue).incoming.remainingQuantity = 0 := by
      show s.incoming.remainingQuantity - tradeQuantity s.incoming resting = 0
      rw [hq, sub_self]
    refine iff_of_true (Allot.reached_of_nonpos (fun r hr => ?_) (sub_nonpos.mpr hlt.le))
      (Allot.reached_of_nonpos (fun r hr => ?_) hleft.le)
    · exact hpositive r (hreach ▸ List.mem_cons_of_mem _ hr)
    · exact ((h.trade_inv hs uuid).opposing (OrderBook.reachable_subset hr)).2.1.le

end Reached

/-! ### The loop -/

section Loop

variable {s : MatchState} {price : Decimal} {level : PriceLevel} {resting : Order} {queue : List Order}

/-- There is one order to trade with. -/
theorem CanTrade.unique (h : CanTrade s price level resting queue) {price' : Decimal} {level' : PriceLevel}
    {resting' : Order} {queue' : List Order} (h' : CanTrade s price' level' resting' queue') :
    price' = price ∧ level' = level ∧ resting' = resting ∧ queue' = queue := by
  have hprice : price' = price := Option.some.inj (h'.best.symm.trans h.best)
  subst hprice
  have hlevel : level' = level := Option.some.inj (h'.atLevel.symm.trans h.atLevel)
  subst hlevel
  obtain ⟨hresting, hqueue⟩ := List.cons.inj (h'.front.symm.trans h.front)
  exact ⟨rfl, rfl, hresting, hqueue⟩

theorem CanTrade.isSelfTrade (h : CanTrade s price level resting queue) :
    s.book.isSelfTrade (opposite s.incoming.side) price s.incoming.userId = false := by
  rw [OrderBook.isSelfTrade, h.atLevel, Option.bind_some, h.front]
  exact decide_eq_false h.other

/-- What a pass that trades asserts. -/
def PassExact (s : MatchState) : Prop :=
  ∀ price level resting queue, CanTrade s price level resting queue →
    MatchExact s.incoming.remainingQuantity level.totalQuantity resting

theorem CanTrade.passExact (h : CanTrade s price level resting queue) :
    PassExact s ↔ MatchExact s.incoming.remainingQuantity level.totalQuantity resting := by
  constructor
  · exact fun hfits => hfits _ _ _ _ h
  · intro hfits price' level' resting' queue' h'
    obtain ⟨-, rfl, rfl, -⟩ := h.unique h'
    exact hfits

theorem passExact_of_exhausted (h : Exhausted s) : PassExact s := by
  intro price level resting queue hc
  rcases h with hdone | hbeyond
  · exact absurd hc.positive (not_lt.mpr hdone)
  · have hcross := hc.crosses
    rw [hbeyond price level hc.atLevel] at hcross
    cases hcross

theorem passExact_of_blocked (h : Blocked s price level resting queue) : PassExact s := by
  intro price' level' resting' queue' hc
  have hprice : price' = price := Option.some.inj (hc.best.symm.trans h.best)
  subst hprice
  have hlevel : level' = level := Option.some.inj (hc.atLevel.symm.trans h.atLevel)
  subst hlevel
  obtain ⟨rfl, -⟩ := List.cons.inj (hc.front.symm.trans h.front)
  exact absurd h.own hc.other

variable {arith : Arithmetic} (harith : arith.Lawful)

include harith

/-- **One pass.** -/
theorem matchPass_asserts (uuid : UuidSource) (hs : Inv s.book) :
    Asserts (PassExact s) (RustDecimal.matchPass arith.asserting uuid s) (RustDecimal.matchPass arith uuid s)
      (matchPass uuid s) := by
  have hskip : ∀ x : Except Panic Pass, (∀ price level resting queue, ¬CanTrade s price level resting queue) →
      Asserts (PassExact s) x x x := fun x hnone =>
    .of_holds (fun _ _ _ _ hc => absurd hc (hnone _ _ _ _)) x
  unfold RustDecimal.matchPass matchPass
  by_cases hpos : s.incoming.remainingQuantity ≤ 0
  · rw [if_pos hpos, if_pos hpos, if_pos hpos]
    exact hskip _ fun _ _ _ _ hc => not_lt.mpr hpos hc.positive
  rw [if_neg hpos, if_neg hpos, if_neg hpos]
  cases hbest : s.book.bestPrice s.incoming.side with
  | none =>
      refine hskip _ fun _ _ _ _ hc => ?_
      rw [hc.best] at hbest
      cases hbest
  | some price =>
      by_cases hcross : (!crosses s.incoming price) = true
      · simp only [if_pos hcross]
        refine hskip _ fun _ _ _ _ hc => ?_
        obtain rfl := Option.some.inj (hc.best.symm.trans hbest)
        rw [hc.crosses] at hcross
        cases hcross
      simp only [if_neg hcross]
      by_cases hself : s.book.isSelfTrade (opposite s.incoming.side) price s.incoming.userId = true
      · simp only [if_pos hself]
        refine hskip _ fun _ _ _ _ hc => ?_
        obtain rfl := Option.some.inj (hc.best.symm.trans hbest)
        rw [hc.isSelfTrade] at hself
        cases hself
      simp only [if_neg hself]
      cases hlevel : s.book.level (opposite s.incoming.side) price with
      | none =>
          refine hskip _ fun _ _ _ _ hc => ?_
          obtain rfl := Option.some.inj (hc.best.symm.trans hbest)
          rw [hc.atLevel] at hlevel
          cases hlevel
      | some level =>
          cases hfront : level.orders with
          | nil => exact absurd hfront (hs.level _ _ _ hlevel).nonempty
          | cons resting queue =>
              have hc : CanTrade s price level resting queue := by
                refine ⟨not_le.mp hpos, hbest, by simpa using hcross, hlevel, hfront, ?_⟩
                rw [OrderBook.isSelfTrade, hlevel, Option.bind_some, hfront] at hself
                simpa using hself
              simp only [hfront]
              exact ((trade_asserts harith uuid s price level resting queue).bind_same _).congr hc.passExact.symm

/-- **The loop** asserts what is said of each order that is reached. -/
theorem matchLoop_asserts (uuid : UuidSource) (fuel : ℕ) : ∀ s : MatchState, Inv s.book →
    Asserts (Allot.Reached Order.remainingQuantity (s.book.TradeExact s.incoming) s.incoming.remainingQuantity
        (s.book.reachable s.incoming))
      (RustDecimal.matchLoop arith.asserting uuid fuel s) (RustDecimal.matchLoop arith uuid fuel s)
      (matchLoop uuid fuel s) := by
  induction fuel with
  | zero => exact fun s _ => .error _ _
  | succ fuel ih =>
      intro s hs
      rw [RustDecimal.matchLoop, RustDecimal.matchLoop, matchLoop]
      rcases matchPass_cases uuid hs with
        ⟨hpass, hexhausted⟩ | ⟨hpass, price, level, resting, queue, hb⟩ | ⟨price, level, resting, queue, hc, hpass⟩
      · have hp := matchPass_asserts harith uuid hs
        rw [hpass] at hp ⊢
        refine (hp.bind_ok (R := True) ?_).congr (iff_of_true ⟨passExact_of_exhausted hexhausted, trivial⟩ ?_)
        · exact .refl (.ok (false, s))
        rcases hexhausted with hdone | hbeyond
        · exact Allot.reached_of_nonpos (fun r hr => (hs.opposing (OrderBook.reachable_subset hr)).2.1.le) hdone
        · rw [reachable_beyond hs hbeyond]
          exact Allot.reached_nil
      · have hp := matchPass_asserts harith uuid hs
        rw [hpass] at hp ⊢
        refine (hp.bind_ok (R := True) ?_).congr (iff_of_true ⟨passExact_of_blocked hb, trivial⟩ ?_)
        · exact .refl (.ok (true, s))
        rw [reachable_blocked hb]
        exact Allot.reached_nil
      · have hp := matchPass_asserts harith uuid hs
        rw [hpass] at hp ⊢
        refine (hp.bind_ok (ih _ (hc.trade_inv hs uuid))).congr ?_
        rw [hc.passExact, hc.reached hs uuid]

end Loop

end NexusTrade.MatchingEngine
