import Mathlib.Logic.Relation
import NexusTrade.MatchingEngine.Invariant

/-!
# The matching loop

What the `while` loop of `submit` does, said once:

* **`TradeStep`** is one trade; **`matchPass_cases`**: a pass that goes on makes a trade;
* **`matchLoop_returns`**: a run of the loop is a sequence of trades that ends in a state in which the
  incoming order is `Exhausted` (nothing left, or nothing it crosses) or `Blocked` by an order of its
  own user.  Under the representation invariant it neither panics nor runs out of the passes `submit`
  allots to it: a trade either uses up the incoming order or removes a resting one.
-/

namespace NexusTrade.MatchingEngine

/-- One trade of the matching loop. -/
def TradeStep (uuid : UuidSource) (s t : MatchState) : Prop :=
  ∃ price level resting queue, CanTrade s price level resting queue ∧
    t = s.trade uuid price level resting queue

/-- The trades of the matching loop, one after another. -/
abbrev Trades (uuid : UuidSource) : MatchState → MatchState → Prop :=
  Relation.ReflTransGen (TradeStep uuid)

/-- The incoming order is used up, or no order of the opposite side is within its limit. -/
def Exhausted (s : MatchState) : Prop :=
  s.incoming.remainingQuantity ≤ 0 ∨
    ∀ p l, s.book.level (opposite s.incoming.side) p = some l → crosses s.incoming p = false

/-- The front order of the best level within the limit belongs to the incoming user. -/
structure Blocked (s : MatchState) (price : Decimal) (level : PriceLevel) (resting : Order)
    (queue : List Order) : Prop where
  positive : 0 < s.incoming.remainingQuantity
  best : s.book.bestPrice s.incoming.side = some price
  crosses : crosses s.incoming price = true
  atLevel : s.book.level (opposite s.incoming.side) price = some level
  front : level.orders = resting :: queue
  own : resting.userId = s.incoming.userId

/-! ### One pass -/

/-- If the best price is beyond the limit, every price is. -/
theorem exhausted_of_best {s : MatchState} {price : Decimal}
    (hbest : s.book.bestPrice s.incoming.side = some price) (hc : crosses s.incoming price = false) :
    Exhausted s := by
  refine Or.inr fun p l hl => ?_
  have hle := s.book.bestPrice_best hbest hl
  cases hp : crosses s.incoming p with
  | false => rfl
  | true =>
      rw [OrderBook.crosses_of_betterOrEqual hle hp] at hc
      cases hc

/-- **What a pass does**, for a book in which the best level has a front order. -/
theorem matchPass_cases (uuid : UuidSource) {s : MatchState} (hs : Inv s.book) :
    (matchPass uuid s = .ok .finished ∧ Exhausted s) ∨
    (matchPass uuid s = .ok .selfTrade ∧ ∃ price level resting queue,
      Blocked s price level resting queue) ∨
    (∃ price level resting queue, CanTrade s price level resting queue ∧
      matchPass uuid s = .ok (.traded (s.trade uuid price level resting queue))) := by
  by_cases hpos : s.incoming.remainingQuantity ≤ 0
  · exact Or.inl ⟨by rw [matchPass, if_pos hpos], Or.inl hpos⟩
  cases hbest : s.book.bestPrice s.incoming.side with
  | none =>
      refine Or.inl ⟨by simp only [matchPass, if_neg hpos, hbest], Or.inr fun p l hl => ?_⟩
      rw [s.book.level_of_bestPrice_none hbest] at hl
      cases hl
  | some price =>
      cases hc : crosses s.incoming price with
      | false =>
          refine Or.inl ⟨?_, exhausted_of_best hbest hc⟩
          simp only [matchPass, if_neg hpos, hbest, hc, Bool.not_false, if_true]
      | true =>
          obtain ⟨level, hl⟩ := s.book.level_of_bestPrice hbest
          cases hfront : level.orders with
          | nil => exact absurd hfront (hs.level _ _ _ hl).nonempty
          | cons resting queue =>
              have hself : s.book.isSelfTrade (opposite s.incoming.side) price s.incoming.userId
                  = decide (resting.userId = s.incoming.userId) := by
                simp [OrderBook.isSelfTrade, hl, hfront]
              by_cases hown : resting.userId = s.incoming.userId
              · refine Or.inr (Or.inl ⟨?_, price, level, resting, queue,
                  ⟨not_le.mp hpos, hbest, hc, hl, hfront, hown⟩⟩)
                simp [matchPass, if_neg hpos, hbest, hc, hself, hown]
              · refine Or.inr (Or.inr ⟨price, level, resting, queue,
                  ⟨not_le.mp hpos, hbest, hc, hl, hfront, hown⟩, ?_⟩)
                simp [matchPass, if_neg hpos, hbest, hc, hself, hown, hl, hfront]

/-! ### The orders a trade leaves -/

/-- **The opposing orders around a trade.**  The front order leads them; the trade replaces the front
level by the traded one and leaves the levels behind it. -/
theorem CanTrade.opposingOrders {s : MatchState} {price : Decimal} {level : PriceLevel}
    {resting : Order} {queue : List Order} (h : CanTrade s price level resting queue)
    (uuid : UuidSource) : ∃ behind,
      s.book.opposingOrders s.incoming.side = resting :: (queue ++ behind) ∧
      (s.trade uuid price level resting queue).book.opposingOrders s.incoming.side
        = (s.tradedLevel level resting queue).orders ++ behind := by
  have hlevels := s.levels_trade uuid price level resting queue (opposite s.incoming.side)
  rw [if_pos rfl] at hlevels
  have hbest := h.best
  have hat := h.atLevel
  cases hside : s.incoming.side with
  | buy =>
      rw [hside] at hlevels hbest hat
      obtain ⟨⟨p, l⟩, hf, hp⟩ := Option.map_eq_some_iff.mp hbest
      cases hp
      have hl : l = level := Option.some.inj ((SortedMap.find_of_first hf).symm.trans hat)
      subst hl
      obtain ⟨es, hes⟩ := SortedMap.entries_of_first hf
      have hsplit : s.book.asks.entries = [] ++ (p, l) :: es := hes
      refine ⟨(es.map Prod.snd).flatMap fun level => level.orders, ?_, ?_⟩
      · simp only [OrderBook.opposingOrders, OrderBook.opposingLevels, SortedMap.values, hes,
          List.map_cons, List.flatMap_cons, h.front, List.cons_append]
      · show ((s.trade uuid p l resting queue).book.levels .sell).values.flatMap _ = _
        rw [show Side.sell = opposite .buy from rfl, hlevels]
        split_ifs with hempty
        · have hentries := SortedMap.entries_erase (SortedMap.entries_modify hsplit
            fun _ => s.tradedLevel l resting queue)
          simp only [SortedMap.values, opposite, OrderBook.levels] at hentries ⊢
          rw [hentries, hempty]
          rfl
        · have hentries := SortedMap.entries_modify hsplit fun _ => s.tradedLevel l resting queue
          simp only [SortedMap.values, opposite, OrderBook.levels] at hentries ⊢
          rw [hentries]
          rfl
  | sell =>
      rw [hside] at hlevels hbest hat
      obtain ⟨⟨p, l⟩, hf, hp⟩ := Option.map_eq_some_iff.mp hbest
      cases hp
      have hl : l = level := Option.some.inj ((SortedMap.find_of_last hf).symm.trans hat)
      subst hl
      obtain ⟨es, hes⟩ := SortedMap.entries_of_last hf
      refine ⟨(es.map Prod.snd).reverse.flatMap fun level => level.orders, ?_, ?_⟩
      · simp only [OrderBook.opposingOrders, OrderBook.opposingLevels, SortedMap.values, hes,
          List.map_append, List.map_cons, List.map_nil, List.reverse_append, List.reverse_cons,
          List.reverse_nil, List.nil_append, List.cons_append, List.flatMap_cons, h.front]
      · show ((s.trade uuid p l resting queue).book.levels .buy).values.reverse.flatMap _ = _
        rw [show Side.buy = opposite .sell from rfl, hlevels]
        split_ifs with hempty
        · have hentries := SortedMap.entries_erase (SortedMap.entries_modify hes
            fun _ => s.tradedLevel l resting queue)
          simp only [SortedMap.values, opposite, OrderBook.levels] at hentries ⊢
          rw [hentries, hempty]
          simp
        · have hentries := SortedMap.entries_modify hes fun _ => s.tradedLevel l resting queue
          simp only [SortedMap.values, opposite, OrderBook.levels] at hentries ⊢
          rw [hentries]
          simp

/-- **Progress.**  A trade uses up the incoming order or removes a resting order. -/
theorem CanTrade.progress {s : MatchState} {price : Decimal} {level : PriceLevel}
    {resting : Order} {queue : List Order} (h : CanTrade s price level resting queue)
    (uuid : UuidSource) :
    (s.trade uuid price level resting queue).incoming.remainingQuantity ≤ 0 ∨
      ((s.trade uuid price level resting queue).book.opposingOrders s.incoming.side).length + 1
        = (s.book.opposingOrders s.incoming.side).length := by
  obtain ⟨behind, hbefore, hafter⟩ := h.opposingOrders uuid
  rcases min_choice s.incoming.remainingQuantity resting.remainingQuantity with hmin | hmin
  · refine Or.inl ?_
    show s.incoming.remainingQuantity - min _ _ ≤ 0
    rw [hmin, sub_self]
  · refine Or.inr ?_
    have hzero : (resting.reduce (tradeQuantity s.incoming resting)).remainingQuantity = 0 := by
      show resting.remainingQuantity - min _ _ = 0
      rw [hmin, sub_self]
    have horders : (s.tradedLevel level resting queue).orders = queue := by
      simp only [MatchState.tradedLevel, PriceLevel.tradeFront, if_pos hzero]
    rw [hbefore, hafter, horders, List.length_cons]

/-! ### The loop -/

@[simp] theorem trade_side (uuid : UuidSource) (s : MatchState) (price : Decimal)
    (level : PriceLevel) (resting : Order) (queue : List Order) :
    (s.trade uuid price level resting queue).incoming.side = s.incoming.side := rfl

theorem matchLoop_succ (uuid : UuidSource) (fuel : ℕ) (s : MatchState) :
    matchLoop uuid (fuel + 1) s = (matchPass uuid s >>= fun pass =>
      match pass with
      | .finished => .ok (false, s)
      | .selfTrade => .ok (true, s)
      | .traded next => matchLoop uuid fuel next) := rfl

/-- **The loop returns**, and what it returns is reached by trades and ends in an exhausted or a
blocked incoming order. -/
theorem matchLoop_returns (uuid : UuidSource) : ∀ (fuel : ℕ) (s : MatchState), Inv s.book →
    (s.incoming.remainingQuantity ≤ 0 ∧ 0 < fuel ∨
      (s.book.opposingOrders s.incoming.side).length < fuel) →
    ∃ t, Trades uuid s t ∧ Inv t.book ∧
      ((matchLoop uuid fuel s = .ok (false, t) ∧ Exhausted t) ∨
        (matchLoop uuid fuel s = .ok (true, t) ∧ ∃ price level resting queue,
          Blocked t price level resting queue)) := by
  intro fuel
  induction fuel with
  | zero =>
      intro s _ hfuel
      omega
  | succ fuel ih =>
      intro s hs hfuel
      rcases matchPass_cases uuid hs with ⟨hp, he⟩ | ⟨hp, hb⟩ | ⟨price, level, resting, queue, hc, hp⟩
      · exact ⟨s, .refl, hs, Or.inl ⟨by rw [matchLoop_succ, hp]; rfl, he⟩⟩
      · exact ⟨s, .refl, hs, Or.inr ⟨by rw [matchLoop_succ, hp]; rfl, hb⟩⟩
      · have hlen : (s.book.opposingOrders s.incoming.side).length < fuel + 1 :=
          hfuel.resolve_left fun h => absurd hc.positive (not_lt.mpr h.1)
        obtain ⟨behind, hbefore, _⟩ := hc.opposingOrders uuid
        have hpos : 0 < (s.book.opposingOrders s.incoming.side).length := by
          rw [hbefore, List.length_cons]
          omega
        obtain ⟨t, htrades, ht, hres⟩ := ih (s.trade uuid price level resting queue)
          (hc.trade_inv hs uuid) (by
            rcases hc.progress uuid with hdone | hless
            · exact Or.inl ⟨hdone, by omega⟩
            · refine Or.inr ?_
              rw [trade_side]
              omega)
        have hloop : matchLoop uuid (fuel + 1) s
            = matchLoop uuid fuel (s.trade uuid price level resting queue) := by
          rw [matchLoop_succ, hp]
          rfl
        rw [hloop]
        exact ⟨t, .head ⟨price, level, resting, queue, hc, rfl⟩ htrades, ht, hres⟩

end NexusTrade.MatchingEngine
