import NexusTrade.MatchingEngine.Naive

/-!
# The order book refines the naive matcher

* **`Simulates book opens`**: the queue of each side and price is the list of open orders of that side
  and price, in the same order;
* **`Simulates.pick`**: the scan finds the front order of the best level;
* **`sweep_trades`**: every trade of the loop is one iteration of the sweep, and both stop together;
* **`Simulates.submit`**, **`Simulates.cancel`** and **`Simulates.depth`** are the simulation of the
  calls, and **`run_refines_naive`** the refinement over runs.
-/

namespace NexusTrade.MatchingEngine

open Naive

/-! ### The simulation relation -/

/-- A queued order, as the naive matcher knows it. -/
def Order.toOpen (o : Order) : OpenOrder :=
  ⟨o.orderId, o.userId, o.side, o.price.getD 0, o.remainingQuantity⟩

/-- What the naive matcher returns in place of a reply. -/
def BookReply.toNaive : BookReply → Reply
  | .submitted report => .submitted report.accepted (report.fills.map Fill.toTrade)
  | .cancelled done => .cancelled done
  | .triggered _ => .cancelled false

/-- The queue of a side and price; a price without a level has the empty queue. -/
def OrderBook.queue (book : OrderBook) (side : Side) (price : Decimal) : List Order :=
  (book.levelOrEmpty side price).orders

/-- **The simulation relation.** -/
def Simulates (book : OrderBook) (opens : List OpenOrder) : Prop :=
  ∀ side price, (book.queue side price).map Order.toOpen = opens.filter (OpenOrder.sits side price)

theorem queue_of_level {book : OrderBook} {side : Side} {price : Decimal} {l : PriceLevel}
    (h : book.level side price = some l) : book.queue side price = l.orders := by
  rw [OrderBook.queue, OrderBook.levelOrEmpty, h]
  rfl

theorem mem_queue {book : OrderBook} {side : Side} {price : Decimal} {o : Order}
    (h : o ∈ book.queue side price) : ∃ l, book.level side price = some l ∧ o ∈ l.orders := by
  rw [OrderBook.queue, OrderBook.levelOrEmpty] at h
  cases hl : book.level side price with
  | none => rw [hl] at h; cases h
  | some l => rw [hl] at h; exact ⟨l, rfl, h⟩

theorem Simulates.of_levels {b b' : OrderBook} {opens : List OpenOrder} (h : Simulates b opens)
    (hlevels : ∀ side, b'.levels side = b.levels side) : Simulates b' opens := by
  intro side price
  rw [OrderBook.queue, OrderBook.levelOrEmpty, OrderBook.level_congr (hlevels side)]
  exact h side price

theorem simulates_default : Simulates OrderBook.default [] := by
  intro side price
  cases side <;> rfl

/-- Every open order is queued. -/
theorem Simulates.mem {book : OrderBook} {opens : List OpenOrder} (h : Simulates book opens)
    {x : OpenOrder} (hx : x ∈ opens) :
    ∃ l o, book.level x.side x.price = some l ∧ o ∈ l.orders ∧ o.toOpen = x := by
  have hin : x ∈ (book.queue x.side x.price).map Order.toOpen := by
    rw [h]
    exact List.mem_filter.mpr ⟨hx, OpenOrder.sits_iff.mpr ⟨rfl, rfl⟩⟩
  obtain ⟨o, ho, hox⟩ := List.mem_map.mp hin
  obtain ⟨l, hl, ho⟩ := mem_queue ho
  exact ⟨l, o, hl, ho, hox⟩

/-- Every queued order is open. -/
theorem Simulates.toOpen_mem {book : OrderBook} {opens : List OpenOrder} (h : Simulates book opens)
    {side : Side} {price : Decimal} {l : PriceLevel} {o : Order}
    (hl : book.level side price = some l) (ho : o ∈ l.orders) : o.toOpen ∈ opens := by
  have hin : o.toOpen ∈ (book.queue side price).map Order.toOpen := by
    rw [queue_of_level hl]
    exact List.mem_map_of_mem ho
  rw [h] at hin
  exact (List.mem_filter.mp hin).1

/-- Without a best price nothing is picked. -/
theorem Simulates.pick_none {book : OrderBook} {opens : List OpenOrder} (h : Simulates book opens)
    {side : Side} (hbest : book.bestPrice side = none) : pick (opposite side) opens = none := by
  refine pick_eq_none fun x hx hside => ?_
  obtain ⟨l, o, hl, _, _⟩ := h.mem hx
  rw [hside, book.level_of_bestPrice_none hbest] at hl
  cases hl

/-- **The scan finds the front order of the best level.** -/
theorem Simulates.pick {book : OrderBook} {opens : List OpenOrder} (h : Simulates book opens)
    {side : Side} {price : Decimal} {level : PriceLevel} {resting : Order} {queue : List Order}
    (hbest : book.bestPrice side = some price)
    (hl : book.level (opposite side) price = some level) (hfront : level.orders = resting :: queue) :
    pick (opposite side) opens = some resting.toOpen := by
  have hqueue : opens.filter (OpenOrder.sits (opposite side) price)
      = resting.toOpen :: queue.map Order.toOpen := by
    rw [← h, queue_of_level hl, hfront]
    rfl
  refine pick_eq_some hqueue fun x hx hside => ?_
  obtain ⟨l, o, hl', _, _⟩ := h.mem hx
  rw [hside] at hl'
  have hle := book.bestPrice_best hbest hl'
  cases hs : opposite side with
  | buy =>
      rw [hs] at hle
      exact decide_eq_false (not_lt.mpr hle)
  | sell =>
      rw [hs] at hle
      exact decide_eq_false (not_lt.mpr hle)

/-- The limit of the naive matcher is the price test of the engine. -/
theorem withinLimit_eq_crosses {o : Order} (hprice : o.kind ≠ .market → o.price.isSome)
    (price : Decimal) : withinLimit o.side (limitOf o) price = crosses o price := by
  by_cases hk : o.kind = .market
  · simp [withinLimit, limitOf, crosses, hk]
  · obtain ⟨limit, hp⟩ := Option.isSome_iff_exists.mp (hprice hk)
    rw [limitOf, if_neg hk, hp]
    unfold crosses
    cases hs : o.side <;> cases hkind : o.kind <;> simp_all [withinLimit]

/-- A post-only order is beyond its limit exactly if it would not cross. -/
theorem Simulates.beyondLimit {book : OrderBook} {opens : List OpenOrder} (h : Simulates book opens)
    (hinv : Inv book) {o : Order} (hprice : o.kind ≠ .market → o.price.isSome) :
    beyondLimit o opens = !book.wouldCross o := by
  rw [Naive.beyondLimit, OrderBook.wouldCross]
  cases hbest : book.bestPrice o.side with
  | none => rw [h.pick_none hbest]; rfl
  | some price =>
      obtain ⟨level, hl⟩ := book.level_of_bestPrice hbest
      cases hfront : level.orders with
      | nil => exact absurd hfront (hinv.level _ _ _ hl).nonempty
      | cons resting queue =>
          have hown := (hinv.level _ _ _ hl).own resting (by rw [hfront]; exact List.mem_cons_self)
          have hopen : resting.toOpen.price = price := by
            show resting.price.getD 0 = price
            rw [hown.2.1]
            rfl
          rw [h.pick hbest hl hfront]
          simp only [hopen, withinLimit_eq_crosses hprice]

/-! ### The sweep -/

/-- What ties the matching loop to the sweep of an incoming order. -/
structure SweepSim (o : Order) (s : MatchState) (S : Sweep) : Prop where
  book : Simulates s.book S.opens
  remaining : S.remaining = s.incoming.remainingQuantity
  trades : S.trades = s.fills.map Fill.toTrade
  incoming : ∃ r n, s.incoming = { o with remainingQuantity := r, sequence := n }

/-- The fuel that lets a sweep run to its end. -/
def Enough (fuel : ℕ) (S : Sweep) : Prop :=
  S.remaining ≤ 0 ∧ 0 < fuel ∨ S.opens.length < fuel

/-- A filled order leaves the list. -/
theorem length_fillOpen_lt {orderId : String} {quantity : Decimal} {opens : List OpenOrder}
    {o : OpenOrder} (ho : o ∈ opens) (hid : o.orderId = orderId) (hzero : o.remaining - quantity = 0) :
    (fillOpen orderId quantity opens).length < opens.length := by
  refine List.length_filterMap_lt_length_iff_exists.mpr ⟨o, ho, ?_⟩
  rw [if_pos hid, if_pos hzero]

/-- The iterations of the sweep make progress. -/
theorem Enough.trade {fuel : ℕ} {S : Sweep} (h : Enough (fuel + 1) S) (hpos : 0 < S.remaining)
    (o : Order) {best : OpenOrder} (hbest : best ∈ S.opens) : Enough fuel (S.trade o best) := by
  have hlen : S.opens.length < fuel + 1 := h.resolve_left fun hz => absurd hpos (not_lt.mpr hz.1)
  have hne : 0 < S.opens.length := List.length_pos_of_mem hbest
  rcases min_choice S.remaining best.remaining with hmin | hmin
  · refine Or.inl ⟨?_, by omega⟩
    show S.remaining - min _ _ ≤ 0
    rw [hmin, sub_self]
  · refine Or.inr ?_
    have hdrop : (fillOpen best.orderId (min S.remaining best.remaining) S.opens).length
        < S.opens.length := length_fillOpen_lt hbest rfl (by rw [hmin, sub_self])
    show (fillOpen _ _ _).length < fuel
    omega

section Trade

variable {o : Order} {s : MatchState} {S : Sweep} {price : Decimal} {level : PriceLevel}
  {resting : Order} {queue : List Order}

/-- The queue of a level after a trade. -/
theorem queue_trade (h : CanTrade s price level resting queue) (uuid : UuidSource) (side : Side)
    (p : Decimal) : (s.trade uuid price level resting queue).book.queue side p
      = if side = opposite s.incoming.side ∧ p = price then (s.tradedLevel level resting queue).orders
        else s.book.queue side p := by
  rw [OrderBook.queue, OrderBook.levelOrEmpty,
    s.level_trade uuid price level resting queue side p h.atLevel]
  split
  · split
    · rename_i hempty
      rw [hempty]
      rfl
    · rfl
  · rfl

/-- **A trade is an iteration of the sweep.** -/
theorem SweepSim.trade (hsim : SweepSim o s S) (hs : LoopInv s)
    (h : CanTrade s price level resting queue) (uuid : UuidSource) :
    SweepSim o (s.trade uuid price level resting queue) (S.trade o resting.toOpen) := by
  have hids := (hs.book.level _ _ _ h.atLevel).ids
  rw [h.front, orderIds_cons, List.nodup_cons] at hids
  obtain ⟨_, hprice, _⟩ := h.restingInv hs.book
  obtain ⟨r, n, hin⟩ := hsim.incoming
  have hquantity : min S.remaining resting.toOpen.remaining = tradeQuantity s.incoming resting := by
    rw [hsim.remaining]
    rfl
  refine ⟨?_, ?_, ?_, ?_⟩
  · intro side p
    show ((s.trade uuid price level resting queue).book.queue side p).map Order.toOpen
      = (fillOpen resting.toOpen.orderId (min S.remaining resting.toOpen.remaining)
          S.opens).filter (OpenOrder.sits side p)
    rw [hquantity, filter_fillOpen, ← hsim.book, queue_trade h uuid]
    by_cases hsp : side = opposite s.incoming.side ∧ p = price
    · obtain ⟨rfl, rfl⟩ := hsp
      have hrest : ∀ x ∈ queue.map Order.toOpen, x.orderId ≠ resting.toOpen.orderId := by
        intro x hx e
        obtain ⟨o', ho', rfl⟩ := List.mem_map.mp hx
        have e' : o'.orderId = resting.orderId := e
        exact hids.1 (e' ▸ mem_orderIds ho')
      rw [if_pos ⟨rfl, rfl⟩, queue_of_level h.atLevel, h.front, List.map_cons]
      rw [fillOpen_front, fillOpen_of_not_mem _ hrest]
      simp only [MatchState.tradedLevel, PriceLevel.tradeFront]
      show ((if resting.remainingQuantity - _ = 0 then queue else _ :: queue).map _)
        = if resting.remainingQuantity - _ = 0 then _ else _
      split_ifs <;> rfl
    · rw [if_neg hsp, fillOpen_of_not_mem]
      intro x hx
      obtain ⟨o', ho', rfl⟩ := List.mem_map.mp hx
      obtain ⟨l, hl, ho'⟩ := mem_queue ho'
      intro e
      have hmem := h.front_id
      have hmem' : resting.orderId ∈ orderIds l.orders := by
        have := mem_orderIds ho'
        rwa [show o'.orderId = resting.orderId from e] at this
      exact hsp (hs.book.level_unique h.atLevel hl hmem hmem')
  · show S.remaining - min S.remaining resting.toOpen.remaining
      = s.incoming.remainingQuantity - tradeQuantity s.incoming resting
    rw [hquantity, hsim.remaining]
  · show S.trades ++ _ = (s.fills ++ _).map _
    rw [hsim.trades, List.map_append, List.map_singleton, hquantity]
    show _ ++ [Trade.mk resting.orderId o.orderId resting.userId o.userId (resting.price.getD 0) _]
      = _ ++ [Trade.mk resting.orderId s.incoming.orderId resting.userId s.incoming.userId price _]
    rw [hprice, show s.incoming.orderId = o.orderId by rw [hin],
      show s.incoming.userId = o.userId by rw [hin]]
    rfl
  · exact ⟨_, n, by rw [MatchState.trade_incoming, Order.reduce, hin]⟩

/-- The iteration of the sweep in the situation of a trade. -/
theorem SweepSim.sweep_trade (hsim : SweepSim o s S) (hs : LoopInv s)
    (hprice : o.kind ≠ .market → o.price.isSome) (h : CanTrade s price level resting queue)
    (fuel : ℕ) : sweep o (fuel + 1) S = sweep o fuel (S.trade o resting.toOpen) := by
  obtain ⟨r, n, hin⟩ := hsim.incoming
  have hside : s.incoming.side = o.side := by rw [hin]
  have hpick := hsim.book.pick h.best h.atLevel h.front
  obtain ⟨_, hrest, _⟩ := h.restingInv hs.book
  have hopen : resting.toOpen.price = price := by
    show resting.price.getD 0 = price
    rw [hrest]
    rfl
  have hcross : crosses o price = true := by
    have := h.crosses
    rw [hin] at this
    exact this
  have hother : resting.toOpen.userId ≠ o.userId := by
    have := h.other
    rw [hin] at this
    exact this
  have hpos : ¬S.remaining ≤ 0 := by
    rw [hsim.remaining]
    exact not_le.mpr h.positive
  rw [hside] at hpick
  rw [sweep, if_neg hpos, hpick]
  simp only [hopen, withinLimit_eq_crosses hprice, hcross, Bool.true_eq_false, if_false,
    if_neg hother]

end Trade

/-- **The trades of the loop are iterations of the sweep.** -/
theorem sweep_trades {uuid : UuidSource} {o : Order} {s t : MatchState} {S : Sweep} {fuel : ℕ}
    (hprice : o.kind ≠ .market → o.price.isSome) (hsim : SweepSim o s S) (hs : LoopInv s)
    (hfuel : Enough fuel S) (h : Trades uuid s t) :
    ∃ fuel' T, sweep o fuel S = sweep o fuel' T ∧ Enough fuel' T ∧ SweepSim o t T := by
  induction h with
  | refl => exact ⟨fuel, S, rfl, hfuel, hsim⟩
  | @tail t u htrades hstep ih =>
      obtain ⟨fuel', T, hsweep, henough, hT⟩ := ih
      obtain ⟨price, level, resting, queue, hc, rfl⟩ := hstep
      have ht := hs.trades htrades
      have hpos : 0 < T.remaining := by
        rw [hT.remaining]
        exact hc.positive
      obtain ⟨k, rfl⟩ : ∃ k, fuel' = k + 1 := by
        have hgt : 0 < fuel' := by
          rcases henough with hz | hlt
          · exact hz.2
          · omega
        exact ⟨fuel' - 1, by omega⟩
      have hmem : resting.toOpen ∈ T.opens := hT.book.toOpen_mem hc.atLevel hc.front_mem
      exact ⟨k, T.trade o resting.toOpen,
        hsweep.trans (hT.sweep_trade ht hprice hc k), henough.trade hpos o hmem,
        hT.trade ht hc uuid⟩

theorem Enough.pos {fuel : ℕ} {S : Sweep} (h : Enough fuel S) : ∃ k, fuel = k + 1 := by
  have hgt : 0 < fuel := by
    rcases h with hz | hlt
    · exact hz.2
    · omega
  exact ⟨fuel - 1, by omega⟩

/-- The sweep stops where the loop finds the incoming order exhausted. -/
theorem SweepSim.sweep_exhausted {o : Order} {t : MatchState} {T : Sweep} {fuel : ℕ}
    (hsim : SweepSim o t T) (ht : LoopInv t) (hprice : o.kind ≠ .market → o.price.isSome)
    (hfuel : Enough fuel T) (he : Exhausted t) : sweep o fuel T = (false, T) := by
  obtain ⟨k, rfl⟩ := hfuel.pos
  obtain ⟨r, n, hin⟩ := hsim.incoming
  have hside : t.incoming.side = o.side := by rw [hin]
  rw [sweep]
  by_cases hpos : T.remaining ≤ 0
  · rw [if_pos hpos]
  rw [if_neg hpos]
  have hbeyond := he.resolve_left (by rw [← hsim.remaining]; exact hpos)
  cases hbest : t.book.bestPrice t.incoming.side with
  | none =>
      have hpick := hsim.book.pick_none hbest
      rw [hside] at hpick
      rw [hpick]
  | some price =>
      obtain ⟨level, hl⟩ := t.book.level_of_bestPrice hbest
      cases hfront : level.orders with
      | nil => exact absurd hfront (ht.book.level _ _ _ hl).nonempty
      | cons resting queue =>
          have hown := (ht.book.level _ _ _ hl).own resting (by rw [hfront]; exact List.mem_cons_self)
          have hopen : resting.toOpen.price = price := by
            show resting.price.getD 0 = price
            rw [hown.2.1]
            rfl
          have hcross : crosses o price = false := by
            have := hbeyond price level hl
            rw [hin] at this
            exact this
          have hpick := hsim.book.pick hbest hl hfront
          rw [hside] at hpick
          rw [hpick]
          simp only [hopen, withinLimit_eq_crosses hprice, hcross, if_true]

/-- The sweep stops where self-trade prevention stops the loop. -/
theorem SweepSim.sweep_blocked {o : Order} {t : MatchState} {T : Sweep} {fuel : ℕ} {price : Decimal}
    {level : PriceLevel} {resting : Order} {queue : List Order} (hsim : SweepSim o t T)
    (ht : LoopInv t) (hprice : o.kind ≠ .market → o.price.isSome) (hfuel : Enough fuel T)
    (hb : Blocked t price level resting queue) : sweep o fuel T = (true, T) := by
  obtain ⟨k, rfl⟩ := hfuel.pos
  obtain ⟨r, n, hin⟩ := hsim.incoming
  have hside : t.incoming.side = o.side := by rw [hin]
  have hown := (ht.book.level _ _ _ hb.atLevel).own resting (by
    rw [hb.front]
    exact List.mem_cons_self)
  have hopen : resting.toOpen.price = price := by
    show resting.price.getD 0 = price
    rw [hown.2.1]
    rfl
  have hcross : crosses o price = true := by
    have := hb.crosses
    rw [hin] at this
    exact this
  have huser : resting.toOpen.userId = o.userId := by
    have := hb.own
    rw [hin] at this
    exact this
  have hpos : ¬T.remaining ≤ 0 := by
    rw [hsim.remaining]
    exact not_le.mpr hb.positive
  have hpick := hsim.book.pick hb.best hb.atLevel hb.front
  rw [hside] at hpick
  rw [sweep, if_neg hpos, hpick]
  simp only [hopen, withinLimit_eq_crosses hprice, hcross, Bool.true_eq_false, if_false, huser,
    if_true]

/-! ### The calls -/

/-- Resting an order appends it to the open orders. -/
theorem Simulates.restAt {book : OrderBook} {opens : List OpenOrder} (h : Simulates book opens)
    {o : Order} {price : Decimal} (hprice : o.price = some price) :
    Simulates (book.restAt o price) (opens ++ [o.toOpen]) := by
  intro side p
  rw [OrderBook.queue, OrderBook.levelOrEmpty, OrderBook.level_restAt, List.filter_append, ← h]
  have hopen : o.toOpen.price = price := by
    show o.price.getD 0 = price
    rw [hprice]
    rfl
  by_cases hsp : side = o.side ∧ p = price
  · obtain ⟨rfl, rfl⟩ := hsp
    have hsits : o.toOpen.sits o.side p = true := OpenOrder.sits_iff.mpr ⟨rfl, hopen⟩
    rw [if_pos ⟨rfl, rfl⟩, List.filter_singleton, hsits]
    show ((book.levelOrEmpty o.side p).orders ++ [o]).map Order.toOpen = _
    rw [List.map_append]
    rfl
  · have hsits : ¬o.toOpen.sits side p = true := by
      intro hs
      obtain ⟨hside, hp⟩ := OpenOrder.sits_iff.mp hs
      exact hsp ⟨hside.symm, by rw [← hp, hopen]⟩
    rw [if_neg hsp, List.filter_cons_of_neg hsits, List.filter_nil, List.append_nil]
    rfl

/-- **Execution is a sweep.** -/
theorem Simulates.executed {uuid : UuidSource} {book book' : OrderBook} {opens : List OpenOrder}
    {o : Order} {report : ExecutionReport} (h : Simulates book opens) (hinv : Inv book)
    (ha : Admissible book o) (hkind : o.kind ≠ .fok) (hprice : o.kind ≠ .market → o.price.isSome)
    (hpost : o.kind = .postOnly → book.wouldCross o = false)
    (hx : Executed uuid book o report book') :
    ∃ opens', Naive.submit opens o
        = ((BookReply.submitted report).toNaive, opens') ∧ Simulates book' opens' := by
  have hvalid : ¬(o.remainingQuantity ≤ 0 ∨ o.kind ≠ .market ∧ o.price = none) := by
    rintro (hq | ⟨hk, hp⟩)
    · exact absurd ha.positive (not_lt.mpr hq)
    · have hsome := hprice hk
      rw [hp] at hsome
      cases hsome
  have hpassive : ¬(o.kind = .postOnly ∧ Naive.beyondLimit o opens = false) := by
    rintro ⟨hk, hb⟩
    rw [h.beyondLimit hinv hprice, hpost hk] at hb
    cases hb
  have hstart := LoopInv.start hinv ha
  have hsim : SweepSim o (book.startMatch o) ⟨opens, o.remainingQuantity, []⟩ :=
    ⟨h.of_levels (fun side => book.levels_nextSequenced side), rfl, rfl, _, _, rfl⟩
  have hfuel : Enough (opens.length + 1) ⟨opens, o.remainingQuantity, []⟩ :=
    Or.inr (Nat.lt_succ_self _)
  rw [Naive.submit, if_neg hvalid, if_neg hpassive]
  cases hx with
  | blocked t trades inv blocked =>
      obtain ⟨price, level, resting, queue, hb⟩ := blocked
      obtain ⟨fuel', T, hsweep, henough, hT⟩ := sweep_trades hprice hsim hstart hfuel trades
      have hempty : T.trades.isEmpty = t.fills.isEmpty := by rw [hT.trades, List.isEmpty_map]
      refine ⟨T.opens, ?_, hT.book.of_levels fun side => t.book.levels_setStatus _ _ _ side⟩
      rw [hsweep, hT.sweep_blocked inv hprice henough hb]
      simp only [if_true]
      rw [hempty, hT.trades]
      rfl
  | finished t trades inv exhausted st settled hsettled =>
      obtain ⟨fuel', T, hsweep, henough, hT⟩ := sweep_trades hprice hsim hstart hfuel trades
      obtain ⟨r, n, hin⟩ := hT.incoming
      have hk : t.incoming.kind = o.kind := by rw [hin]
      rw [hsweep, hT.sweep_exhausted inv hprice henough exhausted]
      simp only [Bool.false_eq_true, if_false, hT.remaining, hT.trades]
      cases hsettled with
      | filled hdone =>
          rw [if_pos (Or.inl hdone)]
          exact ⟨T.opens, rfl, hT.book.of_levels fun side => t.book.levels_close _ _ _ side⟩
      | dropped hleft himmediate =>
          rw [hk] at himmediate
          rw [if_pos (Or.inr himmediate)]
          exact ⟨T.opens, rfl, hT.book.of_levels fun side => t.book.levels_close _ _ _ side⟩
      | expired hleft hfok => exact absurd (hk.symm.trans hfok) hkind
      | rested hleft hrest price hp =>
          rw [hk] at hrest
          rw [if_neg (by
            rintro (hz | hm | hi)
            · exact hleft hz
            · exact hrest.1 hm
            · exact hrest.2.1 hi)]
          refine ⟨_, rfl, ?_⟩
          have hopen : OpenOrder.mk o.orderId o.userId o.side (o.price.getD 0)
              t.incoming.remainingQuantity = t.incoming.toOpen := by
            rw [hin]
            rfl
          rw [hopen]
          exact (hT.book.restAt hp).of_levels fun side => OrderBook.levels_close _ _ _ _ side

/-- **A submission is a submission to the naive matcher.** -/
theorem Simulates.submit {uuid : UuidSource} {book book' : OrderBook} {opens : List OpenOrder}
    {o : Order} {report : ExecutionReport} (h : Simulates book opens) (hinv : Inv book)
    (hplain : (BookOp.submit uuid o).plain = true) (hab : Absent book o.orderId)
    (hx : Submitted uuid book o report book') :
    ∃ opens', Naive.submit opens o = ((BookReply.submitted report).toNaive, opens') ∧
      Simulates book' opens' := by
  have hkind : o.kind = .limit ∨ o.kind = .postOnly ∨ o.kind = .ioc ∨ o.kind = .market :=
    of_decide_eq_true hplain
  have hstop : o.kind.isStop = false := by
    rcases hkind with hk | hk | hk | hk <;> rw [hk] <;> rfl
  have hfok : o.kind ≠ .fok := by
    rcases hkind with hk | hk | hk | hk <;> rw [hk] <;> simp
  have hreq : o.kind ≠ .market → requiresPrice o.kind = true := by
    intro hm
    rcases hkind with hk | hk | hk | hk
    · rw [hk]; rfl
    · rw [hk]; rfl
    · rw [hk]; rfl
    · exact absurd hk hm
  cases hx with
  | refused reason why =>
      refine ⟨opens, ?_, h⟩
      cases why with
      | duplicate hknown =>
          rcases hknown with hknown | hknown
          · obtain ⟨e, he⟩ := (SortedMap.contains_iff _ _).mp hknown
            rw [hab.status] at he
            cases he
          · obtain ⟨e, he⟩ := (SortedMap.contains_iff _ _).mp hknown
            rw [hab.index] at he
            cases he
      | quantity hquantity =>
          rw [Naive.submit, if_pos (Or.inl hquantity)]
          rfl
      | price hk hp =>
          have hm : o.kind ≠ .market := by
            intro e
            rw [e] at hk
            cases hk
          rw [Naive.submit, if_pos (Or.inr ⟨hm, hp⟩)]
          rfl
      | stopPrice hk _ =>
          rw [hstop] at hk
          cases hk
      | postOnly hk hcross =>
          by_cases hinvalid : o.remainingQuantity ≤ 0 ∨ o.kind ≠ .market ∧ o.price = none
          · rw [Naive.submit, if_pos hinvalid]
            rfl
          · have hprice : o.kind ≠ .market → o.price.isSome := by
              intro hm
              refine Option.isSome_iff_ne_none.mpr fun hp => hinvalid (Or.inr ⟨hm, hp⟩)
            have hbeyond : Naive.beyondLimit o opens = false := by
              rw [h.beyondLimit hinv hprice, hcross]
              rfl
            rw [Naive.submit, if_neg hinvalid, if_pos ⟨hk, hbeyond⟩]
            rfl
  | held _ hk _ =>
      rw [hstop] at hk
      cases hk
  | killed _ hk _ => exact absurd hk hfok
  | executed admissible _ hpost _ _ _ result =>
      exact h.executed hinv admissible hfok (fun hm => admissible.priced (hreq hm)) hpost result

/-- **A cancellation is a cancellation of the naive matcher**, if no stop orders are pending. -/
theorem Simulates.cancel {book book' : OrderBook} {opens : List OpenOrder} {orderId userId : String}
    {done : Bool} (h : Simulates book opens) (hinv : Inv book) (hstops : book.stopOrders = [])
    (hc : Cancelled book orderId userId done book') :
    ∃ opens', Naive.cancel opens orderId userId = ((BookReply.cancelled done).toNaive, opens') ∧
      Simulates book' opens' := by
  cases hc with
  | missing hqueued _ =>
      have hany : (opens.any fun o => decide (o.orderId = orderId ∧ o.userId = userId)) = false := by
        rw [List.any_eq_false]
        intro x hx hp
        obtain ⟨l, o, hl, ho, rfl⟩ := h.mem hx
        exact hqueued _ _ l hl o ho (of_decide_eq_true hp)
      exact ⟨opens, by rw [Naive.cancel, hany]; rfl, h⟩
  | queued side price level pre order post hl hsplit hid huser =>
      subst hid huser
      have hmem : order ∈ level.orders := by
        rw [hsplit]
        simp
      have hany : (opens.any fun o => decide (o.orderId = order.orderId ∧ o.userId = order.userId))
          = true := by
        rw [List.any_eq_true]
        exact ⟨order.toOpen, h.toOpen_mem hl hmem, decide_eq_true ⟨rfl, rfl⟩⟩
      refine ⟨opens.filter fun o => o.orderId ≠ order.orderId, by rw [Naive.cancel, hany]; rfl, ?_⟩
      intro s p
      have hqueue : (book.removeQueued side price level pre.length order order.orderId).queue s p
          = if s = side ∧ p = price then pre ++ post else book.queue s p := by
        have horders : (level.removeAt pre.length order).orders = pre ++ post := by
          show level.orders.eraseIdx pre.length = pre ++ post
          rw [hsplit, eraseIdx_split]
        rw [OrderBook.queue, OrderBook.levelOrEmpty, OrderBook.level_removeQueued hl, horders]
        split_ifs with hsp hempty
        · rw [hempty]
          rfl
        · exact horders
        · rfl
      rw [hqueue, List.filter_comm, ← h]
      by_cases hsp : s = side ∧ p = price
      · obtain ⟨rfl, rfl⟩ := hsp
        have hids := (hinv.level _ _ _ hl).ids
        rw [hsplit, orderIds_split] at hids
        have hnot : order.orderId ∉ orderIds pre ++ orderIds post :=
          (List.nodup_cons.mp (List.nodup_middle.mp hids)).1
        rw [List.mem_append, not_or] at hnot
        have hkeep : ∀ os : List Order, order.orderId ∉ orderIds os →
            (os.map Order.toOpen).filter (fun o => decide (o.orderId ≠ order.orderId))
              = os.map Order.toOpen := by
          intro os hos
          rw [List.filter_eq_self]
          intro x hx
          obtain ⟨o, ho, rfl⟩ := List.mem_map.mp hx
          exact decide_eq_true fun e => hos (e ▸ mem_orderIds ho)
        have hdrop : (order.toOpen :: post.map Order.toOpen).filter
            (fun o => decide (o.orderId ≠ order.orderId))
              = (post.map Order.toOpen).filter fun o => decide (o.orderId ≠ order.orderId) :=
          List.filter_cons_of_neg (by simp [Order.toOpen])
        rw [if_pos ⟨rfl, rfl⟩, queue_of_level hl, hsplit, List.map_append, List.map_append,
          List.map_cons, List.filter_append, hkeep pre hnot.1, hdrop, hkeep post hnot.2]
      · rw [if_neg hsp, eq_comm, List.filter_eq_self]
        intro x hx
        obtain ⟨o, ho, rfl⟩ := List.mem_map.mp hx
        obtain ⟨l, hl', ho⟩ := mem_queue ho
        refine decide_eq_true fun e => ?_
        have e' : o.orderId = order.orderId := e
        exact hsp (hinv.level_unique hl hl' (mem_orderIds hmem) (e' ▸ mem_orderIds ho))
  | pending pre order post hsplit _ _ =>
      rw [hstops] at hsplit
      simp at hsplit

/-! ### Depth -/

/-- The prices of the levels of a side are the prices of the open orders of the side. -/
theorem Simulates.keys {book : OrderBook} {opens : List OpenOrder} (h : Simulates book opens)
    (hinv : Inv book) (side : Side) : (book.levels side).entries.map Prod.fst = prices side opens := by
  have hsorted : ((book.levels side).entries.map Prod.fst).Pairwise (· < ·) :=
    List.pairwise_map.mpr (book.levels side).sorted
  refine hsorted.eq_of_mem_iff (List.sortedLT_iff_pairwise.mp (Finset.sortedLT_sort _)) fun p => ?_
  rw [prices, Finset.mem_sort, List.mem_toFinset, List.mem_map, List.mem_map]
  constructor
  · rintro ⟨⟨q, l⟩, he, rfl⟩
    have hl : book.level side q = some l := (SortedMap.mem_entries_iff _ _ _).mp he
    cases horders : l.orders with
    | nil => exact absurd horders (hinv.level _ _ _ hl).nonempty
    | cons o os =>
        have ho : o ∈ l.orders := by
          rw [horders]
          exact List.mem_cons_self
        obtain ⟨hside, hprice, _⟩ := (hinv.level _ _ _ hl).own o ho
        refine ⟨o.toOpen, List.mem_filter.mpr ⟨h.toOpen_mem hl ho, decide_eq_true hside⟩, ?_⟩
        show o.price.getD 0 = q
        rw [hprice]
        rfl
  · rintro ⟨x, hx, rfl⟩
    obtain ⟨hx, hside⟩ := List.mem_filter.mp hx
    obtain ⟨l, o, hl, _, _⟩ := h.mem hx
    rw [of_decide_eq_true hside] at hl
    exact ⟨(x.price, l), (SortedMap.mem_entries_iff _ _ _).mpr hl, rfl⟩

/-- The cached total of a level is the open quantity at its price. -/
theorem Simulates.total {book : OrderBook} {opens : List OpenOrder} (h : Simulates book opens)
    (hinv : Inv book) {side : Side} {price : Decimal} {l : PriceLevel}
    (hl : book.level side price = some l) : l.totalQuantity = quantityAt side opens price := by
  rw [(hinv.level _ _ _ hl).total, quantityAt, ← h, queue_of_level hl, List.map_map]
  rfl

/-- The depth of a side, level by level. -/
theorem Simulates.entries {book : OrderBook} {opens : List OpenOrder} (h : Simulates book opens)
    (hinv : Inv book) (side : Side) :
    (book.levels side).entries.map (fun e => (e.1, e.2.totalQuantity))
      = (prices side opens).map fun p => (p, quantityAt side opens p) := by
  rw [← h.keys hinv side, List.map_map]
  refine List.map_congr_left fun e he => ?_
  have hl : book.level side e.1 = some e.2 := (SortedMap.mem_entries_iff _ _ _).mp he
  show (e.1, e.2.totalQuantity) = (e.1, quantityAt side opens e.1)
  rw [h.total hinv hl]

/-- **The depth of the book is the depth of the naive matcher.** -/
theorem Simulates.depth {book : OrderBook} {opens : List OpenOrder} (h : Simulates book opens)
    (hinv : Inv book) (levels : ℕ) : book.depth levels = Naive.depth opens levels := by
  have hbids := h.entries hinv .buy
  have hasks := h.entries hinv .sell
  simp only [OrderBook.levels] at hbids hasks
  rw [OrderBook.depth, Naive.depth]
  simp only [List.map_take, List.map_reverse, hbids, hasks]

/-! ### Runs -/

/-- What a run of distinct plain orders keeps: the simulation, no pending stop orders, and that
identifiers not yet submitted are unknown. -/
structure RunSim (ops : List BookOp) (replies : List BookReply) (book : OrderBook) : Prop where
  simulates : Simulates book (Naive.run ops).2
  replies : replies.map BookReply.toNaive = (Naive.run ops).1
  stops : book.stopOrders = []
  unknown : ∀ id, id ∉ orderIds (submittedOrders ops) → Absent book id

/-- **A plain call keeps the simulation.** -/
theorem RunSim.step {ops : List BookOp} {replies : List BookReply} {book book' : OrderBook}
    {op : BookOp} {reply : BookReply} (h : RunSim ops replies book) (hinv : Inv book)
    (hplain : op.plain = true)
    (hnew : ∀ uuid o, op = .submit uuid o → o.orderId ∉ orderIds (submittedOrders ops))
    (hc : Called book op reply book') : RunSim (ops ++ [op]) (replies ++ [reply]) book' := by
  have hunknown : ∀ id, id ∉ orderIds (submittedOrders (ops ++ [op])) → Absent book' id := by
    intro id hid
    rw [submittedOrders_append, orderIds_append, List.mem_append, not_or] at hid
    refine hc.absent hinv (h.unknown id hid.1) ?_
    rintro uuid o rfl e
    exact hid.2 (e ▸ List.mem_singleton_self _)
  cases hc with
  | @submitted uuid o report book' result =>
      obtain ⟨opens', hsubmit, hsim⟩ := h.simulates.submit hinv hplain
        (h.unknown _ (hnew uuid o rfl)) result
      refine ⟨?_, ?_, ?_, hunknown⟩
      · rw [run_snoc]
        show Simulates book' (Naive.submit (Naive.run ops).2 o).2
        rw [hsubmit]
        exact hsim
      · rw [run_snoc, List.map_append, h.replies]
        show _ ++ [_] = _ ++ [(Naive.submit (Naive.run ops).2 o).1]
        rw [hsubmit]
      · have hkind : o.kind = .limit ∨ o.kind = .postOnly ∨ o.kind = .ioc ∨ o.kind = .market :=
          of_decide_eq_true hplain
        cases result with
        | refused _ _ => exact h.stops
        | held _ hk _ => rcases hkind with e | e | e | e <;> rw [e] at hk <;> cases hk
        | killed _ _ _ => exact h.stops
        | executed admissible _ _ _ _ _ hx => exact (hx.frame hinv admissible).1.trans h.stops
  | @cancelled orderId userId done book' result =>
      obtain ⟨opens', hcancel, hsim⟩ := h.simulates.cancel hinv h.stops result
      refine ⟨?_, ?_, ?_, hunknown⟩
      · rw [run_snoc]
        show Simulates book' (Naive.cancel (Naive.run ops).2 orderId userId).2
        rw [hcancel]
        exact hsim
      · rw [run_snoc, List.map_append, h.replies]
        show _ ++ [_] = _ ++ [(Naive.cancel (Naive.run ops).2 orderId userId).1]
        rw [hcancel]
      · cases result with
        | missing _ _ => exact h.stops
        | queued side price level pre order post hl _ _ _ =>
            rw [OrderBook.removeQueued_stopOrders hl]
            exact h.stops
        | pending pre order post hsplit _ _ =>
            rw [h.stops] at hsplit
            simp at hsplit
  | triggered _ => cases hplain

/-- **The order book refines the naive matcher.**  In every run of plain calls with distinct orders the
book answers each call as the naive matcher does, its queues are the open orders of their side and price
in order of arrival, and its depth is that of the naive matcher. -/
theorem run_refines_naive (ops : List BookOp) (hplain : ∀ op ∈ ops, op.plain = true)
    (hids : ((submittedOrders ops).map Order.orderId).Nodup) :
    ∃ replies book, bookRun ops = .ok (replies, book) ∧
      replies.map BookReply.toNaive = (Naive.run ops).1 ∧
      Simulates book (Naive.run ops).2 ∧
      ∀ levels, book.depth levels = Naive.depth (Naive.run ops).2 levels := by
  obtain ⟨replies, book, hrun, hinv⟩ := bookRun_spec ops
  have hsim := (bookRun_history (P := fun ops replies book =>
    (∀ op ∈ ops, op.plain = true) → (orderIds (submittedOrders ops)).Nodup →
      RunSim ops replies book) ?_ ?_ hrun).2 hplain hids
  · exact ⟨replies, book, hrun, hsim.replies, hsim.simulates, hsim.simulates.depth hinv⟩
  · intro _ _
    exact ⟨simulates_default, rfl, rfl, fun id _ => ⟨rfl, rfl, by simp [orderIds, OrderBook.default]⟩⟩
  · intro ops replies book op reply book' hinv hP hc hplain hids
    rw [submittedOrders_append, orderIds_append, List.nodup_append] at hids
    obtain ⟨hpre, _, hdisjoint⟩ := hids
    refine (hP (fun op ho => hplain op (List.mem_append_left _ ho)) hpre).step hinv
      (hplain op (List.mem_append_right _ (List.mem_singleton_self op))) ?_ hc
    rintro uuid o rfl hin
    exact hdisjoint _ hin _ (List.mem_singleton_self _) rfl

/-- The half taken sell order, as the naive matcher tells it. -/
theorem run_refines_naive_halfTaken :
    ∃ replies book, bookRun halfTaken = .ok (replies, book) ∧
      replies.map BookReply.toNaive
        = [.submitted true [], .submitted true [⟨"maker", "taker", "alice", "bob", 1, 1⟩]] ∧
      book.depth 1 = ([], [(1, 1)]) := by
  obtain ⟨replies, book, hrun, hreplies, _, hdepth⟩ :=
    run_refines_naive halfTaken (by decide +kernel) (by decide +kernel)
  exact ⟨replies, book, hrun, hreplies.trans (by decide +kernel), (hdepth 1).trans (by decide +kernel)⟩

end NexusTrade.MatchingEngine
