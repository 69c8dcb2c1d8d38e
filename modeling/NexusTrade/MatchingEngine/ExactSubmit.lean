import NexusTrade.MatchingEngine.ExactLoop
import NexusTrade.MatchingEngine.Splitting

/-!
# Exact arithmetic in a submission

What `submit` asserts, by the book before it: the sums of the check of a fill-or-kill order, what the loop asserts,
what the order has filled in all, and where its remainder rests the sum at its price.

* **`availableInLevels_asserts`** is the rule of `available_crossing_quantity`, by the orders that it counts;
* **`trades_left`** is what the loop leaves of an order, by the book before it;
* **`ExecutionExact`** and **`SubmitExact`** are the conditions, **`execute_asserts`** and **`submit_asserts`** the
  rules.
-/

namespace NexusTrade.MatchingEngine

/-! ### The count -/

/-- The orders of other users in a level. -/
def othersIn (o : Order) (orders : List Order) : List Order := orders.filter fun r => r.userId ≠ o.userId

/-- The orders that `available_crossing_quantity` counts. -/
def countedIn (o : Order) (levels : List PriceLevel) : List Order :=
  (levels.takeWhile fun level => crosses o level.price).flatMap fun level => othersIn o level.orders

/-- The sum that an order is counted into. -/
def CountExact (available : Decimal) (before : List Order) (r : Order) : Prop :=
  Representable (available + Allot.total Order.remainingQuantity before + r.remainingQuantity)

theorem countExact_nil (available : Decimal) (r : Order) :
    CountExact available [] r ↔ Representable (available + r.remainingQuantity) := by
  rw [CountExact, Allot.total_nil, add_zero]

theorem countExact_cons (available : Decimal) (first : Order) (before : List Order) (r : Order) :
    CountExact available (first :: before) r ↔ CountExact (available + first.remainingQuantity) before r := by
  rw [CountExact, CountExact, Allot.total_cons, ← add_assoc]

theorem countExact_append (available : Decimal) (first before : List Order) (r : Order) :
    CountExact available (first ++ before) r
      ↔ CountExact (available + Allot.total Order.remainingQuantity first) before r := by
  rw [CountExact, CountExact, Allot.total_append, ← add_assoc]

/-- **What the count of a level comes to**, by the orders of other users in it. -/
theorem availableInLevel_counts {o : Order} (orders : List Order) (hpos : ∀ r ∈ orders, 0 < r.remainingQuantity) :
    ∀ available counted returned, available < o.remainingQuantity →
      OrderBook.availableInLevel o available orders = (counted, returned) →
      if returned = true then
        o.remainingQuantity ≤ available + Allot.total Order.remainingQuantity (othersIn o orders)
      else counted < o.remainingQuantity ∧
        counted = available + Allot.total Order.remainingQuantity (othersIn o orders) := by
  induction orders with
  | nil =>
      intro available counted returned hlt h
      cases h
      exact ⟨hlt, (add_zero available).symm⟩
  | cons r orders ih =>
      intro available counted returned hlt h
      have htail := fun r hr => hpos r (List.mem_cons_of_mem _ hr)
      rw [OrderBook.availableInLevel] at h
      by_cases huser : r.userId ≠ o.userId
      · rw [if_pos huser] at h
        rw [othersIn, List.filter_cons_of_pos (by simpa using huser), Allot.total_cons, ← add_assoc]
        by_cases hmet : o.remainingQuantity ≤ available + r.remainingQuantity
        · rw [if_pos hmet] at h
          cases h
          refine hmet.trans (le_add_of_nonneg_right (Allot.total_nonneg fun r hr => ?_))
          exact (htail r (List.mem_of_mem_filter hr)).le
        · rw [if_neg hmet] at h
          exact ih htail _ _ _ (not_le.mp hmet) h
      · rw [if_neg huser] at h
        rw [othersIn, List.filter_cons_of_neg (by simpa using huser)]
        exact ih htail _ _ _ hlt h

section Scan

variable {arith : Arithmetic} (harith : arith.Lawful)

include harith

theorem availableInLevel_asserts (o : Order) (orders : List Order) (hpos : ∀ r ∈ orders, 0 < r.remainingQuantity) :
    ∀ available, available < o.remainingQuantity →
      Asserts (Allot.Reached Order.remainingQuantity (CountExact available) (o.remainingQuantity - available)
          (othersIn o orders))
        (RustDecimal.availableInLevel arith.asserting o available orders)
        (RustDecimal.availableInLevel arith o available orders)
        (.ok (OrderBook.availableInLevel o available orders)) := by
  induction orders with
  | nil => exact fun available _ => .of_holds Allot.reached_nil _
  | cons r orders ih =>
      intro available hlt
      have htail := fun r hr => hpos r (List.mem_cons_of_mem _ hr)
      rw [RustDecimal.availableInLevel, RustDecimal.availableInLevel, OrderBook.availableInLevel]
      by_cases huser : r.userId ≠ o.userId
      · have hnext : Allot.Reached Order.remainingQuantity (fun before => CountExact available (r :: before))
            (o.remainingQuantity - available - r.remainingQuantity) (othersIn o orders)
              ↔ Allot.Reached Order.remainingQuantity (CountExact (available + r.remainingQuantity))
                (o.remainingQuantity - (available + r.remainingQuantity)) (othersIn o orders) := by
          rw [sub_sub]
          exact Allot.reached_congr fun before a _ => countExact_cons _ _ _ _
        have hfirst : (0 < o.remainingQuantity - available → CountExact available [] r)
            ↔ Representable (available + r.remainingQuantity) := by
          rw [countExact_nil]
          exact ⟨fun h => h (sub_pos.mpr hlt), fun h _ => h⟩
        rw [if_pos huser, if_pos huser, if_pos huser, othersIn, List.filter_cons_of_pos (by simpa using huser)]
        by_cases hmet : o.remainingQuantity ≤ available + r.remainingQuantity
        · -- the count returns
          refine ((add_asserts harith _ _).bind_ok (R := True) ?_).congr ?_
          · rw [if_pos hmet, if_pos hmet, if_pos hmet]
            exact .refl _
          · rw [and_true, Allot.reached_cons, hfirst]
            refine (and_iff_left (Allot.reached_of_nonpos (fun r hr => ?_) ?_)).symm
            · exact (htail r (List.mem_of_mem_filter hr)).le
            · rw [sub_sub]
              exact sub_nonpos.mpr hmet
        · refine ((add_asserts harith _ _).bind_ok (R := Allot.Reached Order.remainingQuantity
            (CountExact (available + r.remainingQuantity)) (o.remainingQuantity - (available + r.remainingQuantity))
            (othersIn o orders)) ?_).congr ?_
          · rw [if_neg hmet, if_neg hmet, if_neg hmet]
            exact ih htail _ (not_le.mp hmet)
          · rw [Allot.reached_cons, hfirst]
            exact and_congr_right fun _ => hnext.symm
      · rw [if_neg huser, if_neg huser, if_neg huser, othersIn, List.filter_cons_of_neg (by simpa using huser)]
        exact ih htail available hlt

theorem availableInLevels_asserts (o : Order) (levels : List PriceLevel)
    (hpos : ∀ l ∈ levels, ∀ r ∈ l.orders, 0 < r.remainingQuantity) :
    ∀ available, available < o.remainingQuantity →
      Asserts (Allot.Reached Order.remainingQuantity (CountExact available) (o.remainingQuantity - available)
          (countedIn o levels))
        (RustDecimal.availableInLevels arith.asserting o available levels)
        (RustDecimal.availableInLevels arith o available levels)
        (.ok (OrderBook.availableInLevels o available levels)) := by
  induction levels with
  | nil => exact fun available _ => .of_holds Allot.reached_nil _
  | cons l levels ih =>
      intro available hlt
      have htail := fun l hl => hpos l (List.mem_cons_of_mem _ hl)
      rw [RustDecimal.availableInLevels, RustDecimal.availableInLevels, OrderBook.availableInLevels]
      by_cases hcross : crosses o l.price = true
      · have hhead := availableInLevel_asserts harith o l.orders (hpos l List.mem_cons_self) available hlt
        have hcounts := availableInLevel_counts (o := o) l.orders (hpos l List.mem_cons_self) available
        have hcounted : countedIn o (l :: levels) = othersIn o l.orders ++ countedIn o levels := by
          rw [countedIn, List.takeWhile_cons_of_pos (by exact hcross), List.flatMap_cons]
          rfl
        rw [if_pos hcross, if_pos hcross, if_pos hcross, hcounted]
        rcases hlevel : OrderBook.availableInLevel o available l.orders with ⟨counted, returned⟩
        rw [hlevel] at hhead
        have hcounts := hcounts counted returned hlt hlevel
        have hrest : Allot.Reached Order.remainingQuantity
            (fun before => CountExact available (othersIn o l.orders ++ before))
            (o.remainingQuantity - available - Allot.total Order.remainingQuantity (othersIn o l.orders))
            (countedIn o levels)
              ↔ Allot.Reached Order.remainingQuantity
                (CountExact (available + Allot.total Order.remainingQuantity (othersIn o l.orders)))
                (o.remainingQuantity - (available + Allot.total Order.remainingQuantity (othersIn o l.orders)))
                (countedIn o levels) := by
          rw [sub_sub]
          exact Allot.reached_congr fun before a _ => countExact_append _ _ _ _
        cases returned with
        | true =>
            rw [if_pos rfl] at hcounts
            refine (hhead.bind_ok (R := True) (Asserts.refl (.ok counted))).congr ?_
            rw [and_true, Allot.reached_append, hrest]
            refine (and_iff_left (Allot.reached_of_nonpos (fun r hr => ?_) (sub_nonpos.mpr hcounts))).symm
            obtain ⟨l', hl', hr⟩ := List.mem_flatMap.mp hr
            exact (htail l' ((List.takeWhile_prefix _).subset hl') r (List.mem_of_mem_filter hr)).le
        | false =>
            obtain ⟨hless, rfl⟩ := hcounts
            refine (hhead.bind_ok (ih htail _ hless)).congr ?_
            rw [Allot.reached_append, hrest]
      · rw [if_neg hcross, if_neg hcross, if_neg hcross, countedIn, List.takeWhile_cons_of_neg (by exact hcross)]
        exact .of_holds Allot.reached_nil _

end Scan

/-! ### After the loop -/

section Ends

variable {uuid : UuidSource} {book : OrderBook} {o : Order} {t : MatchState}

/-- **What the loop leaves of an order**, by the book before it. -/
theorem trades_left (hinv : Inv book) (ha : Admissible book o) (h : Trades uuid (book.startMatch o) t)
    (hend : t.book.sweepTrades t.incoming = []) :
    t.incoming.remainingQuantity = o.remainingQuantity - min o.remainingQuantity (book.reach o) := by
  have hsweep := trades_sweep (LoopInv.start hinv ha) h
  rw [hend, List.append_nil] at hsweep
  rw [← swept_quantity hinv ha hsweep.symm]
  exact eq_sub_of_add_eq' (fills_add_left h)

/-- The loop leaves the side of the order as it is. -/
theorem trades_ownSide (hinv : Inv book) (ha : Admissible book o) (h : Trades uuid (book.startMatch o) t)
    (price : Decimal) : t.book.levelOrEmpty o.side price = book.levelOrEmpty o.side price := by
  have hlevels : t.book.levels o.side = (book.startMatch o).book.levels o.side :=
    (trades_leave (LoopInv.start hinv ha) h).2
  rw [OrderBook.levelOrEmpty, OrderBook.levelOrEmpty, OrderBook.level, OrderBook.level, hlevels]
  exact congrArg (fun levels => (SortedMap.find levels price).getD _) (book.levels_nextSequenced o.side)

end Ends

/-- A kind of order whose remainder rests. -/
def OrderKind.Rests (kind : OrderKind) : Prop := kind ≠ .market ∧ kind ≠ .ioc ∧ kind ≠ .fok

/-- The difference and the sum that `rest` forms. -/
def RestExact (book : OrderBook) (order : Order) : Prop :=
  ∀ price, order.price = some price → Representable (order.originalQuantity - order.remainingQuantity) ∧
    Representable ((book.levelOrEmpty order.side price).totalQuantity + order.remainingQuantity)

/-- What the end of `submit` forms, where no order of the same user stopped the loop. -/
def SettleExact (s : MatchState) : Prop :=
  s.incoming.remainingQuantity ≠ 0 → s.incoming.kind.Rests → RestExact s.book s.incoming

section Submission

variable {arith : Arithmetic} (harith : arith.Lawful)

include harith

theorem rest_asserts (book : OrderBook) (order : Order) :
    Asserts (RestExact book order) (RustDecimal.rest arith.asserting book order) (RustDecimal.rest arith book order)
      (book.rest order) := by
  unfold RustDecimal.rest OrderBook.rest
  cases hprice : order.price with
  | none =>
      refine .of_holds (fun price hp => ?_) _
      rw [hprice] at hp
      cases hp
  | some price =>
      refine ((sub_asserts harith _ _).bind_ok ((add_asserts harith _ _).bind_same _)).congr ?_
      constructor
      · intro h p hp
        rw [hprice] at hp
        cases hp
        exact h
      · exact fun h => h price hprice

theorem settleRemainder_asserts (s : MatchState) :
    Asserts (SettleExact s) (RustDecimal.settleRemainder arith.asserting s) (RustDecimal.settleRemainder arith s)
      (OrderBook.settleRemainder s) := by
  unfold RustDecimal.settleRemainder OrderBook.settleRemainder
  by_cases hdone : s.incoming.remainingQuantity = 0
  · rw [if_pos hdone, if_pos hdone, if_pos hdone]
    exact .of_holds (fun hleft => absurd hdone hleft) _
  rw [if_neg hdone, if_neg hdone, if_neg hdone]
  by_cases himmediate : s.incoming.kind = .market ∨ s.incoming.kind = .ioc
  · rw [if_pos himmediate, if_pos himmediate, if_pos himmediate]
    refine .of_holds (fun _ hrests => ?_) _
    rcases himmediate with hkind | hkind
    · exact absurd hkind hrests.1
    · exact absurd hkind hrests.2.1
  rw [if_neg himmediate, if_neg himmediate, if_neg himmediate]
  by_cases hfok : s.incoming.kind = .fok
  · rw [if_pos hfok, if_pos hfok, if_pos hfok]
    exact .of_holds (fun _ hrests => absurd hfok hrests.2.2) _
  rw [if_neg hfok, if_neg hfok, if_neg hfok]
  obtain ⟨hmarket, hioc⟩ := not_or.mp himmediate
  exact ((rest_asserts harith s.book s.incoming).bind_same _).congr
    ⟨fun h _ _ => h, fun h => h hdone ⟨hmarket, hioc, hfok⟩⟩

theorem finish_asserts (s : MatchState) :
    Asserts (Representable (s.incoming.originalQuantity - s.incoming.remainingQuantity) ∧ SettleExact s)
      (RustDecimal.finish arith.asserting s) (RustDecimal.finish arith s) (OrderBook.finish s) :=
  (sub_asserts harith _ _).bind_ok ((settleRemainder_asserts harith s).bind_same _)

theorem selfTradeExit_asserts (s : MatchState) :
    Asserts (Representable (s.incoming.originalQuantity - s.incoming.remainingQuantity))
      (RustDecimal.selfTradeExit arith.asserting s) (RustDecimal.selfTradeExit arith s)
      (.ok (OrderBook.selfTradeExit s)) :=
  (sub_asserts harith _ _).bind_same _

end Submission

/-! ### The conditions -/

/-- **The condition** for an order that gets to the loop: the differences of its trades, what it has filled in all,
and where its remainder rests the sum at its price. -/
structure ExecutionExact (book : OrderBook) (o : Order) : Prop where
  trades : Allot.Reached Order.remainingQuantity (book.TradeExact o) o.remainingQuantity (book.reachable o)
  filled : Representable (o.originalQuantity - (o.remainingQuantity - min o.remainingQuantity (book.reach o)))
  rested : book.reach o < o.remainingQuantity → book.stopsAtOwn o = false → o.kind.Rests →
    ∀ price, o.price = some price →
      Representable ((book.levelOrEmpty o.side price).totalQuantity + (o.remainingQuantity - book.reach o))

/-- **The condition** for a submission: the sums that a fill-or-kill order is checked by, and what execution
asserts. -/
structure SubmitExact (book : OrderBook) (o : Order) : Prop where
  counted : Admissible book o → o.kind = .fok → Allot.Reached Order.remainingQuantity (CountExact 0)
    o.remainingQuantity (countedIn o (book.opposingLevels o.side))
  execution : book.enters o = true → ExecutionExact book o

section Submission

variable {arith : Arithmetic} (harith : arith.Lawful)

include harith

/-- **Execution** asserts its condition. -/
theorem execute_asserts (uuid : UuidSource) {book : OrderBook} {o : Order} (hinv : Inv book)
    (ha : Admissible book o) :
    Asserts (ExecutionExact book o) (RustDecimal.execute arith.asserting uuid book o)
      (RustDecimal.execute arith uuid book o) (book.execute uuid o) := by
  have hstart := LoopInv.start hinv ha
  have hlength : ((book.startMatch o).book.opposingOrders (book.startMatch o).incoming.side).length
      < (book.opposingOrders o.side).length + 1 := Nat.lt_succ_self _
  obtain ⟨t, trades, _, hres⟩ := matchLoop_returns uuid _ _ hstart.book (Or.inr hlength)
  have hloop := matchLoop_asserts harith uuid ((book.opposingOrders o.side).length + 1) (book.startMatch o)
    hstart.book
  have hside := trades_side trades
  have hkind := trades_kind trades
  have horiginal := trades_originalQuantity trades
  have hprice : t.incoming.price = o.price := by
    rw [trades_incoming trades]
    rfl
  rw [RustDecimal.execute, RustDecimal.execute, OrderBook.execute]
  rcases hres with ⟨hreturns, hexhausted⟩ | ⟨hreturns, price, level, resting, queue, hb⟩
  · have hleft := trades_left hinv ha trades (sweepTrades_exhausted (hstart.trades trades).book hexhausted)
    rw [hreturns] at hloop ⊢
    refine (hloop.bind_ok (finish_asserts harith t)).congr ?_
    rw [SettleExact, RestExact, hkind, hprice, horiginal, hside, hleft]
    constructor
    · rintro ⟨htrades, hfilled, hsettle⟩
      refine ⟨htrades, hfilled, fun hreach _ hrests p hp => ?_⟩
      rw [min_eq_right hreach.le] at hsettle
      obtain ⟨_, hfits⟩ := hsettle (sub_pos.mpr hreach).ne' hrests p hp
      rw [trades_ownSide hinv ha trades] at hfits
      exact hfits
    · rintro ⟨htrades, hfilled, hrested⟩
      refine ⟨htrades, hfilled, fun hne hrests p hp => ⟨hfilled, ?_⟩⟩
      have hreach : book.reach o < o.remainingQuantity := by
        by_contra hle
        rw [min_eq_left (not_lt.mp hle), sub_self] at hne
        exact hne rfl
      have hown := not_stopsAtOwn_of_exhausted hinv ha trades hexhausted (by rw [hleft]; exact hne)
      rw [trades_ownSide hinv ha trades, min_eq_right hreach.le]
      exact hrested hreach hown hrests p hp
  · have hleft := trades_left hinv ha trades (sweepTrades_blocked hb)
    have hown := stopsAtOwn_of_blocked hinv ha trades hb
    rw [hreturns] at hloop ⊢
    refine (hloop.bind_ok (selfTradeExit_asserts harith t)).congr ?_
    rw [horiginal, hleft]
    constructor
    · rintro ⟨htrades, hfilled⟩
      refine ⟨htrades, hfilled, fun _ hnot => ?_⟩
      rw [hown] at hnot
      cases hnot
    · exact fun h => ⟨h.trades, h.filled⟩

/-- The check of a fill-or-kill order. -/
theorem fallsShort_asserts {book : OrderBook} (hinv : Inv book) {o : Order} (hpos : 0 < o.remainingQuantity) :
    Asserts (o.kind = .fok → Allot.Reached Order.remainingQuantity (CountExact 0) o.remainingQuantity
        (countedIn o (book.opposingLevels o.side)))
      (RustDecimal.fallsShort arith.asserting book o) (RustDecimal.fallsShort arith book o)
      (.ok (decide (o.kind = .fok ∧ book.availableCrossingQuantity o < o.remainingQuantity))) := by
  unfold RustDecimal.fallsShort
  by_cases hkind : o.kind = .fok
  · have hlevels : ∀ l ∈ book.opposingLevels o.side, ∀ r ∈ l.orders, 0 < r.remainingQuantity :=
      fun l hl r hr => (hinv.opposing (List.mem_flatMap.mpr ⟨l, hl, hr⟩)).2.1
    have hcounts := availableInLevels_asserts harith o (book.opposingLevels o.side) hlevels 0 hpos
    rw [sub_zero] at hcounts
    rw [if_pos hkind, if_pos hkind]
    refine (hcounts.bind_ok (R := True) ?_).congr ?_
    · simp only [hkind, true_and]
      exact .refl _
    · rw [and_true]
      exact ⟨fun h _ => h, fun h => h hkind⟩
  · rw [if_neg hkind, if_neg hkind, decide_eq_false fun h => hkind h.1]
    exact .of_holds (fun h => absurd h hkind) _

/-- **A submission** asserts its condition. -/
theorem submit_asserts (uuid : UuidSource) {book : OrderBook} (hinv : Inv book) (o : Order) :
    Asserts (SubmitExact book o) (RustDecimal.submit arith.asserting uuid book o)
      (RustDecimal.submit arith uuid book o) (book.submit uuid o) := by
  have hskip : ∀ x : Except Panic (ExecutionReport × OrderBook), (Admissible book o → o.kind ≠ .fok) →
      book.enters o = false → Asserts (SubmitExact book o) x x x := by
    intro x hfok henters
    refine .of_holds ⟨fun ha hkind => absurd hkind (hfok ha), fun h => ?_⟩ x
    rw [henters] at h
    cases h
  have hrefused : ∀ x : Except Panic (ExecutionReport × OrderBook), ¬Admissible book o →
      Asserts (SubmitExact book o) x x x := fun x hnot =>
    hskip x (fun ha => absurd ha hnot)
      (Bool.eq_false_iff.mpr fun h => hnot (OrderBook.enters_iff.mp h).1)
  unfold RustDecimal.submit OrderBook.submit
  by_cases hdup : (book.status.contains o.orderId || book.orderIndex.contains o.orderId) = true
  · simp only [if_pos hdup]
    refine hrefused _ fun ha => ?_
    rw [(SortedMap.contains_eq_false_iff _ _).mpr ha.fresh, (SortedMap.contains_eq_false_iff _ _).mpr ha.unqueued]
      at hdup
    cases hdup
  simp only [if_neg hdup]
  by_cases hpos : o.remainingQuantity ≤ 0
  · simp only [if_pos hpos]
    exact hrefused _ fun ha => not_lt.mpr hpos ha.positive
  simp only [if_neg hpos]
  by_cases hprice : (requiresPrice o.kind && o.price.isNone) = true
  · simp only [if_pos hprice]
    refine hrefused _ fun ha => ?_
    obtain ⟨hreq, hnone⟩ := (Bool.and_eq_true _ _).mp hprice
    obtain ⟨p, hp⟩ := Option.isSome_iff_exists.mp (ha.priced hreq)
    rw [hp] at hnone
    cases hnone
  simp only [if_neg hprice]
  by_cases hstop : o.kind.isStop = true
  · simp only [if_pos hstop]
    refine hskip _ (fun _ hkind => ?_) (Bool.eq_false_iff.mpr fun h => ?_)
    · rw [hkind] at hstop
      cases hstop
    · rw [(OrderBook.enters_iff.mp h).2.1] at hstop
      cases hstop
  simp only [if_neg hstop]
  by_cases hpost : o.kind = .postOnly ∧ book.wouldCross o = true
  · simp only [if_pos hpost]
    refine hskip _ (fun _ hkind => ?_) (Bool.eq_false_iff.mpr fun h => ?_)
    · rw [hpost.1] at hkind
      cases hkind
    · have hcross := (OrderBook.enters_iff.mp h).2.2.1 hpost.1
      rw [hpost.2] at hcross
      cases hcross
  simp only [if_neg hpost]
  obtain ⟨hstatus, hindex⟩ := not_or.mp fun hor => hdup ((Bool.or_eq_true _ _).mpr hor)
  have ha : Admissible book o := by
    refine ⟨?_, ?_, not_le.mp hpos, fun hreq => ?_⟩
    · exact (SortedMap.contains_eq_false_iff _ _).mp (Bool.eq_false_iff.mpr hstatus)
    · exact (SortedMap.contains_eq_false_iff _ _).mp (Bool.eq_false_iff.mpr hindex)
    · cases hp : o.price with
      | none => exact absurd (by rw [hreq, hp]; rfl) hprice
      | some p => rfl
  have hcheck := fallsShort_asserts harith hinv ha.positive
  by_cases hshort : o.kind = .fok ∧ book.availableCrossingQuantity o < o.remainingQuantity
  · rw [decide_eq_true hshort] at hcheck
    rw [if_pos hshort]
    refine (hcheck.bind_ok (R := True) ?_).congr ?_
    · simp only [if_true]
      exact .refl _
    · rw [and_true]
      refine ⟨fun h => ⟨fun _ => h, fun henters => ?_⟩, fun h => h.counted ha⟩
      exact absurd ((OrderBook.enters_iff.mp henters).2.2.2 hshort.1) (not_le.mpr hshort.2)
  · have henters : book.enters o = true := by
      refine OrderBook.enters_iff.mpr ⟨ha, Bool.eq_false_iff.mpr hstop, fun hk => ?_, fun hk => ?_⟩
      · exact Bool.eq_false_iff.mpr fun hc => hpost ⟨hk, hc⟩
      · exact not_lt.mp fun hlt => hshort ⟨hk, hlt⟩
    rw [decide_eq_false hshort] at hcheck
    rw [if_neg hshort]
    refine (hcheck.bind_ok (R := ExecutionExact book o) ?_).congr ?_
    · simp only [Bool.false_eq_true, if_false]
      exact execute_asserts harith uuid hinv ha
    · exact ⟨fun h => ⟨fun _ => h.1, fun _ => h.2⟩, fun h => ⟨h.counted ha, h.execution henters⟩⟩

end Submission

end NexusTrade.MatchingEngine
