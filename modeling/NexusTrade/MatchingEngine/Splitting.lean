import NexusTrade.MatchingEngine.FillOrKill

/-!
# Splitting an immediate order

The loop of `submit` takes what it can from the opposing orders and leaves the rest of them, so it does not
matter whether a quantity is taken by one immediate order or by two.

* **`OrderBook.sweepLeft`** is what an order leaves of the opposing orders, and **`executed_leaves`** says that
  `submit` leaves exactly this;
* **`levels_of_opposing`**: the levels of a side are determined by its orders in priority;
* **`immediate_order_splits`**: one order of `a + b`, and one of `a` followed by one of `b`, leave the same orders
  and fill every maker by the same quantity at the same price.
-/

namespace NexusTrade.MatchingEngine

theorem order_reduces : Allot.Reduces Order.remainingQuantity Order.reduce where
  cap_reduce := fun _ _ => rfl
  reduce_reduce := fun o p q => by simp [Order.reduce, sub_sub]

/-- What an order leaves of the opposing orders. -/
def OrderBook.sweepLeft (book : OrderBook) (o : Order) : List Order :=
  Allot.left Order.remainingQuantity Order.reduce o.remainingQuantity (book.reachable o)
    ++ (book.opposingOrders o.side).dropWhile (tradesWith o)

/-- What the orders of a side would be left with by an order that reaches none of them, or is used up. -/
theorem sweepLeft_eq {book : OrderBook} {o : Order} (h : o.remainingQuantity ≤ 0 ∨ book.reachable o = []) :
    book.sweepLeft o = book.opposingOrders o.side := by
  have hleft : Allot.left Order.remainingQuantity Order.reduce o.remainingQuantity (book.reachable o)
      = book.reachable o := by
    rcases h with hdone | hnone
    · exact Allot.left_of_nonpos hdone _
    · rw [hnone]
      rfl
  rw [OrderBook.sweepLeft, hleft]
  exact List.takeWhile_append_dropWhile

/-! ### The loop -/

/-- **A trade leaves what the order leaves.** -/
theorem CanTrade.sweepLeft {s : MatchState} {price : Decimal} {level : PriceLevel} {resting : Order}
    {queue : List Order} (h : CanTrade s price level resting queue) (hs : Inv s.book) (uuid : UuidSource) :
    (s.trade uuid price level resting queue).book.sweepLeft (s.trade uuid price level resting queue).incoming
      = s.book.sweepLeft s.incoming := by
  obtain ⟨behind, hbefore, hafter⟩ := h.opposingOrders uuid
  obtain ⟨_, hprice, _⟩ := h.restingInv hs
  have htrades : tradesWith s.incoming resting = true := by
    rw [tradesWith, hprice, Option.getD_some, h.crosses, decide_eq_true h.other]
    rfl
  have hleft : (s.trade uuid price level resting queue).book.sweepLeft
      (s.trade uuid price level resting queue).incoming
        = Allot.left Order.remainingQuantity Order.reduce
            (s.incoming.remainingQuantity - tradeQuantity s.incoming resting)
            (((s.tradedLevel level resting queue).orders ++ behind).takeWhile (tradesWith s.incoming))
          ++ ((s.tradedLevel level resting queue).orders ++ behind).dropWhile (tradesWith s.incoming) := by
    rw [← hafter]
    rfl
  rw [hleft, OrderBook.sweepLeft, OrderBook.reachable, hbefore, List.takeWhile_cons_of_pos htrades,
    List.dropWhile_cons_of_pos htrades]
  rcases le_or_gt resting.remainingQuantity s.incoming.remainingQuantity with hle | hlt
  · -- the resting order is filled and leaves the queue
    have hq : tradeQuantity s.incoming resting = resting.remainingQuantity := min_eq_right hle
    have horders : (s.tradedLevel level resting queue).orders = queue := by
      simp [MatchState.tradedLevel, PriceLevel.tradeFront, hq, Order.reduce]
    rw [horders, hq, Allot.left_cons_gone h.positive hle]
  · -- the incoming order is used up
    have hq : tradeQuantity s.incoming resting = s.incoming.remainingQuantity := min_eq_left hlt.le
    have horders : (s.tradedLevel level resting queue).orders
        = resting.reduce s.incoming.remainingQuantity :: queue := by
      simp [MatchState.tradedLevel, PriceLevel.tradeFront, hq, Order.reduce, sub_eq_zero, hlt.ne']
    have hstill : tradesWith s.incoming (resting.reduce s.incoming.remainingQuantity) = true := htrades
    rw [horders, hq, sub_self, Allot.left_cons_kept h.positive hlt, Allot.left_of_nonpos le_rfl,
      List.cons_append, List.takeWhile_cons_of_pos hstill, List.dropWhile_cons_of_pos hstill]

/-- **The loop leaves what the order leaves**, and it does not touch the side of the order. -/
theorem trades_leave {uuid : UuidSource} {s t : MatchState} (hs : LoopInv s) (h : Trades uuid s t) :
    t.book.sweepLeft t.incoming = s.book.sweepLeft s.incoming ∧
      t.book.levels s.incoming.side = s.book.levels s.incoming.side := by
  refine (trades_preserve (P := fun t => LoopInv t ∧ t.incoming.side = s.incoming.side ∧
    t.book.sweepLeft t.incoming = s.book.sweepLeft s.incoming ∧
    t.book.levels s.incoming.side = s.book.levels s.incoming.side) ?_ h ⟨hs, rfl, rfl, rfl⟩).2.2
  rintro t u ⟨ht, hside, hleft, hlevels⟩ htu
  refine ⟨ht.step htu, ?_⟩
  obtain ⟨price, level, resting, queue, hc, rfl⟩ := htu
  refine ⟨hside, (hc.sweepLeft ht.book uuid).trans hleft, ?_⟩
  have hother : s.incoming.side ≠ opposite t.incoming.side := by
    rw [hside]
    cases s.incoming.side <;> simp [opposite]
  rw [t.levels_trade uuid price level resting queue, if_neg hother]
  exact hlevels

/-- The opposing orders of a side are those of the levels of the other side. -/
theorem opposingOrders_congr {book book' : OrderBook} {side : Side}
    (h : book'.levels (opposite side) = book.levels (opposite side)) :
    book'.opposingOrders side = book.opposingOrders side := by
  cases side with
  | buy =>
      have hasks : book'.asks = book.asks := h
      rw [OrderBook.opposingOrders, OrderBook.opposingOrders, OrderBook.opposingLevels, hasks]
      rfl
  | sell =>
      have hbids : book'.bids = book.bids := h
      rw [OrderBook.opposingOrders, OrderBook.opposingOrders, OrderBook.opposingLevels, hbids]
      rfl

/-- No side is opposite to itself. -/
theorem opposite_ne (side : Side) : opposite side ≠ side := by
  cases side <;> simp [opposite]

section Immediate

variable {uuid : UuidSource} {book book' : OrderBook} {o : Order} {report : ExecutionReport}

/-- The end of the loop leaves what the order leaves. -/
theorem trades_leave_all {t : MatchState} (hinv : Inv book) (ha : Admissible book o)
    (trades : Trades uuid (book.startMatch o) t)
    (hend : t.incoming.remainingQuantity ≤ 0 ∨ t.book.reachable t.incoming = []) :
    t.book.opposingOrders o.side = book.sweepLeft o ∧ t.book.levels o.side = book.levels o.side := by
  obtain ⟨hleft, hlevels⟩ := trades_leave (LoopInv.start hinv ha) trades
  rw [sweepLeft_eq hend, trades_side trades] at hleft
  exact ⟨hleft, hlevels.trans (book.levels_nextSequenced o.side)⟩

/-- What is settled after the loop does not touch the opposing orders. -/
theorem Settled.opposing {s : MatchState} {st : OrderStatus} {b : OrderBook} (h : Settled s st b) :
    b.levels (opposite s.incoming.side) = s.book.levels (opposite s.incoming.side) := by
  cases h with
  | filled _ => rfl
  | dropped _ _ => rfl
  | expired _ _ => rfl
  | rested _ _ price _ => rw [OrderBook.levels_restAt, if_neg (opposite_ne _)]

/-- **What an order leaves** of the opposing orders. -/
theorem executed_leaves (hx : Executed uuid book o report book') (hinv : Inv book) (ha : Admissible book o) :
    book'.opposingOrders o.side = book.sweepLeft o := by
  cases hx with
  | blocked t trades inv blocked =>
      obtain ⟨price, level, resting, queue, hb⟩ := blocked
      rw [← (trades_leave_all hinv ha trades (Or.inr (reachable_blocked hb))).1]
      exact opposingOrders_congr (t.book.levels_setStatus _ _ _ _)
  | finished t trades inv exhausted st settled hsettled =>
      rw [← (trades_leave_all hinv ha trades
        (exhausted.imp_right fun hbeyond => reachable_beyond inv.book hbeyond)).1]
      refine opposingOrders_congr ((settled.levels_close _ _ _ _).trans ?_)
      rw [← trades_side trades]
      exact hsettled.opposing

/-- An immediate order does not touch its own side. -/
theorem executed_own_levels (hx : Executed uuid book o report book') (hinv : Inv book) (ha : Admissible book o)
    (hkind : o.kind = .ioc) : book'.levels o.side = book.levels o.side := by
  cases hx with
  | blocked t trades inv blocked =>
      obtain ⟨price, level, resting, queue, hb⟩ := blocked
      rw [← (trades_leave_all hinv ha trades (Or.inr (reachable_blocked hb))).2]
      exact t.book.levels_setStatus _ _ _ _
  | finished t trades inv exhausted st settled hsettled =>
      have hsettled : settled = t.book := by
        cases hsettled with
        | filled _ => rfl
        | dropped _ _ => rfl
        | expired _ _ => rfl
        | rested _ hrests _ _ =>
            rw [trades_kind trades] at hrests
            exact absurd hkind hrests.2.1
      subst hsettled
      rw [← (trades_leave_all hinv ha trades
        (exhausted.imp_right fun hbeyond => reachable_beyond inv.book hbeyond)).2]
      exact t.book.levels_close _ _ _ _

/-- An immediate order that passes the checks gets to the loop. -/
theorem Submitted.immediate (hx : Submitted uuid book o report book') (ha : Admissible book o)
    (hkind : o.kind = .ioc) : Executed uuid book o report book' := by
  refine hx.entered (OrderBook.enters_iff.mpr ⟨ha, ?_, ?_, ?_⟩)
  · rw [hkind]
    rfl
  · intro hpost
    rw [hkind] at hpost
    cases hpost
  · intro hfok
    rw [hkind] at hfok
    cases hfok

end Immediate

/-! ### The orders of a side determine its levels -/

/-- The queue at a price, among the orders of levels that hold orders of their own prices. -/
theorem filter_orders {es : List (Decimal × PriceLevel)} (p : Decimal)
    (hprice : ∀ e ∈ es, ∀ o ∈ e.2.orders, o.price = some e.1) :
    (es.flatMap fun e => e.2.orders).filter (fun o => o.price = some p)
      = (es.filter fun e => e.1 = p).flatMap fun e => e.2.orders := by
  induction es with
  | nil => rfl
  | cons e es ih =>
      rw [List.flatMap_cons, List.filter_append, ih fun e he => hprice e (List.mem_cons_of_mem _ he)]
      have hown := hprice e List.mem_cons_self
      by_cases he : e.1 = p
      · have hall : e.2.orders.filter (fun o => o.price = some p) = e.2.orders :=
          List.filter_eq_self.mpr fun o ho => by simp [hown o ho, he]
        rw [hall, List.filter_cons_of_pos (by simpa using he), List.flatMap_cons]
      · have hnone : e.2.orders.filter (fun o => o.price = some p) = [] :=
          List.filter_eq_nil_iff.mpr fun o ho => by simp [hown o ho, he]
        rw [hnone, List.filter_cons_of_neg (by simpa using he), List.nil_append]

/-- **The queue at a price** is what the opposing orders have of it. -/
theorem queue_eq_filter {book : OrderBook} (hinv : Inv book) (side : Side) (p : Decimal) :
    book.queue (opposite side) p = (book.opposingOrders side).filter fun o => o.price = some p := by
  have hprice : ∀ s, ∀ e ∈ (book.levels s).entries, ∀ o ∈ e.2.orders, o.price = some e.1 := by
    intro s e he o ho
    exact ((hinv.level s e.1 e.2 ((SortedMap.mem_entries_iff _ _ _).mp he)).own o ho).2.1
  have hqueue : ∀ s, book.queue s p
      = ((book.levels s).entries.filter fun e => e.1 = p).flatMap fun e => e.2.orders := by
    intro s
    rw [SortedMap.filter_entries, OrderBook.queue, OrderBook.levelOrEmpty, OrderBook.level]
    cases (book.levels s).find p <;> simp [PriceLevel.empty]
  cases side with
  | buy =>
      rw [show opposite .buy = Side.sell from rfl, hqueue, ← filter_orders p (hprice .sell),
        OrderBook.opposingOrders, OrderBook.opposingLevels, SortedMap.values, List.flatMap_map]
      rfl
  | sell =>
      have hreverse : ((book.levels .buy).entries.filter fun e => e.1 = p).reverse
          = (book.levels .buy).entries.filter fun e => e.1 = p := by
        rw [SortedMap.filter_entries]
        cases (book.levels .buy).find p <;> rfl
      rw [show opposite .sell = Side.buy from rfl, hqueue, ← hreverse, ← List.filter_reverse, ← filter_orders p
        fun e he => hprice .buy e (List.mem_reverse.mp he), OrderBook.opposingOrders, OrderBook.opposingLevels,
        SortedMap.values, ← List.map_reverse, List.flatMap_map]
      rfl

/-- **The orders of a side determine its levels.** -/
theorem levels_of_opposing {book book' : OrderBook} (hinv : Inv book) (hinv' : Inv book') {side : Side}
    (h : book.opposingOrders side = book'.opposingOrders side) :
    book.levels (opposite side) = book'.levels (opposite side) := by
  have hqueue : ∀ p, book.queue (opposite side) p = book'.queue (opposite side) p := fun p => by
    rw [queue_eq_filter hinv, queue_eq_filter hinv', h]
  refine SortedMap.ext_find fun p => ?_
  show book.level (opposite side) p = book'.level (opposite side) p
  have hp := hqueue p
  cases hl : book.level (opposite side) p with
  | none =>
      cases hl' : book'.level (opposite side) p with
      | none => rfl
      | some l' =>
          rw [queue_of_level hl', OrderBook.queue, OrderBook.levelOrEmpty, hl] at hp
          exact absurd hp.symm (hinv'.level _ _ _ hl').nonempty
  | some l =>
      cases hl' : book'.level (opposite side) p with
      | none =>
          rw [queue_of_level hl, OrderBook.queue, OrderBook.levelOrEmpty, hl'] at hp
          exact absurd hp (hinv.level _ _ _ hl).nonempty
      | some l' =>
          have hlevel := hinv.level _ _ _ hl
          have hlevel' := hinv'.level _ _ _ hl'
          rw [queue_of_level hl, queue_of_level hl'] at hp
          have htotal : l.totalQuantity = l'.totalQuantity := by rw [hlevel.total, hlevel'.total, hp]
          have hprice : l.price = l'.price := hlevel.price_eq.trans hlevel'.price_eq.symm
          cases l
          cases l'
          simp only at hp htotal hprice
          rw [hp, htotal, hprice]

/-- The levels determine the index. -/
theorem orderIndex_of_levels {book book' : OrderBook} (hinv : Inv book) (hinv' : Inv book')
    (h : ∀ side, book.levels side = book'.levels side) : book.orderIndex = book'.orderIndex := by
  refine SortedMap.ext_find fun id => Option.ext fun e => ?_
  obtain ⟨side, price⟩ := e
  rw [hinv.index, hinv'.index, OrderBook.level_congr (h side)]

/-! ### Two orders and one -/

/-- How much of a maker order some fills take at a price. -/
def filledAt (fills : List Fill) (makerOrderId : String) (price : Decimal) : Decimal :=
  (fills.map fun f => if f.makerOrderId = makerOrderId ∧ f.price = price then f.quantity else 0).sum

/-- The identifier and the price under which an order is filled. -/
def makerKey (o : Order) : String × Decimal := (o.orderId, o.price.getD 0)

/-- **What an order takes of a maker**, by the book before it. -/
theorem executed_filledAt {uuid : UuidSource} {book book' : OrderBook} {o : Order} {report : ExecutionReport}
    (hx : Executed uuid book o report book') (hinv : Inv book) (ha : Admissible book o) (maker : String)
    (price : Decimal) :
    filledAt report.fills maker price = Allot.amount makerKey (maker, price)
      (Allot.allot Order.remainingQuantity o.remainingQuantity (book.reachable o)) := by
  have htrades := congrArg (List.map fun t : Trade =>
    if t.makerOrderId = maker ∧ t.price = price then t.quantity else 0) (executed_trades hx hinv ha)
  rw [OrderBook.sweepTrades, List.map_map, List.map_map] at htrades
  have hsum := congrArg List.sum htrades
  simp only [Allot.amount, makerKey, Prod.mk.injEq]
  exact hsum

section Split

variable {book : OrderBook} {o first second : Order}

/-- What is left of the orders that are reached is reached again, and nothing more. -/
theorem reachable_sweepLeft (huser : second.userId = o.userId) (hcrosses : crosses second = crosses o)
    {book' : OrderBook} (hleft : book'.opposingOrders o.side = book.sweepLeft o) (hside : second.side = o.side) :
    book'.reachable second
        = Allot.left Order.remainingQuantity Order.reduce o.remainingQuantity (book.reachable o) ∧
      (book'.opposingOrders second.side).dropWhile (tradesWith second)
        = (book.opposingOrders o.side).dropWhile (tradesWith o) := by
  have htrades : tradesWith second = tradesWith o := by
    funext r
    rw [tradesWith, tradesWith, huser, hcrosses]
  have hall : ∀ r ∈ Allot.left Order.remainingQuantity Order.reduce o.remainingQuantity (book.reachable o),
      tradesWith o r = true := by
    intro r hr
    rcases Allot.mem_left hr with hr | ⟨r', hr', p, rfl⟩
    · exact List.mem_takeWhile_imp hr
    · have htrades' : tradesWith o r' = true := List.mem_takeWhile_imp hr'
      exact htrades'
  have hrest := List.dropWhile_idempotent (tradesWith o) (book.opposingOrders o.side)
  have hnone : ((book.opposingOrders o.side).dropWhile (tradesWith o)).takeWhile (tradesWith o) = [] := by
    have hwhole := List.takeWhile_append_dropWhile (p := tradesWith o)
      (l := (book.opposingOrders o.side).dropWhile (tradesWith o))
    rw [hrest] at hwhole
    exact List.append_left_eq_self.mp hwhole
  rw [OrderBook.reachable, hside, hleft, htrades, OrderBook.sweepLeft]
  refine ⟨?_, ?_⟩
  · rw [List.takeWhile_append_of_pos hall, hnone, List.append_nil]
  · rw [List.dropWhile_append_of_pos hall, hrest]

/-- **Two immediate orders and one** of both quantities. -/
theorem executed_splits {uuid uuid₁ uuid₂ : UuidSource} {whole book₁ book₂ : OrderBook}
    {report report₁ report₂ : ExecutionReport}
    (hx : Executed uuid book o report whole) (hx₁ : Executed uuid₁ book first report₁ book₁)
    (hx₂ : Executed uuid₂ book₁ second report₂ book₂) (hinv : Inv book) (hwhole : Inv whole) (hinv₁ : Inv book₁)
    (hinv₂ : Inv book₂) (ha : Admissible book o) (ha₁ : Admissible book first) (ha₂ : Admissible book₁ second)
    (hkind : o.kind = .ioc ∧ first.kind = .ioc ∧ second.kind = .ioc)
    (hsame : ∀ p ∈ [first, second], p.side = o.side ∧ p.userId = o.userId ∧ crosses p = crosses o)
    (hquantity : o.remainingQuantity = first.remainingQuantity + second.remainingQuantity) :
    (∀ side, book₂.levels side = whole.levels side) ∧ book₂.orderIndex = whole.orderIndex ∧
      ∀ maker price, filledAt report.fills maker price
        = filledAt report₁.fills maker price + filledAt report₂.fills maker price := by
  obtain ⟨hside₁, huser₁, hcrosses₁⟩ := hsame first List.mem_cons_self
  obtain ⟨hside₂, huser₂, hcrosses₂⟩ := hsame second (by simp)
  have hleft := executed_leaves hx hinv ha
  have hleft₁ := executed_leaves hx₁ hinv ha₁
  have hleft₂ := executed_leaves hx₂ hinv₁ ha₂
  have hown := executed_own_levels hx hinv ha hkind.1
  have hown₁ := executed_own_levels hx₁ hinv ha₁ hkind.2.1
  have hown₂ := executed_own_levels hx₂ hinv₁ ha₂ hkind.2.2
  obtain ⟨hreach, hbeyond⟩ := reachable_sweepLeft (huser₂.trans huser₁.symm) (hcrosses₂.trans hcrosses₁.symm)
    hleft₁ (hside₂.trans hside₁.symm)
  have htrades₁ : tradesWith first = tradesWith o := by
    funext r
    rw [tradesWith, tradesWith, huser₁, hcrosses₁]
  have hreach₁ : book.reachable first = book.reachable o := by
    rw [OrderBook.reachable, OrderBook.reachable, hside₁, htrades₁]
  rw [hreach₁] at hreach
  rw [hside₁, htrades₁] at hbeyond
  have hp := ha₁.positive.le
  have hq := ha₂.positive.le
  have hopposing : book₂.opposingOrders o.side = whole.opposingOrders o.side := by
    rw [hleft, ← hside₂, hleft₂, OrderBook.sweepLeft, hreach, hbeyond, OrderBook.sweepLeft, hquantity,
      Allot.left_add order_reduces hp hq]
  have hlevels : ∀ side, book₂.levels side = whole.levels side := by
    have hother := levels_of_opposing hinv₂ hwhole hopposing
    rw [hside₂] at hown₂
    rw [hside₁] at hown₁
    have hsame : book₂.levels o.side = whole.levels o.side := hown₂.trans (hown₁.trans hown.symm)
    intro side
    cases hs : o.side <;> cases side <;> rw [hs] at hother hsame <;> assumption
  refine ⟨hlevels, orderIndex_of_levels hinv₂ hwhole hlevels, fun maker price => ?_⟩
  rw [executed_filledAt hx hinv ha, executed_filledAt hx₁ hinv ha₁, executed_filledAt hx₂ hinv₁ ha₂, hreach, hreach₁,
    hquantity]
  exact Allot.amount_add makerKey (maker, price) order_reduces (fun _ _ => rfl) hp hq _

end Split

/-- An immediate order. -/
def immediate (orderId userId : String) (side : Side) (price quantity : Decimal) : Order :=
  Order.new orderId userId side .ioc (some price) none quantity

theorem immediate_admissible {book : OrderBook} {orderId : String} (hstatus : book.status.find orderId = none)
    (hindex : book.orderIndex.find orderId = none) (userId : String) (side : Side) (price : Decimal)
    {quantity : Decimal} (hquantity : 0 < quantity) :
    Admissible book (immediate orderId userId side price quantity) :=
  ⟨hstatus, hindex, hquantity, fun _ => rfl⟩

/-- **Splitting an immediate order changes nothing**, in every book that a run reaches. -/
theorem immediate_order_splits {ops : List BookOp} {replies : List BookReply} {book : OrderBook}
    (hrun : bookRun ops = .ok (replies, book)) (uuid uuid₁ uuid₂ : UuidSource) {id id₁ id₂ : String}
    (hfresh : ∀ i ∈ [id, id₁, id₂], book.status.find i = none ∧ book.orderIndex.find i = none) (hne : id₁ ≠ id₂)
    (userId : String) (side : Side) (price : Decimal) {a b : Decimal} (ha : 0 < a) (hb : 0 < b) :
    ∃ report whole report₁ book₁ report₂ book₂,
      book.submit uuid (immediate id userId side price (a + b)) = .ok (report, whole) ∧
      book.submit uuid₁ (immediate id₁ userId side price a) = .ok (report₁, book₁) ∧
      book₁.submit uuid₂ (immediate id₂ userId side price b) = .ok (report₂, book₂) ∧
      book₂.bids = whole.bids ∧ book₂.asks = whole.asks ∧ book₂.orderIndex = whole.orderIndex ∧
      ∀ maker p, filledAt report.fills maker p
        = filledAt report₁.fills maker p + filledAt report₂.fills maker p := by
  have hinv : Inv book := (bookRun_origins hrun).1
  obtain ⟨hstatus, hindex⟩ := hfresh id (by simp)
  obtain ⟨hstatus₁, hindex₁⟩ := hfresh id₁ (by simp)
  obtain ⟨hstatus₂, hindex₂⟩ := hfresh id₂ (by simp)
  have hadm := immediate_admissible hstatus hindex userId side price (add_pos ha hb)
  have hadm₁ := immediate_admissible hstatus₁ hindex₁ userId side price ha
  obtain ⟨report, whole, hsubmit, hwhole, hx⟩ := submit_spec uuid hinv (immediate id userId side price (a + b))
  obtain ⟨report₁, book₁, hsubmit₁, hinv₁, hx₁⟩ := submit_spec uuid₁ hinv (immediate id₁ userId side price a)
  obtain ⟨report₂, book₂, hsubmit₂, hinv₂, hx₂⟩ := submit_spec uuid₂ hinv₁ (immediate id₂ userId side price b)
  have habsent : Absent book₁ id₂ := hx₁.absent hinv hne.symm ⟨hstatus₂, hindex₂, hinv.unpending hstatus₂⟩
  have hadm₂ := immediate_admissible habsent.status habsent.index userId side price hb
  obtain ⟨hlevels, horderIndex, hfilled⟩ := executed_splits (hx.immediate hadm rfl) (hx₁.immediate hadm₁ rfl)
    (hx₂.immediate hadm₂ rfl) hinv hwhole hinv₁ hinv₂ hadm hadm₁ hadm₂ ⟨rfl, rfl, rfl⟩
    (fun p hp => by
      simp only [List.mem_cons, List.not_mem_nil, or_false] at hp
      rcases hp with rfl | rfl <;> exact ⟨rfl, rfl, rfl⟩) rfl
  exact ⟨report, whole, report₁, book₁, report₂, book₂, hsubmit, hsubmit₁, hsubmit₂, hlevels .buy, hlevels .sell,
    horderIndex, hfilled⟩

theorem immediate_order_splits_at_own :
    ∃ replies book, bookRun ownOfferBetween = .ok (replies, book) ∧
      ∃ report whole report₁ book₁ report₂ book₂,
        book.submit (fun _ => "t") (immediate "whole" "u1" .buy 100 (1 + 1)) = .ok (report, whole) ∧
        book.submit (fun _ => "t") (immediate "first" "u1" .buy 100 1) = .ok (report₁, book₁) ∧
        book₁.submit (fun _ => "t") (immediate "second" "u1" .buy 100 1) = .ok (report₂, book₂) ∧
        book₂.bids = whole.bids ∧ book₂.asks = whole.asks ∧ book₂.orderIndex = whole.orderIndex ∧
        ∀ maker p, filledAt report.fills maker p
          = filledAt report₁.fills maker p + filledAt report₂.fills maker p := by
  obtain ⟨replies, book, hrun, _⟩ := bookRun_spec ownOfferBetween
  have hfresh : (bookRun ownOfferBetween).map (fun r => decide (∀ i ∈ ["whole", "first", "second"],
      r.2.status.find i = none ∧ r.2.orderIndex.find i = none)) = .ok true := by decide +kernel
  rw [hrun] at hfresh
  exact ⟨replies, book, hrun, immediate_order_splits hrun _ _ _ (of_decide_eq_true (Except.ok.inj hfresh))
    (by decide) "u1" .buy 100 (by decide +kernel) (by decide +kernel)⟩

end NexusTrade.MatchingEngine
