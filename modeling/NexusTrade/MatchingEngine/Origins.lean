import NexusTrade.MatchingEngine.Conservation
import NexusTrade.MatchingEngine.Sweep

/-!
# Where fills come from

Every fill of a run is between two submitted orders, within the limits of both.

* **`StemsFrom`**: an order in the book goes back to a submitted one, with its identifier, user, side and
  price; a triggered stop order goes back to the stop order;
* **`Matched`** says what holds of a fill between two orders, **`Executed.matched`** that the matching loop
  makes no other fills;
* **`bookRun_origins`** follows the orders and the fills through a run, **`market_fills`** a market order.
-/

namespace NexusTrade.MatchingEngine

/-! ### Properties of all queued orders -/

/-- A property of the queued orders of a book. -/
def AllQueued (K : Order → Prop) (book : OrderBook) : Prop :=
  ∀ side price l, book.level side price = some l → ∀ o ∈ l.orders, K o

section Queued

variable {K : Order → Prop} {book book' : OrderBook}

theorem AllQueued.congr (h : AllQueued K book)
    (hlevels : ∀ side, book'.levels side = book.levels side) : AllQueued K book' := by
  intro side price l hl
  rw [OrderBook.level_congr (hlevels side)] at hl
  exact h side price l hl

theorem AllQueued.mono {K' : Order → Prop} (h : AllQueued K book) (himp : ∀ o, K o → K' o) :
    AllQueued K' book :=
  fun side price l hl o ho => himp o (h side price l hl o ho)

/-- Trades keep what does not depend on the remaining quantity. -/
theorem AllQueued.trades {uuid : UuidSource} {s t : MatchState} (hK : ∀ o q, K o → K (o.reduce q))
    (h : AllQueued K s.book) (hs : LoopInv s) (htrades : Trades uuid s t) : AllQueued K t.book := by
  refine (trades_preserve (P := fun t => LoopInv t ∧ AllQueued K t.book) ?_ htrades ⟨hs, h⟩).2
  intro t u ht htu
  refine ⟨ht.1.step htu, ?_⟩
  obtain ⟨price, level, resting, queue, hc, rfl⟩ := htu
  intro side p l hl o ho
  rcases hc.queued_after ht.1 uuid hl ho with ⟨rfl, _⟩ | ⟨_, l', hl', ho'⟩
  · exact hK _ _ (ht.2 _ _ level hc.atLevel resting hc.front_mem)
  · exact ht.2 side p l' hl' o ho'

theorem AllQueued.restAt {o : Order} (h : AllQueued K book) (ho : K o) (price : Decimal) :
    AllQueued K (book.restAt o price) := by
  intro side p l hl o' ho'
  rw [OrderBook.level_restAt] at hl
  by_cases hsp : side = o.side ∧ p = price
  · rw [if_pos hsp] at hl
    cases hl
    rcases List.mem_append.mp ho' with ho' | ho'
    · rw [OrderBook.levelOrEmpty] at ho'
      cases hfind : book.level o.side price with
      | none => rw [hfind] at ho'; cases ho'
      | some l => rw [hfind] at ho'; exact h _ _ l hfind o' ho'
    · rw [List.mem_singleton.mp ho']
      exact ho
  · rw [if_neg hsp] at hl
    exact h side p l hl o' ho'

/-- The kinds of order that rest have a price. -/
theorem requiresPrice_of_rests {kind : OrderKind} (hstop : kind.isStop = false)
    (hkind : kind ≠ .market ∧ kind ≠ .ioc ∧ kind ≠ .fok) : requiresPrice kind = true := by
  cases kind <;> simp_all [requiresPrice, OrderKind.isStop]

/-- **Execution** adds at most the incoming order to the queues. -/
theorem AllQueued.executed {uuid : UuidSource} {o : Order} {report : ExecutionReport}
    (hK : ∀ o q, K o → K (o.reduce q)) (h : AllQueued K book) (hinv : Inv book)
    (ha : Admissible book o) (hstop : o.kind.isStop = false)
    (ho : requiresPrice o.kind = true →
      ∀ q n, K { o with remainingQuantity := q, sequence := n })
    (hx : Executed uuid book o report book') : AllQueued K book' := by
  have hstart := LoopInv.start hinv ha
  have hbook : AllQueued K (book.startMatch o).book := h.congr book.levels_nextSequenced
  cases hx with
  | blocked t trades _ _ =>
      exact (hbook.trades hK hstart trades).congr fun side => t.book.levels_setStatus _ _ _ side
  | finished t trades _ _ st settled hsettled =>
      have ht := hbook.trades hK hstart trades
      suffices hall : AllQueued K settled from hall.congr fun side => settled.levels_close _ _ _ side
      cases hsettled with
      | filled _ => exact ht
      | dropped _ _ => exact ht
      | expired _ _ => exact ht
      | rested _ hkind price _ =>
          refine ht.restAt ?_ price
          have hin := trades_incoming trades
          rw [hin] at hkind ⊢
          exact ho (requiresPrice_of_rests hstop hkind) _ _

/-- Cancelling adds nothing to the queues. -/
theorem AllQueued.cancelled {orderId userId : String} {done : Bool} (h : AllQueued K book)
    (hc : Cancelled book orderId userId done book') : AllQueued K book' := by
  cases hc with
  | missing _ _ => exact h
  | queued side price level pre order post hl hsplit hid huser =>
      intro s p l hl' o ho
      rw [OrderBook.level_removeQueued hl] at hl'
      by_cases hsp : s = side ∧ p = price
      · rw [if_pos hsp] at hl'
        split at hl'
        · cases hl'
        · cases hl'
          exact h _ _ _ hl o (List.mem_of_mem_eraseIdx ho)
      · rw [if_neg hsp] at hl'
        exact h s p l hl' o ho
  | pending pre order post hsplit hid huser =>
      exact h.congr fun side => by simp [OrderBook.removePending]

/-- What cancelling leaves of the pending stop orders. -/
theorem Cancelled.stopOrders_subset {orderId userId : String} {done : Bool}
    (hc : Cancelled book orderId userId done book') : book'.stopOrders ⊆ book.stopOrders := by
  cases hc with
  | missing _ _ => exact List.Subset.refl _
  | queued side price level pre order post hl hsplit hid huser =>
      rw [OrderBook.removeQueued_stopOrders hl]
      exact List.Subset.refl _
  | pending pre order post hsplit hid huser =>
      intro o ho
      refine List.mem_of_mem_eraseIdx (i := pre.length) ?_
      simpa [OrderBook.removePending] using ho

end Queued

/-! ### Orders and the orders they stem from -/

/-- **An order goes back to a submitted one.** -/
structure StemsFrom (submitted o : Order) : Prop where
  orderId : o.orderId = submitted.orderId
  userId : o.userId = submitted.userId
  side : o.side = submitted.side
  price : o.price = submitted.price
  priced : requiresPrice o.kind = requiresPrice submitted.kind

theorem StemsFrom.refl (o : Order) : StemsFrom o o := ⟨rfl, rfl, rfl, rfl, rfl⟩

theorem StemsFrom.reduce {s o : Order} (h : StemsFrom s o) (q : Decimal) : StemsFrom s (o.reduce q) :=
  ⟨h.orderId, h.userId, h.side, h.price, h.priced⟩

/-- A triggered stop order goes back to the stop order. -/
theorem StemsFrom.activate {s o : Order} (h : StemsFrom s o) (hkind : o.kind.isStop = true) :
    StemsFrom s (OrderBook.activate o) := by
  refine ⟨h.orderId, h.userId, h.side, h.price, ?_⟩
  rw [← h.priced]
  show requiresPrice (if o.kind = .stopMarket then .market else .limit) = requiresPrice o.kind
  cases hk : o.kind with
  | stopMarket => rfl
  | stopLimit => rfl
  | market | limit | ioc | fok | postOnly =>
      rw [hk] at hkind
      cases hkind

/-- The limit of an order is that of the order it stems from. -/
theorem StemsFrom.crosses {s o : Order} (h : StemsFrom s o) {price : Decimal}
    (hkind : requiresPrice s.kind = true) (hc : crosses o price = true) : crosses s price = true := by
  have ho : o.kind ≠ .market := by
    intro hk
    rw [← h.priced, hk] at hkind
    cases hkind
  have hs : s.kind ≠ .market := by
    intro hk
    rw [hk] at hkind
    cases hkind
  unfold MatchingEngine.crosses at hc ⊢
  rw [h.side, h.price] at hc
  cases hks : s.kind <;> cases hko : o.kind <;> simp_all

/-- **What holds of a fill** between a maker and a taker. -/
structure Matched (maker taker : Order) (f : Fill) : Prop where
  makerOrderId : f.makerOrderId = maker.orderId
  makerUserId : f.makerUserId = maker.userId
  takerOrderId : f.takerOrderId = taker.orderId
  takerUserId : f.takerUserId = taker.userId
  users : maker.userId ≠ taker.userId
  sides : maker.side = opposite taker.side
  makerPriced : requiresPrice maker.kind = true
  makerPrice : maker.price = some f.price
  takerPrice : requiresPrice taker.kind = true → crosses taker f.price = true
  quantity : 0 < f.quantity

/-- A fill between two of some orders; the taker is a stop order or is not. -/
def Originates (orders : List Order) (stop : Bool) (f : Fill) : Prop :=
  ∃ maker ∈ orders, ∃ taker ∈ orders, Matched maker taker f ∧ taker.kind.isStop = stop

theorem Originates.mono {orders orders' : List Order} (hsub : orders ⊆ orders') {stop : Bool} {f : Fill}
    (h : Originates orders stop f) : Originates orders' stop f := by
  obtain ⟨maker, hmaker, taker, htaker, hm⟩ := h
  exact ⟨maker, hsub hmaker, taker, hsub htaker, hm⟩

/-- An order with a limit that stems from one of some orders: what may be queued. -/
def Resting (orders : List Order) (o : Order) : Prop :=
  ∃ s ∈ orders, StemsFrom s o ∧ requiresPrice s.kind = true

theorem Resting.reduce {orders : List Order} (o : Order) (q : Decimal) (h : Resting orders o) :
    Resting orders (o.reduce q) := by
  obtain ⟨s, hs, hstem, hkind⟩ := h
  exact ⟨s, hs, hstem.reduce q, hkind⟩

/-- **The fills of an execution** are between the incoming order and queued ones. -/
theorem Executed.matched {uuid : UuidSource} {book book' : OrderBook} {o s : Order}
    {report : ExecutionReport} {orders : List Order} (hx : Executed uuid book o report book')
    (hinv : Inv book) (ha : Admissible book o) (hbook : AllQueued (Resting orders) book)
    (hstem : StemsFrom s o) (hs : s ∈ orders) {f : Fill} (hf : f ∈ report.fills) :
    ∃ maker ∈ orders, ∃ taker ∈ orders, Matched maker taker f ∧ taker = s := by
  have hmem : f.toTrade ∈ book.sweepTrades o := by
    rw [← executed_trades hx hinv ha]
    exact List.mem_map_of_mem hf
  obtain ⟨⟨r, q⟩, hp, htrade⟩ := List.mem_map.mp hmem
  have hr := (Allot.mem_allot hp).1
  have hpos : 0 < q := Allot.pos_of_mem_allot
    (fun r hr => (hinv.opposing (OrderBook.reachable_subset hr)).2.1) hp
  obtain ⟨hside, _, price, l, hprice, hl, hin⟩ := hinv.opposing (OrderBook.reachable_subset hr)
  obtain ⟨hcross, huser⟩ := OrderBook.reachable_trades hr
  obtain ⟨maker, hmaker, hmstem, hkind⟩ := hbook _ _ l hl r hin
  have hfprice : f.price = price := by
    rw [show f.price = f.toTrade.price from rfl, ← htrade]
    show r.price.getD 0 = price
    rw [hprice]
    rfl
  refine ⟨maker, hmaker, s, hs, ⟨?_, ?_, ?_, ?_, ?_, ?_, hkind, ?_, ?_, ?_⟩, rfl⟩
  · rw [← hmstem.orderId]
    exact (congrArg Trade.makerOrderId htrade).symm
  · rw [← hmstem.userId]
    exact (congrArg Trade.makerUserId htrade).symm
  · rw [← hstem.orderId]
    exact (congrArg Trade.takerOrderId htrade).symm
  · rw [← hstem.userId]
    exact (congrArg Trade.takerUserId htrade).symm
  · rw [← hmstem.userId, ← hstem.userId]
    exact huser
  · rw [← hmstem.side, ← hstem.side]
    exact hside
  · rw [← hmstem.price, hprice, hfprice]
  · intro hpriced
    rw [hprice] at hcross
    rw [hfprice]
    exact hstem.crosses hpriced hcross
  · rw [show f.quantity = f.toTrade.quantity from rfl, ← htrade]
    exact hpos

/-! ### Runs -/

/-- The fills of a reply to the order that was submitted. -/
def BookReply.ownFills : BookReply → List Fill
  | .submitted report => report.fills
  | .cancelled _ => []
  | .triggered _ => []

/-- The fills of a reply to stop orders that were set off. -/
def BookReply.triggeredFills : BookReply → List Fill
  | .submitted _ => []
  | .cancelled _ => []
  | .triggered reports => reports.flatMap ExecutionReport.fills

/-- The orders of a book and the fills of a reply go back to submitted orders. -/
structure Sourced (orders : List Order) (reply : BookReply) (book : OrderBook) : Prop where
  queued : AllQueued (Resting orders) book
  pending : ∀ o ∈ book.stopOrders, ∃ s ∈ orders, StemsFrom s o ∧ s.kind.isStop = true
  own : ∀ f ∈ reply.ownFills, Originates orders false f
  triggered : ∀ f ∈ reply.triggeredFills, Originates orders true f

/-- A pending order is a stop order. -/
theorem Inv.pending_activate {book : OrderBook} (h : Inv book) {orders : List Order}
    (hpending : ∀ o ∈ book.stopOrders, ∃ s ∈ orders, StemsFrom s o ∧ s.kind.isStop = true)
    {lastPrice : Decimal} {o : Order} (ho : o ∈ book.setOff lastPrice) :
    ∃ s ∈ orders, StemsFrom s o ∧ s.kind.isStop = true := by
  obtain ⟨o', ho', rfl⟩ := List.mem_map.mp ho
  have hin := (List.mem_filter.mp ho').1
  obtain ⟨s, hs, hstem, hkind⟩ := hpending o' hin
  exact ⟨s, hs, hstem.activate (h.pending o' hin).kind, hkind⟩

/-- **Triggered orders** trade with queued ones. -/
theorem ExecutedAll.sourced {uuid : UuidSource} {book book' : OrderBook} {os : List Order}
    {reports : List ExecutionReport} (hx : ExecutedAll uuid book os reports book')
    {orders : List Order} (hbook : AllQueued (Resting orders) book)
    (hos : ∀ o ∈ os, ∃ s ∈ orders, StemsFrom s o ∧ s.kind.isStop = true) :
    AllQueued (Resting orders) book' ∧
      ∀ f ∈ reports.flatMap ExecutionReport.fills, Originates orders true f := by
  induction hx with
  | nil _ _ => exact ⟨hbook, fun f hf => by cases hf⟩
  | @cons uuid book book' book'' o os report reports inv ready _ head _ ih =>
      obtain ⟨s, hs, hstem, hkind⟩ := hos o List.mem_cons_self
      have hstop : o.kind.isStop = false := by
        rcases ready.kind with hk | hk <;> rw [hk] <;> rfl
      have hmiddle : AllQueued (Resting orders) book' := by
        refine hbook.executed Resting.reduce inv ready.admissible hstop (fun hpriced q n => ?_) head
        exact ⟨s, hs, ⟨hstem.orderId, hstem.userId, hstem.side, hstem.price, hstem.priced⟩,
          hstem.priced ▸ hpriced⟩
      obtain ⟨hlast, hfills⟩ := ih hmiddle fun o' ho' => hos o' (List.mem_cons_of_mem _ ho')
      refine ⟨hlast, fun f hf => ?_⟩
      rw [List.flatMap_cons] at hf
      rcases List.mem_append.mp hf with hf | hf
      · obtain ⟨maker, hmaker, taker, htaker, hm, rfl⟩ :=
          head.matched inv ready.admissible hbook hstem hs hf
        exact ⟨maker, hmaker, taker, htaker, hm, hkind⟩
      · exact hfills f hf

/-- **The fills of a call** are between submitted orders. -/
theorem Called.sourced {book book' : OrderBook} {op : BookOp} {reply : BookReply}
    (hc : Called book op reply book') (hinv : Inv book) {orders : List Order}
    (hop : ∀ uuid o, op = .submit uuid o → o ∈ orders)
    (hqueued : AllQueued (Resting orders) book)
    (hpending : ∀ o ∈ book.stopOrders, ∃ s ∈ orders, StemsFrom s o ∧ s.kind.isStop = true) :
    Sourced orders reply book' := by
  cases hc with
  | @submitted uuid order report book' result =>
      have hmem := hop uuid order rfl
      cases result with
      | refused _ _ => exact ⟨hqueued, hpending, fun f hf => (by cases hf), fun f hf => by cases hf⟩
      | killed _ _ _ => exact ⟨hqueued, hpending, fun f hf => (by cases hf), fun f hf => by cases hf⟩
      | held _ hkind _ =>
          refine ⟨hqueued.congr fun side => by simp [OrderBook.holdStop], ?_, fun f hf => (by cases hf),
            fun f hf => by cases hf⟩
          intro o ho
          rcases List.mem_append.mp ho with ho | ho
          · exact hpending o (by simpa using ho)
          · rw [List.mem_singleton.mp ho]
            exact ⟨order, hmem, ⟨rfl, rfl, rfl, rfl, rfl⟩, hkind⟩
      | executed admissible hstop _ _ _ _ hx =>
          refine ⟨?_, ?_, fun f hf => ?_, fun f hf => by cases hf⟩
          · exact hqueued.executed Resting.reduce hinv admissible hstop
              (fun hpriced q n => ⟨order, hmem, ⟨rfl, rfl, rfl, rfl, rfl⟩, hpriced⟩) hx
          · rw [(hx.frame hinv admissible).1]
            exact hpending
          · obtain ⟨maker, hmaker, taker, htaker, hm, rfl⟩ :=
              hx.matched hinv admissible hqueued (StemsFrom.refl order) hmem hf
            exact ⟨maker, hmaker, taker, htaker, hm, hstop⟩
  | cancelled result =>
      exact ⟨hqueued.cancelled result, fun o ho => hpending o (result.stopOrders_subset ho),
        fun f hf => (by cases hf), fun f hf => by cases hf⟩
  | @triggered uuid lastPrice reports book' hx =>
      have hdrained : AllQueued (Resting orders) (book.drained lastPrice) := by
        intro side price l hl
        rw [OrderBook.level_drained] at hl
        exact hqueued side price l hl
      obtain ⟨hlast, hfills⟩ := hx.sourced hdrained fun o ho => hinv.pending_activate hpending ho
      refine ⟨hlast, ?_, fun f hf => (by cases hf), hfills⟩
      intro o ho
      rw [hx.frame.1] at ho
      exact hpending o (List.mem_filter.mp ho).1

/-- **Origins.**  In every run the queued and the pending orders stem from submitted ones, and every fill
is between two submitted orders. -/
theorem bookRun_origins {ops : List BookOp} {replies : List BookReply} {book : OrderBook}
    (hrun : bookRun ops = .ok (replies, book)) :
    Inv book ∧ AllQueued (Resting (submittedOrders ops)) book ∧
      (∀ o ∈ book.stopOrders, ∃ s ∈ submittedOrders ops, StemsFrom s o ∧ s.kind.isStop = true) ∧
      (∀ f ∈ replies.flatMap BookReply.ownFills, Originates (submittedOrders ops) false f) ∧
      ∀ f ∈ replies.flatMap BookReply.triggeredFills, Originates (submittedOrders ops) true f := by
  refine bookRun_history (P := fun ops replies book => AllQueued (Resting (submittedOrders ops)) book ∧
      (∀ o ∈ book.stopOrders, ∃ s ∈ submittedOrders ops, StemsFrom s o ∧ s.kind.isStop = true) ∧
      (∀ f ∈ replies.flatMap BookReply.ownFills, Originates (submittedOrders ops) false f) ∧
      ∀ f ∈ replies.flatMap BookReply.triggeredFills, Originates (submittedOrders ops) true f) ?_ ?_ hrun
  · refine ⟨fun side price l hl => ?_, fun o ho => ?_, fun f hf => ?_, fun f hf => ?_⟩
    · cases side <;> cases hl
    · cases ho
    · cases hf
    · cases hf
  · rintro ops replies book op reply book' hinv ⟨hqueued, hpending, hown, htriggered⟩ hc
    have hsub : submittedOrders ops ⊆ submittedOrders (ops ++ [op]) := by
      rw [submittedOrders_append]
      exact List.subset_append_left _ _
    have hstep : Sourced (submittedOrders (ops ++ [op])) reply book' := by
      refine hc.sourced hinv ?_ (hqueued.mono ?_) ?_
      · rintro uuid o rfl
        rw [submittedOrders_append]
        exact List.mem_append_right _ (List.mem_singleton_self o)
      · rintro o ⟨s, hs, hstem⟩
        exact ⟨s, hsub hs, hstem⟩
      · intro o ho
        obtain ⟨s, hs, hstem⟩ := hpending o ho
        exact ⟨s, hsub hs, hstem⟩
    refine ⟨hstep.queued, hstep.pending, fun f hf => ?_, fun f hf => ?_⟩
    · rw [List.flatMap_append, List.flatMap_singleton] at hf
      rcases List.mem_append.mp hf with hf | hf
      · exact (hown f hf).mono hsub
      · exact hstep.own f hf
    · rw [List.flatMap_append, List.flatMap_singleton] at hf
      rcases List.mem_append.mp hf with hf | hf
      · exact (htriggered f hf).mono hsub
      · exact hstep.triggered f hf

/-- The fills of a reply to a submission name the submitted order as their taker. -/
theorem Called.ownFills_taker {book book' : OrderBook} {op : BookOp} {reply : BookReply}
    (hc : Called book op reply book') (hinv : Inv book) {f : Fill} (hf : f ∈ reply.ownFills) :
    ∃ uuid o, op = .submit uuid o ∧ f.takerOrderId = o.orderId := by
  cases hc with
  | @submitted uuid order report book' result =>
      refine ⟨uuid, order, rfl, ?_⟩
      have hmem : f.toTrade ∈ book.expectedTrades order := by
        rw [← submitted_trades result hinv]
        exact List.mem_map_of_mem hf
      rw [OrderBook.expectedTrades] at hmem
      split at hmem
      · obtain ⟨p, _, htrade⟩ := List.mem_map.mp hmem
        exact (congrArg Trade.takerOrderId htrade).symm
      · cases hmem
  | cancelled _ => cases hf
  | triggered _ => cases hf

theorem BookReply.fills_eq (reply : BookReply) :
    reply.fills = reply.ownFills ++ reply.triggeredFills := by
  cases reply with
  | submitted report => exact (List.append_nil _).symm
  | cancelled done => rfl
  | triggered reports => rfl

theorem ownFills_sublist (replies : List BookReply) :
    (replies.flatMap BookReply.ownFills).Sublist (replies.flatMap BookReply.fills) := by
  induction replies with
  | nil => exact List.Sublist.slnil
  | cons reply replies ih =>
      rw [List.flatMap_cons, List.flatMap_cons, reply.fills_eq, List.append_assoc]
      exact (List.Sublist.refl _).append (ih.trans (List.sublist_append_right _ _))

/-- A fill of a run is one of a submitted order or one of a stop order that was set off. -/
theorem mem_fills {replies : List BookReply} {f : Fill} (hf : f ∈ replies.flatMap BookReply.fills) :
    f ∈ replies.flatMap BookReply.ownFills ∨ f ∈ replies.flatMap BookReply.triggeredFills := by
  obtain ⟨reply, hreply, hf⟩ := List.mem_flatMap.mp hf
  rw [reply.fills_eq] at hf
  rcases List.mem_append.mp hf with hf | hf
  · exact Or.inl (List.mem_flatMap.mpr ⟨reply, hreply, hf⟩)
  · exact Or.inr (List.mem_flatMap.mpr ⟨reply, hreply, hf⟩)

/-- In every run from a book with the invariant, the takers of the fills of submissions are the orders
submitted in it. -/
theorem run_ownFills_taker {book book' : OrderBook} (hinv : Inv book) {ops : List BookOp}
    {replies : List BookReply} (hrun : Machine.run OrderBook.exec book ops = .ok (replies, book'))
    {f : Fill} (hf : f ∈ replies.flatMap BookReply.ownFills) :
    ∃ o ∈ submittedOrders ops, f.takerOrderId = o.orderId := by
  have h := Machine.run_history (P := fun ops replies book => Inv book ∧
      ∀ f ∈ replies.flatMap BookReply.ownFills,
        ∃ o ∈ submittedOrders ops, f.takerOrderId = o.orderId)
    ⟨hinv, fun f hf => by cases hf⟩ ?_ ops replies book' hrun
  · exact h.2 f hf
  · rintro ops replies book op reply book' ⟨hinv, hP⟩ hexec
    obtain ⟨hinv', hc⟩ := exec_inv hinv hexec
    refine ⟨hinv', fun f hf => ?_⟩
    rw [List.flatMap_append, List.flatMap_singleton] at hf
    rw [submittedOrders_append]
    rcases List.mem_append.mp hf with hf | hf
    · obtain ⟨o, ho, htaker⟩ := hP f hf
      exact ⟨o, List.mem_append_left _ ho, htaker⟩
    · obtain ⟨uuid, o, rfl, htaker⟩ := hc.ownFills_taker hinv hf
      exact ⟨o, List.mem_append_right _ (List.mem_singleton_self o), htaker⟩

/-- A fill that names an order of a run is between it and another one. -/
theorem Originates.named {orders : List Order} (hids : (orderIds orders).Nodup) {o : Order}
    (ho : o ∈ orders) {stop : Bool} {f : Fill} (h : Originates orders stop f)
    (hnames : f.names o.orderId = true) :
    ∃ maker taker, Matched maker taker f ∧ taker.kind.isStop = stop ∧
      (maker = o ∨ taker = o ∧ maker.orderId ≠ o.orderId) := by
  obtain ⟨maker, hmaker, taker, htaker, hm, hstop⟩ := h
  refine ⟨maker, taker, hm, hstop, ?_⟩
  by_cases hid : maker.orderId = o.orderId
  · exact Or.inl (List.inj_on_of_nodup_map hids hmaker ho hid)
  · rcases of_decide_eq_true hnames with hid' | hid'
    · rw [hm.makerOrderId] at hid'
      exact absurd hid' hid
    · rw [hm.takerOrderId] at hid'
      exact Or.inr ⟨List.inj_on_of_nodup_map hids htaker ho hid', hid⟩

/-- A fill names no order that was not submitted. -/
theorem Originates.not_named {orders : List Order} {id : String} (hid : id ∉ orderIds orders)
    {stop : Bool} {f : Fill} (h : Originates orders stop f) : f.names id = false := by
  obtain ⟨maker, hmaker, taker, htaker, hm, _⟩ := h
  refine decide_eq_false ?_
  rw [hm.makerOrderId, hm.takerOrderId]
  rintro (rfl | rfl)
  · exact hid (mem_orderIds hmaker)
  · exact hid (mem_orderIds htaker)

section Named

variable {ops : List BookOp} {replies : List BookReply} {book : OrderBook} {request : Order}

/-- Every fill of a run fills something. -/
theorem fills_pos (hrun : bookRun ops = .ok (replies, book)) :
    ∀ f ∈ replies.flatMap BookReply.fills, 0 < f.quantity := by
  obtain ⟨_, _, _, hown, htriggered⟩ := bookRun_origins hrun
  intro f hf
  rcases mem_fills hf with hf | hf
  · obtain ⟨_, _, _, _, hm, _⟩ := hown f hf
    exact hm.quantity
  · obtain ⟨_, _, _, _, hm, _⟩ := htriggered f hf
    exact hm.quantity

/-- A fill that names an order of a run is between it and another one. -/
theorem fill_named (hrun : bookRun ops = .ok (replies, book))
    (hids : (orderIds (submittedOrders ops)).Nodup) (hmem : request ∈ submittedOrders ops) {f : Fill}
    (hf : f ∈ replies.flatMap BookReply.fills) (hnames : f.names request.orderId = true) :
    ∃ maker taker, Matched maker taker f ∧
      (maker = request ∨ taker = request ∧ maker.orderId ≠ request.orderId) := by
  obtain ⟨_, _, _, hown, htriggered⟩ := bookRun_origins hrun
  rcases mem_fills hf with hf | hf
  · obtain ⟨maker, taker, hm, _, heq⟩ := (hown f hf).named hids hmem hnames
    exact ⟨maker, taker, hm, heq⟩
  · obtain ⟨maker, taker, hm, _, heq⟩ := (htriggered f hf).named hids hmem hnames
    exact ⟨maker, taker, hm, heq⟩

end Named

/-- **A market order trades once**, when it is submitted, with what the book before it holds. -/
theorem market_fills {before after : List BookOp} {uuid : UuidSource} {o : Order}
    {rs replies : List BookReply} {book last : OrderBook} (hbefore : bookRun before = .ok (rs, book))
    (hrun : bookRun (before ++ .submit uuid o :: after) = .ok (replies, last))
    (hids : (orderIds (submittedOrders (before ++ .submit uuid o :: after))).Nodup)
    (hkind : o.kind = .market) :
    ∃ fills : List Fill, fills.map Fill.toTrade = book.expectedTrades o ∧
      (replies.flatMap BookReply.ownFills).filter (fun f => f.names o.orderId) = fills ∧
      (replies.flatMap BookReply.fills).filter (fun f => f.names o.orderId) = fills := by
  have hmem : o ∈ submittedOrders (before ++ .submit uuid o :: after) := by
    rw [submittedOrders_append]
    exact List.mem_append_right _ List.mem_cons_self
  obtain ⟨_, _, _, hown, htriggered⟩ := bookRun_origins hrun
  obtain ⟨hinv, _, _, hownBefore, htriggeredBefore⟩ := bookRun_origins hbefore
  obtain ⟨rs', book', rs'', hrun', hrest, hreplies⟩ := Machine.run_append.mp hrun
  have hsame : rs' = rs ∧ book' = book := by
    have := hrun'.symm.trans hbefore
    cases this
    exact ⟨rfl, rfl⟩
  obtain ⟨rfl, rfl⟩ := hsame
  obtain ⟨reply, next, after', hexec, htail, rfl⟩ := Machine.run_cons_ok.mp hrest
  obtain ⟨hinv', hc⟩ := exec_inv hinv hexec
  have hdistinct : o.orderId ∉ orderIds (submittedOrders before) ∧
      o.orderId ∉ orderIds (submittedOrders after) := by
    rw [submittedOrders_append, orderIds_append, List.nodup_append] at hids
    obtain ⟨_, htailIds, hdisjoint⟩ := hids
    exact ⟨fun hin => hdisjoint _ hin _ List.mem_cons_self rfl, (List.nodup_cons.mp htailIds).1⟩
  -- a market order neither rests nor waits for a price
  have hmarket : ∀ stop f, Originates (submittedOrders (before ++ .submit uuid o :: after)) stop f →
      f.names o.orderId = true → stop = false ∧ f.takerOrderId = o.orderId := by
    intro stop f horigin hnames
    obtain ⟨maker, taker, hm, hstop, rfl | ⟨rfl, _⟩⟩ := horigin.named hids hmem hnames
    · have hpriced := hm.makerPriced
      rw [hkind] at hpriced
      cases hpriced
    · rw [hkind] at hstop
      exact ⟨hstop.symm, hm.takerOrderId⟩
  have hbeforeOwn : (rs'.flatMap BookReply.ownFills).filter (fun f => f.names o.orderId) = [] :=
    List.filter_eq_nil_iff.mpr fun f hf => by
      rw [(hownBefore f hf).not_named hdistinct.1]
      exact Bool.false_ne_true
  have hbeforeAll : (rs'.flatMap BookReply.fills).filter (fun f => f.names o.orderId) = [] :=
    List.filter_eq_nil_iff.mpr fun f hf => by
      rcases mem_fills hf with hf | hf
      · rw [(hownBefore f hf).not_named hdistinct.1]
        exact Bool.false_ne_true
      · rw [(htriggeredBefore f hf).not_named hdistinct.1]
        exact Bool.false_ne_true
  have hafterAll : (after'.flatMap BookReply.fills).filter (fun f => f.names o.orderId) = [] :=
    List.filter_eq_nil_iff.mpr fun f hf hnames => by
      rw [hreplies, List.flatMap_append, List.flatMap_cons] at hown htriggered
      rcases mem_fills hf with hf | hf
      · obtain ⟨_, htaker⟩ := hmarket false f
          (hown f (List.mem_append_right _ (List.mem_append_right _ hf))) hnames
        obtain ⟨o', ho', hid⟩ := run_ownFills_taker hinv' htail hf
        rw [htaker] at hid
        exact hdistinct.2 (hid ▸ mem_orderIds ho')
      · have hstop := (hmarket true f (htriggered f
          (List.mem_append_right _ (List.mem_append_right _ hf))) hnames).1
        cases hstop
  have hafterOwn : (after'.flatMap BookReply.ownFills).filter (fun f => f.names o.orderId) = [] :=
    List.sublist_nil.mp (hafterAll ▸ (ownFills_sublist after').filter _)
  cases hc with
  | @submitted uuid o report next result =>
      have hself : report.fills.filter (fun f => f.names o.orderId) = report.fills := by
        refine List.filter_eq_self.mpr fun f hf => ?_
        have hc : Called book' (.submit uuid o) (.submitted report) next := .submitted result
        obtain ⟨_, _, hop, htaker⟩ := hc.ownFills_taker hinv hf
        cases hop
        exact decide_eq_true (Or.inr htaker)
      refine ⟨report.fills, submitted_trades result hinv, ?_, ?_⟩
      · rw [hreplies, List.flatMap_append, List.flatMap_cons, List.filter_append, List.filter_append,
          hbeforeOwn, hafterOwn, List.nil_append, List.append_nil]
        exact hself
      · rw [hreplies, List.flatMap_append, List.flatMap_cons, List.filter_append, List.filter_append,
          hbeforeAll, hafterAll, List.nil_append, List.append_nil]
        exact hself

end NexusTrade.MatchingEngine
