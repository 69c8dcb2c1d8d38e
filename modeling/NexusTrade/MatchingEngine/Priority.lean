import NexusTrade.Lib.Waiting
import NexusTrade.MatchingEngine.Origins
import NexusTrade.MatchingEngine.Refinement

/-!
# Priority over runs

The queues of a book while calls are made on it, with stop orders and all that they set off.

* **`Orderly`**: orders leave their queue or shrink in it, others join at its back, and no fill takes an order before
  one that outranks it and still rests; **`Orderly.trans`** puts two stretches of a run together;
* **`Called.orderly`**: every call is orderly;
* **`queue_position_improves`**: what is ahead of an order that rests only leaves or shrinks;
* **`no_order_is_overtaken`**: as long as an order rests, no order that it outranks is filled.
-/

namespace NexusTrade.MatchingEngine

open Waiting (Advanced Before ahead)

/-- An order after some of it has traded. -/
def Shrunk (later earlier : Order) : Prop :=
  later.remainingQuantity ≤ earlier.remainingQuantity ∧
    later = { earlier with remainingQuantity := later.remainingQuantity }

instance : Std.Refl Shrunk := ⟨fun _ => ⟨le_rfl, rfl⟩⟩

instance : IsTrans Order Shrunk := by
  refine ⟨fun o₁ o₂ o₃ h h' => ⟨h.1.trans h'.1, ?_⟩⟩
  rw [h.2, h'.2]

theorem Shrunk.orderId (o o' : Order) (h : Shrunk o o') : o.orderId = o'.orderId := by rw [h.2]

theorem shrunk_reduce {o : Order} {q : Decimal} (hq : 0 ≤ q) : Shrunk (o.reduce q) o :=
  ⟨sub_le_self _ hq, rfl⟩

/-- A price meets incoming orders before another one. -/
def Better : Side → Decimal → Decimal → Prop
  | .buy, price, price' => price' < price
  | .sell, price, price' => price < price'

/-- **An order comes before another** of its side: it is at a better price, or ahead of it in their queue. -/
def Precedes (book : OrderBook) (side : Side) (price price' : Decimal) (id id' : String) : Prop :=
  Better side price price' ∨ (price = price' ∧ Before Order.orderId id id' (book.queue side price))

/-- **An order outranks another**: it rests and comes before it, wherever that one rests. -/
structure Outranks (book : OrderBook) (side : Side) (price price' : Decimal) (id id' : String) : Prop where
  rests : id ∈ orderIds (book.queue side price)
  other : ∀ side' p, id' ∈ orderIds (book.queue side' p) → side' = side ∧ p = price'
  first : Precedes book side price price' id id'

/-- **A stretch of a run**, with the fills that are made in it and the orders that may join a queue. -/
structure Orderly (joins : String → Prop) (book : OrderBook) (fills : List Fill) (book' : OrderBook) : Prop where
  moves : ∀ side price, Advanced Order.orderId Shrunk joins (book.queue side price) (book'.queue side price)
  fair : ∀ side price price' id id', ¬joins id → ¬joins id' → Outranks book side price price' id id' →
    id ∈ orderIds (book'.queue side price) → ∀ f ∈ fills, f.makerOrderId ≠ id'

section Orderly

variable {joins joins' : String → Prop} {book book' book'' : OrderBook} {fills fills' : List Fill}

theorem queue_nodup (h : Inv book) (side : Side) (price : Decimal) : (orderIds (book.queue side price)).Nodup := by
  rw [OrderBook.queue, OrderBook.levelOrEmpty]
  cases hl : book.level side price with
  | none => exact List.nodup_nil
  | some l => exact (h.level side price l hl).ids

theorem queue_of_levels (h : ∀ side, book'.levels side = book.levels side) (side : Side) (price : Decimal) :
    book'.queue side price = book.queue side price := by
  rw [OrderBook.queue, OrderBook.queue, OrderBook.levelOrEmpty, OrderBook.levelOrEmpty, OrderBook.level_congr (h side)]

/-- The queues stay, and nothing is filled. -/
theorem Orderly.of_levels (h : ∀ side, book'.levels side = book.levels side) : Orderly joins book [] book' where
  moves := fun side price => by
    rw [queue_of_levels h]
    exact .refl _
  fair := fun _ _ _ _ _ _ _ _ _ f hf => absurd hf (List.not_mem_nil (a := f))

theorem Orderly.mono (h : Orderly joins book fills book') (hsub : ∀ id, joins id → joins' id) :
    Orderly joins' book fills book' where
  moves := fun side price => (h.moves side price).mono hsub
  fair := fun side price price' id id' hid hid' =>
    h.fair side price price' id id' (fun hj => hid (hsub id hj)) fun hj => hid' (hsub id' hj)

/-- **An order outranks another** as long as it rests. -/
theorem Orderly.outranks (h : Orderly joins book fills book') (hinv : Inv book) {side : Side}
    {price price' : Decimal} {id id' : String} (hid : ¬joins id) (hid' : ¬joins id')
    (hranks : Outranks book side price price' id id') (hrests : id ∈ orderIds (book'.queue side price)) :
    Outranks book' side price price' id id' := by
  refine ⟨hrests, fun side' p hin => ?_, hranks.first.imp_right fun hsame => ⟨hsame.1, ?_⟩⟩
  · exact hranks.other side' p ((h.moves side' p).mem Shrunk.orderId hin hid')
  · exact (h.moves side price).before Shrunk.orderId (queue_nodup hinv side price) hsame.2 hrests hid

/-- **Two stretches**, one after the other. -/
theorem Orderly.trans (hinv : Inv book) (h : Orderly joins book fills book') (h' : Orderly joins book' fills' book'') :
    Orderly joins book (fills ++ fills') book'' where
  moves := fun side price => (h.moves side price).trans Shrunk.orderId (h'.moves side price)
  fair := by
    intro side price price' id id' hid hid' hranks hrests
    have hmiddle : id ∈ orderIds (book'.queue side price) := (h'.moves side price).mem Shrunk.orderId hrests hid
    have hranks' := h.outranks hinv hid hid' hranks hmiddle
    exact List.forall_mem_append.mpr ⟨h.fair side price price' id id' hid hid' hranks hmiddle,
      h'.fair side price price' id id' hid hid' hranks' hrests⟩

end Orderly

/-! ### One trade -/

section Trade

variable {uuid : UuidSource} {s t : MatchState}

/-- **The order that trades is not outranked.** -/
theorem CanTrade.not_outranked {price : Decimal} {level : PriceLevel} {resting : Order} {queue : List Order}
    (h : CanTrade s price level resting queue) {side : Side} {p p' : Decimal} {id : String} :
    ¬Outranks s.book side p p' id resting.orderId := by
  intro hranks
  have hqueue : s.book.queue (opposite s.incoming.side) price = resting :: queue :=
    (queue_of_level h.atLevel).trans h.front
  have hfront : resting.orderId ∈ orderIds (s.book.queue (opposite s.incoming.side) price) := by
    rw [hqueue]
    exact List.mem_cons_self
  obtain ⟨rfl, rfl⟩ := hranks.other _ _ hfront
  rcases hranks.first with hbetter | ⟨rfl, hbefore⟩
  · obtain ⟨o, ho, -⟩ := List.mem_map.mp hranks.rests
    obtain ⟨l, hl, -⟩ := mem_queue ho
    have hbest := s.book.bestPrice_best h.best hl
    cases hside : opposite s.incoming.side with
    | buy =>
        rw [hside] at hbest hbetter
        exact absurd hbetter (not_lt.mpr hbest)
    | sell =>
        rw [hside] at hbest hbetter
        exact absurd hbetter (not_lt.mpr hbest)
  · rw [hqueue] at hbefore
    exact Waiting.not_before_front id resting queue hbefore

/-- **One trade is orderly.** -/
theorem TradeStep.orderly (hs : Inv s.book) (h : TradeStep uuid s t) :
    ∃ f, t.fills = s.fills ++ [f] ∧ Orderly (fun _ => False) s.book [f] t.book := by
  obtain ⟨price, level, resting, queue, hc, rfl⟩ := h
  refine ⟨s.fill uuid price resting, rfl, fun side p => ?_, ?_⟩
  · rw [queue_trade hc]
    split
    · rename_i hsame
      obtain ⟨rfl, rfl⟩ := hsame
      refine ⟨(s.tradedLevel level resting queue).orders, [], (List.append_nil _).symm, ?_, fun a ha => by cases ha⟩
      rw [queue_of_level hc.atLevel, hc.front, MatchState.tradedLevel, PriceLevel.tradeFront]
      dsimp only
      split
      · exact .cons_right (List.Sublist.refl queue).sublistForall₂
      · exact .cons (shrunk_reduce (hc.quantity_pos hs).le) (List.Sublist.refl queue).sublistForall₂
    · exact .refl _
  · intro side p p' id id' _ _ hranks _
    refine List.forall_mem_singleton.mpr fun heq => ?_
    have hmaker : resting.orderId = id' := heq
    exact hc.not_outranked (hmaker ▸ hranks)

/-- **Trades are orderly.** -/
theorem trades_orderly (hs : LoopInv s) (h : Trades uuid s t) :
    ∃ fills, t.fills = s.fills ++ fills ∧ Orderly (fun _ => False) s.book fills t.book := by
  refine (trades_preserve (P := fun t => LoopInv t ∧ ∃ fills, t.fills = s.fills ++ fills ∧
    Orderly (fun _ => False) s.book fills t.book) ?_ h ⟨hs, [], (List.append_nil _).symm, .of_levels fun _ => rfl⟩).2
  rintro t u ⟨ht, fills, hfills, horderly⟩ htu
  obtain ⟨f, hf, hstep⟩ := htu.orderly ht.book
  refine ⟨ht.step htu, fills ++ [f], ?_, horderly.trans hs.book hstep⟩
  rw [hf, hfills, List.append_assoc]

end Trade

/-! ### One call -/

section Calls

variable {uuid : UuidSource} {book book' : OrderBook}

theorem queue_restAt (book : OrderBook) (o : Order) (price : Decimal) (side : Side) (p : Decimal) :
    (book.restAt o price).queue side p
      = if side = o.side ∧ p = price then book.queue side p ++ [o] else book.queue side p := by
  rw [OrderBook.queue, OrderBook.levelOrEmpty, OrderBook.level_restAt]
  split
  · rename_i hsame
    obtain ⟨rfl, rfl⟩ := hsame
    rfl
  · rfl

/-- An order joins the back of its queue. -/
theorem orderly_restAt (book : OrderBook) (o : Order) (price : Decimal) :
    Orderly (· = o.orderId) book [] (book.restAt o price) where
  moves := by
    intro side p
    rw [queue_restAt]
    split
    · exact ⟨_, [o], rfl, (List.Sublist.refl _).sublistForall₂, List.forall_mem_singleton.mpr rfl⟩
    · exact .refl _
  fair := fun _ _ _ _ _ _ _ _ _ f hf => absurd hf (List.not_mem_nil (a := f))

/-- **Execution is orderly**: only the incoming order joins a queue. -/
theorem Executed.orderly {o : Order} {report : ExecutionReport} (h : Executed uuid book o report book')
    (hinv : Inv book) (ha : Admissible book o) : Orderly (· = o.orderId) book report.fills book' := by
  have hstart := LoopInv.start hinv ha
  have hbegin : Orderly (· = o.orderId) book [] (book.startMatch o).book := .of_levels book.levels_nextSequenced
  have htrades : ∀ {t : MatchState}, Trades uuid (book.startMatch o) t →
      Orderly (· = o.orderId) book t.fills t.book := by
    intro t trades
    obtain ⟨fills, hfills, horderly⟩ := trades_orderly hstart trades
    have hall : t.fills = fills := hfills
    rw [hall]
    exact hbegin.trans hinv (horderly.mono fun _ hfalse => hfalse.elim)
  have hend : ∀ {t : MatchState} {book'' : OrderBook}, Trades uuid (book.startMatch o) t →
      Orderly (· = o.orderId) t.book [] book'' → Orderly (· = o.orderId) book t.fills book'' := by
    intro t book'' trades hlast
    rw [← List.append_nil t.fills]
    exact (htrades trades).trans hinv hlast
  cases h with
  | blocked t trades _ _ => exact hend trades (.of_levels fun side => t.book.levels_setStatus _ _ _ side)
  | finished t trades inv _ st settled hsettled =>
      refine hend trades ?_
      have hclose := settled.levels_close t.incoming.orderId st
        (t.incoming.originalQuantity - t.incoming.remainingQuantity)
      cases hsettled with
      | filled _ => exact .of_levels hclose
      | dropped _ _ => exact .of_levels hclose
      | expired _ _ => exact .of_levels hclose
      | rested _ _ price _ =>
          have hrest := orderly_restAt t.book t.incoming price
          rw [trades_orderId trades] at hrest
          exact hrest.trans inv.book (.of_levels hclose)

/-- **Cancelling is orderly**: it adds nothing to the queues. -/
theorem Cancelled.orderly {orderId userId : String} {done : Bool}
    (h : Cancelled book orderId userId done book') : Orderly (fun _ => False) book [] book' := by
  refine ⟨fun side p => ?_, fun _ _ _ _ _ _ _ _ _ f hf => absurd hf (List.not_mem_nil (a := f))⟩
  cases h with
  | missing _ _ => exact .refl _
  | queued side' price level pre order post hl hsplit hid huser =>
      have hqueue : (book.removeQueued side' price level pre.length order orderId).queue side p
          = if side = side' ∧ p = price then (level.removeAt pre.length order).orders else book.queue side p := by
        rw [OrderBook.queue, OrderBook.levelOrEmpty, OrderBook.level_removeQueued hl]
        split
        · split
          · rename_i hempty
            exact hempty.symm
          · rfl
        · rfl
      rw [hqueue]
      split
      · rename_i hsame
        obtain ⟨rfl, rfl⟩ := hsame
        rw [queue_of_level hl]
        exact ⟨_, [], (List.append_nil _).symm, (List.eraseIdx_sublist _ _).sublistForall₂, fun a ha => by cases ha⟩
      · exact .refl _
  | pending pre order post hsplit hid huser =>
      have hlevels : ∀ side, (book.removePending pre.length order orderId).levels side = book.levels side :=
        fun side => by simp [OrderBook.removePending]
      rw [queue_of_levels hlevels]
      exact .refl _

/-- **Triggered orders** join the queues one after another. -/
theorem ExecutedAll.orderly {orders : List Order} {reports : List ExecutionReport}
    (h : ExecutedAll uuid book orders reports book') :
    Orderly (· ∈ orderIds orders) book (reports.flatMap ExecutionReport.fills) book' := by
  induction h with
  | nil uuid book => exact .of_levels fun _ => rfl
  | @cons uuid book book' book'' o orders report reports inv ready _ head _ ih =>
      rw [List.flatMap_cons]
      refine Orderly.trans inv ((head.orderly inv ready.admissible).mono ?_) (ih.mono ?_)
      · rintro id rfl
        exact List.mem_cons_self
      · exact fun id hid => List.mem_cons_of_mem _ hid

/-- The orders that a call submits. -/
def BookOp.orders : BookOp → List Order
  | .submit _ order => [order]
  | _ => []

/-- The orders that may join a queue in a call. -/
def BookOp.Joins (book : OrderBook) (op : BookOp) (id : String) : Prop :=
  id ∈ orderIds (op.orders ++ book.stopOrders)

/-- **Every call is orderly.** -/
theorem Called.orderly {op : BookOp} {reply : BookReply} (h : Called book op reply book') (hinv : Inv book) :
    Orderly (op.Joins book) book reply.fills book' := by
  cases h with
  | @submitted uuid order report book' result =>
      cases result with
      | refused reason why => exact .of_levels fun _ => rfl
      | killed admissible hkind hshort => exact .of_levels fun _ => rfl
      | held admissible hkind hstop => exact .of_levels fun side => by simp [OrderBook.holdStop]
      | executed admissible hkind hpost hfok report book' result =>
          refine (result.orderly hinv admissible).mono ?_
          rintro id rfl
          exact List.mem_cons_self
  | cancelled result => exact result.orderly.mono fun _ hfalse => hfalse.elim
  | @triggered uuid lastPrice reports book' result =>
      have hdrained : Orderly (BookOp.Joins book (.triggerStops uuid lastPrice)) book [] (book.drained lastPrice) :=
        .of_levels fun side => by cases side <;> rfl
      refine hdrained.trans hinv (result.orderly.mono fun id hid => ?_)
      rw [orderIds_setOff] at hid
      exact (List.filter_sublist.map _).subset hid

/-- The stop orders after a call were there before, or have been submitted by it. -/
theorem Called.stopOrders {op : BookOp} {reply : BookReply} (h : Called book op reply book') (hinv : Inv book) {id : String}
    (hid : id ∈ orderIds book'.stopOrders) : op.Joins book id := by
  have hkept : book'.stopOrders ⊆ book.stopOrders → op.Joins book id := by
    intro hsub
    obtain ⟨o, ho, rfl⟩ := List.mem_map.mp hid
    exact mem_orderIds (List.mem_append_right _ (hsub ho))
  cases h with
  | @submitted uuid order report book' result =>
      cases result with
      | refused reason why => exact hkept (List.Subset.refl _)
      | killed admissible hkind hshort => exact hkept (List.Subset.refl _)
      | held admissible hkind hstop =>
          obtain ⟨o, ho, rfl⟩ := List.mem_map.mp hid
          rcases List.mem_append.mp ho with ho | ho
          · exact mem_orderIds (List.mem_append_right _ (by simpa using ho))
          · rw [List.mem_singleton.mp ho]
            exact List.mem_cons_self
      | executed admissible hkind hpost hfok report book' result =>
          rw [(result.frame hinv admissible).1] at hkept
          exact hkept (List.Subset.refl _)
  | cancelled result => exact hkept result.stopOrders_subset
  | @triggered uuid lastPrice reports book' result =>
      rw [result.frame.1] at hkept
      exact hkept List.filter_sublist.subset

end Calls

/-! ### Runs -/

/-- What a call lets join is submitted by it or waits for its stop price. -/
theorem BookOp.joins_cons {op : BookOp} {ops : List BookOp} {book : OrderBook} {id : String} (h : op.Joins book id) :
    id ∈ orderIds (submittedOrders (op :: ops) ++ book.stopOrders) := by
  obtain ⟨o, ho, rfl⟩ := List.mem_map.mp h
  refine mem_orderIds ?_
  cases op with
  | submit uuid order =>
      rcases List.mem_append.mp ho with ho | ho
      · rw [List.mem_singleton.mp ho]
        exact List.mem_append_left _ List.mem_cons_self
      · exact List.mem_append_right _ ho
  | cancel orderId userId => exact List.mem_append_right _ ho
  | triggerStops uuid lastPrice => exact List.mem_append_right _ ho

theorem submittedOrders_cons_subset (op : BookOp) (ops : List BookOp) :
    submittedOrders ops ⊆ submittedOrders (op :: ops) := by
  intro o ho
  cases op with
  | submit uuid order => exact List.mem_cons_of_mem _ ho
  | cancel orderId userId => exact ho
  | triggerStops uuid lastPrice => exact ho

/-- **Every run is orderly.** -/
theorem run_orderly (ops : List BookOp) : ∀ {book book' : OrderBook} {replies : List BookReply}, Inv book →
    Machine.run OrderBook.exec book ops = .ok (replies, book') →
    Orderly (· ∈ orderIds (submittedOrders ops ++ book.stopOrders)) book (replies.flatMap BookReply.fills) book' := by
  induction ops with
  | nil =>
      intro book book' replies _ hrun
      cases hrun
      exact .of_levels fun _ => rfl
  | cons op ops ih =>
      intro book book' replies hinv hrun
      obtain ⟨reply, middle, replies, hexec, hrest, rfl⟩ := Machine.run_cons_ok.mp hrun
      obtain ⟨hinv', hcalled⟩ := exec_inv hinv hexec
      rw [List.flatMap_cons]
      refine Orderly.trans hinv ((hcalled.orderly hinv).mono fun id hid => BookOp.joins_cons hid) ((ih hinv' hrest).mono ?_)
      intro id hid
      obtain ⟨o, ho, rfl⟩ := List.mem_map.mp hid
      rcases List.mem_append.mp ho with ho | ho
      · exact mem_orderIds (List.mem_append_left _ (submittedOrders_cons_subset op ops ho))
      · exact BookOp.joins_cons (hcalled.stopOrders hinv (mem_orderIds ho))

/-- An order that rests is in one queue, and is no stop order. -/
theorem Inv.queue_unique {book : OrderBook} (h : Inv book) {side side' : Side} {price price' : Decimal} {id : String}
    (hid : id ∈ orderIds (book.queue side price)) (hid' : id ∈ orderIds (book.queue side' price')) :
    side' = side ∧ price' = price := by
  obtain ⟨o, ho, rfl⟩ := List.mem_map.mp hid
  obtain ⟨o', ho', heq⟩ := List.mem_map.mp hid'
  obtain ⟨l, hl, ho⟩ := mem_queue ho
  obtain ⟨l', hl', ho'⟩ := mem_queue ho'
  have hmem : o.orderId ∈ orderIds l'.orders := heq ▸ mem_orderIds ho'
  obtain ⟨rfl, rfl⟩ := h.level_unique hl hl' (mem_orderIds ho) hmem
  exact ⟨rfl, rfl⟩

theorem Inv.queued_not_joining {book : OrderBook} (h : Inv book) {side : Side} {price : Decimal} {id : String}
    (hid : id ∈ orderIds (book.queue side price)) {orders : List Order} (hnew : id ∉ orderIds orders) :
    id ∉ orderIds (orders ++ book.stopOrders) := by
  obtain ⟨o, ho, rfl⟩ := List.mem_map.mp hid
  obtain ⟨l, hl, ho⟩ := mem_queue ho
  rw [orderIds, List.map_append]
  exact fun hin => (List.mem_append.mp hin).elim hnew (h.queued_not_pending hl (mem_orderIds ho))

/-- **The position of an order in its queue only improves.**  Whatever is called on a reachable book, as long as the
order rests and its identifier is not submitted again: it rests at the same price, with no more than it had left, and
of the orders ahead of it in its queue some have left, some have shrunk, and none has come. -/
theorem queue_position_improves {before ops : List BookOp} {earlier replies : List BookReply} {book book' : OrderBook}
    (hreached : bookRun before = .ok (earlier, book)) (hrun : Machine.run OrderBook.exec book ops = .ok (replies, book'))
    {side : Side} {price : Decimal} {o : Order} (ho : o ∈ book.queue side price)
    (hnew : o.orderId ∉ orderIds (submittedOrders ops)) {side' : Side} {price' : Decimal} {o' : Order}
    (ho' : o' ∈ book'.queue side' price') (hid : o'.orderId = o.orderId) :
    side' = side ∧ price' = price ∧ Shrunk o' o ∧
      List.SublistForall₂ Shrunk (ahead Order.orderId o.orderId (book'.queue side price))
        (ahead Order.orderId o.orderId (book.queue side price)) := by
  have hinv := (bookRun_history (P := fun _ _ _ => True) trivial (fun _ _ _ _ _ _ _ _ _ => trivial) hreached).1
  have horderly := run_orderly ops hinv hrun
  have hjoins := hinv.queued_not_joining (mem_orderIds ho) hnew
  have hmem' : o.orderId ∈ orderIds (book'.queue side' price') := hid ▸ mem_orderIds ho'
  obtain ⟨rfl, rfl⟩ := hinv.queue_unique (mem_orderIds ho)
    ((horderly.moves side' price').mem Shrunk.orderId hmem' hjoins)
  obtain ⟨o'', ho'', hshrunk⟩ := (horderly.moves side' price').related ho' (hid ▸ hjoins)
  have hsame : o'' = o := List.inj_on_of_nodup_map (queue_nodup hinv side' price') ho'' ho
    (hshrunk.orderId.symm.trans hid)
  exact ⟨rfl, rfl, hsame ▸ hshrunk, (horderly.moves side' price').ahead Shrunk.orderId (queue_nodup hinv side' price')
    hmem' hjoins⟩

/-- Two offers at one price. -/
def twoOffers : List BookOp :=
  [.submit (fun _ => "t") (Order.limit "first" "u1" .sell 100 2),
    .submit (fun _ => "t") (Order.limit "second" "u2" .sell 100 3)]

/-- A bid that takes half of the first one. -/
def offerHalfTaken : List BookOp := [.submit (fun _ => "t") (Order.limit "bid" "u3" .buy 100 1)]

/-- An order of the queue below. -/
def waiting (order : Order) (sequence : ℕ) : Order := { order with sequence := sequence }

theorem twoOffers_run :
    ∃ earlier book replies book', bookRun twoOffers = .ok (earlier, book) ∧
      Machine.run OrderBook.exec book offerHalfTaken = .ok (replies, book') ∧
      book.queue .sell 100 = [waiting (Order.limit "first" "u1" .sell 100 2) 1,
        waiting (Order.limit "second" "u2" .sell 100 3) 2] ∧
      book'.queue .sell 100 = [(waiting (Order.limit "first" "u1" .sell 100 2) 1).reduce 1,
        waiting (Order.limit "second" "u2" .sell 100 3) 2] := by
  have hqueues : (bookRun twoOffers).bind (fun r => (Machine.run OrderBook.exec r.2 offerHalfTaken).map fun r' =>
      (r.2.queue .sell 100, r'.2.queue .sell 100)) = .ok ([waiting (Order.limit "first" "u1" .sell 100 2) 1,
        waiting (Order.limit "second" "u2" .sell 100 3) 2], [(waiting (Order.limit "first" "u1" .sell 100 2) 1).reduce 1,
        waiting (Order.limit "second" "u2" .sell 100 3) 2]) := by decide +kernel
  cases hrun : bookRun twoOffers with
  | error e =>
      rw [hrun] at hqueues
      cases hqueues
  | ok r =>
      rw [hrun, Except.bind] at hqueues
      cases hrun' : Machine.run OrderBook.exec r.2 offerHalfTaken with
      | error e =>
          simp only [hrun', Except.map] at hqueues
          cases hqueues
      | ok r' =>
          simp only [hrun', Except.map] at hqueues
          obtain ⟨hqueue, hqueue'⟩ := Prod.mk.inj (Except.ok.inj hqueues)
          exact ⟨r.1, r.2, r'.1, r'.2, rfl, hrun', hqueue, hqueue'⟩

theorem queue_position_improves_halfTaken :
    ∃ earlier book replies book', bookRun twoOffers = .ok (earlier, book) ∧
      Machine.run OrderBook.exec book offerHalfTaken = .ok (replies, book') ∧
      List.SublistForall₂ Shrunk (ahead Order.orderId "second" (book'.queue .sell 100))
        (ahead Order.orderId "second" (book.queue .sell 100)) := by
  obtain ⟨earlier, book, replies, book', hreached, hrun, hqueue, hqueue'⟩ := twoOffers_run
  have ho : waiting (Order.limit "second" "u2" .sell 100 3) 2 ∈ book.queue .sell 100 := by
    rw [hqueue]
    exact List.mem_cons_of_mem _ List.mem_cons_self
  have ho' : waiting (Order.limit "second" "u2" .sell 100 3) 2 ∈ book'.queue .sell 100 := by
    rw [hqueue']
    exact List.mem_cons_of_mem _ List.mem_cons_self
  exact ⟨earlier, book, replies, book', hreached, hrun,
    (queue_position_improves hreached hrun ho (by decide) ho' rfl).2.2.2⟩

/-- **No order is overtaken.**  Of two orders that rest in a reachable book, on one side, let the first come before the
second one, at a better price or ahead of it in their queue.  Whatever is called, as long as the first one rests, no
fill takes the second one, and the first comes before it; their identifiers are not submitted again. -/
theorem no_order_is_overtaken {before ops : List BookOp} {earlier replies : List BookReply} {book book' : OrderBook}
    (hreached : bookRun before = .ok (earlier, book)) (hrun : Machine.run OrderBook.exec book ops = .ok (replies, book'))
    {side : Side} {price price' : Decimal} {o o' : Order} (ho : o ∈ book.queue side price)
    (ho' : o' ∈ book.queue side price') (hprecedes : Precedes book side price price' o.orderId o'.orderId)
    (hnew : o.orderId ∉ orderIds (submittedOrders ops)) (hnew' : o'.orderId ∉ orderIds (submittedOrders ops))
    (hrests : o.orderId ∈ orderIds (book'.queue side price)) :
    (∀ f ∈ replies.flatMap BookReply.fills, f.makerOrderId ≠ o'.orderId) ∧
      Precedes book' side price price' o.orderId o'.orderId := by
  have hinv := (bookRun_history (P := fun _ _ _ => True) trivial (fun _ _ _ _ _ _ _ _ _ => trivial) hreached).1
  have horderly := run_orderly ops hinv hrun
  have hjoins := hinv.queued_not_joining (mem_orderIds ho) hnew
  have hjoins' := hinv.queued_not_joining (mem_orderIds ho') hnew'
  have hranks : Outranks book side price price' o.orderId o'.orderId :=
    ⟨mem_orderIds ho, fun _ _ hin => hinv.queue_unique (mem_orderIds ho') hin, hprecedes⟩
  exact ⟨horderly.fair side price price' _ _ hjoins hjoins' hranks hrests,
    (horderly.outranks hinv hjoins hjoins' hranks hrests).first⟩

theorem no_order_is_overtaken_halfTaken :
    ∃ earlier book replies book', bookRun twoOffers = .ok (earlier, book) ∧
      Machine.run OrderBook.exec book offerHalfTaken = .ok (replies, book') ∧
      ∀ f ∈ replies.flatMap BookReply.fills, f.makerOrderId ≠ "second" := by
  obtain ⟨earlier, book, replies, book', hreached, hrun, hqueue, hqueue'⟩ := twoOffers_run
  have ho : waiting (Order.limit "first" "u1" .sell 100 2) 1 ∈ book.queue .sell 100 := by
    rw [hqueue]
    exact List.mem_cons_self
  have hother : waiting (Order.limit "second" "u2" .sell 100 3) 2 ∈ book.queue .sell 100 := by
    rw [hqueue]
    exact List.mem_cons_of_mem _ List.mem_cons_self
  have hprecedes : Precedes book .sell 100 100 "first" "second" := by
    refine Or.inr ⟨rfl, ?_⟩
    rw [hqueue]
    decide
  have hrests : "first" ∈ orderIds (book'.queue .sell 100) := by
    rw [hqueue']
    exact List.mem_cons_self
  exact ⟨earlier, book, replies, book', hreached, hrun,
    (no_order_is_overtaken hreached hrun ho hother hprecedes (by decide) (by decide) hrests).1⟩

end NexusTrade.MatchingEngine
