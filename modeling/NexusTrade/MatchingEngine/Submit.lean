import NexusTrade.MatchingEngine.Matching

/-!
# Submitting an order

What `submit` can do to a book, said once.

* **`LoopInv`** is the invariant of the matching loop: the representation invariant, and an incoming
  order that is neither queued nor pending and arrived after everything that is queued;
* **`Settled`** and **`Executed`** list how the loop can end; **`Submitted`** lists the outcomes of
  `submit` with the guards under which each is taken;
* **`submit_spec`**: from a book with the representation invariant `submit` returns, its outcome is one
  of `Submitted`, and the invariant holds again;
* **`Absent`** is the frame: an identifier that a book does not know stays unknown until it is submitted.
-/

namespace NexusTrade.MatchingEngine

/-! ### The loop invariant -/

/-- What every pass of the matching loop keeps. -/
structure LoopInv (s : MatchState) : Prop where
  book : Inv s.book
  unqueued : s.book.orderIndex.find s.incoming.orderId = none
  unpending : s.incoming.orderId ∉ orderIds s.book.stopOrders
  numbered : s.incoming.sequence = s.book.nextSequence
  last : ∀ side p l, s.book.level side p = some l → ∀ o ∈ l.orders,
    o.sequence < s.incoming.sequence
  nonneg : 0 ≤ s.incoming.remainingQuantity

/-- An order that may enter the book. -/
structure Admissible (book : OrderBook) (o : Order) : Prop where
  fresh : book.status.find o.orderId = none
  unqueued : book.orderIndex.find o.orderId = none
  positive : 0 < o.remainingQuantity
  priced : requiresPrice o.kind = true → o.price.isSome

/-- An identifier without a status entry is not pending. -/
theorem Inv.unpending {book : OrderBook} (h : Inv book) {id : String}
    (hid : book.status.find id = none) : id ∉ orderIds book.stopOrders := by
  intro hin
  obtain ⟨o, ho, rfl⟩ := List.mem_map.mp hin
  rw [(h.pending o ho).status] at hid
  cases hid

theorem LoopInv.start {book : OrderBook} {o : Order} (h : Inv book) (ha : Admissible book o) :
    LoopInv (book.startMatch o) where
  book := h.nextSequenced
  unqueued := ha.unqueued
  unpending := h.unpending ha.fresh
  numbered := rfl
  last := fun side p l hl o' ho' => by
    have hl' : book.level side p = some l :=
      (OrderBook.level_congr (book.levels_nextSequenced side) p).symm.trans hl
    exact Nat.lt_succ_of_le ((h.level side p l hl').bounded o' ho')
  nonneg := ha.positive.le

/-- **A trade keeps the loop invariant.** -/
theorem LoopInv.step {uuid : UuidSource} {s t : MatchState} (h : LoopInv s)
    (hst : TradeStep uuid s t) : LoopInv t := by
  obtain ⟨price, level, resting, queue, hc, rfl⟩ := hst
  refine ⟨hc.trade_inv h.book uuid, ?_, ?_, ?_, ?_, ?_⟩
  · show (s.trade uuid price level resting queue).book.orderIndex.find s.incoming.orderId = none
    rw [s.index_trade, h.unqueued, ite_self]
  · rw [MatchState.trade_stopOrders]
    exact h.unpending
  · rw [MatchState.trade_nextSequence]
    exact h.numbered
  · intro side p l hl o ho
    show o.sequence < s.incoming.sequence
    rw [s.level_trade uuid price level resting queue side p hc.atLevel] at hl
    by_cases hsp : side = opposite s.incoming.side ∧ p = price
    · rw [if_pos hsp] at hl
      split at hl
      · cases hl
      · cases hl
        rcases CanTrade.mem_tradedLevel ho with ho | ⟨rfl, _⟩
        · exact h.last _ _ _ hc.atLevel o (by rw [hc.front]; exact List.mem_cons_of_mem _ ho)
        · exact h.last _ _ _ hc.atLevel resting hc.front_mem
    · rw [if_neg hsp] at hl
      exact h.last side p l hl o ho
  · exact sub_nonneg.mpr (min_le_left _ _)

/-- What each trade keeps, all trades keep. -/
theorem trades_preserve {uuid : UuidSource} {P : MatchState → Prop}
    (hstep : ∀ s t, P s → TradeStep uuid s t → P t) {s t : MatchState} (h : Trades uuid s t)
    (hs : P s) : P t := by
  induction h with
  | refl => exact hs
  | tail _ hst ih => exact hstep _ _ ih hst

theorem LoopInv.trades {uuid : UuidSource} {s t : MatchState} (h : LoopInv s)
    (hst : Trades uuid s t) : LoopInv t :=
  trades_preserve (fun _ _ hs hst => hs.step hst) hst h

/-- Trades change nothing of the incoming order but its remaining quantity. -/
theorem trades_incoming {uuid : UuidSource} {s t : MatchState} (h : Trades uuid s t) :
    t.incoming = { s.incoming with remainingQuantity := t.incoming.remainingQuantity } := by
  refine trades_preserve (P := fun t => t.incoming
    = { s.incoming with remainingQuantity := t.incoming.remainingQuantity }) ?_ h rfl
  intro t u ht htu
  obtain ⟨price, level, resting, queue, _, rfl⟩ := htu
  rw [MatchState.trade_incoming, Order.reduce, ht]

section Incoming

variable {uuid : UuidSource} {book : OrderBook} {o : Order} {t : MatchState}

/-- The order that trades is the one that was submitted. -/
theorem trades_orderId (h : Trades uuid (book.startMatch o) t) : t.incoming.orderId = o.orderId := by
  rw [trades_incoming h]
  rfl

theorem trades_side (h : Trades uuid (book.startMatch o) t) : t.incoming.side = o.side := by
  rw [trades_incoming h]
  rfl

theorem trades_kind (h : Trades uuid (book.startMatch o) t) : t.incoming.kind = o.kind := by
  rw [trades_incoming h]
  rfl

theorem trades_originalQuantity (h : Trades uuid (book.startMatch o) t) :
    t.incoming.originalQuantity = o.originalQuantity := by
  rw [trades_incoming h]
  rfl

end Incoming

/-! ### The end of the loop -/

/-- How the remainder of the incoming order is settled after the loop. -/
inductive Settled (s : MatchState) : OrderStatus → OrderBook → Prop
  | filled (hdone : s.incoming.remainingQuantity = 0) : Settled s .filled s.book
  | dropped (hleft : s.incoming.remainingQuantity ≠ 0)
      (hkind : s.incoming.kind = .market ∨ s.incoming.kind = .ioc) :
      Settled s (if s.fills.isEmpty then .rejected else .partiallyFilled) s.book
  | expired (hleft : s.incoming.remainingQuantity ≠ 0) (hkind : s.incoming.kind = .fok) :
      Settled s .expired s.book
  | rested (hleft : s.incoming.remainingQuantity ≠ 0)
      (hkind : s.incoming.kind ≠ .market ∧ s.incoming.kind ≠ .ioc ∧ s.incoming.kind ≠ .fok)
      (price : Decimal) (hprice : s.incoming.price = some price) :
      Settled s (if s.fills.isEmpty then .new else .partiallyFilled)
        (s.book.restAt s.incoming price)

/-- **What `settleRemainder` does.** -/
theorem settleRemainder_spec (s : MatchState)
    (hprice : s.incoming.kind ≠ .market → s.incoming.price.isSome) :
    ∃ st b, OrderBook.settleRemainder s = .ok (st, b) ∧ Settled s st b := by
  unfold OrderBook.settleRemainder
  by_cases hdone : s.incoming.remainingQuantity = 0
  · exact ⟨_, _, by rw [if_pos hdone], .filled hdone⟩
  rw [if_neg hdone]
  by_cases himmediate : s.incoming.kind = .market ∨ s.incoming.kind = .ioc
  · exact ⟨_, _, by rw [if_pos himmediate], .dropped hdone himmediate⟩
  rw [if_neg himmediate]
  by_cases hfok : s.incoming.kind = .fok
  · exact ⟨_, _, by rw [if_pos hfok], .expired hdone hfok⟩
  rw [if_neg hfok]
  obtain ⟨hmarket, hioc⟩ := not_or.mp himmediate
  obtain ⟨price, hp⟩ := Option.isSome_iff_exists.mp (hprice hmarket)
  refine ⟨_, _, ?_, .rested hdone ⟨hmarket, hioc, hfok⟩ price hp⟩
  rw [OrderBook.rest, hp]
  rfl

/-- What is not crossed by a priced order lies beyond its price. -/
theorem beyond_of_not_crosses {o : Order} {price p : Decimal} (hkind : o.kind ≠ .market)
    (hprice : o.price = some price) (h : crosses o p = false) :
    ¬OrderBook.betterOrEqual o.side price p := by
  unfold crosses at h
  cases hside : o.side <;> cases hk : o.kind <;> simp_all [OrderBook.betterOrEqual]

/-- **Resting keeps the invariant**, for what the loop leaves of an order. -/
theorem LoopInv.restAt {s : MatchState} (h : LoopInv s) (hexhausted : Exhausted s)
    (hleft : s.incoming.remainingQuantity ≠ 0) (hkind : s.incoming.kind ≠ .market)
    {price : Decimal} (hprice : s.incoming.price = some price) :
    Inv (s.book.restAt s.incoming price) := by
  have hpos : 0 < s.incoming.remainingQuantity := lt_of_le_of_ne h.nonneg (Ne.symm hleft)
  refine h.book.of_levelGrow (s.book.level_restAt s.incoming price)
    (fun id => s.book.find_orderIndex_restAt s.incoming price id) (by simp) (by simp) ?_
    ⟨rfl, hprice, hpos⟩ h.unqueued h.unpending ?_ h.numbered.le ?_
  · intro o ho
    have hne : o.orderId ≠ s.incoming.orderId := fun e => h.unpending (e ▸ List.mem_map_of_mem ho)
    exact s.book.pending_restAt hne (h.book.pending o ho).status
  · intro o ho
    rw [OrderBook.levelOrEmpty] at ho
    cases hl : s.book.level s.incoming.side price with
    | none => rw [hl] at ho; cases ho
    | some l => rw [hl] at ho; exact h.last _ _ l hl o ho
  · intro p l hl
    have hcross : crosses s.incoming p = false :=
      (hexhausted.resolve_left (not_le.mpr hpos)) p l hl
    exact beyond_of_not_crosses hkind hprice hcross

/-- Closing an order that is not pending keeps the invariant. -/
theorem Inv.close {book : OrderBook} (h : Inv book) {id : String}
    (hid : id ∉ orderIds book.stopOrders) (st : OrderStatus) (q : Decimal) :
    Inv (book.close id st q) :=
  (h.setStatus hid st q).pruneStatusLog.pruneAuditLog

/-- **How an order that went through the loop leaves the book.** -/
inductive Executed (uuid : UuidSource) (book : OrderBook) (incoming : Order) :
    ExecutionReport → OrderBook → Prop
  | blocked (t : MatchState) (trades : Trades uuid (book.startMatch incoming) t) (inv : LoopInv t)
      (blocked : ∃ price level resting queue, Blocked t price level resting queue) :
      Executed uuid book incoming (OrderBook.selfTradeExit t).1 (OrderBook.selfTradeExit t).2
  | finished (t : MatchState) (trades : Trades uuid (book.startMatch incoming) t) (inv : LoopInv t)
      (exhausted : Exhausted t) (st : OrderStatus) (settled : OrderBook)
      (hsettled : Settled t st settled) :
      Executed uuid book incoming (OrderBook.finishReport t st)
        (settled.close t.incoming.orderId st
          (t.incoming.originalQuantity - t.incoming.remainingQuantity))

/-- A report that is not accepted has no fills. -/
theorem Executed.no_fills {uuid : UuidSource} {book book' : OrderBook} {incoming : Order}
    {report : ExecutionReport} (hx : Executed uuid book incoming report book')
    (h : report.accepted = false) : report.fills = [] := by
  cases hx with
  | blocked t _ _ _ =>
      have hempty : (!t.fills.isEmpty) = false := h
      rw [Bool.not_eq_false', List.isEmpty_iff] at hempty
      exact hempty
  | finished t _ _ _ _ _ _ => cases h

/-- What settling the remainder leaves alone: the stop orders, and the invariant. -/
theorem Settled.inv {s : MatchState} {st : OrderStatus} {b : OrderBook} (hs : Settled s st b)
    (h : LoopInv s) (hexhausted : Exhausted s) :
    Inv b ∧ b.stopOrders = s.book.stopOrders := by
  cases hs with
  | filled _ => exact ⟨h.book, rfl⟩
  | dropped _ _ => exact ⟨h.book, rfl⟩
  | expired _ _ => exact ⟨h.book, rfl⟩
  | rested hleft hkind price hprice =>
      exact ⟨h.restAt hexhausted hleft hkind.1 hprice, OrderBook.restAt_stopOrders _ _ _⟩

/-- **Execution returns** and keeps the invariant. -/
theorem execute_spec (uuid : UuidSource) {book : OrderBook} {incoming : Order} (h : Inv book)
    (ha : Admissible book incoming) (hkind : incoming.kind.isStop = false) :
    ∃ report book', book.execute uuid incoming = .ok (report, book') ∧ Inv book' ∧
      Executed uuid book incoming report book' := by
  have hstart := LoopInv.start h ha
  have hlength : ((book.startMatch incoming).book.opposingOrders
      (book.startMatch incoming).incoming.side).length
        < (book.opposingOrders incoming.side).length + 1 := Nat.lt_succ_self _
  obtain ⟨t, htrades, _, hres⟩ := matchLoop_returns uuid _ _ hstart.book (Or.inr hlength)
  have ht := hstart.trades htrades
  rcases hres with ⟨hloop, hexhausted⟩ | ⟨hloop, hblocked⟩
  · have hprice : t.incoming.kind ≠ .market → t.incoming.price.isSome := by
      rw [trades_incoming htrades]
      intro hk
      refine ha.priced ?_
      have hk' : incoming.kind ≠ .market := hk
      cases hkd : incoming.kind <;> simp_all [requiresPrice, OrderKind.isStop]
    obtain ⟨st, b, hsettle, hsettled⟩ := settleRemainder_spec t hprice
    obtain ⟨hb, hstops⟩ := hsettled.inv ht hexhausted
    refine ⟨_, _, ?_, ?_, .finished t htrades ht hexhausted st b hsettled⟩
    · rw [OrderBook.execute, hloop]
      simp only [ok_bind, Bool.false_eq_true, if_false]
      rw [OrderBook.finish, hsettle]
      rfl
    · exact hb.close (by rw [hstops]; exact ht.unpending) _ _
  · refine ⟨_, _, ?_, ?_, .blocked t htrades ht hblocked⟩
    · rw [OrderBook.execute, hloop]
      rfl
    · exact ht.book.setStatus ht.unpending _ _

/-! ### The outcomes of a submission -/

/-- Why `submit` refuses an order before matching. -/
inductive Refused (book : OrderBook) (incoming : Order) : String → Prop
  | duplicate (hknown : book.status.contains incoming.orderId = true ∨
      book.orderIndex.contains incoming.orderId = true) :
      Refused book incoming "duplicate order_id"
  | quantity (hquantity : incoming.remainingQuantity ≤ 0) :
      Refused book incoming "quantity must be positive"
  | price (hkind : requiresPrice incoming.kind = true) (hprice : incoming.price = none) :
      Refused book incoming "limit-style orders require price"
  | stopPrice (hkind : incoming.kind.isStop = true) (hstop : incoming.stopPrice = none) :
      Refused book incoming "stop orders require stop_price"
  | postOnly (hkind : incoming.kind = .postOnly) (hcross : book.wouldCross incoming = true) :
      Refused book incoming "post-only order would take liquidity"

/-- The report of a stop order that is held. -/
def heldReport (incoming : Order) : ExecutionReport where
  orderId := incoming.orderId
  accepted := true
  status := .pendingStop
  fills := []
  rejectReason := none

/-- The report of a fill-or-kill order that cannot be filled. -/
def killedReport (incoming : Order) : ExecutionReport where
  orderId := incoming.orderId
  accepted := true
  status := .expired
  fills := []
  rejectReason := none

/-- **The outcomes of `submit`.** -/
inductive Submitted (uuid : UuidSource) (book : OrderBook) (incoming : Order) :
    ExecutionReport → OrderBook → Prop
  | refused (reason : String) (why : Refused book incoming reason) :
      Submitted uuid book incoming (OrderBook.rejected incoming.orderId reason) book
  | held (admissible : Admissible book incoming) (hkind : incoming.kind.isStop = true)
      (hstop : incoming.stopPrice.isSome) :
      Submitted uuid book incoming (heldReport incoming) (book.holdStop incoming).2
  | killed (admissible : Admissible book incoming) (hkind : incoming.kind = .fok)
      (hshort : book.availableCrossingQuantity incoming < incoming.remainingQuantity) :
      Submitted uuid book incoming (killedReport incoming) book
  | executed (admissible : Admissible book incoming) (hkind : incoming.kind.isStop = false)
      (hpost : incoming.kind = .postOnly → book.wouldCross incoming = false)
      (hfok : incoming.kind = .fok →
        incoming.remainingQuantity ≤ book.availableCrossingQuantity incoming)
      (report : ExecutionReport) (book' : OrderBook)
      (result : Executed uuid book incoming report book') :
      Submitted uuid book incoming report book'

theorem Submitted.no_fills {uuid : UuidSource} {book book' : OrderBook} {incoming : Order}
    {report : ExecutionReport} (hx : Submitted uuid book incoming report book')
    (h : report.accepted = false) : report.fills = [] := by
  cases hx with
  | refused | held | killed => rfl
  | executed _ _ _ _ _ _ result => exact result.no_fills h

/-- **Holding a stop order keeps the invariant.** -/
theorem Inv.holdStop {book : OrderBook} {incoming : Order} (h : Inv book)
    (ha : Admissible book incoming) (hkind : incoming.kind.isStop = true)
    (hstop : incoming.stopPrice.isSome) : Inv (book.holdStop incoming).2 := by
  have hpend := h.unpending ha.fresh
  have hkept : Inv ((book.nextSequenced.setStatus incoming.orderId .pendingStop 0).pruneStatusLog) :=
    (h.nextSequenced.setStatus hpend _ _).pruneStatusLog
  have hlevels : ∀ side, (book.holdStop incoming).2.levels side
      = ((book.nextSequenced.setStatus incoming.orderId .pendingStop 0).pruneStatusLog).levels side :=
    fun side => OrderBook.levels_setStopOrders _ _ side
  have hlevel := fun side p => OrderBook.level_congr (hlevels side) p
  refine ⟨?_, ?_, ?_, ?_, ?_⟩
  · intro side p l hl
    rw [hlevel] at hl
    exact hkept.level side p l hl
  · intro id side p
    simp only [hlevel]
    exact hkept.index id side p
  · intro bid ask lb la hb hl
    rw [hlevel] at hb hl
    exact hkept.uncrossed bid ask lb la hb hl
  · intro o ho
    rcases List.mem_append.mp ho with ho | ho
    · have ho' : o ∈ book.stopOrders := by simpa using ho
      have hp := hkept.pending o (by simpa using ho')
      exact ⟨hp.stopPrice, hp.kind, hp.price, hp.positive, hp.status, hp.unindexed⟩
    · rw [List.mem_singleton.mp ho]
      refine ⟨hstop, hkind, ha.priced, ha.positive, ?_, ?_⟩
      · exact OrderBook.find_pruneStatusLog_pending _ (by simp)
      · show (OrderBook.pruneStatusLog _).orderIndex.find incoming.orderId = none
        simp [ha.unqueued]
  · show (orderIds (_ ++ [_])).Nodup
    rw [orderIds, List.map_append, List.nodup_append]
    refine ⟨by simpa [orderIds] using h.pendingIds, by simp, ?_⟩
    intro a hin c hc
    rw [List.map_singleton, List.mem_singleton] at hc
    rintro rfl
    subst hc
    exact hpend (by simpa [orderIds] using hin)

/-- **What `submit` does**: it returns, and the representation invariant holds again. -/
theorem submit_spec (uuid : UuidSource) {book : OrderBook} (h : Inv book) (incoming : Order) :
    ∃ report book', book.submit uuid incoming = .ok (report, book') ∧ Inv book' ∧
      Submitted uuid book incoming report book' := by
  unfold OrderBook.submit
  by_cases hdup : (book.status.contains incoming.orderId
      || book.orderIndex.contains incoming.orderId) = true
  · exact ⟨_, _, by rw [if_pos hdup], h, .refused _ (.duplicate (by simpa using hdup))⟩
  rw [if_neg hdup]
  by_cases hpos : incoming.remainingQuantity ≤ 0
  · exact ⟨_, _, by rw [if_pos hpos], h, .refused _ (.quantity hpos)⟩
  rw [if_neg hpos]
  by_cases hprice : (requiresPrice incoming.kind && incoming.price.isNone) = true
  · obtain ⟨hk, hp⟩ := (Bool.and_eq_true _ _).mp hprice
    exact ⟨_, _, by rw [if_pos hprice], h, .refused _ (.price hk (Option.isNone_iff_eq_none.mp hp))⟩
  rw [if_neg hprice]
  obtain ⟨hstatus, hindex⟩ := not_or.mp (fun hor => hdup ((Bool.or_eq_true _ _).mpr hor))
  have ha : Admissible book incoming := by
    refine ⟨?_, ?_, not_le.mp hpos, ?_⟩
    · exact (SortedMap.contains_eq_false_iff _ _).mp (Bool.eq_false_iff.mpr hstatus)
    · exact (SortedMap.contains_eq_false_iff _ _).mp (Bool.eq_false_iff.mpr hindex)
    · intro hk
      cases hp : incoming.price with
      | none => exact absurd (by rw [hk, hp]; rfl) hprice
      | some price => rfl
  cases hstop : incoming.kind.isStop with
  | true =>
      rw [if_pos rfl]
      by_cases hsp : incoming.stopPrice.isNone = true
      · refine ⟨_, _, by rw [if_pos hsp], h, .refused _ (.stopPrice hstop ?_)⟩
        exact Option.isNone_iff_eq_none.mp hsp
      · rw [if_neg hsp]
        have hsome : incoming.stopPrice.isSome := by
          simpa [Option.isSome_iff_ne_none, Option.isNone_iff_eq_none] using hsp
        exact ⟨_, _, rfl, h.holdStop ha hstop hsome, .held ha hstop hsome⟩
  | false =>
      rw [if_neg Bool.false_ne_true]
      by_cases hpost : incoming.kind = .postOnly ∧ book.wouldCross incoming = true
      · exact ⟨_, _, by rw [if_pos hpost], h, .refused _ (.postOnly hpost.1 hpost.2)⟩
      rw [if_neg hpost]
      by_cases hfok : incoming.kind = .fok
          ∧ book.availableCrossingQuantity incoming < incoming.remainingQuantity
      · exact ⟨_, _, by rw [if_pos hfok]; rfl, h, .killed ha hfok.1 hfok.2⟩
      rw [if_neg hfok]
      obtain ⟨report, book', hexec, hinv, hresult⟩ := execute_spec uuid h ha hstop
      refine ⟨report, book', hexec, hinv, .executed ha hstop ?_ ?_ report book' hresult⟩
      · intro hk
        exact Bool.eq_false_iff.mpr fun hc => hpost ⟨hk, hc⟩
      · intro hk
        exact not_lt.mp fun hlt => hfok ⟨hk, hlt⟩

/-- **Inversion of `submit`.** -/
theorem submit_inv {uuid : UuidSource} {book book' : OrderBook} {incoming : Order}
    {report : ExecutionReport} (h : Inv book)
    (hsubmit : book.submit uuid incoming = .ok (report, book')) :
    Inv book' ∧ Submitted uuid book incoming report book' := by
  obtain ⟨report', book'', hs, hinv, hsub⟩ := submit_spec uuid h incoming
  rw [hsubmit] at hs
  cases hs
  exact ⟨hinv, hsub⟩

/-! ### What a submission leaves alone -/

/-- The book does not know the identifier. -/
structure Absent (book : OrderBook) (id : String) : Prop where
  status : book.status.find id = none
  index : book.orderIndex.find id = none
  stops : id ∉ orderIds book.stopOrders

theorem Absent.step {uuid : UuidSource} {s t : MatchState} {id : String} (h : Absent s.book id)
    (hs : Inv s.book) (hst : TradeStep uuid s t) : Absent t.book id := by
  obtain ⟨price, level, resting, queue, hc, rfl⟩ := hst
  have hindex : s.book.orderIndex.find resting.orderId
      = some (opposite s.incoming.side, price) := by
    exact (hs.index _ _ _).mpr ⟨level, hc.atLevel, hc.front_id⟩
  have hne : id ≠ resting.orderId := by
    rintro rfl
    rw [h.index] at hindex
    cases hindex
  refine ⟨?_, ?_, ?_⟩
  · refine Option.eq_none_iff_forall_ne_some.mpr fun e he => ?_
    rcases s.find_of_trade uuid price level resting queue he with ⟨hid, _⟩ | ⟨_, he⟩
    · exact hne hid
    · rw [h.status] at he
      cases he
  · rw [s.index_trade, h.index, ite_self]
  · rw [MatchState.trade_stopOrders]
    exact h.stops

theorem Absent.trades {uuid : UuidSource} {s t : MatchState} {id : String} (h : Absent s.book id)
    (hs : LoopInv s) (hst : Trades uuid s t) : Absent t.book id :=
  (trades_preserve (P := fun t => LoopInv t ∧ Absent t.book id)
    (fun _ _ h hst => ⟨h.1.step hst, h.2.step h.1.book hst⟩) hst ⟨hs, h⟩).2

theorem Absent.close {book : OrderBook} {id oid : String} (h : Absent book id) (hne : id ≠ oid)
    (st : OrderStatus) (q : Decimal) : Absent (book.close oid st q) id := by
  refine ⟨?_, by rw [OrderBook.close_orderIndex]; exact h.index,
    by rw [OrderBook.close_stopOrders]; exact h.stops⟩
  refine Option.eq_none_iff_forall_ne_some.mpr fun e he => ?_
  rcases book.find_of_close he with ⟨hid, _⟩ | ⟨_, he⟩
  · exact hne hid
  · rw [h.status] at he
    cases he

theorem Absent.settled {s : MatchState} {st : OrderStatus} {b : OrderBook} {id : String}
    (h : Absent s.book id) (hne : id ≠ s.incoming.orderId) (hs : Settled s st b) : Absent b id := by
  cases hs with
  | filled _ => exact h
  | dropped _ _ => exact h
  | expired _ _ => exact h
  | rested _ _ price _ =>
      refine ⟨?_, ?_, ?_⟩
      · refine Option.eq_none_iff_forall_ne_some.mpr fun e he => ?_
        rcases s.book.find_of_restAt he with ⟨hid, _⟩ | ⟨_, he⟩
        · exact hne hid
        · rw [h.status] at he
          cases he
      · rw [OrderBook.find_orderIndex_restAt, if_neg hne]
        exact h.index
      · rw [OrderBook.restAt_stopOrders]
        exact h.stops

/-- **Execution leaves unknown identifiers unknown**, and the stop orders as they are. -/
theorem Executed.frame {uuid : UuidSource} {book book' : OrderBook} {incoming : Order}
    {report : ExecutionReport} (hx : Executed uuid book incoming report book') (h : Inv book)
    (ha : Admissible book incoming) :
    book'.stopOrders = book.stopOrders ∧
      ∀ id, id ≠ incoming.orderId → Absent book id → Absent book' id := by
  have hstart := LoopInv.start h ha
  have hstops : ∀ t, Trades uuid (book.startMatch incoming) t →
      t.book.stopOrders = book.stopOrders := fun t ht =>
    trades_preserve (P := fun t => t.book.stopOrders = book.stopOrders)
      (fun s u hs ⟨price, level, resting, queue, _, hu⟩ => by
        rw [hu, MatchState.trade_stopOrders]
        exact hs) ht rfl
  have hid : ∀ t, Trades uuid (book.startMatch incoming) t →
      t.incoming.orderId = incoming.orderId := fun t ht => trades_orderId ht
  have habsent : ∀ id t, Trades uuid (book.startMatch incoming) t → Absent book id →
      Absent t.book id := fun id t ht hab =>
    Absent.trades (s := book.startMatch incoming) ⟨hab.status, hab.index, hab.stops⟩ hstart ht
  cases hx with
  | blocked t trades inv _ =>
      refine ⟨hstops t trades, fun id hne hab => ?_⟩
      have ht := habsent id t trades hab
      refine ⟨?_, ht.index, ht.stops⟩
      show (t.book.setStatus _ _ _).status.find id = none
      rw [OrderBook.find_setStatus, hid t trades, if_neg hne]
      exact ht.status
  | finished t trades inv exhausted st settled hsettled =>
      refine ⟨?_, fun id hne hab => ?_⟩
      · rw [OrderBook.close_stopOrders, (hsettled.inv inv exhausted).2]
        exact hstops t trades
      · have hne' : id ≠ t.incoming.orderId := by rw [hid t trades]; exact hne
        exact ((habsent id t trades hab).settled hne' hsettled).close hne' _ _

/-- **A submission leaves other unknown identifiers unknown.** -/
theorem Submitted.absent {uuid : UuidSource} {book book' : OrderBook} {incoming : Order}
    {report : ExecutionReport} (hx : Submitted uuid book incoming report book') (h : Inv book)
    {id : String} (hne : id ≠ incoming.orderId) (hab : Absent book id) : Absent book' id := by
  cases hx with
  | refused _ _ => exact hab
  | held _ _ _ =>
      refine ⟨?_, ?_, ?_⟩
      · refine OrderBook.find_pruneStatusLog_none _ ?_
        rw [OrderBook.find_setStatus, if_neg hne]
        exact hab.status
      · show (OrderBook.pruneStatusLog _).orderIndex.find id = none
        simp [hab.index]
      · show id ∉ orderIds (_ ++ [_])
        rw [orderIds, List.map_append, List.mem_append, not_or]
        exact ⟨by simpa [orderIds] using hab.stops, by simpa using hne⟩
  | killed _ _ _ => exact hab
  | executed admissible _ _ _ _ _ result => exact (result.frame h admissible).2 id hne hab

end NexusTrade.MatchingEngine
