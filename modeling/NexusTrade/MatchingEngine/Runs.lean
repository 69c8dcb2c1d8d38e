import NexusTrade.Lib.Run
import NexusTrade.MatchingEngine.Stops

/-!
# Runs of the order book

Any sequence of `submit`, `cancel` and `trigger_stops` calls on one book, from the empty book.

* **`OrderBook.exec`** makes one call, `bookRun` a sequence of them;
* **`exec_spec`** is the step lemma: each call returns, with the outcome its specification lists;
* **`OrderBook.Represents`** states the representation invariant in terms of the entries of the maps,
  and **`run_represents`** proves it of every run: no `expect` of the source is ever met by `None`.
-/

namespace NexusTrade.MatchingEngine

/-- A call on one order book, with the identifiers it can draw. -/
inductive BookOp
  | submit (uuid : UuidSource) (order : Order)
  | cancel (orderId userId : String)
  | triggerStops (uuid : UuidSource) (lastPrice : Decimal)

/-- What a call returns. -/
inductive BookReply
  | submitted (report : ExecutionReport)
  | cancelled (done : Bool)
  | triggered (reports : List ExecutionReport)
  deriving DecidableEq

/-- Make one call. -/
def OrderBook.exec (book : OrderBook) : BookOp → Except Panic (BookReply × OrderBook)
  | .submit uuid order => do
      let (report, book) ← book.submit uuid order
      .ok (.submitted report, book)
  | .cancel orderId userId => do
      let (done, book) ← book.cancel orderId userId
      .ok (.cancelled done, book)
  | .triggerStops uuid lastPrice => do
      let (reports, book) ← book.triggerStops uuid lastPrice
      .ok (.triggered reports, book)

/-- Make a sequence of calls on the empty book. -/
def bookRun (ops : List BookOp) : Except Panic (List BookReply × OrderBook) :=
  Machine.run OrderBook.exec OrderBook.default ops

/-! ### One call -/

/-- **The outcomes of one call.** -/
inductive Called (book : OrderBook) : BookOp → BookReply → OrderBook → Prop
  | submitted {uuid : UuidSource} {order : Order} {report : ExecutionReport} {book' : OrderBook}
      (result : Submitted uuid book order report book') :
      Called book (.submit uuid order) (.submitted report) book'
  | cancelled {orderId userId : String} {done : Bool} {book' : OrderBook}
      (result : Cancelled book orderId userId done book') :
      Called book (.cancel orderId userId) (.cancelled done) book'
  | triggered {uuid : UuidSource} {lastPrice : Decimal} {reports : List ExecutionReport}
      {book' : OrderBook}
      (result : ExecutedAll uuid (book.drained lastPrice) (book.setOff lastPrice) reports book') :
      Called book (.triggerStops uuid lastPrice) (.triggered reports) book'

/-- **One call returns** and keeps the invariant. -/
theorem exec_spec {book : OrderBook} (h : Inv book) (op : BookOp) :
    ∃ reply book', book.exec op = .ok (reply, book') ∧ Inv book' ∧ Called book op reply book' := by
  cases op with
  | submit uuid order =>
      obtain ⟨report, book', hs, hinv, hx⟩ := submit_spec uuid h order
      exact ⟨_, book', by rw [OrderBook.exec, hs, ok_bind], hinv, .submitted hx⟩
  | cancel orderId userId =>
      obtain ⟨done, book', hs, hinv, hx⟩ := cancel_spec h orderId userId
      exact ⟨_, book', by rw [OrderBook.exec, hs, ok_bind], hinv, .cancelled hx⟩
  | triggerStops uuid lastPrice =>
      obtain ⟨reports, book', hs, hinv, hx⟩ := triggerStops_spec uuid h lastPrice
      exact ⟨_, book', by rw [OrderBook.exec, hs, ok_bind], hinv, .triggered hx⟩

/-- **Inversion of one call.** -/
theorem exec_inv {book book' : OrderBook} {op : BookOp} {reply : BookReply} (h : Inv book)
    (hexec : book.exec op = .ok (reply, book')) : Inv book' ∧ Called book op reply book' := by
  obtain ⟨reply', book'', hs, hinv, hx⟩ := exec_spec h op
  rw [hexec] at hs
  cases hs
  exact ⟨hinv, hx⟩

/-- **Every run returns**, to a book with the invariant. -/
theorem bookRun_spec (ops : List BookOp) :
    ∃ replies book, bookRun ops = .ok (replies, book) ∧ Inv book :=
  Machine.run_total (fun book op h => by
    obtain ⟨reply, book', hexec, hinv, _⟩ := exec_spec h op
    exact ⟨reply, book', hexec, hinv⟩) ops OrderBook.default inv_default

/-- **Histories of the order book.**  What holds before any call and is kept by every call from a book
with the invariant holds of every run. -/
theorem bookRun_history {P : List BookOp → List BookReply → OrderBook → Prop}
    (hinit : P [] [] OrderBook.default)
    (hstep : ∀ ops replies book op reply book', Inv book → P ops replies book →
      Called book op reply book' → P (ops ++ [op]) (replies ++ [reply]) book')
    {ops : List BookOp} {replies : List BookReply} {book : OrderBook}
    (hrun : bookRun ops = .ok (replies, book)) : Inv book ∧ P ops replies book :=
  Machine.run_history (P := fun ops replies book => Inv book ∧ P ops replies book)
    ⟨inv_default, hinit⟩ (fun as rs s a r t h hexec => by
      obtain ⟨hinv, hx⟩ := exec_inv h.1 hexec
      exact ⟨hinv, hstep as rs s a r t h.1 h.2 hx⟩) ops replies book hrun

/-! ### The representation invariant, by entries -/

namespace OrderBook

/-- The orders queued on a side. -/
def queuedOrders (book : OrderBook) (side : Side) : List Order :=
  (book.levels side).entries.flatMap fun e => e.2.orders

/-- **The representation invariant** in terms of the entries of the maps. -/
structure Represents (book : OrderBook) : Prop where
  level : ∀ side, ∀ e ∈ (book.levels side).entries, e.2.price = e.1 ∧ e.2.orders ≠ [] ∧
    (∀ o ∈ e.2.orders, o.side = side ∧ o.price = some e.1 ∧ 0 < o.remainingQuantity) ∧
    e.2.totalQuantity = (e.2.orders.map Order.remainingQuantity).sum
  index : ∀ id side price, (id, side, price) ∈ book.orderIndex.entries ↔
    ∃ o ∈ book.queuedOrders side, o.orderId = id ∧ o.side = side ∧ o.price = some price
  ids : ((book.queuedOrders .buy ++ book.queuedOrders .sell ++ book.stopOrders).map
    Order.orderId).Nodup
  uncrossed : ∀ bid ask, book.bids.last = some bid → book.asks.first = some ask → bid.1 < ask.1
  sequence : ∀ side, ∀ e ∈ (book.levels side).entries,
    (e.2.orders.map Order.sequence).Pairwise (· < ·) ∧ ∀ o ∈ e.2.orders, o.sequence ≤ book.nextSequence
  stops : ∀ o ∈ book.stopOrders, o.stopPrice.isSome ∧ o.kind.isStop ∧
    ∃ entry, (o.orderId, entry) ∈ book.status.entries

end OrderBook

theorem mem_queuedOrders {book : OrderBook} {side : Side} {o : Order} :
    o ∈ book.queuedOrders side ↔ ∃ price l, book.level side price = some l ∧ o ∈ l.orders := by
  rw [OrderBook.queuedOrders, List.mem_flatMap]
  constructor
  · rintro ⟨⟨price, l⟩, he, ho⟩
    exact ⟨price, l, (SortedMap.mem_entries_iff _ _ _).mp he, ho⟩
  · rintro ⟨price, l, hl, ho⟩
    exact ⟨(price, l), (SortedMap.mem_entries_iff _ _ _).mpr hl, ho⟩

/-- A queued order is indexed. -/
theorem Inv.index_of_queued {book : OrderBook} (h : Inv book) {side : Side} {o : Order}
    (ho : o ∈ book.queuedOrders side) :
    ∃ price, o.side = side ∧ o.price = some price ∧
      book.orderIndex.find o.orderId = some (side, price) := by
  obtain ⟨price, l, hl, ho⟩ := mem_queuedOrders.mp ho
  obtain ⟨hside, hprice, _⟩ := (h.level _ _ _ hl).own o ho
  exact ⟨price, hside, hprice, (h.index _ _ _).mpr ⟨l, hl, mem_orderIds ho⟩⟩

/-- No identifier is queued twice on a side. -/
theorem Inv.queuedIds_nodup {book : OrderBook} (h : Inv book) (side : Side) :
    (orderIds (book.queuedOrders side)).Nodup := by
  rw [orderIds, OrderBook.queuedOrders, List.map_flatMap, List.nodup_flatMap]
  constructor
  · intro e he
    exact (h.level side e.1 e.2 ((SortedMap.mem_entries_iff _ _ _).mp he)).ids
  · refine List.Pairwise.imp_of_mem ?_ (book.levels side).sorted
    intro e e' he he' hlt id hid hid'
    obtain ⟨_, hprice⟩ := h.level_unique ((SortedMap.mem_entries_iff _ _ _).mp he)
      ((SortedMap.mem_entries_iff _ _ _).mp he') hid hid'
    exact absurd hprice (ne_of_gt hlt)

/-- **The invariant by lookups gives the invariant by entries.** -/
theorem Inv.represents {book : OrderBook} (h : Inv book) : book.Represents where
  level := fun side e he => by
    have hl := h.level side e.1 e.2 ((SortedMap.mem_entries_iff _ _ _).mp he)
    exact ⟨hl.price_eq, hl.nonempty, hl.own, hl.total⟩
  index := fun id side price => by
    rw [SortedMap.mem_entries_iff, h.index]
    constructor
    · rintro ⟨l, hl, hid⟩
      obtain ⟨o, ho, rfl⟩ := List.mem_map.mp hid
      obtain ⟨hside, hprice, _⟩ := (h.level _ _ _ hl).own o ho
      exact ⟨o, mem_queuedOrders.mpr ⟨price, l, hl, ho⟩, rfl, hside, hprice⟩
    · rintro ⟨o, ho, rfl, _, hprice⟩
      obtain ⟨price', l, hl, ho⟩ := mem_queuedOrders.mp ho
      have hprice' := ((h.level _ _ _ hl).own o ho).2.1
      rw [hprice] at hprice'
      cases hprice'
      exact ⟨l, hl, mem_orderIds ho⟩
  ids := by
    have hindexed : ∀ side id, id ∈ orderIds (book.queuedOrders side) →
        ∃ price, book.orderIndex.find id = some (side, price) := by
      intro side id hid
      obtain ⟨o, ho, rfl⟩ := List.mem_map.mp hid
      obtain ⟨price, _, _, hindex⟩ := h.index_of_queued ho
      exact ⟨price, hindex⟩
    show (orderIds _).Nodup
    rw [orderIds_append, orderIds_append, List.nodup_append, List.nodup_append]
    refine ⟨⟨h.queuedIds_nodup .buy, h.queuedIds_nodup .sell, ?_⟩, h.pendingIds, ?_⟩
    · intro a ha c hc
      rintro rfl
      obtain ⟨p, hp⟩ := hindexed .buy a ha
      obtain ⟨q, hq⟩ := hindexed .sell a hc
      rw [hp] at hq
      cases hq
    · intro a ha c hc
      rintro rfl
      have hside : ∃ side price, book.orderIndex.find a = some (side, price) := by
        rcases List.mem_append.mp ha with ha | ha
        · exact ⟨.buy, hindexed .buy a ha⟩
        · exact ⟨.sell, hindexed .sell a ha⟩
      obtain ⟨side, price, hfind⟩ := hside
      obtain ⟨o, ho, rfl⟩ := List.mem_map.mp hc
      rw [(h.pending o ho).unindexed] at hfind
      cases hfind
  uncrossed := fun bid ask hb ha =>
    h.uncrossed bid.1 ask.1 bid.2 ask.2 (SortedMap.find_of_last hb) (SortedMap.find_of_first ha)
  sequence := fun side e he => by
    have hl := h.level side e.1 e.2 ((SortedMap.mem_entries_iff _ _ _).mp he)
    exact ⟨hl.increasing, hl.bounded⟩
  stops := fun o ho => by
    have hp := h.pending o ho
    exact ⟨hp.stopPrice, hp.kind, _, (SortedMap.mem_entries_iff _ _ _).mpr hp.status⟩

/-- **The representation invariant of the order book.**  Every sequence of calls returns, no `expect`
fails and no loop runs forever, and the book it leaves represents its queues. -/
theorem run_represents (ops : List BookOp) :
    ∃ replies book, bookRun ops = .ok (replies, book) ∧ book.Represents := by
  obtain ⟨replies, book, hrun, hinv⟩ := bookRun_spec ops
  exact ⟨replies, book, hrun, hinv.represents⟩

end NexusTrade.MatchingEngine
