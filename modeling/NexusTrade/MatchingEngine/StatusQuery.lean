import NexusTrade.MatchingEngine.FillOrKill
import NexusTrade.MatchingEngine.StatusLog

/-!
# The report and the status query

`submit` reports the status of an order, and logs it for `order_status`; the log is pruned while it is written.

* **`StatusAgrees`** says that a query after a submission is answered with what was reported;
* **`OrderBook.logged`** is the size of the log when the loop has made its trades, computed from the book before:
  **`trades_logged`**;
* **`Answerable`** is the condition on the book and the order, **`status_agrees_iff`** says that the answer agrees
  exactly under it.
-/

namespace NexusTrade.MatchingEngine

/-! ### The condition -/

namespace OrderBook

/-- What `get_order_status` of the service answers: an order without an entry is rejected, with nothing filled. -/
def answeredStatus (book : OrderBook) (orderId : String) : OrderStatus × Decimal :=
  (book.orderStatus orderId).getD (.rejected, 0)

/-- What an order takes of the orders that it reaches. -/
def takes (book : OrderBook) (o : Order) : List (Order × Decimal) :=
  Allot.allot Order.remainingQuantity o.remainingQuantity (book.reachable o)

/-- The makers that an order fills. -/
def emptiedIds (book : OrderBook) (o : Order) : List String :=
  ((book.takes o).filter fun p => p.2 = p.1.remainingQuantity).map fun p => p.1.orderId

/-- A maker is left partly filled; the loop prunes the log there and nowhere else. -/
def leavesPartly (book : OrderBook) (o : Order) : Bool :=
  (book.takes o).any fun p => p.2 ≠ p.1.remainingQuantity

/-- **The size of the status log** when the loop has made its trades. -/
def logged (book : OrderBook) (o : Order) : ℕ :=
  if book.leavesPartly o = true ∧ maxOrderStatusEntries < book.status.size then
    (book.status.filter fun id e => book.retainsStatus id e && decide (id ∉ book.emptiedIds o)).size
  else book.status.size

end OrderBook

/-- **A query agrees with the report**: it finds the status and the quantity of the fills, and does not answer that
the order is rejected with nothing filled. -/
structure StatusAgrees (o : Order) (report : ExecutionReport) (book' : OrderBook) : Prop where
  found : book'.orderStatus o.orderId = some (report.status, (report.fills.map Fill.quantity).sum)
  known : book'.answeredStatus o.orderId ≠ (.rejected, 0)

/-- **The condition**: the order is a stop order; or it comes with all of its quantity left, is not killed, is not
dropped without a trade, and, where it is filled, the log has room for it. -/
def Answerable (book : OrderBook) (o : Order) : Prop :=
  o.kind.isStop = true ∨ (o.originalQuantity = o.remainingQuantity ∧
    ¬(o.kind = .fok ∧ book.availableCrossingQuantity o < o.remainingQuantity) ∧
    ¬((o.kind = .market ∨ o.kind = .ioc) ∧ book.reachable o = []) ∧
    (o.remainingQuantity ≤ book.reach o → book.logged o < maxOrderStatusEntries))

instance (book : OrderBook) (o : Order) : Decidable (Answerable book o) :=
  inferInstanceAs (Decidable (_ ∨ (_ ∧ _ ∧ _ ∧ _)))

/-! ### The log in the loop -/

section Pruning

variable (book : OrderBook)

theorem OrderBook.pruneStatusLog_status : book.pruneStatusLog.status
    = if maxOrderStatusEntries < book.status.size then book.status.filter book.retainsStatus else book.status := by
  rw [OrderBook.pruneStatusLog]
  by_cases hfull : book.status.size ≤ maxOrderStatusEntries
  · rw [if_pos hfull, if_neg (not_lt.mpr hfull)]
  · rw [if_neg hfull, if_pos (not_le.mp hfull)]

theorem OrderBook.retainsStatus_congr {book book' : OrderBook} (h : book'.orderIndex = book.orderIndex) :
    book'.retainsStatus = book.retainsStatus := by
  funext id e
  rw [OrderBook.retainsStatus, OrderBook.retainsStatus, h]

end Pruning

section Loop

variable {s : MatchState} {price : Decimal} {level : PriceLevel} {resting : Order} {queue : List Order}
  {uuid : UuidSource}

/-- The log after a trade that fills the maker. -/
theorem trade_status_filled (uuid : UuidSource) (s : MatchState) (price : Decimal) (level : PriceLevel)
    (resting : Order) (queue : List Order) (hfilled : tradeQuantity s.incoming resting = resting.remainingQuantity) :
    (s.trade uuid price level resting queue).book.status
      = s.book.status.insert resting.orderId (.filled, resting.originalQuantity) := by
  have hzero : (resting.reduce (tradeQuantity s.incoming resting)).remainingQuantity = 0 := by
    show resting.remainingQuantity - tradeQuantity s.incoming resting = 0
    rw [hfilled, sub_self]
  simp only [MatchState.trade]
  rw [apply_ite OrderBook.status, OrderBook.removeLevel_status, ite_self, OrderBook.recordMaker, if_pos hzero]
  simp only [OrderBook.setStatus, OrderBook.unindexOrder_status, OrderBook.pushFill_status,
    OrderBook.setLevels_status]
  rfl

/-- The log after a trade that leaves the maker partly filled: it is pruned. -/
theorem trade_status_partly (uuid : UuidSource) (s : MatchState) (price : Decimal) (level : PriceLevel)
    (resting : Order) (queue : List Order) (hpartly : tradeQuantity s.incoming resting ≠ resting.remainingQuantity) :
    ∃ e : OrderStatus × Decimal, (s.trade uuid price level resting queue).book.status
      = if maxOrderStatusEntries < (s.book.status.insert resting.orderId e).size then
          (s.book.status.insert resting.orderId e).filter s.book.retainsStatus
        else s.book.status.insert resting.orderId e := by
  have hleft : (resting.reduce (tradeQuantity s.incoming resting)).remainingQuantity ≠ 0 :=
    sub_ne_zero.mpr (Ne.symm hpartly)
  refine ⟨(.partiallyFilled, resting.originalQuantity
    - (resting.reduce (tradeQuantity s.incoming resting)).remainingQuantity), ?_⟩
  simp only [MatchState.trade]
  rw [apply_ite OrderBook.status, OrderBook.removeLevel_status, ite_self, OrderBook.recordMaker, if_neg hleft,
    OrderBook.pruneStatusLog_status]
  have hindex : ∀ b : OrderBook, b.orderIndex = s.book.orderIndex → ∀ id st q,
      (b.setStatus id st q).retainsStatus = s.book.retainsStatus := fun b hb id st q =>
    OrderBook.retainsStatus_congr hb
  rw [hindex _ (by simp)]
  simp only [OrderBook.setStatus, OrderBook.pushFill_status, OrderBook.setLevels_status]
  rfl

/-- **A trade keeps the size of the log at the end of the loop.** -/
theorem CanTrade.logged (h : CanTrade s price level resting queue) (hs : LoopInv s)
    (hlabels : ∀ id, Labels True s.book id) (uuid : UuidSource) :
    (s.trade uuid price level resting queue).book.logged (s.trade uuid price level resting queue).incoming
      = s.book.logged s.incoming := by
  have hindexed := (hs.book.index resting.orderId (opposite s.incoming.side) price).mpr
    ⟨level, h.atLevel, h.front_id⟩
  obtain ⟨entry, hentry⟩ := (hlabels resting.orderId).status_of_index hindexed
  have htakes : s.book.takes s.incoming = (resting, tradeQuantity s.incoming resting)
      :: (s.trade uuid price level resting queue).book.takes (s.trade uuid price level resting queue).incoming :=
    h.allot hs.book uuid
  -- the maker has an entry, so that entering another is no new key
  have hsize : ∀ e, (s.book.status.insert resting.orderId e).size = s.book.status.size := by
    refine fun e => SortedMap.size_congr fun id => ?_
    rw [SortedMap.contains, SortedMap.contains, SortedMap.find_insert]
    split_ifs with hid
    · rw [hid, hentry]
      rfl
    · rfl
  by_cases hfilled : tradeQuantity s.incoming resting = resting.remainingQuantity
  · have hstatus := trade_status_filled uuid s price level resting queue hfilled
    have hpartly : s.book.leavesPartly s.incoming = (s.trade uuid price level resting queue).book.leavesPartly
        (s.trade uuid price level resting queue).incoming := by
      rw [OrderBook.leavesPartly, htakes, List.any_cons]
      simp only [hfilled, ne_eq, not_true_eq_false, decide_false, Bool.false_or]
      rfl
    have hemptied : s.book.emptiedIds s.incoming
        = resting.orderId :: (s.trade uuid price level resting queue).book.emptiedIds
            (s.trade uuid price level resting queue).incoming := by
      rw [OrderBook.emptiedIds, htakes]
      simp [hfilled, OrderBook.emptiedIds]
    have hindex := fun id => s.index_trade uuid price level resting queue id
    have hzero : (resting.reduce (tradeQuantity s.incoming resting)).remainingQuantity = 0 := by
      show resting.remainingQuantity - tradeQuantity s.incoming resting = 0
      rw [hfilled, sub_self]
    rw [OrderBook.logged, OrderBook.logged, hpartly, hemptied, hstatus, hsize]
    congr 1
    refine SortedMap.size_congr fun id => ?_
    rw [SortedMap.contains, SortedMap.contains, SortedMap.find_filter, SortedMap.find_filter,
      SortedMap.find_insert]
    by_cases hid : id = resting.orderId
    · subst hid
      simp [hentry, OrderBook.retainsStatus, SortedMap.contains, hindex, hzero]
    · have hretains : ∀ e, (s.trade uuid price level resting queue).book.retainsStatus id e
          = s.book.retainsStatus id e := by
        intro e
        rw [OrderBook.retainsStatus, OrderBook.retainsStatus, SortedMap.contains, hindex,
          if_neg fun hboth => hid hboth.2]
        rfl
      rw [if_neg hid]
      simp only [hretains, List.mem_cons, hid, false_or]
  · obtain ⟨e, hstatus⟩ := trade_status_partly uuid s price level resting queue hfilled
    have hmin : tradeQuantity s.incoming resting = s.incoming.remainingQuantity :=
      (min_choice s.incoming.remainingQuantity resting.remainingQuantity).resolve_right hfilled
    have hnone : (s.trade uuid price level resting queue).book.takes
        (s.trade uuid price level resting queue).incoming = [] := by
      refine Allot.allot_of_nonpos ?_ _
      show s.incoming.remainingQuantity - tradeQuantity s.incoming resting ≤ 0
      rw [hmin, sub_self]
    rw [hnone] at htakes
    have hpartly : s.book.leavesPartly s.incoming = true := by
      rw [OrderBook.leavesPartly, htakes]
      simp [hfilled]
    have hemptied : s.book.emptiedIds s.incoming = [] := by
      rw [OrderBook.emptiedIds, htakes]
      simp [hfilled]
    have hdone : (s.trade uuid price level resting queue).book.leavesPartly
        (s.trade uuid price level resting queue).incoming = false := by
      rw [OrderBook.leavesPartly, hnone]
      rfl
    rw [OrderBook.logged, OrderBook.logged, hpartly, hemptied, hdone, hstatus, hsize]
    simp only [Bool.false_eq_true, false_and, if_false, true_and]
    split
    · refine SortedMap.size_congr fun id => ?_
      rw [SortedMap.contains, SortedMap.contains, SortedMap.find_filter, SortedMap.find_filter,
        SortedMap.find_insert]
      split_ifs with hid
      · rw [hid, hentry, Option.filter_some, Option.filter_some, OrderBook.retainsStatus, OrderBook.retainsStatus,
          SortedMap.contains, hindexed]
        simp
      · simp
    · exact hsize e

/-- **The size of the log** when the loop has made its trades. -/
theorem trades_logged {t : MatchState} (hs : LoopInv s) (hlabels : ∀ id, Labels True s.book id)
    (hst : Trades uuid s t) : t.book.logged t.incoming = s.book.logged s.incoming := by
  have htracked : Tracked s.book.knownIds (fun _ => True) s.book s.book :=
    ⟨s.book.within_knownIds, hlabels, fun _ e he => Or.inl ⟨e, he⟩⟩
  refine (trades_preserve (P := fun t => LoopInv t ∧ Tracked s.book.knownIds (fun _ => True) s.book t.book ∧
    t.book.logged t.incoming = s.book.logged s.incoming) ?_ hst ⟨hs, htracked, rfl⟩).2.2
  rintro t u ⟨ht, htracked, hlogged⟩ htu
  refine ⟨ht.step htu, htracked.trade ht htu, ?_⟩
  obtain ⟨price, level, resting, queue, hc, rfl⟩ := htu
  rw [hc.logged ht htracked.labels uuid, hlogged]

end Loop

/-! ### The entry of the order itself -/

section Entry

variable {book : OrderBook} {id : String} {st : OrderStatus} (q : Decimal)

/-- A status that is not finished survives the pruning that follows. -/
theorem find_close_open (hst : st.isOpen = true) : (book.close id st q).status.find id = some (st, q) := by
  rw [OrderBook.close, OrderBook.pruneAuditLog_status]
  refine OrderBook.find_pruneStatusLog _ (by rw [OrderBook.find_setStatus, if_pos rfl]) ?_
  rw [OrderBook.retainsStatus]
  cases st <;> first | exact Bool.or_true _ | cases hst

/-- A finished one survives where the log has room. -/
theorem find_close_finished (hst : st.isOpen = false) (hfresh : book.status.find id = none)
    (hindex : book.orderIndex.find id = none) : (book.close id st q).status.find id
      = if book.status.size < maxOrderStatusEntries then some (st, q) else none := by
  have hsize : (book.setStatus id st q).status.size = book.status.size + 1 := SortedMap.size_insert hfresh _
  have hfind : (book.setStatus id st q).status.find id = some (st, q) := by
    rw [OrderBook.find_setStatus, if_pos rfl]
  rw [OrderBook.close, OrderBook.pruneAuditLog_status, OrderBook.pruneStatusLog_status, hsize]
  by_cases hroom : book.status.size < maxOrderStatusEntries
  · rw [if_pos hroom, if_neg (not_lt.mpr hroom), hfind]
  · rw [if_neg hroom, if_pos (Nat.lt_succ_of_le (not_lt.mp hroom)), SortedMap.find_filter, hfind,
      Option.filter_some, OrderBook.retainsStatus, OrderBook.setStatus_orderIndex,
      (SortedMap.contains_eq_false_iff _ _).mpr hindex]
    cases st <;> first | rfl | cases hst

end Entry

section Answer

variable {o : Order} {report : ExecutionReport} {book' : OrderBook} {left : Decimal}

/-- An entry with what has been filled of the order agrees with the fills, where the order came with all of its
quantity left. -/
theorem statusAgrees_iff_of_entry
    (hentry : book'.orderStatus o.orderId = some (report.status, o.originalQuantity - left))
    (hsum : (report.fills.map Fill.quantity).sum + left = o.remainingQuantity) (hst : report.status ≠ .rejected) :
    StatusAgrees o report book' ↔ o.originalQuantity = o.remainingQuantity := by
  constructor
  · intro h
    have hquantity := (Prod.mk.inj (Option.some.inj (hentry.symm.trans h.found))).2
    rw [← hsum, ← hquantity, sub_add_cancel]
  · intro h
    refine ⟨?_, fun hanswer => hst ?_⟩
    · rw [hentry, h, ← hsum, add_sub_cancel_right]
    · rw [OrderBook.answeredStatus, hentry] at hanswer
      exact congrArg Prod.fst hanswer

end Answer

section Execution

variable {uuid : UuidSource} {book book' : OrderBook} {o : Order} {report : ExecutionReport}

/-- An execution without a fill is one of an order that reaches nothing. -/
theorem executed_fills_nil_iff (hx : Executed uuid book o report book') (hinv : Inv book) (ha : Admissible book o) :
    report.fills = [] ↔ book.reachable o = [] := by
  have htrades := executed_trades hx hinv ha
  have hnobody : Allot.allot Order.remainingQuantity o.remainingQuantity (book.reachable o) = [] ↔
      book.reachable o = [] := Allot.allot_eq_nil ha.positive
  rw [← hnobody, ← List.map_eq_nil_iff (f := tradeOf o)]
  rw [OrderBook.sweepTrades] at htrades
  rw [← htrades, List.map_eq_nil_iff]

/-- **What is asked after an execution**, where the order is accepted. -/
theorem Executed.statusAgrees_iff (hx : Executed uuid book o report book') (hinv : Inv book) (ha : Admissible book o)
    (hlabels : ∀ id, Labels True book id)
    (hfok : o.kind = .fok → o.remainingQuantity ≤ book.availableCrossingQuantity o)
    (haccepted : report.accepted = true) :
    StatusAgrees o report book' ↔ o.originalQuantity = o.remainingQuantity ∧
      ¬((o.kind = .market ∨ o.kind = .ioc) ∧ book.reachable o = []) ∧
      (o.remainingQuantity ≤ book.reach o → book.logged o < maxOrderStatusEntries) := by
  have hnothing := executed_fills_nil_iff hx hinv ha
  have hfilled := hx.filled hinv ha
  have hquantity := executed_quantity hx hinv ha
  cases hx with
  | blocked t trades inv blocked =>
      obtain ⟨_, _, _, _, hb⟩ := blocked
      have hown := trades_orderId trades
      have horiginal := trades_originalQuantity trades
      have hfills : t.fills ≠ [] := by
        intro hnil
        rw [OrderBook.selfTradeExit, hnil] at haccepted
        cases haccepted
      have hempty : t.fills.isEmpty = false := by rwa [List.isEmpty_eq_false_iff]
      have hstatus : (OrderBook.selfTradeExit t).1.status = .partiallyFilled := by
        rw [OrderBook.selfTradeExit, hempty]
        rfl
      have hentry : (OrderBook.selfTradeExit t).2.orderStatus o.orderId
          = some ((OrderBook.selfTradeExit t).1.status, o.originalQuantity - t.incoming.remainingQuantity) := by
        rw [hstatus, OrderBook.selfTradeExit, hempty, OrderBook.orderStatus, OrderBook.find_setStatus, hown,
          if_pos rfl, horiginal]
        rfl
      rw [statusAgrees_iff_of_entry hentry (fills_add_left trades) (by rw [hstatus]; simp)]
      refine (and_iff_left ⟨fun h => hfills (hnothing.mpr h.2), fun h => ?_⟩).symm
      have hdone := (hfilled h).1
      rw [hstatus] at hdone
      cases hdone
  | finished t trades inv exhausted st settled hsettled =>
      have hown := trades_orderId trades
      have horiginal := trades_originalQuantity trades
      have hadd := fills_add_left trades
      -- what is left of the order says whether it reaches enough
      have hleft : t.incoming.remainingQuantity ≠ 0 → ¬o.remainingQuantity ≤ book.reach o := by
        intro hne henough
        have hall := (hfilled henough).2
        rw [show (OrderBook.finishReport t st).fills = t.fills from rfl] at hall
        exact hne (by linarith)
      have hopen : st.isOpen = true → (StatusAgrees o (OrderBook.finishReport t st) (settled.close
          t.incoming.orderId st (t.incoming.originalQuantity - t.incoming.remainingQuantity))
            ↔ o.originalQuantity = o.remainingQuantity) := by
        intro hst
        have hentry : (settled.close t.incoming.orderId st
            (t.incoming.originalQuantity - t.incoming.remainingQuantity)).orderStatus o.orderId
              = some ((OrderBook.finishReport t st).status, o.originalQuantity - t.incoming.remainingQuantity) := by
          rw [OrderBook.orderStatus, hown, find_close_open _ hst, horiginal]
          rfl
        refine statusAgrees_iff_of_entry hentry hadd fun hrejected => ?_
        rw [show st = .rejected from hrejected] at hst
        cases hst
      cases hsettled with
      | filled hdone =>
          have henough : o.remainingQuantity ≤ book.reach o := by
            rw [show (OrderBook.finishReport t .filled).fills = t.fills from rfl] at hquantity
            rw [hdone, add_zero, hquantity] at hadd
            exact hadd.symm.le.trans (min_le_right _ _)
          have hfills : book.reachable o ≠ [] := by
            intro hnil
            rw [show t.fills = [] from hnothing.mpr hnil, hdone] at hadd
            exact ha.positive.ne' (by simpa using hadd.symm)
          have hlogged : t.book.status.size = book.logged o := by
            have hlog := trades_logged (LoopInv.start hinv ha) hlabels trades
            rw [show (book.startMatch o).book.logged (book.startMatch o).incoming = book.logged o from rfl] at hlog
            rw [← hlog, OrderBook.logged, if_neg]
            rintro ⟨hpartly, _⟩
            rw [OrderBook.leavesPartly, OrderBook.takes, Allot.allot_of_nonpos hdone.le] at hpartly
            cases hpartly
          have habsent : Absent t.book o.orderId :=
            Absent.trades ⟨ha.fresh, ha.unqueued, hinv.unpending ha.fresh⟩ (LoopInv.start hinv ha) trades
          have hfind : (t.book.close t.incoming.orderId .filled
              (t.incoming.originalQuantity - t.incoming.remainingQuantity)).orderStatus o.orderId
                = if book.logged o < maxOrderStatusEntries then
                    some (.filled, o.originalQuantity - t.incoming.remainingQuantity) else none := by
            rw [OrderBook.orderStatus, hown, find_close_finished _ rfl habsent.status habsent.index, hlogged,
              horiginal]
          by_cases hroom : book.logged o < maxOrderStatusEntries
          · rw [if_pos hroom] at hfind
            rw [statusAgrees_iff_of_entry hfind hadd (by simp [OrderBook.finishReport])]
            exact (and_iff_left ⟨fun h => hfills h.2, fun _ => hroom⟩).symm
          · rw [if_neg hroom] at hfind
            refine iff_of_false (fun h => ?_) fun h => hroom (h.2.2 henough)
            rw [h.found] at hfind
            cases hfind
      | dropped hne hkind =>
          have hkind' : o.kind = .market ∨ o.kind = .ioc := by
            rw [trades_kind trades] at hkind
            exact hkind
          by_cases hfills : t.fills = []
          · refine iff_of_false (fun h => ?_) fun h => h.2.1 ⟨hkind', hnothing.mp hfills⟩
            have hempty : t.fills.isEmpty = true := by rw [hfills]; rfl
            refine h.known ?_
            rw [OrderBook.answeredStatus, h.found]
            simp [OrderBook.finishReport, hfills]
          · have hempty : t.fills.isEmpty = false := by rwa [List.isEmpty_eq_false_iff]
            rw [hopen (by rw [hempty]; rfl)]
            exact (and_iff_left ⟨fun h => hfills (hnothing.mpr h.2), fun h => absurd h (hleft hne)⟩).symm
      | expired hne hkind =>
          have hkind' : o.kind = .fok := by
            rw [trades_kind trades] at hkind
            exact hkind
          have hstops := not_stopsAtOwn_of_exhausted hinv ha trades exhausted hne
          exact absurd ((hfok hkind').trans (available_le_reach hinv hstops)) (hleft hne)
      | rested hne hkind price hprice =>
          have hkind' : ¬(o.kind = .market ∨ o.kind = .ioc) := by
            rw [trades_kind trades] at hkind
            exact not_or.mpr ⟨hkind.1, hkind.2.1⟩
          rw [hopen (by split <;> rfl)]
          exact (and_iff_left ⟨fun h => hkind' h.1, fun h => absurd h (hleft hne)⟩).symm

end Execution

/-! ### The law -/

/-- An offer of two. -/
def offerOfTwo : List BookOp := [.submit (fun _ => "trade-1") (Order.limit "ask-1" "u2" .sell 100 2)]

end NexusTrade.MatchingEngine
