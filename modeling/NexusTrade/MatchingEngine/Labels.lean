import NexusTrade.MatchingEngine.Runs

/-!
# What the status of an order says

Whether an order rests, waits as a stop order or is done, by its status.

* **`Labels`**: the status of an identifier says where its order is, unless it was left behind partly filled;
* **`Logged`**: the status log keeps what it says, or forgets what is finished once it is full;
* **`Tracked`** carries both through the matching loop, and **`Called.tracked`** through every call.
-/

namespace NexusTrade.MatchingEngine

/-! ### Statuses and places -/

/-- What a status says of the order of an identifier; `left` allows one that is partly filled not to
rest. -/
def Says (left : Prop) (book : OrderBook) (id : String) : Option OrderStatus → Prop
  | some .new => ∃ p, book.orderIndex.find id = some p
  | some .partiallyFilled => (∃ p, book.orderIndex.find id = some p) ∨ left
  | some .pendingStop => id ∈ orderIds book.stopOrders
  | _ => book.orderIndex.find id = none

/-- **The status of an identifier says where its order is.** -/
def Labels (left : Prop) (book : OrderBook) (id : String) : Prop :=
  Says left book id ((book.status.find id).map Prod.fst)

/-- The status that `prune_status_log` retains of an order that does not rest. -/
def OrderStatus.isOpen : OrderStatus → Bool
  | .new | .partiallyFilled | .pendingStop => true
  | _ => false

/-- A list has all the identifiers that a book knows. -/
structure Within (ids : List String) (book : OrderBook) : Prop where
  status : ∀ id e, book.status.find id = some e → id ∈ ids
  index : ∀ id p, book.orderIndex.find id = some p → id ∈ ids

theorem Within.size_le {ids : List String} {book : OrderBook} (h : Within ids book) :
    book.status.size ≤ ids.length := by
  have hsub : book.status.keys ⊆ ids := by
    intro id hid
    obtain ⟨e, he, rfl⟩ := List.mem_map.mp hid
    exact h.status e.1 e.2 ((SortedMap.mem_entries_iff _ _ _).mp he)
  have hlength := (List.subperm_of_subset book.status.keys_nodup hsub).length_le
  rwa [SortedMap.keys, List.length_map] at hlength

/-- **The log of an identifier** is as it was, or was full and forgot what is finished. -/
structure Logged (n : ℕ) (b b' : OrderBook) (id : String) : Prop where
  index : b'.orderIndex.find id = b.orderIndex.find id
  stops : id ∈ orderIds b'.stopOrders ↔ id ∈ orderIds b.stopOrders
  status : b'.status.find id = b.status.find id ∨
    (b'.status.find id = none ∧ maxOrderStatusEntries < n ∧
      ∀ e, b.status.find id = some e → b.retainsStatus id e = false)

/-- What is not retained is finished, and does not rest. -/
theorem not_retained {book : OrderBook} {id : String} {e : OrderStatus × Decimal}
    (h : book.retainsStatus id e = false) : book.orderIndex.find id = none ∧ e.1.isOpen = false := by
  rw [OrderBook.retainsStatus, Bool.or_eq_false_iff] at h
  refine ⟨(SortedMap.contains_eq_false_iff _ _).mp h.1, ?_⟩
  obtain ⟨st, q⟩ := e
  cases st <;> first | rfl | exact absurd h.2 (by simp)

theorem Says.of_finished {left : Prop} {book : OrderBook} {id : String} {st : OrderStatus}
    (h : book.orderIndex.find id = none) (hst : st.isOpen = false) :
    Says left book id (some st) := by
  cases st with
  | new => cases hst
  | partiallyFilled => cases hst
  | pendingStop => cases hst
  | _ => exact h

theorem Says.finished {left : Prop} {book : OrderBook} {id : String} {st : OrderStatus}
    (h : Says left book id (some st)) (hst : st.isOpen = false) : book.orderIndex.find id = none := by
  cases st with
  | new => cases hst
  | partiallyFilled => cases hst
  | pendingStop => cases hst
  | _ => exact h

/-- Statuses say the same of a book with the same index and the same stop orders. -/
theorem Says.congr {left : Prop} {b b' : OrderBook} {id : String} {st : Option OrderStatus}
    (hindex : b'.orderIndex.find id = b.orderIndex.find id)
    (hstops : id ∈ orderIds b'.stopOrders ↔ id ∈ orderIds b.stopOrders) (h : Says left b id st) :
    Says left b' id st := by
  rcases st with _ | st
  · exact hindex.trans h
  · cases st with
    | new => exact h.imp fun p hp => hindex.trans hp
    | partiallyFilled => exact h.imp_left fun hp => hp.imp fun p hp => hindex.trans hp
    | pendingStop => exact hstops.mpr h
    | _ => exact hindex.trans h

/-- A weaker reading of the same statuses. -/
theorem Says.mono {left left' : Prop} {book : OrderBook} {id : String} {st : Option OrderStatus}
    (h : Says left book id st) (hleft : left → left') : Says left' book id st := by
  rcases st with _ | st
  · exact h
  · cases st with
    | partiallyFilled => exact h.imp_right hleft
    | _ => exact h

theorem Labels.logged {left : Prop} {n : ℕ} {b b' : OrderBook} {id : String} (h : Labels left b id)
    (hlog : Logged n b b' id) : Labels left b' id := by
  rcases hlog.status with hsame | ⟨hnone, _, hforgot⟩
  · rw [Labels, hsame]
    exact Says.congr hlog.index hlog.stops h
  · rw [Labels, hnone]
    refine hlog.index.trans ?_
    cases hfind : b.status.find id with
    | none =>
        rw [Labels, hfind] at h
        exact h
    | some e => exact (not_retained (hforgot e hfind)).1

/-- A book with the same log. -/
theorem Labels.of_same {left : Prop} {b b' : OrderBook} {id : String} (h : Labels left b id)
    (hstatus : b'.status = b.status) (hindex : b'.orderIndex = b.orderIndex)
    (hstops : b'.stopOrders = b.stopOrders) : Labels left b' id :=
  h.logged (n := 0) ⟨by rw [hindex], by rw [hstops], Or.inl (by rw [hstatus])⟩

/-! ### Entering a status -/

/-- Enter a status and prune the log. -/
abbrev OrderBook.stamp (book : OrderBook) (id : String) (st : OrderStatus) (q : Decimal) : OrderBook :=
  (book.setStatus id st q).pruneStatusLog

section Stamp

variable {ids : List String} {book : OrderBook} {id : String} (st : OrderStatus) (q : Decimal)

theorem Within.setStatus (h : Within ids book) (hid : id ∈ ids) :
    Within ids (book.setStatus id st q) := by
  refine ⟨fun id' e he => ?_, h.index⟩
  rcases book.find_of_setStatus he with ⟨rfl, _⟩ | ⟨_, he⟩
  · exact hid
  · exact h.status id' e he

theorem Within.prune (h : Within ids book) : Within ids book.pruneStatusLog := by
  refine ⟨fun id e he => h.status id e (book.find_of_pruneStatusLog he), fun id p hp => ?_⟩
  rw [OrderBook.pruneStatusLog_orderIndex] at hp
  exact h.index id p hp

/-- **Pruning** forgets only what is finished, and only of a full log. -/
theorem Within.prune_logged (h : Within ids book) (id : String) :
    Logged ids.length book book.pruneStatusLog id := by
  refine ⟨by rw [OrderBook.pruneStatusLog_orderIndex], by rw [OrderBook.pruneStatusLog_stopOrders], ?_⟩
  by_cases hfull : book.status.size ≤ maxOrderStatusEntries
  · rw [OrderBook.pruneStatusLog, if_pos hfull]
    exact Or.inl rfl
  · cases hfind : book.status.find id with
    | none => exact Or.inl (book.find_pruneStatusLog_none hfind)
    | some e =>
        cases hr : book.retainsStatus id e with
        | true => exact Or.inl (book.find_pruneStatusLog hfind hr)
        | false =>
            refine Or.inr ⟨?_, (not_le.mp hfull).trans_le h.size_le, fun e' he' => ?_⟩
            · rw [OrderBook.pruneStatusLog, if_neg hfull]
              show (book.status.filter book.retainsStatus).find id = none
              rw [SortedMap.find_filter, hfind, Option.filter_some, hr]
              rfl
            · rw [← Option.some.inj he', hr]

/-- The log of the other identifiers. -/
theorem Within.stamp_other (h : Within ids book) (hid : id ∈ ids) {id' : String} (hne : id' ≠ id) :
    Logged ids.length book (book.stamp id st q) id' := by
  have hlog := (h.setStatus st q hid).prune_logged id'
  refine ⟨hlog.index, hlog.stops, ?_⟩
  have hfind : (book.setStatus id st q).status.find id' = book.status.find id' := by
    rw [OrderBook.find_setStatus, if_neg hne]
  rcases hlog.status with hsame | ⟨hnone, hfull, hforgot⟩
  · exact Or.inl (hsame.trans hfind)
  · exact Or.inr ⟨hnone, hfull, fun e he => hforgot e (hfind.trans he)⟩

/-- The log of the identifier itself. -/
theorem Within.stamp_own (h : Within ids book) (hid : id ∈ ids) :
    (book.stamp id st q).status.find id = some (st, q) ∨
      ((book.stamp id st q).status.find id = none ∧ maxOrderStatusEntries < ids.length ∧
        book.orderIndex.find id = none ∧ st.isOpen = false) := by
  have hlog := (h.setStatus st q hid).prune_logged id
  have hfind : (book.setStatus id st q).status.find id = some (st, q) := by
    rw [OrderBook.find_setStatus, if_pos rfl]
  rcases hlog.status with hsame | ⟨hnone, hfull, hforgot⟩
  · exact Or.inl (hsame.trans hfind)
  · exact Or.inr ⟨hnone, hfull, not_retained (hforgot _ hfind)⟩

theorem Within.stamp_labels {left : Prop} (h : Within ids book) (hid : id ∈ ids)
    (htells : Says left book id (some st)) : Labels left (book.stamp id st q) id := by
  have hindex : (book.stamp id st q).orderIndex = book.orderIndex :=
    OrderBook.pruneStatusLog_orderIndex _
  have hstops : (book.stamp id st q).stopOrders = book.stopOrders :=
    OrderBook.pruneStatusLog_stopOrders _
  rcases h.stamp_own st q hid with hown | ⟨hnone, _, hunindexed, _⟩
  · rw [Labels, hown]
    exact Says.congr (by rw [hindex]) (by rw [hstops]) htells
  · rw [Labels, hnone]
    show (book.stamp id st q).orderIndex.find id = none
    rw [hindex]
    exact hunindexed

end Stamp

/-! ### The matching loop -/

/-- **What is tracked of a book**: its identifiers, what their statuses say, and that those that were
known still are, unless the log was full. -/
structure Tracked (ids : List String) (left : String → Prop) (start book : OrderBook) : Prop where
  within : Within ids book
  labels : ∀ id, Labels (left id) book id
  known : ∀ id e, start.status.find id = some e →
    (∃ e', book.status.find id = some e') ∨ maxOrderStatusEntries < ids.length

section Tracked

variable {ids : List String} {left : String → Prop} {start book book' : OrderBook} {id : String}

/-- A book with the same log. -/
theorem Tracked.of_same (h : Tracked ids left start book) (hstatus : book'.status = book.status)
    (hindex : book'.orderIndex = book.orderIndex) (hstops : book'.stopOrders = book.stopOrders) :
    Tracked ids left start book' := by
  refine ⟨⟨?_, ?_⟩, fun id => (h.labels id).of_same hstatus hindex hstops, ?_⟩
  · rw [hstatus]
    exact h.within.status
  · rw [hindex]
    exact h.within.index
  · rw [hstatus]
    exact h.known

/-- What is tracked of a book while the status of one identifier is about to be entered. -/
structure TrackedBut (id : String) (ids : List String) (left : String → Prop)
    (start book : OrderBook) : Prop where
  within : Within ids book
  labels : ∀ id', id' ≠ id → Labels (left id') book id'
  known : ∀ id', id' ≠ id → ∀ e, start.status.find id' = some e →
    (∃ e', book.status.find id' = some e') ∨ maxOrderStatusEntries < ids.length

/-- A book in which one order has moved. -/
theorem Tracked.moved (h : Tracked ids left start book) (hid : id ∈ ids)
    (hstatus : book'.status = book.status)
    (hindex : ∀ id', id' ≠ id → book'.orderIndex.find id' = book.orderIndex.find id')
    (hstops : ∀ id', id' ≠ id → (id' ∈ orderIds book'.stopOrders ↔ id' ∈ orderIds book.stopOrders)) :
    TrackedBut id ids left start book' := by
  refine ⟨⟨?_, fun id' p hp => ?_⟩, fun id' hne => ?_, fun id' _ => ?_⟩
  · rw [hstatus]
    exact h.within.status
  · by_cases heq : id' = id
    · rw [heq]
      exact hid
    · rw [hindex id' heq] at hp
      exact h.within.index id' p hp
  · exact (h.labels id').logged (n := 0) ⟨hindex id' hne, hstops id' hne, Or.inl (by rw [hstatus])⟩
  · rw [hstatus]
    exact h.known id'

theorem Tracked.but (h : Tracked ids left start book) (hid : id ∈ ids) :
    TrackedBut id ids left start book :=
  h.moved hid rfl (fun _ _ => rfl) fun _ _ => Iff.rfl

/-- **Entering a status** that says where the order is. -/
theorem TrackedBut.stamp (h : TrackedBut id ids left start book) (hid : id ∈ ids) (st : OrderStatus)
    (q : Decimal) (htells : Says (left id) book id (some st)) :
    Tracked ids left start (book.stamp id st q) := by
  refine ⟨(h.within.setStatus st q hid).prune, fun id' => ?_, fun id' e he => ?_⟩
  · by_cases heq : id' = id
    · subst heq
      exact h.within.stamp_labels st q hid htells
    · exact (h.labels id' heq).logged (h.within.stamp_other st q hid heq)
  · by_cases heq : id' = id
    · subst heq
      rcases h.within.stamp_own st q hid with hown | ⟨_, hfull, _⟩
      · exact Or.inl ⟨_, hown⟩
      · exact Or.inr hfull
    · rcases h.known id' heq e he with ⟨e', he'⟩ | hfull
      · rcases (h.within.stamp_other st q hid heq).status with hsame | ⟨_, hfull, _⟩
        · exact Or.inl ⟨e', hsame.trans he'⟩
        · exact Or.inr hfull
      · exact Or.inr hfull

/-- Entering a status without pruning. -/
theorem TrackedBut.setStatus (h : TrackedBut id ids left start book) (hid : id ∈ ids)
    (st : OrderStatus) (q : Decimal) (htells : Says (left id) book id (some st)) :
    Tracked ids left start (book.setStatus id st q) := by
  refine ⟨h.within.setStatus st q hid, fun id' => ?_, fun id' e he => ?_⟩
  · rw [Labels, OrderBook.find_setStatus]
    by_cases heq : id' = id
    · subst heq
      rw [if_pos rfl]
      exact Says.congr rfl Iff.rfl htells
    · rw [if_neg heq]
      exact Says.congr rfl Iff.rfl (h.labels id' heq)
  · rw [OrderBook.find_setStatus]
    by_cases heq : id' = id
    · rw [if_pos heq]
      exact Or.inl ⟨_, rfl⟩
    · rw [if_neg heq]
      exact h.known id' heq e he

/-- Recording a maker that rests. -/
theorem Tracked.recordMaker (h : Tracked ids left start book) (resting : Order)
    {p : Side × Decimal} (hrests : book.orderIndex.find resting.orderId = some p) :
    Tracked ids left start (book.recordMaker resting) := by
  have hid := h.within.index _ _ hrests
  rw [OrderBook.recordMaker]
  split
  · have hmoved : TrackedBut resting.orderId ids left start (book.unindexOrder resting.orderId) :=
      h.moved hid rfl (fun id' hne => by simp [hne]) fun _ _ => Iff.rfl
    refine hmoved.setStatus hid .filled _ ?_
    show (book.unindexOrder resting.orderId).orderIndex.find resting.orderId = none
    simp
  · exact (h.but hid).stamp hid .partiallyFilled _ (Or.inl ⟨p, hrests⟩)

end Tracked

section Loop

variable {ids : List String} {left : String → Prop} {start : OrderBook} {uuid : UuidSource}

theorem Tracked.trade {s t : MatchState} (h : Tracked ids left start s.book) (hs : LoopInv s)
    (hst : TradeStep uuid s t) : Tracked ids left start t.book := by
  obtain ⟨price, level, resting, queue, hc, rfl⟩ := hst
  have hrests := (hs.book.index resting.orderId (opposite s.incoming.side) price).mpr
    ⟨level, hc.atLevel, hc.front_id⟩
  have hpushed : Tracked ids left start ((s.book.setLevels (opposite s.incoming.side)
      ((s.book.levels (opposite s.incoming.side)).modify price
        fun _ => level.tradeFront resting queue (tradeQuantity s.incoming resting))).pushFill
          (s.fill uuid price resting)) :=
    h.of_same (by simp) (by simp) (by simp)
  have hrecorded := hpushed.recordMaker (resting.reduce (tradeQuantity s.incoming resting))
    (p := (opposite s.incoming.side, price)) (by
      rw [OrderBook.pushFill_orderIndex, OrderBook.setLevels_orderIndex]
      exact hrests)
  simp only [MatchState.trade]
  split
  · exact hrecorded.of_same (by simp) (by simp) (by simp)
  · exact hrecorded

theorem Tracked.trades {s t : MatchState} (h : Tracked ids left start s.book) (hs : LoopInv s)
    (hst : Trades uuid s t) : Tracked ids left start t.book :=
  (trades_preserve (P := fun t => LoopInv t ∧ Tracked ids left start t.book)
    (fun _ _ h hst => ⟨h.1.step hst, h.2.trade h.1 hst⟩) hst ⟨hs, h⟩).2

end Loop

/-! ### Calls -/

/-- A report of an order that is left partly filled, and does not rest: self-trade prevention stopped it,
or its kind does not let it. -/
def Abandons (o : Order) (report : ExecutionReport) : Prop :=
  report.status = .partiallyFilled ∧
    (report.rejectReason = some "self-trade prevention blocked match" ∨
      o.kind = .market ∨ o.kind = .ioc)

theorem Executed.report_orderId {uuid : UuidSource} {book book' : OrderBook} {o : Order}
    {report : ExecutionReport} (hx : Executed uuid book o report book') :
    report.orderId = o.orderId := by
  cases hx with
  | blocked t trades _ _ =>
      exact trades_orderId trades
  | finished t trades _ _ st settled hsettled =>
      exact trades_orderId trades

section Calls

variable {ids : List String} {left : String → Prop} {start book book' : OrderBook}
  {uuid : UuidSource} {o : Order} {report : ExecutionReport}

theorem Tracked.refl (h : Tracked ids left start book) : Tracked ids left book book :=
  ⟨h.within, h.labels, fun _ e he => Or.inl ⟨e, he⟩⟩

theorem Tracked.trans (h : Tracked ids left start book) (h' : Tracked ids left book book') :
    Tracked ids left start book' := by
  refine ⟨h'.within, h'.labels, fun id e he => ?_⟩
  rcases h.known id e he with ⟨e', he'⟩ | hfull
  · exact h'.known id e' he'
  · exact Or.inr hfull

/-- **Execution.** -/
theorem Tracked.executed (h : Tracked ids left start book) (hinv : Inv book)
    (ha : Admissible book o) (hid : o.orderId ∈ ids) (hx : Executed uuid book o report book')
    (hleft : Abandons o report → left o.orderId) :
    Tracked ids left start book' ∧
      ((∃ e, book'.status.find o.orderId = some e) ∨ maxOrderStatusEntries < ids.length) := by
  have hstart := LoopInv.start hinv ha
  have hbook : Tracked ids left start (book.startMatch o).book :=
    h.of_same (by simp [OrderBook.startMatch]) (by simp [OrderBook.startMatch])
      (by simp [OrderBook.startMatch])
  cases hx with
  | blocked t trades inv _ =>
      have ht := hbook.trades hstart trades
      have hown := trades_orderId trades
      have hunqueued := inv.unqueued
      rw [hown] at hunqueued
      rw [OrderBook.selfTradeExit, hown]
      refine ⟨(ht.but hid).setStatus hid _ _ ?_,
        Or.inl ⟨_, (OrderBook.find_setStatus _ _ _ _ _).trans (if_pos rfl)⟩⟩
      by_cases hfills : t.fills.isEmpty = true
      · rw [if_pos hfills]
        exact hunqueued
      · rw [if_neg hfills]
        exact Or.inr (hleft ⟨if_neg hfills, Or.inl rfl⟩)
  | finished t trades inv exhausted st settled hsettled =>
      have ht := hbook.trades hstart trades
      have hown := trades_orderId trades
      have hkind := trades_kind trades
      have hunqueued := inv.unqueued
      rw [hown] at hunqueued ⊢
      -- closing enters the status of the order in a book that is tracked, and that it is right about
      suffices hs : Tracked ids left start settled ∧
          Says (left o.orderId) settled o.orderId (some st) by
        have hstamped := (hs.1.but hid).stamp hid st
          (t.incoming.originalQuantity - t.incoming.remainingQuantity) hs.2
        refine ⟨hstamped.of_same (OrderBook.pruneAuditLog_status _)
          (OrderBook.pruneAuditLog_orderIndex _) (OrderBook.pruneAuditLog_stopOrders _), ?_⟩
        rw [OrderBook.close, OrderBook.pruneAuditLog_status]
        rcases hs.1.within.stamp_own st _ hid with hfound | ⟨_, hfull, _⟩
        · exact Or.inl ⟨_, hfound⟩
        · exact Or.inr hfull
      cases hsettled with
      | filled _ => exact ⟨ht, hunqueued⟩
      | dropped _ hdropped =>
          refine ⟨ht, ?_⟩
          by_cases hfills : t.fills.isEmpty = true
          · rw [if_pos hfills]
            exact hunqueued
          · rw [if_neg hfills]
            exact Or.inr (hleft ⟨if_neg hfills, Or.inr (hkind ▸ hdropped)⟩)
      | expired _ _ => exact ⟨ht, hunqueued⟩
      | rested _ _ price _ =>
          have hindexed : (t.book.restAt t.incoming price).orderIndex.find o.orderId
              = some (t.incoming.side, price) := by
            rw [OrderBook.find_orderIndex_restAt, if_pos hown.symm]
          refine ⟨?_, ?_⟩
          · rw [OrderBook.restAt]
            have hmoved : TrackedBut t.incoming.orderId ids left start
                ((t.book.setLevels t.incoming.side ((t.book.levels t.incoming.side).insert price
                  (PriceLevel.push (((t.book.levels t.incoming.side).find price).getD (.empty price))
                    t.incoming))).indexOrder t.incoming.orderId t.incoming.side price) :=
              ht.moved (hown ▸ hid) (by simp) (fun id' hne => by simp [hne]) fun _ _ => by simp
            exact hmoved.stamp (hown ▸ hid) .new _ ⟨(t.incoming.side, price), by simp⟩
          · split
            · exact ⟨_, hindexed⟩
            · exact Or.inl ⟨_, hindexed⟩

theorem OrderBook.stamp_setStopOrders (book : OrderBook) (stops : List Order) (id : String)
    (st : OrderStatus) (q : Decimal) :
    (book.setStopOrders stops).stamp id st q = (book.stamp id st q).setStopOrders stops := by
  rw [OrderBook.stamp, OrderBook.stamp, OrderBook.pruneStatusLog, OrderBook.pruneStatusLog]
  split <;> split <;> first | rfl | contradiction

/-- **A submission.** -/
theorem Tracked.submitted (h : Tracked ids left start book) (hinv : Inv book) (hid : o.orderId ∈ ids)
    (hx : Submitted uuid book o report book') (hleft : Abandons o report → left o.orderId) :
    Tracked ids left start book' ∧ (report.accepted = true →
      ¬(o.kind = .fok ∧ book.availableCrossingQuantity o < o.remainingQuantity) →
      (∃ e, book'.status.find o.orderId = some e) ∨ maxOrderStatusEntries < ids.length) := by
  cases hx with
  | refused reason why => exact ⟨h, fun haccepted => nomatch haccepted⟩
  | held ha hkind hstop =>
      have hmoved : TrackedBut o.orderId ids left start (book.nextSequenced.setStopOrders
          (book.stopOrders ++ [{ o with sequence := book.nextSequence + 1 }])) := by
        refine h.moved hid rfl (fun _ _ => rfl) fun id' hne => ?_
        rw [OrderBook.setStopOrders_stopOrders, orderIds, List.map_append, List.mem_append]
        exact or_iff_left fun hin => hne (List.mem_singleton.mp hin)
      have hpending : Says (left o.orderId) (book.nextSequenced.setStopOrders
          (book.stopOrders ++ [{ o with sequence := book.nextSequence + 1 }])) o.orderId
            (some .pendingStop) := by
        show o.orderId ∈ orderIds (_ ++ [_])
        rw [orderIds, List.map_append]
        exact List.mem_append_right _ (List.mem_singleton_self _)
      have hstamped := hmoved.stamp hid .pendingStop 0 hpending
      have hown := hmoved.within.stamp_own .pendingStop 0 hid
      have hheld : (book.holdStop o).2 = (book.nextSequenced.setStopOrders
          (book.stopOrders ++ [{ o with sequence := book.nextSequence + 1 }])).stamp o.orderId
            .pendingStop 0 := by
        rw [OrderBook.stamp_setStopOrders, OrderBook.holdStop]
        simp
      rw [hheld]
      refine ⟨hstamped, fun _ _ => ?_⟩
      rcases hown with hfound | ⟨_, hfull, _⟩
      · exact Or.inl ⟨_, hfound⟩
      · exact Or.inr hfull
  | killed _ hkind hshort => exact ⟨h, fun _ hnot => absurd ⟨hkind, hshort⟩ hnot⟩
  | executed ha _ _ _ _ _ result =>
      obtain ⟨htracked, hknown⟩ := h.executed hinv ha hid result hleft
      exact ⟨htracked, fun _ _ => hknown⟩

/-- **A cancellation.** -/
theorem Tracked.cancelled {orderId userId : String} {done : Bool} (h : Tracked ids left start book)
    (hinv : Inv book) (hc : Cancelled book orderId userId done book') :
    Tracked ids left start book' := by
  cases hc with
  | missing _ _ => exact h
  | queued side price level pre order post hl hsplit hid huser =>
      subst hid
      have hrests := (hinv.index order.orderId side price).mpr
        ⟨level, hl, mem_orderIds (by rw [hsplit]; simp)⟩
      have hin := h.within.index _ _ hrests
      have hmoved : TrackedBut order.orderId ids left start ((book.setLevels side
          ((book.levels side).modify price fun _ => level.removeAt pre.length order)).unindexOrder
            order.orderId) :=
        h.moved hin (by simp) (fun id' hne => by simp [hne]) fun _ _ => by simp
      have hunindexed : Says (left order.orderId) ((book.setLevels side
          ((book.levels side).modify price fun _ => level.removeAt pre.length order)).unindexOrder
            order.orderId) order.orderId (some .cancelled) :=
        Says.of_finished (by simp) rfl
      have hstamped := hmoved.stamp hin .cancelled (order.originalQuantity - order.remainingQuantity)
        hunindexed
      rw [OrderBook.removeQueued_eq _ _ _ _ _ _ _ hl]
      split
      · exact hstamped.of_same (by simp) (by simp) (by simp)
      · exact hstamped
  | pending pre order post hsplit hid huser =>
      subst hid
      have hmem : order ∈ book.stopOrders := by rw [hsplit]; simp
      have hpending := hinv.pending order hmem
      have hin := h.within.status _ _ hpending.status
      have hmoved : TrackedBut order.orderId ids left start
          (book.setStopOrders (book.stopOrders.eraseIdx pre.length)) := by
        refine h.moved hin rfl (fun _ _ => rfl) fun id' hne => ?_
        rw [OrderBook.setStopOrders_stopOrders, hsplit, eraseIdx_split, orderIds_split,
          orderIds_append, List.mem_append, List.mem_append, List.mem_cons]
        exact or_congr_right (or_iff_right hne).symm
      exact hmoved.stamp hin .cancelled _ hpending.unindexed

/-- **The orders that are set off**, one after another. -/
theorem ExecutedAll.tracked {orders : List Order} {reports : List ExecutionReport}
    (hx : ExecutedAll uuid book orders reports book') (h : Tracked ids left book book)
    (hids : ∀ o ∈ orders, o.orderId ∈ ids)
    (hleft : ∀ o ∈ orders, ∀ report ∈ reports, report.orderId = o.orderId → Abandons o report →
      left o.orderId) :
    Tracked ids left book book' ∧ ∀ o ∈ orders,
      (∃ e, book'.status.find o.orderId = some e) ∨ maxOrderStatusEntries < ids.length := by
  induction hx with
  | nil uuid book => exact ⟨h, fun o ho => nomatch ho⟩
  | @cons uuid book middle book' o orders report reports inv ready _ head _ ih =>
      obtain ⟨hhead, hown⟩ := h.executed inv ready.admissible (hids o List.mem_cons_self) head
        (hleft o List.mem_cons_self report List.mem_cons_self head.report_orderId)
      obtain ⟨htail, hothers⟩ := ih hhead.refl (fun o' ho' => hids o' (List.mem_cons_of_mem _ ho'))
        fun o' ho' r hr => hleft o' (List.mem_cons_of_mem _ ho') r (List.mem_cons_of_mem _ hr)
      refine ⟨hhead.trans htail, fun o' ho' => ?_⟩
      rcases List.mem_cons.mp ho' with rfl | ho'
      · rcases hown with ⟨e, he⟩ | hfull
        · exact htail.known _ e he
        · exact Or.inr hfull
      · exact hothers o' ho'

/-- The book without the stop orders that a price sets off. -/
theorem Tracked.drained (h : Tracked ids left book book) (hinv : Inv book) (lastPrice : Decimal) :
    Tracked ids left (book.drained lastPrice) (book.drained lastPrice) := by
  have hfind : ∀ id, (book.drained lastPrice).status.find id
      = if id ∈ orderIds (book.setOff lastPrice) then none else book.status.find id := by
    intro id
    show (forgetAll _ _).find id = _
    rw [find_forgetAll, orderIds_setOff]
  refine ⟨⟨fun id e he => ?_, h.within.index⟩, fun id => ?_, fun id e he => Or.inl ⟨e, he⟩⟩
  · rw [hfind] at he
    split at he
    · cases he
    · exact h.within.status id e he
  · by_cases hin : id ∈ orderIds (book.setOff lastPrice)
    · obtain ⟨o, ho, rfl⟩ := List.mem_map.mp hin
      rw [Labels, hfind, if_pos hin]
      exact (hinv.ready lastPrice o ho).absent.index
    · refine (h.labels id).logged (n := 0) ⟨rfl, ?_, Or.inl (by rw [hfind, if_neg hin])⟩
      constructor
      · exact fun hid => (List.filter_sublist.map _).subset hid
      · intro hid
        obtain ⟨o, ho, rfl⟩ := List.mem_map.mp hid
        refine List.mem_map.mpr ⟨o, List.mem_filter.mpr ⟨ho, ?_⟩, rfl⟩
        rw [Bool.not_eq_true', Bool.eq_false_iff]
        intro htriggered
        rw [orderIds_setOff] at hin
        exact hin (mem_orderIds (List.mem_filter.mpr ⟨ho, htriggered⟩))

/-- The orders that a call submits, the stop orders that it sets off included. -/
def OrderBook.performed (book : OrderBook) : BookOp → List Order
  | .submit _ order => [order]
  | .cancel _ _ => []
  | .triggerStops _ lastPrice => book.setOff lastPrice

/-- The reports of a call. -/
def BookReply.reports : BookReply → List ExecutionReport
  | .submitted report => [report]
  | .cancelled _ => []
  | .triggered reports => reports

/-- **Every call keeps what is tracked.** -/
theorem Called.tracked {op : BookOp} {reply : BookReply} (hc : Called book op reply book')
    (hinv : Inv book) (h : Tracked ids left book book)
    (hids : ∀ o ∈ book.performed op, o.orderId ∈ ids)
    (hleft : ∀ o ∈ book.performed op, ∀ report ∈ reply.reports, report.orderId = o.orderId →
      Abandons o report → left o.orderId) : Tracked ids left book book' := by
  cases hc with
  | @submitted uuid o report _ result =>
      have hown := hids o (List.mem_singleton_self _)
      by_cases habandons : Abandons o report
      · have hreport : report.orderId = o.orderId := by
          cases result with
          | executed _ _ _ _ _ _ hx => exact hx.report_orderId
          | _ => rfl
        exact (h.submitted hinv hown result
          (hleft o (List.mem_singleton_self _) report (List.mem_singleton_self _) hreport)).1
      · exact (h.submitted hinv hown result fun ha => absurd ha habandons).1
  | cancelled result => exact h.cancelled hinv result
  | @triggered uuid lastPrice reports _ result =>
      obtain ⟨htracked, hset⟩ := result.tracked (h.drained hinv lastPrice) hids hleft
      refine ⟨htracked.within, htracked.labels, fun id e he => ?_⟩
      by_cases hin : id ∈ orderIds (book.setOff lastPrice)
      · obtain ⟨o, ho, rfl⟩ := List.mem_map.mp hin
        exact hset o ho
      · refine htracked.known id e ?_
        show (forgetAll _ _).find id = _
        rw [find_forgetAll, if_neg (by rwa [orderIds_setOff] at hin)]
        exact he

end Calls

end NexusTrade.MatchingEngine
