import NexusTrade.MatchingEngine.Accessors

/-!
# Trade identifiers

The random identifiers of the trades influence nothing else: an operation on a book whose audit log has
its identifiers erased does what it does on the book, up to the identifiers.

* **`OrderBook.anon`** erases the identifiers from a book, **`ExecutionReport.anon`** from a report;
* **`submit_anon`** and **`cancel_anon`**: the operations commute with erasing;
* **`SameUpToTradeIds`** relates two books; **`submit_same`** and **`cancel_same`** say that the
  operations respect it.
-/

namespace NexusTrade.MatchingEngine

/-- The fill without its identifier. -/
def Fill.anon (fill : Fill) : Fill := { fill with tradeId := "" }

def ExecutionReport.anon (report : ExecutionReport) : ExecutionReport :=
  { report with fills := report.fills.map Fill.anon }

def OrderBook.anon (book : OrderBook) : OrderBook :=
  { book with auditLog := book.auditLog.map Fill.anon }

def MatchState.anon (s : MatchState) : MatchState :=
  ⟨s.book.anon, s.incoming, s.fills.map Fill.anon⟩

/-- A source of empty identifiers. -/
def noIds : UuidSource := fun _ => ""

namespace OrderBook

variable (book : OrderBook)

/-! ### Updates commute with erasing -/

@[simp] theorem levels_anon (side : Side) : book.anon.levels side = book.levels side := by
  cases side <;> rfl

@[simp] theorem level_anon (side : Side) (price : Decimal) :
    book.anon.level side price = book.level side price := by
  rw [level, level, levels_anon]

@[simp] theorem bestPrice_anon (side : Side) : book.anon.bestPrice side = book.bestPrice side := by
  cases side <;> rfl

@[simp] theorem opposingLevels_anon (side : Side) :
    book.anon.opposingLevels side = book.opposingLevels side := by
  cases side <;> rfl

@[simp] theorem anon_setLevels (side : Side) (levels : SortedMap Decimal PriceLevel) :
    (book.setLevels side levels).anon = book.anon.setLevels side levels := by
  cases side <;> rfl

@[simp] theorem anon_setStatus (id : String) (st : OrderStatus) (q : Decimal) :
    (book.setStatus id st q).anon = book.anon.setStatus id st q := rfl

@[simp] theorem anon_indexOrder (id : String) (side : Side) (price : Decimal) :
    (book.indexOrder id side price).anon = book.anon.indexOrder id side price := rfl

@[simp] theorem anon_unindexOrder (id : String) :
    (book.unindexOrder id).anon = book.anon.unindexOrder id := rfl

@[simp] theorem anon_pushFill (fill : Fill) :
    (book.pushFill fill).anon = book.anon.pushFill fill.anon := by
  simp [OrderBook.anon, pushFill]

@[simp] theorem anon_nextSequenced : book.nextSequenced.anon = book.anon.nextSequenced := rfl

@[simp] theorem anon_setStopOrders (stops : List Order) :
    (book.setStopOrders stops).anon = book.anon.setStopOrders stops := rfl

@[simp] theorem anon_removeLevel (side : Side) (price : Decimal) :
    (book.removeLevel side price).anon = book.anon.removeLevel side price := by
  rw [removeLevel, removeLevel, anon_setLevels, levels_anon]

@[simp] theorem anon_pruneStatusLog : book.pruneStatusLog.anon = book.anon.pruneStatusLog := by
  rw [pruneStatusLog, pruneStatusLog]
  show (if book.status.size ≤ maxOrderStatusEntries then _ else _ : OrderBook).anon
    = if book.status.size ≤ maxOrderStatusEntries then _ else _
  split <;> rfl

@[simp] theorem anon_pruneAuditLog : book.pruneAuditLog.anon = book.anon.pruneAuditLog := by
  have hlength : book.anon.auditLog.length = book.auditLog.length := List.length_map _
  rw [pruneAuditLog, pruneAuditLog, hlength]
  generalize maxAuditLogFills = room
  split
  · simp only [OrderBook.anon, List.map_drop]
  · rfl

@[simp] theorem anon_recordMaker (resting : Order) :
    (book.recordMaker resting).anon = book.anon.recordMaker resting := by
  rw [recordMaker, recordMaker]
  split <;> simp

@[simp] theorem anon_restAt (order : Order) (price : Decimal) :
    (book.restAt order price).anon = book.anon.restAt order price := by
  simp [restAt]

@[simp] theorem anon_close (id : String) (st : OrderStatus) (q : Decimal) :
    (book.close id st q).anon = book.anon.close id st q := by
  simp [close]

theorem isSelfTrade_anon (side : Side) (price : Decimal) (userId : String) :
    book.anon.isSelfTrade side price userId = book.isSelfTrade side price userId := by
  simp only [isSelfTrade, level_anon]

theorem wouldCross_anon (o : Order) : book.anon.wouldCross o = book.wouldCross o := by
  simp only [wouldCross, bestPrice_anon]

theorem availableCrossingQuantity_anon (o : Order) :
    book.anon.availableCrossingQuantity o = book.availableCrossingQuantity o := by
  simp only [availableCrossingQuantity, opposingLevels_anon]

theorem opposingOrders_anon (side : Side) :
    book.anon.opposingOrders side = book.opposingOrders side := by
  simp only [opposingOrders, opposingLevels_anon]

end OrderBook

/-! ### The matching loop -/

theorem anon_trade (uuid : UuidSource) (s : MatchState) (price : Decimal) (level : PriceLevel)
    (resting : Order) (queue : List Order) :
    (s.trade uuid price level resting queue).anon
      = s.anon.trade noIds price level resting queue := by
  have hfill : (s.fill uuid price resting).anon = s.anon.fill noIds price resting := rfl
  have hincoming : s.anon.incoming = s.incoming := rfl
  simp only [MatchState.trade, MatchState.anon, List.map_append, List.map_cons, List.map_nil, hfill,
    apply_ite OrderBook.anon, OrderBook.anon_removeLevel, OrderBook.anon_recordMaker,
    OrderBook.anon_pushFill, OrderBook.anon_setLevels, OrderBook.levels_anon]

/-- What a pass leads to, without identifiers. -/
def Pass.anon : Pass → Pass
  | .finished => .finished
  | .selfTrade => .selfTrade
  | .traded next => .traded next.anon

theorem matchPass_anon (uuid : UuidSource) (s : MatchState) :
    matchPass noIds s.anon = (matchPass uuid s).map Pass.anon := by
  have hincoming : s.anon.incoming = s.incoming := rfl
  have hbook : s.anon.book = s.book.anon := rfl
  simp only [matchPass, hincoming, hbook, OrderBook.bestPrice_anon, OrderBook.isSelfTrade_anon,
    OrderBook.level_anon]
  split
  · rfl
  · cases s.book.bestPrice s.incoming.side with
    | none => rfl
    | some price =>
        simp only
        split
        · rfl
        · split
          · rfl
          · cases s.book.level (opposite s.incoming.side) price with
            | none => rfl
            | some level =>
                simp only
                cases level.orders with
                | nil => rfl
                | cons resting queue =>
                    show Except.ok (Pass.traded _) = Except.ok (Pass.traded _)
                    rw [anon_trade]

theorem matchLoop_anon (uuid : UuidSource) (fuel : ℕ) : ∀ s : MatchState,
    matchLoop noIds fuel s.anon = (matchLoop uuid fuel s).map fun r => (r.1, r.2.anon) := by
  induction fuel with
  | zero => intro s; rfl
  | succ fuel ih =>
      intro s
      rw [matchLoop, matchLoop, matchPass_anon uuid]
      cases matchPass uuid s with
      | error p => rfl
      | ok pass =>
          cases pass with
          | finished => rfl
          | selfTrade => rfl
          | traded next => exact ih next

/-! ### Submitting and cancelling -/

/-- A report and a book without identifiers. -/
def anonResult (r : ExecutionReport × OrderBook) : ExecutionReport × OrderBook := (r.1.anon, r.2.anon)

theorem isEmpty_anon (s : MatchState) : s.anon.fills.isEmpty = s.fills.isEmpty := by
  rw [MatchState.anon, List.isEmpty_map]

theorem settleRemainder_anon (s : MatchState) :
    OrderBook.settleRemainder s.anon
      = (OrderBook.settleRemainder s).map fun r => (r.1, r.2.anon) := by
  have hincoming : s.anon.incoming = s.incoming := rfl
  have hbook : s.anon.book = s.book.anon := rfl
  rw [OrderBook.settleRemainder, OrderBook.settleRemainder, isEmpty_anon, hincoming, hbook]
  split
  · rfl
  · split
    · rfl
    · split
      · rfl
      · rw [OrderBook.rest, OrderBook.rest]
        cases s.incoming.price with
        | none => rfl
        | some price =>
            simp only [ok_bind, Except.map, OrderBook.anon_restAt]

theorem finish_anon (s : MatchState) :
    OrderBook.finish s.anon = (OrderBook.finish s).map anonResult := by
  rw [OrderBook.finish, OrderBook.finish, settleRemainder_anon]
  cases OrderBook.settleRemainder s with
  | error p => rfl
  | ok r =>
      simp only [Except.map, ok_bind, anonResult, OrderBook.anon_close]
      rfl

theorem selfTradeExit_anon (s : MatchState) :
    OrderBook.selfTradeExit s.anon = anonResult (OrderBook.selfTradeExit s) := by
  simp only [OrderBook.selfTradeExit, isEmpty_anon, anonResult, OrderBook.anon_setStatus]
  rfl

theorem execute_anon (uuid : UuidSource) (book : OrderBook) (o : Order) :
    book.anon.execute noIds o = (book.execute uuid o).map anonResult := by
  have hstart : book.anon.startMatch o = (book.startMatch o).anon := rfl
  rw [OrderBook.execute, OrderBook.execute, OrderBook.opposingOrders_anon, hstart,
    matchLoop_anon uuid]
  cases matchLoop uuid ((book.opposingOrders o.side).length + 1) (book.startMatch o) with
  | error p => rfl
  | ok r =>
      obtain ⟨selfTrade, s⟩ := r
      cases selfTrade with
      | true => exact congrArg Except.ok (selfTradeExit_anon s)
      | false => exact finish_anon s

theorem holdStop_anon (book : OrderBook) (o : Order) :
    book.anon.holdStop o = anonResult (book.holdStop o) := by
  simp only [OrderBook.holdStop, anonResult, OrderBook.anon_setStopOrders,
    OrderBook.anon_pruneStatusLog, OrderBook.anon_setStatus, OrderBook.anon_nextSequenced,
    OrderBook.pruneStatusLog_stopOrders, OrderBook.setStatus_stopOrders,
    OrderBook.nextSequenced_stopOrders]
  rfl

/-- **Submitting commutes with erasing trade identifiers.** -/
theorem submit_anon (uuid : UuidSource) (book : OrderBook) (o : Order) :
    book.anon.submit noIds o = (book.submit uuid o).map anonResult := by
  have hstatus : book.anon.status = book.status := rfl
  have hindex : book.anon.orderIndex = book.orderIndex := rfl
  rw [OrderBook.submit, OrderBook.submit, hstatus, hindex, holdStop_anon,
    OrderBook.wouldCross_anon, OrderBook.availableCrossingQuantity_anon, execute_anon uuid]
  repeat' split
  all_goals rfl

theorem removeQueued_anon (book : OrderBook) (side : Side) (price : Decimal) (level : PriceLevel)
    (pos : ℕ) (o : Order) (orderId : String) :
    book.anon.removeQueued side price level pos o orderId
      = (book.removeQueued side price level pos o orderId).anon := by
  simp only [OrderBook.removeQueued, apply_ite OrderBook.anon, OrderBook.anon_removeLevel,
    OrderBook.anon_pruneStatusLog, OrderBook.anon_setStatus, OrderBook.anon_unindexOrder,
    OrderBook.anon_setLevels, OrderBook.levels_anon, OrderBook.levelIsEmpty, OrderBook.level,
    OrderBook.levels_pruneStatusLog, OrderBook.levels_setStatus, OrderBook.levels_unindexOrder,
    OrderBook.levels_setLevels]

/-- **Cancelling commutes with erasing trade identifiers.** -/
theorem cancel_anon (book : OrderBook) (orderId userId : String) :
    book.anon.cancel orderId userId
      = (book.cancel orderId userId).map fun r => (r.1, r.2.anon) := by
  have hindex : book.anon.orderIndex = book.orderIndex := rfl
  have hstops : book.anon.stopOrders = book.stopOrders := rfl
  rw [OrderBook.cancel, OrderBook.cancel, hindex]
  cases book.orderIndex.find orderId with
  | none =>
      simp only
      rw [OrderBook.cancelStopOrder, OrderBook.cancelStopOrder, hstops]
      cases book.stopOrders.findIdx? fun o => o.orderId = orderId ∧ o.userId = userId with
      | none => rfl
      | some pos =>
          simp only
          cases book.stopOrders[pos]? with
          | none => rfl
          | some o => simp [OrderBook.removePending, Except.map, hstops]
  | some entry =>
      obtain ⟨side, price⟩ := entry
      simp only [OrderBook.level_anon]
      cases book.level side price with
      | none => rfl
      | some level =>
          simp only
          cases level.orders.findIdx? fun o => o.orderId = orderId ∧ o.userId = userId with
          | none => rfl
          | some pos =>
              simp only
              cases level.orders[pos]? with
              | none => rfl
              | some o =>
                  exact congrArg (fun b => Except.ok (true, b)) (removeQueued_anon book _ _ _ _ _ _)

/-! ### Triggering stop orders -/

theorem submitAll_anon (orders : List Order) : ∀ (uuid : UuidSource) (book : OrderBook),
    OrderBook.submitAll noIds book.anon orders
      = (OrderBook.submitAll uuid book orders).map fun r => (r.1.map ExecutionReport.anon, r.2.anon) := by
  induction orders with
  | nil => exact fun uuid book => rfl
  | cons o orders ih =>
      intro uuid book
      have hhead : noIds.head = noIds := rfl
      have htail : noIds.tail = noIds := rfl
      rw [OrderBook.submitAll, OrderBook.submitAll, hhead, htail, submit_anon uuid.head]
      cases book.submit uuid.head o with
      | error p => rfl
      | ok r =>
          obtain ⟨report, book'⟩ := r
          simp only [Except.map, anonResult, ok_bind, ih uuid.tail book']
          cases OrderBook.submitAll uuid.tail book' orders with
          | error p => rfl
          | ok r => rfl

/-- **Triggering stop orders commutes with erasing trade identifiers.** -/
theorem triggerStops_anon (uuid : UuidSource) (book : OrderBook) (lastPrice : Decimal) :
    book.anon.triggerStops noIds lastPrice
      = (book.triggerStops uuid lastPrice).map fun r => (r.1.map ExecutionReport.anon, r.2.anon) := by
  have hstatus : book.anon.status = book.status := rfl
  have hstops : book.anon.stopOrders = book.stopOrders := rfl
  rw [OrderBook.triggerStops, OrderBook.triggerStops, hstatus, hstops]
  cases OrderBook.drainStops lastPrice book.status book.stopOrders with
  | error p => rfl
  | ok r => exact submitAll_anon r.1 uuid { book with stopOrders := r.2.1, status := r.2.2 }

/-! ### Books that differ in trade identifiers only -/

/-- The books are the same but for the identifiers in their audit logs. -/
def SameUpToTradeIds (book book' : OrderBook) : Prop := book.anon = book'.anon

theorem submit_same {uuid : UuidSource} (uuid' : UuidSource) {book book₁ book' : OrderBook} {o : Order}
    {report : ExecutionReport} (h : SameUpToTradeIds book book')
    (hsubmit : book.submit uuid o = .ok (report, book₁)) :
    ∃ report' book₁', book'.submit uuid' o = .ok (report', book₁') ∧ SameUpToTradeIds book₁ book₁' := by
  have hleft := submit_anon uuid book o
  rw [h, submit_anon uuid' book' o, hsubmit] at hleft
  cases hs : book'.submit uuid' o with
  | error p => rw [hs] at hleft; cases hleft
  | ok r =>
      rw [hs] at hleft
      exact ⟨r.1, r.2, rfl, (Prod.mk.inj (Except.ok.inj hleft)).2.symm⟩

theorem cancel_same {book book₁ book' : OrderBook} {orderId userId : String} {done : Bool}
    (h : SameUpToTradeIds book book') (hcancel : book.cancel orderId userId = .ok (done, book₁)) :
    ∃ book₁', book'.cancel orderId userId = .ok (done, book₁') ∧ SameUpToTradeIds book₁ book₁' := by
  have hleft := cancel_anon book orderId userId
  rw [h, cancel_anon book' orderId userId, hcancel] at hleft
  cases hs : book'.cancel orderId userId with
  | error p => rw [hs] at hleft; cases hleft
  | ok r =>
      rw [hs] at hleft
      obtain ⟨hdone, hbook⟩ := Prod.mk.inj (Except.ok.inj hleft)
      exact ⟨r.2, congrArg (fun b => Except.ok (b, r.2)) hdone, hbook.symm⟩

end NexusTrade.MatchingEngine
