import NexusTrade.Lib.Run
import NexusTrade.MatchingEngine.OrderBook

/-!
# What the operations of the order book read and write

One lemma per component and update of the book, so that later proofs never unfold an update:

* the field updates leave every other component alone (`levels_setLevels` and the `simp` set around it);
* **pruning** only forgets: an entry of the status log that is retained stays (`find_pruneStatusLog`);
* **a trade** changes one level of the opposite side, the index entry and the status entry of the maker
  (`MatchState.level_trade`, `MatchState.index_trade`, `MatchState.find_of_trade`).
-/

namespace NexusTrade.MatchingEngine

/-! ### Sides -/

@[simp] theorem opposite_opposite (side : Side) : opposite (opposite side) = side := by
  cases side <;> rfl

namespace OrderBook

variable (book : OrderBook)

/-! ### Field updates -/

@[simp] theorem setLevels_stopOrders (side m) : (book.setLevels side m).stopOrders = book.stopOrders := by
  cases side <;> rfl

@[simp] theorem setLevels_orderIndex (side m) : (book.setLevels side m).orderIndex = book.orderIndex := by
  cases side <;> rfl

@[simp] theorem setLevels_status (side m) : (book.setLevels side m).status = book.status := by
  cases side <;> rfl

@[simp] theorem setLevels_auditLog (side m) : (book.setLevels side m).auditLog = book.auditLog := by
  cases side <;> rfl

@[simp] theorem setLevels_nextSequence (side m) :
    (book.setLevels side m).nextSequence = book.nextSequence := by
  cases side <;> rfl

@[simp] theorem levels_setLevels (side side' : Side) (m : SortedMap Decimal PriceLevel) :
    (book.setLevels side m).levels side' = if side' = side then m else book.levels side' := by
  cases side <;> cases side' <;> rfl

@[simp] theorem levels_withAudit (log) (side : Side) :
    ({ book with auditLog := log } : OrderBook).levels side = book.levels side := by
  cases side <;> rfl

@[simp] theorem levels_withStatus (status) (side : Side) :
    ({ book with status := status } : OrderBook).levels side = book.levels side := by
  cases side <;> rfl

@[simp] theorem levels_withStopsStatus (stops status) (side : Side) :
    ({ book with stopOrders := stops, status := status } : OrderBook).levels side
      = book.levels side := by
  cases side <;> rfl

@[simp] theorem levels_indexOrder (id s p) (side : Side) :
    (book.indexOrder id s p).levels side = book.levels side := by
  cases side <;> rfl

@[simp] theorem indexOrder_stopOrders (id s p) :
    (book.indexOrder id s p).stopOrders = book.stopOrders := rfl

@[simp] theorem indexOrder_status (id s p) : (book.indexOrder id s p).status = book.status := rfl

@[simp] theorem indexOrder_auditLog (id s p) :
    (book.indexOrder id s p).auditLog = book.auditLog := rfl

@[simp] theorem indexOrder_nextSequence (id s p) :
    (book.indexOrder id s p).nextSequence = book.nextSequence := rfl

@[simp] theorem indexOrder_orderIndex (id s p) :
    (book.indexOrder id s p).orderIndex = book.orderIndex.insert id (s, p) := rfl

@[simp] theorem levels_unindexOrder (id) (side : Side) :
    (book.unindexOrder id).levels side = book.levels side := by
  cases side <;> rfl

@[simp] theorem unindexOrder_stopOrders (id) :
    (book.unindexOrder id).stopOrders = book.stopOrders := rfl

@[simp] theorem unindexOrder_status (id) : (book.unindexOrder id).status = book.status := rfl

@[simp] theorem unindexOrder_auditLog (id) : (book.unindexOrder id).auditLog = book.auditLog := rfl

@[simp] theorem unindexOrder_nextSequence (id) :
    (book.unindexOrder id).nextSequence = book.nextSequence := rfl

@[simp] theorem unindexOrder_orderIndex (id) :
    (book.unindexOrder id).orderIndex = book.orderIndex.erase id := rfl

@[simp] theorem levels_pushFill (fill) (side : Side) :
    (book.pushFill fill).levels side = book.levels side := by
  cases side <;> rfl

@[simp] theorem pushFill_stopOrders (fill) : (book.pushFill fill).stopOrders = book.stopOrders := rfl

@[simp] theorem pushFill_status (fill) : (book.pushFill fill).status = book.status := rfl

@[simp] theorem pushFill_orderIndex (fill) : (book.pushFill fill).orderIndex = book.orderIndex := rfl

@[simp] theorem pushFill_nextSequence (fill) :
    (book.pushFill fill).nextSequence = book.nextSequence := rfl

@[simp] theorem pushFill_auditLog (fill) :
    (book.pushFill fill).auditLog = book.auditLog ++ [fill] := rfl

@[simp] theorem levels_nextSequenced (side : Side) :
    book.nextSequenced.levels side = book.levels side := by
  cases side <;> rfl

@[simp] theorem nextSequenced_stopOrders : book.nextSequenced.stopOrders = book.stopOrders := rfl

@[simp] theorem nextSequenced_status : book.nextSequenced.status = book.status := rfl

@[simp] theorem nextSequenced_orderIndex : book.nextSequenced.orderIndex = book.orderIndex := rfl

@[simp] theorem nextSequenced_auditLog : book.nextSequenced.auditLog = book.auditLog := rfl

@[simp] theorem nextSequenced_nextSequence :
    book.nextSequenced.nextSequence = book.nextSequence + 1 := rfl

@[simp] theorem levels_setStopOrders (stops) (side : Side) :
    (book.setStopOrders stops).levels side = book.levels side := by
  cases side <;> rfl

@[simp] theorem setStopOrders_stopOrders (stops) :
    (book.setStopOrders stops).stopOrders = stops := rfl

@[simp] theorem setStopOrders_status (stops) : (book.setStopOrders stops).status = book.status := rfl

@[simp] theorem setStopOrders_orderIndex (stops) :
    (book.setStopOrders stops).orderIndex = book.orderIndex := rfl

@[simp] theorem setStopOrders_auditLog (stops) :
    (book.setStopOrders stops).auditLog = book.auditLog := rfl

@[simp] theorem setStopOrders_nextSequence (stops) :
    (book.setStopOrders stops).nextSequence = book.nextSequence := rfl

@[simp] theorem levels_setStatus (id st q) (side : Side) :
    (book.setStatus id st q).levels side = book.levels side := by
  cases side <;> rfl

@[simp] theorem setStatus_stopOrders (id st q) :
    (book.setStatus id st q).stopOrders = book.stopOrders := rfl

@[simp] theorem setStatus_orderIndex (id st q) :
    (book.setStatus id st q).orderIndex = book.orderIndex := rfl

@[simp] theorem setStatus_auditLog (id st q) : (book.setStatus id st q).auditLog = book.auditLog := rfl

@[simp] theorem setStatus_nextSequence (id st q) :
    (book.setStatus id st q).nextSequence = book.nextSequence := rfl

@[simp] theorem find_setStatus (id st q) (id' : String) :
    (book.setStatus id st q).status.find id'
      = if id' = id then some (st, q) else book.status.find id' := by
  simp [setStatus]

theorem find_of_setStatus {oid : String} {st : OrderStatus} {q : Decimal} {id : String}
    {e : OrderStatus × Decimal} (h : (book.setStatus oid st q).status.find id = some e) :
    (id = oid ∧ e = (st, q)) ∨ (id ≠ oid ∧ book.status.find id = some e) := by
  rw [find_setStatus] at h
  by_cases hid : id = oid
  · rw [if_pos hid] at h
    cases h
    exact Or.inl ⟨hid, rfl⟩
  · rw [if_neg hid] at h
    exact Or.inr ⟨hid, h⟩

/-! ### Pruning -/

@[simp] theorem levels_pruneStatusLog (side : Side) :
    book.pruneStatusLog.levels side = book.levels side := by
  unfold pruneStatusLog
  split
  · rfl
  · exact levels_withStatus _ _ _

@[simp] theorem pruneStatusLog_stopOrders : book.pruneStatusLog.stopOrders = book.stopOrders := by
  unfold pruneStatusLog
  split <;> rfl

@[simp] theorem pruneStatusLog_orderIndex : book.pruneStatusLog.orderIndex = book.orderIndex := by
  unfold pruneStatusLog
  split <;> rfl

@[simp] theorem pruneStatusLog_auditLog : book.pruneStatusLog.auditLog = book.auditLog := by
  unfold pruneStatusLog
  split <;> rfl

@[simp] theorem pruneStatusLog_nextSequence :
    book.pruneStatusLog.nextSequence = book.nextSequence := by
  unfold pruneStatusLog
  split <;> rfl

/-- **Pruning only forgets.**  An entry of the pruned log was an entry of the log. -/
theorem find_of_pruneStatusLog {id : String} {e : OrderStatus × Decimal}
    (h : book.pruneStatusLog.status.find id = some e) : book.status.find id = some e := by
  unfold pruneStatusLog at h
  split at h
  · exact h
  · simp only [SortedMap.find_filter, Option.filter_eq_some_iff] at h
    exact h.1

/-- **Pruning keeps what it retains.** -/
theorem find_pruneStatusLog {id : String} {e : OrderStatus × Decimal}
    (h : book.status.find id = some e) (hr : book.retainsStatus id e = true) :
    book.pruneStatusLog.status.find id = some e := by
  unfold pruneStatusLog
  split
  · exact h
  · simp only [SortedMap.find_filter, Option.filter_eq_some_iff]
    exact ⟨h, hr⟩

theorem find_pruneStatusLog_pending {id : String} {q : Decimal}
    (h : book.status.find id = some (.pendingStop, q)) :
    book.pruneStatusLog.status.find id = some (.pendingStop, q) :=
  book.find_pruneStatusLog h (by simp [retainsStatus])

theorem find_pruneStatusLog_none {id : String} (h : book.status.find id = none) :
    book.pruneStatusLog.status.find id = none := by
  cases hf : book.pruneStatusLog.status.find id with
  | none => rfl
  | some e => rw [book.find_of_pruneStatusLog hf] at h; cases h

@[simp] theorem levels_pruneAuditLog (side : Side) :
    book.pruneAuditLog.levels side = book.levels side := by
  unfold pruneAuditLog
  split
  · exact levels_withAudit _ _ _
  · rfl

@[simp] theorem pruneAuditLog_stopOrders : book.pruneAuditLog.stopOrders = book.stopOrders := by
  unfold pruneAuditLog
  split <;> rfl

@[simp] theorem pruneAuditLog_orderIndex : book.pruneAuditLog.orderIndex = book.orderIndex := by
  unfold pruneAuditLog
  split <;> rfl

@[simp] theorem pruneAuditLog_status : book.pruneAuditLog.status = book.status := by
  unfold pruneAuditLog
  split <;> rfl

@[simp] theorem pruneAuditLog_nextSequence :
    book.pruneAuditLog.nextSequence = book.nextSequence := by
  unfold pruneAuditLog
  split <;> rfl

/-! ### Levels -/

theorem level_congr {b b' : OrderBook} {side : Side} (h : b'.levels side = b.levels side)
    (price : Decimal) : b'.level side price = b.level side price := by
  unfold level
  rw [h]

@[simp] theorem removeLevel_stopOrders (side p) :
    (book.removeLevel side p).stopOrders = book.stopOrders := setLevels_stopOrders _ _ _

@[simp] theorem removeLevel_orderIndex (side p) :
    (book.removeLevel side p).orderIndex = book.orderIndex := setLevels_orderIndex _ _ _

@[simp] theorem removeLevel_status (side p) : (book.removeLevel side p).status = book.status :=
  setLevels_status _ _ _

@[simp] theorem removeLevel_auditLog (side p) :
    (book.removeLevel side p).auditLog = book.auditLog := setLevels_auditLog _ _ _

@[simp] theorem removeLevel_nextSequence (side p) :
    (book.removeLevel side p).nextSequence = book.nextSequence := setLevels_nextSequence _ _ _

@[simp] theorem levels_removeLevel (side side' : Side) (p : Decimal) :
    (book.removeLevel side p).levels side'
      = if side' = side then (book.levels side).erase p else book.levels side' := by
  rw [removeLevel, levels_setLevels]

/-- The best price of the opposite side names a level of that side. -/
theorem level_of_bestPrice {side : Side} {price : Decimal} (h : book.bestPrice side = some price) :
    ∃ l, book.level (opposite side) price = some l := by
  cases side with
  | buy =>
      obtain ⟨⟨p, l⟩, hf, rfl⟩ := Option.map_eq_some_iff.mp h
      exact ⟨l, SortedMap.find_of_first hf⟩
  | sell =>
      obtain ⟨⟨p, l⟩, hf, rfl⟩ := Option.map_eq_some_iff.mp h
      exact ⟨l, SortedMap.find_of_last hf⟩

/-- What it means for one price of a side to be at least as good as another for those who trade
against that side. -/
def betterOrEqual : Side → Decimal → Decimal → Prop
  | .buy, p, q => q ≤ p
  | .sell, p, q => p ≤ q

/-- No level of the opposite side is better than the best price. -/
theorem bestPrice_best {side : Side} {price p : Decimal} {l : PriceLevel}
    (h : book.bestPrice side = some price) (hl : book.level (opposite side) p = some l) :
    betterOrEqual (opposite side) price p := by
  cases side with
  | buy =>
      obtain ⟨⟨q, l'⟩, hf, rfl⟩ := Option.map_eq_some_iff.mp h
      exact SortedMap.first_le hf hl
  | sell =>
      obtain ⟨⟨q, l'⟩, hf, rfl⟩ := Option.map_eq_some_iff.mp h
      exact SortedMap.le_last hf hl

/-- Without a best price the opposite side has no level. -/
theorem level_of_bestPrice_none {side : Side} (h : book.bestPrice side = none) (p : Decimal) :
    book.level (opposite side) p = none := by
  have hentries : (book.levels (opposite side)).entries = [] := by
    cases side with
    | buy => exact (SortedMap.first_eq_none_iff _).mp (Option.map_eq_none_iff.mp h)
    | sell => exact (SortedMap.last_eq_none_iff _).mp (Option.map_eq_none_iff.mp h)
  refine (SortedMap.find_eq_none_iff _ _).mpr fun x hx => ?_
  rw [hentries] at hx
  cases hx

/-- An order crosses every price that is at least as good as one it crosses. -/
theorem crosses_of_betterOrEqual {order : Order} {p q : Decimal}
    (hpq : betterOrEqual (opposite order.side) p q) (hq : crosses order q = true) :
    crosses order p = true := by
  unfold crosses at hq ⊢
  cases hside : order.side with
  | buy =>
      rw [hside] at hpq hq
      cases hk : order.kind <;> cases hp : order.price <;>
        simp only [hk, hp, decide_eq_true_eq, Bool.false_eq_true] at hq ⊢ <;>
        exact le_trans hpq hq
  | sell =>
      rw [hside] at hpq hq
      cases hk : order.kind <;> cases hp : order.price <;>
        simp only [hk, hp, decide_eq_true_eq, Bool.false_eq_true] at hq ⊢ <;>
        exact le_trans hq hpq

/-! ### The maker's bookkeeping -/

/-- The status entry of a maker after a trade. -/
def makerEntry (resting : Order) : OrderStatus × Decimal :=
  if resting.remainingQuantity = 0 then (.filled, resting.originalQuantity)
  else (.partiallyFilled, resting.originalQuantity - resting.remainingQuantity)

@[simp] theorem levels_recordMaker (resting : Order) (side : Side) :
    (book.recordMaker resting).levels side = book.levels side := by
  unfold recordMaker
  split
  · rw [levels_setStatus, levels_unindexOrder]
  · rw [levels_pruneStatusLog, levels_setStatus]

@[simp] theorem recordMaker_stopOrders (resting : Order) :
    (book.recordMaker resting).stopOrders = book.stopOrders := by
  unfold recordMaker
  split <;> simp

@[simp] theorem recordMaker_auditLog (resting : Order) :
    (book.recordMaker resting).auditLog = book.auditLog := by
  unfold recordMaker
  split <;> simp

@[simp] theorem recordMaker_nextSequence (resting : Order) :
    (book.recordMaker resting).nextSequence = book.nextSequence := by
  unfold recordMaker
  split <;> simp

theorem find_orderIndex_recordMaker (resting : Order) (id : String) :
    (book.recordMaker resting).orderIndex.find id
      = if resting.remainingQuantity = 0 ∧ id = resting.orderId then none
        else book.orderIndex.find id := by
  unfold recordMaker
  by_cases hr : resting.remainingQuantity = 0 <;> simp [hr]

/-- What the status log says of an identifier after its maker is recorded. -/
theorem find_of_recordMaker {resting : Order} {id : String} {e : OrderStatus × Decimal}
    (h : (book.recordMaker resting).status.find id = some e) :
    (id = resting.orderId ∧ e = makerEntry resting) ∨
      (id ≠ resting.orderId ∧ book.status.find id = some e) := by
  unfold recordMaker at h
  split at h
  · rename_i hzero
    rw [makerEntry, if_pos hzero]
    exact find_of_setStatus _ h
  · rename_i hzero
    rw [makerEntry, if_neg hzero]
    exact find_of_setStatus _ (find_of_pruneStatusLog _ h)

end OrderBook

/-! ### A trade -/

namespace MatchState

variable (uuid : UuidSource) (s : MatchState) (price : Decimal) (level : PriceLevel)
  (resting : Order) (queue : List Order)

@[simp] theorem trade_incoming : (s.trade uuid price level resting queue).incoming
    = s.incoming.reduce (tradeQuantity s.incoming resting) := rfl

@[simp] theorem trade_fills : (s.trade uuid price level resting queue).fills
    = s.fills ++ [s.fill uuid price resting] := rfl

@[simp] theorem trade_stopOrders :
    (s.trade uuid price level resting queue).book.stopOrders = s.book.stopOrders := by
  simp only [trade]
  split <;> simp

@[simp] theorem trade_nextSequence :
    (s.trade uuid price level resting queue).book.nextSequence = s.book.nextSequence := by
  simp only [trade]
  split <;> simp

@[simp] theorem trade_auditLog : (s.trade uuid price level resting queue).book.auditLog
    = s.book.auditLog ++ [s.fill uuid price resting] := by
  simp only [trade]
  split <;> simp

/-- The level the queue of which a trade changes, as the trade leaves it. -/
def tradedLevel (s : MatchState) (level : PriceLevel) (resting : Order) (queue : List Order) :
    PriceLevel :=
  level.tradeFront resting queue (tradeQuantity s.incoming resting)

/-- The levels of a side after a trade. -/
theorem levels_trade (side : Side) :
    (s.trade uuid price level resting queue).book.levels side
      = if side = opposite s.incoming.side then
          if (s.tradedLevel level resting queue).orders = [] then
            ((s.book.levels side).modify price fun _ => s.tradedLevel level resting queue).erase price
          else (s.book.levels side).modify price fun _ => s.tradedLevel level resting queue
        else s.book.levels side := by
  simp only [trade, tradedLevel, ← List.isEmpty_iff]
  by_cases hs : side = opposite s.incoming.side <;> split <;> simp [hs]

/-- **The levels after a trade, by price.**  Only the traded level changes, and it goes when its queue
is empty. -/
theorem level_trade (side : Side) (p : Decimal)
    (hl : s.book.level (opposite s.incoming.side) price = some level) :
    (s.trade uuid price level resting queue).book.level side p
      = if side = opposite s.incoming.side ∧ p = price then
          if (s.tradedLevel level resting queue).orders = [] then none
          else some (s.tradedLevel level resting queue)
        else s.book.level side p := by
  have hfind : (s.book.levels (opposite s.incoming.side)).find price = some level := hl
  rw [OrderBook.level, levels_trade]
  by_cases hs : side = opposite s.incoming.side
  · subst hs
    by_cases hp : p = price <;> split_ifs <;> simp_all [OrderBook.level]
  · simp [hs, OrderBook.level]

/-- **The index after a trade.**  A filled maker leaves it. -/
theorem index_trade (id : String) :
    (s.trade uuid price level resting queue).book.orderIndex.find id
      = if (resting.reduce (tradeQuantity s.incoming resting)).remainingQuantity = 0
          ∧ id = resting.orderId then none
        else s.book.orderIndex.find id := by
  have h : ∀ b : OrderBook, b.orderIndex = s.book.orderIndex →
      (b.recordMaker (resting.reduce (tradeQuantity s.incoming resting))).orderIndex.find id
        = if (resting.reduce (tradeQuantity s.incoming resting)).remainingQuantity = 0
            ∧ id = resting.orderId then none
          else s.book.orderIndex.find id := by
    intro b hb
    rw [OrderBook.find_orderIndex_recordMaker, hb]
    rfl
  simp only [trade]
  split
  · rw [OrderBook.removeLevel_orderIndex]
    exact h _ (by simp)
  · exact h _ (by simp)

/-- A trade leaves the status entries of pending stop orders other than the maker alone. -/
theorem pending_trade {id : String} {q : Decimal} (hid : id ≠ resting.orderId)
    (h : s.book.status.find id = some (.pendingStop, q)) :
    (s.trade uuid price level resting queue).book.status.find id = some (.pendingStop, q) := by
  have hrec : ∀ b : OrderBook, b.status = s.book.status →
      (b.recordMaker (resting.reduce (tradeQuantity s.incoming resting))).status.find id
        = some (.pendingStop, q) := by
    intro b hb
    have hid' : id ≠ (resting.reduce (tradeQuantity s.incoming resting)).orderId := hid
    unfold OrderBook.recordMaker
    split
    · rw [OrderBook.find_setStatus, if_neg hid']
      show b.status.find id = _
      rw [hb, h]
    · apply OrderBook.find_pruneStatusLog_pending
      rw [OrderBook.find_setStatus, if_neg hid', hb, h]
  simp only [trade]
  split
  · rw [OrderBook.removeLevel_status]
    exact hrec _ (by simp)
  · exact hrec _ (by simp)

/-- **The status log after a trade** says what it said before, except of the maker. -/
theorem find_of_trade {id : String} {e : OrderStatus × Decimal}
    (h : (s.trade uuid price level resting queue).book.status.find id = some e) :
    (id = resting.orderId ∧
        e = OrderBook.makerEntry (resting.reduce (tradeQuantity s.incoming resting))) ∨
      (id ≠ resting.orderId ∧ s.book.status.find id = some e) := by
  have hstatus : (s.trade uuid price level resting queue).book.status
      = (((s.book.setLevels (opposite s.incoming.side) ((s.book.levels (opposite s.incoming.side)).modify
          price fun _ => s.tradedLevel level resting queue)).pushFill
          (s.fill uuid price resting)).recordMaker
            (resting.reduce (tradeQuantity s.incoming resting))).status := by
    simp only [trade]
    split
    · exact OrderBook.removeLevel_status _ _ _
    · rfl
  rw [hstatus] at h
  rcases OrderBook.find_of_recordMaker _ h with ⟨hid, he⟩ | ⟨hid, he⟩
  · exact Or.inl ⟨hid, he⟩
  · rw [OrderBook.pushFill_status, OrderBook.setLevels_status] at he
    exact Or.inr ⟨hid, he⟩

end MatchState

/-! ### Resting and closing -/

namespace OrderBook

variable (book : OrderBook)

/-- The level of a price, or the empty one that `or_insert_with` creates. -/
def levelOrEmpty (book : OrderBook) (side : Side) (price : Decimal) : PriceLevel :=
  (book.level side price).getD (.empty price)

theorem levels_restAt (order : Order) (price : Decimal) (side : Side) :
    (book.restAt order price).levels side
      = if side = order.side then
          (book.levels side).insert price ((book.levelOrEmpty order.side price).push order)
        else book.levels side := by
  rw [restAt, levels_pruneStatusLog, levels_setStatus, levels_indexOrder, levels_setLevels]
  by_cases hs : side = order.side
  · subst hs
    rfl
  · rw [if_neg hs, if_neg hs]

/-- **The levels after resting an order, by price.** -/
theorem level_restAt (order : Order) (price : Decimal) (side : Side) (p : Decimal) :
    (book.restAt order price).level side p
      = if side = order.side ∧ p = price then
          some ((book.levelOrEmpty order.side price).push order)
        else book.level side p := by
  rw [level, levels_restAt]
  by_cases hs : side = order.side
  · subst hs
    by_cases hp : p = price <;> simp [hp, level]
  · simp [hs, level]

@[simp] theorem find_orderIndex_restAt (order : Order) (price : Decimal) (id : String) :
    (book.restAt order price).orderIndex.find id
      = if id = order.orderId then some (order.side, price) else book.orderIndex.find id := by
  simp [restAt]

@[simp] theorem restAt_stopOrders (order : Order) (price : Decimal) :
    (book.restAt order price).stopOrders = book.stopOrders := by
  simp [restAt]

@[simp] theorem restAt_auditLog (order : Order) (price : Decimal) :
    (book.restAt order price).auditLog = book.auditLog := by
  simp [restAt]

@[simp] theorem restAt_nextSequence (order : Order) (price : Decimal) :
    (book.restAt order price).nextSequence = book.nextSequence := by
  simp [restAt]

theorem find_of_restAt {order : Order} {price : Decimal} {id : String} {e : OrderStatus × Decimal}
    (h : (book.restAt order price).status.find id = some e) :
    (id = order.orderId ∧ e = (.new, order.originalQuantity - order.remainingQuantity)) ∨
      (id ≠ order.orderId ∧ book.status.find id = some e) := by
  have h := find_of_pruneStatusLog _ h
  rcases find_of_setStatus _ h with hid | ⟨hid, he⟩
  · exact Or.inl hid
  · rw [indexOrder_status, setLevels_status] at he
    exact Or.inr ⟨hid, he⟩

theorem pending_restAt {order : Order} {price : Decimal} {id : String} {q : Decimal}
    (hid : id ≠ order.orderId) (h : book.status.find id = some (.pendingStop, q)) :
    (book.restAt order price).status.find id = some (.pendingStop, q) := by
  apply find_pruneStatusLog_pending
  rw [find_setStatus, if_neg hid, indexOrder_status, setLevels_status, h]

@[simp] theorem levels_close (id st q) (side : Side) :
    (book.close id st q).levels side = book.levels side := by
  simp [close]

@[simp] theorem close_orderIndex (id st q) : (book.close id st q).orderIndex = book.orderIndex := by
  simp [close]

@[simp] theorem close_stopOrders (id st q) : (book.close id st q).stopOrders = book.stopOrders := by
  simp [close]

@[simp] theorem close_nextSequence (id st q) :
    (book.close id st q).nextSequence = book.nextSequence := by
  simp [close]

theorem find_of_close {oid : String} {st : OrderStatus} {q : Decimal} {id : String}
    {e : OrderStatus × Decimal} (h : (book.close oid st q).status.find id = some e) :
    (id = oid ∧ e = (st, q)) ∨ (id ≠ oid ∧ book.status.find id = some e) := by
  rw [close, pruneAuditLog_status] at h
  exact find_of_setStatus _ (find_of_pruneStatusLog _ h)

end OrderBook

end NexusTrade.MatchingEngine
