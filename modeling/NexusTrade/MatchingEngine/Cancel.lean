import Mathlib.Data.List.Nodup
import NexusTrade.MatchingEngine.Submit

/-!
# Cancelling an order

* **`Cancelled`** lists the outcomes of `cancel`: no such order of the user, an order taken out of its
  queue, a stop order taken out of the pending ones;
* **`cancel_spec`**: from a book with the representation invariant `cancel` returns, its outcome is one
  of `Cancelled`, and the invariant holds again.
-/

namespace NexusTrade.MatchingEngine

/-! ### The position of an element -/

/-- The position `findIdx?` reports splits the list at the element found. -/
theorem split_of_findIdx? {α : Type} {p : α → Bool} {as : List α} {pos : ℕ}
    (h : as.findIdx? p = some pos) :
    ∃ pre a post, as = pre ++ a :: post ∧ pre.length = pos ∧ p a = true := by
  obtain ⟨hlt, hp, _⟩ := List.findIdx?_eq_some_iff_getElem.mp h
  refine ⟨as.take pos, as[pos], as.drop (pos + 1), ?_, List.length_take_of_le hlt.le, hp⟩
  rw [List.getElem_cons_drop, List.take_append_drop]

theorem getElem?_split {α : Type} (pre : List α) (a : α) (post : List α) :
    (pre ++ a :: post)[pre.length]? = some a := by
  simp

theorem eraseIdx_split {α : Type} (pre : List α) (a : α) (post : List α) :
    (pre ++ a :: post).eraseIdx pre.length = pre ++ post := by
  rw [List.eraseIdx_append_of_length_le (le_refl _), Nat.sub_self, List.eraseIdx_cons_zero]

theorem sublist_split {α : Type} (pre : List α) (a : α) (post : List α) :
    (pre ++ post).Sublist (pre ++ a :: post) :=
  (List.Sublist.refl pre).append (List.sublist_cons_self a post)

/-- What is in the list but not in the list without one of its elements, if nothing is twice. -/
theorem mem_split_iff {α : Type} {pre post : List α} {a : α} (h : (pre ++ a :: post).Nodup) (x : α) :
    (x ∈ pre ++ a :: post ∧ x ∉ pre ++ post) ↔ x = a := by
  have hnot : a ∉ pre ++ post := (List.nodup_cons.mp (List.nodup_middle.mp h)).1
  constructor
  · intro hx
    have hx' : x ∈ a :: (pre ++ post) := List.perm_middle.mem_iff.mp hx.1
    exact (List.mem_cons.mp hx').resolve_right hx.2
  · intro hx
    subst hx
    exact ⟨by simp, hnot⟩

theorem orderIds_split (pre : List Order) (o : Order) (post : List Order) :
    orderIds (pre ++ o :: post) = orderIds pre ++ o.orderId :: orderIds post := by
  simp [orderIds]

theorem orderIds_append (as bs : List Order) : orderIds (as ++ bs) = orderIds as ++ orderIds bs :=
  List.map_append

/-! ### The outcomes of a cancellation -/

/-- No order of the list has the identifier and the user. -/
def NoneOf (orders : List Order) (orderId userId : String) : Prop :=
  ∀ o ∈ orders, ¬(o.orderId = orderId ∧ o.userId = userId)

/-- **The outcomes of `cancel`.** -/
inductive Cancelled (book : OrderBook) (orderId userId : String) : Bool → OrderBook → Prop
  | missing (hqueued : ∀ side price l, book.level side price = some l →
        NoneOf l.orders orderId userId)
      (hpending : NoneOf book.stopOrders orderId userId) :
      Cancelled book orderId userId false book
  | queued (side : Side) (price : Decimal) (level : PriceLevel) (pre : List Order) (order : Order)
      (post : List Order) (atLevel : book.level side price = some level)
      (split : level.orders = pre ++ order :: post)
      (hid : order.orderId = orderId) (huser : order.userId = userId) :
      Cancelled book orderId userId true
        (book.removeQueued side price level pre.length order orderId)
  | pending (pre : List Order) (order : Order) (post : List Order)
      (split : book.stopOrders = pre ++ order :: post)
      (hid : order.orderId = orderId) (huser : order.userId = userId) :
      Cancelled book orderId userId true (book.removePending pre.length order orderId)

/-! ### Taking an order out of its queue -/

namespace OrderBook

variable (book : OrderBook)

/-- The book `cancel` has written before it looks whether the level is empty. -/
theorem removeQueued_eq (side : Side) (price : Decimal) (level : PriceLevel) (pos : ℕ)
    (order : Order) (orderId : String) {old : PriceLevel}
    (hold : book.level side price = some old) :
    book.removeQueued side price level pos order orderId
      = if (level.removeAt pos order).orders = [] then
          ((((book.setLevels side ((book.levels side).modify price
            fun _ => level.removeAt pos order)).unindexOrder orderId).setStatus orderId .cancelled
              (order.originalQuantity - order.remainingQuantity)).pruneStatusLog).removeLevel side price
        else (((book.setLevels side ((book.levels side).modify price
            fun _ => level.removeAt pos order)).unindexOrder orderId).setStatus orderId .cancelled
              (order.originalQuantity - order.remainingQuantity)).pruneStatusLog := by
  have hempty : ∀ b : OrderBook, b.levels side = (book.levels side).modify price
      (fun _ => level.removeAt pos order) →
      b.levelIsEmpty side price = (level.removeAt pos order).orders.isEmpty := by
    intro b hb
    have hfind : (book.levels side).find price = some old := hold
    rw [levelIsEmpty, OrderBook.level, hb, SortedMap.find_modify, if_pos rfl, hfind]
    rfl
  rw [removeQueued, hempty _ (by simp)]
  simp only [List.isEmpty_iff]

variable {book}

/-- **The levels after a cancellation, by price.** -/
theorem level_removeQueued {side : Side} {price : Decimal} {level : PriceLevel} {pos : ℕ}
    {order : Order} {orderId : String} (hl : book.level side price = some level) (s : Side)
    (p : Decimal) :
    (book.removeQueued side price level pos order orderId).level s p
      = if s = side ∧ p = price then
          if (level.removeAt pos order).orders = [] then none else some (level.removeAt pos order)
        else book.level s p := by
  have hfind : (book.levels side).find price = some level := hl
  rw [book.removeQueued_eq side price level pos order orderId hl]
  by_cases hs : s = side
  · subst hs
    by_cases hp : p = price <;> split_ifs <;> simp_all [OrderBook.level]
  · split_ifs <;> simp_all [OrderBook.level]

theorem find_orderIndex_removeQueued {side : Side} {price : Decimal} {level : PriceLevel} {pos : ℕ}
    {order : Order} {orderId : String} (hl : book.level side price = some level) (id : String) :
    (book.removeQueued side price level pos order orderId).orderIndex.find id
      = if id = orderId then none else book.orderIndex.find id := by
  rw [book.removeQueued_eq side price level pos order orderId hl]
  split <;> simp

theorem removeQueued_stopOrders {side : Side} {price : Decimal} {level : PriceLevel} {pos : ℕ}
    {order : Order} {orderId : String} (hl : book.level side price = some level) :
    (book.removeQueued side price level pos order orderId).stopOrders = book.stopOrders := by
  rw [book.removeQueued_eq side price level pos order orderId hl]
  split <;> simp

theorem removeQueued_nextSequence {side : Side} {price : Decimal} {level : PriceLevel} {pos : ℕ}
    {order : Order} {orderId : String} (hl : book.level side price = some level) :
    (book.removeQueued side price level pos order orderId).nextSequence = book.nextSequence := by
  rw [book.removeQueued_eq side price level pos order orderId hl]
  split <;> simp

/-- The status log after a cancellation. -/
theorem removeQueued_status {side : Side} {price : Decimal} {level : PriceLevel} {pos : ℕ}
    {order : Order} {orderId : String} (hl : book.level side price = some level) :
    (book.removeQueued side price level pos order orderId).status
      = (((book.setLevels side ((book.levels side).modify price
          fun _ => level.removeAt pos order)).unindexOrder orderId).setStatus orderId .cancelled
            (order.originalQuantity - order.remainingQuantity)).pruneStatusLog.status := by
  rw [book.removeQueued_eq side price level pos order orderId hl]
  split
  · rw [removeLevel_status]
  · rfl

theorem find_of_removeQueued {side : Side} {price : Decimal} {level : PriceLevel} {pos : ℕ}
    {order : Order} {orderId : String} (hl : book.level side price = some level) {id : String}
    {e : OrderStatus × Decimal}
    (h : (book.removeQueued side price level pos order orderId).status.find id = some e) :
    (id = orderId ∧ e = (.cancelled, order.originalQuantity - order.remainingQuantity)) ∨
      (id ≠ orderId ∧ book.status.find id = some e) := by
  rw [removeQueued_status hl] at h
  rcases find_of_setStatus _ (find_of_pruneStatusLog _ h) with hid | ⟨hid, he⟩
  · exact Or.inl hid
  · rw [unindexOrder_status, setLevels_status] at he
    exact Or.inr ⟨hid, he⟩

/-- The status log after a pending stop order is cancelled. -/
theorem find_of_removePending {pos : ℕ} {order : Order} {orderId id : String}
    {e : OrderStatus × Decimal} (h : (book.removePending pos order orderId).status.find id = some e) :
    (id = orderId ∧ e = (.cancelled, order.originalQuantity - order.remainingQuantity)) ∨
      (id ≠ orderId ∧ book.status.find id = some e) := by
  rw [removePending] at h
  rcases find_of_setStatus _ (find_of_pruneStatusLog _ h) with hid | ⟨hid, he⟩
  · exact Or.inl hid
  · rw [setStopOrders_status] at he
    exact Or.inr ⟨hid, he⟩

end OrderBook

/-- **A level without one of its orders** is still a level of its side and price. -/
theorem LevelInv.removeAt {side : Side} {price : Decimal} {bound : ℕ} {level : PriceLevel}
    (h : LevelInv side price bound level) {pre post : List Order} {order : Order}
    (hsplit : level.orders = pre ++ order :: post)
    (hne : (level.removeAt pre.length order).orders ≠ []) :
    LevelInv side price bound (level.removeAt pre.length order) := by
  obtain ⟨hprice, _, hown, htotal, hinc, hbound, hids⟩ := h
  have horders : (level.removeAt pre.length order).orders = pre ++ post := by
    show level.orders.eraseIdx pre.length = pre ++ post
    rw [hsplit, eraseIdx_split]
  have hsub : (pre ++ post).Sublist level.orders := by
    rw [hsplit]
    exact sublist_split pre order post
  refine ⟨hprice, hne, ?_, ?_, ?_, ?_, ?_⟩ <;> rw [horders]
  · exact fun o ho => hown o (hsub.subset ho)
  · show level.totalQuantity - order.remainingQuantity = totalRemaining (pre ++ post)
    rw [htotal, hsplit]
    simp only [totalRemaining, List.map_append, List.map_cons, List.sum_append, List.sum_cons]
    ring
  · exact hinc.sublist (hsub.map _)
  · exact fun o ho => hbound o (hsub.subset ho)
  · exact hids.sublist (hsub.map _)

/-- **Taking an order out of its queue keeps the invariant.** -/
theorem Inv.removeQueued {book : OrderBook} (h : Inv book) {side : Side} {price : Decimal}
    {level : PriceLevel} {pre post : List Order} {order : Order}
    (hl : book.level side price = some level) (hsplit : level.orders = pre ++ order :: post) :
    Inv (book.removeQueued side price level pre.length order order.orderId) := by
  have horders : (level.removeAt pre.length order).orders = pre ++ post := by
    show level.orders.eraseIdx pre.length = pre ++ post
    rw [hsplit, eraseIdx_split]
  have hlevel := h.level _ _ _ hl
  have hids : (orderIds pre ++ order.orderId :: orderIds post).Nodup := by
    rw [← orderIds_split, ← hsplit]
    exact hlevel.ids
  refine h.of_levelChange (level.removeAt pre.length order) hl (OrderBook.level_removeQueued hl)
    (hlevel.removeAt hsplit) ?_ ?_ (OrderBook.removeQueued_stopOrders hl)
    (OrderBook.removeQueued_nextSequence hl) ?_
  · intro id hid
    rw [horders] at hid
    rw [hsplit]
    exact ((sublist_split pre order post).map _).subset hid
  · intro id
    rw [OrderBook.find_orderIndex_removeQueued hl, horders, hsplit, orderIds_split, orderIds_append]
    simp only [mem_split_iff hids]
  · intro o ho
    have hmem : order.orderId ∈ orderIds level.orders := by
      rw [hsplit, orderIds_split]
      simp
    have hne : o.orderId ≠ order.orderId := fun e =>
      h.queued_not_pending hl hmem (e ▸ List.mem_map_of_mem ho)
    rw [OrderBook.removeQueued_status hl]
    refine OrderBook.find_pruneStatusLog_pending _ ?_
    rw [OrderBook.find_setStatus, if_neg hne, OrderBook.unindexOrder_status,
      OrderBook.setLevels_status]
    exact (h.pending o ho).status

/-! ### Taking out a pending stop order -/

/-- **Taking out a pending stop order keeps the invariant.** -/
theorem Inv.removePending {book : OrderBook} (h : Inv book) {pre post : List Order} {order : Order}
    (hsplit : book.stopOrders = pre ++ order :: post) :
    Inv (book.removePending pre.length order order.orderId) := by
  have hstops : (book.removePending pre.length order order.orderId).stopOrders = pre ++ post := by
    rw [OrderBook.removePending, OrderBook.pruneStatusLog_stopOrders, OrderBook.setStatus_stopOrders,
      OrderBook.setStopOrders_stopOrders, hsplit, eraseIdx_split]
  have hsub : (pre ++ post).Sublist book.stopOrders := by
    rw [hsplit]
    exact sublist_split pre order post
  have hlevels : ∀ side, (book.removePending pre.length order order.orderId).levels side
      = book.levels side := by
    intro side
    simp [OrderBook.removePending]
  have hlevel := fun side p => OrderBook.level_congr (hlevels side) p
  have hindex : (book.removePending pre.length order order.orderId).orderIndex = book.orderIndex := by
    simp [OrderBook.removePending]
  have hids := h.pendingIds
  rw [hsplit, orderIds_split] at hids
  refine ⟨?_, ?_, ?_, ?_, ?_⟩
  · intro side p l hl
    rw [hlevel] at hl
    have hseq : (book.removePending pre.length order order.orderId).nextSequence
        = book.nextSequence := by
      simp [OrderBook.removePending]
    rw [hseq]
    exact h.level side p l hl
  · intro id side p
    simp only [hlevel, hindex]
    exact h.index id side p
  · intro bid ask lb la hb ha
    rw [hlevel] at hb ha
    exact h.uncrossed bid ask lb la hb ha
  · intro o ho
    rw [hstops] at ho
    have hp := h.pending o (hsub.subset ho)
    have hne : o.orderId ≠ order.orderId := by
      have hin : o.orderId ∈ orderIds pre ++ orderIds post := by
        rw [← orderIds_append]
        exact List.mem_map_of_mem ho
      intro e
      rw [e] at hin
      exact ((mem_split_iff hids order.orderId).mpr rfl).2 hin
    refine ⟨hp.stopPrice, hp.kind, hp.price, hp.positive, ?_, ?_⟩
    · refine OrderBook.find_pruneStatusLog_pending _ ?_
      rw [OrderBook.find_setStatus, if_neg hne, OrderBook.setStopOrders_status]
      exact hp.status
    · rw [hindex]
      exact hp.unindexed
  · rw [hstops]
    exact h.pendingIds.sublist (hsub.map _)

/-! ### The specification of `cancel` -/

theorem noneOf_of_findIdx? {orders : List Order} {orderId userId : String}
    (h : orders.findIdx? (fun o => decide (o.orderId = orderId ∧ o.userId = userId)) = none) :
    NoneOf orders orderId userId := by
  intro o ho hp
  have hfalse := List.findIdx?_eq_none_iff.mp h o ho
  rw [decide_eq_false_iff_not] at hfalse
  exact hfalse hp

/-- **What `cancel` does**: it returns, and the representation invariant holds again. -/
theorem cancel_spec {book : OrderBook} (h : Inv book) (orderId userId : String) :
    ∃ done book', book.cancel orderId userId = .ok (done, book') ∧ Inv book' ∧
      Cancelled book orderId userId done book' := by
  unfold OrderBook.cancel
  cases hindex : book.orderIndex.find orderId with
  | none =>
      have hqueued : ∀ side price l, book.level side price = some l →
          NoneOf l.orders orderId userId := by
        intro side price l hl o ho hp
        have hfind := (h.index orderId side price).mpr
          ⟨l, hl, hp.1 ▸ List.mem_map_of_mem (f := Order.orderId) ho⟩
        rw [hindex] at hfind
        cases hfind
      simp only
      unfold OrderBook.cancelStopOrder
      cases hfind : book.stopOrders.findIdx?
          (fun o => decide (o.orderId = orderId ∧ o.userId = userId)) with
      | none => exact ⟨_, _, rfl, h, .missing hqueued (noneOf_of_findIdx? hfind)⟩
      | some pos =>
          obtain ⟨pre, order, post, hsplit, rfl, hp⟩ := split_of_findIdx? hfind
          obtain ⟨rfl, rfl⟩ := decide_eq_true_eq.mp hp
          have hat : book.stopOrders[pre.length]? = some order := by
            rw [hsplit]
            exact getElem?_split pre order post
          refine ⟨_, _, ?_, h.removePending hsplit, .pending pre order post hsplit rfl rfl⟩
          simp only [hat]
  | some sp =>
      obtain ⟨side, price⟩ := sp
      obtain ⟨level, hl, hmem⟩ := (h.index orderId side price).mp hindex
      simp only [hl]
      cases hfind : level.orders.findIdx?
          (fun o => decide (o.orderId = orderId ∧ o.userId = userId)) with
      | none =>
          refine ⟨_, _, rfl, h, .missing ?_ ?_⟩
          · intro side' price' l hl' o ho hp
            have hin : orderId ∈ orderIds l.orders :=
              hp.1 ▸ List.mem_map_of_mem (f := Order.orderId) ho
            obtain ⟨rfl, rfl⟩ := h.level_unique hl hl' hmem hin
            rw [hl] at hl'
            cases hl'
            exact noneOf_of_findIdx? hfind o ho hp
          · intro o ho hp
            have hnone := (h.pending o ho).unindexed
            rw [hp.1, hindex] at hnone
            cases hnone
      | some pos =>
          obtain ⟨pre, order, post, hsplit, rfl, hp⟩ := split_of_findIdx? hfind
          obtain ⟨rfl, rfl⟩ := decide_eq_true_eq.mp hp
          have hat : level.orders[pre.length]? = some order := by
            rw [hsplit]
            exact getElem?_split pre order post
          refine ⟨_, _, ?_, h.removeQueued hl hsplit,
            .queued side price level pre order post hl hsplit rfl rfl⟩
          simp only [hat]

/-- **A cancellation leaves unknown identifiers unknown.** -/
theorem Cancelled.absent {book book' : OrderBook} {orderId userId : String} {done : Bool}
    (hc : Cancelled book orderId userId done book') (h : Inv book) {id : String}
    (hab : Absent book id) : Absent book' id := by
  cases hc with
  | missing _ _ => exact hab
  | queued side price level pre order post hl hsplit hid huser =>
      subst hid
      have hne : id ≠ order.orderId := by
        rintro rfl
        have hfind := (h.index order.orderId side price).mpr
          ⟨level, hl, by rw [hsplit, orderIds_split]; simp⟩
        rw [hab.index] at hfind
        cases hfind
      refine ⟨?_, ?_, ?_⟩
      · refine Option.eq_none_iff_forall_ne_some.mpr fun e he => ?_
        rcases OrderBook.find_of_removeQueued hl he with ⟨hid, _⟩ | ⟨_, he⟩
        · exact hne hid
        · rw [hab.status] at he
          cases he
      · rw [OrderBook.find_orderIndex_removeQueued hl, if_neg hne]
        exact hab.index
      · rw [OrderBook.removeQueued_stopOrders hl]
        exact hab.stops
  | pending pre order post hsplit hid huser =>
      subst hid
      have hne : id ≠ order.orderId := by
        rintro rfl
        exact hab.stops (by rw [hsplit, orderIds_split]; simp)
      refine ⟨?_, ?_, ?_⟩
      · refine Option.eq_none_iff_forall_ne_some.mpr fun e he => ?_
        rcases OrderBook.find_of_removePending he with ⟨hid, _⟩ | ⟨_, he⟩
        · exact hne hid
        · rw [hab.status] at he
          cases he
      · have hindex : (book.removePending pre.length order order.orderId).orderIndex
            = book.orderIndex := by simp [OrderBook.removePending]
        rw [hindex]
        exact hab.index
      · have hstops : (book.removePending pre.length order order.orderId).stopOrders
            = pre ++ post := by
          rw [OrderBook.removePending, OrderBook.pruneStatusLog_stopOrders,
            OrderBook.setStatus_stopOrders, OrderBook.setStopOrders_stopOrders, hsplit,
            eraseIdx_split]
        rw [hstops]
        exact fun hin => hab.stops (by
          rw [hsplit]
          exact ((sublist_split pre order post).map _).subset hin)

end NexusTrade.MatchingEngine
