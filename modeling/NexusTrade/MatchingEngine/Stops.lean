import NexusTrade.MatchingEngine.Cancel

/-!
# Triggering stop orders

* **`drainStops_eq`**: the loop of `trigger_stops` splits the pending stop orders into those the last
  price triggers and the others, and forgets the status of the first;
* **`ExecutedAll`**: the triggered orders then go through the matching loop one after another: none of
  them is refused, held or killed, since each was checked when it was submitted;
* **`triggerStops_spec`**: from a book with the representation invariant `trigger_stops` returns, and the
  invariant holds again.
-/

namespace NexusTrade.MatchingEngine

/-- A price triggers a stop order. -/
def triggered (lastPrice : Decimal) (o : Order) : Bool :=
  match o.stopPrice with
  | none => false
  | some stopPrice => OrderBook.shouldTrigger lastPrice stopPrice o.side

/-- The status log without the entries of some orders. -/
def forgetAll (status : SortedMap String (OrderStatus × Decimal)) (orders : List Order) :
    SortedMap String (OrderStatus × Decimal) :=
  orders.foldl (fun status o => status.erase o.orderId) status

theorem find_forgetAll (orders : List Order) (status : SortedMap String (OrderStatus × Decimal))
    (id : String) :
    (forgetAll status orders).find id = if id ∈ orderIds orders then none else status.find id := by
  induction orders generalizing status with
  | nil => rfl
  | cons o orders ih =>
      show (forgetAll (status.erase o.orderId) orders).find id = _
      rw [ih, SortedMap.find_erase]
      simp only [orderIds_cons, List.mem_cons]
      by_cases hid : id = o.orderId
      · simp [hid]
      · simp [hid]

/-- **What the loop over the drained stop orders computes.** -/
theorem drainStops_eq (lastPrice : Decimal) (orders : List Order)
    (status : SortedMap String (OrderStatus × Decimal)) (h : ∀ o ∈ orders, o.stopPrice.isSome) :
    OrderBook.drainStops lastPrice status orders
      = .ok ((orders.filter (triggered lastPrice)).map OrderBook.activate,
          orders.filter (fun o => !triggered lastPrice o),
          forgetAll status (orders.filter (triggered lastPrice))) := by
  induction orders generalizing status with
  | nil => rfl
  | cons o orders ih =>
      obtain ⟨stopPrice, hp⟩ := Option.isSome_iff_exists.mp (h o List.mem_cons_self)
      have htail : ∀ o ∈ orders, o.stopPrice.isSome := fun o ho => h o (List.mem_cons_of_mem _ ho)
      have htrig : triggered lastPrice o = OrderBook.shouldTrigger lastPrice stopPrice o.side := by
        rw [triggered, hp]
      rw [OrderBook.drainStops, hp]
      simp only
      cases ht : OrderBook.shouldTrigger lastPrice stopPrice o.side with
      | true =>
          rw [if_pos rfl, ih _ htail, ok_bind]
          simp [htrig, ht, forgetAll]
      | false =>
          rw [if_neg Bool.false_ne_true, ih _ htail, ok_bind]
          simp [htrig, ht]

/-! ### The triggered orders in the matching loop -/

/-- A triggered order, ready to be matched. -/
structure Ready (book : OrderBook) (o : Order) : Prop where
  absent : Absent book o.orderId
  kind : o.kind = .market ∨ o.kind = .limit
  positive : 0 < o.remainingQuantity
  priced : requiresPrice o.kind = true → o.price.isSome

theorem Ready.admissible {book : OrderBook} {o : Order} (h : Ready book o) : Admissible book o :=
  ⟨h.absent.status, h.absent.index, h.positive, h.priced⟩

/-- A ready order is executed. -/
theorem Ready.executed {uuid : UuidSource} {book book' : OrderBook} {o : Order}
    {report : ExecutionReport} (h : Ready book o) (hx : Submitted uuid book o report book') :
    Executed uuid book o report book' := by
  cases hx with
  | executed _ _ _ _ _ _ result => exact result
  | refused reason why =>
      exfalso
      cases why with
      | duplicate hknown =>
          rcases hknown with hknown | hknown
          · obtain ⟨e, he⟩ := (SortedMap.contains_iff _ _).mp hknown
            rw [h.absent.status] at he
            cases he
          · obtain ⟨e, he⟩ := (SortedMap.contains_iff _ _).mp hknown
            rw [h.absent.index] at he
            cases he
      | quantity hquantity => exact absurd h.positive (not_lt.mpr hquantity)
      | price hkind hprice =>
          have hsome := h.priced hkind
          rw [hprice] at hsome
          cases hsome
      | stopPrice hkind _ => rcases h.kind with hk | hk <;> rw [hk] at hkind <;> cases hkind
      | postOnly hkind _ => rcases h.kind with hk | hk <;> rw [hk] at hkind <;> cases hkind
  | held _ hkind _ => rcases h.kind with hk | hk <;> rw [hk] at hkind <;> cases hkind
  | killed _ hkind _ => rcases h.kind with hk | hk <;> rw [hk] at hkind <;> cases hkind

/-- Orders that went through the matching loop one after another. -/
inductive ExecutedAll : UuidSource → OrderBook → List Order → List ExecutionReport → OrderBook → Prop
  | nil (uuid : UuidSource) (book : OrderBook) : ExecutedAll uuid book [] [] book
  | cons {uuid : UuidSource} {book book' book'' : OrderBook} {o : Order} {orders : List Order}
      {report : ExecutionReport} {reports : List ExecutionReport} (inv : Inv book)
      (ready : Ready book o) (returned : book.submit uuid.head o = .ok (report, book'))
      (head : Executed uuid.head book o report book')
      (tail : ExecutedAll uuid.tail book' orders reports book'') :
      ExecutedAll uuid book (o :: orders) (report :: reports) book''

theorem submitAll_spec (orders : List Order) : ∀ (uuid : UuidSource) (book : OrderBook), Inv book →
    (∀ o ∈ orders, Ready book o) → (orderIds orders).Nodup →
    ∃ reports book', book.submitAll uuid orders = .ok (reports, book') ∧ Inv book' ∧
      ExecutedAll uuid book orders reports book' := by
  induction orders with
  | nil => exact fun uuid book h _ _ => ⟨[], book, rfl, h, .nil uuid book⟩
  | cons o orders ih =>
      intro uuid book h hready hids
      obtain ⟨hhead, htail⟩ := List.nodup_cons.mp hids
      have ho := hready o List.mem_cons_self
      obtain ⟨report, book', hsubmit, hinv, hx⟩ := submit_spec uuid.head h o
      have hexec := ho.executed hx
      have hready' : ∀ o' ∈ orders, Ready book' o' := by
        intro o' ho'
        have hr := hready o' (List.mem_cons_of_mem _ ho')
        have hne : o'.orderId ≠ o.orderId := fun e => hhead (e ▸ List.mem_map_of_mem ho')
        exact ⟨(hexec.frame h ho.admissible).2 _ hne hr.absent, hr.kind, hr.positive, hr.priced⟩
      obtain ⟨reports, book'', hall, hinv', hxs⟩ := ih uuid.tail book' hinv hready' htail
      refine ⟨report :: reports, book'', ?_, hinv', .cons h ho hsubmit hexec hxs⟩
      rw [OrderBook.submitAll, hsubmit, ok_bind]
      simp only [hall, ok_bind]

/-- The triggered orders leave the pending stop orders and the unknown identifiers alone. -/
theorem ExecutedAll.frame {uuid : UuidSource} {book book' : OrderBook} {orders : List Order}
    {reports : List ExecutionReport} (hx : ExecutedAll uuid book orders reports book') :
    book'.stopOrders = book.stopOrders ∧
      ∀ id, id ∉ orderIds orders → Absent book id → Absent book' id := by
  induction hx with
  | nil _ _ => exact ⟨rfl, fun _ _ hab => hab⟩
  | cons inv ready _ head _ ih =>
      obtain ⟨hstops, habsent⟩ := head.frame inv ready.admissible
      refine ⟨ih.1.trans hstops, fun id hid hab => ?_⟩
      have hne := List.ne_of_not_mem_cons hid
      exact ih.2 id (List.not_mem_of_not_mem_cons hid) (habsent id hne hab)

/-! ### The specification of `trigger_stops` -/

/-- The book after the loop over the drained stop orders. -/
def OrderBook.drained (book : OrderBook) (lastPrice : Decimal) : OrderBook :=
  { book with
    stopOrders := book.stopOrders.filter fun o => !triggered lastPrice o
    status := forgetAll book.status (book.stopOrders.filter (triggered lastPrice)) }

/-- The orders a price sets off. -/
def OrderBook.setOff (book : OrderBook) (lastPrice : Decimal) : List Order :=
  (book.stopOrders.filter (triggered lastPrice)).map OrderBook.activate

@[simp] theorem OrderBook.level_drained (book : OrderBook) (lastPrice : Decimal) (side : Side)
    (price : Decimal) : (book.drained lastPrice).level side price = book.level side price := by
  cases side <;> rfl

theorem orderIds_setOff (book : OrderBook) (lastPrice : Decimal) :
    orderIds (book.setOff lastPrice) = orderIds (book.stopOrders.filter (triggered lastPrice)) := by
  rw [OrderBook.setOff, orderIds, List.map_map]
  rfl

/-- A triggered order and an untriggered one have different identifiers. -/
theorem Inv.drained_ne {book : OrderBook} (h : Inv book) {lastPrice : Decimal} {o o' : Order}
    (ho : o ∈ book.stopOrders.filter (triggered lastPrice))
    (ho' : o' ∈ book.stopOrders.filter fun o => !triggered lastPrice o) :
    o'.orderId ≠ o.orderId := by
  intro e
  obtain ⟨hin, ht⟩ := List.mem_filter.mp ho
  obtain ⟨hin', ht'⟩ := List.mem_filter.mp ho'
  have heq := List.inj_on_of_nodup_map h.pendingIds hin' hin e
  rw [heq, ht] at ht'
  cases ht'

/-- **Draining keeps the invariant.** -/
theorem Inv.drained {book : OrderBook} (h : Inv book) (lastPrice : Decimal) :
    Inv (book.drained lastPrice) := by
  refine ⟨?_, ?_, ?_, ?_, ?_⟩
  · intro side p l hl
    rw [OrderBook.level_drained] at hl
    exact h.level side p l hl
  · intro id side p
    simp only [OrderBook.level_drained]
    exact h.index id side p
  · intro bid ask lb la hb ha
    rw [OrderBook.level_drained] at hb ha
    exact h.uncrossed bid ask lb la hb ha
  · intro o ho
    have hp := h.pending o (List.mem_filter.mp ho).1
    refine ⟨hp.stopPrice, hp.kind, hp.price, hp.positive, ?_, hp.unindexed⟩
    show (forgetAll _ _).find o.orderId = _
    rw [find_forgetAll, if_neg, hp.status]
    intro hin
    obtain ⟨o', ho', e⟩ := List.mem_map.mp hin
    exact h.drained_ne ho' ho e.symm
  · exact h.pendingIds.sublist (List.filter_sublist.map _)

/-- **The orders a price sets off are ready** in the drained book. -/
theorem Inv.ready {book : OrderBook} (h : Inv book) (lastPrice : Decimal) :
    ∀ o ∈ book.setOff lastPrice, Ready (book.drained lastPrice) o := by
  intro o ho
  obtain ⟨o', ho', rfl⟩ := List.mem_map.mp ho
  have hp := h.pending o' (List.mem_filter.mp ho').1
  refine ⟨⟨?_, hp.unindexed, ?_⟩, ?_, hp.positive, ?_⟩
  · show (forgetAll _ _).find o'.orderId = none
    rw [find_forgetAll, if_pos (mem_orderIds ho')]
  · intro hin
    obtain ⟨o'', ho'', e⟩ := List.mem_map.mp hin
    exact h.drained_ne ho' ho'' e
  · show (if o'.kind = .stopMarket then OrderKind.market else .limit) = .market ∨
      (if o'.kind = .stopMarket then OrderKind.market else .limit) = .limit
    split
    · exact Or.inl rfl
    · exact Or.inr rfl
  · show requiresPrice (if o'.kind = .stopMarket then OrderKind.market else .limit) = true → _
    intro hk
    have hstop := hp.kind
    refine hp.price ?_
    cases hkind : o'.kind <;> simp_all [requiresPrice, OrderKind.isStop]

/-- **What `trigger_stops` does**: it returns, and the representation invariant holds again. -/
theorem triggerStops_spec (uuid : UuidSource) {book : OrderBook} (h : Inv book)
    (lastPrice : Decimal) :
    ∃ reports book', book.triggerStops uuid lastPrice = .ok (reports, book') ∧ Inv book' ∧
      ExecutedAll uuid (book.drained lastPrice) (book.setOff lastPrice) reports book' := by
  have hids : (orderIds (book.setOff lastPrice)).Nodup := by
    rw [orderIds_setOff]
    exact h.pendingIds.sublist (List.filter_sublist.map _)
  obtain ⟨reports, book', hall, hinv, hx⟩ := submitAll_spec (book.setOff lastPrice) uuid
    (book.drained lastPrice) (h.drained lastPrice) (h.ready lastPrice) hids
  refine ⟨reports, book', ?_, hinv, hx⟩
  rw [OrderBook.triggerStops, drainStops_eq lastPrice book.stopOrders book.status
    (fun o ho => (h.pending o ho).stopPrice), ok_bind]
  exact hall

/-- **Triggering leaves unknown identifiers unknown.** -/
theorem ExecutedAll.absent_of_drained {uuid : UuidSource} {book book' : OrderBook}
    {lastPrice : Decimal} {reports : List ExecutionReport}
    (hx : ExecutedAll uuid (book.drained lastPrice) (book.setOff lastPrice) reports book')
    {id : String} (hab : Absent book id) : Absent book' id := by
  refine hx.frame.2 id ?_ ⟨?_, hab.index, ?_⟩
  · rw [orderIds_setOff]
    exact fun hin => hab.stops ((List.filter_sublist.map _).subset hin)
  · show (forgetAll _ _).find id = none
    rw [find_forgetAll, hab.status, ite_self]
  · exact fun hin => hab.stops ((List.filter_sublist.map _).subset hin)

end NexusTrade.MatchingEngine
