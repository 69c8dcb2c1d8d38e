import NexusTrade.MatchingEngine.ExactSubmit

/-!
# Exact arithmetic in a run

The arithmetic of the engine over whole sequences of calls and restarts.

* **`CancelExact`**, **`AllExact`** and **`RestoreExact`** are the conditions for a cancellation, for the orders that
  a price sets off, and for a restart; **`StepExact`** is the condition on a step;
* **`arithmetic_is_exact_iff`**: the arithmetic of a run is exact if and only if every step meets the condition;
* **`offers_overflow`**: two offers at one price whose sum cannot be held.
-/

namespace NexusTrade.MatchingEngine

/-! ### Cancelling -/

/-- **The condition** for a cancellation: of the order that it finds, what it is logged with, and what its level
has in all without it. -/
def CancelExact (book : OrderBook) (orderId userId : String) : Prop :=
  match book.orderIndex.find orderId with
  | none => ∀ order,
      (book.stopOrders.find? fun order => order.orderId = orderId ∧ order.userId = userId) = some order →
        Representable (order.originalQuantity - order.remainingQuantity)
  | some (side, price) => ∀ level, book.level side price = some level → ∀ order,
      (level.orders.find? fun order => order.orderId = orderId ∧ order.userId = userId) = some order →
        Representable (level.totalQuantity - order.remainingQuantity) ∧
          Representable (order.originalQuantity - order.remainingQuantity)

section Cancellation

variable {arith : Arithmetic} (harith : arith.Lawful)

include harith

theorem cancelStopOrder_asserts (book : OrderBook) (orderId userId : String) :
    Asserts (∀ order,
        (book.stopOrders.find? fun order => order.orderId = orderId ∧ order.userId = userId) = some order →
          Representable (order.originalQuantity - order.remainingQuantity))
      (RustDecimal.cancelStopOrder arith.asserting book orderId userId)
      (RustDecimal.cancelStopOrder arith book orderId userId) (book.cancelStopOrder orderId userId) := by
  unfold RustDecimal.cancelStopOrder OrderBook.cancelStopOrder
  rw [List.find?_eq_bind_findIdx?_getElem?]
  cases book.stopOrders.findIdx? fun order => decide (order.orderId = orderId ∧ order.userId = userId) with
  | none => exact .of_holds (fun _ h => by cases h) _
  | some pos =>
      simp only [Option.bind_some]
      cases book.stopOrders[pos]? with
      | none => exact .of_holds (fun _ h => by cases h) _
      | some order =>
          exact ((sub_asserts harith _ _).bind_same _).congr
            ⟨fun h _ horder => by cases horder; exact h, fun h => h order rfl⟩

/-- **A cancellation** asserts its condition. -/
theorem cancel_asserts (book : OrderBook) (orderId userId : String) :
    Asserts (CancelExact book orderId userId) (RustDecimal.cancel arith.asserting book orderId userId)
      (RustDecimal.cancel arith book orderId userId) (book.cancel orderId userId) := by
  unfold RustDecimal.cancel OrderBook.cancel CancelExact
  cases book.orderIndex.find orderId with
  | none => exact cancelStopOrder_asserts harith book orderId userId
  | some entry =>
      obtain ⟨side, price⟩ := entry
      simp only
      cases book.level side price with
      | none => exact .of_holds (fun _ h => by cases h) _
      | some level =>
          refine Asserts.congr (P := ∀ order, (level.orders.find? fun order =>
              decide (order.orderId = orderId ∧ order.userId = userId)) = some order →
            Representable (level.totalQuantity - order.remainingQuantity) ∧
              Representable (order.originalQuantity - order.remainingQuantity)) ?_
            ⟨fun h _ hl => by cases hl; exact h, fun h => h level rfl⟩
          rw [List.find?_eq_bind_findIdx?_getElem?]
          simp only
          cases level.orders.findIdx? fun order => decide (order.orderId = orderId ∧ order.userId = userId) with
          | none => exact .of_holds (fun _ h => by cases h) _
          | some pos =>
              simp only [Option.bind_some]
              cases level.orders[pos]? with
              | none => exact .of_holds (fun _ h => by cases h) _
              | some order =>
                  exact ((sub_asserts harith _ _).bind_ok ((sub_asserts harith _ _).bind_same _)).congr
                    ⟨fun h _ horder => by cases horder; exact h, fun h => h order rfl⟩

end Cancellation

/-! ### Stop orders -/

/-- **The condition** for orders that are submitted one after another. -/
def AllExact : UuidSource → OrderBook → List Order → Prop
  | _, _, [] => True
  | uuid, book, o :: orders => SubmitExact book o ∧ ∀ report book', book.submit uuid.head o = .ok (report, book') →
      AllExact uuid.tail book' orders

section Stops

variable {arith : Arithmetic} (harith : arith.Lawful)

include harith

theorem submitAll_asserts (orders : List Order) : ∀ (uuid : UuidSource) (book : OrderBook), Inv book →
    Asserts (AllExact uuid book orders) (RustDecimal.submitAll arith.asserting uuid book orders)
      (RustDecimal.submitAll arith uuid book orders) (book.submitAll uuid orders) := by
  induction orders with
  | nil => exact fun _ _ _ => .refl _
  | cons o orders ih =>
      intro uuid book hinv
      rw [RustDecimal.submitAll, RustDecimal.submitAll, OrderBook.submitAll]
      refine ((submit_asserts harith uuid.head hinv o).bind
        (R := fun p => AllExact uuid.tail p.2 orders) fun p hp => ?_).congr ?_
      · obtain ⟨report, book'⟩ := p
        exact (ih uuid.tail book' (submit_inv hinv hp).1).bind_same _
      · exact and_congr_right fun _ => ⟨fun h report book' hp => h _ hp, fun h p hp => h p.1 p.2 hp⟩

theorem triggerStops_asserts (uuid : UuidSource) {book : OrderBook} (hinv : Inv book) (lastPrice : Decimal) :
    Asserts (AllExact uuid (book.drained lastPrice) (book.setOff lastPrice))
      (RustDecimal.triggerStops arith.asserting uuid book lastPrice)
      (RustDecimal.triggerStops arith uuid book lastPrice) (book.triggerStops uuid lastPrice) := by
  rw [RustDecimal.triggerStops, RustDecimal.triggerStops, OrderBook.triggerStops,
    drainStops_eq lastPrice book.stopOrders book.status (fun o ho => (hinv.pending o ho).stopPrice)]
  exact submitAll_asserts harith (book.setOff lastPrice) uuid (book.drained lastPrice) (hinv.drained lastPrice)

end Stops

/-! ### Restoring -/

/-- The sums that `restore_level` forms of a queue. -/
def SumsExact (available : Decimal) : List Order → Prop := Allot.Each (CountExact available)

/-- **The condition** for a restart. -/
def RestoreExact (book : OrderBook) : Prop := ∀ side, ∀ l ∈ (book.levels side).values, SumsExact 0 l.orders

theorem sumsExact_cons (available : Decimal) (r : Order) (orders : List Order) :
    SumsExact available (r :: orders) ↔
      Representable (available + r.remainingQuantity) ∧ SumsExact (available + r.remainingQuantity) orders := by
  rw [SumsExact, Allot.each_cons, countExact_nil]
  exact and_congr_right fun _ => Allot.each_congr fun before a _ => countExact_cons available r before a

section Restore

variable {arith : Arithmetic} (harith : arith.Lawful) {codec : DecimalCodec} (hcodec : codec.Lawful)

include harith

theorem sumRemaining_asserts (orders : List Order) : ∀ available,
    Asserts (SumsExact available orders)
      (orders.foldlM (fun acc order => arith.asserting.add acc order.remainingQuantity) available)
      (orders.foldlM (fun acc order => arith.add acc order.remainingQuantity) available)
      (.ok (available + totalRemaining orders)) := by
  induction orders with
  | nil =>
      intro available
      rw [totalRemaining, List.map_nil, List.sum_nil, add_zero]
      exact .of_holds Allot.each_nil _
  | cons r orders ih =>
      intro available
      have hsum : available + totalRemaining (r :: orders)
          = available + r.remainingQuantity + totalRemaining orders := by
        rw [totalRemaining, totalRemaining, List.map_cons, List.sum_cons, add_assoc]
      rw [List.foldlM_cons, List.foldlM_cons, hsum]
      exact ((add_asserts harith _ _).bind_ok (ih _)).congr (sumsExact_cons available r orders).symm

include hcodec

theorem restoreLevel_asserts (side : Side) (book : OrderBook) {level : PriceLevel}
    (htotal : level.totalQuantity = totalRemaining level.orders) :
    Asserts (SumsExact 0 level.orders)
      (RustDecimal.restoreLevel arith.asserting codec side book (priceLevelToSnapshot codec level))
      (RustDecimal.restoreLevel arith codec side book (priceLevelToSnapshot codec level))
      (.ok (book.restored side [level])) := by
  have hlevel : (⟨level.price, level.orders, 0 + totalRemaining level.orders⟩ : PriceLevel) = level := by
    rw [zero_add, ← htotal]
  rw [RustDecimal.restoreLevel, RustDecimal.restoreLevel, priceLevelToSnapshot]
  simp only [parseDecimalString_toString hcodec, ok_bind, mapM_map_ok (orderFromSnapshot_toSnapshot hcodec),
    foldl_indexOrder]
  refine (((sumRemaining_asserts harith level.orders 0).mapError LoadError.panic).bind_ok (R := True) ?_).congr
    (iff_of_eq (and_true _))
  have hrestored : ({ book with
      orderIndex := book.orderIndex.insertAll (level.orders.map fun o => (o.orderId, side, level.price)) } :
        OrderBook).setLevels side ((book.levels side).insert level.price level) = book.restored side [level] := by
    cases side <;> simp [OrderBook.restored, OrderBook.setLevels, OrderBook.levels, indexEntries]
  rw [hlevel, ← hrestored]
  cases side <;> exact .refl _

theorem restoreLevels_asserts (side : Side) (levels : List PriceLevel) :
    ∀ book : OrderBook, (∀ l ∈ levels, l.totalQuantity = totalRemaining l.orders) →
      Asserts (∀ l ∈ levels, SumsExact 0 l.orders)
        ((levels.map (priceLevelToSnapshot codec)).foldlM (RustDecimal.restoreLevel arith.asserting codec side) book)
        ((levels.map (priceLevelToSnapshot codec)).foldlM (RustDecimal.restoreLevel arith codec side) book)
        (.ok (book.restored side levels)) := by
  induction levels with
  | nil =>
      intro book _
      rw [OrderBook.restored_nil]
      exact .of_holds (fun l hl => by cases hl) _
  | cons l levels ih =>
      intro book htotal
      rw [List.map_cons, List.foldlM_cons, List.foldlM_cons, OrderBook.restored_cons]
      refine ((restoreLevel_asserts harith hcodec side book (htotal l List.mem_cons_self)).bind_ok
        (ih _ fun l' hl' => htotal l' (List.mem_cons_of_mem _ hl'))).congr ?_
      exact (List.forall_mem_cons (p := fun l : PriceLevel => SumsExact 0 l.orders)).symm

/-- **A restart** asserts its condition. -/
theorem fromSnapshot_asserts {book : OrderBook} (hinv : Inv book) :
    Asserts (RestoreExact book) (RustDecimal.fromSnapshot arith.asserting codec (book.toSnapshot codec))
      (RustDecimal.fromSnapshot arith codec (book.toSnapshot codec)) (.ok book) := by
  have htotal : ∀ side, ∀ l ∈ (book.levels side).values, l.totalQuantity = totalRemaining l.orders := by
    intro side l hl
    obtain ⟨price, hl⟩ := (SortedMap.mem_values_iff _ _).mp hl
    exact (hinv.level _ _ _ hl).total
  have hbids := fun b => restoreLevels_asserts harith hcodec .buy book.bids.values b (htotal .buy)
  have hasks := fun b => restoreLevels_asserts harith hcodec .sell book.asks.values b (htotal .sell)
  have hbuy := fun b => restoreLevels_toSnapshot hcodec .buy book.bids.values b (htotal .buy)
  have hsell := fun b => restoreLevels_toSnapshot hcodec .sell book.asks.values b (htotal .sell)
  have hknown := fromSnapshot_toSnapshot hcodec hinv
  rw [OrderBook.fromSnapshot, OrderBook.toSnapshot] at hknown
  rw [RustDecimal.fromSnapshot, RustDecimal.fromSnapshot, OrderBook.toSnapshot]
  simp only [mapM_map_ok (orderFromSnapshot_toSnapshot hcodec), ok_bind,
    mapM_map_ok (statusFromSnapshot_toSnapshot hcodec), mapM_map_ok (fillFromSnapshot_toSnapshot hcodec),
    SortedMap.collect_entries] at hknown ⊢
  rw [hbuy, ok_bind, hsell] at hknown
  rw [← hknown]
  refine ((hbids _).bind_ok (hasks _)).congr ?_
  exact ⟨fun h side => by cases side <;> [exact h.1; exact h.2], fun h => ⟨h .buy, h .sell⟩⟩

end Restore

/-! ### Runs -/

/-- **The condition** for a call. -/
def CallExact (book : OrderBook) : BookOp → Prop
  | .submit _ o => SubmitExact book o
  | .cancel orderId userId => CancelExact book orderId userId
  | .triggerStops uuid lastPrice => AllExact uuid (book.drained lastPrice) (book.setOff lastPrice)

/-- **The condition** on a step. -/
def StepExact (book : OrderBook) : EngineOp → Prop
  | .call op => CallExact book op
  | .restart => RestoreExact book

section Runs

variable {arith : Arithmetic} (harith : arith.Lawful)

include harith

theorem exec_asserts {book : OrderBook} (hinv : Inv book) (op : BookOp) :
    Asserts (CallExact book op) (RustDecimal.exec arith.asserting book op) (RustDecimal.exec arith book op)
      (book.exec op) := by
  cases op with
  | submit uuid o =>
      exact (submit_asserts harith uuid hinv o).bind_same _
  | cancel orderId userId =>
      exact (cancel_asserts harith book orderId userId).bind_same _
  | triggerStops uuid lastPrice =>
      exact (triggerStops_asserts harith uuid hinv lastPrice).bind_same _

theorem serve_asserts {codec : DecimalCodec} (hcodec : codec.Lawful) {book : OrderBook} (hinv : Inv book)
    (op : EngineOp) :
    Asserts (StepExact book op) (RustDecimal.serve arith.asserting codec book op)
      (RustDecimal.serve arith codec book op) (book.serve codec op) := by
  cases op with
  | call op =>
      exact ((exec_asserts harith hinv op).mapError LoadError.panic).bind_same _
  | restart =>
      rw [OrderBook.serve, fromSnapshot_toSnapshot hcodec hinv]
      exact (fromSnapshot_asserts harith hcodec hinv).bind_same _

end Runs

section Serve

variable {codec : DecimalCodec} (hcodec : codec.Lawful)

include hcodec

theorem serve_spec {book : OrderBook} (hinv : Inv book) (op : EngineOp) :
    ∃ reply book', book.serve codec op = .ok (reply, book') ∧ Inv book' := by
  cases op with
  | call op =>
      obtain ⟨reply, book', hexec, hinv', _⟩ := exec_spec hinv op
      exact ⟨some reply, book', by rw [OrderBook.serve, hexec]; rfl, hinv'⟩
  | restart =>
      exact ⟨none, book, by rw [OrderBook.serve, fromSnapshot_toSnapshot hcodec hinv]; rfl, hinv⟩

/-- **The arithmetic of the engine is exact** in a run if and only if every step meets the condition: with an
assertion after each addition and subtraction that its result is exact, the run returns exactly then, and without
the assertions it is then the run in exact numbers, in which the total of a level is the sum of its queue. -/
theorem arithmetic_is_exact_iff {arith : Arithmetic} (harith : arith.Lawful) (ops : List EngineOp) :
    ((∃ replies book, RustDecimal.engineRun arith.asserting codec ops = .ok (replies, book)) ↔
        Machine.Along (OrderBook.serve codec) StepExact OrderBook.default ops) ∧
      (Machine.Along (OrderBook.serve codec) StepExact OrderBook.default ops →
        ∃ replies book, RustDecimal.engineRun arith codec ops = .ok (replies, book) ∧
          engineRun codec ops = .ok (replies, book) ∧
          ∀ side price l, book.level side price = some l → l.totalQuantity = totalRemaining l.orders) := by
  have hnext : ∀ s a r t, Inv s → OrderBook.serve codec s a = .ok (r, t) → Inv t := by
    intro s a r t hs hserve
    obtain ⟨reply, book', hserve', hinv⟩ := serve_spec hcodec hs a
    rw [hserve] at hserve'
    cases hserve'
    exact hinv
  have hasserts := Machine.run_asserts (P := StepExact) (fun s a hs => serve_asserts harith hcodec hs a) hnext ops
    OrderBook.default inv_default
  obtain ⟨replies, book, hrun, hinv⟩ := Machine.run_total
    (fun s a hs => serve_spec hcodec hs a) ops OrderBook.default inv_default
  refine ⟨⟨?_, fun halong => ⟨replies, book, (hasserts.returns _).mpr ⟨halong, hrun⟩⟩⟩, fun halong => ?_⟩
  · rintro ⟨replies', book', hreturns⟩
    exact ((hasserts.returns _).mp hreturns).1
  · exact ⟨replies, book, (hasserts.agrees halong).trans hrun, hrun,
      fun side price l hl => (hinv.level _ _ _ hl).total⟩

end Serve

/-! ### Two offers -/

/-- A result, or a panic where it cannot be held. -/
def held (result : Decimal) (message : String) : Except Panic Decimal :=
  if Representable result then .ok result else .error (.expect message)

theorem representable_of_held {result z : Decimal} {message : String} (h : held result message = .ok z) :
    Representable z := by
  rw [held] at h
  split at h
  · rename_i hresult
    cases h
    exact hresult
  · cases h

/-- Operators that do not round. -/
def panicking : Arithmetic where
  add := fun x y => held (x + y) "Addition overflowed"
  sub := fun x y => held (x - y) "Subtraction overflowed"

theorem panicking_lawful : panicking.Lawful where
  add_exact := fun _ _ h => if_pos h
  add_representable := fun _ _ _ => representable_of_held
  sub_exact := fun _ _ h => if_pos h
  sub_representable := fun _ _ _ => representable_of_held

/-- An order as `Order::new` builds it from texts that `Decimal::from_str` accepts. -/
def EngineOp.Parsed : EngineOp → Prop
  | .call (.submit _ o) => o.Built ∧ Representable o.originalQuantity ∧
      ∀ price, o.price = some price → Representable price
  | _ => True

/-- Two offers at one price. -/
def offersOf (first second : Decimal) : List EngineOp :=
  [.call (.submit (fun _ => "trade-1") (Order.limit "ask-1" "u1" .sell 100 first)),
    .call (.submit (fun _ => "trade-2") (Order.limit "ask-2" "u2" .sell 100 second))]

/-- A bid takes one of two offers and a part of the other, and the engine restarts. -/
theorem arithmetic_is_exact_iff_offers :
    Machine.Along (OrderBook.serve fractionCodec) StepExact OrderBook.default
      (offersOf 1 (1 / 2) ++
        [.call (.submit (fun _ => "trade-3") (Order.limit "bid" "u3" .buy 100 (6 / 5))), .restart]) := by
  refine (arithmetic_is_exact_iff fractionCodec_lawful panicking_lawful _).1.mp ?_
  have hreturns : (RustDecimal.engineRun panicking.asserting fractionCodec (offersOf 1 (1 / 2) ++
      [.call (.submit (fun _ => "trade-3") (Order.limit "bid" "u3" .buy 100 (6 / 5))), .restart])).map
        (fun _ => ()) = .ok () := by decide +kernel
  cases hrun : RustDecimal.engineRun panicking.asserting fractionCodec (offersOf 1 (1 / 2) ++
      [.call (.submit (fun _ => "trade-3") (Order.limit "bid" "u3" .buy 100 (6 / 5))), .restart]) with
  | error e =>
      rw [hrun] at hreturns
      cases hreturns
  | ok p => exact ⟨p.1, p.2, rfl⟩

/-- The largest number that `rust_decimal` holds. -/
def largest : Decimal := 2 ^ 96 - 1

/-- **The total of a level overflows**: two offers at one price, each of the largest quantity. -/
theorem offers_overflow :
    ¬∀ (arith : Arithmetic), arith.Lawful → ∀ ops : List EngineOp, (∀ op ∈ ops, op.Parsed) →
      ∃ replies book, RustDecimal.engineRun arith.asserting fractionCodec ops = .ok (replies, book) := by
  intro hall
  have hparsed : ∀ op ∈ offersOf largest largest, op.Parsed := by
    have hprice : ∀ price, some (100 : Decimal) = some price → Representable price := by
      intro price hp
      cases hp
      decide +kernel
    have hlargest : Representable largest := by decide +kernel
    intro op hop
    rw [offersOf, List.mem_cons, List.mem_singleton] at hop
    rcases hop with rfl | rfl
    · exact ⟨⟨rfl, rfl⟩, hlargest, hprice⟩
    · exact ⟨⟨rfl, rfl⟩, hlargest, hprice⟩
  have hpanics : (RustDecimal.engineRun panicking.asserting fractionCodec (offersOf largest largest)).map
      (fun _ => ()) = .error (.panic (.expect "Addition overflowed")) := by decide +kernel
  obtain ⟨replies, book, hrun⟩ := hall panicking panicking_lawful (offersOf largest largest) hparsed
  rw [hrun] at hpanics
  cases hpanics

end NexusTrade.MatchingEngine
