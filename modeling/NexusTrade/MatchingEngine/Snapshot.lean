import NexusTrade.Lib.Fraction
import NexusTrade.MatchingEngine.Runs

/-!
# Snapshots of the order book

`to_snapshot` and `from_snapshot` of `services/matching-engine/src/lib.rs` and the records around them.
The decimal codec of `rust_decimal` is a parameter; what the code relies on is `DecimalCodec.Lawful`.

* **`fromSnapshot_toSnapshot`**: a book with the representation invariant is read back as it was written:
  the index and the level totals, which are not written, are computed again from the queues.
-/

namespace NexusTrade.MatchingEngine

/-- `Decimal::to_string` and `Decimal::from_str`. -/
structure DecimalCodec where
  toString : Decimal → String
  fromStr : String → Option Decimal

/-- What is written is read back. -/
def DecimalCodec.Lawful (codec : DecimalCodec) : Prop := ∀ d, codec.fromStr (codec.toString d) = some d

/-- The codec of exact rationals; on whole numbers the text is that of `rust_decimal`. -/
def fractionCodec : DecimalCodec := ⟨Fraction.toText, Fraction.ofText⟩

theorem fractionCodec_lawful : fractionCodec.Lawful := Fraction.ofText_toText

structure OrderSnapshot where
  orderId : String
  userId : String
  side : Side
  kind : OrderKind
  price : Option String
  stopPrice : Option String
  originalQuantity : String
  remainingQuantity : String
  sequence : ℕ
  deriving DecidableEq

structure PriceLevelSnapshot where
  price : String
  orders : List OrderSnapshot
  deriving DecidableEq

structure OrderStatusSnapshot where
  orderId : String
  status : OrderStatus
  filledQuantity : String
  deriving DecidableEq

structure FillSnapshot where
  tradeId : String
  makerOrderId : String
  takerOrderId : String
  makerUserId : String
  takerUserId : String
  price : String
  quantity : String
  deriving DecidableEq

structure OrderBookSnapshot where
  bids : List PriceLevelSnapshot
  asks : List PriceLevelSnapshot
  stopOrders : List OrderSnapshot
  status : List OrderStatusSnapshot
  auditLog : List FillSnapshot
  nextSequence : ℕ
  deriving DecidableEq

/-- How loading from the files fails: an `io::Error` for text that is no decimal, or a panic of the
replay. -/
inductive LoadError
  | invalidDecimal (value : String)
  | panic (p : Panic)
  deriving DecidableEq

variable (codec : DecimalCodec)

/-! ### Writing -/

/-- `order_to_snapshot`. -/
def orderToSnapshot (order : Order) : OrderSnapshot where
  orderId := order.orderId
  userId := order.userId
  side := order.side
  kind := order.kind
  price := order.price.map codec.toString
  stopPrice := order.stopPrice.map codec.toString
  originalQuantity := codec.toString order.originalQuantity
  remainingQuantity := codec.toString order.remainingQuantity
  sequence := order.sequence

/-- `price_level_to_snapshot`. -/
def priceLevelToSnapshot (level : PriceLevel) : PriceLevelSnapshot where
  price := codec.toString level.price
  orders := level.orders.map (orderToSnapshot codec)

/-- `fill_to_snapshot`. -/
def fillToSnapshot (fill : Fill) : FillSnapshot where
  tradeId := fill.tradeId
  makerOrderId := fill.makerOrderId
  takerOrderId := fill.takerOrderId
  makerUserId := fill.makerUserId
  takerUserId := fill.takerUserId
  price := codec.toString fill.price
  quantity := codec.toString fill.quantity

/-- `to_snapshot`. -/
def OrderBook.toSnapshot (book : OrderBook) : OrderBookSnapshot where
  bids := book.bids.values.map (priceLevelToSnapshot codec)
  asks := book.asks.values.map (priceLevelToSnapshot codec)
  stopOrders := book.stopOrders.map (orderToSnapshot codec)
  status := book.status.entries.map fun e => ⟨e.1, e.2.1, codec.toString e.2.2⟩
  auditLog := book.auditLog.map (fillToSnapshot codec)
  nextSequence := book.nextSequence

/-! ### Reading -/

/-- `parse_decimal_string`. -/
def parseDecimalString (value : String) : Except LoadError Decimal :=
  match codec.fromStr value with
  | none => .error (.invalidDecimal value)
  | some d => .ok d

/-- `option.map(parse).transpose()`. -/
def parseOptional : Option String → Except LoadError (Option Decimal)
  | none => .ok none
  | some value => do
      let d ← parseDecimalString codec value
      .ok (some d)

/-- `order_from_snapshot`. -/
def orderFromSnapshot (snapshot : OrderSnapshot) : Except LoadError Order := do
  let price ← parseOptional codec snapshot.price
  let stopPrice ← parseOptional codec snapshot.stopPrice
  let originalQuantity ← parseDecimalString codec snapshot.originalQuantity
  let remainingQuantity ← parseDecimalString codec snapshot.remainingQuantity
  .ok ⟨snapshot.orderId, snapshot.userId, snapshot.side, snapshot.kind, price, stopPrice,
    originalQuantity, remainingQuantity, snapshot.sequence⟩

/-- `fill_from_snapshot`. -/
def fillFromSnapshot (snapshot : FillSnapshot) : Except LoadError Fill := do
  let price ← parseDecimalString codec snapshot.price
  let quantity ← parseDecimalString codec snapshot.quantity
  .ok ⟨snapshot.tradeId, snapshot.makerOrderId, snapshot.takerOrderId, snapshot.makerUserId,
    snapshot.takerUserId, price, quantity⟩

/-- One entry of the status log. -/
def statusFromSnapshot (entry : OrderStatusSnapshot) :
    Except LoadError (String × OrderStatus × Decimal) := do
  let filled ← parseDecimalString codec entry.filledQuantity
  .ok (entry.orderId, entry.status, filled)

/-- `restore_level`. -/
def OrderBook.restoreLevel (side : Side) (book : OrderBook) (snapshot : PriceLevelSnapshot) :
    Except LoadError OrderBook := do
  let price ← parseDecimalString codec snapshot.price
  let orders ← snapshot.orders.mapM (orderFromSnapshot codec)
  let totalQuantity := orders.foldl (fun acc order => acc + order.remainingQuantity) 0
  let book := orders.foldl (fun book order => book.indexOrder order.orderId side price) book
  .ok (book.setLevels side ((book.levels side).insert price ⟨price, orders, totalQuantity⟩))

/-- `from_snapshot`. -/
def OrderBook.fromSnapshot (snapshot : OrderBookSnapshot) : Except LoadError OrderBook := do
  let stopOrders ← snapshot.stopOrders.mapM (orderFromSnapshot codec)
  let status ← snapshot.status.mapM (statusFromSnapshot codec)
  let auditLog ← snapshot.auditLog.mapM (fillFromSnapshot codec)
  let book : OrderBook := { OrderBook.default with
    stopOrders := stopOrders
    status := SortedMap.collect status
    auditLog := auditLog
    nextSequence := snapshot.nextSequence }
  let book ← snapshot.bids.foldlM (OrderBook.restoreLevel codec .buy) book
  snapshot.asks.foldlM (OrderBook.restoreLevel codec .sell) book

/-! ### Reading back one record -/

section Lawful

variable {codec} (hcodec : codec.Lawful)

include hcodec

theorem parseDecimalString_toString (d : Decimal) :
    parseDecimalString codec (codec.toString d) = .ok d := by
  rw [parseDecimalString, hcodec d]

theorem parseOptional_toString (d : Option Decimal) :
    parseOptional codec (d.map codec.toString) = .ok d := by
  cases d with
  | none => rfl
  | some d =>
      show (parseDecimalString codec (codec.toString d) >>= fun d => .ok (some d)) = _
      rw [parseDecimalString_toString hcodec, ok_bind]

theorem orderFromSnapshot_toSnapshot (o : Order) :
    orderFromSnapshot codec (orderToSnapshot codec o) = .ok o := by
  rw [orderFromSnapshot, orderToSnapshot]
  simp only [parseOptional_toString hcodec, parseDecimalString_toString hcodec, ok_bind]

theorem fillFromSnapshot_toSnapshot (f : Fill) :
    fillFromSnapshot codec (fillToSnapshot codec f) = .ok f := by
  rw [fillFromSnapshot, fillToSnapshot]
  simp only [parseDecimalString_toString hcodec, ok_bind]

theorem statusFromSnapshot_toSnapshot (e : String × OrderStatus × Decimal) :
    statusFromSnapshot codec ⟨e.1, e.2.1, codec.toString e.2.2⟩ = .ok e := by
  rw [statusFromSnapshot]
  simp only [parseDecimalString_toString hcodec, ok_bind]

end Lawful

/-- Reading back a list of records. -/
theorem mapM_map_ok_of_mem {α β γ : Type} {write : α → β} {read : β → Except LoadError γ}
    {value : α → γ} {as : List α} (h : ∀ a ∈ as, read (write a) = .ok (value a)) :
    (as.map write).mapM read = .ok (as.map value) := by
  induction as with
  | nil => rfl
  | cons a as ih =>
      rw [List.map_cons, List.mapM_cons, h a List.mem_cons_self, ok_bind,
        ih fun b hb => h b (List.mem_cons_of_mem a hb), ok_bind]
      rfl

theorem mapM_map_ok {α β : Type} {write : α → β} {read : β → Except LoadError α}
    (h : ∀ a, read (write a) = .ok a) (as : List α) : (as.map write).mapM read = .ok as := by
  rw [mapM_map_ok_of_mem fun a _ => h a, List.map_id']

/-! ### Reading back a book -/

/-- The index entries `restore_level` writes for a level. -/
def indexEntries (side : Side) (level : PriceLevel) : List (String × Side × Decimal) :=
  level.orders.map fun o => (o.orderId, side, level.price)

/-- The book with some levels of a side restored. -/
def OrderBook.restored (book : OrderBook) (side : Side) (levels : List PriceLevel) : OrderBook :=
  ({ book with
    orderIndex := book.orderIndex.insertAll (levels.flatMap (indexEntries side)) } : OrderBook).setLevels
      side ((book.levels side).insertAll (levels.map fun l => (l.price, l)))

theorem OrderBook.restored_nil (book : OrderBook) (side : Side) : book.restored side [] = book := by
  cases side <;> rfl

theorem OrderBook.restored_cons (book : OrderBook) (side : Side) (l : PriceLevel)
    (levels : List PriceLevel) :
    book.restored side (l :: levels) = (book.restored side [l]).restored side levels := by
  cases side <;> simp [OrderBook.restored, OrderBook.setLevels, OrderBook.levels]

theorem foldl_indexOrder (side : Side) (price : Decimal) (orders : List Order) (book : OrderBook) :
    orders.foldl (fun book o => book.indexOrder o.orderId side price) book
      = { book with
          orderIndex := book.orderIndex.insertAll (orders.map fun o => (o.orderId, side, price)) } := by
  induction orders generalizing book with
  | nil => rfl
  | cons o orders ih => rw [List.foldl_cons, ih]; rfl

theorem foldl_remaining (orders : List Order) (acc : Decimal) :
    orders.foldl (fun acc o => acc + o.remainingQuantity) acc = acc + totalRemaining orders := by
  induction orders generalizing acc with
  | nil => simp [totalRemaining]
  | cons o orders ih =>
      rw [List.foldl_cons, ih, totalRemaining, totalRemaining, List.map_cons, List.sum_cons, add_assoc]

section Books

variable {codec} (hcodec : codec.Lawful)

include hcodec

/-- `restore_level` reads back what was written of a level. -/
theorem restoreLevel_toSnapshot (side : Side) (book : OrderBook) {level : PriceLevel}
    (htotal : level.totalQuantity = totalRemaining level.orders) :
    OrderBook.restoreLevel codec side book (priceLevelToSnapshot codec level)
      = .ok (book.restored side [level]) := by
  have hlevel : (⟨level.price, level.orders, 0 + totalRemaining level.orders⟩ : PriceLevel)
      = level := by
    rw [zero_add, ← htotal]
  rw [OrderBook.restoreLevel, priceLevelToSnapshot]
  simp only [parseDecimalString_toString hcodec, ok_bind,
    mapM_map_ok (orderFromSnapshot_toSnapshot hcodec), foldl_indexOrder, foldl_remaining, hlevel]
  cases side <;> simp [OrderBook.restored, OrderBook.setLevels, OrderBook.levels, indexEntries]

/-- `restore_level` for all levels of a side. -/
theorem restoreLevels_toSnapshot (side : Side) (levels : List PriceLevel) :
    ∀ book : OrderBook, (∀ l ∈ levels, l.totalQuantity = totalRemaining l.orders) →
      (levels.map (priceLevelToSnapshot codec)).foldlM (OrderBook.restoreLevel codec side) book
        = .ok (book.restored side levels) := by
  induction levels with
  | nil =>
      intro book _
      rw [OrderBook.restored_nil]
      rfl
  | cons l levels ih =>
      intro book htotal
      rw [List.map_cons, List.foldlM_cons,
        restoreLevel_toSnapshot hcodec side book (htotal l List.mem_cons_self), ok_bind,
        ih _ fun l' hl' => htotal l' (List.mem_cons_of_mem _ hl'), ← OrderBook.restored_cons]

end Books

/-- The levels of a side are collected again from the prices in them. -/
theorem Inv.collect_levels {book : OrderBook} (h : Inv book) (side : Side) :
    SortedMap.collect ((book.levels side).values.map fun l => (l.price, l)) = book.levels side := by
  have hkeys : (book.levels side).values.map (fun l => (l.price, l)) = (book.levels side).entries := by
    rw [SortedMap.values, List.map_map]
    refine (List.map_congr_left fun e he => ?_).trans (List.map_id _)
    have hl := (h.level side e.1 e.2 ((SortedMap.mem_entries_iff _ _ _).mp he)).price_eq
    show (e.2.price, e.2) = (e.1, e.2)
    rw [hl]
  rw [hkeys, SortedMap.collect_entries]

/-- What the restored levels say about an identifier. -/
theorem Inv.mem_indexEntries {book : OrderBook} (h : Inv book) (side : Side)
    (e : String × Side × Decimal) :
    e ∈ (book.levels side).values.flatMap (indexEntries side) ↔
      e.2.1 = side ∧ book.orderIndex.find e.1 = some e.2 := by
  obtain ⟨id, s, p⟩ := e
  rw [List.mem_flatMap]
  constructor
  · rintro ⟨l, hl, he⟩
    obtain ⟨price, hl⟩ := (SortedMap.mem_values_iff _ _).mp hl
    obtain ⟨o, ho, heq⟩ := List.mem_map.mp he
    cases heq
    refine ⟨rfl, (h.index _ _ _).mpr ⟨l, ?_, mem_orderIds ho⟩⟩
    rw [(h.level _ _ _ hl).price_eq]
    exact hl
  · rintro ⟨rfl, hindex⟩
    obtain ⟨l, hl, hid⟩ := (h.index _ _ _).mp hindex
    obtain ⟨o, ho, rfl⟩ := List.mem_map.mp hid
    refine ⟨l, (SortedMap.mem_values_iff _ _).mpr ⟨p, hl⟩, List.mem_map.mpr ⟨o, ho, ?_⟩⟩
    rw [(h.level _ _ _ hl).price_eq]

/-- The index is collected again from the queues. -/
theorem Inv.collect_index {book : OrderBook} (h : Inv book) :
    SortedMap.collect ((book.bids.values.flatMap (indexEntries .buy))
      ++ book.asks.values.flatMap (indexEntries .sell)) = book.orderIndex := by
  have hmem : ∀ e, e ∈ book.bids.values.flatMap (indexEntries .buy)
      ++ book.asks.values.flatMap (indexEntries .sell) ↔ book.orderIndex.find e.1 = some e.2 := by
    intro e
    rw [List.mem_append]
    have hbuy := h.mem_indexEntries .buy e
    have hsell := h.mem_indexEntries .sell e
    constructor
    · rintro (he | he)
      · exact (hbuy.mp he).2
      · exact (hsell.mp he).2
    · intro he
      cases hs : e.2.1 with
      | buy => exact Or.inl (hbuy.mpr ⟨hs, he⟩)
      | sell => exact Or.inr (hsell.mpr ⟨hs, he⟩)
  refine SortedMap.ext_find fun id => ?_
  cases hid : book.orderIndex.find id with
  | none =>
      refine SortedMap.find_collect_none fun e he hkey => ?_
      rw [hmem, hkey, hid] at he
      cases he
  | some x =>
      refine SortedMap.find_collect ((hmem (id, x)).mpr hid) fun e he hkey => ?_
      rw [hmem, hkey, hid] at he
      exact Option.some.inj he

/-- **Snapshot decoding undoes encoding**, on books with the representation invariant. -/
theorem fromSnapshot_toSnapshot {codec : DecimalCodec} (hcodec : codec.Lawful) {book : OrderBook}
    (h : Inv book) : OrderBook.fromSnapshot codec (book.toSnapshot codec) = .ok book := by
  have htotal : ∀ side, ∀ l ∈ (book.levels side).values, l.totalQuantity = totalRemaining l.orders := by
    intro side l hl
    obtain ⟨price, hl⟩ := (SortedMap.mem_values_iff _ _).mp hl
    exact (h.level _ _ _ hl).total
  have hbids := h.collect_levels .buy
  have hasks := h.collect_levels .sell
  have hindex := h.collect_index
  have hbuy := fun b => restoreLevels_toSnapshot hcodec .buy _ b (htotal .buy)
  have hsell := fun b => restoreLevels_toSnapshot hcodec .sell _ b (htotal .sell)
  simp only [OrderBook.levels, SortedMap.collect] at hbids hasks hbuy hsell
  rw [OrderBook.fromSnapshot, OrderBook.toSnapshot]
  simp only [mapM_map_ok (orderFromSnapshot_toSnapshot hcodec), ok_bind,
    mapM_map_ok (statusFromSnapshot_toSnapshot hcodec),
    mapM_map_ok (fillFromSnapshot_toSnapshot hcodec), SortedMap.collect_entries]
  rw [hbuy, ok_bind, hsell]
  rw [SortedMap.collect, SortedMap.insertAll_append] at hindex
  simp only [OrderBook.restored, OrderBook.setLevels, OrderBook.levels, OrderBook.default, hbids,
    hasks, hindex]

end NexusTrade.MatchingEngine
