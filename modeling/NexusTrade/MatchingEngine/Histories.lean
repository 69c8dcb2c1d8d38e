import NexusTrade.MatchingEngine.Acceptance
import NexusTrade.MatchingEngine.Replay

/-!
# The history of a book

The book of a symbol is always that of a run: of the submissions and cancellations that have reached it, with
the stop orders that each of them has set off.

* **`History`** says so, with the orders that were submitted and the fills that were made;
* **`Traded.history`** and **`History.cancelled`**: a call on the engine is a run more;
* **`Traded.live`**, **`Traded.named`** and **`Cancelled.live`**: which orders a call leaves live, and
  which its fills name;
* **`History.matched`** and **`History.left`**: what is known of fills and of what rests, of whole runs.
-/

namespace NexusTrade.MatchingEngine

/-- **The book of a run**, with the orders submitted and the fills made in it. -/
structure History (book : OrderBook) (orders : List Order) (fills : List Fill) : Prop where
  run : ∃ ops replies, bookRun ops = .ok (replies, book) ∧ submittedOrders ops = orders ∧
    replies.flatMap BookReply.fills = fills

theorem history_default : History .default [] [] := ⟨⟨[], [], rfl, rfl, rfl⟩⟩

section History

variable {book book' : OrderBook} {orders : List Order} {fills : List Fill}

/-- One call more. -/
theorem History.snoc (h : History book orders fills) {op : BookOp} {reply : BookReply}
    (hexec : book.exec op = .ok (reply, book')) :
    History book' (orders ++ submittedOrders [op]) (fills ++ reply.fills) := by
  obtain ⟨ops, replies, hrun, rfl, rfl⟩ := h.run
  refine ⟨ops ++ [op], replies ++ [reply], ?_, submittedOrders_append _ _, ?_⟩
  · exact Machine.run_snoc.mpr ⟨replies, book, reply, hrun, hexec, rfl⟩
  · rw [List.flatMap_append, List.flatMap_singleton]

theorem History.inv (h : History book orders fills) : Inv book := by
  obtain ⟨ops, replies, hrun, _⟩ := h.run
  exact (bookRun_origins hrun).1

/-- A cascade of stop orders. -/
theorem Cascaded.history {uuid : UuidSource} {prices : List Decimal} {reports : List ExecutionReport}
    (hc : Cascaded uuid book prices reports book') {fills : List Fill} (h : History book orders fills) :
    History book' orders (fills ++ fillsOf reports) := by
  induction hc generalizing fills with
  | done uuid book =>
      rw [show fillsOf [] = [] from rfl, List.append_nil]
      exact h
  | @step uuid book middle book' prices lastPrice triggered more _ returned _ _ ih =>
      have hexec : book.exec (.triggerStops uuid.head lastPrice) = .ok (.triggered triggered, middle) := by
        rw [OrderBook.exec, returned, ok_bind]
      have hstep := h.snoc hexec
      rw [show submittedOrders [.triggerStops uuid.head lastPrice] = [] from rfl, List.append_nil] at hstep
      rw [fillsOf_append, ← List.append_assoc]
      exact ih hstep

/-- **A submission**, with the stop orders that it sets off. -/
theorem Traded.history {uuid : UuidSource} {o : Order} {report : ExecutionReport}
    {dropped : List ExecutionReport} (hx : Traded uuid book o report dropped book')
    (h : History book orders fills) :
    History book' (orders ++ [o]) (fills ++ (report.fills ++ fillsOf dropped)) := by
  obtain ⟨middle, _, hsubmit, _, hcascaded⟩ := hx.steps
  have hexec : book.exec (.submit uuid.head o) = .ok (.submitted report, middle) := by
    rw [OrderBook.exec, hsubmit, ok_bind]
  rw [← List.append_assoc]
  exact hcascaded.history (h.snoc hexec)

/-- **A cancellation.** -/
theorem History.cancelled (h : History book orders fills) {orderId userId : String} {done : Bool}
    (hcancel : book.cancel orderId userId = .ok (done, book')) : History book' orders fills := by
  have hexec : book.exec (.cancel orderId userId) = .ok (.cancelled done, book') := by
    rw [OrderBook.exec, hcancel, ok_bind]
  have hstep := h.snoc hexec
  rw [show submittedOrders [.cancel orderId userId] = [] from rfl, List.append_nil,
    show (BookReply.cancelled done).fills = [] from rfl, List.append_nil] at hstep
  exact hstep

end History

/-! ### Live orders -/

/-- What is queued or pending in a book goes back to some orders. -/
structure Sources (orders : List Order) (book : OrderBook) : Prop where
  queued : AllQueued (Resting orders) book
  pending : ∀ o ∈ book.stopOrders, ∃ s ∈ orders, StemsFrom s o ∧ s.kind.isStop = true

section Live

variable {book book' : OrderBook} {orders : List Order} {fills : List Fill}

theorem History.sources (h : History book orders fills) : Sources orders book := by
  obtain ⟨ops, replies, hrun, rfl, _⟩ := h.run
  obtain ⟨_, hqueued, hpending, _, _⟩ := bookRun_origins hrun
  exact ⟨hqueued, hpending⟩

/-- What is live goes back to itself. -/
theorem History.selfSources (h : History book orders fills) : Sources book.liveOrders book where
  queued := fun side price l hl o ho => by
    obtain ⟨s, _, hstem, hkind⟩ := h.sources.queued side price l hl o ho
    exact ⟨o, mem_liveOrders.mpr (Or.inl ⟨side, price, l, hl, ho⟩), StemsFrom.refl o,
      hstem.priced.trans hkind⟩
  pending := fun o ho =>
    ⟨o, mem_liveOrders.mpr (Or.inr ho), StemsFrom.refl o, (h.inv.pending o ho).kind⟩

theorem Sources.mono {orders' : List Order} (h : Sources orders book) (hsub : orders ⊆ orders') :
    Sources orders' book where
  queued := h.queued.mono fun o ho => by
    obtain ⟨s, hs, hstem⟩ := ho
    exact ⟨s, hsub hs, hstem⟩
  pending := fun o ho => by
    obtain ⟨s, hs, hstem⟩ := h.pending o ho
    exact ⟨s, hsub hs, hstem⟩

/-- What is live has the identifier of one of its sources. -/
theorem Sources.live (h : Sources orders book) {id : String} (hid : id ∈ orderIds book.liveOrders) :
    ∃ s ∈ orders, s.orderId = id ∧ s.kind ≠ .market := by
  obtain ⟨o, ho, rfl⟩ := List.mem_map.mp hid
  have hnot : ∀ s : Order, requiresPrice s.kind = true ∨ s.kind.isStop = true → s.kind ≠ .market := by
    intro s hkind hm
    rw [hm] at hkind
    rcases hkind with hkind | hkind <;> cases hkind
  rcases mem_liveOrders.mp ho with ⟨side, price, l, hl, ho⟩ | ho
  · obtain ⟨s, hs, hstem, hkind⟩ := h.queued side price l hl o ho
    exact ⟨s, hs, hstem.orderId.symm, hnot s (Or.inl hkind)⟩
  · obtain ⟨s, hs, hstem, hkind⟩ := h.pending o ho
    exact ⟨s, hs, hstem.orderId.symm, hnot s (Or.inr hkind)⟩

theorem Cascaded.sources {uuid : UuidSource} {prices : List Decimal} {reports : List ExecutionReport}
    (hc : Cascaded uuid book prices reports book') (h : Sources orders book) :
    Sources orders book' ∧ ∀ f ∈ fillsOf reports, Originates orders true f := by
  induction hc with
  | done uuid book => exact ⟨h, fun f hf => by cases hf⟩
  | @step uuid book middle book' prices lastPrice triggered more inv _ head _ ih =>
      have hcalled : Called book (.triggerStops uuid.head lastPrice) (.triggered triggered) middle :=
        .triggered head
      have hsourced := hcalled.sourced inv (fun _ _ hop => nomatch hop) h.queued h.pending
      obtain ⟨hlast, hmore⟩ := ih ⟨hsourced.queued, hsourced.pending⟩
      refine ⟨hlast, fun f hf => ?_⟩
      rw [fillsOf_append] at hf
      rcases List.mem_append.mp hf with hf | hf
      · exact hsourced.triggered f hf
      · exact hmore f hf

/-- **What a submission makes** of orders with known sources. -/
theorem Traded.sources {uuid : UuidSource} {o : Order} {report : ExecutionReport}
    {dropped : List ExecutionReport} (hx : Traded uuid book o report dropped book') (hinv : Inv book)
    (h : Sources orders book) (ho : o ∈ orders) :
    Sources orders book' ∧ (∀ f ∈ report.fills, Originates orders false f) ∧
      ∀ f ∈ fillsOf dropped, Originates orders true f := by
  obtain ⟨middle, _, _, hsubmitted, hcascaded⟩ := hx.steps
  have hcalled : Called book (.submit uuid.head o) (.submitted report) middle := .submitted hsubmitted
  have hsourced := hcalled.sourced hinv (by rintro _ _ ⟨⟩; exact ho) h.queued h.pending
  obtain ⟨hlast, hdropped⟩ := hcascaded.sources ⟨hsourced.queued, hsourced.pending⟩
  exact ⟨hlast, hsourced.own, hdropped⟩

/-- **A submission leaves live** what was live, and the order. -/
theorem Traded.live {uuid : UuidSource} {o : Order} {report : ExecutionReport}
    {dropped : List ExecutionReport} (hx : Traded uuid book o report dropped book')
    (h : History book orders fills) {id : String} (hid : id ∈ orderIds book'.liveOrders) :
    id ∈ orderIds book.liveOrders ∨ id = o.orderId := by
  obtain ⟨hlast, _⟩ := hx.sources h.inv (h.selfSources.mono (List.subset_append_left _ [o]))
    (List.mem_append_right _ (List.mem_singleton_self o))
  obtain ⟨s, hs, rfl, _⟩ := hlast.live hid
  rcases List.mem_append.mp hs with hs | hs
  · exact Or.inl (mem_orderIds hs)
  · rw [List.mem_singleton.mp hs]
    exact Or.inr rfl

/-- **The fills of a submission name** what was live, and the order. -/
theorem Traded.named {uuid : UuidSource} {o : Order} {report : ExecutionReport}
    {dropped : List ExecutionReport} (hx : Traded uuid book o report dropped book')
    (h : History book orders fills) {f : Fill} (hf : f ∈ report.fills ++ fillsOf dropped) {id : String}
    (hnames : f.names id = true) : id ∈ orderIds book.liveOrders ∨ id = o.orderId := by
  obtain ⟨_, hown, hdropped⟩ := hx.sources h.inv (h.selfSources.mono (List.subset_append_left _ [o]))
    (List.mem_append_right _ (List.mem_singleton_self o))
  by_contra hnot
  rw [not_or] at hnot
  have hid : id ∉ orderIds (book.liveOrders ++ [o]) := by
    rw [orderIds_append, List.mem_append, not_or]
    exact ⟨hnot.1, fun hin => hnot.2 (List.mem_singleton.mp hin)⟩
  have hfalse : f.names id = false := by
    rcases List.mem_append.mp hf with hf | hf
    · exact (hown f hf).not_named hid
    · exact (hdropped f hf).not_named hid
  rw [hfalse] at hnames
  cases hnames

/-- A cancellation leaves live what was live. -/
theorem Cancelled.live {orderId userId : String} {done : Bool}
    (hc : Cancelled book orderId userId done book') {o : Order} (ho : o ∈ book'.liveOrders) :
    o ∈ book.liveOrders := by
  have hqueued : AllQueued (· ∈ book.liveOrders) book :=
    fun side price l hl o ho => mem_liveOrders.mpr (Or.inl ⟨side, price, l, hl, ho⟩)
  rcases mem_liveOrders.mp ho with ⟨side, price, l, hl, ho⟩ | ho
  · exact hqueued.cancelled hc side price l hl o ho
  · exact mem_liveOrders.mpr (Or.inr (hc.stopOrders_subset ho))

/-- **An order that is cancelled** was live, and is no longer. -/
theorem Cancelled.dead {orderId userId : String} (hinv : Inv book) (hinv' : Inv book')
    (hc : Cancelled book orderId userId true book') :
    orderId ∈ orderIds book.liveOrders ∧ orderId ∉ orderIds book'.liveOrders := by
  obtain ⟨order, horder, rfl, huser⟩ :
      ∃ order ∈ book.liveOrders, order.orderId = orderId ∧ order.userId = userId := by
    cases hc with
    | queued side price level pre order post hl hsplit hid huser =>
        refine ⟨order, mem_liveOrders.mpr (Or.inl ⟨side, price, level, hl, ?_⟩), hid, huser⟩
        rw [hsplit]
        exact List.mem_append_right _ List.mem_cons_self
    | pending pre order post hsplit hid huser =>
        refine ⟨order, mem_liveOrders.mpr (Or.inr ?_), hid, huser⟩
        rw [hsplit]
        exact List.mem_append_right _ List.mem_cons_self
  refine ⟨mem_orderIds horder, fun hin => ?_⟩
  obtain ⟨o, ho, hid⟩ := List.mem_map.mp hin
  have hsame : o = order := List.inj_on_of_nodup_map hinv.represents.ids (hc.live ho) horder hid
  have hgone := hc.gone hinv hinv'
  rcases mem_liveOrders.mp ho with ⟨side, price, l, hl, ho⟩ | ho
  · exact hgone.queued side price l hl o ho ⟨hid, hsame ▸ huser⟩
  · exact hgone.pending o ho ⟨hid, hsame ▸ huser⟩

end Live

/-! ### Whole runs -/

section Runs

variable {book : OrderBook} {orders : List Order} {fills : List Fill}

theorem History.pos (h : History book orders fills) : ∀ f ∈ fills, 0 < f.quantity := by
  obtain ⟨ops, replies, hrun, _, rfl⟩ := h.run
  exact fills_pos hrun

/-- A fill names orders that were submitted. -/
theorem History.submitted (h : History book orders fills) {f : Fill} (hf : f ∈ fills) {id : String}
    (hnames : f.names id = true) : id ∈ orderIds orders := by
  obtain ⟨ops, replies, hrun, rfl, rfl⟩ := h.run
  obtain ⟨_, _, _, hown, htriggered⟩ := bookRun_origins hrun
  by_contra hid
  have hfalse : f.names id = false := by
    rcases mem_fills hf with hf | hf
    · exact (hown f hf).not_named hid
    · exact (htriggered f hf).not_named hid
  rw [hfalse] at hnames
  cases hnames

variable {o : Order} (hids : (orderIds orders).Nodup) (ho : o ∈ orders)
include hids ho

/-- **A fill that names an order** is between it and another one. -/
theorem History.matched (h : History book orders fills) {f : Fill} (hf : f ∈ fills)
    (hnames : f.names o.orderId = true) :
    ∃ maker taker, Matched maker taker f ∧ (maker = o ∨ taker = o ∧ maker.orderId ≠ o.orderId) := by
  obtain ⟨ops, replies, hrun, rfl, rfl⟩ := h.run
  exact fill_named hrun hids ho hf hnames

variable (hbuilt : ∀ o ∈ orders, o.Built)
include hbuilt

/-- **What is left of an order that rests** is what it has not filled. -/
theorem History.left (h : History book orders fills) {side : Side} {r : Order}
    (hr : r ∈ book.queuedOrders side) (hid : r.orderId = o.orderId) :
    filledOf fills o.orderId < o.originalQuantity := by
  obtain ⟨ops, replies, hrun, rfl, rfl⟩ := h.run
  obtain ⟨price, l, hl, hin⟩ := mem_queuedOrders.mp hr
  have hpositive := ((bookRun_origins hrun).1.level side price l hl).own r hin
  have hleft := run_filled_add_left hrun hbuilt hids ho hr hid
  linarith [hpositive.2.2]

/-- **An order fills no more than its quantity.** -/
theorem History.bounded (h : History book orders fills) (hquantity : 0 ≤ o.originalQuantity) :
    filledOf fills o.orderId ≤ o.originalQuantity := by
  obtain ⟨ops, replies, hrun, rfl, rfl⟩ := h.run
  exact run_filled_le hrun hbuilt hids ho hquantity

end Runs

end NexusTrade.MatchingEngine
