import NexusTrade.MatchingEngine.Origins
import NexusTrade.MatchingEngine.Reported

/-!
# What a submission leaves behind

Whether the engine has accepted an order is seen from its book: the order is queued or pending, or a fill
names it.

* **`Effect`** and **`submitted_effect`**: a submission leaves nothing behind, or the order is held, or it is
  accepted and has traded or is queued;
* **`submitted_idle`** and **`submitted_accepts`**: what follows from whether the order is accepted then.
-/

namespace NexusTrade.MatchingEngine

/-- The orders of a book: those that are queued and the pending stop orders. -/
def OrderBook.liveOrders (book : OrderBook) : List Order :=
  book.queuedOrders .buy ++ book.queuedOrders .sell ++ book.stopOrders

theorem mem_liveOrders {book : OrderBook} {o : Order} :
    o ∈ book.liveOrders ↔
      (∃ side price l, book.level side price = some l ∧ o ∈ l.orders) ∨ o ∈ book.stopOrders := by
  rw [OrderBook.liveOrders, List.mem_append, List.mem_append, mem_queuedOrders, mem_queuedOrders]
  constructor
  · rintro ((⟨price, l, h⟩ | ⟨price, l, h⟩) | h)
    · exact Or.inl ⟨.buy, price, l, h⟩
    · exact Or.inl ⟨.sell, price, l, h⟩
    · exact Or.inr h
  · rintro (⟨side, price, l, h⟩ | h)
    · cases side with
      | buy => exact Or.inl (Or.inl ⟨price, l, h⟩)
      | sell => exact Or.inl (Or.inr ⟨price, l, h⟩)
    · exact Or.inr h

/-- Books with the same levels and the same stop orders hold the same orders. -/
theorem mem_liveOrders_congr {book book' : OrderBook} (hlevels : ∀ side, book'.levels side = book.levels side)
    (hstops : book'.stopOrders = book.stopOrders) {o : Order} :
    o ∈ book'.liveOrders ↔ o ∈ book.liveOrders := by
  rw [mem_liveOrders, mem_liveOrders, hstops]
  simp only [OrderBook.level_congr (hlevels _)]

/-- **What a submission leaves behind.** -/
inductive Effect (book : OrderBook) (o : Order) (report : ExecutionReport) (book' : OrderBook) : Prop
  | idle (fills : report.fills = []) (levels : ∀ side, book'.levels side = book.levels side)
      (stops : book'.stopOrders = book.stopOrders)
  | held (kind : o.kind.isStop = true) (pending : o.orderId ∈ orderIds book'.liveOrders)
  | taken (accepted : report.accepted = true)
      (status : report.status ∈ [OrderStatus.new, .partiallyFilled, .filled, .expired])
      (trace : report.fills ≠ [] ∨ o.orderId ∈ orderIds book'.liveOrders)

/-- Trades without a fill are none. -/
theorem trades_nothing {uuid : UuidSource} {s t : MatchState} (h : Trades uuid s t)
    (hfills : t.fills = []) : t = s := by
  cases h with
  | refl => rfl
  | tail _ hst =>
      obtain ⟨price, level, resting, queue, _, rfl⟩ := hst
      rw [MatchState.trade_fills, List.append_eq_nil_iff] at hfills
      cases hfills.2

/-- An order that rests is queued. -/
theorem rested_live (book : OrderBook) (o : Order) (price : Decimal) (st : OrderStatus) (q : Decimal) :
    o ∈ ((book.restAt o price).close o.orderId st q).liveOrders := by
  rw [mem_liveOrders_congr (fun side => OrderBook.levels_close _ _ _ _ side)
    (OrderBook.close_stopOrders _ _ _ _)]
  refine mem_liveOrders.mpr (Or.inl ⟨o.side, price, (book.levelOrEmpty o.side price).push o, ?_, ?_⟩)
  · rw [OrderBook.level_restAt, if_pos ⟨rfl, rfl⟩]
  · exact List.mem_append_right _ (List.mem_singleton_self o)

/-- A stop order that is held is pending. -/
theorem held_live (book : OrderBook) (o : Order) :
    o.orderId ∈ orderIds (book.holdStop o).2.liveOrders := by
  refine List.mem_map.mpr ⟨{ o with sequence := book.nextSequence + 1 }, ?_, rfl⟩
  exact mem_liveOrders.mpr (Or.inr (List.mem_append_right _ (List.mem_singleton_self _)))

theorem executed_effect {uuid : UuidSource} {book book' : OrderBook} {o : Order}
    {report : ExecutionReport} (h : Inv book) (ha : Admissible book o)
    (hx : Executed uuid book o report book') : Effect book o report book' := by
  have hstops := (hx.frame h ha).1
  cases hx with
  | blocked t trades _ _ =>
      cases hfills : t.fills with
      | nil =>
          refine .idle hfills (fun side => ?_) hstops
          rw [trades_nothing trades hfills]
          cases side <;> rfl
      | cons f fs =>
          refine .taken ?_ ?_ (Or.inl ?_)
          · show (!t.fills.isEmpty) = true
            rw [hfills]
            rfl
          · show (if t.fills.isEmpty then OrderStatus.rejected else .partiallyFilled) ∈ _
            rw [hfills]
            simp
          · show t.fills ≠ []
            rw [hfills]
            exact List.cons_ne_nil _ _
  | finished t trades _ _ st settled hsettled =>
      -- where nothing rests, the book is the one that the trades have left
      have hdone : settled = t.book →
          (t.fills ≠ [] → st ∈ [OrderStatus.new, .partiallyFilled, .filled, .expired]) →
          Effect book o (OrderBook.finishReport t st) (settled.close t.incoming.orderId st
            (t.incoming.originalQuantity - t.incoming.remainingQuantity)) := by
        intro hsame hstatus
        cases hfills : t.fills with
        | nil =>
            refine .idle hfills (fun side => ?_) hstops
            rw [OrderBook.levels_close, hsame, trades_nothing trades hfills]
            cases side <;> rfl
        | cons f fs =>
            have hsome : t.fills ≠ [] := by
              rw [hfills]
              exact List.cons_ne_nil _ _
            exact .taken rfl (hstatus hsome) (Or.inl hsome)
      cases hsettled with
      | filled _ => exact hdone rfl fun _ => by simp
      | dropped _ _ =>
          refine hdone rfl fun hsome => ?_
          rw [if_neg (by rw [List.isEmpty_iff]; exact hsome)]
          simp
      | expired _ _ => exact hdone rfl fun _ => by simp
      | rested _ _ price hprice =>
          refine .taken rfl ?_ (Or.inr ?_)
          · show (if t.fills.isEmpty then OrderStatus.new else .partiallyFilled) ∈ _
            split <;> simp
          · rw [← trades_orderId trades]
            exact List.mem_map_of_mem (rested_live t.book t.incoming price _ _)

/-- **What a submission leaves behind.** -/
theorem submitted_effect {uuid : UuidSource} {book book' : OrderBook} {o : Order}
    {report : ExecutionReport} (h : Inv book) (hx : Submitted uuid book o report book') :
    Effect book o report book' := by
  cases hx with
  | refused _ _ => exact .idle rfl (fun _ => rfl) rfl
  | held _ hkind _ => exact .held hkind (held_live book o)
  | killed _ _ _ => exact .idle rfl (fun _ => rfl) rfl
  | executed ha _ _ _ _ _ result => exact executed_effect h ha result

/-- The taker of every fill of a report is the order that was submitted. -/
theorem submitted_taker {uuid : UuidSource} {book book' : OrderBook} {o : Order}
    {report : ExecutionReport} (h : Inv book) (hx : Submitted uuid book o report book') {f : Fill}
    (hf : f ∈ report.fills) : f.takerOrderId = o.orderId := by
  have hcalled : Called book (.submit uuid o) (.submitted report) book' := .submitted hx
  obtain ⟨_, o', hop, htaker⟩ := hcalled.ownFills_taker h hf
  cases hop
  exact htaker

/-- The last of some new fills is in the audit log. -/
theorem AuditGrowth.last_mem {log new log' : List Fill} (h : AuditGrowth log new log') (hnew : new ≠ []) :
    ∃ f ∈ new, f ∈ log' := by
  obtain ⟨⟨lost, hlost⟩, hlength⟩ := h
  have hroom : 0 < maxAuditLogFills := by decide
  have hpositive : 0 < new.length := List.length_pos_iff.mpr hnew
  have hne : log' ≠ [] := by
    rintro rfl
    rw [List.length_append, List.length_nil] at hlength
    omega
  refine ⟨new.getLast hnew, List.getLast_mem hnew, ?_⟩
  have hlast : log'.getLast hne = new.getLast hnew := by
    rw [← List.getLast_append_of_ne_nil (List.append_ne_nil_of_right_ne_nil lost hne) hne]
    simp only [hlost, List.getLast_append_of_ne_nil _ hnew]
  rw [← hlast]
  exact List.getLast_mem hne

/-- Whether the engine has accepted an order: it is queued or pending, or a fill names it. -/
def OrderBook.Accepted (book : OrderBook) (id : String) : Prop :=
  id ∈ orderIds book.liveOrders ∨ ∃ f ∈ book.auditLog, f.takerOrderId = id ∨ f.makerOrderId = id

instance (book : OrderBook) (id : String) : Decidable (book.Accepted id) :=
  inferInstanceAs (Decidable (_ ∨ _))

/-- **A submission after which an order is not accepted leaves nothing behind.** -/
theorem submitted_idle {uuid : UuidSource} {book book' : OrderBook} {o : Order} {report : ExecutionReport}
    (h : Inv book) (hx : Submitted uuid book o report book') (hnot : ¬book'.Accepted o.orderId) :
    (∀ side, book'.levels side = book.levels side) ∧ book'.stopOrders = book.stopOrders := by
  cases submitted_effect h hx with
  | idle _ levels stops => exact ⟨levels, stops⟩
  | held _ pending => exact absurd (Or.inl pending) hnot
  | taken _ _ trace =>
      refine absurd ?_ hnot
      rcases trace with hfills | hlive
      · obtain ⟨f, hf, hlog⟩ := hx.audit.last_mem hfills
        exact Or.inr ⟨f, hlog, Or.inl (submitted_taker h hx hf)⟩
      · exact Or.inl hlive

/-- **An order that a submission makes accepted** is held, or has been taken. -/
theorem submitted_accepts {uuid : UuidSource} {book book' : OrderBook} {o : Order}
    {report : ExecutionReport} (h : Inv book) (hx : Submitted uuid book o report book')
    (hnot : ¬book.Accepted o.orderId) (hnow : book'.Accepted o.orderId) :
    (o.kind.isStop = true ∧ o.orderId ∈ orderIds book'.liveOrders) ∨ (report.accepted = true ∧
      report.status ∈ [OrderStatus.new, .partiallyFilled, .filled, .expired]) := by
  cases submitted_effect h hx with
  | idle fills levels stops =>
      refine absurd ?_ hnot
      rcases hnow with hlive | ⟨f, hf, hnames⟩
      · obtain ⟨o', ho', hid⟩ := List.mem_map.mp hlive
        exact Or.inl (List.mem_map.mpr ⟨o', (mem_liveOrders_congr levels stops).mp ho', hid⟩)
      · have hlog := hx.audit.1.subset hf
        rw [fills, List.append_nil] at hlog
        exact Or.inr ⟨f, hlog, hnames⟩
  | held kind pending => exact Or.inl ⟨kind, pending⟩
  | taken accepted status _ => exact Or.inr ⟨accepted, status⟩

end NexusTrade.MatchingEngine
