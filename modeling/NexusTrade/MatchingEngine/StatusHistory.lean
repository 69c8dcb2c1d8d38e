import NexusTrade.MatchingEngine.Legality
import NexusTrade.MatchingEngine.StatusQuery

/-!
# How the status of an order moves

* **`Moves`** is what trading does to a status entry: it keeps it, forgets it when it is finished, or fills more of
  an open order;
* **`Entered`** is the invariant: the log knows what has been filled of every order that rests, and nothing has been
  filled of a stop order;
* **`Executed.moves`** and **`ExecutedAll.moves`** are the steps, **`Monotone`** is the law on one call and
  **`run_monotone`** the theorem on every book that a run reaches.
-/

namespace NexusTrade.MatchingEngine

/-! ### Moves of an entry -/

/-- **What trading does to a status entry.** -/
inductive Moves : OrderStatus × Decimal → Option (OrderStatus × Decimal) → Prop
  /-- the entry stays as it is -/
  | kept (e : OrderStatus × Decimal) : Moves e (some e)
  /-- a finished order is forgotten -/
  | pruned (e : OrderStatus × Decimal) (finished : e.1.isOpen = false) : Moves e none
  /-- an order that rests is filled further, and perhaps forgotten after that -/
  | filled (e : OrderStatus × Decimal) (x : Option (OrderStatus × Decimal))
      (rests : e.1 = .new ∨ e.1 = .partiallyFilled)
      (more : ∀ e', x = some e' → (e'.1 = .partiallyFilled ∨ e'.1 = .filled) ∧ e.2 ≤ e'.2) : Moves e x

section Moves

variable {e : OrderStatus × Decimal} {x y : Option (OrderStatus × Decimal)}

/-- **Moves compose.** -/
theorem Moves.trans (h : Moves e x) (hsome : ∀ e', x = some e' → Moves e' y) (hnone : x = none → y = none) :
    Moves e y := by
  cases h with
  | kept => exact hsome e rfl
  | pruned finished =>
      rw [hnone rfl]
      exact .pruned e finished
  | filled x rests more =>
      refine .filled e y rests fun e' he' => ?_
      cases x with
      | none =>
          rw [hnone rfl] at he'
          cases he'
      | some middle =>
          obtain ⟨hstatus, hle⟩ := more middle rfl
          have hnext := hsome middle rfl
          rw [he'] at hnext
          cases hnext with
          | kept => exact ⟨hstatus, hle⟩
          | filled x rests' more' =>
              obtain ⟨hstatus', hle'⟩ := more' e' rfl
              exact ⟨hstatus', hle.trans hle'⟩

/-- A move lowers no filled quantity. -/
theorem Moves.le (h : Moves e x) : ∀ e', x = some e' → e.2 ≤ e'.2 := by
  cases h with
  | kept =>
      intro e' he'
      rw [← Option.some.inj he']
  | pruned finished =>
      intro e' he'
      cases he'
  | filled x rests more => exact fun e' he' => (more e' he').2

/-- The log of an identifier that is only pruned. -/
theorem Logged.moves {n : ℕ} {b b' : OrderBook} {id : String} (h : Logged n b b' id)
    (he : b.status.find id = some e) : Moves e (b'.status.find id) := by
  rcases h.status with hsame | ⟨hnone, _, hforgot⟩
  · rw [hsame, he]
    exact .kept e
  · rw [hnone]
    exact .pruned e (not_retained (hforgot e he)).2

/-- An entry of another identifier, when one is entered. -/
theorem moves_stamp {b : OrderBook} {id own : String} (hne : id ≠ own) (he : b.status.find id = some e)
    (st : OrderStatus) (q : Decimal) : Moves e ((b.stamp own st q).status.find id) :=
  ((b.within_knownIds.mono (List.subset_cons_self own _)).stamp_other st q List.mem_cons_self hne).moves he

end Moves

/-! ### What the log knows of live orders -/

/-- An entry of the log says what has been filled of an order. -/
def OrderBook.Logs (book : OrderBook) (o : Order) : Prop :=
  ∀ e, book.status.find o.orderId = some e → e.2 = o.originalQuantity - o.remainingQuantity

/-- **What the log knows** of the orders of a book. -/
structure Entered (book : OrderBook) : Prop where
  labels : ∀ id, Labels True book id
  queued : AllQueued book.Logs book
  pending : ∀ o ∈ book.stopOrders, o.remainingQuantity = o.originalQuantity

/-- An identifier without an entry is unknown. -/
theorem Entered.absent {book : OrderBook} (h : Entered book) (hinv : Inv book) {id : String}
    (hnone : book.status.find id = none) : Absent book id := by
  have hindex := h.labels id
  rw [Labels, hnone] at hindex
  exact ⟨hnone, hindex, hinv.unpending hnone⟩

/-- An order that rests has an identifier of its own. -/
theorem Inv.queued_unique {book : OrderBook} (h : Inv book) {side side' : Side} {price price' : Decimal}
    {l l' : PriceLevel} {o o' : Order} (hl : book.level side price = some l) (ho : o ∈ l.orders)
    (hl' : book.level side' price' = some l') (ho' : o' ∈ l'.orders) (hid : o.orderId = o'.orderId) : o = o' := by
  obtain ⟨rfl, rfl⟩ := h.level_unique hl hl' (mem_orderIds ho) (hid ▸ mem_orderIds ho')
  obtain rfl : l = l' := Option.some.inj (hl.symm.trans hl')
  exact List.inj_on_of_nodup_map (h.level _ _ _ hl).ids ho ho' hid

/-- The entry of an order that rests. -/
theorem Entered.entry {book : OrderBook} (h : Entered book) (hinv : Inv book) {side : Side} {price : Decimal}
    {l : PriceLevel} {o : Order} (hl : book.level side price = some l) (ho : o ∈ l.orders)
    {e : OrderStatus × Decimal} (he : book.status.find o.orderId = some e) :
    (e.1 = .new ∨ e.1 = .partiallyFilled) ∧ e.2 = o.originalQuantity - o.remainingQuantity := by
  refine ⟨?_, h.queued side price l hl o ho e he⟩
  obtain ⟨q, hq | hq⟩ :=
    ((h.labels o.orderId).told hinv).rests ⟨side, o, mem_queuedOrders.mpr ⟨price, l, hl, ho⟩, rfl⟩
  · exact Or.inl (congrArg Prod.fst (Option.some.inj (he.symm.trans hq)))
  · exact Or.inr (congrArg Prod.fst (Option.some.inj (he.symm.trans hq)))

/-- What is tracked of a book of which nothing is known yet. -/
theorem Entered.tracked {book : OrderBook} (h : Entered book) (ids : List String) :
    Tracked (ids ++ book.knownIds) (fun _ => True) book book :=
  ⟨book.within_knownIds.mono (List.subset_append_right _ _), h.labels, fun _ e he => Or.inl ⟨e, he⟩⟩

/-! ### The matching loop -/

section Loop

variable {uuid : UuidSource} {s t : MatchState}

/-- **A trade moves every entry.** -/
theorem Entered.moves_trade (h : Entered s.book) (hs : LoopInv s) (hst : TradeStep uuid s t) {id : String}
    {e : OrderStatus × Decimal} (he : s.book.status.find id = some e) : Moves e (t.book.status.find id) := by
  obtain ⟨price, level, resting, queue, hc, rfl⟩ := hst
  by_cases hid : id = resting.orderId
  · subst hid
    obtain ⟨hrests, hquantity⟩ := h.entry hs.book hc.atLevel hc.front_mem he
    have hpos : 0 < tradeQuantity s.incoming resting := hc.quantity_pos hs.book
    refine .filled e _ hrests fun e' he' => ?_
    rcases s.find_of_trade uuid price level resting queue he' with ⟨_, rfl⟩ | ⟨hne, _⟩
    · rw [OrderBook.makerEntry]
      split
      · refine ⟨Or.inr rfl, ?_⟩
        show e.2 ≤ resting.originalQuantity
        have hmaker := ((hs.book.level _ _ _ hc.atLevel).own resting hc.front_mem).2.2
        linarith
      · refine ⟨Or.inl rfl, ?_⟩
        show e.2 ≤ resting.originalQuantity - (resting.remainingQuantity - tradeQuantity s.incoming resting)
        linarith
    · exact absurd rfl hne
  · by_cases hfilled : tradeQuantity s.incoming resting = resting.remainingQuantity
    · rw [trade_status_filled uuid s price level resting queue hfilled, SortedMap.find_insert, if_neg hid, he]
      exact .kept e
    · obtain ⟨entry, hstatus⟩ := trade_status_partly uuid s price level resting queue hfilled
      rw [hstatus]
      split
      · rw [SortedMap.find_filter, SortedMap.find_insert, if_neg hid, he, Option.filter_some]
        split
        · exact .kept e
        · rename_i hforgot
          exact .pruned e (not_retained (Bool.eq_false_iff.mpr hforgot)).2
      · rw [SortedMap.find_insert, if_neg hid, he]
        exact .kept e

/-- **A trade keeps what the log knows.** -/
theorem Entered.trade (h : Entered s.book) (hs : LoopInv s) (hst : TradeStep uuid s t) : Entered t.book := by
  have hlabels := ((h.tracked []).trade hs hst).labels
  obtain ⟨price, level, resting, queue, hc, rfl⟩ := hst
  refine ⟨hlabels, fun side p l hl o ho e he => ?_, fun o ho => ?_⟩
  · rcases hc.queued_after hs uuid hl ho with ⟨rfl, hleft⟩ | ⟨hne, l', hl', ho'⟩
    · rcases s.find_of_trade uuid price level resting queue he with ⟨_, rfl⟩ | ⟨hne, _⟩
      · rw [OrderBook.makerEntry, if_neg hleft]
      · exact absurd rfl hne
    · rcases s.find_of_trade uuid price level resting queue he with ⟨hid, _⟩ | ⟨_, he⟩
      · exact absurd hid hne
      · exact h.queued side p l' hl' o ho' e he
  · rw [MatchState.trade_stopOrders] at ho
    exact h.pending o ho

/-- **The loop** moves every entry, and keeps what the log knows. -/
theorem Entered.trades (h : Entered s.book) (hs : LoopInv s) (hst : Trades uuid s t) :
    Entered t.book ∧ ∀ id e, s.book.status.find id = some e → Moves e (t.book.status.find id) := by
  refine (trades_preserve (P := fun t => LoopInv t ∧ Entered t.book ∧
    ∀ id e, s.book.status.find id = some e → Moves e (t.book.status.find id)) ?_ hst
      ⟨hs, h, fun id e he => he ▸ .kept e⟩).2
  rintro t u ⟨ht, hentered, hmoves⟩ htu
  refine ⟨ht.step htu, hentered.trade ht htu, fun id e he => ?_⟩
  exact (hmoves id e he).trans (fun e' he' => hentered.moves_trade ht htu he')
    fun hnone => ((hentered.absent ht.book hnone).step ht.book htu).status

end Loop

/-! ### Execution -/

section Execution

variable {uuid : UuidSource} {book book' : OrderBook} {o : Order} {report : ExecutionReport}

/-- What the log knows of the orders that rest, where the entries of others are all that changed. -/
theorem AllQueued.logs (h : AllQueued book.Logs book) (hinv : Inv book) {own : String}
    (hown : book.orderIndex.find own = none)
    (hfind : ∀ id e, id ≠ own → book'.status.find id = some e → book.status.find id = some e) :
    AllQueued book'.Logs book := by
  intro side price l hl o ho e he
  refine h side price l hl o ho e (hfind _ e ?_ he)
  rintro rfl
  rw [(hinv.index o.orderId side price).mpr ⟨l, hl, mem_orderIds ho⟩] at hown
  cases hown

/-- Taking a sequence number changes nothing of what the log knows. -/
theorem Entered.startMatch (h : Entered book) (o : Order) : Entered (book.startMatch o).book :=
  ⟨fun id => (h.labels id).of_same rfl rfl rfl, h.queued.congr book.levels_nextSequenced, h.pending⟩

/-- **Execution keeps what the log knows.** -/
theorem Entered.executed (h : Entered book) (hinv : Inv book) (ha : Admissible book o)
    (hx : Executed uuid book o report book') : Entered book' := by
  have hlabels := ((h.tracked [o.orderId]).executed hinv ha (List.mem_append_left _ (List.mem_singleton_self _)) hx
    fun _ => trivial).1.labels
  have hstops := (hx.frame hinv ha).1
  refine ⟨hlabels, ?_, fun p hp => h.pending p (hstops ▸ hp)⟩
  have hstart := LoopInv.start hinv ha
  have hbook := h.startMatch o
  cases hx with
  | blocked t trades inv _ =>
      refine AllQueued.congr (?_ : AllQueued _ t.book) fun side => t.book.levels_setStatus _ _ _ side
      refine (hbook.trades hstart trades).1.queued.logs inv.book inv.unqueued fun id e hne he => ?_
      rw [OrderBook.selfTradeExit, OrderBook.find_setStatus, if_neg hne] at he
      exact he
  | finished t trades inv exhausted st settled hsettled =>
      have ht := (hbook.trades hstart trades).1.queued
      suffices hall : AllQueued (settled.close t.incoming.orderId st
          (t.incoming.originalQuantity - t.incoming.remainingQuantity)).Logs settled from
        hall.congr fun side => settled.levels_close _ _ _ side
      have hsame : ∀ id e, id ≠ t.incoming.orderId → (t.book.close t.incoming.orderId st
          (t.incoming.originalQuantity - t.incoming.remainingQuantity)).status.find id = some e →
            t.book.status.find id = some e := fun id e hne he =>
        ((OrderBook.find_of_close _ he).resolve_left fun hid => hne hid.1).2
      cases hsettled with
      | filled _ => exact ht.logs inv.book inv.unqueued hsame
      | dropped _ _ => exact ht.logs inv.book inv.unqueued hsame
      | expired _ _ => exact ht.logs inv.book inv.unqueued hsame
      | rested _ _ price _ =>
          refine (ht.logs inv.book inv.unqueued fun id e hne he => ?_).restAt ?_ price
          · obtain ⟨_, he⟩ := (OrderBook.find_of_close _ he).resolve_left fun hid => hne hid.1
            exact ((OrderBook.find_of_restAt _ he).resolve_left fun hid => hne hid.1).2
          · intro e he
            rcases OrderBook.find_of_close _ he with ⟨_, rfl⟩ | ⟨hne, _⟩
            · rfl
            · exact absurd rfl hne

/-- **Execution moves the entries of other orders.** -/
theorem Executed.moves (hx : Executed uuid book o report book') (h : Entered book) (hinv : Inv book)
    (ha : Admissible book o) {id : String} (hne : id ≠ o.orderId) {e : OrderStatus × Decimal}
    (he : book.status.find id = some e) : Moves e (book'.status.find id) := by
  have hstart := LoopInv.start hinv ha
  have hbook := h.startMatch o
  cases hx with
  | blocked t trades inv _ =>
      have hown := trades_orderId trades
      have hmoves := (hbook.trades hstart trades).2 id e he
      rwa [OrderBook.selfTradeExit, OrderBook.find_setStatus, if_neg (hown ▸ hne)]
  | finished t trades inv exhausted st settled hsettled =>
      have hown := trades_orderId trades
      obtain ⟨ht, hmoves⟩ := hbook.trades hstart trades
      have habsent : ∀ b, Absent b id → Absent (b.close t.incoming.orderId st
          (t.incoming.originalQuantity - t.incoming.remainingQuantity)) id := fun b hb => hb.close (hown ▸ hne) _ _
      have hclose : ∀ b : OrderBook, ∀ e', b.status.find id = some e' → Moves e' ((b.close t.incoming.orderId st
          (t.incoming.originalQuantity - t.incoming.remainingQuantity)).status.find id) := by
        intro b e' he'
        rw [OrderBook.close, OrderBook.pruneAuditLog_status]
        exact moves_stamp (hown ▸ hne) he' _ _
      refine (hmoves id e he).trans (fun e' he' => ?_) fun hnone => ?_
      · cases hsettled with
        | filled _ => exact hclose _ e' he'
        | dropped _ _ => exact hclose _ e' he'
        | expired _ _ => exact hclose _ e' he'
        | rested _ _ price _ =>
            -- resting enters a status too
            have hrest : Moves e' ((t.book.restAt t.incoming price).status.find id) := by
              rw [OrderBook.restAt]
              refine moves_stamp (hown ▸ hne) ?_ _ _
              rw [OrderBook.indexOrder_status, OrderBook.setLevels_status]
              exact he'
            refine hrest.trans (fun e'' he'' => hclose _ e'' he'') fun hnone => ?_
            cases hforgot : (OrderBook.close (t.book.restAt t.incoming price) t.incoming.orderId
                (if t.fills.isEmpty then .new else .partiallyFilled)
                (t.incoming.originalQuantity - t.incoming.remainingQuantity)).status.find id with
            | none => rfl
            | some e'' =>
                obtain ⟨_, hfound⟩ := (OrderBook.find_of_close _ hforgot).resolve_left fun hid => hne (hown ▸ hid.1)
                rw [hnone] at hfound
                cases hfound
      · have habsent' := (ht.absent inv.book hnone).settled (hown ▸ hne) hsettled
        exact (habsent _ habsent').status

/-- The entry of an order after its execution. -/
theorem Executed.entry_nonneg (hx : Executed uuid book o report book') (hinv : Inv book) (ha : Admissible book o)
    (hbuilt : o.remainingQuantity = o.originalQuantity) {e : OrderStatus × Decimal}
    (he : book'.status.find o.orderId = some e) : 0 ≤ e.2 := by
  have hleft : ∀ t, Trades uuid (book.startMatch o) t →
      0 ≤ t.incoming.originalQuantity - t.incoming.remainingQuantity := by
    intro t trades
    have hle : t.incoming.remainingQuantity ≤ o.remainingQuantity :=
      trades_preserve (P := fun t => LoopInv t ∧ t.incoming.remainingQuantity ≤ o.remainingQuantity)
        (fun s u hs hsu => ⟨hs.1.step hsu, by
          obtain ⟨price, level, resting, queue, hc, rfl⟩ := hsu
          have hpos := hc.quantity_pos hs.1.book
          show s.incoming.remainingQuantity - tradeQuantity s.incoming resting ≤ _
          linarith [hs.2]⟩) trades ⟨LoopInv.start hinv ha, le_refl _⟩ |>.2
    rw [trades_originalQuantity trades, ← hbuilt]
    exact sub_nonneg.mpr hle
  cases hx with
  | blocked t trades inv _ =>
      have hown := trades_orderId trades
      rw [OrderBook.selfTradeExit, OrderBook.find_setStatus, hown, if_pos rfl] at he
      rw [← Option.some.inj he]
      exact hleft t trades
  | finished t trades inv exhausted st settled hsettled =>
      have hown := trades_orderId trades
      rcases OrderBook.find_of_close _ he with ⟨_, rfl⟩ | ⟨hne, _⟩
      · exact hleft t trades
      · exact absurd hown.symm hne

end Execution

/-! ### The orders that a price sets off -/

section SetOff

variable {uuid : UuidSource} {book book' : OrderBook} {orders : List Order} {reports : List ExecutionReport}

theorem Entered.executedAll (hx : ExecutedAll uuid book orders reports book') (h : Entered book) : Entered book' := by
  induction hx with
  | nil uuid book => exact h
  | cons inv ready _ head _ ih => exact ih (h.executed inv ready.admissible head)

/-- **The orders that are set off** move the entries of the others. -/
theorem ExecutedAll.moves (hx : ExecutedAll uuid book orders reports book') (h : Entered book) {id : String}
    (hid : id ∉ orderIds orders) {e : OrderStatus × Decimal} (he : book.status.find id = some e) :
    Moves e (book'.status.find id) := by
  induction hx generalizing e with
  | nil uuid book => exact he ▸ .kept e
  | @cons uuid book middle book' o orders report reports inv ready returned head tail ih =>
      have hne := List.ne_of_not_mem_cons hid
      have hrest := List.not_mem_of_not_mem_cons hid
      have hmiddle := h.executed inv ready.admissible head
      have hinv := (submit_inv inv returned).1
      refine (head.moves h inv ready.admissible hne he).trans (fun e' he' => ih hmiddle hrest he') fun hnone => ?_
      exact (tail.frame.2 id hrest (hmiddle.absent hinv hnone)).status

/-- Nothing negative is logged of an order that is set off. -/
theorem ExecutedAll.entry_nonneg (hx : ExecutedAll uuid book orders reports book') (h : Entered book)
    (hids : (orderIds orders).Nodup) (hbuilt : ∀ o ∈ orders, o.remainingQuantity = o.originalQuantity) {id : String}
    (hid : id ∈ orderIds orders) {e : OrderStatus × Decimal} (he : book'.status.find id = some e) : 0 ≤ e.2 := by
  induction hx with
  | nil uuid book => cases hid
  | @cons uuid book middle book' o orders report reports inv ready returned head tail ih =>
      obtain ⟨hnot, hnodup⟩ := List.nodup_cons.mp hids
      have hmiddle := h.executed inv ready.admissible head
      have hinv := (submit_inv inv returned).1
      rcases List.mem_cons.mp hid with rfl | hrest
      · cases hfind : middle.status.find o.orderId with
        | none =>
            rw [(tail.frame.2 o.orderId hnot (hmiddle.absent hinv hfind)).status] at he
            cases he
        | some middleEntry =>
            have hfirst := head.entry_nonneg inv ready.admissible (hbuilt o List.mem_cons_self) hfind
            exact hfirst.trans ((tail.moves hmiddle hnot hfind).le e he)
      · exact ih hmiddle hnodup (fun o' ho' => hbuilt o' (List.mem_cons_of_mem _ ho')) hrest he

end SetOff

/-! ### One call -/

/-- **The status history of an identifier is monotone** in a call, from its entry before it. -/
structure Monotone (book : OrderBook) (op : BookOp) (reply : BookReply) (book' : OrderBook) (id : String)
    (e : OrderStatus × Decimal) : Prop where
  finished : e.1 = .filled ∨ e.1 = .cancelled ∨ e.1 = .expired ∨ e.1 = .rejected →
    book'.orderStatus id = some e ∨ book'.orderStatus id = none
  quantity : ∀ e', book'.orderStatus id = some e' → e.2 ≤ e'.2
  partly : e.1 = .partiallyFilled → ∀ e', book'.orderStatus id = some e' → e'.1 ≠ .new
  pending : e.1 = .pendingStop → ∃ o ∈ book.stopOrders, o.orderId = id ∧
    (book'.orderStatus id = some e ∨ SetOffBy o op ∨ (op = .cancel id o.userId ∧ reply = .cancelled true))
  pruned : book'.orderStatus id = none →
    maxOrderStatusEntries < book.status.size + (book.performed op).length

section Call

variable {book book' : OrderBook} {op : BookOp} {reply : BookReply}

theorem Entered.drained (h : Entered book) (hinv : Inv book) (lastPrice : Decimal) :
    Entered (book.drained lastPrice) := by
  refine ⟨((h.tracked []).drained hinv lastPrice).labels, ?_, fun o ho => h.pending o (List.mem_filter.mp ho).1⟩
  intro side price l hl o ho e he
  rw [OrderBook.level_drained] at hl
  refine h.queued side price l hl o ho e ?_
  have he : (forgetAll _ _).find o.orderId = some e := he
  rw [find_forgetAll] at he
  split at he
  · cases he
  · exact he

/-- The orders that a price sets off come with all of their quantity. -/
theorem Entered.setOff (h : Entered book) (lastPrice : Decimal) :
    ∀ o ∈ book.setOff lastPrice, o.remainingQuantity = o.originalQuantity := by
  intro o ho
  obtain ⟨o', ho', rfl⟩ := List.mem_map.mp ho
  exact h.pending o' (List.mem_filter.mp ho').1

/-- **Every call keeps what the log knows**, where stop orders come with all of their quantity. -/
theorem Entered.called (h : Entered book) (hinv : Inv book) (hc : Called book op reply book')
    (hop : ∀ uuid o, op = .submit uuid o → o.Built) : Entered book' := by
  have hlabels := (hc.tracked hinv (h.tracked (orderIds (book.performed op)))
    (fun o ho => List.mem_append_left _ (mem_orderIds ho)) fun _ _ _ _ _ _ => trivial).labels
  cases hc with
  | @submitted uuid o report book' result =>
      cases result with
      | refused _ _ => exact h
      | killed _ _ _ => exact h
      | executed ha _ _ _ _ _ hx => exact h.executed hinv ha hx
      | held ha hkind hstop =>
          refine ⟨hlabels, ?_, fun p hp => ?_⟩
          · refine AllQueued.congr (?_ : AllQueued _ book) fun side => by simp [OrderBook.holdStop]
            refine h.queued.logs hinv ha.unqueued fun id e hne he => ?_
            have he := OrderBook.find_of_pruneStatusLog _ he
            rw [OrderBook.find_setStatus, if_neg hne] at he
            exact he
          · rcases List.mem_append.mp hp with hp | hp
            · exact h.pending p (by simpa using hp)
            · rw [List.mem_singleton.mp hp]
              exact (hop uuid o rfl).unfilled
  | @cancelled orderId userId done book' result =>
      refine ⟨hlabels, AllQueued.cancelled ?_ result, fun p hp => h.pending p (result.stopOrders_subset hp)⟩
      intro side price l hl o ho e he
      cases result with
      | missing _ _ => exact h.queued side price l hl o ho e he
      | queued side' price' level pre order post hl' hsplit hid huser =>
          rcases OrderBook.find_of_removeQueued hl' he with ⟨hown, rfl⟩ | ⟨_, he⟩
          · -- the entry of the cancelled order says what has been filled of it
            have hmem : order ∈ level.orders := by rw [hsplit]; simp
            obtain rfl : o = order := hinv.queued_unique hl ho hl' hmem (hown.trans hid.symm)
            rfl
          · exact h.queued side price l hl o ho e he
      | pending pre order post hsplit hid huser =>
          rcases OrderBook.find_of_removePending he with ⟨hown, _⟩ | ⟨_, he⟩
          · have hmem : order ∈ book.stopOrders := by rw [hsplit]; simp
            have hindex := (hinv.index o.orderId side price).mpr ⟨l, hl, mem_orderIds ho⟩
            rw [hown, ← hid, (hinv.pending order hmem).unindexed] at hindex
            cases hindex
          · exact h.queued side price l hl o ho e he
  | triggered result => exact (h.drained hinv _).executedAll result

/-- What a move says of a finished entry. -/
theorem Moves.finished {e : OrderStatus × Decimal} {x : Option (OrderStatus × Decimal)} (h : Moves e x)
    (he : e.1.isOpen = false) : x = some e ∨ x = none := by
  cases h with
  | kept => exact Or.inl rfl
  | pruned _ => exact Or.inr rfl
  | filled x rests more => rcases rests with hst | hst <;> rw [hst] at he <;> cases he

/-- What a move says of a pending stop order. -/
theorem Moves.pending {e : OrderStatus × Decimal} {x : Option (OrderStatus × Decimal)} (h : Moves e x)
    (he : e.1 = .pendingStop) : x = some e := by
  cases h with
  | kept => rfl
  | pruned finished =>
      rw [he] at finished
      cases finished
  | filled x rests more => rcases rests with hst | hst <;> rw [he] at hst <;> cases hst

/-- The stop order of an entry that says so. -/
theorem Entered.stop (h : Entered book) {id : String} {e : OrderStatus × Decimal}
    (he : book.status.find id = some e) (hst : e.1 = .pendingStop) : ∃ o ∈ book.stopOrders, o.orderId = id := by
  have hlabel := h.labels id
  rw [Labels, he, Option.map_some, hst] at hlabel
  exact List.mem_map.mp hlabel

/-- **A move is monotone**, where the log has room. -/
theorem Moves.monotone (h : Entered book) {id : String} {e : OrderStatus × Decimal}
    (he : book.status.find id = some e) (hmoves : Moves e (book'.orderStatus id))
    (hpruned : book'.orderStatus id = none →
      maxOrderStatusEntries < book.status.size + (book.performed op).length) :
    Monotone book op reply book' id e := by
  refine ⟨fun hst => hmoves.finished ?_, hmoves.le, fun hst e' he' => ?_, fun hst => ?_, hpruned⟩
  · rcases hst with hst | hst | hst | hst <;> rw [hst] <;> rfl
  · rw [he'] at hmoves
    cases hmoves with
    | kept =>
        rw [hst]
        simp
    | filled x rests more =>
        rcases (more e' rfl).1 with hst' | hst' <;> rw [hst'] <;> simp
  · obtain ⟨o, ho, hid⟩ := h.stop he hst
    exact ⟨o, ho, hid, Or.inl (hmoves.pending hst)⟩

/-- A submission moves every entry. -/
theorem Submitted.moves {uuid : UuidSource} {o : Order} {report : ExecutionReport}
    (hx : Submitted uuid book o report book') (h : Entered book) (hinv : Inv book) {id : String}
    {e : OrderStatus × Decimal} (he : book.status.find id = some e) : Moves e (book'.status.find id) := by
  have hne : book.status.find o.orderId = none → id ≠ o.orderId := by
    rintro hfresh rfl
    rw [hfresh] at he
    cases he
  cases hx with
  | refused _ _ => exact he ▸ .kept e
  | killed _ _ _ => exact he ▸ .kept e
  | held ha _ _ =>
      rw [OrderBook.holdStop, OrderBook.setStopOrders_status]
      exact moves_stamp (b := book.nextSequenced) (hne ha.fresh) he _ _
  | executed ha _ _ _ _ _ hx => exact hx.moves h hinv ha (hne ha.fresh) he

/-- **Every call is monotone.** -/
theorem Called.monotone (hc : Called book op reply book') (h : Entered book) (hinv : Inv book) {id : String}
    {e : OrderStatus × Decimal} (he : book.status.find id = some e) : Monotone book op reply book' id e := by
  -- an entry is forgotten only when the log was full at some point of the call
  have hpruned : book'.orderStatus id = none →
      maxOrderStatusEntries < book.status.size + (book.performed op).length := by
    intro hnone
    have htracked : Tracked (orderIds (book.performed op) ++ book.status.keys) (fun _ => True) book book :=
      ⟨within_keys h.labels (List.subset_append_right _ _), h.labels, fun _ e he => Or.inl ⟨e, he⟩⟩
    rcases (hc.tracked hinv htracked (fun o ho => List.mem_append_left _ (mem_orderIds ho))
      fun _ _ _ _ _ _ => trivial).known id e he with ⟨e', he'⟩ | hfull
    · rw [OrderBook.orderStatus, he'] at hnone
      cases hnone
    · rw [List.length_append, orderIds, SortedMap.keys, List.length_map, List.length_map, add_comm] at hfull
      exact hfull
  cases hc with
  | submitted result => exact (result.moves h hinv he).monotone h he hpruned
  | @cancelled orderId userId done book' result =>
      cases result with
      | missing _ _ => exact Moves.monotone h he (show Moves e (book.status.find id) from he ▸ .kept e) hpruned
      | queued side price level pre order post hl hsplit hid huser =>
          have hmem : order ∈ level.orders := by rw [hsplit]; simp
          by_cases hown : id = orderId
          · -- the order rests, and its entry becomes what has been filled of it
            subst hown
            subst hid
            obtain ⟨hrests, hquantity⟩ := h.entry hinv hl hmem he
            have hfound : ∀ e', (book.removeQueued side price level pre.length order order.orderId).orderStatus
                order.orderId = some e' → e' = (.cancelled, order.originalQuantity - order.remainingQuantity) :=
              fun e' he' => ((OrderBook.find_of_removeQueued hl he').resolve_right fun hne => hne.1 rfl).2
            refine ⟨fun hst => ?_, fun e' he' => ?_, fun hst e' he' => ?_, fun hst => ?_, hpruned⟩
            · rcases hrests with hr | hr <;> rw [hr] at hst <;> simp at hst
            · rw [hfound e' he', hquantity]
            · rw [hfound e' he']
              simp
            · rcases hrests with hr | hr <;> rw [hr] at hst <;> cases hst
          · refine Moves.monotone h he ?_ hpruned
            rw [OrderBook.orderStatus, OrderBook.removeQueued_status hl]
            refine moves_stamp hown ?_ _ _
            rw [OrderBook.unindexOrder_status, OrderBook.setLevels_status]
            exact he
      | pending pre order post hsplit hid huser =>
          have hmem : order ∈ book.stopOrders := by rw [hsplit]; simp
          by_cases hown : id = orderId
          · subst hown
            subst hid
            obtain rfl : e = (.pendingStop, 0) := Option.some.inj (he.symm.trans (hinv.pending order hmem).status)
            have hfound : ∀ e', (book.removePending pre.length order order.orderId).orderStatus order.orderId
                = some e' → e' = (.cancelled, order.originalQuantity - order.remainingQuantity) :=
              fun e' he' => ((OrderBook.find_of_removePending he').resolve_right fun hne => hne.1 rfl).2
            refine ⟨by simp, fun e' he' => ?_, by simp, fun _ => ⟨order, hmem, rfl, Or.inr (Or.inr ⟨?_, rfl⟩)⟩, hpruned⟩
            · rw [hfound e' he', h.pending order hmem, sub_self]
            · rw [huser]
          · refine Moves.monotone h he ?_ hpruned
            exact moves_stamp (b := book.setStopOrders (book.stopOrders.eraseIdx pre.length)) hown he _ _
  | @triggered uuid lastPrice reports book' result =>
      have hdrained := h.drained hinv lastPrice
      by_cases hset : id ∈ orderIds (book.setOff lastPrice)
      · -- the entry of a stop order that is set off is made anew
        obtain ⟨o, ho, rfl⟩ := List.mem_map.mp hset
        obtain ⟨p, hp, rfl⟩ := List.mem_map.mp ho
        obtain ⟨hp, htriggered⟩ := List.mem_filter.mp hp
        obtain rfl : e = (.pendingStop, 0) := Option.some.inj (he.symm.trans (hinv.pending p hp).status)
        have hids : (orderIds (book.setOff lastPrice)).Nodup := by
          rw [orderIds_setOff]
          exact hinv.pendingIds.sublist (List.filter_sublist.map _)
        exact ⟨by simp, fun e' he' => result.entry_nonneg hdrained hids (h.setOff lastPrice) hset he', by simp,
          fun _ => ⟨p, hp, rfl, Or.inr (Or.inl (setOffBy_of_triggered htriggered))⟩, hpruned⟩
      · refine Moves.monotone h he (result.moves hdrained hset ?_) hpruned
        show (forgetAll _ _).find id = _
        rw [find_forgetAll, if_neg (by rwa [orderIds_setOff] at hset)]
        exact he

end Call

/-! ### Runs -/

/-- The log of every book that a run reaches, where orders are as `Order::new` builds them. -/
theorem bookRun_entered {ops : List BookOp} {replies : List BookReply} {book : OrderBook}
    (hrun : bookRun ops = .ok (replies, book)) (hbuilt : ∀ o ∈ submittedOrders ops, o.Built) :
    Inv book ∧ Entered book := by
  have hhistory := bookRun_history
    (P := fun ops _ book => (∀ o ∈ submittedOrders ops, o.Built) → Entered book) ?_ ?_ hrun
  · exact ⟨hhistory.1, hhistory.2 hbuilt⟩
  · intro _
    refine ⟨fun id => rfl, fun side price l hl => ?_, fun o ho => ?_⟩
    · cases side <;> cases hl
    · cases ho
  · intro ops replies book op reply book' hinv hP hc hsub
    rw [submittedOrders_append] at hsub
    refine (hP fun o ho => hsub o (List.mem_append_left _ ho)).called hinv hc ?_
    rintro uuid o rfl
    exact hsub o (List.mem_append_right _ (List.mem_singleton_self o))

/-- **The status history is monotone**: in every book that a run of orders as `Order::new` builds them reaches, any
call returns, and it moves every entry of the log as it should. -/
theorem run_monotone {ops : List BookOp} {replies : List BookReply} {book : OrderBook}
    (hrun : bookRun ops = .ok (replies, book)) (hbuilt : ∀ o ∈ submittedOrders ops, o.Built) (op : BookOp) :
    ∃ reply book', book.exec op = .ok (reply, book') ∧
      ∀ id e, book.orderStatus id = some e → Monotone book op reply book' id e := by
  obtain ⟨hinv, hentered⟩ := bookRun_entered hrun hbuilt
  obtain ⟨reply, book', hexec, _, hc⟩ := exec_spec hinv op
  exact ⟨reply, book', hexec, fun id e he => hc.monotone hentered hinv he⟩

/-- A stop order waits behind an offer. -/
def stopBehindOffer : List BookOp :=
  [.submit (fun _ => "trade-1") (Order.limit "ask-1" "u2" .sell 100 2),
    .submit (fun _ => "trade-2") (Order.new "stop-buy" "u1" .buy .stopMarket none (some 100) 1)]

theorem run_monotone_stop :
    ∃ replies book, bookRun stopBehindOffer = .ok (replies, book) ∧
      ∃ reply book', book.exec (.triggerStops (fun _ => "trade-3") 100) = .ok (reply, book') ∧
        Monotone book (.triggerStops (fun _ => "trade-3") 100) reply book' "stop-buy" (.pendingStop, 0) := by
  obtain ⟨replies, book, hrun, _⟩ := bookRun_spec stopBehindOffer
  have hstatus : (bookRun stopBehindOffer).map (fun r => r.2.orderStatus "stop-buy") = .ok (some (.pendingStop, 0)) := by
    decide +kernel
  rw [hrun] at hstatus
  obtain ⟨reply, book', hexec, hmonotone⟩ :=
    run_monotone hrun (by decide +kernel) (.triggerStops (fun _ => "trade-3") 100)
  exact ⟨replies, book, hrun, reply, book', hexec, hmonotone "stop-buy" _ (Except.ok.inj hstatus)⟩

end NexusTrade.MatchingEngine
