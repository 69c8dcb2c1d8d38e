import Mathlib.Tactic.Linarith
import NexusTrade.MatchingEngine.Runs

/-!
# Conservation of quantity

What an order has filled is written at six places of the source, with two formulas.  They all say the
same: the quantities of the fills that name the order, added up.

* **`filledOf`** adds up the fills of a history that name an identifier;
* **`Accounts`** is the invariant: queued orders have filled what they no longer have to fill, pending
  stop orders have filled nothing, and the status log records what was filled;
* **`Accounts.executed`** is the step lemma of the matching loop, **`Accounts.called`** the one of a call;
* **`run_conserves`** is the law over runs.
-/

namespace NexusTrade.MatchingEngine

/-! ### Fills of a history -/

/-- A fill names an order as maker or as taker. -/
def Fill.names (f : Fill) (id : String) : Bool := f.makerOrderId = id ∨ f.takerOrderId = id

/-- The quantities of the fills that name an order, added up. -/
def filledOf (fills : List Fill) (id : String) : Decimal :=
  ((fills.filter fun f => f.names id).map Fill.quantity).sum

@[simp] theorem filledOf_nil (id : String) : filledOf [] id = 0 := rfl

@[simp] theorem filledOf_append (fs gs : List Fill) (id : String) :
    filledOf (fs ++ gs) id = filledOf fs id + filledOf gs id := by
  simp [filledOf]

theorem filledOf_singleton (f : Fill) (id : String) :
    filledOf [f] id = if f.names id then f.quantity else 0 := by
  by_cases h : f.names id = true <;> simp [filledOf, h]

/-- The fills a reply carries. -/
def BookReply.fills : BookReply → List Fill
  | .submitted report => report.fills
  | .cancelled _ => []
  | .triggered reports => reports.flatMap ExecutionReport.fills

/-- The orders a sequence of calls submits. -/
def submittedOrders (ops : List BookOp) : List Order :=
  ops.filterMap fun
    | .submit _ order => some order
    | _ => none

/-! ### The invariant -/

/-- What the status log may say of an order. -/
def EntryAgrees (fills : List Fill) (original : String → Decimal) (id : String)
    (entry : OrderStatus × Decimal) : Prop :=
  entry.2 = filledOf fills id ∧ (entry.1 = .filled ↔ filledOf fills id = original id)

/-- **The accounts of a book**, given the fills so far and the original quantities. -/
structure Accounts (fills : List Fill) (original : String → Decimal) (book : OrderBook) : Prop where
  queued : ∀ side price l, book.level side price = some l → ∀ o ∈ l.orders,
    o.originalQuantity = original o.orderId ∧
      filledOf fills o.orderId + o.remainingQuantity = original o.orderId
  pending : ∀ o ∈ book.stopOrders, o.originalQuantity = original o.orderId ∧
    o.remainingQuantity = original o.orderId ∧ filledOf fills o.orderId = 0
  status : ∀ id entry, book.status.find id = some entry → EntryAgrees fills original id entry
  bounded : ∀ id, filledOf fills id = 0 ∨ 0 < original id ∧ filledOf fills id ≤ original id

theorem accounts_default (original : String → Decimal) :
    Accounts [] original OrderBook.default where
  queued := fun side price l h => by cases side <;> cases h
  pending := fun o ho => by cases ho
  status := fun id entry h => by cases h
  bounded := fun id => Or.inl rfl

/-- The accounts around the matching loop: the incoming order has a share in the fills too. -/
structure LoopAccounts (before : List Fill) (original : String → Decimal) (s : MatchState) :
    Prop where
  book : Accounts (before ++ s.fills) original s.book
  quantity : s.incoming.originalQuantity = original s.incoming.orderId
  incoming : filledOf (before ++ s.fills) s.incoming.orderId + s.incoming.remainingQuantity
    = original s.incoming.orderId
  positive : 0 < original s.incoming.orderId
  unlogged : s.book.status.find s.incoming.orderId = none

/-! ### A trade -/

section Trade

variable {s : MatchState} {price : Decimal} {level : PriceLevel} {resting : Order}
  {queue : List Order}

/-- Who a trade fills. -/
theorem filledOf_trade (s : MatchState) (price : Decimal) (level : PriceLevel) (resting : Order)
    (queue : List Order) (uuid : UuidSource) (before : List Fill) (id : String) :
    filledOf (before ++ (s.trade uuid price level resting queue).fills) id
      = filledOf (before ++ s.fills) id
        + if resting.orderId = id ∨ s.incoming.orderId = id
          then tradeQuantity s.incoming resting else 0 := by
  rw [MatchState.trade_fills, ← List.append_assoc, filledOf_append, filledOf_singleton]
  have hnames : (s.fill uuid price resting).names id
      = decide (resting.orderId = id ∨ s.incoming.orderId = id) := rfl
  rw [hnames]
  exact congrArg _ (if_congr decide_eq_true_iff rfl rfl)

/-- The maker is indexed, so it is not the incoming order. -/
theorem CanTrade.resting_ne (h : CanTrade s price level resting queue) (hs : LoopInv s) :
    resting.orderId ≠ s.incoming.orderId := by
  have hindex := (hs.book.index resting.orderId _ _).mpr
    ⟨level, h.atLevel, h.front_id⟩
  intro e
  rw [e, hs.unqueued] at hindex
  cases hindex

/-- A queued order is not the incoming one. -/
theorem LoopInv.queued_ne (hs : LoopInv s) {side : Side} {p : Decimal} {l : PriceLevel} {o : Order}
    (hl : s.book.level side p = some l) (ho : o ∈ l.orders) : o.orderId ≠ s.incoming.orderId := by
  have hindex := (hs.book.index o.orderId side p).mpr ⟨l, hl, mem_orderIds ho⟩
  intro e
  rw [e, hs.unqueued] at hindex
  cases hindex

/-- The orders a trade leaves queued: the maker with less, and the others as they were. -/
theorem CanTrade.queued_after (h : CanTrade s price level resting queue) (hs : LoopInv s)
    (uuid : UuidSource) {side : Side} {p : Decimal} {l : PriceLevel} {o : Order}
    (hl : (s.trade uuid price level resting queue).book.level side p = some l) (ho : o ∈ l.orders) :
    (o = resting.reduce (tradeQuantity s.incoming resting) ∧ o.remainingQuantity ≠ 0) ∨
      (o.orderId ≠ resting.orderId ∧ ∃ l', s.book.level side p = some l' ∧ o ∈ l'.orders) := by
  have hids := (hs.book.level _ _ _ h.atLevel).ids
  have hmem := h.front_id
  rw [s.level_trade uuid price level resting queue side p h.atLevel] at hl
  by_cases hsp : side = opposite s.incoming.side ∧ p = price
  · obtain ⟨rfl, rfl⟩ := hsp
    rw [if_pos ⟨rfl, rfl⟩] at hl
    split at hl
    · cases hl
    · cases hl
      rcases CanTrade.mem_tradedLevel ho with ho | ho
      · rw [h.front, orderIds_cons, List.nodup_cons] at hids
        refine Or.inr ⟨fun e => hids.1 (e ▸ mem_orderIds ho), level, h.atLevel, ?_⟩
        rw [h.front]
        exact List.mem_cons_of_mem _ ho
      · exact Or.inl ho
  · rw [if_neg hsp] at hl
    refine Or.inr ⟨fun e => hsp ?_, l, hl, ho⟩
    exact hs.book.level_unique h.atLevel hl hmem (e ▸ mem_orderIds ho)

/-- **A trade keeps the accounts.** -/
theorem LoopAccounts.trade {before : List Fill} {original : String → Decimal}
    (ha : LoopAccounts before original s) (hs : LoopInv s)
    (h : CanTrade s price level resting queue) (uuid : UuidSource) :
    LoopAccounts before original (s.trade uuid price level resting queue) := by
  have hne := h.resting_ne hs
  obtain ⟨horig, hrest⟩ := ha.book.queued _ _ _ h.atLevel resting h.front_mem
  have hrem : (resting.reduce (tradeQuantity s.incoming resting)).remainingQuantity
      = resting.remainingQuantity - tradeQuantity s.incoming resting := rfl
  have hmaker := filledOf_trade s price level resting queue uuid before resting.orderId
  rw [if_pos (Or.inl rfl)] at hmaker
  have hsame : ∀ id, id ≠ resting.orderId → id ≠ s.incoming.orderId →
      filledOf (before ++ (s.trade uuid price level resting queue).fills) id
        = filledOf (before ++ s.fills) id := by
    intro id h1 h2
    rw [filledOf_trade, if_neg (by rintro (e | e) <;> [exact h1 e.symm; exact h2 e.symm]), add_zero]
  refine ⟨⟨?_, ?_, ?_, ?_⟩, ha.quantity, ?_, ha.positive, ?_⟩
  · intro side p l hl o ho
    rcases h.queued_after hs uuid hl ho with ⟨rfl, _⟩ | ⟨hother, l', hl', ho'⟩
    · refine ⟨horig, ?_⟩
      show filledOf _ resting.orderId + (resting.remainingQuantity - _) = original resting.orderId
      linarith
    · rw [hsame o.orderId hother (hs.queued_ne hl' ho')]
      exact ha.book.queued side p l' hl' o ho'
  · intro o ho
    rw [MatchState.trade_stopOrders] at ho
    have hnot : o.orderId ≠ resting.orderId := fun e =>
      hs.book.queued_not_pending h.atLevel h.front_id
        (e ▸ mem_orderIds ho)
    have hnot' : o.orderId ≠ s.incoming.orderId := fun e => hs.unpending (e ▸ mem_orderIds ho)
    rw [hsame o.orderId hnot hnot']
    exact ha.book.pending o ho
  · intro id entry he
    rcases s.find_of_trade uuid price level resting queue he with ⟨rfl, rfl⟩ | ⟨hother, he⟩
    · rw [OrderBook.makerEntry, EntryAgrees]
      split
      · rename_i hzero
        rw [hrem] at hzero
        have hfull : filledOf (before ++ (s.trade uuid price level resting queue).fills)
            resting.orderId = original resting.orderId := by linarith
        exact ⟨by rw [hfull]; exact horig, iff_of_true rfl hfull⟩
      · rename_i hleft
        rw [hrem] at hleft
        refine ⟨?_, ?_⟩
        · show resting.originalQuantity - (resting.remainingQuantity - _) = _
          rw [horig]
          linarith
        · refine iff_of_false (by simp) fun hfull => hleft ?_
          linarith
    · have hnot : id ≠ s.incoming.orderId := by
        rintro rfl
        rw [ha.unlogged] at he
        cases he
      rw [EntryAgrees, hsame id hother hnot]
      exact ha.book.status id entry he
  · intro id
    by_cases h1 : id = resting.orderId
    · subst h1
      have hnonneg : 0 ≤ (resting.reduce (tradeQuantity s.incoming resting)).remainingQuantity :=
        CanTrade.reduced_nonneg
      have hpos := (h.restingInv hs.book).2.2
      rw [hrem] at hnonneg
      refine Or.inr ⟨?_, by linarith⟩
      rcases ha.book.bounded resting.orderId with hzero | hb
      · linarith
      · exact hb.1
    · by_cases h2 : id = s.incoming.orderId
      · subst h2
        refine Or.inr ⟨ha.positive, ?_⟩
        rw [filledOf_trade, if_pos (Or.inr rfl)]
        have hmin : tradeQuantity s.incoming resting ≤ s.incoming.remainingQuantity :=
          min_le_left _ _
        have := ha.incoming
        linarith
      · rw [hsame id h1 h2]
        exact ha.book.bounded id
  · show filledOf _ s.incoming.orderId
      + (s.incoming.remainingQuantity - tradeQuantity s.incoming resting)
        = original s.incoming.orderId
    rw [filledOf_trade, if_pos (Or.inr rfl)]
    have := ha.incoming
    linarith
  · refine Option.eq_none_iff_forall_ne_some.mpr fun e he => ?_
    rcases s.find_of_trade uuid price level resting queue he with ⟨hid, _⟩ | ⟨_, he⟩
    · exact hne hid.symm
    · rw [show (s.trade uuid price level resting queue).incoming.orderId = s.incoming.orderId
        from rfl, ha.unlogged] at he
      cases he

end Trade

/-- **The loop keeps the accounts.** -/
theorem LoopAccounts.trades {uuid : UuidSource} {before : List Fill} {original : String → Decimal}
    {s t : MatchState} (ha : LoopAccounts before original s) (hs : LoopInv s)
    (h : Trades uuid s t) : LoopAccounts before original t := by
  refine (trades_preserve (P := fun t => LoopInv t ∧ LoopAccounts before original t) ?_ h
    ⟨hs, ha⟩).2
  intro t u ht htu
  refine ⟨ht.1.step htu, ?_⟩
  obtain ⟨price, level, resting, queue, hc, rfl⟩ := htu
  exact ht.2.trade ht.1 hc uuid

/-- The loop fills no order that the book does not know. -/
theorem filledOf_trades_absent {uuid : UuidSource} {s t : MatchState} {id : String}
    (hs : LoopInv s) (hab : Absent s.book id) (hne : id ≠ s.incoming.orderId)
    (h : Trades uuid s t) : filledOf t.fills id = filledOf s.fills id := by
  refine (trades_preserve (P := fun t => LoopInv t ∧ Absent t.book id ∧
    t.incoming.orderId = s.incoming.orderId ∧ filledOf t.fills id = filledOf s.fills id) ?_ h
    ⟨hs, hab, rfl, rfl⟩).2.2.2
  intro t u ht htu
  obtain ⟨hinv, habsent, hid, hfills⟩ := ht
  refine ⟨hinv.step htu, habsent.step hinv.book htu, ?_, ?_⟩
  · obtain ⟨price, level, resting, queue, hc, rfl⟩ := htu
    exact hid
  · obtain ⟨price, level, resting, queue, hc, rfl⟩ := htu
    have hindex := (hinv.book.index resting.orderId _ _).mpr
      ⟨level, hc.atLevel, hc.front_id⟩
    have hmaker : resting.orderId ≠ id := by
      rintro rfl
      rw [habsent.index] at hindex
      cases hindex
    have hsplit := filledOf_trade t price level resting queue uuid [] id
    rw [List.nil_append, List.nil_append, if_neg (by
      rintro (e | e)
      · exact hmaker e
      · exact hne (by rw [← e, hid])), add_zero] at hsplit
    rw [hsplit, hfills]

/-! ### The end of the loop -/

/-- Logging what an order has filled keeps the accounts. -/
theorem Accounts.of_status {fills : List Fill} {original : String → Decimal} {b b' : OrderBook}
    (h : Accounts fills original b)
    (hlevels : ∀ side, b'.levels side = b.levels side) (hstops : b'.stopOrders = b.stopOrders)
    {id : String} {entry : OrderStatus × Decimal}
    (hstatus : ∀ id' entry', b'.status.find id' = some entry' →
      (id' = id ∧ entry' = entry) ∨ (id' ≠ id ∧ b.status.find id' = some entry'))
    (hentry : EntryAgrees fills original id entry) : Accounts fills original b' := by
  refine ⟨?_, ?_, ?_, h.bounded⟩
  · intro side p l hl
    rw [OrderBook.level_congr (hlevels side)] at hl
    exact h.queued side p l hl
  · rw [hstops]
    exact h.pending
  · intro id' entry' he
    rcases hstatus id' entry' he with ⟨rfl, rfl⟩ | ⟨_, he⟩
    · exact hentry
    · exact h.status id' entry' he

/-- Resting what the loop leaves of the incoming order keeps the accounts. -/
theorem LoopAccounts.restAt {before : List Fill} {original : String → Decimal} {s : MatchState}
    (ha : LoopAccounts before original s) (hleft : s.incoming.remainingQuantity ≠ 0)
    (price : Decimal) :
    Accounts (before ++ s.fills) original (s.book.restAt s.incoming price) := by
  have hentry : EntryAgrees (before ++ s.fills) original s.incoming.orderId
      (.new, s.incoming.originalQuantity - s.incoming.remainingQuantity) := by
    have := ha.incoming
    have := ha.quantity
    refine ⟨by show _ - _ = _; linarith, iff_of_false (by simp) fun hfull => hleft (by linarith)⟩
  refine ⟨?_, ?_, ?_, ha.book.bounded⟩
  · intro side p l hl o ho
    rw [OrderBook.level_restAt] at hl
    by_cases hsp : side = s.incoming.side ∧ p = price
    · rw [if_pos hsp] at hl
      cases hl
      rcases List.mem_append.mp ho with ho | ho
      · rw [OrderBook.levelOrEmpty] at ho
        cases hfind : s.book.level s.incoming.side price with
        | none => rw [hfind] at ho; cases ho
        | some l => rw [hfind] at ho; exact ha.book.queued _ _ l hfind o ho
      · rw [List.mem_singleton.mp ho]
        exact ⟨ha.quantity, ha.incoming⟩
    · rw [if_neg hsp] at hl
      exact ha.book.queued side p l hl o ho
  · intro o ho
    rw [OrderBook.restAt_stopOrders] at ho
    exact ha.book.pending o ho
  · intro id entry he
    rcases s.book.find_of_restAt he with ⟨rfl, rfl⟩ | ⟨_, he⟩
    · exact hentry
    · exact ha.book.status id entry he

/-- **Execution keeps the accounts.** -/
theorem Accounts.executed {uuid : UuidSource} {fills : List Fill} {original : String → Decimal}
    {book book' : OrderBook} {o : Order} {report : ExecutionReport}
    (h : Accounts fills original book) (hinv : Inv book) (ha : Admissible book o)
    (hquantity : o.originalQuantity = original o.orderId)
    (hremaining : o.remainingQuantity = original o.orderId)
    (hunfilled : filledOf fills o.orderId = 0) (hx : Executed uuid book o report book') :
    Accounts (fills ++ report.fills) original book' := by
  have hstart : LoopAccounts fills original (book.startMatch o) := by
    refine ⟨?_, hquantity, ?_, ?_, ha.fresh⟩
    · show Accounts (fills ++ []) original book.nextSequenced
      rw [List.append_nil]
      refine ⟨fun side p l hl => ?_, h.pending, h.status, h.bounded⟩
      rw [OrderBook.level_congr (book.levels_nextSequenced side)] at hl
      exact h.queued side p l hl
    · show filledOf (fills ++ []) o.orderId + o.remainingQuantity = original o.orderId
      rw [List.append_nil, hunfilled, hremaining, zero_add]
    · show 0 < original o.orderId
      rw [← hremaining]
      exact ha.positive
  have hloop : ∀ t, Trades uuid (book.startMatch o) t → LoopAccounts fills original t :=
    fun t ht => hstart.trades (LoopInv.start hinv ha) ht
  cases hx with
  | blocked t trades inv blocked =>
      obtain ⟨price, level, resting, queue, hb⟩ := blocked
      have hta := hloop t trades
      refine hta.book.of_status (fun side => t.book.levels_setStatus _ _ _ side) rfl
        (fun id' entry' he => OrderBook.find_of_setStatus _ he) ⟨?_, iff_of_false ?_ ?_⟩
      · have := hta.incoming
        have := hta.quantity
        show _ - _ = _
        linarith
      · show (if t.fills.isEmpty then OrderStatus.rejected else .partiallyFilled) ≠ .filled
        split <;> simp
      · intro hfull
        have := hta.incoming
        have := hb.positive
        linarith
  | finished t trades inv exhausted st settled hsettled =>
      have hta := hloop t trades
      have hin := hta.incoming
      have hq := hta.quantity
      have hamount : t.incoming.originalQuantity - t.incoming.remainingQuantity
          = filledOf (fills ++ t.fills) t.incoming.orderId := by linarith
      have hbook : Accounts (fills ++ t.fills) original settled ∧
          EntryAgrees (fills ++ t.fills) original t.incoming.orderId
            (st, t.incoming.originalQuantity - t.incoming.remainingQuantity) := by
        cases hsettled with
        | filled hdone => exact ⟨hta.book, hamount, iff_of_true rfl (by linarith)⟩
        | dropped hleft _ =>
            refine ⟨hta.book, hamount, iff_of_false ?_ fun hfull => hleft (by linarith)⟩
            show (if t.fills.isEmpty then OrderStatus.rejected else .partiallyFilled) ≠ .filled
            split <;> simp
        | expired hleft _ =>
            exact ⟨hta.book, hamount, iff_of_false (by simp) fun hfull => hleft (by linarith)⟩
        | rested hleft _ price _ =>
            refine ⟨hta.restAt hleft price, hamount, iff_of_false ?_ fun hfull => hleft (by linarith)⟩
            show (if t.fills.isEmpty then OrderStatus.new else .partiallyFilled) ≠ .filled
            split <;> simp
      exact hbook.1.of_status (fun side => settled.levels_close _ _ _ side)
        (settled.close_stopOrders _ _ _) (fun id' entry' he => settled.find_of_close he) hbook.2

/-- Execution fills no order the book does not know. -/
theorem Executed.filledOf_absent {uuid : UuidSource} {book book' : OrderBook} {o : Order}
    {report : ExecutionReport} (hx : Executed uuid book o report book') (hinv : Inv book)
    (ha : Admissible book o) {id : String} (hab : Absent book id) (hne : id ≠ o.orderId) :
    filledOf report.fills id = 0 := by
  have hstart := LoopInv.start hinv ha
  have habs : Absent (book.startMatch o).book id := ⟨hab.status, hab.index, hab.stops⟩
  cases hx with
  | blocked t trades _ _ => exact filledOf_trades_absent hstart habs hne trades
  | finished t trades _ _ _ _ _ => exact filledOf_trades_absent hstart habs hne trades

/-! ### One call -/

/-- Orders that have filled nothing yet. -/
def Unfilled (fills : List Fill) (original : String → Decimal) (orders : List Order) : Prop :=
  ∀ o ∈ orders, o.originalQuantity = original o.orderId ∧
    o.remainingQuantity = original o.orderId ∧ filledOf fills o.orderId = 0

/-- **Triggered orders keep the accounts.** -/
theorem Accounts.executedAll {uuid : UuidSource} {original : String → Decimal}
    {book book' : OrderBook} {orders : List Order} {reports : List ExecutionReport}
    (hx : ExecutedAll uuid book orders reports book') : ∀ {fills : List Fill},
    Accounts fills original book → (orderIds orders).Nodup → (∀ o ∈ orders, Ready book o) →
    Unfilled fills original orders →
    Accounts (fills ++ reports.flatMap ExecutionReport.fills) original book' := by
  induction hx with
  | nil _ _ =>
      intro fills h _ _ _
      rw [List.flatMap_nil, List.append_nil]
      exact h
  | @cons uuid book book' book'' o orders report reports inv ready _ head _ ih =>
      intro fills h hids hready hun
      obtain ⟨hnot, hnodup⟩ := List.nodup_cons.mp hids
      obtain ⟨hq, hr, hf⟩ := hun o List.mem_cons_self
      have hhead := h.executed inv ready.admissible hq hr hf head
      have hne : ∀ o' ∈ orders, o'.orderId ≠ o.orderId := fun o' ho' e => hnot (e ▸ mem_orderIds ho')
      rw [List.flatMap_cons, ← List.append_assoc]
      refine ih hhead hnodup ?_ ?_
      · intro o' ho'
        have hro := hready o' (List.mem_cons_of_mem _ ho')
        exact ⟨(head.frame inv ready.admissible).2 _ (hne o' ho') hro.absent, hro.kind, hro.positive,
          hro.priced⟩
      · intro o' ho'
        obtain ⟨hq', hr', hf'⟩ := hun o' (List.mem_cons_of_mem _ ho')
        refine ⟨hq', hr', ?_⟩
        have habs := (hready o' (List.mem_cons_of_mem _ ho')).absent
        rw [filledOf_append, hf',
          head.filledOf_absent inv ready.admissible habs (hne o' ho'), add_zero]

/-- **Triggered orders fill no order the book does not know.** -/
theorem ExecutedAll.filledOf_absent {uuid : UuidSource} {book book' : OrderBook}
    {orders : List Order} {reports : List ExecutionReport}
    (hx : ExecutedAll uuid book orders reports book') {id : String} (hab : Absent book id)
    (hid : id ∉ orderIds orders) : filledOf (reports.flatMap ExecutionReport.fills) id = 0 := by
  induction hx with
  | nil _ _ => rfl
  | cons inv ready _ head _ ih =>
      have hne := List.ne_of_not_mem_cons hid
      rw [List.flatMap_cons, filledOf_append, head.filledOf_absent inv ready.admissible hab hne,
        ih ((head.frame inv ready.admissible).2 _ hne hab) (List.not_mem_of_not_mem_cons hid),
        add_zero]

/-- Cancelling keeps the accounts. -/
theorem Accounts.cancelled {fills : List Fill} {original : String → Decimal} {book book' : OrderBook}
    {orderId userId : String} {done : Bool} (h : Accounts fills original book) (hinv : Inv book)
    (hc : Cancelled book orderId userId done book') : Accounts fills original book' := by
  cases hc with
  | missing _ _ => exact h
  | queued side price level pre order post hl hsplit hid huser =>
      have hmem : order ∈ level.orders := by
        rw [hsplit]
        simp
      obtain ⟨hq, hr⟩ := h.queued _ _ _ hl order hmem
      have hpos := ((hinv.level _ _ _ hl).own order hmem).2.2
      refine ⟨?_, ?_, ?_, h.bounded⟩
      · intro s p l hl' o ho
        rw [OrderBook.level_removeQueued hl] at hl'
        by_cases hsp : s = side ∧ p = price
        · rw [if_pos hsp] at hl'
          split at hl'
          · cases hl'
          · cases hl'
            exact h.queued _ _ _ hl o (List.mem_of_mem_eraseIdx ho)
        · rw [if_neg hsp] at hl'
          exact h.queued s p l hl' o ho
      · rw [OrderBook.removeQueued_stopOrders hl]
        exact h.pending
      · intro id entry he
        rcases OrderBook.find_of_removeQueued hl he with ⟨rfl, rfl⟩ | ⟨_, he⟩
        · rw [← hid]
          refine ⟨by show _ - _ = _; linarith, iff_of_false (by simp) fun hfull => ?_⟩
          linarith
        · exact h.status id entry he
  | pending pre order post hsplit hid huser =>
      have hmem : order ∈ book.stopOrders := by
        rw [hsplit]
        simp
      obtain ⟨hq, hr, hf⟩ := h.pending order hmem
      have hpos := (hinv.pending order hmem).positive
      refine ⟨?_, ?_, ?_, h.bounded⟩
      · intro s p l hl
        have hlevels : (book.removePending pre.length order orderId).levels s = book.levels s := by
          simp [OrderBook.removePending]
        rw [OrderBook.level_congr hlevels] at hl
        exact h.queued s p l hl
      · intro o ho
        refine h.pending o (List.mem_of_mem_eraseIdx (i := pre.length) ?_)
        simpa [OrderBook.removePending] using ho
      · intro id entry he
        rcases OrderBook.find_of_removePending he with ⟨rfl, rfl⟩ | ⟨_, he⟩
        · rw [← hid]
          refine ⟨by show _ - _ = _; linarith, iff_of_false (by simp) fun hfull => ?_⟩
          linarith
        · exact h.status id entry he

/-- **A call keeps the accounts.**  A submitted order must be new and as `Order::new` builds it. -/
theorem Accounts.called {fills : List Fill} {original : String → Decimal} {book book' : OrderBook}
    {op : BookOp} {reply : BookReply} (h : Accounts fills original book) (hinv : Inv book)
    (hop : ∀ uuid o, op = .submit uuid o → o.Built ∧ o.originalQuantity = original o.orderId ∧
      filledOf fills o.orderId = 0)
    (hc : Called book op reply book') : Accounts (fills ++ reply.fills) original book' := by
  cases hc with
  | @submitted uuid order report book' result =>
      obtain ⟨hbuilt, hq, hf⟩ := hop uuid order rfl
      show Accounts (fills ++ report.fills) original book'
      cases result with
      | refused reason why =>
          show Accounts (fills ++ []) original book
          rw [List.append_nil]
          exact h
      | held admissible hkind hstop =>
          show Accounts (fills ++ []) original (book.holdStop order).2
          rw [List.append_nil]
          have hr : order.remainingQuantity = original order.orderId := by
            rw [hbuilt.unfilled, hq]
          refine ⟨?_, ?_, ?_, h.bounded⟩
          · intro side p l hl
            have hlevels : (book.holdStop order).2.levels side = book.levels side := by
              simp [OrderBook.holdStop]
            rw [OrderBook.level_congr hlevels] at hl
            exact h.queued side p l hl
          · intro o ho
            rcases List.mem_append.mp ho with ho | ho
            · exact h.pending o (by simpa using ho)
            · rw [List.mem_singleton.mp ho]
              exact ⟨hq, hr, hf⟩
          · intro id entry he
            rcases OrderBook.find_of_setStatus _ (OrderBook.find_of_pruneStatusLog _ he) with
              ⟨rfl, rfl⟩ | ⟨_, he⟩
            · refine ⟨hf.symm, iff_of_false (by simp) fun hfull => ?_⟩
              have := admissible.positive
              linarith
            · exact h.status id entry he
      | killed _ _ _ =>
          show Accounts (fills ++ []) original book
          rw [List.append_nil]
          exact h
      | executed admissible _ _ _ _ _ hx =>
          exact h.executed hinv admissible hq (by rw [hbuilt.unfilled, hq]) hf hx
  | cancelled hc =>
      show Accounts (fills ++ []) original book'
      rw [List.append_nil]
      exact h.cancelled hinv hc
  | @triggered uuid lastPrice reports book' hx =>
      have hsub : ∀ o, o ∈ book.stopOrders.filter (triggered lastPrice) → o ∈ book.stopOrders :=
        fun o ho => (List.mem_filter.mp ho).1
      have hdrained : Accounts fills original (book.drained lastPrice) := by
        refine ⟨?_, ?_, ?_, h.bounded⟩
        · intro side p l hl
          rw [OrderBook.level_drained] at hl
          exact h.queued side p l hl
        · exact fun o ho => h.pending o (List.mem_filter.mp ho).1
        · intro id entry he
          have he : (forgetAll _ _).find id = some entry := he
          rw [find_forgetAll] at he
          split at he
          · cases he
          · exact h.status id entry he
      refine Accounts.executedAll hx hdrained ?_ (hinv.ready lastPrice) ?_
      · rw [orderIds_setOff]
        exact hinv.pendingIds.sublist (List.filter_sublist.map _)
      · intro o ho
        obtain ⟨o', ho', rfl⟩ := List.mem_map.mp ho
        exact h.pending o' (hsub o' ho')

/-- What a call fills of an order that the book does not know. -/
theorem Called.filledOf_absent {book book' : OrderBook} {op : BookOp} {reply : BookReply}
    (hc : Called book op reply book') (hinv : Inv book) {id : String} (hab : Absent book id)
    (hop : ∀ uuid o, op = .submit uuid o → id ≠ o.orderId) : filledOf reply.fills id = 0 := by
  cases hc with
  | @submitted uuid order report book' result =>
      cases result with
      | refused _ _ => rfl
      | held _ _ _ => rfl
      | killed _ _ _ => rfl
      | executed admissible _ _ _ _ _ hx =>
          exact hx.filledOf_absent hinv admissible hab (hop uuid order rfl)
  | cancelled _ => rfl
  | @triggered uuid lastPrice reports book' hx =>
      refine hx.filledOf_absent ⟨?_, hab.index, ?_⟩ ?_
      · show (forgetAll _ _).find id = none
        rw [find_forgetAll, hab.status, ite_self]
      · exact fun hin => hab.stops ((List.filter_sublist.map _).subset hin)
      · rw [orderIds_setOff]
        exact fun hin => hab.stops ((List.filter_sublist.map _).subset hin)

/-- **A call leaves unknown identifiers unknown.** -/
theorem Called.absent {book book' : OrderBook} {op : BookOp} {reply : BookReply}
    (hc : Called book op reply book') (hinv : Inv book) {id : String} (hab : Absent book id)
    (hop : ∀ uuid o, op = .submit uuid o → id ≠ o.orderId) : Absent book' id := by
  cases hc with
  | submitted result => exact result.absent hinv (hop _ _ rfl) hab
  | cancelled result => exact result.absent hinv hab
  | triggered result => exact result.absent_of_drained hab

/-! ### Runs -/

theorem submittedOrders_append (ops ops' : List BookOp) :
    submittedOrders (ops ++ ops') = submittedOrders ops ++ submittedOrders ops' :=
  List.filterMap_append

/-- An identifier that a run has not submitted is unknown to its book. -/
theorem bookRun_absent {ops : List BookOp} {replies : List BookReply} {book : OrderBook}
    (hrun : bookRun ops = .ok (replies, book)) {id : String} (hnew : id ∉ orderIds (submittedOrders ops)) :
    Absent book id := by
  refine (bookRun_history (P := fun ops _ book => id ∉ orderIds (submittedOrders ops) → Absent book id) ?_ ?_
    hrun).2 hnew
  · exact fun _ => ⟨rfl, rfl, by simp [orderIds, OrderBook.default]⟩
  · intro ops replies book op reply book' hinv hbefore hc hnew
    rw [submittedOrders_append, orderIds_append, List.mem_append, not_or] at hnew
    refine hc.absent hinv (hbefore hnew.1) ?_
    rintro uuid o rfl hid
    exact hnew.2 (by simp [submittedOrders, orderIds, hid])

/-- **The accounts of a run** of distinct orders, and the identifiers that were never submitted. -/
theorem bookRun_accounts {ops : List BookOp} {replies : List BookReply} {book : OrderBook}
    (hrun : bookRun ops = .ok (replies, book)) (hbuilt : ∀ o ∈ submittedOrders ops, o.Built)
    (hids : (orderIds (submittedOrders ops)).Nodup) (original : String → Decimal)
    (horiginal : ∀ o ∈ submittedOrders ops, o.originalQuantity = original o.orderId) :
    Inv book ∧ Accounts (replies.flatMap BookReply.fills) original book ∧
      ∀ id, id ∉ orderIds (submittedOrders ops) →
        Absent book id ∧ filledOf (replies.flatMap BookReply.fills) id = 0 := by
  have h := bookRun_history (P := fun ops replies book =>
    (∀ o ∈ submittedOrders ops, o.Built) → (orderIds (submittedOrders ops)).Nodup →
    (∀ o ∈ submittedOrders ops, o.originalQuantity = original o.orderId) →
    Accounts (replies.flatMap BookReply.fills) original book ∧
      ∀ id, id ∉ orderIds (submittedOrders ops) →
        Absent book id ∧ filledOf (replies.flatMap BookReply.fills) id = 0) ?_ ?_ hrun
  · obtain ⟨hinv, hp⟩ := h
    exact ⟨hinv, hp hbuilt hids horiginal⟩
  · intro _ _ _
    exact ⟨accounts_default original, fun id _ => ⟨⟨rfl, rfl, by simp [orderIds, OrderBook.default]⟩, rfl⟩⟩
  · intro ops replies book op reply book' hinv hP hc hbuilt hids horiginal
    rw [submittedOrders_append] at hbuilt hids horiginal ⊢
    rw [orderIds_append, List.nodup_append] at hids
    obtain ⟨hpre, _, hdisjoint⟩ := hids
    obtain ⟨hacc, hunknown⟩ := hP (fun o ho => hbuilt o (List.mem_append_left _ ho)) hpre
      (fun o ho => horiginal o (List.mem_append_left _ ho))
    have hnew : ∀ uuid o, op = .submit uuid o → o ∈ submittedOrders [op] := by
      rintro uuid o rfl
      exact List.mem_singleton_self o
    rw [List.flatMap_append, List.flatMap_singleton]
    constructor
    · refine hacc.called hinv ?_ hc
      intro uuid o ho
      have hmem := hnew uuid o ho
      refine ⟨hbuilt o (List.mem_append_right _ hmem), horiginal o (List.mem_append_right _ hmem), ?_⟩
      exact (hunknown o.orderId fun hin =>
        hdisjoint _ hin _ (mem_orderIds hmem) rfl).2
    · intro id hid
      rw [orderIds_append, List.mem_append, not_or] at hid
      obtain ⟨habs, hzero⟩ := hunknown id hid.1
      have hne : ∀ uuid o, op = .submit uuid o → id ≠ o.orderId := by
        rintro uuid o ho rfl
        exact hid.2 (mem_orderIds (hnew uuid o ho))
      refine ⟨hc.absent hinv habs hne, ?_⟩
      rw [filledOf_append, hzero, hc.filledOf_absent hinv habs hne, add_zero]

/-- The original quantity with which an identifier is submitted. -/
def originalOf (orders : List Order) (id : String) : Decimal :=
  ((orders.find? fun o => o.orderId = id).map Order.originalQuantity).getD 0

theorem originalOf_eq {orders : List Order} (hids : (orderIds orders).Nodup) {o : Order}
    (ho : o ∈ orders) : originalOf orders o.orderId = o.originalQuantity := by
  cases hfind : orders.find? (fun o' => decide (o'.orderId = o.orderId)) with
  | none =>
      have hnot := List.find?_eq_none.mp hfind o ho
      simp at hnot
  | some o' =>
      have hid := List.find?_some hfind
      rw [decide_eq_true_eq] at hid
      have heq : o' = o := List.inj_on_of_nodup_map hids (List.mem_of_find?_eq_some hfind) ho hid
      rw [originalOf, hfind, heq]
      rfl

section Submitted

variable {ops : List BookOp} {replies : List BookReply} {book : OrderBook}
  (hrun : bookRun ops = .ok (replies, book)) (hbuilt : ∀ o ∈ submittedOrders ops, o.Built)
  (hids : ((submittedOrders ops).map Order.orderId).Nodup)

include hrun hbuilt hids

/-- The accounts of a run, by the original quantities of its orders. -/
theorem run_accounts : Inv book ∧ Accounts (replies.flatMap BookReply.fills) (originalOf (submittedOrders ops)) book ∧
    ∀ id, id ∉ orderIds (submittedOrders ops) →
      Absent book id ∧ filledOf (replies.flatMap BookReply.fills) id = 0 :=
  bookRun_accounts hrun hbuilt hids _ fun _ ho => (originalOf_eq hids ho).symm

variable {o : Order} (ho : o ∈ submittedOrders ops)

include ho

/-- **An order fills nothing, or has a positive quantity and fills no more.** -/
theorem run_bounded : filledOf (replies.flatMap BookReply.fills) o.orderId = 0 ∨
    0 < o.originalQuantity ∧ filledOf (replies.flatMap BookReply.fills) o.orderId ≤ o.originalQuantity := by
  have hbound := (run_accounts hrun hbuilt hids).2.1.bounded o.orderId
  rw [originalOf_eq hids ho] at hbound
  exact hbound

theorem run_filled_le (hquantity : 0 ≤ o.originalQuantity) :
    filledOf (replies.flatMap BookReply.fills) o.orderId ≤ o.originalQuantity := by
  rcases run_bounded hrun hbuilt hids ho with hzero | hle
  · rw [hzero]
    exact hquantity
  · exact hle.2

theorem run_filled_none (hquantity : o.originalQuantity ≤ 0) :
    filledOf (replies.flatMap BookReply.fills) o.orderId = 0 :=
  (run_bounded hrun hbuilt hids ho).resolve_right fun hpos => absurd hpos.1 (not_lt.mpr hquantity)

/-- **What rests** has filled what it no longer has to fill. -/
theorem run_filled_add_left {side : Side} {r : Order} (hr : r ∈ book.queuedOrders side) (hid : r.orderId = o.orderId) :
    filledOf (replies.flatMap BookReply.fills) o.orderId + r.remainingQuantity = o.originalQuantity := by
  obtain ⟨price, l, hl, hr⟩ := mem_queuedOrders.mp hr
  have hq := ((run_accounts hrun hbuilt hids).2.1.queued side price l hl r hr).2
  rw [hid, originalOf_eq hids ho] at hq
  exact hq

end Submitted

/-- **Quantity conservation per order.**  In every run of distinct orders as `Order::new` builds them,
an order never fills more than its quantity, nothing if that is not positive; what rests has filled
what it no longer has to fill; a pending stop order has filled nothing; and the status log records what
was filled, as filled exactly when that is everything. -/
theorem run_conserves {ops : List BookOp} {replies : List BookReply} {book : OrderBook}
    (hrun : bookRun ops = .ok (replies, book)) (hbuilt : ∀ o ∈ submittedOrders ops, o.Built)
    (hids : ((submittedOrders ops).map Order.orderId).Nodup) (id : String) :
    (∀ o ∈ submittedOrders ops, o.orderId = id →
      (0 ≤ o.originalQuantity →
        filledOf (replies.flatMap BookReply.fills) id ≤ o.originalQuantity) ∧
      (o.originalQuantity ≤ 0 → filledOf (replies.flatMap BookReply.fills) id = 0) ∧
      (∀ side, ∀ r ∈ book.queuedOrders side, r.orderId = id →
        filledOf (replies.flatMap BookReply.fills) id + r.remainingQuantity = o.originalQuantity) ∧
      (∀ r ∈ book.stopOrders, r.orderId = id →
        filledOf (replies.flatMap BookReply.fills) id = 0) ∧
      ∀ s q, book.orderStatus id = some (s, q) →
        q = filledOf (replies.flatMap BookReply.fills) id ∧
          (s = .filled ↔ filledOf (replies.flatMap BookReply.fills) id = o.originalQuantity)) ∧
    ((∀ o ∈ submittedOrders ops, o.orderId ≠ id) →
      filledOf (replies.flatMap BookReply.fills) id = 0 ∧ book.orderStatus id = none ∧
      (∀ side, ∀ r ∈ book.queuedOrders side, r.orderId ≠ id) ∧
      ∀ r ∈ book.stopOrders, r.orderId ≠ id) := by
  obtain ⟨hinv, hacc, hunknown⟩ := run_accounts hrun hbuilt hids
  constructor
  · rintro o ho rfl
    refine ⟨run_filled_le hrun hbuilt hids ho, run_filled_none hrun hbuilt hids ho,
      fun _ _ hr hid => run_filled_add_left hrun hbuilt hids ho hr hid, ?_, ?_⟩
    · intro r hr hid
      rw [← hid]
      exact (hacc.pending r hr).2.2
    · intro s q hs
      have hentry := hacc.status o.orderId (s, q) hs
      rw [EntryAgrees, originalOf_eq hids ho] at hentry
      exact hentry
  · intro hnot
    have hid : id ∉ orderIds (submittedOrders ops) := by
      intro hin
      obtain ⟨o, ho, rfl⟩ := List.mem_map.mp hin
      exact hnot o ho rfl
    obtain ⟨habs, hzero⟩ := hunknown id hid
    refine ⟨hzero, habs.status, ?_, ?_⟩
    · rintro side r hr rfl
      obtain ⟨price, _, _, hindex⟩ := hinv.index_of_queued hr
      rw [habs.index] at hindex
      cases hindex
    · rintro r hr rfl
      exact habs.stops (mem_orderIds hr)

/-- A sell order that rests and a buy order that takes half of it. -/
def halfTaken : List BookOp :=
  [.submit (fun _ => "trade") (Order.limit "maker" "alice" .sell 1 2),
    .submit (fun _ => "trade") (Order.limit "taker" "bob" .buy 1 1)]

theorem run_conserves_halfTaken :
    ∃ replies book, bookRun halfTaken = .ok (replies, book) ∧
      filledOf (replies.flatMap BookReply.fills) "maker" ≤ 2 := by
  obtain ⟨replies, book, hrun, _⟩ := bookRun_spec halfTaken
  exact ⟨replies, book, hrun,
    ((run_conserves hrun (by decide +kernel) (by decide +kernel) "maker").1
      (Order.limit "maker" "alice" .sell 1 2) (by decide +kernel) rfl).1 (by decide +kernel)⟩

/-- The bound needs a quantity that is not negative: a refused order of quantity `-1` has filled more
than its quantity, namely nothing. -/
theorem refused_order_exceeds_quantity :
    ∃ o replies book, o.Built ∧ bookRun [.submit (fun _ => "trade") o] = .ok (replies, book) ∧
      ¬filledOf (replies.flatMap BookReply.fills) o.orderId ≤ o.originalQuantity :=
  ⟨Order.limit "order" "alice" .buy 1 (-1),
    [.submitted (OrderBook.rejected "order" "quantity must be positive")], OrderBook.default,
    ⟨rfl, rfl⟩, by decide +kernel, by decide +kernel⟩

end NexusTrade.MatchingEngine
