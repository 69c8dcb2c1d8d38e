import NexusTrade.MatchingEngine.Core

/-!
# The cascade of stop orders

The loop of `submit_order` that sets off stop orders ends, and every call on the engine returns.

* **`Executed.count`**: an order that goes through the matching loop makes at most one fill more than
  the queues lose orders, and none more if it comes to rest;
* **`cascade_spec`**: so the fuel of the loop, the prices to look at plus the queued orders plus twice
  the pending stop orders, goes down with every price it pops, and the loop ends;
* **`core_exec_spec`** is the step lemma of the engine: **`Served`** lists the outcomes of a call.
-/

namespace NexusTrade.MatchingEngine

/-! ### Counting fills -/

theorem orderIndex_trade (uuid : UuidSource) (s : MatchState) (price : Decimal) (level : PriceLevel)
    (resting : Order) (queue : List Order) :
    (s.trade uuid price level resting queue).book.orderIndex
      = if (resting.reduce (tradeQuantity s.incoming resting)).remainingQuantity = 0
        then s.book.orderIndex.erase resting.orderId else s.book.orderIndex := by
  refine SortedMap.ext_find fun id => ?_
  rw [s.index_trade]
  by_cases hzero : (resting.reduce (tradeQuantity s.incoming resting)).remainingQuantity = 0
  · simp [hzero]
  · simp [hzero]

/-- What the loop has filled, against what the queues have lost. -/
def CountInv (start : ℕ) (s : MatchState) : Prop :=
  s.fills.length + s.book.orderIndex.size
    ≤ start + if s.incoming.remainingQuantity ≤ 0 then 1 else 0

theorem CountInv.step {uuid : UuidSource} {start : ℕ} {s t : MatchState} (h : CountInv start s)
    (hs : LoopInv s) (hst : TradeStep uuid s t) : CountInv start t := by
  obtain ⟨price, level, resting, queue, hc, rfl⟩ := hst
  have hbefore : s.fills.length + s.book.orderIndex.size ≤ start := by
    have h' := h
    rw [CountInv, if_neg (not_le.mpr hc.positive)] at h'
    exact h'
  have hfills : (s.trade uuid price level resting queue).fills.length = s.fills.length + 1 := by
    rw [MatchState.trade_fills, List.length_append]
    rfl
  rw [CountInv, hfills, orderIndex_trade]
  by_cases hzero : (resting.reduce (tradeQuantity s.incoming resting)).remainingQuantity = 0
  · have hindex := (hs.book.index resting.orderId _ _).mpr
      ⟨level, hc.atLevel, hc.front_id⟩
    have hsize := SortedMap.size_erase hindex
    rw [if_pos hzero]
    omega
  · have hdone : (s.trade uuid price level resting queue).incoming.remainingQuantity ≤ 0 := by
      have hne : resting.remainingQuantity - tradeQuantity s.incoming resting ≠ 0 := hzero
      show s.incoming.remainingQuantity - tradeQuantity s.incoming resting ≤ 0
      rcases min_choice s.incoming.remainingQuantity resting.remainingQuantity with hmin | hmin
      · rw [tradeQuantity, hmin, sub_self]
      · rw [tradeQuantity, hmin, sub_self] at hne
        exact absurd rfl hne
    rw [if_neg hzero, if_pos hdone]
    omega

/-- **An executed order makes at most one fill more than the queues lose orders.** -/
theorem Executed.count {uuid : UuidSource} {book book' : OrderBook} {o : Order}
    {report : ExecutionReport} (hx : Executed uuid book o report book') (hinv : Inv book)
    (ha : Admissible book o) :
    report.fills.length + book'.orderIndex.size ≤ book.orderIndex.size + 1 := by
  have hstart := LoopInv.start hinv ha
  have hcount : ∀ t, Trades uuid (book.startMatch o) t → CountInv book.orderIndex.size t := by
    intro t ht
    refine (trades_preserve (P := fun t => LoopInv t ∧ CountInv book.orderIndex.size t) ?_ ht
      ⟨hstart, ?_⟩).2
    · exact fun s t h hst => ⟨h.1.step hst, h.2.step h.1 hst⟩
    · show 0 + book.orderIndex.size ≤ _
      omega
  cases hx with
  | blocked t trades inv _ =>
      have h := hcount t trades
      rw [CountInv] at h
      show t.fills.length + t.book.orderIndex.size ≤ _
      split at h <;> omega
  | finished t trades inv exhausted st settled hsettled =>
      have h := hcount t trades
      rw [CountInv] at h
      rw [OrderBook.close_orderIndex]
      show t.fills.length + settled.orderIndex.size ≤ _
      cases hsettled with
      | filled _ => split at h <;> omega
      | dropped _ _ => split at h <;> omega
      | expired _ _ => split at h <;> omega
      | rested hleft _ price _ =>
          have hpos : ¬t.incoming.remainingQuantity ≤ 0 :=
            not_le.mpr (lt_of_le_of_ne inv.nonneg (Ne.symm hleft))
          rw [if_neg hpos] at h
          have hindex : (t.book.restAt t.incoming price).orderIndex
              = t.book.orderIndex.insert t.incoming.orderId (t.incoming.side, price) := by
            simp [OrderBook.restAt]
          have hsize := SortedMap.size_insert_le t.book.orderIndex t.incoming.orderId
            (t.incoming.side, price)
          rw [hindex]
          omega

/-- The triggered orders of one price make at most one fill each more than the queues lose orders. -/
theorem ExecutedAll.count {uuid : UuidSource} {book book' : OrderBook} {orders : List Order}
    {reports : List ExecutionReport} (hx : ExecutedAll uuid book orders reports book') :
    (fillPrices reports).length + book'.orderIndex.size ≤ book.orderIndex.size + orders.length := by
  induction hx with
  | nil _ _ => exact le_of_eq (Nat.zero_add _)
  | @cons uuid book book' book'' o orders report reports inv ready _ head _ ih =>
      have hhead := head.count inv ready.admissible
      have hlen : (fillPrices (report :: reports)).length
          = report.fills.length + (fillPrices reports).length := by
        simp [fillPrices]
      rw [hlen, List.length_cons]
      omega

/-! ### The cascade -/

/-- **A cascade**: the prices are taken from the back, and the fills of the orders a price sets off put
their prices there. -/
inductive Cascaded : UuidSource → OrderBook → List Decimal → List ExecutionReport → OrderBook → Prop
  | done (uuid : UuidSource) (book : OrderBook) : Cascaded uuid book [] [] book
  | step {uuid : UuidSource} {book book' book'' : OrderBook} {prices : List Decimal}
      {lastPrice : Decimal} {triggered more : List ExecutionReport} (inv : Inv book)
      (returned : book.triggerStops uuid.head lastPrice = .ok (triggered, book'))
      (head : ExecutedAll uuid.head (book.drained lastPrice) (book.setOff lastPrice) triggered book')
      (tail : Cascaded uuid.tail book' (prices ++ fillPrices triggered) more book'') :
      Cascaded uuid book (prices ++ [lastPrice]) (triggered ++ more) book''

/-- Setting off stop orders splits the pending ones. -/
theorem length_setOff (book : OrderBook) (lastPrice : Decimal) :
    (book.setOff lastPrice).length + (book.drained lastPrice).stopOrders.length
      = book.stopOrders.length := by
  rw [OrderBook.setOff, List.length_map]
  exact List.length_eq_length_filter_add (triggered lastPrice) ▸ rfl

/-- **The cascade ends**, and keeps the invariant. -/
theorem cascade_spec (fuel : ℕ) : ∀ (uuid : UuidSource) (book : OrderBook) (prices : List Decimal),
    Inv book → book.cascadeFuel prices ≤ fuel →
    ∃ reports book', book.cascade fuel uuid prices = .ok (reports, book') ∧ Inv book' ∧
      Cascaded uuid book prices reports book' := by
  induction fuel with
  | zero =>
      intro uuid book prices _ hfuel
      rw [OrderBook.cascadeFuel] at hfuel
      omega
  | succ fuel ih =>
      intro uuid book prices h hfuel
      rcases List.eq_nil_or_concat' prices with rfl | ⟨init, lastPrice, rfl⟩
      · exact ⟨[], book, rfl, h, .done uuid book⟩
      obtain ⟨triggered, book', htrigger, hinv, hx⟩ := triggerStops_spec uuid.head h lastPrice
      have hcount := hx.count
      have hstops := length_setOff book lastPrice
      have hframe := hx.frame.1
      have hindex : (book.drained lastPrice).orderIndex = book.orderIndex := rfl
      have hfuel' : book'.cascadeFuel (init ++ fillPrices triggered) ≤ fuel := by
        rw [OrderBook.cascadeFuel, List.length_append] at hfuel ⊢
        rw [hframe]
        rw [hindex] at hcount
        rw [List.length_singleton] at hfuel
        omega
      obtain ⟨more, book'', hcascade, hinv', hrest⟩ := ih uuid.tail book'
        (init ++ fillPrices triggered) hinv hfuel'
      refine ⟨triggered ++ more, book'', ?_, hinv', .step h htrigger hx hrest⟩
      rw [OrderBook.cascade, List.getLast?_concat, List.dropLast_concat]
      simp only [htrigger, ok_bind, hcascade]

/-- What `submit_order` does to the book of its symbol. -/
structure Traded (uuid : UuidSource) (book : OrderBook) (order : Order) (report : ExecutionReport)
    (dropped : List ExecutionReport) (book' : OrderBook) : Prop where
  steps : ∃ middle, Inv middle ∧ book.submit uuid.head order = .ok (report, middle) ∧
    Submitted uuid.head book order report middle ∧
    Cascaded uuid.tail middle (fillPrices [report]) dropped book'

theorem submitAndTrigger_spec (uuid : UuidSource) {book : OrderBook} (h : Inv book) (order : Order) :
    ∃ report dropped book', book.submitAndTrigger uuid order = .ok (report, dropped, book') ∧
      Inv book' ∧ Traded uuid book order report dropped book' := by
  obtain ⟨report, middle, hsubmit, hinv, hx⟩ := submit_spec uuid.head h order
  obtain ⟨dropped, book', hcascade, hinv', hc⟩ := cascade_spec _ uuid.tail middle
    (fillPrices [report]) hinv (le_refl _)
  refine ⟨report, dropped, book', ?_, hinv', ⟨middle, hinv, hsubmit, hx, hc⟩⟩
  rw [OrderBook.submitAndTrigger, hsubmit, ok_bind]
  simp only [hcascade, ok_bind]

/-! ### Calls on the engine -/

/-- Every book of the engine has the representation invariant. -/
def CoreInv (core : Core) : Prop := ∀ symbol book, core.books.find symbol = some book → Inv book

theorem coreInv_empty (persistence : Option Persistence) : CoreInv ⟨.empty, persistence⟩ := by
  intro symbol book h
  cases h

theorem CoreInv.bookFor {core : Core} (h : CoreInv core) (symbol : String) :
    Inv (core.bookFor symbol) := by
  rw [Core.bookFor]
  cases hf : core.books.find (normalizeSymbol symbol) with
  | none => exact inv_default
  | some book => exact h _ book hf

theorem CoreInv.insert {core : Core} (h : CoreInv core) {symbol : String} {book : OrderBook}
    (hb : Inv book) (persistence : Option Persistence) :
    CoreInv ⟨core.books.insert symbol book, persistence⟩ := by
  intro s b hf
  rw [SortedMap.find_insert] at hf
  split at hf
  · cases hf
    exact hb
  · exact h s b hf

theorem appendWal_books {core core' : Core} {files : CallFiles} {record : WalRecord}
    (h : core.appendWal files record = .ok core') : core'.books = core.books := by
  rw [Core.appendWal] at h
  cases hp : core.persistence with
  | none => rw [hp] at h; cases h; rfl
  | some persistence =>
      rw [hp] at h
      cases ha : files.append with
      | none => simp only [ha] at h; cases h; rfl
      | some error => simp only [ha] at h; cases h

theorem appendWal_ok {core core' : Core} {files : CallFiles} {record : WalRecord}
    (h : core.appendWal files record = .ok core') :
    core.persistence = none ∨ files.append = none := by
  rw [Core.appendWal] at h
  cases hp : core.persistence with
  | none => exact Or.inl rfl
  | some persistence =>
      rw [hp] at h
      cases ha : files.append with
      | none => exact Or.inr rfl
      | some error => simp only [ha] at h; cases h

theorem appendWal_error {core : Core} {files : CallFiles} {record : WalRecord} {error : String}
    (h : core.appendWal files record = .error error) :
    ¬(core.persistence = none ∨ files.append = none) := by
  rw [Core.appendWal] at h
  cases hp : core.persistence with
  | none => rw [hp] at h; cases h
  | some persistence =>
      rw [hp] at h
      cases ha : files.append with
      | none => simp only [ha] at h; cases h
      | some error => simp

@[simp] theorem snapshotToDisk_books (codec : DecimalCodec) (core : Core) (files : CallFiles) :
    (core.snapshotToDisk codec files).2.books = core.books := by
  rw [Core.snapshotToDisk]
  cases core.persistence with
  | none => rfl
  | some persistence => cases files.snapshot <;> rfl

@[simp] theorem recordTradeCount_books (codec : DecimalCodec) (core : Core) (files : CallFiles)
    (count : ℕ) : (core.recordTradeCount codec files count).books = core.books := by
  rw [Core.recordTradeCount]
  cases core.persistence with
  | none => rfl
  | some persistence =>
      simp only
      split
      · exact snapshotToDisk_books codec _ files
      · rfl

/-- The end of a submission: the automatic snapshot, if the call traded. -/
def Core.afterTrades (codec : DecimalCodec) (core : Core) (files : CallFiles) (count : ℕ) : Core :=
  if 0 < count then core.recordTradeCount codec files count else core

@[simp] theorem afterTrades_books (codec : DecimalCodec) (core : Core) (files : CallFiles)
    (count : ℕ) : (core.afterTrades codec files count).books = core.books := by
  rw [Core.afterTrades]
  split
  · exact recordTradeCount_books codec core files count
  · rfl

/-- **The outcomes of a call on the engine.** -/
inductive Served (codec : DecimalCodec) (core : Core) : CoreOp → CoreReply → Core → Prop
  | submitFailed {files : CallFiles} {uuid : UuidSource} {symbol : String} {order : Order}
      {error : String} (append : core.appendWal files
        (.submit (normalizeSymbol symbol) (orderToSnapshot codec order)) = .error error) :
      Served codec core (.submitOrder files uuid symbol order)
        (.submitted (walFailedReport order.orderId error) []) core
  | submitted {files : CallFiles} {uuid : UuidSource} {symbol : String} {order : Order}
      {logged : Core} {report : ExecutionReport} {dropped : List ExecutionReport} {book : OrderBook}
      (append : core.appendWal files
        (.submit (normalizeSymbol symbol) (orderToSnapshot codec order)) = .ok logged)
      (traded : Traded uuid (core.bookFor symbol) order report dropped book) (inv : Inv book) :
      Served codec core (.submitOrder files uuid symbol order) (.submitted report dropped)
        (Core.afterTrades codec ⟨core.books.insert (normalizeSymbol symbol) book, logged.persistence⟩
          files (tradeCount report dropped))
  | cancelFailed {files : CallFiles} {symbol orderId userId : String} {error : String}
      (append : core.appendWal files (.cancel (normalizeSymbol symbol) orderId userId)
        = .error error) :
      Served codec core (.cancelOrder files symbol orderId userId) (.cancelled false) core
  | cancelUnknown {files : CallFiles} {symbol orderId userId : String} {logged : Core}
      (append : core.appendWal files (.cancel (normalizeSymbol symbol) orderId userId) = .ok logged)
      (unknown : core.books.find (normalizeSymbol symbol) = none) :
      Served codec core (.cancelOrder files symbol orderId userId) (.cancelled false) logged
  | cancelled {files : CallFiles} {symbol orderId userId : String} {logged : Core}
      {book book' : OrderBook} {done : Bool}
      (append : core.appendWal files (.cancel (normalizeSymbol symbol) orderId userId) = .ok logged)
      (known : core.books.find (normalizeSymbol symbol) = some book)
      (returned : book.cancel orderId userId = .ok (done, book'))
      (result : Cancelled book orderId userId done book') (inv : Inv book') :
      Served codec core (.cancelOrder files symbol orderId userId) (.cancelled done)
        ⟨core.books.insert (normalizeSymbol symbol) book', logged.persistence⟩
  | snapshot {files : CallFiles} :
      Served codec core (.snapshotToDisk files) (.snapshot (core.snapshotToDisk codec files).1)
        (core.snapshotToDisk codec files).2

/-- **Every call on the engine returns** and keeps the invariant of the books. -/
theorem core_exec_spec (codec : DecimalCodec) {core : Core} (h : CoreInv core) (op : CoreOp) :
    ∃ reply core', core.exec codec op = .ok (reply, core') ∧ CoreInv core' ∧
      Served codec core op reply core' := by
  cases op with
  | submitOrder files uuid symbol order =>
      rw [Core.exec, Core.submitOrder]
      cases happend : core.appendWal files
          (.submit (normalizeSymbol symbol) (orderToSnapshot codec order)) with
      | error error => exact ⟨_, _, rfl, h, .submitFailed happend⟩
      | ok logged =>
          have hbooks := appendWal_books happend
          have hbook : logged.bookFor symbol = core.bookFor symbol := by
            rw [Core.bookFor, Core.bookFor, hbooks]
          obtain ⟨report, dropped, book, htrade, hinv, ht⟩ :=
            submitAndTrigger_spec uuid (h.bookFor symbol) order
          refine ⟨_, _, ?_, ?_, .submitted happend ht hinv⟩
          · simp only [hbook, htrade, ok_bind, hbooks]
            rfl
          · intro s b hf
            rw [afterTrades_books] at hf
            exact h.insert hinv logged.persistence s b hf
  | cancelOrder files symbol orderId userId =>
      rw [Core.exec, Core.cancelOrder]
      cases happend : core.appendWal files (.cancel (normalizeSymbol symbol) orderId userId) with
      | error error => exact ⟨_, _, rfl, h, .cancelFailed happend⟩
      | ok logged =>
          have hbooks := appendWal_books happend
          simp only [hbooks]
          cases hknown : core.books.find (normalizeSymbol symbol) with
          | none =>
              refine ⟨_, _, rfl, ?_, .cancelUnknown happend hknown⟩
              intro s b hf
              rw [hbooks] at hf
              exact h s b hf
          | some book =>
              obtain ⟨done, book', hcancel, hinv, hc⟩ := cancel_spec (h _ book hknown) orderId userId
              refine ⟨_, _, ?_, h.insert hinv logged.persistence,
                .cancelled happend hknown hcancel hc hinv⟩
              simp only [hcancel, ok_bind]
  | snapshotToDisk files =>
      refine ⟨_, _, rfl, ?_, .snapshot⟩
      intro s b hf
      rw [snapshotToDisk_books] at hf
      exact h s b hf

/-- **Inversion of a call on the engine.** -/
theorem core_exec_inv {codec : DecimalCodec} {core core' : Core} {op : CoreOp} {reply : CoreReply}
    (h : CoreInv core) (hexec : core.exec codec op = .ok (reply, core')) :
    CoreInv core' ∧ Served codec core op reply core' := by
  obtain ⟨reply', core'', hs, hinv, hx⟩ := core_exec_spec codec h op
  rw [hexec] at hs
  cases hs
  exact ⟨hinv, hx⟩

/-- Make a sequence of calls on an engine. -/
def coreRun (codec : DecimalCodec) (core : Core) (ops : List CoreOp) :
    Except Panic (List CoreReply × Core) :=
  Machine.run (Core.exec codec) core ops

/-- **Every run of the engine returns.** -/
theorem coreRun_spec (codec : DecimalCodec) {core : Core} (h : CoreInv core) (ops : List CoreOp) :
    ∃ replies core', coreRun codec core ops = .ok (replies, core') ∧ CoreInv core' :=
  Machine.run_total (fun core op h => by
    obtain ⟨reply, core', hexec, hinv, _⟩ := core_exec_spec codec h op
    exact ⟨reply, core', hexec, hinv⟩) ops core h

/-- A stop order, an offer that it can take, and a trade at its stop price. -/
def stopSetOff : List CoreOp :=
  [.submitOrder filesOk (fun _ => "first") "BTC-USDT"
      (Order.new "stop-buy" "u1" .buy .stopLimit (some 101) (some 100) 1),
    .submitOrder filesOk (fun _ => "second") "BTC-USDT" (Order.limit "ask-1" "u2" .sell 100 2),
    .submitOrder filesOk (fun k => if k = 0 then "third" else "fourth") "BTC-USDT"
      (Order.limit "bid-1" "u3" .buy 100 1)]

end NexusTrade.MatchingEngine
