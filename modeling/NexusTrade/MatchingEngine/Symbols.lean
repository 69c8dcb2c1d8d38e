import NexusTrade.Lib.Unwinding
import NexusTrade.MatchingEngine.Replay
import NexusTrade.MatchingEngine.Reported

/-!
# The books of different symbols

The engine of `services/matching-engine/src/lib.rs` has one book for each symbol, and all of them share the files.
What the users of one symbol do is nothing to the users of another.

* **`Core.existingBook`**, **`Core.getOrderBook`** and **`Core.getOrderStatus`** are the queries;
* **`OfSymbol`** are the calls on a symbol, in any spelling of it;
* **`confined`**: the client that makes them is confined to the book of the symbol, and to whether there are files;
* **`symbols_are_independent`**: so a run answers the calls on a symbol, and leaves its book, as the run of these
  calls alone does.
-/

namespace NexusTrade.MatchingEngine

/-! ### Queries -/

/-- `existing_book`. -/
def Core.existingBook (core : Core) (symbol : String) : Option OrderBook := core.books.find (normalizeSymbol symbol)

/-- `get_order_book`. -/
def Core.getOrderBook (core : Core) (symbol : String) (levels : ℕ) :
    List (Decimal × Decimal) × List (Decimal × Decimal) :=
  match core.existingBook symbol with
  | none => ([], [])
  | some book => book.depth levels

/-- `get_order_status`. -/
def Core.getOrderStatus (core : Core) (symbol orderId : String) : Option (OrderStatus × Decimal) :=
  (core.existingBook symbol).bind fun book => book.orderStatus orderId

/-! ### What a symbol depends on -/

/-- The calls on a symbol. -/
def OfSymbol (symbol : String) (op : CoreOp) : Bool := decide (op.symbol = some (normalizeSymbol symbol))

/-- The book of a symbol, and whether the engine has files. -/
def Core.seenFrom (symbol : String) (core : Core) : Option OrderBook × Bool :=
  (core.existingBook symbol, core.persistence.isSome)

theorem appendWal_isSome {core logged : Core} {files : CallFiles} {record : WalRecord}
    (h : core.appendWal files record = .ok logged) : logged.persistence.isSome = core.persistence.isSome := by
  cases hp : core.persistence with
  | none =>
      rw [Core.appendWal, hp] at h
      cases h
      rw [hp]
  | some persistence => exact (appendWal_wal h (by rw [hp]; rfl)).1

theorem afterTrades_memory (codec : DecimalCodec) {core : Core} (files : CallFiles) (count : ℕ)
    (hp : core.persistence = none) : core.afterTrades codec files count = core := by
  rw [Core.afterTrades, Core.recordTradeCount, hp]
  split <;> rfl

/-- An engine keeps its files, or stays without. -/
theorem Served.isSome {codec : DecimalCodec} {core core' : Core} {op : CoreOp} {reply : CoreReply}
    (h : Served codec core op reply core') : core'.persistence.isSome = core.persistence.isSome := by
  cases hp : core.persistence with
  | some persistence =>
      have hsome : core.persistence.isSome := by
        rw [hp]
        rfl
      exact (h.wal hsome).1
  | none =>
      cases h with
      | submitFailed _ => rw [hp]
      | submitted append _ _ =>
          have hlogged := appendWal_isSome append
          rw [hp, Option.isSome_none, Option.isSome_eq_false_iff, Option.isNone_iff_eq_none] at hlogged
          rw [hlogged, afterTrades_memory codec _ _ rfl]
      | cancelFailed _ => rw [hp]
      | cancelUnknown append _ => rw [appendWal_isSome append, hp]
      | cancelled append _ _ _ _ =>
          show Option.isSome _ = _
          rw [appendWal_isSome append, hp]
      | snapshot =>
          rw [Core.snapshotToDisk, hp]
          simp [hp]

/-- **The calls on other symbols** leave a book as it is. -/
theorem Served.existingBook {codec : DecimalCodec} {core core' : Core} {op : CoreOp} {reply : CoreReply}
    (h : Served codec core op reply core') {symbol : String} (hother : OfSymbol symbol op = false) :
    core'.existingBook symbol = core.existingBook symbol := by
  have hne : ∀ s, OfSymbol symbol op = decide (some (normalizeSymbol s) = some (normalizeSymbol symbol)) →
      normalizeSymbol symbol ≠ normalizeSymbol s := by
    intro s hs heq
    rw [hs, heq, decide_eq_false_iff_not] at hother
    exact hother rfl
  rw [Core.existingBook, Core.existingBook]
  cases h with
  | submitFailed _ => rfl
  | @submitted _ _ s _ _ _ _ _ append _ _ =>
      rw [afterTrades_books, SortedMap.find_insert, if_neg (hne s rfl)]
  | cancelFailed _ => rfl
  | cancelUnknown append _ => rw [appendWal_books append]
  | @cancelled _ s _ _ _ _ _ _ append _ _ _ _ =>
      show (core.books.insert (normalizeSymbol s) _).find (normalizeSymbol symbol) = _
      rw [SortedMap.find_insert, if_neg (hne s rfl)]
  | snapshot => rw [snapshotToDisk_books]

/-- Two engines of which both have files, or neither, append alike. -/
theorem appendWal_alike {core core' : Core} (h : core.persistence.isSome = core'.persistence.isSome)
    (files : CallFiles) (record : WalRecord) :
    (∃ error, core.appendWal files record = .error error ∧ core'.appendWal files record = .error error) ∨
      ∃ logged logged', core.appendWal files record = .ok logged ∧ core'.appendWal files record = .ok logged' := by
  rw [Core.appendWal, Core.appendWal]
  cases hp : core.persistence with
  | none =>
      rw [hp, Option.isSome_none, eq_comm, Option.isSome_eq_false_iff, Option.isNone_iff_eq_none] at h
      rw [h]
      exact Or.inr ⟨core, core', rfl, rfl⟩
  | some persistence =>
      rw [hp, Option.isSome_some, eq_comm, Option.isSome_iff_exists] at h
      obtain ⟨persistence', hp'⟩ := h
      rw [hp']
      cases ha : files.append with
      | some error => exact Or.inl ⟨error, rfl, rfl⟩
      | none => exact Or.inr ⟨_, _, rfl, rfl⟩

/-- What a submission does once its record is logged. -/
theorem exec_submit {codec : DecimalCodec} {core logged : Core} {files : CallFiles} {symbol : String} {order : Order}
    (happend : core.appendWal files (.submit (normalizeSymbol symbol) (orderToSnapshot codec order)) = .ok logged)
    (uuid : UuidSource) :
    core.exec codec (.submitOrder files uuid symbol order)
      = (logged.bookFor symbol).submitAndTrigger uuid order >>= fun r =>
          .ok (.submitted r.1 r.2.1,
            Core.afterTrades codec ⟨logged.books.insert (normalizeSymbol symbol) r.2.2, logged.persistence⟩ files
              (tradeCount r.1 r.2.1)) := by
  rw [Core.exec, Core.submitOrder, happend]
  cases htrade : (logged.bookFor symbol).submitAndTrigger uuid order with
  | error p =>
      simp only [htrade]
      rfl
  | ok r =>
      simp only [htrade, ok_bind]
      rfl

/-- What a cancellation does once its record is logged. -/
theorem exec_cancel {codec : DecimalCodec} {core logged : Core} {files : CallFiles} {symbol orderId userId : String}
    (happend : core.appendWal files (.cancel (normalizeSymbol symbol) orderId userId) = .ok logged) :
    core.exec codec (.cancelOrder files symbol orderId userId)
      = match logged.books.find (normalizeSymbol symbol) with
        | none => .ok (.cancelled false, logged)
        | some book => book.cancel orderId userId >>= fun r =>
            .ok (.cancelled r.1, ⟨logged.books.insert (normalizeSymbol symbol) r.2, logged.persistence⟩) := by
  rw [Core.exec, Core.cancelOrder, happend]
  simp only
  cases logged.books.find (normalizeSymbol symbol) with
  | none => rfl
  | some book =>
      simp only
      cases book.cancel orderId userId <;> rfl

/-- **The answer to a call on a symbol** is decided by the book of the symbol and by whether there are files. -/
theorem exec_alike (codec : DecimalCodec) {core core' t t' : Core} {symbol : String} {op : CoreOp}
    {reply reply' : CoreReply} (hop : OfSymbol symbol op = true)
    (hview : core.seenFrom symbol = core'.seenFrom symbol) (h : core.exec codec op = .ok (reply, t))
    (h' : core'.exec codec op = .ok (reply', t')) :
    reply = reply' ∧ t.existingBook symbol = t'.existingBook symbol := by
  obtain ⟨hbook, hfiles⟩ := Prod.mk.inj hview
  cases op with
  | submitOrder files uuid s order =>
      have hs : normalizeSymbol s = normalizeSymbol symbol := Option.some.inj (of_decide_eq_true hop)
      have hfor : core.bookFor s = core'.bookFor s := by
        rw [Core.bookFor, Core.bookFor, hs]
        exact congrArg (fun found : Option OrderBook => found.getD .default) hbook
      rcases appendWal_alike hfiles files (.submit (normalizeSymbol s) (orderToSnapshot codec order)) with
        ⟨error, hfail, hfail'⟩ | ⟨logged, logged', happend, happend'⟩
      · rw [Core.exec, Core.submitOrder, hfail] at h
        rw [Core.exec, Core.submitOrder, hfail'] at h'
        cases h
        cases h'
        exact ⟨rfl, hbook⟩
      · have hlogged : logged.bookFor s = core.bookFor s := by
          rw [Core.bookFor, appendWal_books happend, Core.bookFor]
        have hlogged' : logged'.bookFor s = core.bookFor s := by
          rw [hfor, Core.bookFor, appendWal_books happend', Core.bookFor]
        rw [exec_submit happend, hlogged] at h
        rw [exec_submit happend', hlogged'] at h'
        obtain ⟨result, htrade, hreturned⟩ := bind_eq_ok.mp h
        obtain ⟨result', htrade', hreturned'⟩ := bind_eq_ok.mp h'
        rw [htrade] at htrade'
        cases htrade'
        cases hreturned
        cases hreturned'
        refine ⟨rfl, ?_⟩
        rw [Core.existingBook, Core.existingBook, afterTrades_books, afterTrades_books, SortedMap.find_insert,
          SortedMap.find_insert, if_pos hs.symm, if_pos hs.symm]
  | cancelOrder files s orderId userId =>
      have hs : normalizeSymbol s = normalizeSymbol symbol := Option.some.inj (of_decide_eq_true hop)
      rcases appendWal_alike hfiles files (.cancel (normalizeSymbol s) orderId userId) with
        ⟨error, hfail, hfail'⟩ | ⟨logged, logged', happend, happend'⟩
      · rw [Core.exec, Core.cancelOrder, hfail] at h
        rw [Core.exec, Core.cancelOrder, hfail'] at h'
        cases h
        cases h'
        exact ⟨rfl, hbook⟩
      · have hfind : logged.books.find (normalizeSymbol s) = core.existingBook symbol := by
          rw [appendWal_books happend, hs, Core.existingBook]
        have hfind' : logged'.books.find (normalizeSymbol s) = core.existingBook symbol := by
          rw [hbook, appendWal_books happend', hs, Core.existingBook]
        rw [exec_cancel happend, hfind] at h
        rw [exec_cancel happend', hfind'] at h'
        cases hknown : core.existingBook symbol with
        | none =>
            rw [hknown] at h h'
            cases h
            cases h'
            refine ⟨rfl, ?_⟩
            rw [Core.existingBook, Core.existingBook, ← hs, hfind, hfind']
        | some book =>
            rw [hknown] at h h'
            obtain ⟨result, hcancel, hreturned⟩ := bind_eq_ok.mp h
            obtain ⟨result', hcancel', hreturned'⟩ := bind_eq_ok.mp h'
            rw [hcancel] at hcancel'
            cases hcancel'
            cases hreturned
            cases hreturned'
            refine ⟨rfl, ?_⟩
            show (logged.books.insert (normalizeSymbol s) result.2).find (normalizeSymbol symbol)
              = (logged'.books.insert (normalizeSymbol s) result.2).find (normalizeSymbol symbol)
            rw [SortedMap.find_insert, SortedMap.find_insert, if_pos hs.symm, if_pos hs.symm]
  | snapshotToDisk files => cases hop

/-- **The client of a symbol is confined to its book.** -/
theorem confined (codec : DecimalCodec) (symbol : String) :
    Machine.Confined (Core.exec codec) CoreInv (OfSymbol symbol) (Core.seenFrom symbol) where
  keeps := fun h hexec => (core_exec_inv h hexec).1
  returns := fun h op => by
    obtain ⟨reply, core', hexec, _⟩ := core_exec_spec codec h op
    exact ⟨reply, core', hexec⟩
  unseen := fun h hop hexec => by
    have hserved := (core_exec_inv h hexec).2
    exact Prod.ext (hserved.existingBook hop) hserved.isSome
  decided := fun {s s' a r r' t t'} h h' hop hview hexec hexec' => by
    obtain ⟨hreply, hbook⟩ := exec_alike codec hop hview hexec hexec'
    have hserved := (core_exec_inv h hexec).2
    have hserved' := (core_exec_inv h' hexec').2
    exact ⟨hreply, Prod.ext hbook (hserved.isSome.trans ((Prod.mk.inj hview).2.trans hserved'.isSome.symm))⟩

/-! ### Runs -/

/-- **The symbols of an engine are independent.**  Whatever is done on other symbols, the calls on a symbol are
answered, and its depth and the statuses of its orders are, as if these calls had been the only ones. -/
theorem symbols_are_independent (codec : DecimalCodec) (persistence : Option Persistence) (ops : List CoreOp)
    (symbol : String) :
    ∃ replies core core', coreRun codec ⟨.empty, persistence⟩ ops = .ok (replies, core) ∧
      coreRun codec ⟨.empty, persistence⟩ (ops.filter (OfSymbol symbol))
        = .ok (Machine.answers (OfSymbol symbol) ops replies, core') ∧
      core.existingBook symbol = core'.existingBook symbol ∧
      (∀ levels, core.getOrderBook symbol levels = core'.getOrderBook symbol levels) ∧
      ∀ orderId, core.getOrderStatus symbol orderId = core'.getOrderStatus symbol orderId := by
  have hstart := coreInv_empty persistence
  obtain ⟨replies, core, hrun, _⟩ := coreRun_spec codec hstart ops
  obtain ⟨core', hown, _, hview⟩ := (confined codec symbol).run_own ops _ _ core replies hstart hstart rfl hrun
  have hbook := (Prod.mk.inj hview).1
  refine ⟨replies, core, core', hrun, hown, hbook, fun levels => ?_, fun orderId => ?_⟩
  · rw [Core.getOrderBook, hbook, Core.getOrderBook]
  · rw [Core.getOrderStatus, hbook, Core.getOrderStatus]

end NexusTrade.MatchingEngine
