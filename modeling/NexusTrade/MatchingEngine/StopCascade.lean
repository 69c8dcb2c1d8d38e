import NexusTrade.MatchingEngine.Cascade
import NexusTrade.MatchingEngine.Labels

/-!
# The stop orders that a call sets off

The loop of `submit_order` looks at the prices of all fills of the call, in an order of its own: those of the
incoming order from the last one on, and after each price those of the orders that it sets off.

* **`reached`**: some of these prices triggers a stop order;
* **`Cascaded.pending`** and **`Cascaded.setOff`**: in whatever order the prices are looked at, the stop
  orders that they reach are set off, each once, and the others stay pending in their order;
* **`stop_cascade_exact`** says so of every call on the engine, in every state of it.
-/

namespace NexusTrade.MatchingEngine

/-- Some price triggers the stop order. -/
def reached (prices : List Decimal) (o : Order) : Bool := prices.any fun price => triggered price o

/-- What stays pending after some prices, and then after others. -/
theorem filter_reached_append (ps qs : List Decimal) (orders : List Order) :
    (orders.filter fun o => !reached ps o).filter (fun o => !reached qs o)
      = orders.filter fun o => !reached (ps ++ qs) o := by
  rw [List.filter_filter]
  refine List.filter_congr fun o _ => ?_
  rw [reached, reached, reached, List.any_append, Bool.not_or, Bool.and_comm]

theorem fillPrices_append (reports more : List ExecutionReport) :
    fillPrices (reports ++ more) = fillPrices reports ++ fillPrices more := by
  rw [fillPrices, List.flatMap_append, List.map_append]
  rfl

/-- What some prices reach does not depend on their order. -/
theorem reached_perm {ps qs : List Decimal} (h : ps.Perm qs) (o : Order) : reached ps o = reached qs o :=
  h.any_eq

section Cascaded

variable {uuid : UuidSource} {book book' : OrderBook} {prices : List Decimal}
  {reports : List ExecutionReport}

/-- The prices that are left, and those that one step adds, are those that the whole cascade looks at. -/
theorem cascade_prices (prices : List Decimal) (lastPrice : Decimal) (triggered more : List ExecutionReport) :
    ([lastPrice] ++ (prices ++ fillPrices triggered ++ fillPrices more)).Perm
      (prices ++ [lastPrice] ++ fillPrices (triggered ++ more)) := by
  rw [fillPrices_append, List.append_assoc prices, List.append_assoc prices]
  exact List.perm_append_comm_assoc _ _ _

/-- **What stays pending** is what no price of the cascade reaches. -/
theorem Cascaded.pending (hc : Cascaded uuid book prices reports book') :
    book'.stopOrders = book.stopOrders.filter fun o => !reached (prices ++ fillPrices reports) o := by
  induction hc with
  | done uuid book =>
      rw [List.filter_eq_self.mpr]
      exact fun o _ => rfl
  | @step uuid book middle book' prices lastPrice triggered more inv returned head tail ih =>
      have hone : middle.stopOrders = book.stopOrders.filter fun o => !reached [lastPrice] o := by
        rw [head.frame.1]
        refine List.filter_congr fun o _ => ?_
        rw [reached, List.any_cons, List.any_nil, Bool.or_false]
      rw [ih, hone, filter_reached_append]
      refine List.filter_congr fun o _ => ?_
      rw [reached_perm (cascade_prices prices lastPrice triggered more)]

/-- The reports of triggered orders are in their order. -/
theorem ExecutedAll.reported {orders : List Order} (hx : ExecutedAll uuid book orders reports book') :
    reports.map ExecutionReport.orderId = orderIds orders := by
  induction hx with
  | nil uuid book => rfl
  | cons inv ready returned head tail ih =>
      rw [List.map_cons, ih, head.report_orderId]
      rfl

/-- **What is set off** is what some price of the cascade reaches, each order once. -/
theorem Cascaded.setOff (hc : Cascaded uuid book prices reports book') :
    (reports.map ExecutionReport.orderId).Perm
      (orderIds (book.stopOrders.filter (reached (prices ++ fillPrices reports)))) := by
  induction hc with
  | done uuid book =>
      rw [List.filter_eq_nil_iff.mpr]
      · exact List.Perm.refl _
      · exact fun o _ => Bool.false_ne_true
  | @step uuid book middle book' prices lastPrice reports more inv returned head tail ih =>
      -- what one price sets off, and what the others set off of the rest
      have hall : ∀ o, reached (prices ++ [lastPrice] ++ fillPrices (reports ++ more)) o
          = (triggered lastPrice o || reached (prices ++ fillPrices reports ++ fillPrices more) o) := by
        intro o
        rw [← reached_perm (cascade_prices prices lastPrice reports more)]
        rfl
      have hsplit := List.filter_append_perm (triggered lastPrice)
        (book.stopOrders.filter (reached (prices ++ [lastPrice] ++ fillPrices (reports ++ more))))
      have hfirst : (book.stopOrders.filter
          (reached (prices ++ [lastPrice] ++ fillPrices (reports ++ more)))).filter (triggered lastPrice)
          = book.stopOrders.filter (triggered lastPrice) := by
        rw [List.filter_filter]
        refine List.filter_congr fun o _ => ?_
        rw [hall]
        cases triggered lastPrice o <;> rfl
      have hrest : (book.stopOrders.filter
          (reached (prices ++ [lastPrice] ++ fillPrices (reports ++ more)))).filter
            (fun o => !triggered lastPrice o)
          = middle.stopOrders.filter (reached (prices ++ fillPrices reports ++ fillPrices more)) := by
        rw [head.frame.1]
        show _ = (book.stopOrders.filter fun o => !triggered lastPrice o).filter _
        rw [List.filter_filter, List.filter_filter]
        refine List.filter_congr fun o _ => ?_
        rw [hall]
        cases triggered lastPrice o <;> simp
      rw [hfirst, hrest] at hsplit
      have hids := hsplit.map Order.orderId
      rw [List.map_append] at hids
      rw [List.map_append, head.reported, orderIds_setOff]
      exact (List.Perm.append (List.Perm.refl _) ih).trans hids

end Cascaded

/-- The incoming order as it becomes pending, if it does. -/
def OrderBook.held (book : OrderBook) (incoming : Order) (accepted : Bool) : List Order :=
  if incoming.kind.isStop && accepted then [{ incoming with sequence := book.nextSequence + 1 }] else []

/-- **A submission** leaves the pending stop orders alone, unless the order is one that it holds. -/
theorem Submitted.pending {uuid : UuidSource} {book book' : OrderBook} {incoming : Order}
    {report : ExecutionReport} (hx : Submitted uuid book incoming report book') (h : Inv book) :
    book'.stopOrders = book.stopOrders ++ book.held incoming report.accepted := by
  rw [OrderBook.held]
  cases hx with
  | refused reason why =>
      rw [show (OrderBook.rejected incoming.orderId reason).accepted = false from rfl, Bool.and_false]
      exact (List.append_nil _).symm
  | held admissible hkind hstop =>
      rw [hkind, show (heldReport incoming).accepted = true from rfl]
      simp [OrderBook.holdStop]
  | killed admissible hkind hshort =>
      rw [hkind]
      exact (List.append_nil _).symm
  | executed admissible hkind _ _ report book' result =>
      rw [hkind, (result.frame h admissible).1]
      exact (List.append_nil _).symm

/-- **The loop of `submit_order` ends and is exact.**  In every state of the engine, every submission
returns.  The stop orders of its book are then those before it, with the order itself if it is a stop order
that is accepted, in the same order and without those that the price of some fill of the call reaches; and
these, and no others, were set off, each of them once. -/
theorem stop_cascade_exact (codec : DecimalCodec) (persistence : Option Persistence) (ops : List CoreOp)
    (files : CallFiles) (uuid : UuidSource) (symbol : String) (order : Order) :
    ∃ replies core, coreRun codec ⟨.empty, persistence⟩ ops = .ok (replies, core) ∧
      ∃ report dropped core',
        core.submitOrder codec files uuid symbol order = .ok (report, dropped, core') ∧
        (core'.bookFor symbol).stopOrders
          = ((core.bookFor symbol).stopOrders ++ (core.bookFor symbol).held order report.accepted).filter
              (fun o => !reached (fillPrices (report :: dropped)) o) ∧
        (dropped.map ExecutionReport.orderId).Perm
          (orderIds (((core.bookFor symbol).stopOrders
            ++ (core.bookFor symbol).held order report.accepted).filter
              (reached (fillPrices (report :: dropped))))) := by
  obtain ⟨replies, core, hrun, hinv⟩ := coreRun_spec codec (coreInv_empty persistence) ops
  refine ⟨replies, core, hrun, ?_⟩
  obtain ⟨reply, core', hexec, _, hserved⟩ :=
    core_exec_spec codec hinv (.submitOrder files uuid symbol order)
  obtain ⟨⟨report, dropped, core''⟩, hsubmit, hreply⟩ := bind_eq_ok.mp hexec
  cases hreply
  refine ⟨report, dropped, core', hsubmit, ?_⟩
  cases hserved with
  | @submitFailed _ _ _ _ error append =>
      have hheld : (core.bookFor symbol).held order false = [] := by
        rw [OrderBook.held, Bool.and_false]
        rfl
      show _ = ((core.bookFor symbol).stopOrders ++ (core.bookFor symbol).held order false).filter _ ∧
        [].Perm (orderIds (((core.bookFor symbol).stopOrders
          ++ (core.bookFor symbol).held order false).filter _))
      rw [hheld, List.append_nil]
      constructor
      · exact (List.filter_eq_self.mpr fun o _ => rfl).symm
      · have hnone : (core.bookFor symbol).stopOrders.filter
            (reached (fillPrices [walFailedReport order.orderId error])) = [] :=
          List.filter_eq_nil_iff.mpr fun o _ => Bool.false_ne_true
        rw [hnone]
        exact List.Perm.refl _
  | @submitted _ _ _ _ logged _ _ book append traded inv =>
      have hafter : (Core.afterTrades codec ⟨core.books.insert (normalizeSymbol symbol) book,
          logged.persistence⟩ files (tradeCount report dropped)).bookFor symbol = book := by
        rw [Core.bookFor, afterTrades_books, SortedMap.find_insert, if_pos rfl]
        rfl
      obtain ⟨middle, _, _, hsubmitted, hcascaded⟩ := traded.steps
      have hmiddle := hsubmitted.pending (hinv.bookFor symbol)
      have hprices : fillPrices (report :: dropped) = fillPrices [report] ++ fillPrices dropped := by
        rw [← fillPrices_append]
        rfl
      rw [hafter, hprices, ← hmiddle]
      exact ⟨hcascaded.pending, hcascaded.setOff⟩

/-- A stop order without a stop price. -/
def unpricedStop : Order := Order.new "stop" "u1" .buy .stopLimit (some 100) none 1

/-- **A stop order that is refused** is not appended. -/
theorem refused_stop_not_appended :
    ∃ report dropped core',
      Core.new.submitOrder fractionCodec filesOk (fun _ => "trade") "BTC-USDT" unpricedStop
        = .ok (report, dropped, core') ∧
      (core'.bookFor "BTC-USDT").stopOrders
        ≠ ((Core.new.bookFor "BTC-USDT").stopOrders ++ [{ unpricedStop with sequence := 1 }]).filter
            (fun o => !reached (fillPrices (report :: dropped)) o) := by
  refine ⟨OrderBook.rejected "stop" "stop orders require stop_price", [],
    ⟨(SortedMap.empty.insert "BTC-USDT" .default), none⟩, by decide +kernel, by decide +kernel⟩

end NexusTrade.MatchingEngine
