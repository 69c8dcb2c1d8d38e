import NexusTrade.MatchingEngine.Origins
import NexusTrade.MatchingEngine.StopCascade

/-!
# The terms of a trade

Every fill keeps to the terms under which its two orders were submitted.

* **`Terms`** are the terms of a fill between two orders, **`Legal`** says that the orders that a fill names were
  submitted and that it keeps to their terms;
* **`Awaited`**: a pending stop order has the terms of a submitted one;
* **`Called.legal`** is the step, **`run_legal`** the theorem on runs.
-/

namespace NexusTrade.MatchingEngine

/-! ### The terms of a fill -/

/-- A price is no worse for an order than its limit. -/
def WithinLimit (o : Order) (price : Decimal) : Prop :=
  ∃ limit, o.price = some limit ∧
    match o.side with
    | .buy => price ≤ limit
    | .sell => limit ≤ price

/-- A call sets a stop order off: it triggers the stops at a price that has reached the stop price. -/
def SetOffBy (o : Order) : BookOp → Prop
  | .triggerStops _ lastPrice => ∃ stopPrice, o.stopPrice = some stopPrice ∧
    match o.side with
    | .buy => stopPrice ≤ lastPrice
    | .sell => lastPrice ≤ stopPrice
  | _ => False

/-- **The terms of a fill** between a maker and a taker, as they were submitted, in a call. -/
structure Terms (op : BookOp) (maker taker : Order) (f : Fill) : Prop where
  quantity : 0 < f.quantity
  users : f.makerUserId ≠ f.takerUserId
  makerPrice : maker.price = some f.price
  takerLimit : taker.kind ∈ [OrderKind.limit, .ioc, .fok, .stopLimit] → WithinLimit taker f.price
  takerStop : taker.kind.isStop = true → SetOffBy taker op
  takerMakes : taker.kind ≠ .postOnly

/-- **A legal fill**: both of its orders were submitted, and it keeps to their terms. -/
structure Legal (orders : List Order) (op : BookOp) (f : Fill) : Prop where
  submitted : f.makerOrderId ∈ orderIds orders ∧ f.takerOrderId ∈ orderIds orders
  terms : ∀ maker ∈ orders, ∀ taker ∈ orders, maker.orderId = f.makerOrderId → taker.orderId = f.takerOrderId →
    Terms op maker taker f

/-- An order with a limit crosses only prices within it. -/
theorem withinLimit_of_crosses {o : Order} {price : Decimal} (hkind : requiresPrice o.kind = true)
    (h : crosses o price = true) : WithinLimit o price := by
  have hmarket : o.kind ≠ .market := by
    intro hk
    rw [hk] at hkind
    cases hkind
  rw [WithinLimit]
  unfold crosses at h
  split at h
  · rename_i hk
    exact absurd hk hmarket
  · cases hprice : o.price with
    | none =>
        rw [hprice] at h
        cases hs : o.side <;> rw [hs] at h <;> cases h
    | some limit =>
        rw [hprice] at h
        cases hs : o.side <;> rw [hs] at h <;> exact ⟨limit, rfl, of_decide_eq_true h⟩

/-- The terms follow from what is known of a fill, where the orders have different identifiers. -/
theorem Matched.legal {orders : List Order} (hids : (orderIds orders).Nodup) {maker taker : Order} {op : BookOp}
    {f : Fill} (hmaker : maker ∈ orders) (htaker : taker ∈ orders) (hm : Matched maker taker f)
    (hstop : taker.kind.isStop = true → SetOffBy taker op) (hpost : taker.kind ≠ .postOnly) : Legal orders op f := by
  refine ⟨⟨?_, ?_⟩, fun maker' hmaker' taker' htaker' hmid htid => ?_⟩
  · rw [hm.makerOrderId]
    exact mem_orderIds hmaker
  · rw [hm.takerOrderId]
    exact mem_orderIds htaker
  · obtain rfl : maker' = maker := List.inj_on_of_nodup_map hids hmaker' hmaker (hmid.trans hm.makerOrderId)
    obtain rfl : taker' = taker := List.inj_on_of_nodup_map hids htaker' htaker (htid.trans hm.takerOrderId)
    refine ⟨hm.quantity, ?_, hm.makerPrice, fun hkind => ?_, hstop, hpost⟩
    · rw [hm.makerUserId, hm.takerUserId]
      exact hm.users
    · have hpriced : requiresPrice taker'.kind = true := by
        cases hk : taker'.kind <;> rw [hk] at hkind <;> first | rfl | simp at hkind
      exact withinLimit_of_crosses hpriced (hm.takerPrice hpriced)

/-! ### One call -/

/-- **Pending stop orders** have the terms of submitted ones. -/
def Awaited (orders : List Order) (book : OrderBook) : Prop :=
  ∀ o ∈ book.stopOrders, ∃ s ∈ orders, s.orderId = o.orderId ∧ s.side = o.side ∧ s.stopPrice = o.stopPrice

section Call

variable {book book' : OrderBook} {op : BookOp} {reply : BookReply} {orders : List Order}

/-- What waits after a call waited before it, or is submitted. -/
theorem Called.awaited (hc : Called book op reply book') (hinv : Inv book) (h : Awaited orders book)
    (hop : ∀ uuid o, op = .submit uuid o → o ∈ orders) : Awaited orders book' := by
  intro o ho
  cases hc with
  | @submitted uuid order report book' result =>
      rw [result.pending hinv] at ho
      rcases List.mem_append.mp ho with ho | ho
      · exact h o ho
      · rw [OrderBook.held] at ho
        split at ho
        · rw [List.mem_singleton.mp ho]
          exact ⟨order, hop uuid order rfl, rfl, rfl, rfl⟩
        · cases ho
  | cancelled result => exact h o (result.stopOrders_subset ho)
  | triggered result =>
      rw [result.frame.1] at ho
      exact h o (List.mem_filter.mp ho).1

/-- The taker of a fill of triggered orders is one of them. -/
theorem ExecutedAll.taker {uuid : UuidSource} {os : List Order} {reports : List ExecutionReport}
    (hx : ExecutedAll uuid book os reports book') {f : Fill} (hf : f ∈ reports.flatMap ExecutionReport.fills) :
    ∃ o ∈ os, f.takerOrderId = o.orderId := by
  induction hx with
  | nil uuid book => cases hf
  | @cons uuid book middle book' o os report reports inv ready returned head tail ih =>
      rw [List.flatMap_cons] at hf
      rcases List.mem_append.mp hf with hf | hf
      · have hmem : f.toTrade ∈ book.sweepTrades o := by
          rw [← executed_trades head inv ready.admissible]
          exact List.mem_map_of_mem hf
        obtain ⟨p, _, htrade⟩ := List.mem_map.mp hmem
        exact ⟨o, List.mem_cons_self, (congrArg Trade.takerOrderId htrade).symm⟩
      · obtain ⟨o', ho', htaker⟩ := ih hf
        exact ⟨o', List.mem_cons_of_mem _ ho', htaker⟩

/-- A stop order that a price sets off. -/
theorem setOffBy_of_triggered {o : Order} {uuid : UuidSource} {lastPrice : Decimal}
    (h : triggered lastPrice o = true) : SetOffBy o (.triggerStops uuid lastPrice) := by
  rw [triggered] at h
  cases hstop : o.stopPrice with
  | none =>
      rw [hstop] at h
      cases h
  | some stopPrice =>
      rw [hstop] at h
      refine ⟨stopPrice, hstop, ?_⟩
      cases hside : o.side with
      | buy =>
          rw [hside] at h
          exact of_decide_eq_true h
      | sell =>
          rw [hside] at h
          exact of_decide_eq_true h

/-- An order that does not cross the best price reaches nothing. -/
theorem sweepTrades_of_not_wouldCross {o : Order} (hinv : Inv book) (h : book.wouldCross o = false) :
    book.sweepTrades o = [] := by
  have hreachable : book.reachable o = [] := by
    rw [List.eq_nil_iff_forall_not_mem]
    intro r hr
    obtain ⟨hcross, _⟩ := OrderBook.reachable_trades hr
    obtain ⟨_, _, price, l, hprice, hl, _⟩ := hinv.opposing (OrderBook.reachable_subset hr)
    rw [hprice] at hcross
    rw [OrderBook.wouldCross] at h
    cases hbest : book.bestPrice o.side with
    | none =>
        rw [book.level_of_bestPrice_none hbest] at hl
        cases hl
    | some best =>
        rw [hbest] at h
        have hcross' := OrderBook.crosses_of_betterOrEqual (book.bestPrice_best hbest hl) hcross
        rw [show crosses o best = false from h] at hcross'
        cases hcross'
  rw [OrderBook.sweepTrades, hreachable]
  rfl

/-- **The fills of a call are legal.** -/
theorem Called.legal (hc : Called book op reply book') (hinv : Inv book) (hids : (orderIds orders).Nodup)
    (hop : ∀ uuid o, op = .submit uuid o → o ∈ orders) (hqueued : AllQueued (Resting orders) book)
    (hpending : ∀ o ∈ book.stopOrders, ∃ s ∈ orders, StemsFrom s o ∧ s.kind.isStop = true)
    (hawaited : Awaited orders book) : ∀ f ∈ reply.fills, Legal orders op f := by
  have hsourced := hc.sourced hinv hop hqueued hpending
  intro f hf
  rw [reply.fills_eq] at hf
  rcases List.mem_append.mp hf with hf | hf
  · obtain ⟨maker, hmaker, taker, htaker, hm, hstop⟩ := hsourced.own f hf
    refine hm.legal hids hmaker htaker (fun hk => ?_) fun hk => ?_
    · rw [hstop] at hk
      cases hk
    -- the taker is the order that was submitted, and a post-only order that gets to the loop crosses nothing
    · cases hc with
      | cancelled result => cases hf
      | triggered result => cases hf
      | @submitted uuid order report book' result =>
          have hsame : taker = order := by
            refine List.inj_on_of_nodup_map hids htaker (hop uuid order rfl) ?_
            obtain ⟨_, _, heq, htid⟩ := (Called.submitted result).ownFills_taker hinv hf
            cases heq
            exact hm.takerOrderId.symm.trans htid
          have hmem : f.toTrade ∈ book.expectedTrades order := by
            rw [← submitted_trades result hinv]
            exact List.mem_map_of_mem hf
          rw [OrderBook.expectedTrades] at hmem
          split at hmem
          · rename_i henters
            have hcross := (OrderBook.enters_iff.mp henters).2.2.1 (hsame ▸ hk)
            rw [sweepTrades_of_not_wouldCross hinv hcross] at hmem
            cases hmem
          · cases hmem
  · obtain ⟨maker, hmaker, taker, htaker, hm, hstop⟩ := hsourced.triggered f hf
    refine hm.legal hids hmaker htaker (fun _ => ?_) fun hk => ?_
    · cases hc with
      | submitted result => cases hf
      | cancelled result => cases hf
      | @triggered uuid lastPrice reports book' result =>
          obtain ⟨o, ho, htid⟩ := result.taker hf
          obtain ⟨p, hp, rfl⟩ := List.mem_map.mp ho
          obtain ⟨hp, htriggered⟩ := List.mem_filter.mp hp
          obtain ⟨s, hs, hid, hside, hstopPrice⟩ := hawaited p hp
          obtain rfl : taker = s :=
            List.inj_on_of_nodup_map hids htaker hs ((hm.takerOrderId.symm.trans htid).trans hid.symm)
          refine setOffBy_of_triggered ?_
          rw [MatchingEngine.triggered, hstopPrice, hside]
          exact htriggered
    · rw [hk] at hstop
      cases hstop

end Call

/-! ### Runs -/

/-- **Every fill is legal for both parties**, in every run of orders with different identifiers. -/
theorem run_legal (ops : List BookOp) (hids : (orderIds (submittedOrders ops)).Nodup) :
    ∃ replies book, bookRun ops = .ok (replies, book) ∧ ops.length = replies.length ∧
      ∀ p ∈ ops.zip replies, ∀ f ∈ p.2.fills, Legal (submittedOrders ops) p.1 f := by
  obtain ⟨replies, book, hrun, _⟩ := bookRun_spec ops
  generalize hall : submittedOrders ops = all at hids ⊢
  have hhistory := (bookRun_history (P := fun ops replies book => submittedOrders ops ⊆ all →
      AllQueued (Resting all) book ∧
      (∀ o ∈ book.stopOrders, ∃ s ∈ all, StemsFrom s o ∧ s.kind.isStop = true) ∧ Awaited all book ∧
      ops.length = replies.length ∧ ∀ p ∈ ops.zip replies, ∀ f ∈ p.2.fills, Legal all p.1 f) ?_ ?_ hrun).2
  · obtain ⟨_, _, _, hlength, hlegal⟩ := hhistory (hall ▸ List.Subset.refl _)
    exact ⟨replies, book, hrun, hlength, hlegal⟩
  · intro _
    refine ⟨fun side price l hl => ?_, fun o ho => ?_, fun o ho => ?_, rfl, fun p hp => ?_⟩
    · cases side <;> cases hl
    · cases ho
    · cases ho
    · cases hp
  · intro ops replies book op reply book' hinv hP hc hsub
    rw [submittedOrders_append] at hsub
    obtain ⟨hqueued, hpending, hawaited, hlength, hlegal⟩ := hP fun o ho => hsub (List.mem_append_left _ ho)
    have hop : ∀ uuid o, op = .submit uuid o → o ∈ all := by
      rintro uuid o rfl
      exact hsub (List.mem_append_right _ (List.mem_singleton_self o))
    have hsourced := hc.sourced hinv hop hqueued hpending
    refine ⟨hsourced.queued, hsourced.pending, hc.awaited hinv hawaited hop, by simp [hlength], fun p hp => ?_⟩
    rw [List.zip_append hlength] at hp
    rcases List.mem_append.mp hp with hp | hp
    · exact hlegal p hp
    · rw [List.mem_singleton.mp hp]
      exact hc.legal hinv hids hop hqueued hpending hawaited

/-- A stop-limit order is set off by a trade and takes what is left of the offer. -/
def stopAfterTrade : List BookOp :=
  [.submit (fun _ => "trade-1") (Order.new "stop-buy" "u1" .buy .stopLimit (some 101) (some 100) 1),
    .submit (fun _ => "trade-2") (Order.limit "ask-1" "u2" .sell 100 2),
    .submit (fun _ => "trade-3") (Order.limit "bid-1" "u3" .buy 100 1),
    .triggerStops (fun _ => "trade-4") 100]

theorem run_legal_stopAfterTrade :
    ∃ replies book, bookRun stopAfterTrade = .ok (replies, book) ∧
      (replies.flatMap BookReply.fills).map Fill.takerOrderId = ["bid-1", "stop-buy"] ∧
      ∀ p ∈ stopAfterTrade.zip replies, ∀ f ∈ p.2.fills, Legal (submittedOrders stopAfterTrade) p.1 f := by
  obtain ⟨replies, book, hrun, _, hlegal⟩ := run_legal stopAfterTrade (by decide +kernel)
  have htakers : (bookRun stopAfterTrade).map (fun r => (r.1.flatMap BookReply.fills).map Fill.takerOrderId)
      = .ok ["bid-1", "stop-buy"] := by decide +kernel
  rw [hrun] at htakers
  exact ⟨replies, book, hrun, Except.ok.inj htakers, hlegal⟩

end NexusTrade.MatchingEngine
