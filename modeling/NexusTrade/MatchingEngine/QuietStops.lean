import NexusTrade.MatchingEngine.Reported
import NexusTrade.MatchingEngine.Splitting

/-!
# Stop orders that find nothing

When the stop orders that a call sets off trade nothing, by the book before the call.

* **`OrderBook.setsOff`**: the stop orders that the trades of a submission set off;
* **`OrderBook.frontAfter`**: what a submission leaves in front of each side;
* **`QuietSubmission`**: none of these stop orders can trade with what is in front, nor with one of them that comes to
  rest before;
* **`Executed.fronts`**: what one order through the loop does to the orders in front, and **`ExecutedAll.quiet`** and
  **`Cascaded.quiet`**: so a quiet cascade makes no fill;
* **`executed_are_reported`**: in every run of quiet calls every executed fill is in exactly one returned report.
-/

namespace NexusTrade.MatchingEngine

/-! ### The stop orders that are set off -/

/-- The stop orders that prices set off, one price after another. -/
def setOffs : List Order → List Decimal → List Order
  | _, [] => []
  | stops, lastPrice :: prices =>
      stops.filter (triggered lastPrice) ++ setOffs (stops.filter fun o => !triggered lastPrice o) prices

/-- The stop orders that the trades of a submission set off: the cascade takes the price of the last trade first. -/
def OrderBook.setsOff (book : OrderBook) (order : Order) : List Order :=
  setOffs book.stopOrders ((book.expectedTrades order).map Trade.price).reverse

/-! ### The orders in front -/

/-- What is left of an order that gets to the loop comes to rest. -/
def OrderBook.leavesRest (book : OrderBook) (o : Order) : Bool :=
  !decide (o.kind = .market ∨ o.kind = .ioc ∨ o.kind = .fok) && decide (book.reach o < o.remainingQuantity) &&
    !book.stopsAtOwn o

/-- What a submission leaves in front of the orders of a side: the first of the opposing orders that it has not
taken, or, on the other side, the first one and the order itself. -/
def OrderBook.frontAfter (book : OrderBook) (order : Order) (side : Side) : List Order :=
  if side = order.side then (book.sweepLeft order).head?.toList
  else (book.opposingOrders side).head?.toList ++ if book.leavesRest order then [order] else []

/-- An order keeps to the front of a side where one of its price and its user is listed. -/
def Listed (front : Side → List Order) (side : Side) (r : Order) : Prop :=
  ∃ f ∈ front side, f.price = r.price ∧ f.userId = r.userId

/-- Whoever is in front of a side is listed. -/
def FrontIn (book : OrderBook) (front : Side → List Order) : Prop :=
  ∀ side, ∀ r ∈ (book.opposingOrders side).head?, Listed front side r

theorem tradesWith_congr {o r r' : Order} (hprice : r.price = r'.price) (huser : r.userId = r'.userId) :
    tradesWith o r = tradesWith o r' := by
  rw [tradesWith, tradesWith, hprice, huser]

/-- An order that cannot trade with who is in front trades nothing. -/
theorem sweepTrades_of_front {book : OrderBook} {o : Order}
    (h : ∀ r ∈ (book.opposingOrders o.side).head?, tradesWith o r = false) :
    book.reachable o = [] ∧ book.sweepTrades o = [] := by
  have hnone : book.reachable o = [] := by
    rw [OrderBook.reachable]
    cases hopposing : book.opposingOrders o.side with
    | nil => rfl
    | cons r rest =>
        rw [List.takeWhile_cons_of_neg]
        rw [h r (by rw [hopposing]; rfl)]
        exact Bool.false_ne_true
  refine ⟨hnone, ?_⟩
  rw [OrderBook.sweepTrades, hnone]
  rfl

theorem FrontIn.sweepTrades {book : OrderBook} {front : Side → List Order} (h : FrontIn book front) {o : Order}
    (hquiet : ∀ f ∈ front o.side, tradesWith o f = false) :
    book.reachable o = [] ∧ book.sweepTrades o = [] := by
  apply sweepTrades_of_front
  intro r hr
  obtain ⟨f, hf, hprice, huser⟩ := h o.side r hr
  rw [← tradesWith_congr hprice huser]
  exact hquiet f hf

/-! ### Coming to rest -/

/-- One order more in an entry of some levels, from the best price on or from the worst. -/
theorem flatMap_pushed {es es' pre mid post : List (Decimal × PriceLevel)} {p : Decimal} {level : PriceLevel}
    {o : Order} (hbefore : es = pre ++ mid ++ post) (hafter : es' = pre ++ (p, level) :: post)
    (hpushed : level.orders = mid.flatMap (fun e => e.2.orders) ++ [o]) :
    ∃ front back, es'.flatMap (fun e => e.2.orders) = front ++ o :: back ∧
      es.flatMap (fun e => e.2.orders) = front ++ back := by
  refine ⟨pre.flatMap (fun e => e.2.orders) ++ mid.flatMap fun e => e.2.orders,
    post.flatMap fun e => e.2.orders, ?_, ?_⟩
  · rw [hafter, List.flatMap_append, List.flatMap_cons, hpushed]
    simp only [List.append_assoc, List.singleton_append]
  · rw [hbefore, List.flatMap_append, List.flatMap_append]

/-- An order that comes to rest is put somewhere among those of its side. -/
theorem opposingOrders_restAt (book : OrderBook) (o : Order) (price : Decimal) :
    ∃ front back, (book.restAt o price).opposingOrders (opposite o.side) = front ++ o :: back ∧
      book.opposingOrders (opposite o.side) = front ++ back := by
  obtain ⟨pre, post, hafter, hbefore⟩ := (book.levels o.side).entries_insert price
    ((book.levelOrEmpty o.side price).push o)
  have hlevels := book.levels_restAt o price o.side
  rw [if_pos rfl] at hlevels
  rw [← hlevels] at hafter
  generalize hmid : ((book.levels o.side).find price).toList.map (fun l => (price, l)) = mid at hbefore
  have hqueue : (book.levelOrEmpty o.side price).orders = mid.flatMap fun e => e.2.orders := by
    rw [OrderBook.levelOrEmpty, OrderBook.level, ← hmid]
    cases (book.levels o.side).find price <;> simp [PriceLevel.empty]
  have hreverse : mid.reverse = mid := by
    rw [← hmid]
    cases (book.levels o.side).find price <;> rfl
  have hpushed : ((book.levelOrEmpty o.side price).push o).orders = mid.flatMap (fun e => e.2.orders) ++ [o] :=
    congrArg (· ++ [o]) hqueue
  have hopposing : ∀ b : OrderBook, b.opposingOrders (opposite o.side)
      = (if o.side = .buy then (b.levels o.side).entries.reverse else (b.levels o.side).entries).flatMap
          fun e => e.2.orders := by
    intro b
    cases o.side with
    | buy =>
        show ((b.bids.entries.map Prod.snd).reverse.flatMap fun l => l.orders) = _
        rw [← List.map_reverse, List.flatMap_map]
        rfl
    | sell =>
        show ((b.asks.entries.map Prod.snd).flatMap fun l => l.orders) = _
        rw [List.flatMap_map]
        rfl
  rw [hopposing, hopposing]
  by_cases hside : o.side = .buy
  · -- bids are taken from the highest price on
    rw [if_pos hside, if_pos hside]
    have hbefore' : (book.levels o.side).entries.reverse = post.reverse ++ mid ++ pre.reverse := by
      rw [hbefore, List.reverse_append, List.reverse_append, hreverse, List.append_assoc]
    have hafter' : ((book.restAt o price).levels o.side).entries.reverse
        = post.reverse ++ (price, (book.levelOrEmpty o.side price).push o) :: pre.reverse := by
      rw [hafter, List.reverse_append, List.reverse_cons, List.append_assoc, List.singleton_append]
    exact flatMap_pushed hbefore' hafter' hpushed
  · rw [if_neg hside, if_neg hside]
    exact flatMap_pushed hbefore hafter hpushed

/-- So whoever is in front then was in front before, or is the order. -/
theorem head?_opposingOrders_restAt {book : OrderBook} {o r : Order} {price : Decimal} {side : Side}
    (h : r ∈ ((book.restAt o price).opposingOrders side).head?) :
    r ∈ (book.opposingOrders side).head? ∨ (side = opposite o.side ∧ r = o) := by
  by_cases hside : side = opposite o.side
  · subst hside
    obtain ⟨front, back, hafter, hbefore⟩ := opposingOrders_restAt book o price
    rw [hafter] at h
    rw [hbefore]
    cases front with
    | nil => exact Or.inr ⟨rfl, (Option.some.inj h).symm⟩
    | cons r' front => exact Or.inl h
  · refine Or.inl ?_
    have hother : opposite side ≠ o.side := by
      intro heq
      rw [← heq] at hside
      cases side <;> exact hside rfl
    have hlevels := book.levels_restAt o price (opposite side)
    rw [if_neg hother] at hlevels
    rw [opposingOrders_congr hlevels] at h
    exact h

section Execution

variable {uuid : UuidSource} {book book' : OrderBook} {o : Order} {report : ExecutionReport}

/-- An order rests only where it reaches too little and no order of its user stands in its way. -/
theorem leavesRest_of_rested {t : MatchState} (hinv : Inv book) (ha : Admissible book o)
    (trades : Trades uuid (book.startMatch o) t) (exhausted : Exhausted t)
    (hsum : (t.fills.map Fill.quantity).sum = min o.remainingQuantity (book.reach o))
    (hleft : t.incoming.remainingQuantity ≠ 0)
    (hkind : t.incoming.kind ≠ .market ∧ t.incoming.kind ≠ .ioc ∧ t.incoming.kind ≠ .fok) :
    book.leavesRest o = true := by
  have hadd := fills_add_left trades
  have hpos : 0 < t.incoming.remainingQuantity :=
    lt_of_le_of_ne ((LoopInv.start hinv ha).trades trades).nonneg (Ne.symm hleft)
  have hreach : book.reach o < o.remainingQuantity := by
    rcases min_choice o.remainingQuantity (book.reach o) with hmin | hmin <;> rw [hsum, hmin] at hadd
    · linarith
    · linarith
  rw [trades_kind trades] at hkind
  rw [OrderBook.leavesRest, not_stopsAtOwn_of_exhausted hinv ha trades exhausted hleft, decide_eq_true hreach,
    decide_eq_false (by rintro (h | h | h) <;> simp_all)]
  rfl

/-- **What an order through the loop leaves in front.** -/
theorem Executed.fronts (hx : Executed uuid book o report book') (hinv : Inv book) (ha : Admissible book o) :
    FrontIn book' (book.frontAfter o) := by
  intro side r hr
  by_cases hside : side = o.side
  · subst hside
    rw [executed_leaves hx hinv ha] at hr
    refine ⟨r, ?_, rfl, rfl⟩
    rw [OrderBook.frontAfter, if_pos rfl]
    exact Option.mem_toList.mpr hr
  · have hopposite : opposite side = o.side := by
      cases side <;> cases ho : o.side <;> first | rfl | exact absurd ho.symm hside
    have hold : ∀ r ∈ (book.opposingOrders side).head?, Listed (book.frontAfter o) side r := by
      intro r hr
      refine ⟨r, ?_, rfl, rfl⟩
      rw [OrderBook.frontAfter, if_neg hside]
      exact List.mem_append_left _ (Option.mem_toList.mpr hr)
    have hsum := executed_quantity hx hinv ha
    cases hx with
    | blocked t trades inv blocked =>
        obtain ⟨price, level, resting, queue, hb⟩ := blocked
        have hlevels := (trades_leave_all hinv ha trades (Or.inr (reachable_blocked hb))).2
        rw [← hopposite] at hlevels
        have hexit : (OrderBook.selfTradeExit t).2.levels (opposite side) = book.levels (opposite side) :=
          (t.book.levels_setStatus _ _ _ _).trans hlevels
        rw [opposingOrders_congr hexit] at hr
        exact hold r hr
    | finished t trades inv exhausted st settled hsettled =>
        have hlevels := (trades_leave_all hinv ha trades
          (exhausted.imp_right fun hbeyond => reachable_beyond inv.book hbeyond)).2
        rw [← hopposite] at hlevels
        have hloop : ∀ r ∈ (t.book.opposingOrders side).head?, Listed (book.frontAfter o) side r := by
          rw [opposingOrders_congr hlevels]
          exact hold
        rw [opposingOrders_congr (settled.levels_close _ _ _ (opposite side))] at hr
        cases hsettled with
        | filled _ => exact hloop r hr
        | dropped _ _ => exact hloop r hr
        | expired _ _ => exact hloop r hr
        | rested hleft hkind price hprice =>
            rcases head?_opposingOrders_restAt hr with hr | ⟨_, rfl⟩
            · exact hloop r hr
            · have hin := trades_incoming trades
              refine ⟨o, ?_, by rw [hin]; rfl, by rw [hin]; rfl⟩
              rw [OrderBook.frontAfter, if_neg hside,
                leavesRest_of_rested hinv ha trades exhausted hsum hleft hkind, if_pos rfl]
              exact List.mem_append_right _ (List.mem_singleton_self o)

end Execution

/-! ### Quiet cascades -/

/-- **Stop orders that find nothing**: none of them can trade with what is in front of its side, nor with one set off
before it that may rest there. -/
structure QuietAll (front : Side → List Order) (stops : List Order) : Prop where
  resting : ∀ u ∈ stops, ∀ f ∈ front u.side, tradesWith (OrderBook.activate u) f = false
  among : stops.Pairwise fun v u => v.kind ≠ .stopMarket → u.side = opposite v.side →
    tradesWith (OrderBook.activate u) v = false

/-- What is in front once some stop orders have come to rest; those at the market never do. -/
def joined (front : Side → List Order) (stops : List Order) (side : Side) : List Order :=
  front side ++ stops.filter fun v => v.kind ≠ .stopMarket ∧ side = opposite v.side

theorem joined_append (front : Side → List Order) (stops stops' : List Order) :
    joined (joined front stops) stops' = joined front (stops ++ stops') := by
  funext side
  rw [joined, joined, joined, List.filter_append, List.append_assoc]

instance (front : Side → List Order) (stops : List Order) : Decidable (QuietAll front stops) :=
  decidable_of_iff ((∀ u ∈ stops, ∀ f ∈ front u.side, tradesWith (OrderBook.activate u) f = false) ∧
    stops.Pairwise fun v u => v.kind ≠ .stopMarket → u.side = opposite v.side →
      tradesWith (OrderBook.activate u) v = false) ⟨fun h => ⟨h.1, h.2⟩, fun h => ⟨h.resting, h.among⟩⟩

theorem QuietAll.append {front : Side → List Order} {stops stops' : List Order}
    (h : QuietAll front (stops ++ stops')) : QuietAll front stops ∧ QuietAll (joined front stops) stops' := by
  obtain ⟨hfirst, hrest, hacross⟩ := List.pairwise_append.mp h.among
  refine ⟨⟨fun u hu => h.resting u (List.mem_append_left _ hu), hfirst⟩, ⟨?_, hrest⟩⟩
  intro u hu f hf
  rcases List.mem_append.mp hf with hf | hf
  · exact h.resting u (List.mem_append_right _ hu) f hf
  · obtain ⟨hv, hrests⟩ := List.mem_filter.mp hf
    obtain ⟨hkind, hside⟩ := of_decide_eq_true hrests
    exact hacross f hv u hu hkind hside

section Cascade

variable {uuid : UuidSource} {book book' : OrderBook} {front : Side → List Order}

/-- A stop order that finds nothing makes no fill, and then is in front or is not. -/
theorem Executed.quiet {u : Order} {report : ExecutionReport}
    (hx : Executed uuid book (OrderBook.activate u) report book') (hinv : Inv book)
    (ha : Admissible book (OrderBook.activate u)) (hfront : FrontIn book front)
    (hquiet : ∀ f ∈ front u.side, tradesWith (OrderBook.activate u) f = false) :
    report.fills = [] ∧ FrontIn book' (joined front [u]) := by
  obtain ⟨hreach, hsweep⟩ := hfront.sweepTrades (o := OrderBook.activate u) hquiet
  have htrades := executed_trades hx hinv ha
  rw [hsweep] at htrades
  refine ⟨List.map_eq_nil_iff.mp htrades, fun side r hr => ?_⟩
  obtain ⟨f, hf, hprice, huser⟩ := hx.fronts hinv ha side r hr
  have hkept : f ∈ (book.opposingOrders side).head? → Listed (joined front [u]) side r := by
    intro hf
    obtain ⟨f', hf', hprice', huser'⟩ := hfront side f hf
    exact ⟨f', List.mem_append_left _ hf', hprice'.trans hprice, huser'.trans huser⟩
  rw [OrderBook.frontAfter] at hf
  split at hf
  · rename_i hside
    rw [sweepLeft_eq (Or.inr hreach), ← hside] at hf
    exact hkept (Option.mem_toList.mp hf)
  · rename_i hside
    rcases List.mem_append.mp hf with hf | hf
    · exact hkept (Option.mem_toList.mp hf)
    · split at hf
      · rename_i hrests
        cases List.mem_singleton.mp hf
        refine ⟨u, List.mem_append_right _ (List.mem_filter.mpr ⟨List.mem_singleton_self u, ?_⟩), hprice, huser⟩
        refine decide_eq_true ⟨fun hmarket => ?_, ?_⟩
        · simp [OrderBook.leavesRest, OrderBook.activate, hmarket] at hrests
        · have hne : side ≠ u.side := hside
          revert hne
          cases side <;> cases u.side <;> simp [opposite]
      · cases hf

/-- **Quiet stop orders make no fill**, one after another. -/
theorem ExecutedAll.quiet (stops : List Order) : ∀ {uuid : UuidSource} {book book' : OrderBook}
    {front : Side → List Order} {reports : List ExecutionReport},
    ExecutedAll uuid book (stops.map OrderBook.activate) reports book' → FrontIn book front →
      QuietAll front stops → fillsOf reports = [] ∧ FrontIn book' (joined front stops) := by
  induction stops with
  | nil =>
      intro uuid book book' front reports hx hfront _
      cases hx
      refine ⟨rfl, ?_⟩
      intro side r hr
      obtain ⟨f, hf, hsame⟩ := hfront side r hr
      exact ⟨f, List.mem_append_left _ hf, hsame⟩
  | cons u stops ih =>
      intro uuid book book' front reports hx hfront hquiet
      rw [List.map_cons] at hx
      have hboth : QuietAll front ([u] ++ stops) := hquiet
      obtain ⟨hhead, htail⟩ := hboth.append
      cases hx with
      | cons inv ready returned head tail =>
          obtain ⟨hfills, hfront₁⟩ := head.quiet inv ready.admissible hfront
            (hhead.resting u (List.mem_singleton_self u))
          obtain ⟨hrest, hfront'⟩ := ih tail hfront₁ htail
          rw [joined_append] at hfront'
          refine ⟨?_, hfront'⟩
          rw [fillsOf, List.flatMap_cons, hfills, List.nil_append]
          exact hrest

/-- **A quiet cascade makes no fill.** -/
theorem Cascaded.quiet {prices : List Decimal} {reports : List ExecutionReport}
    (h : Cascaded uuid book prices reports book') (hfront : FrontIn book front)
    (hquiet : QuietAll front (setOffs book.stopOrders prices.reverse)) : fillsOf reports = [] := by
  induction h generalizing front with
  | done _ _ => rfl
  | @step uuid book book' book'' prices lastPrice triggered more inv returned head _ ih =>
      rw [List.reverse_append, List.reverse_singleton, List.singleton_append, setOffs] at hquiet
      obtain ⟨hfirst, hrest⟩ := hquiet.append
      have hdrained : FrontIn (book.drained lastPrice) front := hfront
      obtain ⟨hfills, hfront'⟩ := ExecutedAll.quiet _ head hdrained hfirst
      have hnone : fillPrices triggered = [] := by
        rw [fillPrices, List.map_eq_nil_iff]
        exact hfills
      have hmore := ih hfront' (by
        rw [hnone, List.append_nil, head.frame.1]
        exact hrest)
      rw [fillsOf_append, hfills, hmore]
      rfl

end Cascade

/-! ### Quiet calls -/

/-- **A quiet submission**: no stop order that its trades set off finds an order to trade with. -/
def QuietSubmission (book : OrderBook) (order : Order) : Prop :=
  QuietAll (book.frontAfter order) (book.setsOff order)

instance (book : OrderBook) (order : Order) : Decidable (QuietSubmission book order) :=
  inferInstanceAs (Decidable (QuietAll _ _))

theorem Traded.quiet {uuid : UuidSource} {book book' : OrderBook} (hinv : Inv book) {order : Order}
    {report : ExecutionReport} {dropped : List ExecutionReport}
    (h : Traded uuid book order report dropped book') (hquiet : QuietSubmission book order) :
    fillsOf dropped = [] := by
  obtain ⟨middle, _, _, hsubmitted, hcascaded⟩ := h.steps
  have hprices : (book.expectedTrades order).map Trade.price = fillPrices [report] := by
    rw [← submitted_trades hsubmitted hinv, List.map_map, fillPrices, List.flatMap_singleton]
    rfl
  by_cases henters : book.enters order = true
  · have hx := hsubmitted.entered henters
    have ha := (OrderBook.enters_iff.mp henters).1
    apply hcascaded.quiet (hx.fronts hinv ha)
    rw [(hx.frame hinv ha).1, ← hprices]
    exact hquiet
  · -- an order that does not get to the loop trades nothing and sets off nothing
    rw [OrderBook.expectedTrades, if_neg henters] at hprices
    rw [← hprices] at hcascaded
    have hfront : FrontIn middle fun side => (middle.opposingOrders side).head?.toList :=
      fun side r hr => ⟨r, Option.mem_toList.mpr hr, rfl, rfl⟩
    exact hcascaded.quiet hfront ⟨fun u hu => absurd hu List.not_mem_nil, List.Pairwise.nil⟩

/-- **A quiet call**: its submission, if its record is written, is quiet. -/
def QuietCall (core : Core) : CoreOp → Prop
  | .submitOrder files _ symbol order =>
      core.persistence = none ∨ files.append = none → QuietSubmission (core.bookFor symbol) order
  | .cancelOrder _ _ _ _ => True
  | .snapshotToDisk _ => True

instance (core : Core) (op : CoreOp) : Decidable (QuietCall core op) :=
  match op with
  | .submitOrder _ _ _ _ => inferInstanceAs (Decidable (_ → _))
  | .cancelOrder _ _ _ _ => inferInstanceAs (Decidable True)
  | .snapshotToDisk _ => inferInstanceAs (Decidable True)

/-- **A quiet call drops no fill.** -/
theorem Served.quiet {codec : DecimalCodec} {core core' : Core} {op : CoreOp} {reply : CoreReply}
    (h : Served codec core op reply core') (hinv : CoreInv core) (hquiet : QuietCall core op) :
    reply.unreported = [] := by
  cases h with
  | submitFailed _ => rfl
  | @submitted files uuid s order logged report dropped book append traded inv =>
      exact traded.quiet (hinv.bookFor s) (hquiet (appendWal_ok append))
  | cancelFailed _ => rfl
  | cancelUnknown _ _ => rfl
  | cancelled _ _ _ _ _ => rfl
  | snapshot => rfl

/-- A run of quiet calls drops no fill. -/
theorem coreRun_quiet (codec : DecimalCodec) (ops : List CoreOp) :
    ∀ (core core' : Core) (replies : List CoreReply), CoreInv core →
      coreRun codec core ops = .ok (replies, core') → Machine.Along (Core.exec codec) QuietCall core ops →
      ∀ symbol, fillsIn CoreReply.unreported symbol ops replies = [] := by
  induction ops with
  | nil => intro core core' replies _ _ _ symbol; rfl
  | cons op ops ih =>
      intro core core' replies hinv hrun hquiet symbol
      obtain ⟨reply, middle, rest, hexec, hrest, rfl⟩ := Machine.run_cons_ok.mp hrun
      obtain ⟨hinv', hserved⟩ := core_exec_inv hinv hexec
      have hreply := hserved.quiet hinv hquiet.1
      rw [fillsIn_cons, hreply, ite_self, List.nil_append]
      exact ih middle core' rest hinv' hrest (hquiet.2 reply middle hexec) symbol

/-- A stop order with a limit, which the trade at its stop price sets off: the offer left is beyond its limit. -/
def stopFindsNothing : List CoreOp :=
  [.submitOrder filesOk (fun _ => "first") "BTC-USDT"
      (Order.new "stop-buy" "u1" .buy .stopLimit (some 101) (some 100) 1),
    .submitOrder filesOk (fun _ => "second") "BTC-USDT" (Order.limit "ask-1" "u2" .sell 100 1),
    .submitOrder filesOk (fun _ => "third") "BTC-USDT" (Order.limit "ask-2" "u2" .sell 102 1),
    .submitOrder filesOk (fun k => if k = 0 then "fourth" else "fifth") "BTC-USDT"
      (Order.limit "bid-1" "u3" .buy 100 1)]

end NexusTrade.MatchingEngine
