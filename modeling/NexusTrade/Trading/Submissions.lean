import NexusTrade.Trading.Effects

/-!
# What has reached the engine

The submissions that have reached the books of the engine, each of its own order.

* **`Engaged`**: the book of every symbol is that of a run of these submissions, and of cancellations;
* **`Engaged.matched`**: a fill that names an order is between it and another one;
* **`Engaged.live`**: what is live has been submitted;
* **`Engaged.traded`** and **`Engaged.cancelled`**: one submission, and one cancellation, more.
-/

namespace NexusTrade.Trading

open MatchingEngine (Decimal Fill ExecutionReport Core CoreInv UuidSource OrderBook History Matched Traded Cancelled
  orderIds filledOf fillsOf)

/-- The identifier of the order that is submitted. -/
def Handled.id (handled : Handled) : String := handled.request.orderId

/-- The orders that have reached the book of a symbol. -/
def requestsAt (handled : List Handled) (symbol : String) : List MatchingEngine.Order :=
  (handled.filter fun h => h.symbol = symbol).map Handled.request

/-- The fills that have been made in the book of a symbol, those of stop orders among them. -/
def fillsAt (handled : List Handled) (symbol : String) : List Fill :=
  (handled.filter fun h => h.symbol = symbol).flatMap fun h => h.fills ++ h.dropped

/-- **The engine and the submissions that have reached it**, of different orders. -/
structure Engaged (remote : Remote) : Prop where
  inv : CoreInv remote.engine
  history : ∀ symbol, History (bookOf remote.engine symbol) (requestsAt remote.handled symbol)
    (fillsAt remote.handled symbol)
  ids : (remote.handled.map Handled.id).Nodup
  built : ∀ h ∈ remote.handled, h.request.Built

/-- An order that rests or waits in the book of a symbol. -/
def LiveAt (remote : Remote) (symbol id : String) : Prop := id ∈ orderIds (bookOf remote.engine symbol).liveOrders

section Lists

variable {handled : List Handled} {symbol : String} {h : Handled}

theorem mem_requestsAt {request : MatchingEngine.Order} :
    request ∈ requestsAt handled symbol ↔ ∃ h ∈ handled, h.symbol = symbol ∧ h.request = request := by
  constructor
  · intro hmem
    obtain ⟨h, hh, heq⟩ := List.mem_map.mp hmem
    obtain ⟨hh, hsymbol⟩ := List.mem_filter.mp hh
    exact ⟨h, hh, of_decide_eq_true hsymbol, heq⟩
  · rintro ⟨h, hh, hsymbol, heq⟩
    exact List.mem_map.mpr ⟨h, List.mem_filter.mpr ⟨hh, decide_eq_true hsymbol⟩, heq⟩

theorem mem_requestIds {id : String} :
    id ∈ orderIds (requestsAt handled symbol) ↔ ∃ h ∈ handled, h.symbol = symbol ∧ h.id = id := by
  constructor
  · intro hmem
    obtain ⟨request, hrequest, rfl⟩ := List.mem_map.mp hmem
    obtain ⟨h, hh, hsymbol, rfl⟩ := mem_requestsAt.mp hrequest
    exact ⟨h, hh, hsymbol, rfl⟩
  · rintro ⟨h, hh, hsymbol, rfl⟩
    exact List.mem_map_of_mem (mem_requestsAt.mpr ⟨h, hh, hsymbol, rfl⟩)

theorem mem_fillsAt {f : Fill} (hh : h ∈ handled) (hf : f ∈ h.fills ++ h.dropped) : f ∈ fillsAt handled h.symbol :=
  List.mem_flatMap.mpr ⟨h, List.mem_filter.mpr ⟨hh, decide_eq_true rfl⟩, hf⟩

/-- One submission more. -/
theorem requestsAt_snoc (last : Handled) :
    requestsAt (handled ++ [last]) symbol
      = requestsAt handled symbol ++ if last.symbol = symbol then [last.request] else [] := by
  rw [requestsAt, List.filter_append, List.map_append, List.filter_singleton]
  by_cases hsame : last.symbol = symbol
  · rw [if_pos hsame, decide_eq_true hsame]
    rfl
  · rw [if_neg hsame, decide_eq_false hsame]
    rfl

theorem fillsAt_snoc (last : Handled) :
    fillsAt (handled ++ [last]) symbol
      = fillsAt handled symbol ++ if last.symbol = symbol then last.fills ++ last.dropped else [] := by
  rw [fillsAt, List.filter_append, List.flatMap_append, List.filter_singleton]
  by_cases hsame : last.symbol = symbol
  · rw [if_pos hsame, decide_eq_true hsame]
    exact congrArg (_ ++ ·) (List.append_nil _)
  · rw [if_neg hsame, decide_eq_false hsame]
    rfl

end Lists

namespace Engaged

variable {remote : Remote} {symbol id : String} {h : Handled} {f : Fill}

theorem unique (he : Engaged remote) {h' : Handled} (hh : h ∈ remote.handled) (hh' : h' ∈ remote.handled)
    (hid : h.id = h'.id) : h = h' := List.inj_on_of_nodup_map he.ids hh hh' hid

/-- The orders that have reached a book are different ones. -/
theorem request_ids (he : Engaged remote) (symbol : String) : (orderIds (requestsAt remote.handled symbol)).Nodup := by
  rw [orderIds, requestsAt, List.map_map]
  exact he.ids.sublist (List.filter_sublist.map _)

/-- A fill is one of the book of a submission. -/
theorem named (he : Engaged remote) (hf : f ∈ remote.fills) (hnames : f.names id = true) :
    ∃ h ∈ remote.handled, h.id = id ∧ f ∈ fillsAt remote.handled h.symbol := by
  obtain ⟨g, hg, hfg⟩ := List.mem_flatMap.mp hf
  have hfills := mem_fillsAt hg (List.mem_append_left g.dropped hfg)
  obtain ⟨h, hh, hsymbol, hid⟩ := mem_requestIds.mp ((he.history g.symbol).submitted hfills hnames)
  exact ⟨h, hh, hid, hsymbol ▸ hfills⟩

/-- **A fill that names an order** is between it and another one. -/
theorem matched (he : Engaged remote) (hh : h ∈ remote.handled) (hf : f ∈ remote.fills) (hnames : f.names h.id = true) :
    ∃ maker taker, Matched maker taker f ∧
      (maker = h.request ∨ taker = h.request ∧ maker.orderId ≠ h.id) := by
  obtain ⟨h', hh', hid, hfills⟩ := he.named hf hnames
  obtain rfl := he.unique hh' hh hid
  exact (he.history h'.symbol).matched (he.request_ids h'.symbol) (mem_requestsAt.mpr ⟨h', hh, rfl, rfl⟩) hfills hnames

theorem pos (he : Engaged remote) (hf : f ∈ remote.fills) : 0 < f.quantity := by
  obtain ⟨g, hg, hfg⟩ := List.mem_flatMap.mp hf
  exact (he.history g.symbol).pos f (mem_fillsAt hg (List.mem_append_left g.dropped hfg))

/-- **What is live has been submitted**, and is no market order. -/
theorem live (he : Engaged remote) (hlive : LiveAt remote symbol id) :
    ∃ h ∈ remote.handled, h.symbol = symbol ∧ h.id = id ∧ h.request.kind ≠ .market := by
  obtain ⟨s, hs, hid, hkind⟩ := (he.history symbol).sources.live hlive
  obtain ⟨h, hh, hsymbol, rfl⟩ := mem_requestsAt.mp hs
  exact ⟨h, hh, hsymbol, hid, hkind⟩

/-- Nothing has been submitted. -/
theorem start (wallet : Wallet.Database) (persistence : Option MatchingEngine.Persistence) :
    Engaged (Trading.start wallet persistence).remote where
  inv := MatchingEngine.coreInv_empty persistence
  history := fun symbol => by
    have hbook : bookOf (Trading.start wallet persistence).remote.engine symbol = .default := by
      rw [bookOf, Trading.start, SortedMap.find_empty]
      rfl
    rw [hbook]
    exact MatchingEngine.history_default
  ids := List.nodup_nil
  built := fun h hh => nomatch hh

/-! ### One call more -/

variable {engine : Core} {book : OrderBook}

/-- An order that has not been submitted is not live, and no fill names it. -/
theorem not_live (he : Engaged remote) (hid : id ∉ remote.handled.map Handled.id) : ¬LiveAt remote symbol id := by
  intro hlive
  obtain ⟨h, hh, -, rfl, -⟩ := he.live hlive
  exact hid (List.mem_map_of_mem hh)

theorem not_named (he : Engaged remote) (hid : id ∉ remote.handled.map Handled.id) (hf : f ∈ remote.fills) :
    f.names id = false := by
  rw [← Bool.not_eq_true]
  intro hnames
  obtain ⟨h, hh, rfl, -⟩ := he.named hf hnames
  exact hid (List.mem_map_of_mem hh)

/-- **The fills of a new order** are between it, as the taker, and orders that are live. -/
theorem incoming (he : Engaged remote) {source : UuidSource} {request : MatchingEngine.Order}
    {report : ExecutionReport} {dropped : List ExecutionReport}
    (htraded : Traded source (bookOf remote.engine symbol) request report dropped book)
    (hnew : request.orderId ∉ remote.handled.map Handled.id) (hf : f ∈ report.fills) :
    f.takerOrderId = request.orderId ∧ f.makerOrderId ≠ request.orderId ∧ 0 < f.quantity := by
  have hinv := (he.history symbol).inv
  obtain ⟨-, hown, -⟩ := htraded.sources hinv ((he.history symbol).selfSources.mono (List.subset_append_left _ [request]))
    (List.mem_append_right _ (List.mem_singleton_self request))
  obtain ⟨maker, hmaker, taker, htaker, hm, -⟩ := hown f hf
  obtain ⟨middle, -, -, hsubmitted, -⟩ := htraded.steps
  have htid := MatchingEngine.submitted_taker hinv hsubmitted hf
  have hlive : ∀ o ∈ (bookOf remote.engine symbol).liveOrders, o.orderId ≠ request.orderId := by
    intro o ho hid
    have hnot : ¬LiveAt remote symbol request.orderId := he.not_live hnew
    refine hnot ?_
    rw [← hid]
    exact List.mem_map_of_mem ho
  refine ⟨htid, ?_, hm.quantity⟩
  rw [hm.makerOrderId]
  rcases List.mem_append.mp hmaker with hmaker | hmaker
  · exact hlive maker hmaker
  · rw [List.mem_singleton] at hmaker
    rcases List.mem_append.mp htaker with htaker | htaker
    · exact absurd (hm.takerOrderId.symm.trans htid) (hlive taker htaker)
    · rw [List.mem_singleton] at htaker
      exact absurd (by rw [hmaker, htaker]) hm.users

/-- **One submission more.** -/
theorem traded (he : Engaged remote) {source : UuidSource} {request : MatchingEngine.Order} {report : ExecutionReport}
    {dropped : List ExecutionReport} (hinv : CoreInv engine)
    (htraded : Traded source (bookOf remote.engine symbol) request report dropped book)
    (hbooks : engine.books = remote.engine.books.insert symbol book) (hbuilt : request.Built)
    (hnew : request.orderId ∉ remote.handled.map Handled.id) :
    Engaged { remote with
      engine := engine
      handled := remote.handled ++ [⟨symbol, request, report.accepted, report.fills, fillsOf dropped⟩] } where
  inv := hinv
  history := fun symbol' => by
    show History (bookOf engine symbol') (requestsAt (remote.handled ++ [_]) symbol')
      (fillsAt (remote.handled ++ [_]) symbol')
    rw [bookOf_insert hbooks, requestsAt_snoc, fillsAt_snoc]
    by_cases hsame : symbol' = symbol
    · rw [if_pos hsame, if_pos hsame.symm, if_pos hsame.symm, hsame]
      exact htraded.history (he.history symbol)
    · rw [if_neg hsame, if_neg (Ne.symm hsame), if_neg (Ne.symm hsame), List.append_nil, List.append_nil]
      exact he.history symbol'
  ids := by
    show ((remote.handled ++ [_]).map Handled.id).Nodup
    rw [List.map_append, List.nodup_append]
    refine ⟨he.ids, List.nodup_singleton _, fun id hid id' hid' heq => hnew ?_⟩
    obtain rfl : id' = request.orderId := List.mem_singleton.mp hid'
    exact heq ▸ hid
  built := fun h hh => by
    rcases List.mem_append.mp hh with hh | hh
    · exact he.built h hh
    · rw [List.mem_singleton.mp hh]
      exact hbuilt

/-- **A cancellation.** -/
theorem cancelled (he : Engaged remote) {orderId userId : String} {done : Bool} (hinv : CoreInv engine)
    (hcancel : (bookOf remote.engine symbol).cancel orderId userId = .ok (done, book))
    (hbooks : engine.books = remote.engine.books.insert symbol book) : Engaged { remote with engine := engine } where
  inv := hinv
  history := fun symbol' => by
    show History (bookOf engine symbol') _ _
    rw [bookOf_insert hbooks]
    by_cases hsame : symbol' = symbol
    · rw [if_pos hsame, hsame]
      exact (he.history symbol).cancelled hcancel
    · rw [if_neg hsame]
      exact he.history symbol'
  ids := he.ids
  built := he.built

end Engaged

end NexusTrade.Trading
