import NexusTrade.Trading.Locks
import NexusTrade.Trading.Objects

/-!
# The orders that the engine fills

The orders that rest in the books are among those that the service takes to be live, each with the same quantity
left.  The service may have others: an order that self-trade prevention stops does not rest, and is kept.

* **`Backs`**: the orders of the service back the books of the engine;
* **`Meets`**: an order meets a fill, with its price and enough left; **`FilledFrom`**: orders that are filled, one
  after the other;
* **`AnswerFor`**: what the engine answers to an order;
* **`submitOrder_backs`**: the orders of the service meet the fills of a submission, and back the books after it;
* **`cancelOrder_backs`**: an order that is cancelled is one of the service.
-/

namespace NexusTrade.Trading

open MatchingEngine (Side Decimal Fill ExecutionReport OrderBook MatchState Core CallFiles UuidSource DecimalCodec
  Inv LoopInv Simulates Trades CanTrade opposite requiresPrice crosses)
open MatchingEngine.Naive (OpenOrder fillOpen)

/-! ### Backed books -/

/-- **The orders back the books**: every order that rests is one of them, with the same quantity left. -/
def Backs (parse : DecimalParser) (orders : List StoredOrder) (engine : Core) : Prop :=
  ∀ symbol, ∃ opens, Simulates (bookOf engine symbol) opens ∧ opens ⊆ opensOf parse symbol orders

/-- The engine reads the prices of the orders as they are. -/
def Readable (parse : DecimalParser) (orders : List StoredOrder) : Prop :=
  ∀ order ∈ orders, ∃ price, order.price = some price ∧ parse price = some price

/-- An order that a fill can take, as the other side of an order that has come in. -/
structure Meets (order : StoredOrder) (fill : Fill) (maker : StoredOrder) : Prop where
  id : maker.id = fill.makerOrderId
  makerUser : fill.makerUserId = maker.userId
  takerUser : fill.takerUserId = order.userId
  side : maker.side = opposite order.side
  symbol : maker.symbol = order.symbol
  price : maker.price = some fill.price
  positive : 0 < fill.quantity
  left : fill.quantity ≤ maker.quantity - maker.filledQuantity
  within : order.side = .buy → ∀ limit, order.price = some limit → fill.price ≤ limit

/-- One of the orders meets a fill, and is no longer among them once it is filled. -/
inductive FilledOne (service : TradingService) (order : StoredOrder) (orders : List StoredOrder) (fill : Fill) :
    List StoredOrder → Prop
  | kept (pre post : List StoredOrder) (maker : StoredOrder) (found : orders = pre ++ maker :: post)
      (meets : Meets order fill maker) (opens : maker.filledQuantity + fill.quantity < maker.quantity) :
      FilledOne service order orders fill (pre ++ service.fillMaker maker (service.toTrade order fill) :: post)
  | filled (pre post : List StoredOrder) (maker : StoredOrder) (found : orders = pre ++ maker :: post)
      (meets : Meets order fill maker) (closes : maker.quantity ≤ maker.filledQuantity + fill.quantity) :
      FilledOne service order orders fill (pre ++ post)

/-- **Some of the orders meet the fills**, one after the other. -/
def FilledFrom (service : TradingService) (order : StoredOrder) :
    List StoredOrder → List Fill → List StoredOrder → Prop
  | orders, [], orders' => orders' = orders
  | orders, fill :: fills, orders' =>
    ∃ middle, FilledOne service order orders fill middle ∧ FilledFrom service order middle fills orders'

variable {parse : DecimalParser} {service : TradingService} {order : StoredOrder}
  {orders middle orders' : List StoredOrder} {fill : Fill} {fills : List Fill} {engine : Core}

theorem Backs.mono (h : Backs parse orders engine) (hsub : orders ⊆ orders') : Backs parse orders' engine := by
  intro symbol
  obtain ⟨opens, hsim, hopens⟩ := h symbol
  refine ⟨opens, hsim, fun x hx => ?_⟩
  obtain ⟨o, ho, hsymbol, hopen⟩ := mem_opensOf.mp (hopens hx)
  exact mem_opensOf.mpr ⟨o, hsub ho, hsymbol, hopen⟩

theorem FilledFrom.snoc (h : FilledFrom service order orders fills middle)
    (hone : FilledOne service order middle fill orders') :
    FilledFrom service order orders (fills ++ [fill]) orders' := by
  induction fills generalizing orders with
  | nil =>
      cases h
      exact ⟨orders', hone, rfl⟩
  | cons first fills ih =>
      obtain ⟨next, hfirst, hrest⟩ := h
      exact ⟨next, hfirst, ih hrest⟩

/-! ### One fill -/

namespace FilledOne

/-- The identifiers that are left. -/
theorem ids (h : FilledOne service order orders fill orders') :
    (orders'.map StoredOrder.id).Sublist (orders.map StoredOrder.id) := by
  cases h with
  | kept pre post maker found meets opens =>
      rw [found, List.map_append, List.map_append]
      exact List.Sublist.refl _
  | filled pre post maker found meets closes =>
      rw [found, List.map_append, List.map_append]
      exact List.Sublist.append_left (List.sublist_cons_self _ _) _

theorem readable (h : FilledOne service order orders fill orders') (hreadable : Readable parse orders) :
    Readable parse orders' := by
  cases h with
  | kept pre post maker found meets opens =>
      rw [found] at hreadable
      intro o ho
      rcases List.mem_append.mp ho with ho | ho
      · exact hreadable o (List.mem_append_left _ ho)
      · rcases List.mem_cons.mp ho with rfl | ho
        · exact hreadable maker (List.mem_append_right _ List.mem_cons_self)
        · exact hreadable o (List.mem_append_right _ (List.mem_cons_of_mem _ ho))
  | filled pre post maker found meets closes =>
      rw [found] at hreadable
      intro o ho
      rcases List.mem_append.mp ho with ho | ho
      · exact hreadable o (List.mem_append_left _ ho)
      · exact hreadable o (List.mem_append_right _ (List.mem_cons_of_mem _ ho))

/-- An order that the fill does not name stays. -/
theorem mem_of_ne (h : FilledOne service order orders fill orders') {o : StoredOrder} (ho : o ∈ orders)
    (hne : o.id ≠ fill.makerOrderId) : o ∈ orders' := by
  cases h with
  | kept pre post maker found meets opens =>
      rw [found] at ho
      rcases List.mem_append.mp ho with ho | ho
      · exact List.mem_append_left _ ho
      · rcases List.mem_cons.mp ho with rfl | ho
        · exact absurd meets.id hne
        · exact List.mem_append_right _ (List.mem_cons_of_mem _ ho)
  | filled pre post maker found meets closes =>
      rw [found] at ho
      rcases List.mem_append.mp ho with ho | ho
      · exact List.mem_append_left _ ho
      · rcases List.mem_cons.mp ho with rfl | ho
        · exact absurd meets.id hne
        · exact List.mem_append_right _ ho

/-- The order that the fill names. -/
theorem maker_of_id (h : FilledOne service order orders fill orders') (hids : (orders.map StoredOrder.id).Nodup)
    {o : StoredOrder} (ho : o ∈ orders) (hid : o.id = fill.makerOrderId) :
    Meets order fill o ∧
      (o.quantity ≤ o.filledQuantity + fill.quantity ∨
        service.fillMaker o (service.toTrade order fill) ∈ orders') := by
  have hmem : ∀ {pre post : List StoredOrder} {maker : StoredOrder}, orders = pre ++ maker :: post →
      maker.id = fill.makerOrderId → maker = o := by
    intro pre post maker found hmaker
    refine eq_of_id hids ?_ ho (hmaker.trans hid.symm)
    rw [found]
    exact List.mem_append_right _ List.mem_cons_self
  cases h with
  | kept pre post maker found meets opens =>
      obtain rfl := hmem found meets.id
      exact ⟨meets, Or.inr (List.mem_append_right _ List.mem_cons_self)⟩
  | filled pre post maker found meets closes =>
      obtain rfl := hmem found meets.id
      exact ⟨meets, Or.inl closes⟩

/-- **The open orders after a fill** are orders of the service. -/
theorem fillOpen_subset (h : FilledOne service order orders fill orders')
    (hids : (orders.map StoredOrder.id).Nodup) {symbol : String} {opens : List OpenOrder}
    (hopens : opens ⊆ opensOf parse symbol orders) :
    fillOpen fill.makerOrderId fill.quantity opens ⊆ opensOf parse symbol orders' := by
  intro x' hx'
  obtain ⟨x, hx, hfilled⟩ := List.mem_filterMap.mp hx'
  obtain ⟨o, ho, hsymbol, rfl⟩ := mem_opensOf.mp (hopens hx)
  have hfilled : filledAs fill.makerOrderId fill.quantity (o.toOpen parse) = some x' := hfilled
  by_cases hid : o.id = fill.makerOrderId
  · obtain ⟨meets, hcloses | hkept⟩ := h.maker_of_id hids ho hid
    · have hzero : (o.toOpen parse).remaining - fill.quantity = 0 := by
        have hleft := meets.left
        show o.quantity - o.filledQuantity - fill.quantity = 0
        linarith
      rw [filledAs_full hid hzero] at hfilled
      cases hfilled
    · by_cases hzero : (o.toOpen parse).remaining - fill.quantity = 0
      · rw [filledAs_full hid hzero] at hfilled
        cases hfilled
      · rw [filledAs_left hid hzero, Option.some.injEq] at hfilled
        refine mem_opensOf.mpr ⟨_, hkept, hsymbol, ?_⟩
        rw [← hfilled]
        show OpenOrder.mk _ _ _ _ (o.quantity - (o.filledQuantity + fill.quantity))
          = OpenOrder.mk _ _ _ _ (o.quantity - o.filledQuantity - fill.quantity)
        rw [sub_sub]
        rfl
  · rw [filledAs_of_ne hid, Option.some.injEq] at hfilled
    rw [← hfilled]
    exact mem_opensOf.mpr ⟨o, h.mem_of_ne ho hid, hsymbol, rfl⟩

/-- The orders of another symbol stay. -/
theorem others (h : FilledOne service order orders fill orders') (hids : (orders.map StoredOrder.id).Nodup)
    {symbol : String} (hne : symbol ≠ order.symbol) : opensOf parse symbol orders ⊆ opensOf parse symbol orders' := by
  intro x hx
  obtain ⟨o, ho, hsymbol, hopen⟩ := mem_opensOf.mp hx
  refine mem_opensOf.mpr ⟨o, h.mem_of_ne ho fun hid => hne ?_, hsymbol, hopen⟩
  exact hsymbol.symm.trans (h.maker_of_id hids ho hid).1.symbol

end FilledOne

/-! ### The matching loop -/

section Loop

variable {uuid : UuidSource} {request : MatchingEngine.Order} {book : OrderBook} {s : MatchState}
  {opens : List OpenOrder}

/-- What ties the orders of the service to the book while an order is matched. -/
structure Matches (parse : DecimalParser) (service : TradingService) (order : StoredOrder)
    (orders : List StoredOrder) (s : MatchState) (orders' : List StoredOrder) : Prop where
  filled : FilledFrom service order orders s.fills orders'
  book : ∃ opens, Simulates s.book opens ∧ opens ⊆ opensOf parse order.symbol orders'
  ids : (orders'.map StoredOrder.id).Nodup
  readable : Readable parse orders'
  others : ∀ symbol, symbol ≠ order.symbol → opensOf parse symbol orders ⊆ opensOf parse symbol orders'

/-- **A trade of the loop** is with one of the orders of the service. -/
theorem Matches.trade {price : Decimal} {level : MatchingEngine.PriceLevel} {resting : MatchingEngine.Order}
    {queue : List MatchingEngine.Order} (h : Matches parse service order orders s middle) (hs : LoopInv s)
    (hc : CanTrade s price level resting queue) (hside : s.incoming.side = order.side)
    (huser : s.incoming.userId = order.userId) (hprice : s.incoming.price = order.price)
    (hkind : requiresPrice s.incoming.kind = true) (uuid : UuidSource) :
    ∃ orders', Matches parse service order orders (s.trade uuid price level resting queue) orders' := by
  obtain ⟨opens, hsim, hopens⟩ := h.book
  obtain ⟨hopposite, hrests, _⟩ := hc.restingInv hs.book
  obtain ⟨maker, hmaker, hsymbol, hopen⟩ := mem_opensOf.mp (hopens (hsim.toOpen_mem hc.atLevel hc.front_mem))
  have hid : maker.id = resting.orderId := congrArg OpenOrder.orderId hopen
  have hleft : maker.quantity - maker.filledQuantity = resting.remainingQuantity :=
    congrArg OpenOrder.remaining hopen
  have hmakerPrice : maker.price = some price := by
    obtain ⟨q, hq, hread⟩ := h.readable maker hmaker
    have hsame : (maker.price.bind parse).getD 0 = resting.price.getD 0 := congrArg OpenOrder.price hopen
    rw [hq, hrests] at hsame
    have hsame : (parse q).getD 0 = price := hsame
    rw [hread] at hsame
    rw [hq, ← hsame]
    rfl
  have hmeets : Meets order (s.fill uuid price resting) maker := by
    refine ⟨hid, (congrArg OpenOrder.userId hopen).symm, huser, ?_, hsymbol, hmakerPrice, hc.quantity_pos hs.book,
      ?_, fun hbuy limit hlimit => ?_⟩
    · rw [← hside, ← hopposite]
      exact congrArg OpenOrder.side hopen
    · rw [hleft]
      exact min_le_right _ _
    · exact price_le_of_crosses hkind (hside.trans hbuy) (hprice.trans hlimit) hc.crosses
  obtain ⟨pre, post, hfound⟩ := List.append_of_mem hmaker
  obtain ⟨orders', hone⟩ : ∃ orders', FilledOne service order middle (s.fill uuid price resting) orders' := by
    by_cases hcloses : maker.quantity ≤ maker.filledQuantity + (s.fill uuid price resting).quantity
    · exact ⟨_, .filled pre post maker hfound hmeets hcloses⟩
    · exact ⟨_, .kept pre post maker hfound hmeets (not_le.mp hcloses)⟩
  refine ⟨orders', ?_, ⟨_, hsim.trade hs hc uuid, hone.fillOpen_subset h.ids hopens⟩, h.ids.sublist hone.ids,
    hone.readable h.readable, fun symbol hne => List.Subset.trans (h.others symbol hne) (hone.others h.ids hne)⟩
  rw [MatchState.trade_fills]
  exact h.filled.snoc hone

variable (service) in
/-- **The trades of the loop** are with orders of the service. -/
theorem Matches.trades (hsim : Simulates book opens) (hopens : opens ⊆ opensOf parse order.symbol orders)
    (hids : (orders.map StoredOrder.id).Nodup) (hreadable : Readable parse orders) (hinv : Inv book)
    (ha : MatchingEngine.Admissible book request) (hrequest : Requested order request)
    (hkind : requiresPrice request.kind = true) {t : MatchState} (h : Trades uuid (book.startMatch request) t) :
    ∃ orders', Matches parse service order orders t orders' := by
  have hstart : Simulates (book.startMatch request).book opens :=
    hsim.of_levels fun side => by cases side <;> rfl
  refine (MatchingEngine.trades_preserve (P := fun t => LoopInv t ∧
    t.incoming = { (book.startMatch request).incoming with remainingQuantity := t.incoming.remainingQuantity } ∧
    ∃ orders', Matches parse service order orders t orders') ?_ h ⟨LoopInv.start hinv ha, rfl, orders, rfl,
      ⟨opens, hstart, hopens⟩, hids, hreadable, fun _ _ => List.Subset.refl _⟩).2.2
  rintro t u ⟨ht, hin, middle, hmatches⟩ htu
  refine ⟨ht.step htu, ?_⟩
  obtain ⟨price, level, resting, queue, hc, rfl⟩ := htu
  refine ⟨by rw [MatchState.trade_incoming, MatchingEngine.Order.reduce, hin], ?_⟩
  refine hmatches.trade ht hc ?_ ?_ ?_ ?_ uuid
  · rw [hin]
    exact hrequest.side
  · rw [hin]
    exact hrequest.userId
  · rw [hin]
    exact hrequest.price
  · rw [hin]
    exact hkind

end Loop

/-! ### A submission -/

/-- An order that rests after its fills. -/
def restingOf (service : TradingService) (order : StoredOrder) (report : ExecutionReport) : List StoredOrder :=
  if shouldRest (service.filledBy order report) then [service.filledBy order report] else []

/-- **What the orders of the service are after a submission**: the engine has refused the order, or they meet its
fills, and back the books together with what rests of the order. -/
inductive AnswerFor (parse : DecimalParser) (service : TradingService) (order : StoredOrder)
    (orders : List StoredOrder) (report : ExecutionReport) (engine : Core) : Prop
  | refused (accepted : report.accepted = false) (nothing : report.fills = []) (backs : Backs parse orders engine)
  | executed (accepted : report.accepted = true)
      (quantity : (report.fills.map Fill.quantity).sum ≤ order.quantity) (left : List StoredOrder)
      (filled : FilledFrom service order orders report.fills left)
      (backs : Backs parse (left ++ restingOf service order report) engine)

section Submission

variable {uuid : UuidSource} {request : MatchingEngine.Order} {book book' : OrderBook} {report : ExecutionReport}
  {opens : List OpenOrder} {engine' : Core}

/-- The books after one of them has changed. -/
theorem Backs.insert (h : Backs parse orders engine) {symbol : String}
    (hbooks : ∀ symbol', bookOf engine' symbol' = if symbol' = symbol then book else bookOf engine symbol')
    (hbook : ∃ opens, Simulates book opens ∧ opens ⊆ opensOf parse symbol orders')
    (hothers : ∀ symbol', symbol' ≠ symbol → opensOf parse symbol' orders ⊆ opensOf parse symbol' orders') :
    Backs parse orders' engine' := by
  intro symbol'
  rw [hbooks]
  split
  · rename_i hsymbol
    rw [hsymbol]
    exact hbook
  · rename_i hne
    obtain ⟨opens, hsim, hopens⟩ := h symbol'
    exact ⟨opens, hsim, List.Subset.trans hopens (hothers symbol' hne)⟩

/-- **An order that goes through the matching loop.** -/
theorem Backs.executed (h : Backs parse orders engine)
    (hbooks : ∀ symbol, bookOf engine' symbol = if symbol = order.symbol then book' else bookOf engine symbol)
    (hids : (orders.map StoredOrder.id).Nodup) (hreadable : Readable parse orders)
    (hinv : Inv (bookOf engine order.symbol)) (ha : MatchingEngine.Admissible (bookOf engine order.symbol) request)
    (hread : engineOrder parse order = some request) (hrequest : Requested order request)
    (hunfilled : order.filledQuantity = 0) (hkind : requiresPrice request.kind = true)
    (hx : MatchingEngine.Executed uuid (bookOf engine order.symbol) request report book') :
    AnswerFor parse service order orders report engine' := by
  obtain ⟨opens, hsim, hopens⟩ := h order.symbol
  have hsum : ∀ t, Trades uuid ((bookOf engine order.symbol).startMatch request) t → LoopInv t →
      (t.fills.map Fill.quantity).sum ≤ order.quantity := by
    intro t htrades hloop
    have htotal : (t.fills.map Fill.quantity).sum + t.incoming.remainingQuantity
        = 0 + request.remainingQuantity := MatchingEngine.trades_quantity htrades
    have hnonneg := hloop.nonneg
    rw [hrequest.built.1, hrequest.quantity] at htotal
    linarith
  have hresting : ∀ {left : List StoredOrder}, left ⊆ left ++ restingOf service order report :=
    fun {left} => List.subset_append_left _ _
  have hgrows : ∀ {symbol : String} {left left' : List StoredOrder}, left ⊆ left' →
      opensOf parse symbol left ⊆ opensOf parse symbol left' := by
    intro symbol left left' hsub x hx
    obtain ⟨o, ho, hsymbol, hopen⟩ := mem_opensOf.mp hx
    exact mem_opensOf.mpr ⟨o, hsub ho, hsymbol, hopen⟩
  cases hx with
  | blocked t trades inv hblocked =>
      obtain ⟨left, hmatches⟩ := Matches.trades service hsim hopens hids hreadable hinv ha hrequest
        hkind trades
      obtain ⟨opens', hsim', hopens'⟩ := hmatches.book
      have hbook' : Simulates (OrderBook.selfTradeExit t).2 opens' :=
        hsim'.of_levels fun side => t.book.levels_setStatus _ _ _ side
      by_cases hnone : t.fills = []
      · have hfilled := hmatches.filled
        rw [hnone] at hfilled
        obtain rfl : left = orders := hfilled
        refine .refused ?_ hnone (h.insert hbooks ⟨opens', hbook', hopens'⟩ fun _ _ => List.Subset.refl _)
        show (!t.fills.isEmpty) = false
        rw [hnone]
        rfl
      · refine .executed ?_ (hsum t trades inv) left hmatches.filled (h.insert hbooks
          ⟨opens', hbook', List.Subset.trans hopens' (hgrows hresting)⟩
          fun symbol hne => List.Subset.trans (hmatches.others symbol hne) (hgrows hresting))
        show (!t.fills.isEmpty) = true
        rw [Bool.not_eq_true', List.isEmpty_eq_false_iff]
        exact hnone
  | finished t trades inv exhausted st settled hsettled =>
      obtain ⟨left, hmatches⟩ := Matches.trades service hsim hopens hids hreadable hinv ha hrequest
        hkind trades
      obtain ⟨opens', hsim', hopens'⟩ := hmatches.book
      have hdone : (∃ opens, Simulates settled opens ∧ opens ⊆ opensOf parse order.symbol
          (left ++ restingOf service order (OrderBook.finishReport t st))) →
          AnswerFor parse service order orders (OrderBook.finishReport t st) engine' := by
        rintro ⟨opens, hsim, hopens⟩
        refine .executed rfl (hsum t trades inv) left hmatches.filled (h.insert hbooks ⟨opens, ?_, hopens⟩
          fun symbol hne => List.Subset.trans (hmatches.others symbol hne) (hgrows hresting))
        exact hsim.of_levels fun side => settled.levels_close _ _ _ side
      cases hsettled with
      | filled hnothing => exact hdone ⟨opens', hsim', List.Subset.trans hopens' (hgrows hresting)⟩
      | dropped hleft himmediate => exact hdone ⟨opens', hsim', List.Subset.trans hopens' (hgrows hresting)⟩
      | expired hleft hfok => exact hdone ⟨opens', hsim', List.Subset.trans hopens' (hgrows hresting)⟩
      | rested hleft hlasting price hprice =>
          have hopen := toOpen_settledBy service
            (OrderBook.finishReport t (if t.fills.isEmpty then .new else .partiallyFilled)) hread
            hunfilled hrequest.quantity trades rfl
          have hstill := quantity_left hread hunfilled hrequest.quantity trades inv hleft
          have hrests : shouldRest (service.filledBy order
              (OrderBook.finishReport t (if t.fills.isEmpty then .new else .partiallyFilled))) = true :=
            TradingService.shouldRest_open hstill (rested_status t)
          refine hdone ⟨opens' ++ [t.incoming.toOpen], hsim'.restAt hprice, fun x hx => ?_⟩
          rcases List.mem_append.mp hx with hx | hx
          · exact hgrows hresting (hopens' hx)
          · rw [List.mem_singleton.mp hx, restingOf, if_pos hrests]
            exact mem_opensOf.mpr ⟨_, List.mem_append_right _ (List.mem_singleton_self _), rfl, hopen⟩

variable (service) in
/-- **A submission of an order with a limit**, to an engine without stop orders. -/
theorem submitOrder_backs (codec : DecimalCodec) (files : CallFiles) (source : UuidSource)
    (h : Backs parse orders engine) (hinv : MatchingEngine.CoreInv engine)
    (hstops : ∀ symbol, (bookOf engine symbol).stopOrders = []) (hids : (orders.map StoredOrder.id).Nodup)
    (hreadable : Readable parse orders) (hsymbol : isSymbol order.symbol = true)
    (hread : engineOrder parse order = some request) (hrequest : Requested order request)
    (hunfilled : order.filledQuantity = 0) (hkind : order.type = .limit ∨ order.type = .postOnly) :
    ∃ report dropped engine', engine.submitOrder codec files source order.symbol request
        = .ok (report, dropped, engine') ∧ MatchingEngine.CoreInv engine' ∧
      (∀ symbol, (bookOf engine' symbol).stopOrders = []) ∧
      (logs engine files = false → report.fills = []) ∧ AnswerFor parse service order orders report engine' := by
  have hlimit : request.kind.isStop = false ∧ requiresPrice request.kind = true ∧ request.kind ≠ .fok := by
    rw [hrequest.kind]
    rcases hkind with hkind | hkind
    · rw [hkind]
      exact ⟨rfl, rfl, fun hfok => nomatch hfok⟩
    · rw [hkind]
      exact ⟨rfl, rfl, fun hfok => nomatch hfok⟩
  have hbookInv := bookOf_inv hinv order.symbol
  obtain ⟨report, dropped, engine', hsubmit, hinv', hcase⟩ := submitOrder_cases codec files source request hinv
    (normalizeSymbol_of_isSymbol hsymbol) (hstops order.symbol)
  refine ⟨report, dropped, engine', hsubmit, hinv', ?_⟩
  rcases hcase with ⟨hlogs, haccepted, hnothing, rfl⟩ | ⟨book, hlogs, hx, hbooks⟩
  · exact ⟨hstops, fun _ => hnothing, .refused haccepted hnothing h⟩
  · have hbooks := bookOf_insert hbooks
    have hnot : logs engine files = false → report.fills = [] := fun hfails => by
      rw [hlogs] at hfails
      cases hfails
    have hkept : ∀ {book' : OrderBook}, book'.stopOrders = (bookOf engine order.symbol).stopOrders →
        book' = book → ∀ symbol, (bookOf engine' symbol).stopOrders = [] := by
      rintro _ hsame rfl symbol
      rw [hbooks]
      split
      · rw [hsame]
        exact hstops order.symbol
      · exact hstops symbol
    cases hx with
    | refused reason why =>
        refine ⟨hkept rfl rfl, hnot, .refused rfl rfl (h.insert hbooks (h order.symbol) fun _ _ => ?_)⟩
        exact List.Subset.refl _
    | held ha hstop _ =>
        rw [hlimit.1] at hstop
        cases hstop
    | killed ha hfok _ => exact absurd hfok hlimit.2.2
    | executed ha _ _ _ _ _ result =>
        exact ⟨hkept (result.frame hbookInv ha).1 rfl, hnot,
          h.executed hbooks hids hreadable hbookInv ha hread hrequest hunfilled hlimit.2.1 result⟩

end Submission

/-! ### A cancellation -/

/-- **A cancellation**: where the engine has it done, the order is one of the service, and the others back the
books. -/
theorem cancelOrder_backs (files : CallFiles) (orderId userId : String) {symbol : String}
    (h : Backs parse orders engine) (hinv : MatchingEngine.CoreInv engine)
    (hstops : ∀ symbol, (bookOf engine symbol).stopOrders = []) (hids : (orders.map StoredOrder.id).Nodup)
    (hsymbol : isSymbol symbol = true) :
    ∃ done engine', engine.cancelOrder files symbol orderId userId = .ok (done, engine') ∧
      MatchingEngine.CoreInv engine' ∧ (∀ symbol, (bookOf engine' symbol).stopOrders = []) ∧
      ((done = false ∧ Backs parse orders engine') ∨
        (done = true ∧ ∃ pre o post, orders = pre ++ o :: post ∧ o.id = orderId ∧ o.symbol = symbol ∧
          o.userId = userId ∧ Backs parse (pre ++ post) engine')) := by
  obtain ⟨done, engine', hcancel, hinv', hcase⟩ :=
    cancelOrder_cases files orderId userId hinv (normalizeSymbol_of_isSymbol hsymbol)
  refine ⟨done, engine', hcancel, hinv', ?_⟩
  rcases hcase with ⟨rfl, hbooks⟩ | ⟨book, _, hx, hbooks⟩
  · refine ⟨fun symbol' => ?_, Or.inl ⟨rfl, fun symbol' => ?_⟩⟩
    · rw [bookOf_congr hbooks]
      exact hstops symbol'
    · rw [bookOf_congr hbooks]
      exact h symbol'
  · have hbooks := bookOf_insert hbooks
    have hnone : book.stopOrders = [] := by
      have hsub := hx.stopOrders_subset
      rw [hstops symbol] at hsub
      exact List.subset_nil.mp hsub
    refine ⟨fun symbol' => ?_, ?_⟩
    · rw [hbooks]
      split
      · exact hnone
      · exact hstops symbol'
    obtain ⟨opens, hsim, hopens⟩ := h symbol
    obtain ⟨opens', hnaive, hsim'⟩ := hsim.cancel (bookOf_inv hinv symbol) (hstops symbol) hx
    rw [MatchingEngine.Naive.cancel] at hnaive
    by_cases hany : (opens.any fun o => decide (o.orderId = orderId ∧ o.userId = userId)) = true
    · rw [if_pos hany] at hnaive
      obtain ⟨hdone, rfl⟩ := Prod.mk.inj hnaive
      obtain rfl : true = done := MatchingEngine.Naive.Reply.cancelled.inj hdone
      obtain ⟨x, hx, hmatch⟩ := List.any_eq_true.mp hany
      obtain ⟨o, ho, hown, rfl⟩ := mem_opensOf.mp (hopens hx)
      obtain ⟨hid, huser⟩ : o.id = orderId ∧ o.userId = userId := of_decide_eq_true hmatch
      obtain ⟨pre, post, hfound⟩ := List.append_of_mem ho
      -- the other orders have other identifiers
      have hleft : ∀ o' ∈ orders, o'.id ≠ o.id → o' ∈ pre ++ post := by
        intro o' ho' hne
        rw [hfound] at ho'
        rcases List.mem_append.mp ho' with ho' | ho'
        · exact List.mem_append_left _ ho'
        · rcases List.mem_cons.mp ho' with rfl | ho'
          · exact absurd rfl hne
          · exact List.mem_append_right _ ho'
      refine Or.inr ⟨rfl, pre, o, post, hfound, hid, hown, huser, h.insert hbooks ⟨_, hsim', fun x hx => ?_⟩
        fun symbol' hne x hx => ?_⟩
      · obtain ⟨hx, hother⟩ := List.mem_filter.mp hx
        obtain ⟨o', ho', hown', rfl⟩ := mem_opensOf.mp (hopens hx)
        have hother : o'.id ≠ orderId := of_decide_eq_true hother
        exact mem_opensOf.mpr ⟨o', hleft o' ho' fun heq => hother (heq.trans hid), hown', rfl⟩
      · obtain ⟨o', ho', hown', rfl⟩ := mem_opensOf.mp hx
        refine mem_opensOf.mpr ⟨o', hleft o' ho' fun heq => hne ?_, hown', rfl⟩
        rw [← hown', eq_of_id hids ho' ho heq, hown]
    · rw [if_neg hany] at hnaive
      obtain ⟨hdone, rfl⟩ := Prod.mk.inj hnaive
      obtain rfl : false = done := MatchingEngine.Naive.Reply.cancelled.inj hdone
      exact Or.inl ⟨rfl, h.insert hbooks ⟨_, hsim', hopens⟩ fun _ _ => List.Subset.refl _⟩

end NexusTrade.Trading
