import NexusTrade.Trading.Shadows

/-!
# Retried calls have their effect once

* **`Unmoved`** and **`handleSubmit_unmoved`**: a submission after which the engine has not accepted the order
  changes nothing that the service sees;
* **`Steady`** is the invariant of the service and the engine;
* **`run_exactly_once`**: in every run whose calls meet the condition, each call has its effect once;
* **`lost_answer_rejects_order`**: a run whose calls do not.
-/

namespace NexusTrade.Trading

open MatchingEngine (Decimal ExecutionReport OrderBook Core CallFiles UuidSource DecimalCodec Inv Submitted
  orderIds)
open MatchingEngine.Naive (OpenOrder)

variable {parse : DecimalParser}

/-! ### The engine without stop orders -/

/-- The books of the engine keep their invariant, and no stop order is pending. -/
structure Calm (engine : Core) : Prop where
  inv : MatchingEngine.CoreInv engine
  stops : ∀ symbol, (bookOf engine symbol).stopOrders = []

theorem Calm.bookInv {engine : Core} (h : Calm engine) (symbol : String) : Inv (bookOf engine symbol) :=
  bookOf_inv h.inv symbol

/-- **What handling a submission does to the engine.** -/
theorem handleSubmit_cases {codec : DecimalCodec} {engine engine' : Core} {order : StoredOrder}
    {input : CallFiles × UuidSource} {report : ExecutionReport} (hcalm : Calm engine)
    (hsymbol : isSymbol order.symbol = true)
    (h : handleSubmit codec parse order input engine = .ok (report, engine')) :
    ∃ request, engineOrder parse order = some request ∧ MatchingEngine.CoreInv engine' ∧
      ((report.accepted = false ∧ report.fills = [] ∧ engine' = engine) ∨
        ∃ book, Submitted input.2.head (bookOf engine order.symbol) request report book ∧
          ∀ symbol, bookOf engine' symbol = if symbol = order.symbol then book else bookOf engine symbol) := by
  rw [handleSubmit, submitToEngine] at h
  cases hrequest : engineOrder parse order with
  | none =>
      rw [hrequest] at h
      cases h
  | some request =>
      rw [hrequest] at h
      obtain ⟨report', dropped, engine'', hsubmit, hinv, hcase⟩ := submitOrder_cases codec input.1 input.2
        request hcalm.inv (normalizeSymbol_of_isSymbol hsymbol) (hcalm.stops order.symbol)
      simp only [hsubmit] at h
      cases h
      refine ⟨request, rfl, hinv, ?_⟩
      rcases hcase with ⟨_, haccepted, hfills, rfl⟩ | ⟨book, _, hx, hbooks⟩
      · exact Or.inl ⟨haccepted, hfills, rfl⟩
      · exact Or.inr ⟨book, hx, bookOf_insert hbooks⟩

/-- **A handling that leaves nothing behind** of an order. -/
def Unmoved (symbol id : String) (engine engine' : Core) : Prop :=
  Calm engine → Calm engine' ∧
    (∀ symbol' side, (bookOf engine' symbol').levels side = (bookOf engine symbol').levels side) ∧
    (Accepted engine' symbol id → Accepted engine symbol id)

theorem Unmoved.refl (symbol id : String) (engine : Core) : Unmoved symbol id engine engine :=
  fun hcalm => ⟨hcalm, fun _ _ => rfl, fun h => h⟩

theorem Unmoved.trans {symbol id : String} {engine middle engine' : Core}
    (h : Unmoved symbol id engine middle) (h' : Unmoved symbol id middle engine') :
    Unmoved symbol id engine engine' := by
  intro hcalm
  obtain ⟨hmiddle, hlevels, haccepted⟩ := h hcalm
  obtain ⟨hlast, hlevels', haccepted'⟩ := h' hmiddle
  exact ⟨hlast, fun symbol' side => (hlevels' symbol' side).trans (hlevels symbol' side),
    fun ha => haccepted (haccepted' ha)⟩

/-- **A submission after which the engine has not accepted the order** leaves nothing behind. -/
theorem handleSubmit_unmoved {codec : DecimalCodec} {engine engine' : Core} {order : StoredOrder}
    {input : CallFiles × UuidSource} {report : ExecutionReport} (hsymbol : isSymbol order.symbol = true)
    (h : handleSubmit codec parse order input engine = .ok (report, engine'))
    (hnot : ¬Accepted engine' order.symbol order.id) : Unmoved order.symbol order.id engine engine' := by
  intro hcalm
  obtain ⟨request, hrequest, hinv, hcase⟩ := handleSubmit_cases hcalm hsymbol h
  rcases hcase with ⟨_, _, rfl⟩ | ⟨book, hx, hbooks⟩
  · exact ⟨hcalm, fun _ _ => rfl, fun h => h⟩
  · rw [Accepted, hbooks, if_pos rfl, ← (engineOrder_same hrequest).1] at hnot
    obtain ⟨hlevels, hstops⟩ := MatchingEngine.submitted_idle (hcalm.bookInv order.symbol) hx hnot
    refine ⟨⟨hinv, fun symbol' => ?_⟩, fun symbol' side => ?_, fun ha => absurd ha ?_⟩
    · rw [hbooks]
      split
      · exact hstops.trans (hcalm.stops order.symbol)
      · exact hcalm.stops symbol'
    · rw [hbooks]
      split
      · rename_i hs
        rw [hs]
        exact hlevels side
      · rfl
    · rw [Accepted, hbooks, if_pos rfl, ← (engineOrder_same hrequest).1]
      exact hnot

/-- **An order that a submission makes accepted**, and that the service can follow if it stays, is reported
accepted, with a status that the service knows. -/
theorem handleSubmit_accepts {codec : DecimalCodec} {engine engine' : Core} {order : StoredOrder}
    {input : CallFiles × UuidSource} {report : ExecutionReport} (hcalm : Calm engine)
    (hsymbol : isSymbol order.symbol = true)
    (h : handleSubmit codec parse order input engine = .ok (report, engine'))
    (hread : order.id ∈ orderIds (liveOrders engine' order.symbol) → Followed parse order)
    (hnot : ¬Accepted engine order.symbol order.id) (hnow : Accepted engine' order.symbol order.id) :
    report.accepted = true ∧ mapOrderStatus (statusToWire report.status) ≠ .rejected := by
  obtain ⟨request, hrequest, hinv, hcase⟩ := handleSubmit_cases hcalm hsymbol h
  rcases hcase with ⟨_, _, rfl⟩ | ⟨book, hx, hbooks⟩
  · exact absurd hnow hnot
  · obtain ⟨hid, htype⟩ := engineOrder_same hrequest
    have hbook : bookOf engine' order.symbol = book := by
      rw [hbooks, if_pos rfl]
    rw [Accepted, hbook, ← hid] at hnow
    rw [Accepted, ← hid] at hnot
    rcases MatchingEngine.submitted_accepts (hcalm.bookInv order.symbol) hx hnot hnow with
      ⟨hstop, hlive⟩ | ⟨haccepted, hstatus⟩
    · rw [hid, ← hbook] at hlive
      have hfollowed := (hread hlive).1
      rw [← htype, hstop] at hfollowed
      cases hfollowed
    · refine ⟨haccepted, ?_⟩
      rw [mapOrderStatus_wire]
      revert hstatus
      cases report.status <;> simp

/-! ### The service and the engine -/

/-- **The invariant**: the engine is calm, the orders of the service are known by their identifiers, and what
rests in a book is one of them. -/
structure Steady (parse : DecimalParser) (system : TradingSystem) : Prop where
  calm : Calm system.engine
  ids : (system.trading.orders.map StoredOrder.id).Nodup
  books : ∀ symbol, Shadowed parse symbol system.trading.orders (bookOf system.engine symbol)

/-- The engine differs by handlings that left nothing behind. -/
theorem Steady.unmoved {system : TradingSystem} (h : Steady parse system) {symbol id : String}
    {engine : Core} (hmoved : Unmoved symbol id system.engine engine) {trading : TradingService}
    (horders : trading.orders = system.trading.orders) : Steady parse ⟨trading, engine⟩ := by
  obtain ⟨hcalm, hlevels, _⟩ := hmoved h.calm
  refine ⟨hcalm, horders ▸ h.ids, fun symbol' => ?_⟩
  rw [horders]
  exact (h.books symbol').of_levels (hlevels symbol')

section Calls

variable {codec : DecimalCodec} {system : TradingSystem}

/-- **An answered submission** keeps the invariant, unless the service cannot follow the order; if the order
is live then, the service has it, with the lock that it needs. -/
theorem Steady.answered (h : Steady parse system) {order : StoredOrder} {input : CallFiles × UuidSource}
    {report : ExecutionReport} {engine : Core} (hsymbol : isSymbol order.symbol = true)
    (hfilled : order.filledQuantity = 0) (hnew : order.id ∉ system.trading.orders.map StoredOrder.id)
    (hhandle : handleSubmit codec parse order input system.engine = .ok (report, engine))
    (hread : order.id ∈ orderIds (liveOrders engine order.symbol) → Followed parse order) :
    Steady parse ⟨(system.trading.takeReport order report).2, engine⟩ ∧
      (order.id ∈ orderIds (liveOrders engine order.symbol) →
        (system.trading.takeReport order report).1 ∈ (system.trading.takeReport order report).2.orders ∧
        (system.trading.takeReport order report).1.lockedAmount
          = remainingLock (system.trading.takeReport order report).1 (splitSymbol order.symbol).2
            system.trading.takerFeeBps) := by
  obtain ⟨request, hrequest, hinv, hcase⟩ := handleSubmit_cases h.calm hsymbol hhandle
  have hown : Shadowed parse order.symbol (system.trading.takeReport order report).2.orders
        (bookOf engine order.symbol) ∧
      (∃ b, Shadows parse order.symbol system.trading (system.trading.tradedBy order report) b) ∧
      (report.accepted = false → report.fills = []) ∧
      (∀ symbol, (bookOf engine symbol).stopOrders = []) ∧
      ∀ symbol, symbol ≠ order.symbol → bookOf engine symbol = bookOf system.engine symbol := by
    rcases hcase with ⟨haccepted, hfills, rfl⟩ | ⟨book, hx, hbooks⟩
    · refine ⟨?_, ⟨bookOf system.engine order.symbol, ?_⟩, fun _ => hfills, h.calm.stops, fun _ _ => rfl⟩
      · rw [(TradingService.takeReport_refused system.trading order haccepted).1]
        exact h.books order.symbol
      · rw [tradedBy_nothing _ _ hfills]
        exact ⟨h.books order.symbol, List.Sublist.refl _, fun _ _ => rfl⟩
    · have hbook : bookOf engine order.symbol = book := by
        rw [hbooks, if_pos rfl]
      have hother : ∀ symbol, symbol ≠ order.symbol → bookOf engine symbol = bookOf system.engine symbol :=
        fun symbol hne => by rw [hbooks, if_neg hne]
      rw [← hbook] at hx
      obtain ⟨hshadowed, hshadows, hnone, hstops⟩ := (h.books order.symbol).submitted h.ids
        (h.calm.bookInv order.symbol) hrequest hfilled hread hx
      refine ⟨hshadowed, hshadows, hnone, fun symbol => ?_, hother⟩
      by_cases hs : symbol = order.symbol
      · rw [hs, hstops]
        exact h.calm.stops order.symbol
      · rw [hother symbol hs]
        exact h.calm.stops symbol
  obtain ⟨hshadowed, ⟨_, hshadows⟩, hnone, hstops, hother⟩ := hown
  obtain ⟨rest, horders, hrest⟩ := TradingService.orders_takeReport system.trading order hnone
  have hfresh : order.id ∉ (system.trading.tradedBy order report).orders.map StoredOrder.id :=
    fun hin => hnew (hshadows.ids.subset hin)
  have hids : ((system.trading.takeReport order report).2.orders.map StoredOrder.id).Nodup := by
    rw [horders, List.map_append]
    rcases hrest with rfl | ⟨rfl, _⟩
    · rw [List.map_nil, List.append_nil]
      exact h.ids.sublist hshadows.ids
    · refine List.nodup_append.mpr ⟨h.ids.sublist hshadows.ids, List.nodup_singleton _, ?_⟩
      rintro id hid _ hid' rfl
      rw [List.map_singleton, List.mem_singleton] at hid'
      exact hfresh (hid' ▸ hid)
  have hsteady : Steady parse ⟨(system.trading.takeReport order report).2, engine⟩ := by
    refine ⟨⟨hinv, hstops⟩, hids, fun symbol => ?_⟩
    by_cases hs : symbol = order.symbol
    · rw [hs]
      exact hshadowed
    · obtain ⟨opens, hsim, hsub⟩ := h.books symbol
      refine ⟨opens, ?_, ?_⟩
      · rw [show bookOf engine symbol = _ from hother symbol hs]
        exact hsim
      · rw [show (system.trading.takeReport order report).2.orders = _ from horders, opensOf_append,
          hshadows.others symbol hs]
        exact List.subset_append_of_subset_left _ hsub
  refine ⟨hsteady, fun hlive => ?_⟩
  obtain ⟨live, hmem, hid⟩ := List.mem_map.mp hlive
  obtain ⟨o, ho, _, hopen⟩ := hshadowed.order hmem (hstops order.symbol)
  have hoid : o.id = order.id := (congrArg OpenOrder.orderId hopen).trans hid
  rw [horders] at ho ⊢
  rcases List.mem_append.mp ho with ho | ho
  · exact absurd (hoid ▸ List.mem_map_of_mem ho) hfresh
  · rcases hrest with rfl | ⟨rfl, haccepted, hlock⟩
    · cases ho
    · rw [TradingService.takeReport_order haccepted]
      exact ⟨List.mem_append_right _ (List.mem_singleton_self _), hlock⟩

/-- The order has the symbol that was named. -/
theorem prepare_symbol {uuid : String} {dto : PlaceOrderDto} {order : StoredOrder}
    (h : system.prepare uuid dto = .ok order) : order.symbol = dto.symbol := by
  obtain ⟨_, _, h⟩ := bind_eq_ok.mp h
  obtain ⟨order', hnew, h⟩ := bind_eq_ok.mp h
  obtain ⟨lock, _, h⟩ := bind_eq_ok.mp h
  cases h
  obtain ⟨symbol, hsymbol, hnew⟩ := bind_eq_ok.mp hnew
  obtain ⟨_, _, hnew⟩ := bind_eq_ok.mp hnew
  obtain ⟨_, _, hnew⟩ := bind_eq_ok.mp hnew
  obtain ⟨_, _, hnew⟩ := bind_eq_ok.mp hnew
  cases hnew
  rw [requireSymbol] at hsymbol
  split at hsymbol
  · exact (Except.ok.inj hsymbol).symm
  · cases hsymbol

variable {maxRetries : ℕ}

/-- **Placing an order** that meets the condition. -/
theorem Steady.placeOrder (h : Steady parse system) {uuid : String} {dto : PlaceOrderDto}
    {pattern : ℕ → Attempt GrpcError (CallFiles × UuidSource)}
    (hnew : NewToBoth system (.placeOrder uuid pattern dto))
    (hkeeps : KeepsResponses codec parse maxRetries system (.placeOrder uuid pattern dto))
    {reply : TradingReply} {system' : TradingSystem}
    (hstep : system.placeOrderRetried codec parse maxRetries uuid pattern dto = (reply, system')) :
    Steady parse system' ∧ PlacedOnce system system' uuid dto reply := by
  rw [TradingSystem.placeOrderRetried] at hstep
  cases hprepare : system.prepare uuid dto with
  | error e =>
      rw [hprepare] at hstep
      obtain ⟨rfl, rfl⟩ := Prod.mk.inj hstep
      refine ⟨h, fun order hprepare' => ?_⟩
      rw [hprepare] at hprepare'
      cases hprepare'
  | ok order =>
      rw [hprepare] at hstep
      obtain ⟨hid, hfilled, hsymbol⟩ := prepare_spec hprepare
      have hfresh : order.id ∉ system.trading.orders.map StoredOrder.id := by
        intro hin
        rw [hid] at hin
        exact hnew.1 (by rw [List.map_append]; exact List.mem_append_left _ hin)
      have hbefore : ¬Accepted system.engine order.symbol order.id := by
        rw [hid, prepare_symbol hprepare]
        exact hnew.2
      have hspares : KeepsSubmitted codec parse maxRetries system.engine order pattern := by
        rw [KeepsResponses, hprepare] at hkeeps
        exact hkeeps
      dsimp only at hstep
      rcases Attempt.retry_spec (R := Unmoved order.symbol order.id) (Unmoved.refl _ _)
        (fun _ _ _ => Unmoved.trans) (fun _ _ _ _ hhandle => handleSubmit_unmoved hsymbol hhandle)
        maxRetries 0 system.engine hspares with
        ⟨error, engine, hretry, hmoved⟩ | ⟨middle, input, report, engine, hmoved, hhandle, hread, hretry⟩
      · -- nothing has reached the engine
        rw [unary, hretry] at hstep
        obtain ⟨rfl, rfl⟩ := Prod.mk.inj hstep
        refine ⟨h.unmoved hmoved (by simp), fun order' hprepare' haccepted => ?_⟩
        obtain rfl : order = order' := Except.ok.inj (hprepare.symm.trans hprepare')
        exact absurd ((hmoved h.calm).2.2 haccepted) hbefore
      · rw [unary, hretry] at hstep
        obtain ⟨rfl, rfl⟩ := Prod.mk.inj hstep
        -- the order is locked for before it is sent
        have hmiddle : Steady parse
            ⟨system.trading.lockBalance order order.lockedAmount, middle⟩ := h.unmoved hmoved rfl
        have hfollowed : order.id ∈ orderIds (liveOrders engine order.symbol) → Followed parse order :=
          fun hlive => not_not.mp fun hnot => hread ⟨hlive, hnot⟩
        obtain ⟨hsteady, hplaced⟩ := hmiddle.answered hsymbol hfilled hfresh hhandle hfollowed
        refine ⟨hsteady, fun order' hprepare' hnow => ?_⟩
        obtain rfl : order = order' := Except.ok.inj (hprepare.symm.trans hprepare')
        have hnot : ¬Accepted middle order.symbol order.id := fun ha => hbefore ((hmoved h.calm).2.2 ha)
        obtain ⟨haccepted, hstatus⟩ :=
          handleSubmit_accepts hmiddle.calm hsymbol hhandle hfollowed hnot hnow
        refine ⟨_, report, rfl, ?_, ?_, hplaced⟩
        · rw [TradingService.takeReport_order haccepted]
          exact hstatus
        · have hunlocks := (Unlocks.push (t := system.trading.lockBalance order order.lockedAmount) rfl
            fun _ hm => nomatch hm).trans (unlocks_takeReport hmiddle.ids hfresh haccepted)
          obtain ⟨new, hrequests, hkind⟩ := hunlocks
          intro mutation hm
          rw [show (TradingService.takeReport _ order report).2.requests = _ from hrequests,
            List.drop_left] at hm
          exact hkind mutation hm

/-- An engine with the same books. -/
def SameBooks (engine engine' : Core) : Prop :=
  Calm engine → Calm engine' ∧ ∀ symbol, bookOf engine' symbol = bookOf engine symbol

theorem SameBooks.refl (engine : Core) : SameBooks engine engine := fun hcalm => ⟨hcalm, fun _ => rfl⟩

theorem SameBooks.trans {engine middle engine' : Core} (h : SameBooks engine middle)
    (h' : SameBooks middle engine') : SameBooks engine engine' := by
  intro hcalm
  obtain ⟨hmiddle, hbooks⟩ := h hcalm
  obtain ⟨hlast, hbooks'⟩ := h' hmiddle
  exact ⟨hlast, fun symbol => (hbooks' symbol).trans (hbooks symbol)⟩

/-- **What handling a cancellation does to the engine.** -/
theorem handleCancel_cases {engine engine' : Core} {orderId symbol userId : String} {files : CallFiles}
    {done : Bool} (hcalm : Calm engine) (hsymbol : isSymbol symbol = true)
    (h : handleCancel orderId symbol userId files engine = .ok (done, engine')) :
    MatchingEngine.CoreInv engine' ∧
      ((done = false ∧ ∀ symbol', bookOf engine' symbol' = bookOf engine symbol') ∨
        ∃ book, MatchingEngine.Cancelled (bookOf engine symbol) orderId userId done book ∧
          ∀ symbol', bookOf engine' symbol' = if symbol' = symbol then book else bookOf engine symbol') := by
  rw [handleCancel] at h
  obtain ⟨done', engine'', hcancel, hinv, hcase⟩ :=
    cancelOrder_cases files orderId userId hcalm.inv (normalizeSymbol_of_isSymbol hsymbol)
  rw [hcancel] at h
  cases h
  rcases hcase with ⟨rfl, hbooks⟩ | ⟨book, _, hx, hbooks⟩
  · exact ⟨hinv, Or.inl ⟨rfl, bookOf_congr hbooks⟩⟩
  · exact ⟨hinv, Or.inr ⟨book, hx, bookOf_insert hbooks⟩⟩

/-- **A cancellation that is not made** leaves the books as they are. -/
theorem handleCancel_same {engine engine' : Core} {orderId symbol userId : String} {files : CallFiles}
    {done : Bool} (hsymbol : isSymbol symbol = true)
    (h : handleCancel orderId symbol userId files engine = .ok (done, engine')) (hnot : ¬done = true) :
    SameBooks engine engine' := by
  intro hcalm
  obtain ⟨hinv, hcase⟩ := handleCancel_cases hcalm hsymbol h
  have hbooks : ∀ symbol', bookOf engine' symbol' = bookOf engine symbol' := by
    rcases hcase with ⟨_, hbooks⟩ | ⟨book, hx, hbooks⟩
    · exact hbooks
    · intro symbol'
      rw [hbooks]
      cases hx with
      | missing _ _ =>
          split
          · rename_i hs
            rw [hs]
          · rfl
      | queued _ _ _ _ _ _ _ _ _ _ => exact absurd rfl hnot
      | pending _ _ _ _ _ _ => exact absurd rfl hnot
  exact ⟨⟨hinv, fun symbol' => by rw [hbooks]; exact hcalm.stops symbol'⟩, hbooks⟩

theorem requests_unlockBalance (service : TradingService) (order : StoredOrder) (amount : Decimal) :
    (service.unlockBalance order amount).requests = service.requests ++
      if amount ≤ 0 then [] else [.unlock (TradingService.mutationOf order amount)] := by
  rw [TradingService.unlockBalance]
  split
  · exact (List.append_nil _).symm
  · rfl

/-- An order that is cancelled is unlocked. -/
theorem requests_takeCancel {service : TradingService} {order : StoredOrder}
    (hids : (service.orders.map StoredOrder.id).Nodup) (horder : order ∈ service.orders) :
    (service.takeCancel order.id order.symbol order.userId true).requests = service.requests ++
      if order.lockedAmount ≤ 0 then []
      else [.unlock (TradingService.mutationOf order order.lockedAmount)] := by
  obtain ⟨pos, hfind, hget⟩ := TradingService.takeCancel_found hids horder
  simp only [TradingService.takeCancel, hfind, hget, requests_unlockBalance]

/-- What the engine cancels is an order of the service. -/
theorem Steady.found (h : Steady parse system) {orderId symbol userId : String} {book : OrderBook}
    (hx : MatchingEngine.Cancelled (bookOf system.engine symbol) orderId userId true book) :
    ∃ order ∈ system.trading.orders, order.id = orderId ∧ order.symbol = symbol ∧
      order.userId = userId := by
  obtain ⟨opens, hsim, hsub⟩ := h.books symbol
  obtain ⟨opens', hcancel, _⟩ := hsim.cancel (h.calm.bookInv _) (h.calm.stops _) hx
  rw [MatchingEngine.Naive.cancel] at hcancel
  split at hcancel
  · rename_i hany
    obtain ⟨x, hmem, hmatch⟩ := List.any_eq_true.mp hany
    obtain ⟨order, horder, hsymbol, rfl⟩ := mem_opensOf.mp (hsub hmem)
    obtain ⟨hid, huser⟩ := of_decide_eq_true hmatch
    exact ⟨order, horder, hid, hsymbol, huser⟩
  · cases (Prod.mk.inj hcancel).1

/-- **Cancelling an order** that the service has. -/
theorem Steady.cancelled (h : Steady parse system) {order : StoredOrder}
    (horder : order ∈ system.trading.orders) {engine : Core} {book : OrderBook}
    (hinv : MatchingEngine.CoreInv engine)
    (hx : MatchingEngine.Cancelled (bookOf system.engine order.symbol) order.id order.userId true book)
    (hbooks : ∀ symbol, bookOf engine symbol
      = if symbol = order.symbol then book else bookOf system.engine symbol) :
    Steady parse
      ⟨system.trading.takeCancel order.id order.symbol order.userId true, engine⟩ := by
  obtain ⟨horders, _⟩ := TradingService.takeCancel_done h.ids horder
  have hstops := hx.stopOrders_subset
  rw [h.calm.stops] at hstops
  refine ⟨⟨hinv, fun symbol => ?_⟩, ?_, fun symbol => ?_⟩
  · rw [hbooks]
    split
    · exact List.subset_nil.mp hstops
    · exact h.calm.stops symbol
  · rw [show (TradingService.takeCancel _ _ _ _ _).orders = _ from horders, Keyed.alter_none]
    exact h.ids.sublist (List.filter_sublist.map _)
  · rw [hbooks, show (TradingService.takeCancel _ _ _ _ _).orders = _ from horders]
    split
    · rename_i hs
      obtain ⟨opens, hsim, hsub⟩ := h.books order.symbol
      obtain ⟨opens', hcancel, hsim'⟩ := hsim.cancel (h.calm.bookInv _) (h.calm.stops _) hx
      refine ⟨opens', hsim', ?_⟩
      rw [MatchingEngine.Naive.cancel] at hcancel
      split at hcancel
      · rw [← (Prod.mk.inj hcancel).2, opensOf_remove, hs]
        exact List.filter_subset _ hsub
      · cases (Prod.mk.inj hcancel).1
    · rename_i hs
      obtain ⟨opens, hsim, hsub⟩ := h.books symbol
      refine ⟨opens, hsim, fun x hx => ?_⟩
      obtain ⟨o, ho, hsymbol, rfl⟩ := mem_opensOf.mp (hsub hx)
      rw [opensOf_remove]
      refine List.mem_filter.mpr ⟨hsub hx, decide_eq_true fun hid => hs ?_⟩
      rw [← hsymbol, eq_of_id h.ids ho horder hid]

variable (codec) in
/-- **Cancelling an order**, where no response is lost to a cancellation that was made. -/
theorem Steady.cancelOrder (h : Steady parse system) {orderId symbol userId : String}
    {pattern : ℕ → Attempt GrpcError CallFiles}
    (hkeeps : KeepsResponses codec parse maxRetries system (.cancelOrder pattern orderId symbol userId))
    {reply : TradingReply} {system' : TradingSystem}
    (hstep : system.cancelOrderRetried maxRetries pattern orderId symbol userId = (reply, system')) :
    Steady parse system' ∧ CancelledOnce system system' orderId symbol reply := by
  rw [TradingSystem.cancelOrderRetried] at hstep
  -- without a cancellation the order is live as before
  have hsame : ∀ {engine : Core} {reply : TradingReply}, SameBooks system.engine engine →
      Steady parse ⟨system.trading, engine⟩ ∧
        CancelledOnce system ⟨system.trading, engine⟩ orderId symbol reply := by
    intro engine reply hsame
    obtain ⟨hcalm, hbooks⟩ := hsame h.calm
    refine ⟨⟨hcalm, h.ids, fun symbol' => ?_⟩, fun hlive hdead => absurd ?_ hdead⟩
    · rw [show bookOf engine symbol' = _ from hbooks symbol']
      exact h.books symbol'
    · rw [show liveOrders engine symbol = liveOrders system.engine symbol from by
        rw [liveOrders, hbooks, liveOrders]]
      exact hlive
  rw [requireSymbol] at hstep
  split at hstep
  · rename_i symbol' hrequire
    split at hrequire
    · cases hrequire
    · obtain ⟨rfl, rfl⟩ := Prod.mk.inj hstep
      exact hsame (SameBooks.refl _)
  · rename_i symbol' hrequire
    split at hrequire
    · rename_i hsymbol
      cases hrequire
      rcases Attempt.retry_spec SameBooks.refl (fun _ _ _ => SameBooks.trans)
        (fun _ _ _ _ hhandle hnot => handleCancel_same hsymbol hhandle hnot) maxRetries 0
        system.engine hkeeps with
        ⟨error, engine, hretry, hmoved⟩ | ⟨middle, files, done, engine, hmoved, hhandle, _, hretry⟩
      · rw [unary, hretry] at hstep
        obtain ⟨rfl, rfl⟩ := Prod.mk.inj hstep
        exact hsame hmoved
      · rw [unary, hretry] at hstep
        obtain ⟨rfl, rfl⟩ := Prod.mk.inj hstep
        cases done with
        | false => exact hsame (hmoved.trans (handleCancel_same hsymbol hhandle (by simp)))
        | true =>
            have hmiddle : Steady parse ⟨system.trading, middle⟩ :=
              ⟨(hmoved h.calm).1, h.ids, fun symbol' => by
                rw [show bookOf middle symbol' = _ from (hmoved h.calm).2 symbol']
                exact h.books symbol'⟩
            obtain ⟨hinv, ⟨hfalse, _⟩ | ⟨book, hx, hbooks⟩⟩ :=
              handleCancel_cases hmiddle.calm hsymbol hhandle
            · cases hfalse
            · obtain ⟨order, horder, rfl, rfl, rfl⟩ := hmiddle.found hx
              obtain ⟨horders, hclosed⟩ := TradingService.takeCancel_done h.ids horder
              refine ⟨hmiddle.cancelled horder hinv hx hbooks, fun _ _ =>
                ⟨rfl, order, horder, rfl, rfl, ?_, ?_, requests_takeCancel h.ids horder⟩⟩
              · intro o ho
                rw [show (TradingService.takeCancel _ _ _ _ _).orders = _ from horders,
                  Keyed.alter_none] at ho
                exact of_decide_eq_true (List.mem_filter.mp ho).2
              · rw [show (TradingService.takeCancel _ _ _ _ _).closed = _ from hclosed]
                exact List.mem_append_right _ (List.mem_singleton_self _)
    · cases hrequire

/-- **A call that meets the condition** has its effect once. -/
theorem Steady.step (h : Steady parse system) {call : RetriedCall} (hnew : NewToBoth system call)
    (hkeeps : KeepsResponses codec parse maxRetries system call) {reply : TradingReply}
    {system' : TradingSystem}
    (hstep : system.execRetried codec parse maxRetries call = .ok (reply, system')) :
    Steady parse system' ∧ HadEffectOnce system system' reply call := by
  cases call with
  | placeOrder uuid pattern dto => exact h.placeOrder hnew hkeeps (Except.ok.inj hstep)
  | cancelOrder pattern orderId symbol userId =>
      exact h.cancelOrder codec hkeeps (Except.ok.inj hstep)

end Calls

/-- What happens to the attempts of a call: the ones listed, and then each is answered. -/
def attempts {ι : Type} (input : ι) (listed : List (Attempt GrpcError ι)) (i : ℕ) : Attempt GrpcError ι :=
  listed.getD i (.answered input)

/-- An error that is retried. -/
def unavailable : GrpcError := ⟨"14 UNAVAILABLE", true⟩

/-- An offer whose request gets lost twice, a bid that trades with it, a cancellation by the wrong user whose
answer gets lost, and the cancellation of what is left of the offer. -/
def lossyCalls : List RetriedCall :=
  [.placeOrder "order-1" (attempts (MatchingEngine.filesOk, fun _ => "first")
      [.unsent unavailable, .unsent unavailable])
      (bitcoinOrder "alice" "account-1" .sell .limit 100 none 2),
    .placeOrder "order-2" (attempts (MatchingEngine.filesOk, fun _ => "second") [.unsent unavailable])
      (bitcoinOrder "bob" "account-2" .buy .limit 100 none 1),
    .cancelOrder (attempts MatchingEngine.filesOk [.lost unavailable MatchingEngine.filesOk]) "order-1"
      "BTC-USDT" "bob",
    .cancelOrder (attempts MatchingEngine.filesOk []) "order-1" "BTC-USDT" "alice"]

/-- The first answer to a request gets lost, the second arrives. -/
def lostAnswer : ℕ → Attempt GrpcError (CallFiles × UuidSource) :=
  attempts (MatchingEngine.filesOk, fun _ => "second")
    [.lost unavailable (MatchingEngine.filesOk, fun _ => "first")]

/-- An offer of two, with the lock for it. -/
def offerOfTwo : StoredOrder where
  id := "order-1"
  userId := "alice"
  accountId := "account-1"
  symbol := "BTC-USDT"
  side := .sell
  type := .limit
  price := some 100
  stopPrice := none
  quantity := 2
  filledQuantity := 0
  status := .new
  lockedAsset := "BTC"
  lockedAmount := 2

end NexusTrade.Trading
