import NexusTrade.Trading.Threads

/-!
# What an operation does

The effects of what the calls await, outside of the service.

* **`Prepared`**: what a call awaits where it asks the engine, and the order that it sends; **`resume_prepared`**
  and **`enter_prepared`** keep it;
* **`Performed`** and **`perform_spec`**: what an operation is answered and what it leaves.
-/

namespace NexusTrade.Trading

open MatchingEngine (Decimal Fill ExecutionReport Core CoreInv CallFiles UuidSource DecimalCodec
  OrderBook Traded Cancelled fillsOf)

/-! ### Before the engine is asked -/

/-- The amount that is locked for an order can be computed. -/
def Priced (service : TradingService) (order : StoredOrder) : Prop :=
  ∃ lock, estimateLockAmount order (splitSymbol order.symbol).2 service.takerFeeBps = .ok lock

/-- **The order of a call** is new up to the answer of the engine. -/
def Point.Prepared (service : TradingService) : Point → Prop
  | .saved order => NewOrder order.id order
  | .locked order | .submitted order _ => NewOrder order.id order ∧ Priced service order
  | .cancelAnswered _ symbol _ _ => isSymbol symbol = true
  | _ => True

/-- The engine is asked where its answer is awaited. -/
def Awaits : Operation → Point → Prop
  | .submitOrder order, point => ∃ attempt, point = .submitted order attempt
  | .cancelOrder orderId symbol userId, point =>
    ∃ attempt, point = .cancelAnswered orderId symbol userId attempt
  | _, .submitted _ _ | _, .cancelAnswered _ _ _ _ => False
  | _, _ => True

def Prepared (service : TradingService) : OrderProgress → Prop
  | .waiting operation point => point.Prepared service ∧ Awaits operation point
  | .ready _ point => point.Prepared service
  | .finished _ => True

section Prepared

variable {service : TradingService} {maxRetries : ℕ} {memory : Memory} {answer : Answer} {point : Point}

theorem unlocking_prepared (order : StoredOrder) (amount : Decimal) (hpoint : point.Prepared service)
    (hawaits : Awaits .resolved point) (hpost : ∀ request, Awaits (.walletPost request) point) :
    Prepared service (unlocking order amount point).progress := by
  rw [unlocking]
  split
  · exact ⟨hpoint, hawaits⟩
  · exact ⟨hpoint, hpost _⟩

theorem nextTrade_prepared (order : StoredOrder) (report : ExecutionReport) (rest : List Fill) :
    Prepared service (nextTrade service memory order report rest).progress := by
  cases rest <;> exact ⟨trivial, trivial⟩

theorem resumeFailed_prepared (failure : Failure) (h : point.Prepared service) :
    Prepared service (resumeFailed maxRetries failure point).progress := by
  cases point with
  | submitted order attempt =>
      rw [resumeFailed]
      split
      · exact ⟨h, attempt + 1, rfl⟩
      · exact unlocking_prepared order _ trivial trivial fun _ => trivial
  | cancelAnswered orderId symbol userId attempt =>
      rw [resumeFailed]
      split
      · exact ⟨h, attempt + 1, rfl⟩
      · trivial
  | _ => trivial

theorem afterCheck_prepared (uuid : String) (dto : PlaceOrderDto) :
    Prepared service (afterCheck service uuid dto).progress := by
  rw [afterCheck]
  split
  · trivial
  · cases hnew : newOrder uuid dto with
    | error e => trivial
    | ok order =>
        have hspec := newOrder_spec hnew
        exact ⟨⟨rfl, hspec.symbol, hspec.lockedAsset, hspec.unfilled, hspec.status⟩, trivial⟩

theorem afterSave_prepared {order : StoredOrder} (h : NewOrder order.id order) :
    Prepared service (afterSave service order).progress := by
  rw [afterSave]
  cases hlock : estimateLockAmount order (splitSymbol order.symbol).2 service.takerFeeBps with
  | error e => trivial
  | ok amount => exact ⟨⟨⟨rfl, h.symbol, h.lockedAsset, h.unfilled, h.status⟩, amount, hlock⟩, trivial⟩

theorem resumeDone_prepared (h : point.Prepared service) :
    Prepared service (resumeDone service memory point answer).1.progress := by
  cases point with
  | checked uuid dto => exact afterCheck_prepared uuid dto
  | saved order => exact afterSave_prepared h
  | locked order => exact ⟨h, 0, rfl⟩
  | submitted order attempt =>
      cases answer with
      | report report =>
          rw [resumeDone, afterReport]
          split
          · exact ⟨trivial, trivial⟩
          · exact nextTrade_prepared order report report.fills
      | done | cancelled | failed => trivial
  | rejectedUpdated order report => exact unlocking_prepared order _ trivial trivial fun _ => trivial
  | recorded order report fill rest =>
      rw [resumeDone, applyFill]
      split <;> exact ⟨trivial, trivial⟩
  | makerUpdated order report maker rest =>
      rw [resumeDone, releaseMaker]
      cases memory.object maker with
      | none => exact ⟨trivial, trivial⟩
      | some maker =>
          dsimp only
          split
          · exact unlocking_prepared maker _ trivial trivial fun _ => trivial
          · exact ⟨trivial, trivial⟩
  | produced order report rest => exact nextTrade_prepared order report rest
  | orderUpdated order report => exact unlocking_prepared order _ trivial trivial fun _ => trivial
  | announced order report =>
      rw [resumeDone]
      split
      · exact trivial
      · exact ⟨trivial, trivial⟩
  | cancelAnswered orderId symbol userId attempt =>
      cases answer with
      | cancelled done =>
          simp only [resumeDone, afterCancel]
          split
          · exact unlocking_prepared _ _ trivial trivial fun _ => trivial
          · trivial
      | done | report | failed => trivial
  | settled | makerUnlocked | unlocked | cancelUnlocked | cancelSaved => exact ⟨trivial, trivial⟩
  | unreachable | rejectedUnlocked | matched | cancelAnnounced => exact trivial

theorem resume_prepared (h : point.Prepared service) {pause : OrderPause} {memory' : Memory}
    (hresume : resume service maxRetries point answer memory = (pause, memory')) :
    Prepared service pause.progress := by
  obtain rfl : (resume service maxRetries point answer memory).1 = pause := by rw [hresume]
  cases answer with
  | failed failure => exact resumeFailed_prepared failure h
  | done => exact resumeDone_prepared h
  | report report => exact resumeDone_prepared h
  | cancelled done => exact resumeDone_prepared h

theorem enter_prepared (call : OrderCall) : Prepared service (enter call memory).1.progress := by
  cases call with
  | placeOrder uuid dto => exact ⟨trivial, trivial⟩
  | cancelOrder orderId symbol userId =>
      rw [enter, requireSymbol]
      cases his : isSymbol symbol with
      | false => trivial
      | true => exact ⟨his, 0, rfl⟩

end Prepared

/-! ### Effects -/

namespace Operation

/-- What an operation writes to the orders table. -/
def rows (rows : List OrderEntity) : Operation → List OrderEntity
  | .saveOrder row => Trading.saveOrder rows row
  | .updateOrder id filledQuantity status => Trading.updateOrder rows id filledQuantity status
  | _ => rows

/-- What an operation writes to the trades table. -/
def trades (trades : List Trade) : Operation → List Trade
  | .saveTrade trade => Trading.saveTrade trades trade
  | _ => trades

/-- The requests that the wallet service has served then. -/
def served (served : List WalletRequest) : Operation → List WalletRequest
  | .walletPost request => served ++ [request]
  | _ => served

/-- An operation that asks the engine. -/
def Asks : Operation → Prop
  | .submitOrder _ | .cancelOrder _ _ _ => True
  | _ => False

end Operation

def Answer.Failed (answer : Answer) : Prop := ∃ failure, answer = .failed failure

/-- A failure reports no accepted order. -/
theorem Answer.Failed.refused {answer : Answer} (h : answer.Failed) :
    ∀ report, answer = .report report → report.accepted = false := by
  obtain ⟨failure, rfl⟩ := h
  intro report hreport
  cases hreport

/-- So where the service has reported none, none is seen. -/
theorem refused_or_failed {answer seen : Answer} (hseen : ∀ report, seen = .report report → report.accepted = false)
    (h : answer = seen ∨ answer.Failed) : ∀ report, answer = .report report → report.accepted = false := by
  rcases h with rfl | hfailed
  · exact hseen
  · exact hfailed.refused

theorem refusal_or_failed {answer : Answer}
    (h : (∃ report, answer = .report report ∧ report.accepted = false) ∨ answer.Failed) :
    ∀ report, answer = .report report → report.accepted = false := by
  rcases h with ⟨report, rfl, hrefused⟩ | hfailed
  · rintro _ ⟨⟩
    exact hrefused
  · exact hfailed.refused

/-- **What an operation does.** -/
inductive Performed (parse : DecimalParser) (remote : Remote) : Operation → Answer → Remote → Prop
  | unsent (operation : Operation) {answer : Answer} (failed : answer.Failed) :
      Performed parse remote operation answer remote
  | written {operation : Operation} (inside : ¬operation.Asks) {answer : Answer}
      (answered : answer = .done ∨ answer.Failed) (wallet : Wallet.Database) :
      Performed parse remote operation answer
        { remote with
          rows := operation.rows remote.rows
          trades := operation.trades remote.trades
          wallet := wallet
          served := operation.served remote.served }
  | refused (order : StoredOrder) {answer : Answer}
      (answered : (∃ report, answer = .report report ∧ report.accepted = false) ∨ answer.Failed) :
      Performed parse remote (.submitOrder order) answer remote
  | traded (order : StoredOrder) {request : MatchingEngine.Order} {source : UuidSource}
      {report : ExecutionReport} {dropped : List ExecutionReport} {book : OrderBook} {engine : Core}
      {answer : Answer} (sent : engineOrder parse order = some request)
      (trades : Traded source (bookOf remote.engine order.symbol) request report dropped book)
      (books : engine.books = remote.engine.books.insert order.symbol book)
      (answered : answer = .report report ∨ answer.Failed) :
      Performed parse remote (.submitOrder order) answer
        { remote with
          engine := engine
          handled := remote.handled ++
            [⟨order.symbol, request, report.accepted, report.fills, fillsOf dropped⟩] }
  | unknown (orderId symbol userId : String) {engine : Core}
      (books : engine.books = remote.engine.books) {answer : Answer}
      (answered : answer = .cancelled false ∨ answer.Failed) :
      Performed parse remote (.cancelOrder orderId symbol userId) answer { remote with engine := engine }
  | cancelled (orderId symbol userId : String) {done : Bool} {book : OrderBook} {engine : Core}
      (returned : (bookOf remote.engine symbol).cancel orderId userId = .ok (done, book))
      (result : Cancelled (bookOf remote.engine symbol) orderId userId done book)
      (books : engine.books = remote.engine.books.insert symbol book) {answer : Answer}
      (answered : answer = .cancelled done ∨ answer.Failed) :
      Performed parse remote (.cancelOrder orderId symbol userId) answer { remote with engine := engine }

section Perform

variable {codec : DecimalCodec} {parse : DecimalParser} {remote remote' : Remote} {answer : Answer}

/-- What handling an operation leaves, whatever is seen of its answer. -/
theorem handle_spec (hinv : CoreInv remote.engine) {operation : Operation} {point : Point}
    {service : TradingService} (hprepared : Prepared service (.waiting operation point))
    {input : CallFiles × UuidSource}
    (h : Remote.handle codec parse operation input remote = .ok (answer, remote')) {seen : Answer}
    (hseen : seen = answer ∨ seen.Failed) :
    Performed parse remote operation seen remote' ∧ CoreInv remote'.engine := by
  cases operation with
  | submitOrder order =>
      obtain ⟨hpoint, attempt, rfl⟩ := hprepared
      rw [Remote.handle] at h
      cases hrequest : engineOrder parse order with
      | none =>
          rw [hrequest] at h
          cases h
      | some request =>
          obtain ⟨report, dropped, engine, hsubmit, hinv', hcase⟩ := submitOrder_traded codec input.1 input.2
            request hinv (normalizeSymbol_of_isSymbol hpoint.1.symbol)
          simp only [hrequest, hsubmit] at h
          obtain ⟨rfl, rfl⟩ := Prod.mk.inj (Except.ok.inj h)
          rcases hcase with ⟨hlogs, hrefused, _, rfl⟩ | ⟨book, hlogs, htraded, hbooks⟩
          · refine ⟨?_, hinv⟩
            rw [hlogs]
            exact .refused order (hseen.imp_left fun heq => ⟨report, heq, hrefused⟩)
          · refine ⟨?_, hinv'⟩
            rw [hlogs]
            exact .traded order hrequest htraded hbooks hseen
  | cancelOrder orderId symbol userId =>
      obtain ⟨hpoint, attempt, rfl⟩ := hprepared
      obtain ⟨done, engine, hcancel, hinv', hcase⟩ :=
        cancelOrder_cases input.1 orderId userId hinv (normalizeSymbol_of_isSymbol hpoint)
      simp only [Remote.handle, hcancel] at h
      obtain ⟨rfl, rfl⟩ := Prod.mk.inj (Except.ok.inj h)
      rcases hcase with ⟨rfl, hbooks⟩ | ⟨book, hreturned, hresult, hbooks⟩
      · exact ⟨.unknown orderId symbol userId hbooks hseen, hinv'⟩
      · exact ⟨.cancelled orderId symbol userId hreturned hresult hbooks hseen, hinv'⟩
  | walletPost request =>
      rw [Remote.handle, Remote.walletPost] at h
      cases hexec : remote.wallet.exec .fin some request.op with
      | error e =>
          rw [hexec] at h
          cases h
      | ok p =>
          rw [hexec] at h
          obtain ⟨rfl, rfl⟩ := Prod.mk.inj (Except.ok.inj h)
          exact ⟨.written (by simp [Operation.Asks]) hseen p.2, hinv⟩
  | findRows | saveOrder | updateOrder | saveTrade | produce | resolved =>
      obtain ⟨rfl, rfl⟩ := Prod.mk.inj (Except.ok.inj h)
      exact ⟨.written (by simp [Operation.Asks]) hseen _, hinv⟩

/-- **What an operation does**, whatever happens to it. -/
theorem perform_spec (hinv : CoreInv remote.engine) {operation : Operation} {point : Point}
    {service : TradingService} (hprepared : Prepared service (.waiting operation point))
    {attempt : Attempt Failure (CallFiles × UuidSource)}
    (h : perform codec parse operation attempt remote = (answer, remote')) :
    Performed parse remote operation answer remote' ∧ CoreInv remote'.engine := by
  by_cases hresolved : operation = .resolved
  · subst hresolved
    obtain ⟨rfl, rfl⟩ := Prod.mk.inj h
    have hinside : ¬Operation.resolved.Asks := fun hasks => hasks
    exact ⟨.written hinside (Or.inl rfl) remote.wallet, hinv⟩
  rw [perform_eq codec parse hresolved] at h
  cases attempt with
  | unsent failure =>
      obtain ⟨rfl, rfl⟩ := Prod.mk.inj h
      exact ⟨.unsent operation ⟨failure, rfl⟩, hinv⟩
  | lost failure input =>
      rw [Attempt.run] at h
      cases hhandle : Remote.handle codec parse operation input remote with
      | error e =>
          rw [hhandle] at h
          obtain ⟨rfl, rfl⟩ := Prod.mk.inj h
          exact ⟨.unsent operation ⟨failure, rfl⟩, hinv⟩
      | ok p =>
          obtain ⟨answer', remote''⟩ := p
          rw [hhandle] at h
          obtain ⟨rfl, rfl⟩ := Prod.mk.inj h
          exact handle_spec hinv hprepared hhandle (Or.inr ⟨failure, rfl⟩)
  | answered input =>
      rw [Attempt.run] at h
      cases hhandle : Remote.handle codec parse operation input remote with
      | error failure =>
          rw [hhandle] at h
          obtain ⟨rfl, rfl⟩ := Prod.mk.inj h
          exact ⟨.unsent operation ⟨failure, rfl⟩, hinv⟩
      | ok p =>
          obtain ⟨answer', remote''⟩ := p
          rw [hhandle] at h
          obtain ⟨rfl, rfl⟩ := Prod.mk.inj h
          exact handle_spec hinv hprepared hhandle (Or.inl rfl)

end Perform

end NexusTrade.Trading
