import NexusTrade.Trading.Counted
import NexusTrade.Trading.Holdings
import NexusTrade.Trading.Settlement
import NexusTrade.Wallet.Totals

/-!
# What trading does to what users own

Over every interleaving of `placeOrder` and `cancelOrder`, whatever operations fail, what a user owns of an asset,
available or locked, changes by the trades that are settled, and by nothing else.

* **`Exchange`** is what a trade moves between two users, **`Exchange.gain`** what one of them gains of an asset;
* **`moved_settleTrade`**: the four legs of a settlement are an exchange;
* **`toSettle`**: the fills that a call has still to settle; **`Continues`**: it goes on with no others;
* **`performed_settles`**: what an operation settles is taken from there, and the engine reports the rest;
* **`Explained`** is the invariant, **`balances_follow_trades`** what it says of whole runs.
-/

namespace NexusTrade.Trading

open MatchingEngine (Side Decimal Fill ExecutionReport CoreInv CallFiles UuidSource DecimalCodec)
open Wallet (AllFinite held moved totalOf ofUser)

/-! ### Exchanges -/

/-- **What a trade moves**: the seller gives the base asset and the buyer the quote asset; each of them pays a fee in
the quote asset. -/
structure Exchange where
  sellerId : String
  buyerId : String
  baseAsset : String
  quoteAsset : String
  quantity : Decimal
  notional : Decimal
  sellerFee : Decimal
  buyerFee : Decimal
  deriving DecidableEq

namespace Exchange

variable (exchange : Exchange) (userId asset : String)

/-- What the seller gains of an asset. -/
def sold : Decimal :=
  (if exchange.quoteAsset = asset then exchange.notional - exchange.sellerFee else 0)
    - if exchange.baseAsset = asset then exchange.quantity else 0

/-- What the buyer gains of an asset. -/
def bought : Decimal :=
  (if exchange.baseAsset = asset then exchange.quantity else 0)
    - if exchange.quoteAsset = asset then exchange.notional + exchange.buyerFee else 0

/-- **What a user gains of an asset.** -/
def gain : Decimal :=
  (if exchange.sellerId = userId then exchange.sold asset else 0)
    + if exchange.buyerId = userId then exchange.bought asset else 0

/-- What both pay in an asset. -/
def fees : Decimal := if exchange.quoteAsset = asset then exchange.sellerFee + exchange.buyerFee else 0

end Exchange

/-- The exchange that a settlement asks for. -/
def exchangeOf (dto : Wallet.SettlementDto) : Exchange :=
  let notional := dto.price.value * dto.quantity.value
  let makerFee := (dto.makerFee.getD .zero).value
  let takerFee := (dto.takerFee.getD .zero).value
  if dto.makerSide = "SELL" then
    ⟨dto.makerUserId, dto.takerUserId, dto.baseAsset, dto.quoteAsset, dto.quantity.value, notional, makerFee, takerFee⟩
  else ⟨dto.takerUserId, dto.makerUserId, dto.baseAsset, dto.quoteAsset, dto.quantity.value, notional, takerFee, makerFee⟩

/-- The exchanges that requests to the wallet service have carried out. -/
def exchanges (requests : List WalletRequest) : List Exchange := (settlements requests).map exchangeOf

theorem exchanges_append (requests requests' : List WalletRequest) :
    exchanges (requests ++ requests') = exchanges requests ++ exchanges requests' := by
  rw [exchanges, settlements, List.filterMap_append, List.map_append]
  rfl

/-- **The exchange of a fill**, by the side of its maker. -/
def TradingService.exchange (service : TradingService) (symbol : String) (fill : Fill) (makerSide : Side) : Exchange :=
  let notional := fill.price * fill.quantity
  let makerFee := calculateFee notional service.makerFeeBps
  let takerFee := calculateFee notional service.takerFeeBps
  match makerSide with
  | .sell => ⟨fill.makerUserId, fill.takerUserId, (splitSymbol symbol).1, (splitSymbol symbol).2, fill.quantity,
      notional, makerFee, takerFee⟩
  | .buy => ⟨fill.takerUserId, fill.makerUserId, (splitSymbol symbol).1, (splitSymbol symbol).2, fill.quantity,
      notional, takerFee, makerFee⟩

/-- A fill of a symbol that is settled, with the side of its maker. -/
structure SettledFill where
  symbol : String
  fill : Fill
  makerSide : Side

/-- The fill as the engine has reported it. -/
def SettledFill.reported (settled : SettledFill) : String × Fill := (settled.symbol, settled.fill)

def TradingService.exchangeOf (service : TradingService) (settled : SettledFill) : Exchange :=
  service.exchange settled.symbol settled.fill settled.makerSide

theorem exchangeOf_settlement (service : TradingService) (order : StoredOrder) (fill : Fill) (makerSide : Side) :
    exchangeOf (TradingService.settlement (service.toTrade order fill) makerSide)
      = service.exchange order.symbol fill makerSide := by
  cases makerSide with
  | buy =>
      have hside : ¬(TradingService.settlement (service.toTrade order fill) .buy).makerSide = "SELL" :=
        show ¬("BUY" : String) = "SELL" by decide
      rw [exchangeOf, if_neg hside]
      rfl
  | sell => rfl

theorem fees_exchangeOf (dto : Wallet.SettlementDto) (asset : String) :
    (exchangeOf dto).fees asset = if dto.quoteAsset = asset then dto.fees else 0 := by
  rw [exchangeOf]
  split
  · rfl
  · rw [Wallet.SettlementDto.fees, add_comm]
    rfl

/-- The notional of an exchange in an asset. -/
def Exchange.turnover (exchange : Exchange) (asset : String) : Decimal :=
  if exchange.quoteAsset = asset then exchange.notional else 0

theorem calculateFee_zero (feeBps : Decimal) : calculateFee 0 feeBps = 0 := by
  rw [calculateFee, zero_mul, zero_div]

theorem calculateFee_add (notional feeBps feeBps' : Decimal) :
    calculateFee notional (feeBps + feeBps') = calculateFee notional feeBps + calculateFee notional feeBps' := by
  rw [calculateFee, calculateFee, calculateFee, mul_add, add_div]

/-- **Both fees** are taken of the same notional. -/
theorem fees_exchange (service : TradingService) (symbol : String) (fill : Fill) (makerSide : Side) (asset : String) :
    (service.exchange symbol fill makerSide).fees asset
      = calculateFee ((service.exchange symbol fill makerSide).turnover asset)
          (service.makerFeeBps + service.takerFeeBps) := by
  have hboth : (service.exchange symbol fill makerSide).sellerFee + (service.exchange symbol fill makerSide).buyerFee
      = calculateFee (service.exchange symbol fill makerSide).notional (service.makerFeeBps + service.takerFeeBps) := by
    rw [calculateFee_add]
    cases makerSide with
    | sell => rfl
    | buy => exact add_comm _ _
  rw [Exchange.fees, Exchange.turnover]
  split
  · exact hboth
  · exact (calculateFee_zero _).symm

/-- What a user owns of an asset, available or locked. -/
def owned (userId asset : String) (wallet : Wallet.Database) : Decimal := held (ofUser userId asset) wallet.wallets

theorem ofUser_rowKey (userId asset userId' asset' : String) :
    ofUser userId asset (Wallet.Database.rowKey userId' asset') = decide (userId' = userId ∧ asset' = asset) :=
  decide_eq_decide.mpr rowKey_eq_iff

/-- What two writes to the wallets of one user move. -/
theorem moved_two (userId asset userId' asset₁ asset₂ : String) (bucket₁ bucket₂ : Wallet.Bucket) (x y : Decimal)
    (label₁ label₂ : Option String) :
    moved (ofUser userId asset) [⟨Wallet.Database.rowKey userId' asset₁, bucket₁, .fin x, label₁⟩,
        ⟨Wallet.Database.rowKey userId' asset₂, bucket₂, .fin y, label₂⟩]
      = if userId' = userId then (if asset₁ = asset then x else 0) + (if asset₂ = asset then y else 0) else 0 := by
  simp only [moved, List.map_cons, List.map_nil, List.sum_cons, List.sum_nil, Wallet.Write.moved, ofUser_rowKey,
    decide_eq_true_eq, Amount.value, add_zero]
  by_cases hid : userId' = userId
  · simp only [hid, true_and, if_true]
  · simp only [hid, false_and, if_false, add_zero]

/-- **The legs of a settlement are an exchange.** -/
theorem moved_settleTrade {dto : Wallet.SettlementDto} (h : dto.Finite) (userId asset : String) :
    moved (ofUser userId asset) ((Wallet.WalletOp.settleTrade dto).typeOrmWrites .fin)
      = (exchangeOf dto).gain userId asset := by
  obtain ⟨price, hprice⟩ := Extended.isFinite_iff.mp h.price
  obtain ⟨quantity, hquantity⟩ := Extended.isFinite_iff.mp h.quantity
  obtain ⟨makerFee, hmaker⟩ := Extended.isFinite_iff.mp h.makerFee
  obtain ⟨takerFee, htaker⟩ := Extended.isFinite_iff.mp h.takerFee
  have hpairs : ∀ a b c d : Wallet.Write (String ×ₗ String), moved (ofUser userId asset) [a, b, c, d]
      = moved (ofUser userId asset) [a, b] + moved (ofUser userId asset) [c, d] := by
    intro a b c d
    simp only [moved, List.map_cons, List.map_nil, List.sum_cons, List.sum_nil]
    ring
  have hlegs : Wallet.settlementLegs .fin dto = if dto.makerSide = "SELL" then
      [⟨dto.makerUserId, dto.baseAsset, .fin (-quantity), .locked⟩,
        ⟨dto.makerUserId, dto.quoteAsset, .fin (price * quantity + -makerFee), .available⟩,
        ⟨dto.takerUserId, dto.quoteAsset, .fin (-(price * quantity + takerFee)), .locked⟩,
        ⟨dto.takerUserId, dto.baseAsset, .fin quantity, .available⟩]
    else
      [⟨dto.makerUserId, dto.quoteAsset, .fin (-(price * quantity + makerFee)), .locked⟩,
        ⟨dto.makerUserId, dto.baseAsset, .fin quantity, .available⟩,
        ⟨dto.takerUserId, dto.baseAsset, .fin (-quantity), .locked⟩,
        ⟨dto.takerUserId, dto.quoteAsset, .fin (price * quantity + -takerFee), .available⟩] := by
    simp only [Wallet.settlementLegs, Wallet.quoteAmount, hprice, hquantity, hmaker, htaker]
    rfl
  rw [Wallet.WalletOp.typeOrmWrites, hlegs, exchangeOf, hprice, hquantity, hmaker, htaker]
  simp only [Amount.value_fin]
  split
  · rw [Wallet.legWrites]
    simp only [List.map_cons, List.map_nil]
    rw [hpairs, moved_two, moved_two, Exchange.gain, Exchange.sold, Exchange.bought]
    congr 1
    · congr 1
      split <;> split <;> ring
    · congr 1
      split <;> split <;> ring
  · rw [Wallet.legWrites]
    simp only [List.map_cons, List.map_nil]
    rw [hpairs, moved_two, moved_two, Exchange.gain, Exchange.sold, Exchange.bought, add_comm]
    congr 1
    · congr 1
      split <;> split <;> ring
    · congr 1
      split <;> split <;> ring

/-! ### What a call settles -/

/-- The fills that the engine has reported, each with the symbol of its book. -/
def reports (handled : List Handled) : List (String × Fill) := handled.flatMap fun h => h.fills.map (h.symbol, ·)

/-- The fills that a call has still to settle, with the symbol of its order. -/
def Point.toSettle (answer : Option Answer) : Point → List (String × Fill)
  | .submitted order _ => (accepted answer).flatMap fun report => report.fills.map (order.symbol, ·)
  | .settled order _ fill rest => (answer.elim [fill] (fun _ => []) ++ rest).map (order.symbol, ·)
  | .recorded order _ _ rest | .makerUpdated order _ _ rest | .makerUnlocked order _ _ rest
  | .produced order _ rest => rest.map (order.symbol, ·)
  | _ => []

def toSettle : OrderProgress → List (String × Fill) := atPoint Point.toSettle

/-- What a call asks of the wallet service: the amounts are finite, and a settlement is that of the next fill. -/
def Operation.Backed (service : TradingService) (point : Point) : Operation → Prop
  | .walletPost (.settleTrade dto) => ∃ order report fill rest makerSide, point = .settled order report fill rest ∧
      dto = TradingService.settlement (service.toTrade order fill) makerSide
  | .walletPost request => request.op.Finite
  | _ => True

def Backed (service : TradingService) : OrderProgress → Prop
  | .waiting operation point => operation.Backed service point
  | _ => True

/-- **A call goes on** with no other fills than it had to settle. -/
structure Continues (service : TradingService) (due : List (String × Fill)) (progress : OrderProgress) : Prop where
  backed : Backed service progress
  less : (toSettle progress).Sublist due

section Continues

variable {service : TradingService} {maxRetries : ℕ} {memory : Memory} {answer : Answer} {point : Point}
  {due : List (String × Fill)}

/-- A call with nothing to settle. -/
theorem Continues.settled {progress : OrderProgress} (hbacked : Backed service progress)
    (hnone : toSettle progress = []) : Continues service due progress :=
  ⟨hbacked, hnone ▸ List.nil_sublist due⟩

theorem unlocking_continues (order : StoredOrder) (amount : Decimal) (h : (point.toSettle none).Sublist due) :
    Continues service due (unlocking order amount point).progress := by
  rw [unlocking]
  split
  · exact ⟨trivial, h⟩
  · exact ⟨rfl, h⟩

/-- **The next trade** is the first of those that are left. -/
theorem nextTrade_continues (order : StoredOrder) (report : ExecutionReport) (rest : List Fill) :
    Continues service (rest.map (order.symbol, ·)) (nextTrade service memory order report rest).progress := by
  cases rest with
  | nil => exact Continues.settled trivial rfl
  | cons fill rest => exact ⟨⟨order, report, fill, rest, _, rfl, rfl⟩, List.Sublist.refl _⟩

theorem resumeFailed_continues (failure : Failure) :
    Continues service due (resumeFailed maxRetries failure point).progress := by
  cases point with
  | submitted order attempt =>
      rw [resumeFailed]
      split
      · exact Continues.settled trivial rfl
      · exact unlocking_continues order _ (List.nil_sublist due)
  | cancelAnswered orderId symbol userId attempt =>
      rw [resumeFailed]
      split
      · exact Continues.settled trivial rfl
      · exact Continues.settled trivial rfl
  | _ => exact Continues.settled trivial rfl

theorem afterCheck_continues (uuid : String) (dto : PlaceOrderDto) :
    Continues service due (afterCheck service uuid dto).progress := by
  rw [afterCheck]
  split
  · exact Continues.settled trivial rfl
  · cases newOrder uuid dto with
    | error e => exact Continues.settled trivial rfl
    | ok order => exact Continues.settled trivial rfl

theorem afterSave_continues (order : StoredOrder) :
    Continues service due (afterSave service order).progress := by
  rw [afterSave]
  split
  · exact Continues.settled trivial rfl
  · exact Continues.settled rfl rfl

theorem afterReport_continues (order : StoredOrder) (attempt : ℕ) (report : ExecutionReport) :
    Continues service ((Point.submitted order attempt).toSettle (some (.report report)))
      (afterReport service memory order report).progress := by
  rw [afterReport]
  split
  · exact Continues.settled trivial rfl
  · rename_i haccepted
    have hdue : (Point.submitted order attempt).toSettle (some (.report report))
        = report.fills.map (order.symbol, ·) := by
      rw [Point.toSettle, accepted_report haccepted, List.flatMap_singleton]
    rw [hdue]
    exact nextTrade_continues order report report.fills

theorem finishPlacing_continues (order : StoredOrder) (report : ExecutionReport) :
    Continues service due (finishPlacing memory order report).1.progress := Continues.settled trivial rfl

/-- **Going on where the operation has been answered.** -/
theorem resumeDone_continues :
    Continues service (point.toSettle (some answer)) (resumeDone service memory point answer).1.progress := by
  cases point with
  | checked uuid dto => exact afterCheck_continues uuid dto
  | saved order => exact afterSave_continues order
  | locked order => exact Continues.settled trivial rfl
  | submitted order attempt =>
      cases answer with
      | report report => exact afterReport_continues order attempt report
      | done | cancelled | failed => exact Continues.settled trivial rfl
  | rejectedUpdated order report => exact unlocking_continues order _ (List.nil_sublist _)
  | settled order report fill rest => exact ⟨trivial, List.Sublist.refl _⟩
  | recorded order report fill rest =>
      rw [resumeDone, applyFill]
      split
      · exact ⟨trivial, List.Sublist.refl _⟩
      · exact ⟨trivial, List.Sublist.refl _⟩
  | makerUpdated order report maker rest =>
      rw [resumeDone, releaseMaker]
      split
      · exact ⟨trivial, List.Sublist.refl _⟩
      · split
        · exact unlocking_continues _ _ (List.Sublist.refl _)
        · exact ⟨trivial, List.Sublist.refl _⟩
  | makerUnlocked order report maker rest => exact ⟨trivial, List.Sublist.refl _⟩
  | produced order report rest => exact nextTrade_continues order report rest
  | orderUpdated order report => exact unlocking_continues order _ (List.nil_sublist _)
  | unlocked order report restLock => exact Continues.settled trivial rfl
  | announced order report =>
      rw [resumeDone]
      split
      · exact finishPlacing_continues order report
      · exact Continues.settled trivial rfl
  | cancelAnswered orderId symbol userId attempt =>
      cases answer with
      | cancelled done =>
          simp only [resumeDone, afterCancel]
          split
          · exact unlocking_continues _ _ (List.nil_sublist _)
          · exact Continues.settled trivial rfl
      | done | report | failed => exact Continues.settled trivial rfl
  | cancelUnlocked orderId => exact Continues.settled trivial rfl
  | cancelSaved orderId => exact Continues.settled trivial rfl
  | unreachable | rejectedUnlocked | matched | cancelAnnounced => exact Continues.settled trivial rfl

theorem resume_continues {pause : OrderPause} {memory' : Memory}
    (hresume : resume service maxRetries point answer memory = (pause, memory')) :
    Continues service (point.toSettle (some answer)) pause.progress := by
  obtain rfl : (resume service maxRetries point answer memory).1 = pause := by rw [hresume]
  cases answer with
  | failed failure => exact resumeFailed_continues failure
  | done | report | cancelled => exact resumeDone_continues

theorem enter_continues (call : OrderCall) : Continues service due (enter call memory).1.progress := by
  cases call with
  | placeOrder uuid dto => exact Continues.settled trivial rfl
  | cancelOrder orderId symbol userId =>
      rw [enter]
      split
      · exact Continues.settled trivial rfl
      · exact Continues.settled trivial rfl

end Continues

/-! ### What an operation does to the wallets -/

section Perform

variable {codec : DecimalCodec} {parse : DecimalParser} {service : TradingService} {remote remote' : Remote}
  {answer : Answer}

/-- Only a request that the wallet service serves changes a wallet. -/
theorem handle_wallet {operation : Operation} {input : CallFiles × UuidSource}
    (h : Remote.handle codec parse operation input remote = .ok (answer, remote')) :
    (remote'.wallet = remote.wallet ∧ remote'.served = remote.served) ∨
      ∃ request reply, operation = .walletPost request ∧
        remote.wallet.exec .fin some request.op = .ok (reply, remote'.wallet) ∧
        remote'.served = remote.served ++ [request] := by
  cases operation with
  | walletPost request =>
      rw [Remote.handle] at h
      cases hpost : remote.walletPost request with
      | error e =>
          rw [hpost] at h
          cases h
      | ok posted =>
          rw [hpost] at h
          obtain ⟨rfl, rfl⟩ := Prod.mk.inj (Except.ok.inj h)
          obtain ⟨reply, wallet, hexec, rfl⟩ := walletPost_eq_ok.mp hpost
          exact Or.inr ⟨request, reply, rfl, hexec, rfl⟩
  | submitOrder order =>
      rw [Remote.handle] at h
      split at h
      · cases h
      · split at h
        · cases h
        · obtain ⟨rfl, rfl⟩ := Prod.mk.inj (Except.ok.inj h)
          exact Or.inl ⟨rfl, rfl⟩
  | cancelOrder orderId symbol userId =>
      rw [Remote.handle] at h
      split at h
      · cases h
      · obtain ⟨rfl, rfl⟩ := Prod.mk.inj (Except.ok.inj h)
        exact Or.inl ⟨rfl, rfl⟩
  | findRows | saveOrder | updateOrder | saveTrade | produce | resolved =>
      obtain ⟨rfl, rfl⟩ := Prod.mk.inj (Except.ok.inj h)
      exact Or.inl ⟨rfl, rfl⟩

/-- **What an operation does to the wallets**, whatever is seen of it. -/
theorem perform_wallet {operation : Operation} {attempt : Attempt Failure (CallFiles × UuidSource)}
    (h : perform codec parse operation attempt remote = (answer, remote')) :
    (remote'.wallet = remote.wallet ∧ remote'.served = remote.served) ∨
      ∃ request reply, operation = .walletPost request ∧
        remote.wallet.exec .fin some request.op = .ok (reply, remote'.wallet) ∧
        remote'.served = remote.served ++ [request] := by
  by_cases hresolved : operation = .resolved
  · subst hresolved
    obtain ⟨rfl, rfl⟩ := Prod.mk.inj h
    exact Or.inl ⟨rfl, rfl⟩
  rw [perform_eq codec parse hresolved] at h
  cases attempt with
  | unsent failure =>
      obtain ⟨rfl, rfl⟩ := Prod.mk.inj h
      exact Or.inl ⟨rfl, rfl⟩
  | lost failure input =>
      rw [Attempt.run] at h
      cases hhandle : Remote.handle codec parse operation input remote with
      | error e =>
          rw [hhandle] at h
          obtain ⟨rfl, rfl⟩ := Prod.mk.inj h
          exact Or.inl ⟨rfl, rfl⟩
      | ok p =>
          rw [hhandle] at h
          obtain ⟨rfl, rfl⟩ := Prod.mk.inj h
          exact handle_wallet hhandle
  | answered input =>
      rw [Attempt.run] at h
      cases hhandle : Remote.handle codec parse operation input remote with
      | error failure =>
          rw [hhandle] at h
          obtain ⟨rfl, rfl⟩ := Prod.mk.inj h
          exact Or.inl ⟨rfl, rfl⟩
      | ok p =>
          rw [hhandle] at h
          obtain ⟨rfl, rfl⟩ := Prod.mk.inj h
          exact handle_wallet hhandle

/-- A request to the wallet service other than a settlement settles nothing. -/
theorem exchanges_served {operation : Operation} {served : List WalletRequest}
    (h : ∀ dto, operation ≠ .walletPost (.settleTrade dto)) :
    exchanges (operation.served served) = exchanges served := by
  cases operation with
  | walletPost request =>
      cases request with
      | settleTrade dto => exact absurd rfl (h dto)
      | lock | unlock =>
          rw [Operation.served, exchanges, settlements, List.filterMap_append]
          exact congrArg _ (List.append_nil _)
  | _ => rfl

/-- An answer that accepts no order adds nothing to settle. -/
theorem toSettle_answered {point : Point} (hanswer : ∀ report, answer = .report report → report.accepted = false) :
    (point.toSettle (some answer)).Sublist (point.toSettle none) := by
  cases point with
  | submitted order attempt =>
      rw [Point.toSettle, accepted_eq_nil hanswer]
      exact List.nil_sublist _
  | settled order report fill rest => exact (List.sublist_cons_self fill rest).map _
  | _ => exact List.Sublist.refl _

/-- **What an operation settles** is taken from what its call has to settle; what the call has to settle then is what
is left of that, or what the engine reports. -/
structure Settles (service : TradingService) (remote remote' : Remote) (due due' : List (String × Fill))
    (done : List SettledFill) (more : List (String × Fill)) : Prop where
  served : exchanges remote'.served = exchanges remote.served ++ done.map service.exchangeOf
  handled : reports remote'.handled = reports remote.handled ++ more
  taken : (done.map SettledFill.reported ++ due').Subperm (due ++ more)

/-- An operation that settles nothing. -/
theorem Settles.nothing {due due' : List (String × Fill)} (hserved : exchanges remote'.served = exchanges remote.served)
    (hhandled : remote'.handled = remote.handled) (hless : due'.Sublist due) :
    Settles service remote remote' due due' [] [] where
  served := hserved.trans (List.append_nil _).symm
  handled := by rw [hhandled, List.append_nil]
  taken := by
    rw [List.append_nil]
    exact hless.subperm

/-- **What an operation settles.** -/
theorem performed_settles {operation : Operation} {point : Point} (h : Performed parse remote operation answer remote')
    (hprepared : Prepared service (.waiting operation point)) (hbacked : operation.Backed service point) :
    ∃ done more, Settles service remote remote' (point.toSettle none) (point.toSettle (some answer)) done more := by
  cases h with
  | unsent operation failed => exact ⟨[], [], Settles.nothing rfl rfl (toSettle_answered failed.refused)⟩
  | written inside answered wallet =>
      have hanswer : ∀ report, answer = .report report → report.accepted = false :=
        refused_or_failed (by rintro _ ⟨⟩) answered
      by_cases hsettles : ∃ dto, operation = .walletPost (.settleTrade dto)
      · obtain ⟨dto, rfl⟩ := hsettles
        obtain ⟨order, report, fill, rest, makerSide, rfl, rfl⟩ := hbacked
        refine ⟨[⟨order.symbol, fill, makerSide⟩], [], ?_, (List.append_nil _).symm, ?_⟩
        · show exchanges (remote.served ++ [_]) = _
          rw [exchanges_append]
          exact congrArg (_ ++ [·]) (exchangeOf_settlement service order fill makerSide)
        · rw [List.append_nil]
          exact List.Subperm.refl _
      · have hserved : exchanges (operation.served remote.served) = exchanges remote.served :=
          exchanges_served fun dto hdto => hsettles ⟨dto, hdto⟩
        exact ⟨[], [], Settles.nothing hserved rfl (toSettle_answered hanswer)⟩
  | refused order answered =>
      exact ⟨[], [], Settles.nothing rfl rfl (toSettle_answered (refusal_or_failed answered))⟩
  | @traded order request source report dropped book engine answer sent trades books answered =>
      obtain ⟨-, attempt, rfl⟩ := hprepared
      refine ⟨[], report.fills.map (order.symbol, ·), (List.append_nil _).symm, ?_, ?_⟩
      · rw [reports, reports, List.flatMap_append, List.flatMap_singleton]
      · show ((accepted (some answer)).flatMap fun report => report.fills.map (order.symbol, ·)).Subperm
          (report.fills.map (order.symbol, ·))
        rcases answered with rfl | hfailed
        · rw [accepted]
          split
          · rw [List.flatMap_singleton]
          · exact List.nil_subperm
        · rw [accepted_eq_nil hfailed.refused]
          exact List.nil_subperm
  | unknown orderId symbol userId books answered | cancelled orderId symbol userId returned result books answered =>
      have hanswer : ∀ report, answer = .report report → report.accepted = false :=
        refused_or_failed (by rintro _ ⟨⟩) answered
      exact ⟨[], [], Settles.nothing rfl rfl (toSettle_answered hanswer)⟩

end Perform

/-! ### Runs -/

/-- What a request adds to the wallets that are selected. -/
def WalletRequest.moved (which : String ×ₗ String → Bool) (request : WalletRequest) : Decimal :=
  Wallet.moved which (request.op.typeOrmWrites .fin)

/-- **The invariant**: the requests that the wallet service has served explain its balances; of the fills that the
engine has reported, some are settled and others the calls have still to settle. -/
structure Explained (service : TradingService) (wallet₀ : Wallet.Database) (world : OrderWorld) : Prop where
  inv : CoreInv world.remote.engine
  prepared : ∀ thread ∈ world.threads, Prepared service thread.progress
  backed : ∀ thread ∈ world.threads, Backed service thread.progress
  finite : AllFinite world.remote.wallet.wallets
  asked : ∀ request ∈ world.remote.served, request.op.Finite
  settled : ∃ done : List SettledFill, exchanges world.remote.served = done.map service.exchangeOf ∧
    (done.map SettledFill.reported ++ gather toSettle world.threads).Subperm (reports world.remote.handled)
  moved : ∀ which, held which world.remote.wallet.wallets
    = held which wallet₀.wallets + (world.remote.served.map (WalletRequest.moved which)).sum

section Steps

variable {codec : DecimalCodec} {parse : DecimalParser} {service : TradingService} {maxRetries : ℕ}
  {wallet₀ : Wallet.Database} {memory memory' : Memory} {remote remote' : Remote} {pre post : List OrderThread}
  {call : OrderCall} {operation : Operation} {point : Point} {answer : Answer}

theorem Operation.Backed.finite {request : WalletRequest}
    (h : Operation.Backed service point (.walletPost request)) : request.op.Finite := by
  cases request with
  | settleTrade dto =>
      obtain ⟨order, report, fill, rest, makerSide, -, rfl⟩ := h
      exact ⟨rfl, rfl, rfl, rfl⟩
  | lock | unlock => exact h

/-- Nothing has been asked. -/
theorem Explained.start (hfinite : AllFinite wallet₀.wallets) (persistence : Option MatchingEngine.Persistence) :
    Explained service wallet₀ (Trading.start wallet₀ persistence) where
  inv := (Engaged.start wallet₀ persistence).inv
  prepared := fun thread hthread => absurd hthread (List.not_mem_nil (a := thread))
  backed := fun thread hthread => absurd hthread (List.not_mem_nil (a := thread))
  finite := hfinite
  asked := fun request hrequest => absurd hrequest (List.not_mem_nil (a := request))
  settled := ⟨[], rfl, List.nil_subperm⟩
  moved := fun _ => (add_zero _).symm

/-- **A call that goes on.** -/
theorem Explained.continued {pause : OrderPause}
    (h : Explained service wallet₀ ⟨memory, remote, pre ++ ⟨call, .ready answer point⟩ :: post⟩)
    (hprepared : Prepared service pause.progress)
    (hcontinues : Continues service (point.toSettle (some answer)) pause.progress) :
    Explained service wallet₀ ⟨memory', remote, pre ++ ⟨call, pause.progress⟩ :: post⟩ := by
  obtain ⟨done, hserved, hreported⟩ := h.settled
  have hless : (gather toSettle (pre ++ ⟨call, pause.progress⟩ :: post)).Subperm
      (gather toSettle (pre ++ ⟨call, .ready answer point⟩ :: post)) := gather_subperm hcontinues.less.subperm
  refine ⟨h.inv, ?_, ?_, h.finite, h.asked, ⟨done, hserved, ?_⟩, h.moved⟩
  · intro thread hthread
    rcases mem_around hthread ⟨call, .ready answer point⟩ with rfl | hold
    · exact hprepared
    · exact h.prepared thread hold
  · intro thread hthread
    rcases mem_around hthread ⟨call, .ready answer point⟩ with rfl | hold
    · exact hcontinues.backed
    · exact h.backed thread hold
  · exact ((List.subperm_append_left _).mpr hless).trans hreported

/-- A call that begins. -/
theorem Explained.entered {threads : List OrderThread} {pause : OrderPause}
    (h : Explained service wallet₀ ⟨memory, remote, threads⟩) (hprepared : Prepared service pause.progress)
    (hcontinues : Continues service [] pause.progress) :
    Explained service wallet₀ ⟨memory', remote, threads ++ [⟨call, pause.progress⟩]⟩ := by
  obtain ⟨done, hserved, hreported⟩ := h.settled
  refine ⟨h.inv, ?_, ?_, h.finite, h.asked, ⟨done, hserved, ?_⟩, h.moved⟩
  · exact List.forall_mem_append.mpr ⟨h.prepared, List.forall_mem_singleton.mpr hprepared⟩
  · exact List.forall_mem_append.mpr ⟨h.backed, List.forall_mem_singleton.mpr hcontinues.backed⟩
  · show (done.map SettledFill.reported ++ gather toSettle (threads ++ [⟨call, pause.progress⟩])).Subperm _
    rw [gather_snoc, List.sublist_nil.mp hcontinues.less, List.append_nil]
    exact hreported

/-- The fills that are settled and those that are not, after an operation. -/
theorem Settles.gathered {done done' : List SettledFill} {more : List (String × Fill)}
    (h : Settles service remote remote' (point.toSettle none) (point.toSettle (some answer)) done' more)
    (hreported : (done.map SettledFill.reported
      ++ gather toSettle (pre ++ ⟨call, .waiting operation point⟩ :: post)).Subperm (reports remote.handled)) :
    ((done ++ done').map SettledFill.reported
      ++ gather toSettle (pre ++ ⟨call, .ready answer point⟩ :: post)).Subperm (reports remote'.handled) := by
  have hbefore := gather_perm toSettle pre post call (.waiting operation point)
  have hafter := gather_perm toSettle pre post call (.ready answer point)
  rw [List.subperm_ext_iff]
  intro fill _
  have htaken := h.taken.count_le fill
  have hold := hreported.count_le fill
  rw [List.map_append, h.handled]
  simp only [List.count_append] at htaken hold ⊢
  rw [hbefore.count_eq, List.count_append] at hold
  rw [hafter.count_eq, List.count_append]
  show _ + _ + (List.count fill (point.toSettle (some answer)) + _) ≤ _
  have hdue : List.count fill (toSettle (.waiting operation point)) = List.count fill (point.toSettle none) := rfl
  omega

/-- **One operation.** -/
theorem Explained.performed {attempt : Attempt Failure (CallFiles × UuidSource)}
    (h : Explained service wallet₀ ⟨memory, remote, pre ++ ⟨call, .waiting operation point⟩ :: post⟩)
    (heffect : perform codec parse operation attempt remote = (answer, remote')) :
    Explained service wallet₀ ⟨memory, remote', pre ++ ⟨call, .ready answer point⟩ :: post⟩ := by
  have hown : (⟨call, .waiting operation point⟩ : OrderThread) ∈ pre ++ ⟨call, .waiting operation point⟩ :: post :=
    List.mem_append_right pre List.mem_cons_self
  have hprepared := h.prepared _ hown
  have hbacked := h.backed _ hown
  obtain ⟨hperformed, hinv⟩ := perform_spec h.inv hprepared heffect
  obtain ⟨done', more, hsettles⟩ := performed_settles hperformed hprepared hbacked
  obtain ⟨done, hserved, hreported⟩ := h.settled
  have hwallets : AllFinite remote'.wallet.wallets ∧ (∀ request ∈ remote'.served, request.op.Finite) ∧
      ∀ which, held which remote'.wallet.wallets
        = held which wallet₀.wallets + (remote'.served.map (WalletRequest.moved which)).sum := by
    rcases perform_wallet heffect with ⟨hwallet, hserved⟩ | ⟨request, reply, rfl, hexec, hserved⟩
    · rw [hwallet, hserved]
      exact ⟨h.finite, h.asked, h.moved⟩
    · have hrequest : request.op.Finite := Operation.Backed.finite hbacked
      obtain ⟨hfinite, hmoved⟩ := h.finite.exec hrequest hexec
      rw [hserved]
      refine ⟨hfinite, ?_, fun which => ?_⟩
      · exact List.forall_mem_append.mpr ⟨h.asked, List.forall_mem_singleton.mpr hrequest⟩
      · rw [hmoved which, h.moved which, List.map_append, List.sum_append, List.map_singleton, List.sum_singleton,
          add_assoc]
        rfl
  obtain ⟨hfinite, hasked, hmoved⟩ := hwallets
  refine ⟨hinv, ?_, ?_, hfinite, hasked, ⟨done ++ done', ?_, hsettles.gathered hreported⟩, hmoved⟩
  · intro thread hthread
    rcases mem_around hthread ⟨call, .waiting operation point⟩ with rfl | hold
    · exact hprepared.1
    · exact h.prepared thread hold
  · intro thread hthread
    rcases mem_around hthread ⟨call, .waiting operation point⟩ with rfl | hold
    · trivial
    · exact h.backed thread hold
  · rw [hsettles.served, hserved, List.map_append]

/-- **Every step keeps the invariant.** -/
theorem Explained.step {world world' : OrderWorld} {turn : OrderTurn} {reply : Unit}
    (h : Explained service wallet₀ world)
    (hexec : (program codec parse service maxRetries).exec world turn = .ok (reply, world')) :
    Explained service wallet₀ world' := by
  obtain ⟨memory, remote, threads⟩ := world
  cases Program.exec_spec hexec with
  | @entered call pause memory' block =>
      have hblock : enter call memory = (pause, memory') := block
      have hprepared : Prepared service (enter call memory).1.progress := enter_prepared call
      have hcontinues : Continues service [] (enter call memory).1.progress := enter_continues call
      rw [hblock] at hprepared hcontinues
      exact h.entered hprepared hcontinues
  | performed pre post call operation point input hthreads effect =>
      have hthreads : threads = pre ++ ⟨call, .waiting operation point⟩ :: post := hthreads
      subst hthreads
      exact h.performed effect
  | resumed pre post call answer point hthreads block =>
      have hthreads : threads = pre ++ ⟨call, .ready answer point⟩ :: post := hthreads
      subst hthreads
      have hown : (⟨call, .ready answer point⟩ : OrderThread) ∈ pre ++ ⟨call, .ready answer point⟩ :: post :=
        List.mem_append_right pre List.mem_cons_self
      exact h.continued (resume_prepared (h.prepared _ hown) block) (resume_continues block)
  | idle => exact h

end Steps

/-! ### What the requests come to -/

/-- A lock and an unlock leave what a user owns. -/
theorem moved_own (userId asset : String) {dto : Wallet.BalanceMutationDto} (h : dto.amount.isFinite = true)
    (from_ to_ : Wallet.Bucket) (label₁ label₂ : Option String) :
    moved (ofUser userId asset) [⟨Wallet.Database.rowKey dto.userId dto.asset, from_, dto.amount.negated, label₁⟩,
      ⟨Wallet.Database.rowKey dto.userId dto.asset, to_, dto.amount, label₂⟩] = 0 := by
  obtain ⟨x, hx⟩ := Extended.isFinite_iff.mp h
  have hneg : dto.amount.negated = .fin (-x) := by
    rw [hx]
    rfl
  rw [hneg, hx, moved_two]
  split
  · split
    · exact neg_add_cancel x
    · exact add_zero 0
  · rfl

/-- **What a request moves for a user.** -/
theorem moved_ofUser (userId asset : String) {request : WalletRequest} (h : request.op.Finite) :
    request.moved (ofUser userId asset) = ((exchanges [request]).map fun e => e.gain userId asset).sum := by
  cases request with
  | lock dto => exact moved_own userId asset h _ _ _ _
  | unlock dto => exact moved_own userId asset h _ _ _ _
  | settleTrade dto => exact (moved_settleTrade h userId asset).trans (add_zero _).symm

/-- **What a request moves of an asset.** -/
theorem moved_ofAsset (asset : String) {request : WalletRequest} (h : request.op.Finite) :
    request.moved (Wallet.ofAsset asset) = -((exchanges [request]).map fun e => e.fees asset).sum := by
  have hnet : request.moved (Wallet.ofAsset asset) = request.op.net asset := Wallet.moved_typeOrmWrites asset h
  rw [hnet]
  cases request with
  | lock dto => exact neg_zero.symm
  | unlock dto => exact neg_zero.symm
  | settleTrade dto =>
      have hone : ((exchanges [.settleTrade dto]).map fun e => e.fees asset).sum = (exchangeOf dto).fees asset :=
        add_zero _
      rw [hone, fees_exchangeOf]
      show (if dto.quoteAsset = asset then -dto.fees else 0) = -if dto.quoteAsset = asset then dto.fees else 0
      split
      · rfl
      · exact neg_zero.symm

/-- What is summed over the requests is summed over their exchanges. -/
theorem sum_exchanges {requests : List WalletRequest} {f : WalletRequest → Decimal} {g : Exchange → Decimal}
    (h : ∀ request ∈ requests, f request = ((exchanges [request]).map g).sum) :
    (requests.map f).sum = ((exchanges requests).map g).sum := by
  induction requests with
  | nil => rfl
  | cons request requests ih =>
      have hrest := ih fun r hr => h r (List.mem_cons_of_mem request hr)
      rw [List.map_cons, List.sum_cons, hrest, h request List.mem_cons_self,
        show request :: requests = [request] ++ requests from rfl, exchanges_append, List.map_append, List.sum_append]

/-- **What users own follows the trades**: the exchanges that are carried out are those of fills which the engine has
reported, each no more often than it has been reported; what a user owns has changed by them, and each asset has lost
the fees of its turnover. -/
structure FollowsTrades (service : TradingService) (wallet₀ : Wallet.Database) (world : OrderWorld) : Prop where
  reported : ∃ done : List SettledFill, exchanges world.remote.served = done.map service.exchangeOf ∧
    (done.map SettledFill.reported).Subperm (reports world.remote.handled)
  owned : ∀ userId asset, owned userId asset world.remote.wallet = owned userId asset wallet₀
    + ((exchanges world.remote.served).map fun exchange => exchange.gain userId asset).sum
  total : ∀ asset, totalOf asset world.remote.wallet.wallets = totalOf asset wallet₀.wallets
    - calculateFee ((exchanges world.remote.served).map fun exchange => exchange.turnover asset).sum
        (service.makerFeeBps + service.takerFeeBps)

theorem calculateFee_sum (notionals : List Decimal) (feeBps : Decimal) :
    (notionals.map fun notional => calculateFee notional feeBps).sum = calculateFee notionals.sum feeBps := by
  induction notionals with
  | nil => exact (calculateFee_zero feeBps).symm
  | cons notional notionals ih =>
      rw [List.map_cons, List.sum_cons, ih, List.sum_cons, calculateFee, calculateFee, calculateFee]
      ring

theorem Explained.followsTrades {service : TradingService} {wallet₀ : Wallet.Database} {world : OrderWorld}
    (h : Explained service wallet₀ world) : FollowsTrades service wallet₀ world := by
  obtain ⟨done, hserved, hreported⟩ := h.settled
  have hsettled : (done.map SettledFill.reported).Subperm
      (done.map SettledFill.reported ++ gather toSettle world.threads) :=
    (List.sublist_append_left _ _).subperm
  refine ⟨⟨done, hserved, hsettled.trans hreported⟩, fun userId asset => ?_, fun asset => ?_⟩
  · rw [Trading.owned, h.moved, sum_exchanges fun request hrequest =>
      moved_ofUser userId asset (h.asked request hrequest)]
    rfl
  · have hsum : (world.remote.served.map (WalletRequest.moved (Wallet.ofAsset asset))).sum
        = ((exchanges world.remote.served).map fun exchange => -exchange.fees asset).sum := by
      refine sum_exchanges fun request hrequest => ?_
      rw [moved_ofAsset asset (h.asked request hrequest), List.sum_neg, List.map_map]
      rfl
    have hfees : ((exchanges world.remote.served).map fun exchange => exchange.fees asset).sum
        = calculateFee ((exchanges world.remote.served).map fun exchange => exchange.turnover asset).sum
            (service.makerFeeBps + service.takerFeeBps) := by
      rw [← calculateFee_sum, hserved, List.map_map, List.map_map, List.map_map]
      congr 1
      exact List.map_congr_left fun settled _ =>
        fees_exchange service settled.symbol settled.fill settled.makerSide asset
    have hneg : ((exchanges world.remote.served).map fun exchange => -exchange.fees asset).sum
        = -((exchanges world.remote.served).map fun exchange => exchange.fees asset).sum := by
      rw [List.sum_neg, List.map_map]
      rfl
    rw [totalOf, h.moved, hsum, hneg, hfees, ← sub_eq_add_neg]
    rfl

theorem allFinite_insert {κ : Type} [LinearOrder κ] {balances : SortedMap κ Wallet.WalletEntity}
    (h : AllFinite balances) (key : κ) {wallet : Wallet.WalletEntity}
    (hwallet : ∀ bucket, (wallet.get bucket).isFinite = true) : AllFinite (balances.insert key wallet) := by
  intro key' wallet' hfind
  rw [SortedMap.find_insert] at hfind
  split at hfind
  · cases hfind
    exact hwallet
  · exact h key' wallet' hfind

end NexusTrade.Trading
