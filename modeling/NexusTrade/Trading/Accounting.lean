import NexusTrade.Trading.Orderly

/-!
# The wallets account for the orders

Calls on the trading service one after another, and credits, from an empty service.  The orders have limits, with
prices and quantities that are positive.

* **`Sound`** says what holds where a call waits, **`Sound.advance`** that each step keeps it;
* **`Sound.accepted`**: no release and no settlement is refused, if the market is solvent;
* **`Market.made_sound`**: a call that is made, and **`Market.Quiet`**: what holds between two calls;
* **`locks_account_for_orders`**: what the wallets have locked is what the orders lock.
-/

namespace NexusTrade.Trading

open MatchingEngine (Side OrderKind Decimal Fill ExecutionReport Core CallFiles UuidSource DecimalCodec opposite)
open Wallet (walletAt)

/-! ### Where a call waits -/

section Sound

variable (parse : DecimalParser) (service : TradingService) (solvent : Prop)

/-- The lock of an order is released, which is not among the live orders. -/
structure Refunding (order : StoredOrder) (memory : Memory) (remote : Remote) : Prop where
  user : CanTransact service.users order.userId
  nonneg : solvent → 0 ≤ order.lockedAmount
  apart : order.id ∉ memory.ids
  idle : Idle parse service solvent (memory.orders ++ [order]) memory remote

/-- **What holds where a call waits.** -/
inductive Sound : OrderState → Prop
  | ended (outcome : Outcome) (memory : Memory) (remote : Remote) (told : ∀ error, outcome ≠ .abandoned error)
      (idle : Idle parse service solvent memory.orders memory remote) : Sound ⟨.finish outcome, memory, remote⟩
  | abandoned (error : TradingError) (memory : Memory) (remote : Remote) (insolvent : ¬solvent) :
      Sound ⟨.finish (.abandoned error), memory, remote⟩
  | checked (uuid : String) (dto : PlaceOrderDto) (memory : Memory) (remote : Remote) (limit : PositiveLimit dto)
      (new : uuid ∉ remote.rows.map OrderEntity.id)
      (idle : Idle parse service solvent memory.orders memory remote) :
      Sound ⟨.await .findRows (.checked uuid dto), memory, remote⟩
  | saved (order : StoredOrder) (memory : Memory) (remote : Remote) (unsent : Unsent service order)
      (new : order.id ∉ remote.rows.map OrderEntity.id)
      (idle : Idle parse service solvent memory.orders memory remote) :
      Sound ⟨.await (.saveOrder (OrderEntity.create order)) (.saved order), memory, remote⟩
  | locked (order : StoredOrder) (memory : Memory) (remote : Remote) (pending : Pending service memory remote order)
      (idle : Idle parse service solvent memory.orders memory remote) :
      Sound ⟨.await (.walletPost (.lock (TradingService.mutationOf order order.lockedAmount))) (.locked order),
        memory, remote⟩
  | submitted (order : StoredOrder) (attempt : ℕ) (memory : Memory) (remote : Remote)
      (pending : Pending service memory remote order)
      (idle : Idle parse service solvent (memory.orders ++ [order]) memory remote) :
      Sound ⟨.await (.submitOrder order) (.submitted order attempt), memory, remote⟩
  | unreachable (order : StoredOrder) (error : TradingError) (memory : Memory) (remote : Remote)
      (refunding : Refunding parse service solvent order memory remote) :
      Sound ⟨.await (releaseOf order order.lockedAmount) (.unreachable error), memory, remote⟩
  | rejectedUpdated (order : StoredOrder) (report : ExecutionReport) (memory : Memory) (remote : Remote)
      (refunding : Refunding parse service solvent order memory remote) :
      Sound ⟨.await (.updateOrder order.id none .rejected) (.rejectedUpdated order report), memory, remote⟩
  | rejectedUnlocked (order : StoredOrder) (report : ExecutionReport) (memory : Memory) (remote : Remote)
      (refunding : Refunding parse service solvent order memory remote) :
      Sound ⟨.await (releaseOf order order.lockedAmount) (.rejectedUnlocked order report), memory, remote⟩
  | settled (order : StoredOrder) (report : ExecutionReport) (fill : Fill) (mine rest done : List Fill)
      (left : List StoredOrder) (memory : Memory) (remote : Remote)
      (filling : Filling parse service solvent order report mine (fill :: rest) done left memory remote) :
      Sound ⟨.await (.walletPost (.settleTrade
        (TradingService.settlement (service.toTrade order fill) (opposite order.side))))
        (.settled order report fill rest), memory, remote⟩
  | recorded (order : StoredOrder) (report : ExecutionReport) (fill : Fill) (mine rest done : List Fill)
      (left pre : List StoredOrder) (maker : StoredOrder) (post : List StoredOrder) (memory : Memory)
      (remote : Remote) (found : memory.orders = pre ++ maker :: post) (named : maker.id = fill.makerOrderId)
      (row : OrderEntity.create maker ∈ remote.rows) (nonneg : solvent → 0 ≤ maker.lockedAmount)
      (half : Half parse service solvent order report mine rest done left pre
        (service.fillMaker maker (service.toTrade order fill)) post memory remote) :
      Sound ⟨.await (.saveTrade (service.toTrade order fill)) (.recorded order report fill rest), memory, remote⟩
  | makerUpdated (order : StoredOrder) (report : ExecutionReport) (mine rest done : List Fill)
      (left pre : List StoredOrder) (maker : StoredOrder) (post : List StoredOrder) (memory : Memory)
      (remote : Remote) (found : memory.orders = pre ++ maker :: post) (row : RowOf remote.rows maker)
      (half : Half parse service solvent order report mine rest done left pre maker post memory remote) :
      Sound ⟨.await (.updateOrder maker.id (some maker.filledQuantity) maker.status)
        (.makerUpdated order report maker.id rest), memory, remote⟩
  | makerUnlocked (order : StoredOrder) (report : ExecutionReport) (mine rest done : List Fill)
      (left pre : List StoredOrder) (maker : StoredOrder) (post : List StoredOrder) (memory : Memory)
      (remote : Remote) (found : memory.orders = pre ++ maker :: post) (filled : maker.status = .filled)
      (half : Half parse service solvent order report mine rest done left pre maker post memory remote) :
      Sound ⟨.await (releaseOf maker maker.lockedAmount) (.makerUnlocked order report maker.id rest),
        memory, remote⟩
  | produced (order : StoredOrder) (report : ExecutionReport) (mine rest done : List Fill)
      (left : List StoredOrder) (memory : Memory) (remote : Remote)
      (filling : Filling parse service solvent order report mine rest done left memory remote) :
      Sound ⟨.await .produce (.produced order report rest), memory, remote⟩
  | orderUpdated (order : StoredOrder) (report : ExecutionReport) (memory : Memory) (remote : Remote)
      (settling : Settling parse service solvent order report memory remote) (row : RowOf remote.rows order) :
      Sound ⟨.await (.updateOrder order.id (some order.filledQuantity) order.status) (.orderUpdated order report),
        memory, remote⟩
  | unlocked (order : StoredOrder) (report : ExecutionReport) (memory : Memory) (remote : Remote)
      (settling : Settling parse service solvent order report memory remote)
      (row : OrderEntity.create order ∈ remote.rows) :
      Sound ⟨.await (releaseOf order (order.lockedAmount - takenBy service order report.fills
        - restLockOf service order)) (.unlocked order report (restLockOf service order)), memory, remote⟩
  | announced (order : StoredOrder) (report : ExecutionReport) (memory : Memory) (remote : Remote)
      (placed : Placed parse service solvent order memory remote) :
      Sound ⟨.await .produce (.announced order report), memory, remote⟩
  | matched (order : StoredOrder) (report : ExecutionReport) (memory : Memory) (remote : Remote)
      (placed : Placed parse service solvent order memory remote) :
      Sound ⟨.await .produce (.matched order report), memory, remote⟩
  | cancelAnswered (orderId symbol userId : String) (attempt : ℕ) (memory : Memory) (remote : Remote)
      (formatted : isSymbol symbol = true) (idle : Idle parse service solvent memory.orders memory remote) :
      Sound ⟨.await (.cancelOrder orderId symbol userId) (.cancelAnswered orderId symbol userId attempt),
        memory, remote⟩
  | cancelUnlocked (pre : List StoredOrder) (order : StoredOrder) (post : List StoredOrder) (memory : Memory)
      (remote : Remote) (found : memory.orders = pre ++ order :: post)
      (idle : Idle parse service solvent memory.orders memory remote)
      (backs : Backs parse (pre ++ post) remote.engine) :
      Sound ⟨.await (releaseOf order order.lockedAmount) (.cancelUnlocked order.id), memory, remote⟩
  | cancelSaved (pre : List StoredOrder) (order : StoredOrder) (post : List StoredOrder) (memory : Memory)
      (remote : Remote) (cancelling : Cancelling parse service solvent pre order post (pre ++ post) memory remote)
      (emptied : order.lockedAmount = 0) :
      Sound ⟨.await (.updateOrder order.id none .cancelled) (.cancelSaved order.id), memory, remote⟩
  | cancelAnnounced (memory : Memory) (remote : Remote)
      (idle : Idle parse service solvent memory.orders memory remote) :
      Sound ⟨.await .produce .cancelAnnounced, memory, remote⟩

end Sound

/-- A call that ends otherwise is not abandoned. -/
theorem threw_ne (e : TradingError) : ∀ error, Outcome.threw e ≠ .abandoned error := fun _ h => nomatch h

theorem placed_ne (order : StoredOrder) (report : ExecutionReport) :
    ∀ error, Outcome.placed order report ≠ .abandoned error := fun _ h => nomatch h

theorem cancelled_ne (done : Bool) : ∀ error, Outcome.cancelled done ≠ .abandoned error := fun _ h => nomatch h

/-! ### The order that is made -/

theorem positive_of_read {value : DecimalText} {field : String} {q : Decimal} (h : value.Positive)
    (hread : requireDecimalString value field = .ok q) : 0 < q := by
  cases value with
  | number amount =>
      cases amount with
      | fin p =>
          cases hread
          exact h
      | inf sign => cases h
      | nan => cases h
  | empty => cases h
  | blank => cases h
  | malformed text => cases h

/-- A price that is positive is read as one. -/
theorem optionalDecimal_positive {value : DecimalText} {field : String} {price : Option Decimal} (h : value.Positive)
    (hread : optionalDecimal (some value) field = .ok price) : ∃ q, price = some q ∧ 0 < q := by
  have hsome : requireDecimalString value field >>= (fun q => Except.ok (some q)) = Except.ok price := by
    cases value with
    | empty => cases h
    | blank => exact hread
    | malformed text => exact hread
    | number amount => exact hread
  obtain ⟨q, hq, hprice⟩ := bind_eq_ok.mp hsome
  cases hprice
  exact ⟨q, rfl, positive_of_read h hq⟩

/-- **The order that is made of a request** with a limit. -/
theorem newOrder_unsent {service : TradingService} {uuid : String} {dto : PlaceOrderDto} {order : StoredOrder}
    (hlimit : PositiveLimit dto) (huser : CanTransact service.users dto.userId)
    (h : newOrder uuid dto = .ok order) : Unsent service order := by
  have hspec := newOrder_spec h
  have huserId := newOrder_userId h
  obtain ⟨hkind, ⟨text, htext, hpositive⟩, hquantity⟩ := hlimit
  obtain ⟨symbol, _, h⟩ := bind_eq_ok.mp h
  obtain ⟨price, hprice, h⟩ := bind_eq_ok.mp h
  obtain ⟨quantity, hread, h⟩ := bind_eq_ok.mp h
  obtain ⟨stopPrice, _, h⟩ := bind_eq_ok.mp h
  cases h
  have htext : dto.price = some text := htext
  rw [htext] at hprice
  obtain ⟨q, rfl, hq⟩ := optionalDecimal_positive hpositive hprice
  exact ⟨⟨hspec.symbol, rfl, ⟨q, rfl, hq⟩, huser⟩, hkind, rfl,
    positive_of_read hquantity hread⟩

/-- The amount that is locked for an order. -/
theorem estimateLockAmount_unitLock {service : TradingService} {order : StoredOrder} (h : Unsent service order) :
    estimateLockAmount order (splitSymbol order.symbol).2 service.takerFeeBps
      = .ok (order.unitLock service.takerFeeBps * order.quantity) := by
  obtain ⟨price, hprice, _⟩ := h.price
  rw [estimateLockAmount, StoredOrder.unitLock, hprice]
  cases hside : order.side with
  | sell => exact congrArg Except.ok (one_mul _).symm
  | buy =>
      simp only [if_pos (quoteAsset_ne_empty h.symbol), withFee_eq, Option.getD_some, Except.ok.injEq]
      ring

/-! ### Steps -/

section Steps

variable {codec : DecimalCodec} {parse : DecimalParser} {service : TradingService} {solvent : Prop} {maxRetries : ℕ}
  {order : StoredOrder} {report : ExecutionReport} {mine rest done : List Fill} {left : List StoredOrder}
  {memory : Memory} {remote : Remote}

/-- An order that waits for its lock, or for the engine. -/
theorem Pending.nonneg (h : Pending service memory remote order) (hfees : FeesInRange service) :
    0 ≤ order.lockedAmount := by
  obtain ⟨price, hprice, hpositive⟩ := h.price
  rw [h.lock]
  exact mul_nonneg (unitLock_nonneg hprice hpositive (hfees.maker.trans hfees.ordered)) h.positive.le

theorem Pending.refunding (h : Pending service memory remote order) (hfees : solvent → FeesInRange service)
    {remote' : Remote} (hidle : Idle parse service solvent (memory.orders ++ [order]) memory remote') :
    Refunding parse service solvent order memory remote' :=
  ⟨h.user, fun hsolvent => h.nonneg (hfees hsolvent), h.apart, hidle⟩

/-- The service records what it asks to release. -/
theorem Idle.logged {claims : List StoredOrder} (h : Idle parse service solvent claims memory remote)
    (released : List (String × Decimal)) :
    Idle parse service solvent claims { memory with released := released } remote :=
  ⟨h.orderly.remember (List.Perm.refl _) (List.Subset.refl _) h.orderly.held h.orderly.recorded, h.backs⟩

/-- **The next trade is settled**, or the order is updated. -/
theorem Filling.next (h : Filling parse service solvent order report mine rest done left memory remote) :
    Sound parse service solvent ⟨nextTrade service memory order report rest, memory, remote⟩ := by
  cases rest with
  | nil =>
      obtain ⟨hsettling, hrow⟩ := h.settling
      exact .orderUpdated _ _ _ _ hsettling hrow
  | cons fill rest =>
      -- the maker is on the other side, whether it is found or not
      have hside : ((memory.orders.find? fun maker => maker.id = fill.makerOrderId).map StoredOrder.side).getD
          (opposite order.side) = opposite order.side := by
        cases hfind : memory.orders.find? fun maker => maker.id = fill.makerOrderId with
        | none => rfl
        | some maker =>
            obtain ⟨hid, _, _, _⟩ := Memory.find_at hfind
            obtain ⟨_, hone, _⟩ := h.filled
            exact (hone.maker_of_id h.orderly.order_ids (List.mem_of_find?_eq_some hfind) hid).1.side
      rw [nextTrade, hside]
      exact .settled _ _ _ _ _ _ _ _ _ h

/-- **An order is made**, if the user may trade. -/
theorem afterCheck_sound {uuid : String} {dto : PlaceOrderDto} (hlimit : PositiveLimit dto)
    (hnew : uuid ∉ remote.rows.map OrderEntity.id) (h : Idle parse service solvent memory.orders memory remote) :
    Sound parse service solvent ⟨afterCheck service uuid dto, memory, remote⟩ := by
  rw [afterCheck]
  cases hcan : service.assertCanTrade dto.userId dto.accountId with
  | error e => exact .ended _ _ _ (threw_ne _) h
  | ok _ =>
      cases hmake : newOrder uuid dto with
      | error e => exact .ended _ _ _ (threw_ne _) h
      | ok order =>
          refine .saved _ _ _ (newOrder_unsent hlimit (canTransact_of_assertCanTrade hcan) hmake) ?_ h
          rw [(newOrder_spec hmake).id]
          exact hnew

/-- **The row of the order is inserted**, and its lock is computed. -/
theorem afterSave_sound (hunsent : Unsent service order) (hnew : order.id ∉ remote.rows.map OrderEntity.id)
    (h : Idle parse service solvent memory.orders memory remote) :
    Sound parse service solvent ⟨afterSave service order, memory,
      { remote with rows := saveOrder remote.rows (OrderEntity.create order) }⟩ := by
  have hsaved : saveOrder remote.rows (OrderEntity.create order) = remote.rows ++ [OrderEntity.create order] :=
    saveOrder_new fun old hold hid => hnew (List.mem_map.mpr ⟨old, hold, hid⟩)
  have hrow : OrderEntity.create order ∈ saveOrder remote.rows (OrderEntity.create order) := by
    rw [hsaved]
    exact List.mem_append_right _ List.mem_cons_self
  rw [afterSave, estimateLockAmount_unitLock hunsent]
  refine .locked { order with lockedAmount := order.unitLock service.takerFeeBps * order.quantity } _ _ ?_
    ⟨h.orderly.saveOrder hnew, h.backs⟩
  exact ⟨⟨⟨hunsent.symbol, hunsent.lockedAsset, hunsent.price, hunsent.user⟩, hunsent.kind, hunsent.unfilled,
    hunsent.positive⟩, fun hid => hnew (h.orderly.known hid),
    fun fill hfill hid => hnew (hid ▸ (h.orderly.fills fill hfill).2), .of_mem hrow, rfl⟩

/-- **The lock of the order** is made, or refused. -/
theorem locked_sound (hpending : Pending service memory remote order)
    (h : Idle parse service solvent memory.orders memory remote) (input : CallFiles × UuidSource) :
    Sound parse service solvent ((program codec parse service maxRetries).advance
      ⟨.await (.walletPost (.lock (TradingService.mutationOf order order.lockedAmount))) (.locked order),
        memory, remote⟩ (.answered input)) := by
  rw [advance_walletPost]
  cases hpost : remote.walletPost (.lock (TradingService.mutationOf order order.lockedAmount)) with
  | error failure => exact .ended _ _ _ (threw_ne _) h
  | ok remote' =>
      obtain ⟨reply, wallet, hexec, rfl⟩ := walletPost_eq_ok.mp hpost
      obtain ⟨_, _, _, husers⟩ := Wallet.exec_wallets hexec
      refine .submitted order 0 memory _ ⟨hpending.toUnsent, hpending.apart, hpending.unnamed, hpending.row,
        hpending.lock⟩ ⟨?_, h.backs⟩
      exact { h.orderly with
        users := husers.trans h.orderly.users
        accounted := fun hsolvent => ((h.orderly.accounted hsolvent).lock hexec).2 }

/-- **The engine answers**, or cannot read the order. -/
theorem submitted_sound (hexact : parse.Exact) (hfees : solvent → FeesInRange service)
    (hpending : Pending service memory remote order)
    (h : Idle parse service solvent (memory.orders ++ [order]) memory remote) (attempt : ℕ)
    (input : CallFiles × UuidSource) :
    Sound parse service solvent ((program codec parse service maxRetries).advance
      ⟨.await (.submitOrder order) (.submitted order attempt), memory, remote⟩ (.answered input)) := by
  rcases hpending.submitted codec hexact h input with
    ⟨failure, hfinal, hperform⟩ | ⟨report, remote', hperform, hanswer⟩
  · rw [advance_eq codec parse service maxRetries memory remote hperform]
    have hresume : resumeFailed maxRetries failure (.submitted order attempt)
        = unlocking order order.lockedAmount
          (.unreachable (.http 503 ("matching engine unavailable: " ++ failure.error.message))) := by
      refine if_neg fun hretry => ?_
      rw [hfinal] at hretry
      exact Bool.false_ne_true hretry.1
    show Sound parse service solvent ⟨resumeFailed maxRetries failure (.submitted order attempt), memory, remote⟩
    rw [hresume, unlocking_eq]
    exact .unreachable _ _ _ _ (hpending.refunding hfees h)
  · rw [advance_eq codec parse service maxRetries memory remote hperform]
    show Sound parse service solvent ⟨afterReport service memory order report, memory, remote'⟩
    rw [afterReport]
    rcases hanswer with ⟨haccepted, hidle⟩ | ⟨left, hfilling⟩
    · rw [if_pos haccepted]
      obtain ⟨huser, hnonneg, hapart, _⟩ := hpending.refunding hfees hidle
      refine .rejectedUpdated { order with status := .rejected } _ _ _ ⟨huser, hnonneg, hapart, ?_⟩
      refine ⟨hidle.orderly.congr _ fun userId asset => ?_, hidle.backs⟩
      rw [lockedFor_append, lockedFor_append]
      rfl
    · have haccepted : ¬report.accepted = false := by
        rw [hfilling.accepted]
        decide
      rw [if_neg haccepted]
      exact hfilling.next

/-- **The maker of a fill** is filled. -/
theorem applyFill_sound {fill : Fill} {pre post : List StoredOrder} {maker : StoredOrder}
    (found : memory.orders = pre ++ maker :: post) (named : maker.id = fill.makerOrderId)
    (hrow : OrderEntity.create maker ∈ remote.rows)
    (h : Half parse service solvent order report mine rest done left pre
      (service.fillMaker maker (service.toTrade order fill)) post memory remote) :
    Sound parse service solvent ⟨(applyFill service memory order report fill rest).1,
      (applyFill service memory order report fill rest).2, remote⟩ := by
  have hfind : memory.orders.find? (fun maker => maker.id = fill.makerOrderId) = some maker := by
    refine List.find?_eq_some_iff_append.mpr ⟨decide_eq_true named, pre, post, found, fun old hold => ?_⟩
    have hne := Memory.ids_ne found h.orderly.ids old (List.mem_append_left _ hold)
    rw [← named, decide_eq_false hne]
    rfl
  have hchange := Memory.change_at found h.orderly.ids
    fun _ => service.fillMaker maker (service.toTrade order fill)
  rw [applyFill, hfind]
  dsimp only
  rw [hchange]
  exact .makerUpdated _ _ _ _ _ _ _ (service.fillMaker maker (service.toTrade order fill)) _ _ _ rfl
    (RowOf.congr (.of_mem hrow) rfl) (h.assigned found rfl)

/-- **The row of the maker is updated**, and its lock is released if it is filled. -/
theorem releaseMaker_sound {pre post : List StoredOrder} {maker : StoredOrder}
    (found : memory.orders = pre ++ maker :: post) (hrow : RowOf remote.rows maker)
    (h : Half parse service solvent order report mine rest done left pre maker post memory remote) :
    Sound parse service solvent ⟨releaseMaker memory order report maker.id rest, memory,
      { remote with rows := updateOrder remote.rows maker.id (some maker.filledQuantity) maker.status }⟩ := by
  have hmem : maker ∈ memory.objects := by
    rw [Memory.objects_at memory found]
    exact List.mem_append_right _ List.mem_cons_self
  have hnext := h.updated found (some maker.filledQuantity) maker.status
  rw [releaseMaker, Memory.object_eq h.orderly.ids hmem]
  dsimp only
  by_cases hstatus : maker.status = .filled
  · rw [if_pos hstatus, unlocking_eq]
    exact .makerUnlocked _ _ _ _ _ _ _ _ _ _ _ found hstatus hnext
  · rw [if_neg hstatus]
    exact .produced _ _ _ _ _ _ _ _ (hnext.kept found hrow.update hstatus)

/-- **The engine answers to a cancellation.** -/
theorem cancelAnswered_sound {orderId symbol userId : String} (hformatted : isSymbol symbol = true)
    (h : Idle parse service solvent memory.orders memory remote) (attempt : ℕ) (input : CallFiles × UuidSource) :
    Sound parse service solvent ((program codec parse service maxRetries).advance
      ⟨.await (.cancelOrder orderId symbol userId) (.cancelAnswered orderId symbol userId attempt), memory, remote⟩
      (.answered input)) := by
  obtain ⟨done, engine, hcancel, hinv, hstops, hcase⟩ := cancelOrder_backs input.1 orderId userId h.backs
    h.orderly.inv h.orderly.stops h.orderly.order_ids hformatted
  have hperform : perform codec parse (.cancelOrder orderId symbol userId) (.answered input) remote
      = (.cancelled done, { remote with engine := engine }) := by
    refine perform_answered (by simp) ?_
    simp only [Remote.handle, hcancel]
  have hnext : Orderly parse service solvent memory.orders remote.fills memory.orders memory
      { remote with engine := engine } := { h.orderly with inv := hinv, stops := hstops }
  rw [advance_eq codec parse service maxRetries memory remote hperform]
  show Sound parse service solvent ⟨(afterCancel memory orderId symbol userId done).1,
    (afterCancel memory orderId symbol userId done).2, { remote with engine := engine }⟩
  rcases hcase with ⟨rfl, hbacks⟩ | ⟨rfl, pre, o, post, hfound, hid, hsymbol, huser, hbacks⟩
  · have hafter : afterCancel memory orderId symbol userId false = (.finish (.cancelled false), memory) := rfl
    rw [hafter]
    exact .ended _ _ _ (cancelled_ne _) ⟨hnext, hbacks⟩
  · have hfind : memory.orders.find? (fun order =>
        decide (order.id = orderId ∧ order.symbol = symbol ∧ order.userId = userId)) = some o := by
      refine List.find?_eq_some_iff_append.mpr ⟨decide_eq_true ⟨hid, hsymbol, huser⟩, pre, post, hfound,
        fun old hold => ?_⟩
      have hne := Memory.ids_ne hfound h.orderly.ids old (List.mem_append_left _ hold)
      rw [decide_eq_false fun hsame => hne (hsame.1.trans hid.symm)]
      rfl
    have hafter : afterCancel memory orderId symbol userId true
        = (unlocking o o.lockedAmount (.cancelUnlocked orderId),
          { memory with released := memory.released ++ [(orderId, o.lockedAmount)] }) := by
      simp only [afterCancel, hfind]
    have hidle : Idle parse service solvent memory.orders memory { remote with engine := engine } :=
      ⟨hnext, hbacks.mono fun o' ho' => by
        rw [hfound]
        rcases List.mem_append.mp ho' with ho' | ho'
        · exact List.mem_append_left _ ho'
        · exact List.mem_append_right _ (List.mem_cons_of_mem _ ho')⟩
    rw [hafter, unlocking_eq, ← hid]
    exact .cancelUnlocked pre o post _ _ hfound (hidle.logged _) hbacks

variable (codec) in
/-- **The lock of an order that is not live is released.** -/
theorem Refunding.released (hfees : solvent → FeesInRange service)
    (h : Refunding parse service solvent order memory remote) (input : CallFiles × UuidSource) :
    (∃ wallet served, perform codec parse (releaseOf order order.lockedAmount) (.answered input) remote
        = (.done, { remote with wallet := wallet, served := served }) ∧
      Idle parse service solvent memory.orders memory { remote with wallet := wallet, served := served }) ∨
    ¬solvent ∧ ∃ failure, perform codec parse (releaseOf order order.lockedAmount) (.answered input) remote
      = (.failed failure, remote) := by
  have hcovered : solvent → 0 ≤ order.lockedAmount ∧ order.lockedAmount ≤ order.lockedAmount ∧
      ∀ o ∈ memory.orders ++ [], 0 ≤ o.lockedAmount := by
    intro hsolvent
    rw [List.append_nil]
    exact ⟨h.nonneg hsolvent, le_refl _, h.idle.orderly.lock_nonneg (hfees hsolvent)⟩
  rcases h.idle.orderly.release codec h.user hcovered input with ⟨wallet, served, hperform, hnext⟩ | hfailed
  · refine Or.inl ⟨wallet, served, hperform, hnext.congr _ fun userId asset => ?_, h.idle.backs⟩
    rw [lockedFor_append, lockedFor_singleton, locks_of_zero userId asset (sub_self order.lockedAmount), add_zero]
  · exact Or.inr hfailed

/-- Where the market is not solvent, a release may be refused. -/
theorem Refunding.refused (h : Refunding parse service solvent order memory remote) (hinsolvent : ¬solvent) :
    Idle parse service solvent memory.orders memory remote :=
  ⟨h.idle.orderly.claim fun hsolvent => absurd hsolvent hinsolvent, h.idle.backs⟩

/-- The order that the engine has cancelled is still live for the service. -/
theorem cancelUnlocked_cancelling {pre post : List StoredOrder} (found : memory.orders = pre ++ order :: post)
    (h : Idle parse service solvent memory.orders memory remote) (hbacks : Backs parse (pre ++ post) remote.engine) :
    Cancelling parse service solvent pre order post (pre ++ order :: post) memory remote ∧
      CanTransact service.users order.userId ∧ (FeesInRange service → 0 ≤ order.lockedAmount) := by
  have hmem : order ∈ memory.orders := by
    rw [found]
    exact List.mem_append_right _ List.mem_cons_self
  have hothers : pre ++ post ⊆ memory.orders := by
    intro o ho
    rw [found]
    rcases List.mem_append.mp ho with ho | ho
    · exact List.mem_append_left _ ho
    · exact List.mem_append_right _ (List.mem_cons_of_mem _ ho)
  have horderly := h.orderly
  refine ⟨⟨found, ?_, hbacks⟩, (horderly.held order hmem).user, fun hfees => horderly.lock_nonneg hfees order hmem⟩
  rw [← found]
  exact horderly.remember (List.Perm.refl _) hothers (fun o ho => horderly.held o (hothers ho))
    fun o ho => horderly.recorded o (hothers ho)

/-- **Each step keeps what holds.** -/
theorem Sound.advance (hexact : parse.Exact) (hfees : solvent → FeesInRange service) {s : OrderState}
    (h : Sound parse service solvent s) (input : CallFiles × UuidSource) :
    Sound parse service solvent ((program codec parse service maxRetries).advance s (.answered input)) := by
  cases h with
  | ended outcome memory remote told idle => exact .ended outcome memory remote told idle
  | abandoned error memory remote insolvent => exact .abandoned error memory remote insolvent
  | checked uuid dto memory remote limit new idle => exact afterCheck_sound limit new idle
  | saved order memory remote unsent new idle => exact afterSave_sound unsent new idle
  | locked order memory remote pending idle => exact locked_sound pending idle input
  | submitted order attempt memory remote pending idle =>
      exact submitted_sound hexact hfees pending idle attempt input
  | unreachable order error memory remote refunding =>
      rcases refunding.released codec hfees input with ⟨wallet, served, hperform, hidle⟩ | ⟨hinsolvent, failure, hperform⟩
      · rw [advance_eq codec parse service maxRetries memory remote hperform]
        exact .ended _ _ _ (threw_ne _) hidle
      · rw [advance_eq codec parse service maxRetries memory remote hperform]
        exact .ended _ _ _ (threw_ne _) (refunding.refused hinsolvent)
  | rejectedUpdated order report memory remote refunding =>
      have hne : ∀ o ∈ memory.orders, o.id ≠ order.id := fun o ho hid =>
        refunding.apart (hid ▸ List.mem_map_of_mem (List.mem_append_left _ ho))
      show Sound parse service solvent ⟨unlocking order order.lockedAmount (.rejectedUnlocked order report), memory,
        { remote with rows := updateOrder remote.rows order.id none .rejected }⟩
      rw [unlocking_eq]
      exact .rejectedUnlocked _ _ _ _ ⟨refunding.user, refunding.nonneg, refunding.apart,
        refunding.idle.orderly.updateOrder hne none .rejected, refunding.idle.backs⟩
  | rejectedUnlocked order report memory remote refunding =>
      rcases refunding.released codec hfees input with ⟨wallet, served, hperform, hidle⟩ | ⟨hinsolvent, failure, hperform⟩
      · rw [advance_eq codec parse service maxRetries memory remote hperform]
        exact .ended _ _ _ (placed_ne _ _) hidle
      · rw [advance_eq codec parse service maxRetries memory remote hperform]
        exact .ended _ _ _ (threw_ne _) (refunding.refused hinsolvent)
  | settled order report fill mine rest done left memory remote filling =>
      rcases filling.settle codec hfees input with
        ⟨wallet, served, pre, maker, post, hperform, found, named, row, half⟩ | ⟨hinsolvent, failure, hperform⟩
      · rw [advance_eq codec parse service maxRetries memory remote hperform]
        have hmem : maker ∈ memory.orders := by
          rw [found]
          exact List.mem_append_right _ List.mem_cons_self
        exact .recorded _ _ _ _ _ _ _ _ _ _ _ _ found named row
          (fun hsolvent => filling.orderly.lock_nonneg (hfees hsolvent) maker hmem) half
      · rw [advance_abandoned codec parse service maxRetries memory remote rfl hperform]
        exact .abandoned _ _ _ hinsolvent
  | recorded order report fill mine rest done left pre maker post memory remote found named row nonneg half =>
      exact applyFill_sound found named row (half.saveTrade _)
  | makerUpdated order report mine rest done left pre maker post memory remote found row half =>
      exact releaseMaker_sound found row half
  | makerUnlocked order report mine rest done left pre maker post memory remote found filled half =>
      rcases half.released codec hfees found filled input with
        ⟨wallet, served, hperform, hfilling⟩ | ⟨hinsolvent, failure, hperform⟩
      · rw [advance_eq codec parse service maxRetries memory remote hperform]
        have hempty := Memory.empty_at memory maker found half.orderly.ids
        show Sound parse service solvent ⟨.await .produce (.produced order report rest),
          (memory.change maker.id fun maker => { maker with lockedAmount := 0 }).splice maker.id,
          { remote with wallet := wallet, served := served }⟩
        rw [hempty]
        exact .produced _ _ _ _ _ _ _ _ hfilling
      · rw [advance_abandoned codec parse service maxRetries memory remote rfl hperform]
        exact .abandoned _ _ _ hinsolvent
  | produced order report mine rest done left memory remote filling => exact filling.next
  | orderUpdated order report memory remote settling row =>
      show Sound parse service solvent ⟨unlockUnused service order report, memory,
        { remote with rows := updateOrder remote.rows order.id (some order.filledQuantity) order.status }⟩
      rw [unlockUnused_eq]
      exact .unlocked _ _ _ _ (settling.updated _ _) row.update
  | unlocked order report memory remote settling row =>
      rcases settling.released codec hfees row input with
        ⟨wallet, served, hperform, hplaced⟩ | ⟨hinsolvent, failure, hperform⟩
      · rw [advance_eq codec parse service maxRetries memory remote hperform]
        exact .announced _ _ _ _ hplaced
      · rw [advance_abandoned codec parse service maxRetries memory remote rfl hperform]
        exact .abandoned _ _ _ hinsolvent
  | announced order report memory remote placed =>
      show Sound parse service solvent ⟨(resumeDone service memory (.announced order report) .done).1,
        (resumeDone service memory (.announced order report) .done).2, remote⟩
      rw [resumeDone]
      split
      · exact .ended _ _ _ (placed_ne _ _) (placed.finished report)
      · exact .matched _ _ _ _ placed
  | matched order report memory remote placed =>
      exact .ended _ _ _ (placed_ne _ _) (placed.finished report)
  | cancelAnswered orderId symbol userId attempt memory remote formatted idle =>
      exact cancelAnswered_sound formatted idle attempt input
  | cancelUnlocked pre order post memory remote found idle backs =>
      obtain ⟨hcancelling, huser, hnonneg⟩ := cancelUnlocked_cancelling found idle backs
      rcases hcancelling.released codec hfees huser (fun hsolvent => hnonneg (hfees hsolvent)) input with
        ⟨wallet, served, hperform, hnext⟩ | ⟨hinsolvent, failure, hperform⟩
      · rw [advance_eq codec parse service maxRetries memory remote hperform]
        exact .cancelSaved pre { order with lockedAmount := 0, status := .cancelled } post _ _ hnext rfl
      · rw [advance_eq codec parse service maxRetries memory remote hperform]
        exact .ended _ _ _ (threw_ne _) idle
  | cancelSaved pre order post memory remote cancelling emptied =>
      exact .cancelAnnounced _ _ (cancelling.spliced none .cancelled)
  | cancelAnnounced memory remote idle => exact .ended _ _ _ (cancelled_ne _) idle

/-- The orders around one of them. -/
theorem forall_around {pre post : List StoredOrder} {P : StoredOrder → Prop}
    (found : memory.orders = pre ++ order :: post)
    (hothers : ∀ o ∈ pre ++ post, P o) (h : P order) : ∀ o ∈ memory.orders, P o := by
  intro o ho
  rw [found] at ho
  rcases List.mem_append.mp ho with ho | ho
  · exact hothers o (List.mem_append_left _ ho)
  · rcases List.mem_cons.mp ho with rfl | ho
    · exact h
    · exact hothers o (List.mem_append_right _ ho)

/-- **No order has a lock below zero**, wherever a call waits. -/
theorem Sound.nonneg (hfees : FeesInRange service) (hsolvent : solvent) {s : OrderState}
    (h : Sound parse service solvent s) : ∀ order ∈ s.memory.orders, 0 ≤ order.lockedAmount := by
  cases h with
  | ended outcome memory remote told idle => exact idle.orderly.lock_nonneg hfees
  | abandoned error memory remote insolvent => exact absurd hsolvent insolvent
  | checked uuid dto memory remote limit new idle => exact idle.orderly.lock_nonneg hfees
  | saved order memory remote unsent new idle => exact idle.orderly.lock_nonneg hfees
  | locked order memory remote pending idle => exact idle.orderly.lock_nonneg hfees
  | submitted order attempt memory remote pending idle => exact idle.orderly.lock_nonneg hfees
  | unreachable order error memory remote refunding => exact refunding.idle.orderly.lock_nonneg hfees
  | rejectedUpdated order report memory remote refunding => exact refunding.idle.orderly.lock_nonneg hfees
  | rejectedUnlocked order report memory remote refunding => exact refunding.idle.orderly.lock_nonneg hfees
  | settled order report fill mine rest done left memory remote filling =>
      exact filling.orderly.lock_nonneg hfees
  | recorded order report fill mine rest done left pre maker post memory remote found named row nonneg half =>
      exact forall_around found (half.orderly.lock_nonneg hfees) (nonneg hsolvent)
  | makerUpdated order report mine rest done left pre maker post memory remote found row half =>
      exact forall_around found (half.orderly.lock_nonneg hfees) (half.nonneg hsolvent)
  | makerUnlocked order report mine rest done left pre maker post memory remote found filled half =>
      exact forall_around found (half.orderly.lock_nonneg hfees) (half.nonneg hsolvent)
  | produced order report mine rest done left memory remote filling => exact filling.orderly.lock_nonneg hfees
  | orderUpdated order report memory remote settling row => exact settling.orderly.lock_nonneg hfees
  | unlocked order report memory remote settling row => exact settling.orderly.lock_nonneg hfees
  | announced order report memory remote placed => exact placed.orderly.lock_nonneg hfees
  | matched order report memory remote placed => exact placed.orderly.lock_nonneg hfees
  | cancelAnswered orderId symbol userId attempt memory remote formatted idle =>
      exact idle.orderly.lock_nonneg hfees
  | cancelUnlocked pre order post memory remote found idle backs => exact idle.orderly.lock_nonneg hfees
  | cancelSaved pre order post memory remote cancelling emptied =>
      exact forall_around cancelling.found (cancelling.orderly.lock_nonneg hfees) (le_of_eq emptied.symm)
  | cancelAnnounced memory remote idle => exact idle.orderly.lock_nonneg hfees

/-- A request that is answered is one that the wallet service carries out. -/
theorem walletPost_of_done {operation : Operation} {request : WalletRequest} {input : CallFiles × UuidSource}
    {remote' : Remote} (hop : operation = .walletPost request)
    (h : perform codec parse operation (.answered input) remote = (.done, remote')) :
    ∃ remote', remote.walletPost request = .ok remote' := by
  have hne : Operation.walletPost request ≠ .resolved := fun h => nomatch h
  rw [hop, perform_eq codec parse hne, Attempt.run] at h
  have hhandle : Remote.handle codec parse (.walletPost request) input remote
      = (remote.walletPost request).map fun remote => (.done, remote) := rfl
  rw [hhandle] at h
  cases hpost : remote.walletPost request with
  | error failure =>
      rw [hpost] at h
      cases h
  | ok remote'' => exact ⟨remote'', rfl⟩

/-- **No release and no settlement is refused**, wherever a call waits. -/
theorem Sound.accepted (codec : DecimalCodec) (hfees : FeesInRange service) (hsolvent : solvent)
    {s : OrderState} (h : Sound parse service solvent s) {request : WalletRequest} {point : Point}
    (hwaits : s.pause = .await (.walletPost request) point) (hrequest : ∀ dto, request ≠ .lock dto)
    (input : CallFiles × UuidSource) : ∃ remote', s.remote.walletPost request = .ok remote' := by
  have hfees' : solvent → FeesInRange service := fun _ => hfees
  cases h with
  | ended outcome memory remote told idle => cases hwaits
  | abandoned error memory remote insolvent => cases hwaits
  | checked uuid dto memory remote limit new idle => cases hwaits
  | saved order memory remote unsent new idle => cases hwaits
  | locked order memory remote pending idle =>
      obtain ⟨rfl, _⟩ := hwaits
      exact absurd rfl (hrequest _)
  | submitted order attempt memory remote pending idle => cases hwaits
  | unreachable order error memory remote refunding =>
      obtain ⟨hop, _⟩ := Pause.await.inj hwaits
      rcases refunding.released codec hfees' input with ⟨_, _, hperform, _⟩ | ⟨hinsolvent, _⟩
      · exact walletPost_of_done hop hperform
      · exact absurd hsolvent hinsolvent
  | rejectedUpdated order report memory remote refunding => cases hwaits
  | rejectedUnlocked order report memory remote refunding =>
      obtain ⟨hop, _⟩ := Pause.await.inj hwaits
      rcases refunding.released codec hfees' input with ⟨_, _, hperform, _⟩ | ⟨hinsolvent, _⟩
      · exact walletPost_of_done hop hperform
      · exact absurd hsolvent hinsolvent
  | settled order report fill mine rest done left memory remote filling =>
      obtain ⟨hop, _⟩ := Pause.await.inj hwaits
      rcases filling.settle codec hfees' input with ⟨_, _, _, _, _, hperform, _⟩ | ⟨hinsolvent, _⟩
      · exact walletPost_of_done hop hperform
      · exact absurd hsolvent hinsolvent
  | recorded order report fill mine rest done left pre maker post memory remote found named row nonneg half =>
      cases hwaits
  | makerUpdated order report mine rest done left pre maker post memory remote found row half => cases hwaits
  | makerUnlocked order report mine rest done left pre maker post memory remote found filled half =>
      obtain ⟨hop, _⟩ := Pause.await.inj hwaits
      rcases half.released codec hfees' found filled input with ⟨_, _, hperform, _⟩ | ⟨hinsolvent, _⟩
      · exact walletPost_of_done hop hperform
      · exact absurd hsolvent hinsolvent
  | produced order report mine rest done left memory remote filling => cases hwaits
  | orderUpdated order report memory remote settling row => cases hwaits
  | unlocked order report memory remote settling row =>
      obtain ⟨hop, _⟩ := Pause.await.inj hwaits
      rcases settling.released codec hfees' row input with ⟨_, _, hperform, _⟩ | ⟨hinsolvent, _⟩
      · exact walletPost_of_done hop hperform
      · exact absurd hsolvent hinsolvent
  | announced order report memory remote placed => cases hwaits
  | matched order report memory remote placed => cases hwaits
  | cancelAnswered orderId symbol userId attempt memory remote formatted idle => cases hwaits
  | cancelUnlocked pre order post memory remote found idle backs =>
      obtain ⟨hop, _⟩ := Pause.await.inj hwaits
      obtain ⟨hcancelling, huser, hnonneg⟩ := cancelUnlocked_cancelling found idle backs
      rcases hcancelling.released codec hfees' huser (fun _ => hnonneg hfees) input with
        ⟨_, _, hperform, _⟩ | ⟨hinsolvent, _⟩
      · exact walletPost_of_done hop hperform
      · exact absurd hsolvent hinsolvent
  | cancelSaved pre order post memory remote cancelling emptied => cases hwaits
  | cancelAnnounced memory remote idle => cases hwaits

end Steps

/-! ### Runs -/

/-- No call has been made. -/
def Market.start (wallet : Wallet.Database) (persistence : Option MatchingEngine.Persistence) : Market :=
  ⟨(Trading.start wallet persistence).memory, (Trading.start wallet persistence).remote⟩

section Runs

variable {codec : DecimalCodec} {parse : DecimalParser} {service : TradingService} {solvent : Prop} {maxRetries : ℕ}
  {market market' : Market}

/-- **What holds between two calls.** -/
def Market.Quiet (parse : DecimalParser) (service : TradingService) (solvent : Prop) (market : Market) : Prop :=
  Idle parse service solvent market.memory.orders market.memory market.remote

/-- Before any call. -/
theorem Market.quiet_start {wallet : Wallet.Database} (husers : wallet.users = service.users)
    (haccounted : solvent → Accounted wallet []) (persistence : Option MatchingEngine.Persistence) :
    (Market.start wallet persistence).Quiet parse service solvent := by
  have hbook : ∀ symbol, bookOf ⟨.empty, persistence⟩ symbol = MatchingEngine.OrderBook.default := by
    intro symbol
    rw [bookOf, SortedMap.find_empty]
    rfl
  refine ⟨⟨List.nodup_nil, List.nodup_nil, List.Subset.refl _, husers, MatchingEngine.coreInv_empty persistence,
    fun symbol => ?_, List.forall_mem_nil _, List.Subset.refl _, List.nil_subset _, List.forall_mem_nil _,
    List.forall_mem_nil _, haccounted⟩, fun symbol => ?_⟩
  · show (bookOf ⟨.empty, persistence⟩ symbol).stopOrders = []
    rw [hbook]
    rfl
  · refine ⟨[], ?_, List.nil_subset _⟩
    show MatchingEngine.Simulates (bookOf ⟨.empty, persistence⟩ symbol) []
    rw [hbook]
    exact MatchingEngine.simulates_default

variable (codec maxRetries) (call : OrderCall) (inputs : List (CallFiles × UuidSource)) in
/-- **What holds while a call proceeds.** -/
theorem Market.made_sound (hexact : parse.Exact) (hfees : solvent → FeesInRange service)
    (h : market.Quiet parse service solvent) (hadmitted : Admitted market (.call call inputs)) :
    Sound parse service solvent (market.made codec parse service maxRetries call inputs) := by
  have hmade : Sound parse service solvent
      ((program codec parse service maxRetries).made call market.memory market.remote) := by
    cases call with
    | placeOrder uuid dto => exact .checked _ _ _ _ hadmitted.1 hadmitted.2 h
    | cancelOrder orderId symbol userId =>
        show Sound parse service solvent ⟨(enter (.cancelOrder orderId symbol userId) market.memory).1,
          (enter (.cancelOrder orderId symbol userId) market.memory).2, market.remote⟩
        simp only [enter, requireSymbol]
        by_cases hformatted : isSymbol symbol = true
        · rw [if_pos hformatted]
          exact .cancelAnswered _ _ _ _ _ _ hformatted h
        · rw [if_neg hformatted]
          exact .ended _ _ _ (threw_ne _) h
  rw [Market.made]
  clear hadmitted
  generalize (program codec parse service maxRetries).made call market.memory market.remote = s at hmade
  induction inputs generalizing s with
  | nil => exact hmade
  | cons input inputs ih => exact ih _ (hmade.advance hexact hfees input)

/-- **One call, or one credit.** -/
theorem Market.Quiet.exec (hexact : parse.Exact) (hfees : solvent → FeesInRange service)
    (h : market.Quiet parse service solvent) {deed : Deed} (hadmitted : Admitted market deed)
    {reply : Option Outcome} (hexec : market.exec codec parse service maxRetries deed = .ok (reply, market'))
    (htold : ¬solvent → ∀ error, reply ≠ some (.abandoned error)) : market'.Quiet parse service solvent := by
  cases deed with
  | call call inputs =>
      have hsound := market.made_sound codec maxRetries call inputs hexact hfees h hadmitted
      rw [Market.exec] at hexec
      generalize market.made codec parse service maxRetries call inputs = s at hsound hexec
      obtain ⟨pause, memory, remote⟩ := s
      cases pause with
      | await operation point => cases hexec
      | finish outcome =>
          cases hexec
          cases hsound with
          | ended _ _ _ told idle => exact idle
          | abandoned error _ _ insolvent => exact absurd rfl (htold insolvent error)
  | credit dto type =>
      rw [Market.exec] at hexec
      cases hcredit : market.remote.wallet.exec .fin some (.credit dto type) with
      | error refusal =>
          rw [hcredit] at hexec
          cases hexec
          exact h
      | ok p =>
          obtain ⟨reply, wallet⟩ := p
          rw [hcredit] at hexec
          cases hexec
          obtain ⟨_, _, _, husers⟩ := Wallet.exec_wallets hcredit
          exact ⟨{ h.orderly with
            users := husers.trans h.orderly.users
            accounted := fun hsolvent => ((h.orderly.accounted hsolvent).credit hcredit).2 }, h.backs⟩

/-- **A run.** -/
theorem Market.Quiet.run (hexact : parse.Exact) (hfees : solvent → FeesInRange service)
    (h : market.Quiet parse service solvent) {deeds : List Deed} {replies : List (Option Outcome)}
    (hrun : Machine.run (Market.exec codec parse service maxRetries) market deeds = .ok (replies, market'))
    (halong : Machine.Along (Market.exec codec parse service maxRetries) Admitted market deeds)
    (htold : ¬solvent → ∀ error, some (.abandoned error) ∉ replies) : market'.Quiet parse service solvent := by
  refine Machine.run_history_along (P := Admitted)
    (Q := fun _ replies market => (¬solvent → ∀ error, some (.abandoned error) ∉ replies) →
      market.Quiet parse service solvent) (fun _ => h) ?_ deeds replies market' hrun halong htold
  intro deeds replies market deed reply market' hquiet hadmitted hexec htold
  refine (hquiet fun hinsolvent error hmem => ?_).exec hexact hfees hadmitted hexec fun hinsolvent error hreply => ?_
  · exact htold hinsolvent error (List.mem_append_left _ hmem)
  · exact htold hinsolvent error (List.mem_append_right _ (List.mem_singleton.mpr hreply.symm))

end Runs

/-- **The wallets account for the orders**: after calls, one after another, on a service that starts without orders,
no order has a lock below zero, and what the wallets have locked is what the orders lock.  While the next call
proceeds, no order has a lock below zero, and none of its releases and settlements is refused. -/
theorem locks_account_for_orders (codec : DecimalCodec) (parse : DecimalParser) (service : TradingService)
    (maxRetries : ℕ) (hexact : parse.Exact) (hfees : FeesInRange service) (wallet : Wallet.Database)
    (husers : wallet.users = service.users) (hwallet : Accounted wallet [])
    (persistence : Option MatchingEngine.Persistence) (deeds : List Deed) (replies : List (Option Outcome))
    (market : Market)
    (hrun : Machine.run (Market.exec codec parse service maxRetries) (.start wallet persistence) deeds
      = .ok (replies, market))
    (halong : Machine.Along (Market.exec codec parse service maxRetries) Admitted (.start wallet persistence) deeds) :
    (∀ order ∈ market.memory.orders, 0 ≤ order.lockedAmount) ∧
      (∀ userId asset, (walletAt market.remote.wallet.wallets (Wallet.Database.rowKey userId asset)).locked
        = .fin (lockedFor market.memory.orders userId asset)) ∧
      ∀ call inputs, Admitted market (.call call inputs) →
        (∀ order ∈ (market.made codec parse service maxRetries call inputs).memory.orders, 0 ≤ order.lockedAmount) ∧
          ∀ request point, (market.made codec parse service maxRetries call inputs).pause
              = .await (.walletPost request) point → (∀ dto, request ≠ .lock dto) →
            ∃ remote, (market.made codec parse service maxRetries call inputs).remote.walletPost request
              = .ok remote := by
  have hstart : (Market.start wallet persistence).Quiet parse service True :=
    Market.quiet_start husers (fun _ => hwallet) persistence
  have hquiet := hstart.run hexact (fun _ => hfees) hrun halong fun hinsolvent => absurd trivial hinsolvent
  refine ⟨hquiet.orderly.lock_nonneg hfees, (hquiet.orderly.accounted trivial).locked, fun call inputs hadmitted => ?_⟩
  have hsound := Market.made_sound codec maxRetries call inputs hexact (fun _ => hfees) hquiet hadmitted
  exact ⟨hsound.nonneg hfees trivial, fun request point hwaits hrequest =>
    hsound.accepted codec hfees trivial hwaits hrequest (MatchingEngine.filesOk, fun _ => "")⟩

/-- An offer of two.  The first half is taken at a better price than the bid's, the second by a bid of which one half
rests, is taken in part, and is cancelled. -/
def tradesThenCancelled : List Deed :=
  let inputs := fun tradeId : String => List.replicate 16 (MatchingEngine.filesOk, fun _ => tradeId)
  [.credit ⟨"alice", "BTC", .fin 5, "credit-1"⟩ .deposit,
    .credit ⟨"bob", "USDT", .fin 1000, "credit-2"⟩ .deposit,
    .call (.placeOrder "order-1" (bitcoinOrder "alice" "account-1" .sell .limit 100 none 2)) (inputs "trade-1"),
    .call (.placeOrder "order-2" (bitcoinOrder "bob" "account-2" .buy .limit 101 none 1)) (inputs "trade-2"),
    .call (.placeOrder "order-3" (bitcoinOrder "bob" "account-2" .buy .limit 100 none 2)) (inputs "trade-3"),
    .call (.placeOrder "order-4" (bitcoinOrder "alice" "account-1" .sell .limit 99 none (1 / 2))) (inputs "trade-4"),
    .call (.cancelOrder "order-3" "BTC-USDT" "bob") (inputs "trade-5")]

/-- The wallets of two users, who have nothing. -/
def emptyWallets : Wallet.Database := { users := quietMarket.trading.users, wallets := .empty, ledger := [] }

theorem emptyWallets_accounted : Accounted emptyWallets [] := ⟨fun _ _ => rfl, fun _ => rfl⟩

theorem feesInRange_quietMarket : FeesInRange quietMarket.trading where
  maker := by decide +kernel
  ordered := by decide +kernel
  taker := by decide +kernel

theorem locks_account_for_orders_traded :
    ∃ replies market, Machine.run (Market.exec MatchingEngine.fractionCodec some quietMarket.trading 3)
        (.start emptyWallets none) tradesThenCancelled = .ok (replies, market) ∧
      (∀ order ∈ market.memory.orders, 0 ≤ order.lockedAmount) ∧
      (∀ userId asset, (walletAt market.remote.wallet.wallets (Wallet.Database.rowKey userId asset)).locked
        = .fin (lockedFor market.memory.orders userId asset)) := by
  have halong : Machine.Along (Market.exec MatchingEngine.fractionCodec some quietMarket.trading 3) Admitted
      (.start emptyWallets none) tradesThenCancelled := by decide +kernel
  have hends : (Machine.run (Market.exec MatchingEngine.fractionCodec some quietMarket.trading 3)
      (.start emptyWallets none) tradesThenCancelled).toOption.isSome = true := by decide +kernel
  cases hrun : Machine.run (Market.exec MatchingEngine.fractionCodec some quietMarket.trading 3)
      (.start emptyWallets none) tradesThenCancelled with
  | error e =>
      rw [hrun] at hends
      cases hends
  | ok p =>
      obtain ⟨replies, market⟩ := p
      obtain ⟨hnonneg, hlocked, _⟩ := locks_account_for_orders MatchingEngine.fractionCodec some quietMarket.trading 3
        (fun q q' h => (Option.some.inj h).symm) feesInRange_quietMarket emptyWallets rfl emptyWallets_accounted none
        tradesThenCancelled replies market hrun halong
      exact ⟨replies, market, rfl, hnonneg, hlocked⟩

end NexusTrade.Trading
