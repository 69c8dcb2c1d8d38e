import NexusTrade.Trading.Sequential

/-!
# What holds while a call proceeds

The memory of the trading service, its tables, the wallets and the engine between two steps of a call that runs
alone.  Where the market is solvent, the wallets have locked what is claimed for the orders; nothing else depends on
it.

* **`Orderly`** is what holds of the live orders, after some of the fills; the wallets have locked what some orders
  claim;
* **`Orderly.pay`** and **`Orderly.release`**: a request to the wallet service is carried out, if the market is
  solvent;
* **`Idle`**, **`Reporting`**, **`Filling`**, **`Half`**, **`Settling`** and **`Placed`** are the phases of a call.
-/

namespace NexusTrade.Trading

open MatchingEngine (Side OrderKind Decimal Fill ExecutionReport Core CallFiles UuidSource DecimalCodec opposite)

/-! ### Memory and tables -/

/-- **The memory and the tables**: some orders are live after some fills, and some orders claim what is locked. -/
structure Orderly (parse : DecimalParser) (service : TradingService) (solvent : Prop) (live : List StoredOrder)
    (done : List Fill) (claims : List StoredOrder) (memory : Memory) (remote : Remote) : Prop where
  ids : memory.ids.Nodup
  rows : (remote.rows.map OrderEntity.id).Nodup
  known : memory.ids ⊆ remote.rows.map OrderEntity.id
  users : remote.wallet.users = service.users
  inv : MatchingEngine.CoreInv remote.engine
  stops : ∀ symbol, (bookOf remote.engine symbol).stopOrders = []
  fills : ∀ fill ∈ remote.fills, 0 < fill.quantity ∧ fill.makerOrderId ∈ remote.rows.map OrderEntity.id
  among : live ⊆ memory.orders
  applied : done ⊆ remote.fills
  held : ∀ order ∈ live, Held parse service done order
  recorded : ∀ order ∈ live, OrderEntity.create order ∈ remote.rows
  accounted : solvent → Accounted remote.wallet claims

/-- The release of an amount, as `unlockBalance` asks for it. -/
def releaseOf (order : StoredOrder) (amount : Decimal) : Operation :=
  if amount ≤ 0 then .resolved else .walletPost (.unlock (TradingService.mutationOf order amount))

theorem unlocking_eq (order : StoredOrder) (amount : Decimal) (point : Point) :
    unlocking order amount point = .await (releaseOf order amount) point := by
  rw [unlocking, releaseOf]
  split <;> rfl

section Orderly

variable {codec : DecimalCodec} {parse : DecimalParser} {service : TradingService} {solvent : Prop}
  {live live' claims claims' pre post : List StoredOrder} {done : List Fill} {memory memory' : Memory}
  {remote : Remote} {order : StoredOrder} {amount : Decimal}

namespace Orderly

theorem positive (h : Orderly parse service solvent live done claims memory remote) :
    ∀ fill ∈ done, 0 < fill.quantity := fun fill hfill => (h.fills fill (h.applied hfill)).1

theorem lock_nonneg (h : Orderly parse service solvent live done claims memory remote) (hfees : FeesInRange service) :
    ∀ order ∈ live, 0 ≤ order.lockedAmount := fun order horder => (h.held order horder).lock_nonneg hfees h.positive

/-- Other claims, of which the wallets have as much locked. -/
theorem claim (h : Orderly parse service solvent live done claims memory remote)
    (hclaims : solvent → Accounted remote.wallet claims') :
    Orderly parse service solvent live done claims' memory remote :=
  { h with accounted := hclaims }

theorem congr (h : Orderly parse service solvent live done claims memory remote) (claims' : List StoredOrder)
    (hsame : ∀ userId asset, lockedFor claims userId asset = lockedFor claims' userId asset) :
    Orderly parse service solvent live done claims' memory remote :=
  h.claim fun hsolvent => (h.accounted hsolvent).congr hsame

/-- The row of an order that is not live is updated. -/
theorem updateOrder (h : Orderly parse service solvent live done claims memory remote) {id : String}
    (hne : ∀ order ∈ live, order.id ≠ id) (filledQuantity : Option Decimal) (status : OrderStatus) :
    Orderly parse service solvent live done claims memory
      { remote with rows := Trading.updateOrder remote.rows id filledQuantity status } := by
  have hids := ids_updateOrder remote.rows id filledQuantity status
  refine { h with
    rows := ?_
    known := ?_
    fills := ?_
    recorded := fun order horder =>
      mem_updateOrder_of_ne (h.recorded order horder) (hne order horder) filledQuantity status }
  · show ((Trading.updateOrder remote.rows id filledQuantity status).map OrderEntity.id).Nodup
    rw [hids]
    exact h.rows
  · show memory.ids ⊆ (Trading.updateOrder remote.rows id filledQuantity status).map OrderEntity.id
    rw [hids]
    exact h.known
  · intro fill hfill
    show 0 < fill.quantity ∧
      fill.makerOrderId ∈ (Trading.updateOrder remote.rows id filledQuantity status).map OrderEntity.id
    rw [hids]
    exact h.fills fill hfill

/-- A row is added. -/
theorem saveOrder (h : Orderly parse service solvent live done claims memory remote) {row : OrderEntity}
    (hnew : row.id ∉ remote.rows.map OrderEntity.id) :
    Orderly parse service solvent live done claims memory
      { remote with rows := Trading.saveOrder remote.rows row } := by
  have hsave : Trading.saveOrder remote.rows row = remote.rows ++ [row] :=
    saveOrder_new fun old hold hid => hnew (hid ▸ List.mem_map_of_mem hold)
  have hids : (Trading.saveOrder remote.rows row).map OrderEntity.id
      = remote.rows.map OrderEntity.id ++ [row.id] := by
    rw [hsave, List.map_append]
    rfl
  refine { h with
    rows := ?_
    known := ?_
    fills := ?_
    recorded := ?_ }
  · show ((Trading.saveOrder remote.rows row).map OrderEntity.id).Nodup
    rw [hids, List.nodup_append]
    refine ⟨h.rows, List.nodup_singleton _, fun id hid id' hid' heq => hnew ?_⟩
    rw [← List.mem_singleton.mp hid', ← heq]
    exact hid
  · show memory.ids ⊆ (Trading.saveOrder remote.rows row).map OrderEntity.id
    rw [hids]
    exact List.Subset.trans h.known (List.subset_append_left _ _)
  · intro fill hfill
    show 0 < fill.quantity ∧ fill.makerOrderId ∈ (Trading.saveOrder remote.rows row).map OrderEntity.id
    rw [hids]
    exact ⟨(h.fills fill hfill).1, List.mem_append_left _ (h.fills fill hfill).2⟩
  · intro order horder
    show OrderEntity.create order ∈ Trading.saveOrder remote.rows row
    rw [hsave]
    exact List.mem_append_left _ (h.recorded order horder)

/-- Another memory, with no other objects. -/
theorem remember (h : Orderly parse service solvent live done claims memory remote)
    (hids : memory'.ids.Perm memory.ids) (hlive : live' ⊆ memory'.orders)
    (hheld : ∀ order ∈ live', Held parse service done order)
    (hrecorded : ∀ order ∈ live', OrderEntity.create order ∈ remote.rows) :
    Orderly parse service solvent live' done claims memory' remote :=
  { h with
    ids := hids.nodup_iff.mpr h.ids
    known := fun _ hid => h.known (hids.subset hid)
    among := hlive
    held := hheld
    recorded := hrecorded }

variable (codec) in
/-- **A request to the wallet service** is carried out, if the market is solvent. -/
theorem pay (h : Orderly parse service solvent live done claims memory remote) (request : WalletRequest)
    (hreturns : solvent → ∃ reply wallet, remote.wallet.exec .fin some request.op = .ok (reply, wallet) ∧
      Accounted wallet claims') (input : CallFiles × UuidSource) :
    (∃ wallet served, perform codec parse (.walletPost request) (.answered input) remote
        = (.done, { remote with wallet := wallet, served := served }) ∧
      Orderly parse service solvent live done claims' memory { remote with wallet := wallet, served := served }) ∨
    ¬solvent ∧ ∃ failure, perform codec parse (.walletPost request) (.answered input) remote
      = (.failed failure, remote) := by
  have hne : Operation.walletPost request ≠ .resolved := fun h => nomatch h
  have hhandle : Remote.handle codec parse (.walletPost request) input remote
      = (remote.walletPost request).map fun remote => (.done, remote) := rfl
  rw [perform_eq codec parse hne, Attempt.run, hhandle]
  cases hexec : remote.wallet.exec .fin some request.op with
  | error refusal =>
      refine Or.inr ⟨fun hsolvent => ?_, ?_⟩
      · obtain ⟨_, _, hreturn, _⟩ := hreturns hsolvent
        rw [hexec] at hreturn
        cases hreturn
      · simp only [Remote.walletPost, hexec, Except.map, Prod.mk.injEq, Answer.failed.injEq, and_true,
          exists_eq']
  | ok p =>
      obtain ⟨reply, wallet⟩ := p
      refine Or.inl ⟨wallet, remote.served ++ [request], ?_, { h with users := ?_, accounted := fun hsolvent => ?_ }⟩
      · simp only [Remote.walletPost, hexec, Except.map]
      · obtain ⟨_, _, _, husers⟩ := Wallet.exec_wallets hexec
        exact husers.trans h.users
      · obtain ⟨_, _, hreturn, haccounted⟩ := hreturns hsolvent
        rw [hexec, Except.ok.injEq, Prod.mk.injEq] at hreturn
        rw [hreturn.2]
        exact haccounted

variable (codec) in
/-- **A release is carried out**, if the market is solvent. -/
theorem release (h : Orderly parse service solvent live done (pre ++ order :: post) memory remote)
    (huser : CanTransact service.users order.userId)
    (hcovered : solvent → 0 ≤ amount ∧ amount ≤ order.lockedAmount ∧ ∀ o ∈ pre ++ post, 0 ≤ o.lockedAmount)
    (input : CallFiles × UuidSource) :
    (∃ wallet served, perform codec parse (releaseOf order amount) (.answered input) remote
        = (.done, { remote with wallet := wallet, served := served }) ∧
      Orderly parse service solvent live done
        (pre ++ { order with lockedAmount := order.lockedAmount - amount } :: post) memory
        { remote with wallet := wallet, served := served }) ∨
    ¬solvent ∧ ∃ failure, perform codec parse (releaseOf order amount) (.answered input) remote
      = (.failed failure, remote) := by
  rw [releaseOf]
  by_cases hamount : amount ≤ 0
  · rw [if_pos hamount]
    refine Or.inl ⟨remote.wallet, remote.served, rfl, h.claim fun hsolvent => ?_⟩
    have hzero : amount = 0 := le_antisymm hamount (hcovered hsolvent).1
    rw [hzero, sub_zero]
    exact h.accounted hsolvent
  · rw [if_neg hamount]
    refine h.pay codec _ (fun hsolvent => ?_) input
    obtain ⟨hnonneg, hle, hothers⟩ := hcovered hsolvent
    have hcan : remote.wallet.assertUserCanTransact order.userId = .ok () :=
      CanTransact.wallet (h.users ▸ huser)
    obtain ⟨reply, wallet, hexec, _, haccounted⟩ := (h.accounted hsolvent).unlock hcan hnonneg hle hothers
    exact ⟨reply, wallet, hexec, haccounted⟩

end Orderly

end Orderly

/-! ### Phases of a call -/

/-- What some fills take of the lock of the order that has come in. -/
def takenBy (service : TradingService) (order : StoredOrder) (fills : List Fill) : Decimal :=
  (fills.map fun fill => consumedLockForFill order.side fill.price fill.quantity service.takerFeeBps).sum

/-- The order with what is left of its lock after some fills. -/
def lessFills (service : TradingService) (order : StoredOrder) (fills : List Fill) : StoredOrder :=
  { order with lockedAmount := order.lockedAmount - takenBy service order fills }

section Phases

variable (parse : DecimalParser) (service : TradingService) (solvent : Prop)

/-- **No order changes**, and some orders claim what is locked. -/
structure Idle (claims : List StoredOrder) (memory : Memory) (remote : Remote) : Prop where
  orderly : Orderly parse service solvent memory.orders remote.fills claims memory remote
  backs : Backs parse memory.orders remote.engine

/-- An order with a limit that has not been sent. -/
structure Unsent (order : StoredOrder) : Prop extends Proper service order where
  kind : order.type = .limit ∨ order.type = .postOnly
  unfilled : order.filledQuantity = 0
  positive : 0 < order.quantity

/-- The order of a call, with its lock; it is not among the objects that calls share. -/
structure Pending (memory : Memory) (remote : Remote) (order : StoredOrder) : Prop extends Unsent service order where
  apart : order.id ∉ memory.ids
  unnamed : ∀ fill ∈ remote.fills, fill.makerOrderId ≠ order.id
  row : RowOf remote.rows order
  lock : order.lockedAmount = order.unitLock service.takerFeeBps * order.quantity

/-- **The engine has accepted an order**: some of its fills are done, others are not, and some orders are left when
all are done. -/
structure Reporting (order : StoredOrder) (report : ExecutionReport) (mine rest done : List Fill)
    (left : List StoredOrder) (memory : Memory) (remote : Remote) : Prop where
  pending : Pending service memory remote order
  readable : ∃ price, order.price = some price ∧ parse price = some price
  accepted : report.accepted = true
  reported : report.fills = mine ++ rest
  fills : remote.fills = done ++ rest
  quantity : (report.fills.map Fill.quantity).sum ≤ order.quantity
  backs : Backs parse (left ++ restingOf service order report) remote.engine
  covers : solvent → order.unitLock service.takerFeeBps * (order.quantity - (mine.map Fill.quantity).sum)
    ≤ order.lockedAmount - takenBy service order mine

/-- Between two fills. -/
structure Filling (order : StoredOrder) (report : ExecutionReport) (mine rest done : List Fill)
    (left : List StoredOrder) (memory : Memory) (remote : Remote) : Prop
    extends Reporting parse service solvent order report mine rest done left memory remote where
  orderly : Orderly parse service solvent memory.orders done (memory.orders ++ [lessFills service order mine])
    memory remote
  filled : FilledFrom service order memory.orders rest left

/-- A fill is settled, and its maker, in between the other orders, is as the fill leaves it. -/
structure Half (order : StoredOrder) (report : ExecutionReport) (mine rest done : List Fill)
    (left pre : List StoredOrder) (maker : StoredOrder) (post : List StoredOrder) (memory : Memory)
    (remote : Remote) : Prop
    extends Reporting parse service solvent order report mine rest done left memory remote where
  orderly : Orderly parse service solvent (pre ++ post) done (pre ++ maker :: (post ++ [lessFills service order mine]))
    memory remote
  user : CanTransact service.users maker.userId
  nonneg : solvent → 0 ≤ maker.lockedAmount
  opens : maker.status ≠ .filled →
    Held parse service done maker ∧ FilledFrom service order (pre ++ maker :: post) rest left
  closes : maker.status = .filled → FilledFrom service order (pre ++ post) rest left

/-- An order after its fills, whose lock is still to be settled. -/
structure Settling (order : StoredOrder) (report : ExecutionReport) (memory : Memory) (remote : Remote) : Prop
    extends Proper service order where
  apart : order.id ∉ memory.ids
  unnamed : ∀ fill ∈ remote.fills, fill.makerOrderId ≠ order.id
  readable : ∃ price, order.price = some price ∧ parse price = some price
  nonneg : order.filledQuantity ≤ order.quantity
  orderly : Orderly parse service solvent memory.orders remote.fills
    (memory.orders ++ [lessFills service order report.fills]) memory remote
  backs : Backs parse (memory.orders ++ if shouldRest order then [order] else []) remote.engine
  covers : solvent → order.unitLock service.takerFeeBps * (order.quantity - order.filledQuantity)
    ≤ order.lockedAmount - takenBy service order report.fills

/-- An order after its fills, with the lock that it keeps. -/
structure Placed (order : StoredOrder) (memory : Memory) (remote : Remote) : Prop where
  apart : order.id ∉ memory.ids
  recorded : OrderEntity.create order ∈ remote.rows
  orderly : Orderly parse service solvent memory.orders remote.fills (memory.orders ++ [order]) memory remote
  backs : Backs parse (memory.orders ++ if shouldRest order then [order] else []) remote.engine
  rests : shouldRest order = true → Held parse service remote.fills order
  gone : shouldRest order = false → order.lockedAmount = 0

/-- An order that the engine has cancelled, in between the other orders. -/
structure Cancelling (pre : List StoredOrder) (order : StoredOrder) (post claims : List StoredOrder)
    (memory : Memory) (remote : Remote) : Prop where
  found : memory.orders = pre ++ order :: post
  orderly : Orderly parse service solvent (pre ++ post) remote.fills claims memory remote
  backs : Backs parse (pre ++ post) remote.engine

end Phases

/-! ### The engine answers -/

section Answer

variable {codec : DecimalCodec} {parse : DecimalParser} {service : TradingService} {solvent : Prop}
  {order : StoredOrder} {orders left : List StoredOrder} {fills : List Fill} {memory : Memory} {remote : Remote}

/-- The fills that orders meet are positive, and name these orders. -/
theorem FilledFrom.named (h : FilledFrom service order orders fills left) :
    ∀ fill ∈ fills, 0 < fill.quantity ∧ fill.makerOrderId ∈ orders.map StoredOrder.id := by
  induction fills generalizing orders with
  | nil => exact fun fill hfill => nomatch hfill
  | cons first rest ih =>
      obtain ⟨middle, hone, hrest⟩ := h
      have hfirst : 0 < first.quantity ∧ first.makerOrderId ∈ orders.map StoredOrder.id := by
        cases hone with
        | kept pre post maker found meets opens =>
            refine ⟨meets.positive, ?_⟩
            rw [found, ← meets.id]
            exact List.mem_map_of_mem (List.mem_append_right _ List.mem_cons_self)
        | filled pre post maker found meets closes =>
            refine ⟨meets.positive, ?_⟩
            rw [found, ← meets.id]
            exact List.mem_map_of_mem (List.mem_append_right _ List.mem_cons_self)
      intro fill hfill
      rcases List.mem_cons.mp hfill with rfl | hfill
      · exact hfirst
      · obtain ⟨hpositive, hnamed⟩ := ih hrest fill hfill
        exact ⟨hpositive, hone.ids.subset hnamed⟩

/-- The identifiers of live orders are those of rows. -/
theorem Orderly.known_order {live claims : List StoredOrder} {done : List Fill}
    (h : Orderly parse service solvent live done claims memory remote) :
    memory.orders.map StoredOrder.id ⊆ remote.rows.map OrderEntity.id := by
  intro id hid
  obtain ⟨o, ho, rfl⟩ := List.mem_map.mp hid
  exact h.known (List.mem_map_of_mem (List.mem_append_left _ ho))

/-- The identifiers of the live orders are distinct. -/
theorem Orderly.order_ids {live claims : List StoredOrder} {done : List Fill}
    (h : Orderly parse service solvent live done claims memory remote) :
    (memory.orders.map StoredOrder.id).Nodup := by
  have hids := h.ids
  rw [Memory.ids, Memory.objects, List.map_append] at hids
  exact (List.nodup_append.mp hids).1

/-- What the engine answers to an order, and what the market is then. -/
theorem perform_submitOrder {request : MatchingEngine.Order} {input : CallFiles × UuidSource}
    {report : ExecutionReport} {dropped : List ExecutionReport} {engine : Core}
    (hread : engineOrder parse order = some request)
    (hsubmit : remote.engine.submitOrder codec input.1 input.2 order.symbol request = .ok (report, dropped, engine))
    (hunlogged : logs remote.engine input.1 = false → report.fills = []) :
    ∃ remote', perform codec parse (.submitOrder order) (.answered input) remote = (.report report, remote') ∧
      remote'.rows = remote.rows ∧ remote'.wallet = remote.wallet ∧ remote'.engine = engine ∧
      remote'.fills = remote.fills ++ report.fills := by
  have hne : Operation.submitOrder order ≠ .resolved := fun h => nomatch h
  have hhandle : Remote.handle codec parse (.submitOrder order) input remote = .ok (.report report, { remote with
      engine := engine
      handled := if logs remote.engine input.1 then remote.handled ++
          [⟨order.symbol, request, report.accepted, report.fills, MatchingEngine.fillsOf dropped⟩]
        else remote.handled }) := by
    simp only [Remote.handle, hread, hsubmit]
  refine ⟨_, perform_answered hne hhandle, rfl, rfl, rfl, ?_⟩
  rw [Remote.fills]
  by_cases hlogs : logs remote.engine input.1 = true
  · rw [if_pos hlogs, List.flatMap_append, List.flatMap_singleton]
    rfl
  · rw [if_neg hlogs, hunlogged (Bool.eq_false_iff.mpr hlogs), List.append_nil]
    rfl

/-- The memory and the tables after an answer of the engine. -/
theorem Orderly.answered {live claims : List StoredOrder} {done : List Fill} {remote' : Remote} {engine : Core}
    (h : Orderly parse service solvent live done claims memory remote) (hrows : remote'.rows = remote.rows)
    (hwallet : remote'.wallet = remote.wallet) (hengine : remote'.engine = engine)
    (hfills : remote'.fills = remote.fills ++ fills) (hinv : MatchingEngine.CoreInv engine)
    (hstops : ∀ symbol, (bookOf engine symbol).stopOrders = [])
    (hnamed : ∀ fill ∈ fills, 0 < fill.quantity ∧ fill.makerOrderId ∈ memory.orders.map StoredOrder.id) :
    Orderly parse service solvent live done claims memory remote' where
  ids := h.ids
  rows := hrows ▸ h.rows
  known := hrows ▸ h.known
  users := hwallet ▸ h.users
  inv := hengine ▸ hinv
  stops := hengine ▸ hstops
  fills := fun fill hfill => by
    rw [hfills] at hfill
    rw [hrows]
    rcases List.mem_append.mp hfill with hfill | hfill
    · exact h.fills fill hfill
    · exact ⟨(hnamed fill hfill).1, h.known_order (hnamed fill hfill).2⟩
  among := h.among
  applied := by
    rw [hfills]
    exact List.Subset.trans h.applied (List.subset_append_left _ _)
  held := h.held
  recorded := hrows ▸ h.recorded
  accounted := hwallet ▸ h.accounted

variable (codec) in
/-- **An order is sent**: it cannot be read; or the engine refuses it; or it has fills. -/
theorem Pending.submitted (hexact : parse.Exact) (h : Pending service memory remote order)
    (hidle : Idle parse service solvent (memory.orders ++ [order]) memory remote) (input : CallFiles × UuidSource) :
    (∃ failure, failure.retryable = false ∧
        perform codec parse (.submitOrder order) (.answered input) remote = (.failed failure, remote)) ∨
      ∃ report remote', perform codec parse (.submitOrder order) (.answered input) remote
          = (.report report, remote') ∧
        ((report.accepted = false ∧ Idle parse service solvent (memory.orders ++ [order]) memory remote') ∨
          ∃ left, Filling parse service solvent order report [] report.fills remote.fills left memory remote') := by
  cases hread : engineOrder parse order with
  | none =>
      have hne : Operation.submitOrder order ≠ .resolved := by simp
      refine Or.inl ⟨⟨.error "invalid decimal", false⟩, rfl, ?_⟩
      rw [perform_eq codec parse hne, Attempt.run]
      simp only [Remote.handle, hread]
  | some request =>
      have horderly := hidle.orderly
      have hreadable : Readable parse memory.orders := fun o ho => (horderly.held o ho).readable
      obtain ⟨report, dropped, engine, hsubmit, hinv, hstops, hunlogged, hsubmitted⟩ :=
        submitOrder_backs service codec input.1 input.2 hidle.backs horderly.inv horderly.stops horderly.order_ids
          hreadable h.symbol hread (engineOrder_spec hexact hread) h.unfilled h.kind
      obtain ⟨remote', hperform, hrows, hwallet, hengine, hfills⟩ :=
        perform_submitOrder hread hsubmit hunlogged
      refine Or.inr ⟨report, remote', hperform, ?_⟩
      cases hsubmitted with
      | refused haccepted hnothing hbacks =>
          have hnext := horderly.answered hrows hwallet hengine hfills hinv hstops
            (by rw [hnothing]; exact List.forall_mem_nil _)
          rw [hnothing, List.append_nil] at hfills
          rw [← hfills] at hnext
          exact Or.inl ⟨haccepted, hnext, hengine ▸ hbacks⟩
      | executed haccepted hquantity left hfilled hbacks =>
          have hnamed := hfilled.named
          have hnext := horderly.answered hrows hwallet hengine hfills hinv hstops hnamed
          have hzero : takenBy service order [] = 0 := rfl
          refine Or.inr ⟨left, ⟨⟨h.toUnsent, h.apart, fun fill hfill => ?_, hrows ▸ h.row, h.lock⟩, ?_, haccepted,
            rfl, hfills, hquantity, hengine ▸ hbacks, fun _ => ?_⟩, ?_, hfilled⟩
          · rw [hfills] at hfill
            rcases List.mem_append.mp hfill with hfill | hfill
            · exact h.unnamed fill hfill
            · intro hid
              obtain ⟨o, ho, hsame⟩ := List.mem_map.mp (hnamed fill hfill).2
              exact h.apart (List.mem_map.mpr ⟨o, List.mem_append_left _ ho, hsame.trans hid⟩)
          · obtain ⟨price, _, _, hprice, _, _, _⟩ := engineOrder_fields hread
            obtain ⟨limit, hlimit, _⟩ := h.price
            rw [hlimit] at hprice
            obtain ⟨p, hp, _⟩ := Option.map_eq_some_iff.mp hprice
            exact ⟨limit, hlimit, hp.trans (congrArg some (hexact limit p hp))⟩
          · rw [hzero, sub_zero, List.map_nil, List.sum_nil, sub_zero, h.lock]
          · rw [lessFills, hzero, sub_zero]
            exact hnext

end Answer

/-! ### The loop over the fills -/

section Loop

variable {codec : DecimalCodec} {parse : DecimalParser} {service : TradingService} {solvent : Prop}
  {order maker : StoredOrder} {report : ExecutionReport} {fill : Fill} {mine rest done : List Fill}
  {left pre post : List StoredOrder} {memory : Memory} {remote : Remote}

theorem takenBy_snoc (service : TradingService) (order : StoredOrder) (fills : List Fill) (fill : Fill) :
    takenBy service order (fills ++ [fill]) = takenBy service order fills
      + consumedLockForFill order.side fill.price fill.quantity service.takerFeeBps := by
  rw [takenBy, List.map_append, List.sum_append]
  exact congrArg (_ + ·) (add_zero _)

theorem quantities_nonneg {fills : List Fill} (h : ∀ fill ∈ fills, 0 < fill.quantity) :
    0 ≤ (fills.map Fill.quantity).sum := by
  refine List.sum_nonneg fun q hq => ?_
  obtain ⟨fill, hfill, rfl⟩ := List.mem_map.mp hq
  exact (h fill hfill).le

/-- An order pays no more for a fill than what it locks for the quantity. -/
theorem consumed_le_unitLock (horder : Proper service order) (hfees : FeesInRange service)
    (hmeets : Meets order fill maker) :
    consumedLockForFill order.side fill.price fill.quantity service.takerFeeBps
      ≤ order.unitLock service.takerFeeBps * fill.quantity := by
  obtain ⟨limit, hlimit, _⟩ := horder.price
  have hfactor : 0 ≤ feeFactor service.takerFeeBps := by
    have htaker := hfees.maker.trans hfees.ordered
    rw [feeFactor]
    positivity
  have hwithin := hmeets.within
  rw [StoredOrder.unitLock, hlimit]
  cases hside : order.side with
  | sell => exact (one_mul fill.quantity).symm.le
  | buy =>
      show fill.price * fill.quantity + calculateFee (fill.price * fill.quantity) service.takerFeeBps
        ≤ limit * feeFactor service.takerFeeBps * fill.quantity
      rw [withFee_eq, mul_right_comm]
      exact mul_le_mul_of_nonneg_right (mul_le_mul_of_nonneg_right (hwithin hside limit hlimit) hfactor)
        hmeets.positive.le

/-- The lock of the order covers what is left after one more fill. -/
theorem Reporting.covers_snoc (h : Reporting parse service solvent order report mine (fill :: rest) done left
    memory remote) (hfees : FeesInRange service) (hsolvent : solvent) (hmeets : Meets order fill maker)
    (hpositive : ∀ fill ∈ rest, 0 < fill.quantity) :
    consumedLockForFill order.side fill.price fill.quantity service.takerFeeBps
        ≤ order.lockedAmount - takenBy service order mine ∧
      order.unitLock service.takerFeeBps * (order.quantity - ((mine ++ [fill]).map Fill.quantity).sum)
        ≤ order.lockedAmount - takenBy service order (mine ++ [fill]) := by
  have hcovers := h.covers hsolvent
  have hconsumed := consumed_le_unitLock h.pending.toProper hfees hmeets
  have hquantity := h.quantity
  obtain ⟨price, hprice, hprice'⟩ := h.pending.price
  have hunit := unitLock_nonneg hprice hprice' (hfees.maker.trans hfees.ordered)
  have hrest := quantities_nonneg hpositive
  rw [h.reported, List.map_append, List.sum_append, List.map_cons, List.sum_cons] at hquantity
  have hleft : 0 ≤ order.unitLock service.takerFeeBps
      * (order.quantity - (mine.map Fill.quantity).sum - fill.quantity) :=
    mul_nonneg hunit (by linarith)
  rw [takenBy_snoc, List.map_append, List.sum_append, List.map_singleton, List.sum_singleton]
  constructor
  · linarith
  · linarith

/-- What is left of the lock of the order is not below zero. -/
theorem Reporting.lessFills_nonneg (hfees : solvent → FeesInRange service) (hsolvent : solvent)
    (h : Reporting parse service solvent order report mine rest done left memory remote)
    (hpositive : ∀ fill ∈ rest, 0 < fill.quantity) : 0 ≤ (lessFills service order mine).lockedAmount := by
  obtain ⟨price, hprice, hprice'⟩ := h.pending.price
  have hquantity := h.quantity
  have hrest := quantities_nonneg hpositive
  rw [h.reported, List.map_append, List.sum_append] at hquantity
  refine (mul_nonneg ?_ ?_).trans (h.covers hsolvent)
  · exact unitLock_nonneg hprice hprice' ((hfees hsolvent).maker.trans (hfees hsolvent).ordered)
  · linarith

variable (codec) in
/-- **A fill is settled.** -/
theorem Filling.settle (hfees : solvent → FeesInRange service)
    (h : Filling parse service solvent order report mine (fill :: rest) done left memory remote)
    (input : CallFiles × UuidSource) :
    (∃ wallet served pre maker post, perform codec parse (.walletPost (.settleTrade
          (TradingService.settlement (service.toTrade order fill) (opposite order.side)))) (.answered input) remote
        = (.done, { remote with wallet := wallet, served := served }) ∧
      memory.orders = pre ++ maker :: post ∧ maker.id = fill.makerOrderId ∧
      OrderEntity.create maker ∈ remote.rows ∧
      Half parse service solvent order report (mine ++ [fill]) rest (done ++ [fill]) left pre
        (service.fillMaker maker (service.toTrade order fill)) post memory
        { remote with wallet := wallet, served := served }) ∨
    ¬solvent ∧ ∃ failure, perform codec parse (.walletPost (.settleTrade
        (TradingService.settlement (service.toTrade order fill) (opposite order.side)))) (.answered input) remote
      = (.failed failure, remote) := by
  have horderly := h.orderly
  obtain ⟨middle, hone, hrest⟩ := h.filled
  -- the maker, and what becomes of it
  obtain ⟨pre, maker, post, found, meets, hopens, hcloses⟩ : ∃ pre maker post,
      memory.orders = pre ++ maker :: post ∧ Meets order fill maker ∧
      (maker.filledQuantity + fill.quantity < maker.quantity →
        FilledFrom service order (pre ++ service.fillMaker maker (service.toTrade order fill) :: post) rest left) ∧
      (maker.quantity ≤ maker.filledQuantity + fill.quantity →
        FilledFrom service order (pre ++ post) rest left) := by
    cases hone with
    | kept pre post maker found meets opens =>
        exact ⟨pre, maker, post, found, meets, fun _ => hrest, fun hcloses => absurd hcloses (not_le.mpr opens)⟩
    | filled pre post maker found meets closes =>
        exact ⟨pre, maker, post, found, meets, fun hopens => absurd closes (not_le.mpr hopens), fun _ => hrest⟩
  have hmem : maker ∈ memory.orders := by
    rw [found]
    exact List.mem_append_right _ List.mem_cons_self
  have hothers : ∀ o ∈ pre ++ post, o ∈ memory.orders ∧ o.id ≠ maker.id := by
    intro o ho
    have hne := Memory.ids_ne found horderly.ids
    rw [found]
    rcases List.mem_append.mp ho with ho | ho
    · exact ⟨List.mem_append_left _ ho, hne o (List.mem_append_left _ ho)⟩
    · exact ⟨List.mem_append_right _ (List.mem_cons_of_mem _ ho),
        hne o (List.mem_append_right _ (List.mem_append_left _ ho))⟩
  have hheld := horderly.held maker hmem
  have hpositive : ∀ fill ∈ rest, 0 < fill.quantity := by
    by_cases h : maker.filledQuantity + fill.quantity < maker.quantity
    · exact fun later hlater => ((hopens h).named later hlater).1
    · exact fun later hlater => ((hcloses (not_lt.mp h)).named later hlater).1
  have hfills : remote.fills = (done ++ [fill]) ++ rest := by
    rw [h.fills, List.append_assoc]
    rfl
  have hclaims : pre ++ maker :: (post ++ [lessFills service order mine])
      = memory.orders ++ [lessFills service order mine] := by
    rw [found, List.append_assoc]
    rfl
  have hreturns : solvent → ∃ reply wallet, remote.wallet.exec .fin some (.settleTrade
      (TradingService.settlement (service.toTrade order fill) (opposite order.side))) = .ok (reply, wallet) ∧
      Accounted wallet (pre ++ service.fillMaker maker (service.toTrade order fill)
        :: (post ++ [lessFills service order (mine ++ [fill])])) := by
    intro hsolvent
    have haccounted := horderly.accounted hsolvent
    rw [← hclaims] at haccounted
    obtain ⟨price, hprice, hprice'⟩ := hheld.price
    obtain rfl : price = fill.price := Option.some.inj (hprice.symm.trans meets.price)
    obtain ⟨hcovered, _⟩ := h.covers_snoc (hfees hsolvent) hsolvent meets hpositive
    have husers := horderly.users
    have hlocked : maker.lockedAsset = lockedAssetOf maker.side order.symbol := meets.symbol ▸ hheld.lockedAsset
    obtain ⟨reply, wallet, hexec, _, hnext⟩ := haccounted.settle (hfees hsolvent) hprice'.le meets.positive.le
      meets.makerUser meets.takerUser (CanTransact.wallet (husers ▸ hheld.user))
      (CanTransact.wallet (husers ▸ h.pending.user)) meets.side hlocked h.pending.lockedAsset
      (hheld.covers_fill (hfees hsolvent) horderly.positive meets) hcovered
      (fun o ho => horderly.lock_nonneg (hfees hsolvent) o (hothers o ho).1)
    rw [meets.side] at hexec
    refine ⟨reply, wallet, hexec, ?_⟩
    rw [lessFills, takenBy_snoc, ← sub_sub]
    exact hnext
  rcases horderly.pay codec (.settleTrade (TradingService.settlement (service.toTrade order fill)
      (opposite order.side))) hreturns input with ⟨wallet, served, hperform, hnext⟩ | hfailed
  · refine Or.inl ⟨wallet, served, pre, maker, post, hperform, found, meets.id, horderly.recorded maker hmem,
      ⟨⟨⟨h.pending.toUnsent, h.pending.apart, h.pending.unnamed, h.pending.row, h.pending.lock⟩, h.readable,
        h.accepted, ?_, hfills, h.quantity, h.backs, fun hsolvent => ?_⟩, ?_, hheld.user, fun hsolvent => ?_,
        fun hstatus => ?_, fun hstatus => ?_⟩⟩
    · rw [h.reported, List.append_assoc]
      rfl
    · exact (h.covers_snoc (hfees hsolvent) hsolvent meets hpositive).2
    · refine { hnext with
        among := fun o ho => (hothers o ho).1
        applied := ?_
        held := fun o ho => (hnext.held o (hothers o ho).1).other fun hid => (hothers o ho).2 ?_
        recorded := fun o ho => hnext.recorded o (hothers o ho).1 }
      · show done ++ [fill] ⊆ remote.fills
        rw [hfills]
        exact List.subset_append_left _ _
      · rw [← hid, meets.id]
    · exact sub_nonneg.mpr (hheld.covers_fill (hfees hsolvent) horderly.positive meets)
    · have hleft := not_le.mp fun hcloses => hstatus (fillMaker_filled_iff.mpr hcloses)
      exact ⟨hheld.fillMaker meets hleft, hopens hleft⟩
    · exact hcloses (fillMaker_filled_iff.mp hstatus)
  · exact Or.inr hfailed

/-- The same claims, with the maker in its place. -/
theorem claims_at (found : memory.orders = pre ++ maker :: post) (last : StoredOrder) :
    pre ++ maker :: (post ++ [last]) = memory.orders ++ [last] := by
  rw [found, List.append_assoc]
  rfl

namespace Half

variable {maker' : StoredOrder}

/-- The other orders are apart from the maker. -/
theorem apart (h : Half parse service solvent order report mine rest done left pre maker post memory remote)
    (found : memory.orders = pre ++ maker' :: post) (hid : maker.id = maker'.id) :
    ∀ o ∈ pre ++ post, o.id ≠ maker.id := by
  intro o ho
  rw [hid]
  refine Memory.ids_ne found h.orderly.ids o ?_
  rw [← List.append_assoc]
  exact List.mem_append_left _ ho

/-- The order of the call is not the maker. -/
theorem order_ne (h : Half parse service solvent order report mine rest done left pre maker post memory remote)
    (found : memory.orders = pre ++ maker' :: post) (hid : maker.id = maker'.id) : order.id ≠ maker.id := by
  intro heq
  refine h.pending.apart ?_
  rw [heq, hid]
  refine List.mem_map_of_mem (List.mem_append_left _ ?_)
  rw [found]
  exact List.mem_append_right _ List.mem_cons_self

/-- The trade is recorded. -/
theorem saveTrade (h : Half parse service solvent order report mine rest done left pre maker post memory remote)
    (trades : List Trade) :
    Half parse service solvent order report mine rest done left pre maker post memory
      { remote with trades := trades } :=
  ⟨⟨⟨h.pending.toUnsent, h.pending.apart, h.pending.unnamed, h.pending.row, h.pending.lock⟩, h.readable, h.accepted,
    h.reported, h.fills, h.quantity, h.backs, h.covers⟩, { h.orderly with rows := h.orderly.rows }, h.user, h.nonneg,
    h.opens, h.closes⟩

/-- The object of the maker is assigned to. -/
theorem assigned (h : Half parse service solvent order report mine rest done left pre maker post memory remote)
    (found : memory.orders = pre ++ maker' :: post) (hid : maker.id = maker'.id) :
    Half parse service solvent order report mine rest done left pre maker post
      { memory with orders := pre ++ maker :: post } remote := by
  have hids := Memory.ids_at memory found maker hid
  refine ⟨⟨⟨h.pending.toUnsent, ?_, h.pending.unnamed, h.pending.row, h.pending.lock⟩, h.readable, h.accepted,
    h.reported, h.fills, h.quantity, h.backs, h.covers⟩, ?_, h.user, h.nonneg, h.opens, h.closes⟩
  · rw [hids]
    exact h.pending.apart
  · refine h.orderly.remember (List.Perm.of_eq hids) (fun o ho => ?_) h.orderly.held h.orderly.recorded
    rcases List.mem_append.mp ho with ho | ho
    · exact List.mem_append_left _ ho
    · exact List.mem_append_right _ (List.mem_cons_of_mem _ ho)

/-- **The row of the maker is updated.** -/
theorem updated (h : Half parse service solvent order report mine rest done left pre maker post memory remote)
    (found : memory.orders = pre ++ maker :: post) (filledQuantity : Option Decimal) (status : OrderStatus) :
    Half parse service solvent order report mine rest done left pre maker post memory
      { remote with rows := Trading.updateOrder remote.rows maker.id filledQuantity status } := by
  have horderly := h.orderly.updateOrder (h.apart found rfl) filledQuantity status
  refine ⟨⟨⟨h.pending.toUnsent, h.pending.apart, h.pending.unnamed, ?_, h.pending.lock⟩, h.readable, h.accepted,
    h.reported, h.fills, h.quantity, h.backs, h.covers⟩, horderly, h.user, h.nonneg, h.opens, h.closes⟩
  exact h.pending.row.update_of_ne (h.order_ne found rfl) filledQuantity status

/-- **The maker stays open.** -/
theorem kept (h : Half parse service solvent order report mine rest done left pre maker post memory remote)
    (found : memory.orders = pre ++ maker :: post) (hrecorded : OrderEntity.create maker ∈ remote.rows)
    (hstatus : maker.status ≠ .filled) :
    Filling parse service solvent order report mine rest done left memory remote := by
  obtain ⟨hheld, hfilled⟩ := h.opens hstatus
  have hlive : ∀ o ∈ memory.orders, o = maker ∨ o ∈ pre ++ post := by
    intro o ho
    rw [found] at ho
    rcases List.mem_append.mp ho with ho | ho
    · exact Or.inr (List.mem_append_left _ ho)
    · rcases List.mem_cons.mp ho with rfl | ho
      · exact Or.inl rfl
      · exact Or.inr (List.mem_append_right _ ho)
  refine ⟨h.toReporting, ?_, by rw [found]; exact hfilled⟩
  have horderly := h.orderly
  rw [claims_at found] at horderly
  refine horderly.remember (List.Perm.refl _) (List.Subset.refl _) (fun o ho => ?_) fun o ho => ?_
  · rcases hlive o ho with rfl | ho
    · exact hheld
    · exact horderly.held o ho
  · rcases hlive o ho with rfl | ho
    · exact hrecorded
    · exact horderly.recorded o ho

variable (codec) in
/-- **The maker is filled**, and its lock is released. -/
theorem released (hfees : solvent → FeesInRange service)
    (h : Half parse service solvent order report mine rest done left pre maker post memory remote)
    (found : memory.orders = pre ++ maker :: post) (hstatus : maker.status = .filled)
    (input : CallFiles × UuidSource) :
    (∃ wallet served, perform codec parse (releaseOf maker maker.lockedAmount) (.answered input) remote
        = (.done, { remote with wallet := wallet, served := served }) ∧
      Filling parse service solvent order report mine rest done left
        { memory with
          orders := pre ++ post
          spliced := memory.spliced ++ [{ maker with lockedAmount := 0 }] }
        { remote with wallet := wallet, served := served }) ∨
    ¬solvent ∧ ∃ failure, perform codec parse (releaseOf maker maker.lockedAmount) (.answered input) remote
      = (.failed failure, remote) := by
  have hids := Memory.ids_out memory found { maker with lockedAmount := 0 } rfl
  have hcovered : solvent → 0 ≤ maker.lockedAmount ∧ maker.lockedAmount ≤ maker.lockedAmount ∧
      ∀ o ∈ pre ++ (post ++ [lessFills service order mine]), 0 ≤ o.lockedAmount := by
    intro hsolvent
    refine ⟨h.nonneg hsolvent, le_refl _, fun o ho => ?_⟩
    rw [← List.append_assoc] at ho
    rcases List.mem_append.mp ho with ho | ho
    · exact h.orderly.lock_nonneg (hfees hsolvent) o ho
    · rw [List.mem_singleton.mp ho]
      exact h.toReporting.lessFills_nonneg hfees hsolvent fun later hlater => ((h.closes hstatus).named later hlater).1
  rcases h.orderly.release codec h.user hcovered input with ⟨wallet, served, hperform, hnext⟩ | hfailed
  · refine Or.inl ⟨wallet, served, hperform, ⟨⟨⟨h.pending.toUnsent, fun hid => h.pending.apart (hids.subset hid),
      h.pending.unnamed, h.pending.row, h.pending.lock⟩, h.readable, h.accepted, h.reported, h.fills, h.quantity,
      h.backs, h.covers⟩, ?_, h.closes hstatus⟩⟩
    have hclaims := hnext.congr (pre ++ post ++ [lessFills service order mine]) fun userId asset => by
      have hnothing : StoredOrder.locks { maker with lockedAmount := maker.lockedAmount - maker.lockedAmount }
          userId asset = 0 := locks_of_zero userId asset (sub_self _)
      rw [lockedFor_append, lockedFor_cons, hnothing, zero_add, ← lockedFor_append, List.append_assoc]
    exact hclaims.remember hids (List.Subset.refl _) hclaims.held hclaims.recorded
  · exact Or.inr hfailed

end Half

end Loop

/-! ### The end of a call -/

section Ends

variable {codec : DecimalCodec} {parse : DecimalParser} {service : TradingService} {solvent : Prop}
  {order : StoredOrder} {report : ExecutionReport} {mine done : List Fill} {left pre post claims : List StoredOrder}
  {memory : Memory} {remote : Remote}

/-- What `unlockUnusedIncomingLock` leaves locked for an order. -/
def restLockOf (service : TradingService) (order : StoredOrder) : Decimal :=
  if shouldRest order then remainingLock order (splitSymbol order.symbol).2 service.takerFeeBps else 0

theorem unlockUnused_eq (service : TradingService) (order : StoredOrder) (report : ExecutionReport) :
    unlockUnused service order report = .await
      (releaseOf order (order.lockedAmount - takenBy service order report.fills - restLockOf service order))
      (.unlocked order report (restLockOf service order)) := by
  have hsum : ∀ (fills : List Fill) (total : Decimal), fills.foldl (fun total fill =>
      total + consumedLockForFill order.side fill.price fill.quantity service.takerFeeBps) total
      = total + takenBy service order fills := by
    intro fills
    induction fills with
    | nil => exact fun total => (add_zero total).symm
    | cons fill rest ih =>
        intro total
        rw [List.foldl_cons, ih, add_assoc]
        rfl
  rw [unlockUnused, hsum, zero_add, unlocking_eq]
  rfl

/-- **All fills are done.** -/
theorem Filling.settling (h : Filling parse service solvent order report mine [] done left memory remote) :
    Settling parse service solvent (service.filledBy order report) report memory remote ∧
      RowOf remote.rows (service.filledBy order report) := by
  have hfills : remote.fills = done := h.fills.trans (List.append_nil _)
  have hmine : report.fills = mine := h.reported.trans (List.append_nil _)
  have hfilled : (service.filledBy order report).filledQuantity = (report.fills.map Fill.quantity).sum := by
    rw [TradingService.filledBy_filledQuantity, h.pending.unfilled, zero_add]
  have horderly := h.orderly
  have hleft := h.filled
  have hbacks := h.backs
  obtain rfl : left = memory.orders := hleft
  rw [← hfills, ← hmine] at horderly
  refine ⟨⟨⟨h.pending.symbol, h.pending.lockedAsset, h.pending.price, h.pending.user⟩, h.pending.apart,
    h.pending.unnamed, h.readable, ?_, ?_, hbacks, fun hsolvent => ?_⟩, h.pending.row.congr rfl⟩
  · rw [hfilled]
    exact h.quantity
  · refine horderly.congr _ fun userId asset => ?_
    rw [lockedFor_append, lockedFor_append]
    rfl
  · have hcovers := h.covers hsolvent
    rw [hfilled, hmine]
    exact hcovers

/-- The row of the order is updated. -/
theorem Settling.updated (h : Settling parse service solvent order report memory remote)
    (filledQuantity : Option Decimal) (status : OrderStatus) :
    Settling parse service solvent order report memory
      { remote with rows := Trading.updateOrder remote.rows order.id filledQuantity status } := by
  have hne : ∀ o ∈ memory.orders, o.id ≠ order.id := by
    intro o ho hid
    refine h.apart ?_
    rw [← hid]
    exact List.mem_map_of_mem (List.mem_append_left _ ho)
  have horderly := h.orderly.updateOrder hne filledQuantity status
  exact ⟨h.toProper, h.apart, h.unnamed, h.readable, h.nonneg, horderly, h.backs, h.covers⟩

/-- The books do not know what is locked for an order. -/
theorem Backs.relocked {orders : List StoredOrder} {engine : Core}
    (h : Backs parse (orders ++ if shouldRest order then [order] else []) engine) (lock : Decimal) :
    Backs parse (orders ++ if shouldRest { order with lockedAmount := lock } then
      [{ order with lockedAmount := lock }] else []) engine := by
  intro symbol
  obtain ⟨opens, hsim, hopens⟩ := h symbol
  refine ⟨opens, hsim, ?_⟩
  have hsame : shouldRest { order with lockedAmount := lock } = shouldRest order := rfl
  rw [opensOf_append] at hopens ⊢
  rw [hsame]
  cases hshould : shouldRest order with
  | true =>
      rw [hshould] at hopens
      exact hopens
  | false =>
      rw [hshould] at hopens
      exact hopens

variable (codec) in
/-- **What is not used of the lock is released.** -/
theorem Settling.released (hfees : solvent → FeesInRange service)
    (h : Settling parse service solvent order report memory remote)
    (hrecorded : OrderEntity.create order ∈ remote.rows) (input : CallFiles × UuidSource) :
    (∃ wallet served, perform codec parse (releaseOf order
          (order.lockedAmount - takenBy service order report.fills - restLockOf service order)) (.answered input) remote
        = (.done, { remote with wallet := wallet, served := served }) ∧
      Placed parse service solvent { order with lockedAmount := restLockOf service order } memory
        { remote with wallet := wallet, served := served }) ∨
    ¬solvent ∧ ∃ failure, perform codec parse (releaseOf order
        (order.lockedAmount - takenBy service order report.fills - restLockOf service order)) (.answered input) remote
      = (.failed failure, remote) := by
  have hremaining := remainingLock_eq h.symbol service.takerFeeBps
  obtain ⟨price, hprice, hprice'⟩ := h.price
  -- the lock that stays is covered by what is left of the lock
  have hrest : solvent → 0 ≤ restLockOf service order ∧
      restLockOf service order ≤ order.lockedAmount - takenBy service order report.fills := by
    intro hsolvent
    have hcovers := h.covers hsolvent
    have hnonneg : 0 ≤ order.unitLock service.takerFeeBps * (order.quantity - order.filledQuantity) :=
      mul_nonneg (unitLock_nonneg hprice hprice' ((hfees hsolvent).maker.trans (hfees hsolvent).ordered))
        (sub_nonneg.mpr h.nonneg)
    rw [restLockOf]
    split
    · rw [hremaining]
      exact ⟨hnonneg, hcovers⟩
    · exact ⟨le_refl 0, hnonneg.trans hcovers⟩
  have hcovered : solvent → 0 ≤ order.lockedAmount - takenBy service order report.fills - restLockOf service order ∧
      order.lockedAmount - takenBy service order report.fills - restLockOf service order
        ≤ (lessFills service order report.fills).lockedAmount ∧
      ∀ o ∈ memory.orders ++ [], 0 ≤ o.lockedAmount := by
    intro hsolvent
    obtain ⟨hnonneg, hle⟩ := hrest hsolvent
    refine ⟨sub_nonneg.mpr hle, sub_le_self _ hnonneg, ?_⟩
    rw [List.append_nil]
    exact h.orderly.lock_nonneg (hfees hsolvent)
  have huser : CanTransact service.users (lessFills service order report.fills).userId := h.user
  rcases h.orderly.release codec huser hcovered input with ⟨wallet, served, hperform, hnext⟩ | hfailed
  · refine Or.inl ⟨wallet, served, hperform, h.apart, hrecorded, ?_, h.backs.relocked _, fun hshould => ?_,
      fun hnot => ?_⟩
    · have hlock : (lessFills service order report.fills).lockedAmount
          - (order.lockedAmount - takenBy service order report.fills - restLockOf service order)
          = restLockOf service order := sub_sub_cancel _ _
      rw [hlock] at hnext
      exact hnext
    · have hshould : shouldRest order = true := hshould
      have hzero : asMaker remote.fills order.id = 0 :=
        (asMaker_eq_zero_iff h.orderly.positive order.id).mpr h.unnamed
      have hlock : restLockOf service order = order.unitLock service.takerFeeBps
            * (order.quantity - order.filledQuantity)
          + (order.unitLock service.takerFeeBps - order.unitLock service.makerFeeBps)
            * asMaker remote.fills order.id := by
        rw [restLockOf, if_pos hshould, hremaining, hzero, mul_zero, add_zero]
      rw [shouldRest, Bool.and_eq_true, decide_eq_true_eq] at hshould
      refine ⟨⟨h.symbol, h.lockedAsset, h.price, h.user⟩, h.readable, sub_pos.mp hshould.1, ?_, hlock⟩
      show order.status.active = true
      have hstatus := hshould.2
      cases hcase : order.status <;> rw [hcase] at hstatus <;> first | rfl | cases hstatus
    · have hnot : ¬shouldRest order = true := fun hshould => by
        have hnot : shouldRest order = false := hnot
        rw [hnot] at hshould
        cases hshould
      exact if_neg hnot
  · exact Or.inr hfailed

/-- **The call ends**, and the order is live if it rests. -/
theorem Placed.finished (h : Placed parse service solvent order memory remote) (report : ExecutionReport) :
    Idle parse service solvent (finishPlacing memory order report).2.orders (finishPlacing memory order report).2
      remote := by
  have hbacks := h.backs
  have horderly := h.orderly
  cases hshould : shouldRest order with
  | true =>
      have hmemory : (finishPlacing memory order report).2 = { memory with orders := memory.orders ++ [order] } :=
        if_pos hshould
      have hids : (Memory.ids { memory with orders := memory.orders ++ [order] }).Perm (order.id :: memory.ids) := by
        have hobjects : (memory.orders ++ [order] ++ memory.spliced).Perm (order :: memory.objects) := by
          rw [List.append_assoc]
          exact List.perm_middle
        exact hobjects.map StoredOrder.id
      have hknown : order.id ∈ remote.rows.map OrderEntity.id := List.mem_map_of_mem h.recorded
      have hlive : ∀ o ∈ memory.orders ++ [order], o ∈ memory.orders ∨ o = order := fun o ho =>
        (List.mem_append.mp ho).imp_right List.mem_singleton.mp
      rw [if_pos hshould] at hbacks
      rw [hmemory]
      refine ⟨{ horderly with
        ids := ?_
        known := fun id hid => ?_
        among := List.Subset.refl _
        held := fun o ho => ?_
        recorded := fun o ho => ?_ }, hbacks⟩
      · exact hids.nodup_iff.mpr (List.nodup_cons.mpr ⟨h.apart, horderly.ids⟩)
      · rcases List.mem_cons.mp (hids.subset hid) with rfl | hid
        · exact hknown
        · exact horderly.known hid
      · rcases hlive o ho with ho | rfl
        · exact horderly.held o ho
        · exact h.rests hshould
      · rcases hlive o ho with ho | rfl
        · exact horderly.recorded o ho
        · exact h.recorded
  | false =>
      have hnot : ¬shouldRest order = true := by
        rw [hshould]
        exact Bool.false_ne_true
      have hmemory : (finishPlacing memory order report).2 = memory := if_neg hnot
      rw [if_neg hnot, List.append_nil] at hbacks
      rw [hmemory]
      refine ⟨horderly.congr memory.orders fun userId asset => ?_, hbacks⟩
      rw [lockedFor_append, lockedFor_singleton, locks_of_zero userId asset (h.gone hshould), add_zero]

variable (codec) in
/-- **The lock of an order that is cancelled is released**, and its object is emptied. -/
theorem Cancelling.released (hfees : solvent → FeesInRange service)
    (h : Cancelling parse service solvent pre order post (pre ++ order :: post) memory remote)
    (huser : CanTransact service.users order.userId) (hnonneg : solvent → 0 ≤ order.lockedAmount)
    (input : CallFiles × UuidSource) :
    (∃ wallet served, perform codec parse (releaseOf order order.lockedAmount) (.answered input) remote
        = (.done, { remote with wallet := wallet, served := served }) ∧
      Cancelling parse service solvent pre { order with lockedAmount := 0, status := .cancelled } post (pre ++ post)
        (memory.change order.id fun order => { order with lockedAmount := 0, status := .cancelled })
        { remote with wallet := wallet, served := served }) ∨
    ¬solvent ∧ ∃ failure, perform codec parse (releaseOf order order.lockedAmount) (.answered input) remote
      = (.failed failure, remote) := by
  have hcovered : solvent → 0 ≤ order.lockedAmount ∧ order.lockedAmount ≤ order.lockedAmount ∧
      ∀ o ∈ pre ++ post, 0 ≤ o.lockedAmount :=
    fun hsolvent => ⟨hnonneg hsolvent, le_refl _, h.orderly.lock_nonneg (hfees hsolvent)⟩
  rcases h.orderly.release codec huser hcovered input with ⟨wallet, served, hperform, hnext⟩ | hfailed
  · refine Or.inl ⟨wallet, served, hperform, ?_⟩
    rw [Memory.change_at h.found h.orderly.ids]
    have hclaims := hnext.congr (pre ++ post) fun userId asset => by
      have hnothing : StoredOrder.locks { order with lockedAmount := order.lockedAmount - order.lockedAmount }
          userId asset = 0 := locks_of_zero userId asset (sub_self _)
      rw [lockedFor_append, lockedFor_cons, hnothing, zero_add, ← lockedFor_append]
    refine ⟨rfl, hclaims.remember (List.Perm.of_eq (Memory.ids_at memory h.found _ rfl)) (fun o ho => ?_)
      hclaims.held hclaims.recorded, h.backs⟩
    rcases List.mem_append.mp ho with ho | ho
    · exact List.mem_append_left _ ho
    · exact List.mem_append_right _ (List.mem_cons_of_mem _ ho)
  · exact Or.inr hfailed

/-- **The row of an order that is cancelled is updated**, and it is taken out of `orders`. -/
theorem Cancelling.spliced (h : Cancelling parse service solvent pre order post (pre ++ post) memory remote)
    (filledQuantity : Option Decimal) (status : OrderStatus) :
    Idle parse service solvent (memory.splice order.id).orders (memory.splice order.id)
      { remote with rows := Trading.updateOrder remote.rows order.id filledQuantity status } := by
  have hne := Memory.ids_ne h.found h.orderly.ids
  have hothers : ∀ o ∈ pre ++ post, o.id ≠ order.id := by
    intro o ho
    refine hne o ?_
    rw [← List.append_assoc]
    exact List.mem_append_left _ ho
  have horderly := h.orderly.updateOrder hothers filledQuantity status
  rw [Memory.splice_at memory order h.found fun o ho => hothers o (List.mem_append_left _ ho)]
  exact ⟨horderly.remember (Memory.ids_out memory h.found order rfl) (List.Subset.refl _) horderly.held
    horderly.recorded, h.backs⟩

end Ends

end NexusTrade.Trading
