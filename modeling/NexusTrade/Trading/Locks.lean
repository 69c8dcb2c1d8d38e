import Mathlib.Algebra.BigOperators.Ring.List
import Mathlib.Algebra.Order.BigOperators.Group.List
import NexusTrade.MatchingEngine.Origins
import NexusTrade.Trading.Orders

/-!
# The lock of an order and its settlements

`placeOrder` locks an amount before it sends an order to the engine, and each fill of the order is then
settled out of the locked balance.

* **`TradingService.debit`** is what `settleTrade` of the wallet service takes for a fill, read off its
  legs; **`debit_maker`** and **`debit_taker`** compute it;
* **`Covered`** is the condition under which the lock covers the settlements;
* **`lock_covers_iff`**: in every run of the book of the symbol, the lock is not negative and covers the
  settlements exactly if the condition holds where the order is submitted.
-/

namespace NexusTrade.Trading

open MatchingEngine (Side OrderKind Decimal Fill BookOp BookReply OrderBook UuidSource DecimalCodec
  Matched Originates bookRun submittedOrders orderIds filledOf opposite requiresPrice crosses fills_pos
  fill_named)

/-! ### What a settlement takes -/

/-- What some legs take from the locked balance of a user in an asset. -/
def takenFromLocked (legs : List Wallet.BalanceLeg) (userId asset : String) : Decimal :=
  (legs.map fun leg =>
    if leg.userId = userId ∧ leg.asset = asset ∧ leg.bucket = .locked then
      match leg.amount with
      | .fin q => -q
      | .inf _ => 0
      | .nan => 0
    else 0).sum

/-- The side of the maker of a fill, where the order is one of its two orders. -/
def makerSideOf (order : StoredOrder) (fill : Fill) : Side :=
  if fill.makerOrderId = order.id then order.side else opposite order.side

/-- What the settlement of a fill takes from the locked balance of the user of an order. -/
def TradingService.debit (service : TradingService) (order : StoredOrder) (fill : Fill) : Decimal :=
  takenFromLocked
    (Wallet.settlementLegs .fin
      (TradingService.settlement (service.toTrade order fill) (makerSideOf order fill)))
    order.userId order.lockedAsset

section Debit

variable (service : TradingService) {uuid : String} {order : StoredOrder}
  {maker taker : MatchingEngine.Order} {fill : Fill}

/-- **A fill of the order as maker** takes its quantity, or its price with the maker fee. -/
theorem TradingService.debit_maker (hnew : NewOrder uuid order) (hm : Matched maker taker fill)
    (hid : maker.orderId = order.id) (huser : maker.userId = order.userId) :
    service.debit order fill
      = consumedLockForFill order.side fill.price fill.quantity service.makerFeeBps := by
  have hother : fill.takerUserId ≠ order.userId := by
    rw [hm.takerUserId, ← huser]
    exact hm.users.symm
  have hself : fill.makerUserId = order.userId := hm.makerUserId.trans huser
  have hside : makerSideOf order fill = order.side := if_pos (hm.makerOrderId.trans hid)
  have hasset := hnew.lockedAsset
  rw [TradingService.debit, hside]
  cases hs : order.side <;> rw [hs] at hasset <;>
    simp [takenFromLocked, Wallet.settlementLegs, TradingService.settlement, TradingService.toTrade,
      Wallet.quoteAmount, Amount.multiply, Amount.add, Amount.negated, Extended.mul, Extended.add,
      Extended.neg, consumedLockForFill, hself, hother, hasset, add_comm]

/-- **A fill of the order as taker** takes its quantity, or its price with the taker fee. -/
theorem TradingService.debit_taker (hnew : NewOrder uuid order) (hm : Matched maker taker fill)
    (hne : maker.orderId ≠ order.id) (huser : taker.userId = order.userId) :
    service.debit order fill
      = consumedLockForFill order.side fill.price fill.quantity service.takerFeeBps := by
  have hother : fill.makerUserId ≠ order.userId := by
    rw [hm.makerUserId, ← huser]
    exact hm.users
  have hself : fill.takerUserId = order.userId := hm.takerUserId.trans huser
  have hside : makerSideOf order fill = opposite order.side := by
    refine if_neg ?_
    rw [hm.makerOrderId]
    exact hne
  have hasset := hnew.lockedAsset
  rw [TradingService.debit, hside]
  cases hs : order.side <;> rw [hs] at hasset <;>
    simp [takenFromLocked, Wallet.settlementLegs, TradingService.settlement, TradingService.toTrade,
      Wallet.quoteAmount, Amount.multiply, Amount.add, Amount.negated, Extended.mul, Extended.add,
      Extended.neg, consumedLockForFill, opposite, hself, hother, hasset, add_comm]

end Debit

/-! ### Sums over fills -/

/-- What the settlements of the fills of an order take. -/
def TradingService.debits (service : TradingService) (order : StoredOrder) (fills : List Fill) :
    Decimal :=
  ((fills.filter fun f => f.names order.id).map (service.debit order)).sum

/-- A notional with its fee, as a multiple of the notional. -/
def feeFactor (feeBps : Decimal) : Decimal := 1 + feeBps / 10000

theorem withFee_eq (notional feeBps : Decimal) :
    notional + calculateFee notional feeBps = notional * feeFactor feeBps := by
  rw [calculateFee, feeFactor]
  ring

/-- What some trades cost, without fees. -/
def cost (trades : List MatchingEngine.Trade) : Decimal :=
  (trades.map fun trade => trade.price * trade.quantity).sum

theorem debits_of_not_named {service : TradingService} {order : StoredOrder} {fills : List Fill}
    (h : ∀ f ∈ fills, f.names order.id = false) : service.debits order fills = 0 := by
  have hnil : fills.filter (fun f => f.names order.id) = [] :=
    List.filter_eq_nil_iff.mpr fun f hf => by
      rw [h f hf]
      exact Bool.false_ne_true
  rw [TradingService.debits, hnil]
  rfl

/-- A bound on each settlement bounds their sum. -/
theorem debits_le_mul_filledOf {service : TradingService} {order : StoredOrder} {fills : List Fill}
    {unit : Decimal} (h : ∀ f ∈ fills, f.names order.id = true →
      service.debit order f ≤ unit * f.quantity) :
    service.debits order fills ≤ unit * filledOf fills order.id := by
  rw [TradingService.debits, filledOf, ← List.sum_map_mul_left]
  refine List.sum_le_sum fun f hf => ?_
  obtain ⟨hf, hnames⟩ := List.mem_filter.mp hf
  exact h f hf hnames

theorem filledOf_le_of_sublist {fs gs : List Fill} (hsub : fs.Sublist gs)
    (hpos : ∀ f ∈ gs, 0 < f.quantity) (id : String) : filledOf fs id ≤ filledOf gs id := by
  refine List.Sublist.sum_le_sum ((hsub.filter _).map _) fun q hq => ?_
  obtain ⟨f, hf, rfl⟩ := List.mem_map.mp hq
  exact (hpos f (List.mem_filter.mp hf).1).le

/-- An order that has filled nothing is named by no fill. -/
theorem not_named_of_filledOf {fills : List Fill} (hpos : ∀ f ∈ fills, 0 < f.quantity) {id : String}
    (h : filledOf fills id = 0) : ∀ f ∈ fills, f.names id = false := by
  intro f hf
  by_contra hnames
  have hmem : f.quantity ∈ (fills.filter fun f => f.names id).map Fill.quantity :=
    List.mem_map_of_mem (List.mem_filter.mpr ⟨hf, eq_true_of_ne_false hnames⟩)
  have hsum : 0 < filledOf fills id := by
    refine List.sum_pos _ (fun q hq => ?_) (List.ne_nil_of_mem hmem)
    obtain ⟨g, hg, rfl⟩ := List.mem_map.mp hq
    exact hpos g (List.mem_filter.mp hg).1
  exact absurd h hsum.ne'

/-! ### The lock and the condition -/

/-- What reaches the book of an order that is sent to the engine. -/
def sent (parse : DecimalParser) (source : UuidSource) (order : StoredOrder) : List BookOp :=
  (engineOrder parse order).toList.map (.submit source)

/-- **The lock covers the settlements**: it is not negative, and the settlements of the fills that the
service is told of take no more. -/
def LockCovers (service : TradingService) (order : StoredOrder) (lock : Decimal)
    (replies : List BookReply) : Prop :=
  0 ≤ lock ∧ service.debits order (replies.flatMap BookReply.ownFills) ≤ lock

instance (service : TradingService) (order : StoredOrder) (lock : Decimal) (replies : List BookReply) :
    Decidable (LockCovers service order lock replies) :=
  inferInstanceAs (Decidable (_ ∧ _))

/-- **The condition** on an order, the fees and the book where it is submitted.  A sell order needs a
quantity that is not negative.  A buy order with a positive quantity needs a price and a fee factor that
are not negative; a market order does not look at its price, so the orders it reaches must not cost
more. -/
def Covered (service : TradingService) (parse : DecimalParser) (order : StoredOrder)
    (book : OrderBook) : Prop :=
  match order.side with
  | .sell => 0 ≤ order.quantity
  | .buy => ∀ price, order.price = some price →
    if order.quantity ≤ 0 then 0 ≤ price * order.quantity * feeFactor service.takerFeeBps
    else 0 ≤ price ∧ 0 ≤ feeFactor service.takerFeeBps ∧
      (order.type = .market → ∀ request, engineOrder parse order = some request →
        cost (book.expectedTrades request) ≤ price * order.quantity)

/-- The amount that is locked. -/
theorem estimateLockAmount_spec {order : StoredOrder} (hsymbol : isSymbol order.symbol = true)
    {feeBps lock : Decimal}
    (h : estimateLockAmount order (splitSymbol order.symbol).2 feeBps = .ok lock) :
    (order.side = .sell ∧ lock = order.quantity) ∨
      (order.side = .buy ∧ ∃ price, order.price = some price ∧
        lock = price * order.quantity * feeFactor feeBps) := by
  rw [estimateLockAmount] at h
  cases hside : order.side with
  | sell =>
      rw [hside] at h
      cases h
      exact Or.inl ⟨rfl, rfl⟩
  | buy =>
      rw [hside] at h
      cases hprice : order.price with
      | none =>
          rw [hprice] at h
          cases h
      | some price =>
          rw [hprice] at h
          simp only [if_pos (quoteAsset_ne_empty hsymbol), Except.ok.injEq] at h
          exact Or.inr ⟨rfl, price, rfl, by rw [← h, withFee_eq]⟩

section Run

variable {service : TradingService} {uuid : String} {order : StoredOrder}
  {request : MatchingEngine.Order} {ops : List BookOp} {replies : List BookReply} {book : OrderBook}

variable (service) in
/-- The two orders of a fill have different identifiers, if identifiers are distinct. -/
theorem debit_of_matched (hnew : NewOrder uuid order) (hreq : Requested order request)
    {maker taker : MatchingEngine.Order} {f : Fill} (hm : Matched maker taker f)
    (heq : maker = request ∨ taker = request ∧ maker.orderId ≠ request.orderId) :
    (maker = request ∧ service.debit order f
        = consumedLockForFill order.side f.price f.quantity service.makerFeeBps) ∨
      (taker = request ∧ service.debit order f
        = consumedLockForFill order.side f.price f.quantity service.takerFeeBps) := by
  rcases heq with rfl | ⟨rfl, hne⟩
  · exact Or.inl ⟨rfl, service.debit_maker hnew hm hreq.orderId hreq.userId⟩
  · refine Or.inr ⟨rfl, service.debit_taker hnew hm ?_ hreq.userId⟩
    rw [← hreq.orderId]
    exact hne

variable (service) in
/-- A bound on each settlement bounds them all, by the quantity of the order. -/
theorem debits_le_mul_quantity (hrun : bookRun ops = .ok (replies, book))
    (hbuilt : ∀ o ∈ submittedOrders ops, o.Built) (hids : (orderIds (submittedOrders ops)).Nodup)
    (hmem : request ∈ submittedOrders ops) (hreq : Requested order request) {unit : Decimal}
    (hunit : 0 ≤ unit) (hquantity : 0 ≤ order.quantity)
    (hle : ∀ f ∈ replies.flatMap BookReply.fills, f.names order.id = true →
      service.debit order f ≤ unit * f.quantity) :
    service.debits order (replies.flatMap BookReply.fills) ≤ unit * order.quantity ∧
      service.debits order (replies.flatMap BookReply.ownFills) ≤ unit * order.quantity := by
  have hsub := MatchingEngine.ownFills_sublist replies
  have hall : filledOf (replies.flatMap BookReply.fills) order.id ≤ order.quantity := by
    have h := MatchingEngine.run_filled_le hrun hbuilt hids hmem
    rw [hreq.quantity, hreq.orderId] at h
    exact h hquantity
  have hown := (filledOf_le_of_sublist hsub (fills_pos hrun) order.id).trans hall
  constructor
  · exact (debits_le_mul_filledOf hle).trans (mul_le_mul_of_nonneg_left hall hunit)
  · exact (debits_le_mul_filledOf fun f hf => hle f (hsub.subset hf)).trans
      (mul_le_mul_of_nonneg_left hown hunit)

/-- An order with a quantity that is not positive fills nothing. -/
theorem not_named_of_quantity (hrun : bookRun ops = .ok (replies, book))
    (hbuilt : ∀ o ∈ submittedOrders ops, o.Built) (hids : (orderIds (submittedOrders ops)).Nodup)
    (hmem : request ∈ submittedOrders ops) (hreq : Requested order request)
    (hquantity : order.quantity ≤ 0) :
    ∀ f ∈ replies.flatMap BookReply.fills, f.names order.id = false := by
  have h := MatchingEngine.run_filled_none hrun hbuilt hids hmem
  rw [hreq.quantity, hreq.orderId] at h
  exact not_named_of_filledOf (fills_pos hrun) (h hquantity)

/-- **A sell order** pays with the quantities of its fills. -/
theorem sell_debit_le (hrun : bookRun ops = .ok (replies, book))
    (hids : (orderIds (submittedOrders ops)).Nodup) (hmem : request ∈ submittedOrders ops)
    (hnew : NewOrder uuid order) (hreq : Requested order request) (hside : order.side = .sell) :
    ∀ f ∈ replies.flatMap BookReply.fills, f.names order.id = true →
      service.debit order f ≤ 1 * f.quantity := by
  intro f hf hnames
  rw [← hreq.orderId] at hnames
  obtain ⟨maker, taker, hm, heq⟩ := fill_named hrun hids hmem hf hnames
  rw [one_mul]
  rcases debit_of_matched service hnew hreq hm heq with ⟨_, h⟩ | ⟨_, h⟩ <;>
    rw [h, hside] <;> exact le_refl _

/-- A buy order with a limit crosses no higher price. -/
theorem price_le_of_crosses {o : MatchingEngine.Order} {price p : Decimal}
    (hkind : requiresPrice o.kind = true) (hside : o.side = .buy) (hprice : o.price = some price)
    (h : crosses o p = true) : p ≤ price := by
  unfold crosses at h
  rw [hside, hprice] at h
  cases hk : o.kind <;> simp_all [requiresPrice]

theorem feeFactor_mono {a b : Decimal} (h : a ≤ b) : feeFactor a ≤ feeFactor b := by
  rw [feeFactor, feeFactor]
  linarith

/-- **A buy order with a limit** pays at most its price, with the taker fee. -/
theorem limited_debit_le (hrun : bookRun ops = .ok (replies, book))
    (hids : (orderIds (submittedOrders ops)).Nodup) (hmem : request ∈ submittedOrders ops)
    (hnew : NewOrder uuid order) (hreq : Requested order request) (hside : order.side = .buy)
    (hfees : service.makerFeeBps ≤ service.takerFeeBps) (hkind : requiresPrice order.type = true)
    {price : Decimal} (hprice : order.price = some price) (hnonneg : 0 ≤ price)
    (hfactor : 0 ≤ feeFactor service.takerFeeBps) :
    ∀ f ∈ replies.flatMap BookReply.fills, f.names order.id = true →
      service.debit order f ≤ price * feeFactor service.takerFeeBps * f.quantity := by
  intro f hf hnames
  rw [← hreq.orderId] at hnames
  obtain ⟨maker, taker, hm, heq⟩ := fill_named hrun hids hmem hf hnames
  have hq := hm.quantity.le
  rcases debit_of_matched service hnew hreq hm heq with ⟨rfl, h⟩ | ⟨rfl, h⟩
  · have hown : f.price = price := by
      have := hm.makerPrice.symm.trans (hreq.price.trans hprice)
      exact Option.some.inj this
    rw [h, hside, hown]
    show price * f.quantity + calculateFee (price * f.quantity) service.makerFeeBps ≤ _
    rw [withFee_eq, mul_right_comm price (feeFactor service.takerFeeBps)]
    exact mul_le_mul_of_nonneg_left (feeFactor_mono hfees) (mul_nonneg hnonneg hq)
  · have hlimit : f.price ≤ price :=
      price_le_of_crosses (hreq.kind ▸ hkind) (hreq.side.trans hside) (hreq.price.trans hprice)
        (hm.takerPrice (hreq.kind ▸ hkind))
    rw [h, hside]
    show f.price * f.quantity + calculateFee (f.price * f.quantity) service.takerFeeBps ≤ _
    rw [withFee_eq, mul_right_comm price (feeFactor service.takerFeeBps)]
    exact mul_le_mul_of_nonneg_right (mul_le_mul_of_nonneg_right hlimit hq) hfactor

/-- **A stop market order** is in no fill that the service is told of. -/
theorem stopMarket_not_named (hrun : bookRun ops = .ok (replies, book))
    (hids : (orderIds (submittedOrders ops)).Nodup) (hmem : request ∈ submittedOrders ops)
    (hreq : Requested order request) (hkind : order.type = .stopMarket) :
    ∀ f ∈ replies.flatMap BookReply.ownFills, f.names order.id = false := by
  obtain ⟨_, _, _, hown, _⟩ := MatchingEngine.bookRun_origins hrun
  intro f hf
  by_contra hnames
  rw [← hreq.orderId] at hnames
  obtain ⟨maker, taker, hm, hstop, heq⟩ := (hown f hf).named hids hmem (eq_true_of_ne_false hnames)
  rcases heq with rfl | ⟨rfl, _⟩
  · have hpriced := hm.makerPriced
    rw [hreq.kind, hkind] at hpriced
    cases hpriced
  · rw [hreq.kind, hkind] at hstop
    cases hstop

variable (service) in
/-- **A market order** pays what the orders it reaches cost, with the taker fee. -/
theorem market_debits {before after : List BookOp} {source : UuidSource} {rs : List BookReply}
    {last : OrderBook} (hbefore : bookRun before = .ok (rs, book))
    (hrun : bookRun (before ++ .submit source request :: after) = .ok (replies, last))
    (hids : (orderIds (submittedOrders (before ++ .submit source request :: after))).Nodup)
    (hnew : NewOrder uuid order) (hreq : Requested order request) (hside : order.side = .buy)
    (hkind : order.type = .market) :
    service.debits order (replies.flatMap BookReply.ownFills)
        = cost (book.expectedTrades request) * feeFactor service.takerFeeBps ∧
      service.debits order (replies.flatMap BookReply.fills)
        = cost (book.expectedTrades request) * feeFactor service.takerFeeBps := by
  have hmem : request ∈ submittedOrders (before ++ .submit source request :: after) := by
    rw [MatchingEngine.submittedOrders_append]
    exact List.mem_append_right _ List.mem_cons_self
  obtain ⟨fills, htrades, hown, hall⟩ :=
    MatchingEngine.market_fills hbefore hrun hids (hreq.kind.trans hkind)
  have hdebit : ∀ f ∈ fills, service.debit order f
      = feeFactor service.takerFeeBps * (f.price * f.quantity) := by
    intro f hf
    rw [← hall] at hf
    obtain ⟨hf, hnames⟩ := List.mem_filter.mp hf
    obtain ⟨maker, taker, hm, heq⟩ := fill_named hrun hids hmem hf hnames
    rcases debit_of_matched service hnew hreq hm heq with ⟨rfl, _⟩ | ⟨_, h⟩
    · have hpriced := hm.makerPriced
      rw [hreq.kind, hkind] at hpriced
      cases hpriced
    · rw [h, hside]
      show f.price * f.quantity + calculateFee (f.price * f.quantity) service.takerFeeBps = _
      rw [withFee_eq, mul_comm]
  have hsum : (fills.map (service.debit order)).sum
      = cost (book.expectedTrades request) * feeFactor service.takerFeeBps := by
    rw [List.map_congr_left hdebit, List.sum_map_mul_left, mul_comm, ← htrades, cost, List.map_map]
    rfl
  rw [hreq.orderId] at hown hall
  rw [TradingService.debits, TradingService.debits, hown, hall]
  exact ⟨hsum, hsum⟩

end Run

/-! ### The lock covers the settlements -/

/-- The orders of a run with an order that is sent are those of the rest of the run and the order. -/
theorem orderIds_sent {parse : DecimalParser} (hparse : parse.Exact) (source : UuidSource)
    {order : StoredOrder} {before after : List BookOp}
    (hids : (order.id :: orderIds (submittedOrders (before ++ after))).Nodup) :
    (orderIds (submittedOrders (before ++ sent parse source order ++ after))).Nodup := by
  rw [sent]
  cases hrequest : engineOrder parse order with
  | none =>
      rw [Option.toList_none, List.map_nil, List.append_nil]
      exact (List.nodup_cons.mp hids).2
  | some request =>
      rw [MatchingEngine.submittedOrders_append, MatchingEngine.orderIds_append] at hids
      rw [Option.toList_some, List.map_singleton, List.append_assoc,
        MatchingEngine.submittedOrders_append, MatchingEngine.submittedOrders_append,
        MatchingEngine.orderIds_append, MatchingEngine.orderIds_append]
      show (_ ++ request.orderId :: _).Nodup
      rw [(engineOrder_spec hparse hrequest).orderId]
      exact (List.perm_middle.nodup_iff).mpr hids

section Sent

variable {service : TradingService} {parse : DecimalParser} {uuid : String} {order : StoredOrder}
  {request : MatchingEngine.Order} {before after : List BookOp} {source : UuidSource}
  {rs replies : List BookReply} {book last : OrderBook}

variable (service) in
/-- **A sent sell order.** -/
theorem sell_covers {ops : List BookOp} (hrun : bookRun ops = .ok (replies, last))
    (hbuilt : ∀ o ∈ submittedOrders ops, o.Built) (hids : (orderIds (submittedOrders ops)).Nodup)
    (hmem : request ∈ submittedOrders ops) (hnew : NewOrder uuid order)
    (hreq : Requested order request) (hside : order.side = .sell) (hquantity : 0 ≤ order.quantity) :
    service.debits order (replies.flatMap BookReply.fills) ≤ order.quantity ∧
      service.debits order (replies.flatMap BookReply.ownFills) ≤ order.quantity := by
  have h := debits_le_mul_quantity service hrun hbuilt hids hmem hreq zero_le_one
    hquantity (sell_debit_le hrun hids hmem hnew hreq hside)
  rw [one_mul] at h
  exact h

/-- **A sent buy order.** -/
theorem buy_covers (hbefore : bookRun before = .ok (rs, book))
    (hrun : bookRun (before ++ .submit source request :: after) = .ok (replies, last))
    (hbuilt : ∀ o ∈ submittedOrders (before ++ .submit source request :: after), o.Built)
    (hids : (orderIds (submittedOrders (before ++ .submit source request :: after))).Nodup)
    (hnew : NewOrder uuid order) (hreq : Requested order request) (hside : order.side = .buy)
    (hfees : service.makerFeeBps ≤ service.takerFeeBps) {price : Decimal}
    (hprice : order.price = some price) (hpositive : 0 < order.quantity) (hnonneg : 0 ≤ price)
    (hfactor : 0 ≤ feeFactor service.takerFeeBps)
    (hmarket : order.type = .market →
      cost (book.expectedTrades request) ≤ price * order.quantity) :
    (order.type ≠ .stopMarket → service.debits order (replies.flatMap BookReply.fills)
        ≤ price * order.quantity * feeFactor service.takerFeeBps) ∧
      service.debits order (replies.flatMap BookReply.ownFills)
        ≤ price * order.quantity * feeFactor service.takerFeeBps := by
  have hmem : request ∈ submittedOrders (before ++ .submit source request :: after) := by
    rw [MatchingEngine.submittedOrders_append]
    exact List.mem_append_right _ List.mem_cons_self
  have hunit : 0 ≤ price * feeFactor service.takerFeeBps := mul_nonneg hnonneg hfactor
  by_cases hkind : requiresPrice order.type = true
  · have h := debits_le_mul_quantity service hrun hbuilt hids hmem hreq hunit hpositive.le
      (limited_debit_le hrun hids hmem hnew hreq hside hfees hkind hprice hnonneg hfactor)
    rw [mul_right_comm] at h
    exact ⟨fun _ => h.1, h.2⟩
  · have hkinds : order.type = .market ∨ order.type = .stopMarket := by
      cases hk : order.type with
      | market => exact Or.inl rfl
      | stopMarket => exact Or.inr rfl
      | limit | stopLimit | ioc | fok | postOnly =>
          rw [hk] at hkind
          exact absurd rfl hkind
    rcases hkinds with hk | hk
    · have hle := mul_le_mul_of_nonneg_right (hmarket hk) hfactor
      obtain ⟨hown, hall⟩ := market_debits service hbefore hrun hids hnew hreq hside hk
      rw [hown, hall]
      exact ⟨fun _ => hle, hle⟩
    · refine ⟨fun hne => absurd hk hne, ?_⟩
      rw [debits_of_not_named (stopMarket_not_named hrun hids hmem hreq hk)]
      exact mul_nonneg (mul_nonneg hnonneg hpositive.le) hfactor

/-- An order that the engine cannot read fills nothing. -/
theorem unsent_not_named {ops : List BookOp} (hrun : bookRun ops = .ok (replies, last))
    (hid : order.id ∉ orderIds (submittedOrders ops)) :
    ∀ f ∈ replies.flatMap BookReply.fills, f.names order.id = false := by
  obtain ⟨_, _, _, hown, htriggered⟩ := MatchingEngine.bookRun_origins hrun
  intro f hf
  rcases MatchingEngine.mem_fills hf with hf | hf
  · exact (hown f hf).not_named hid
  · exact (htriggered f hf).not_named hid

theorem covered_sell (hside : order.side = .sell) :
    Covered service parse order book ↔ 0 ≤ order.quantity := by
  rw [Covered, hside]

theorem covered_buy (hside : order.side = .buy) {price : Decimal} (hprice : order.price = some price) :
    Covered service parse order book ↔
      if order.quantity ≤ 0 then 0 ≤ price * order.quantity * feeFactor service.takerFeeBps
      else 0 ≤ price ∧ 0 ≤ feeFactor service.takerFeeBps ∧
        (order.type = .market → ∀ request, engineOrder parse order = some request →
          cost (book.expectedTrades request) ≤ price * order.quantity) := by
  rw [Covered, hside, hprice]
  exact ⟨fun h => h price rfl, fun h p hp => by cases hp; exact h⟩

/-- The run of the book with the order that is sent. -/
theorem sent_eq (hrequest : engineOrder parse order = some request) :
    before ++ sent parse source order ++ after = before ++ .submit source request :: after := by
  rw [sent, hrequest, Option.toList_some, List.map_singleton, List.append_assoc]
  rfl

variable (order source) in
theorem built_sent (hparse : parse.Exact) (hbuilt : ∀ o ∈ submittedOrders (before ++ after), o.Built) :
    ∀ o ∈ submittedOrders (before ++ sent parse source order ++ after), o.Built := by
  intro o ho
  rw [MatchingEngine.submittedOrders_append, MatchingEngine.submittedOrders_append] at ho
  rw [MatchingEngine.submittedOrders_append] at hbuilt
  rcases List.mem_append.mp ho with ho | ho
  · rcases List.mem_append.mp ho with ho | ho
    · exact hbuilt o (List.mem_append_left _ ho)
    · rw [sent] at ho
      cases hrequest : engineOrder parse order with
      | none =>
          rw [hrequest] at ho
          cases ho
      | some request =>
          rw [hrequest] at ho
          rw [List.mem_singleton.mp ho]
          exact (engineOrder_spec hparse hrequest).built
  · exact hbuilt o (List.mem_append_right _ ho)

end Sent

/-- **The lock covers the settlements exactly under the condition.**  The order is one that `placeOrder`
makes and locks for; `before` is any run of the book of its symbol, and `after` any continuation once the
engine has got the order, if it can read it.  Under the condition the lock even covers all fills of the
order, those of triggered orders included, unless it is a stop market order that buys; and for taker fee
rates above -100 % the lock covers the settlements only under the condition. -/
theorem lock_covers_iff (service : TradingService) {parse : DecimalParser} (hparse : parse.Exact)
    {uuid : String} {dto : PlaceOrderDto} {order : StoredOrder} {lock : Decimal}
    (hnew : newOrder uuid dto = .ok order)
    (hlock : estimateLockAmount order (splitSymbol order.symbol).2 service.takerFeeBps = .ok lock)
    (hfees : service.makerFeeBps ≤ service.takerFeeBps) {before after : List BookOp}
    {source : UuidSource} {rs replies : List BookReply} {book last : OrderBook}
    (hbefore : bookRun before = .ok (rs, book))
    (hrun : bookRun (before ++ sent parse source order ++ after) = .ok (replies, last))
    (hbuilt : ∀ o ∈ submittedOrders (before ++ after), o.Built)
    (hids : (order.id :: orderIds (submittedOrders (before ++ after))).Nodup) :
    (Covered service parse order book → LockCovers service order lock replies ∧
        (¬(order.side = .buy ∧ order.type = .stopMarket) →
          service.debits order (replies.flatMap BookReply.fills) ≤ lock)) ∧
      (0 < feeFactor service.takerFeeBps → LockCovers service order lock replies →
        Covered service parse order book) := by
  have hspec := newOrder_spec hnew
  have hnodup := orderIds_sent hparse source hids
  have hbuilt := built_sent order source hparse hbuilt
  have hsub := MatchingEngine.ownFills_sublist replies
  have hunnamed : (∀ f ∈ replies.flatMap BookReply.fills, f.names order.id = false) →
      service.debits order (replies.flatMap BookReply.fills) = 0 ∧
        service.debits order (replies.flatMap BookReply.ownFills) = 0 :=
    fun h => ⟨debits_of_not_named h, debits_of_not_named fun f hf => h f (hsub.subset hf)⟩
  have hunsent : engineOrder parse order = none →
      service.debits order (replies.flatMap BookReply.fills) = 0 ∧
        service.debits order (replies.flatMap BookReply.ownFills) = 0 := by
    intro hnone
    rw [sent, hnone, Option.toList_none, List.map_nil, List.append_nil] at hrun
    exact hunnamed (unsent_not_named hrun (List.nodup_cons.mp hids).1)
  rcases estimateLockAmount_spec hspec.symbol hlock with ⟨hside, rfl⟩ | ⟨hside, price, hprice, rfl⟩
  · rw [covered_sell hside]
    refine ⟨fun hquantity => ?_, fun _ hcovers => hcovers.1⟩
    cases hrequest : engineOrder parse order with
    | none =>
        obtain ⟨hall, hown⟩ := hunsent hrequest
        exact ⟨⟨hquantity, hown.trans_le hquantity⟩, fun _ => hall.trans_le hquantity⟩
    | some request =>
        rw [sent_eq hrequest] at hrun hnodup hbuilt
        have hmem : request ∈ submittedOrders (before ++ .submit source request :: after) := by
          rw [MatchingEngine.submittedOrders_append]
          exact List.mem_append_right _ List.mem_cons_self
        obtain ⟨hall, hown⟩ := sell_covers service hrun hbuilt hnodup hmem hspec
          (engineOrder_spec hparse hrequest) hside hquantity
        exact ⟨⟨hquantity, hown⟩, fun _ => hall⟩
  · rw [covered_buy hside hprice]
    by_cases hquantity : order.quantity ≤ 0
    · rw [if_pos hquantity]
      refine ⟨fun hlocked => ?_, fun _ hcovers => hcovers.1⟩
      have hzero : service.debits order (replies.flatMap BookReply.fills) = 0 ∧
          service.debits order (replies.flatMap BookReply.ownFills) = 0 := by
        cases hrequest : engineOrder parse order with
        | none => exact hunsent hrequest
        | some request =>
            rw [sent_eq hrequest] at hrun hnodup hbuilt
            have hmem : request ∈ submittedOrders (before ++ .submit source request :: after) := by
              rw [MatchingEngine.submittedOrders_append]
              exact List.mem_append_right _ List.mem_cons_self
            exact hunnamed (not_named_of_quantity hrun hbuilt hnodup hmem
              (engineOrder_spec hparse hrequest) hquantity)
      exact ⟨⟨hlocked, hzero.2.trans_le hlocked⟩, fun _ => hzero.1.trans_le hlocked⟩
    · rw [if_neg hquantity]
      have hpositive := not_le.mp hquantity
      constructor
      · rintro ⟨hnonneg, hfactor, hmarket⟩
        have hlocked : 0 ≤ price * order.quantity * feeFactor service.takerFeeBps :=
          mul_nonneg (mul_nonneg hnonneg hpositive.le) hfactor
        cases hrequest : engineOrder parse order with
        | none =>
            obtain ⟨hall, hown⟩ := hunsent hrequest
            exact ⟨⟨hlocked, hown.trans_le hlocked⟩, fun _ => hall.trans_le hlocked⟩
        | some request =>
            rw [sent_eq hrequest] at hrun hnodup hbuilt
            obtain ⟨hall, hown⟩ := buy_covers hbefore hrun hbuilt hnodup hspec
              (engineOrder_spec hparse hrequest) hside hfees hprice hpositive hnonneg hfactor
              fun hk => hmarket hk request hrequest
            exact ⟨⟨hlocked, hown⟩, fun hkind => hall fun hk => hkind ⟨hside, hk⟩⟩
      · rintro hfactor ⟨hlocked, hcovers⟩
        refine ⟨?_, hfactor.le, fun hk request hrequest => ?_⟩
        · have hnotional : 0 ≤ price * order.quantity := nonneg_of_mul_nonneg_left hlocked hfactor
          exact nonneg_of_mul_nonneg_left hnotional hpositive
        · rw [sent_eq hrequest] at hrun hnodup
          rw [(market_debits service hbefore hrun hnodup hspec
            (engineOrder_spec hparse hrequest) hside hk).1] at hcovers
          exact le_of_mul_le_mul_right hcovers hfactor

/-- A service with the default fees. -/
def defaultFees : TradingService := ⟨.empty, [], 2, 4, [], [], []⟩

/-- An order to buy one coin. -/
def buyOne (type : OrderKind) (price : Decimal) : PlaceOrderDto where
  userId := "bob"
  accountId := "account"
  symbol := "BTC-USDT"
  side := .buy
  type := type
  price := some (.number (.fin price))
  stopPrice := none
  quantity := .number (.fin 1)

/-- What `placeOrder` makes of it. -/
def boughtOne (type : OrderKind) (price : Decimal) : StoredOrder where
  id := "order"
  userId := "bob"
  accountId := "account"
  symbol := "BTC-USDT"
  side := .buy
  type := type
  price := some price
  stopPrice := none
  quantity := 1
  filledQuantity := 0
  status := .new
  lockedAsset := "USDT"
  lockedAmount := 0

/-- One coin is offered for 100. -/
def askAtHundred : List BookOp :=
  [.submit (fun _ => "offer") (MatchingEngine.Order.limit "ask" "alice" .sell 100 1)]

theorem lock_covers_iff_limit :
    ∃ rs book replies last, bookRun askAtHundred = .ok (rs, book) ∧
      bookRun (askAtHundred ++ sent some (fun _ => "trade") (boughtOne .limit 100) ++ [])
        = .ok (replies, last) ∧
      LockCovers defaultFees (boughtOne .limit 100) (2501 / 25) replies := by
  obtain ⟨rs, book, hbefore, _⟩ := MatchingEngine.bookRun_spec askAtHundred
  obtain ⟨replies, last, hrun, _⟩ := MatchingEngine.bookRun_spec
    (askAtHundred ++ sent some (fun _ => "trade") (boughtOne .limit 100) ++ [])
  refine ⟨rs, book, replies, last, hbefore, hrun, ?_⟩
  refine ((lock_covers_iff defaultFees (fun q q' h => (Option.some.inj h).symm)
    (show newOrder "order" (buyOne .limit 100) = .ok (boughtOne .limit 100) by decide +kernel)
    (by decide +kernel) (by decide +kernel) hbefore hrun (by decide +kernel)
    (by decide +kernel)).1 ?_).1
  rw [covered_buy rfl rfl]
  exact ⟨by decide +kernel, by decide +kernel, fun h => by cases h⟩

/-- **A market order is locked for at the price that it names**, and settled at those that it meets. -/
theorem market_order_exceeds_lock :
    newOrder "order" (buyOne .market 1) = .ok (boughtOne .market 1) ∧
      estimateLockAmount (boughtOne .market 1) "USDT" defaultFees.takerFeeBps = .ok (2501 / 2500) ∧
      ∃ replies last, bookRun (askAtHundred ++ sent some (fun _ => "trade") (boughtOne .market 1))
          = .ok (replies, last) ∧
        defaultFees.debits (boughtOne .market 1) (replies.flatMap BookReply.ownFills) = 2501 / 25 ∧
        ¬LockCovers defaultFees (boughtOne .market 1) (2501 / 2500) replies := by
  refine ⟨by decide +kernel, by decide +kernel, ?_⟩
  obtain ⟨replies, last, hrun, _⟩ := MatchingEngine.bookRun_spec
    (askAtHundred ++ sent some (fun _ => "trade") (boughtOne .market 1))
  have hdebits : (bookRun (askAtHundred ++ sent some (fun _ => "trade") (boughtOne .market 1))).map
      (fun r => defaultFees.debits (boughtOne .market 1) (r.1.flatMap BookReply.ownFills))
        = .ok (2501 / 25) := by decide +kernel
  rw [hrun] at hdebits
  have hdebits : defaultFees.debits (boughtOne .market 1) (replies.flatMap BookReply.ownFills)
      = 2501 / 25 := Except.ok.inj hdebits
  refine ⟨replies, last, hrun, hdebits, fun hcovers => ?_⟩
  have hle := hcovers.2
  rw [hdebits] at hle
  exact absurd hle (by decide +kernel)

end NexusTrade.Trading
