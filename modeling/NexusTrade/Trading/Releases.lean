import NexusTrade.Trading.Bookkeeping

/-!
# What a cancellation releases

The amount that `cancelOrder` unlocks is what the object of the order says that is left of its lock.  A fill that the
engine has made and no call has applied yet is not taken off.

* **`Memory.releasedOf`** and **`ReleasesCovered`**: what is released, and that it leaves enough for the settlements;
* **`Account.counted`** and **`lockLeft_covers`**: where an object counts all fills of its order, what it says is left of
  the lock covers them;
* **`Applied`** is the condition on a step, **`Released`** the invariant;
* **`release_leaves_settlements`**: in every run whose steps meet it, every release is covered.
-/

namespace NexusTrade.Trading

open MatchingEngine (Side Decimal Fill ExecutionReport Core CoreInv CallFiles UuidSource DecimalCodec OrderBook Traded
  orderIds filledOf fillsOf requiresPrice Matched)

/-! ### The claim -/

/-- What cancellations have asked to unlock of an order. -/
def Memory.releasedOf (memory : Memory) (id : String) : Decimal :=
  ((memory.released.filter fun entry => entry.1 = id).map Prod.snd).sum

/-- **What is released leaves enough**: of an order that was cancelled, what its cancellation unlocks and what the
settlements of its fills take is no more than what was locked for it. -/
def ReleasesCovered (service : TradingService) (world : OrderWorld) : Prop :=
  ∀ order ∈ world.memory.objects, order.id ∈ world.memory.releasedIds → ∀ lock,
    estimateLockAmount order (splitSymbol order.symbol).2 service.takerFeeBps = .ok lock →
    world.memory.releasedOf order.id + service.debits order world.remote.fills ≤ lock

/-! ### What is left of a lock -/

section Left

variable {service : TradingService} {parse : DecimalParser} {fills due : List Fill} {released : List String}
  {order : StoredOrder} {own applied : List Fill}

/-- Positive quantities that add up to nothing are none. -/
theorem eq_nil_of_quantityOf (hpos : ∀ f ∈ fills, 0 < f.quantity) (hsum : quantityOf fills = 0) : fills = [] := by
  cases fills with
  | nil => rfl
  | cons f fills =>
      have hrest : 0 ≤ quantityOf fills :=
        List.sum_nonneg fun q hq => by
          obtain ⟨g, hg, rfl⟩ := List.mem_map.mp hq
          exact (hpos g (List.mem_cons_of_mem _ hg)).le
      have hfirst := hpos f List.mem_cons_self
      have hsplit : quantityOf (f :: fills) = f.quantity + quantityOf fills := by
        rw [quantityOf, List.map_cons, List.sum_cons]
        rfl
      linarith

/-- **An object that counts all fills of its order**: its lock is what they leave of it. -/
theorem Account.counted (h : Account service fills due released order) (hnot : order.id ∉ released)
    (hopen : order.filledQuantity < order.quantity) (hall : order.filledQuantity = filledOf fills order.id)
    (hpos : ∀ f ∈ fills, 0 < f.quantity) :
    ∃ own applied, (own ++ applied).Perm (fills.filter fun f => f.names order.id) ∧
      (∀ f ∈ own, f.makerOrderId ≠ order.id) ∧ (∀ f ∈ applied, f.makerOrderId = order.id) ∧
      order.lockedAmount = lockLeft service order own applied := by
  obtain ⟨own, applied, hshares, hlock⟩ := h.shares
  refine ⟨own, applied, ?_, hshares.taker, hshares.maker, ?_⟩
  · have hcounted : (own ++ applied).Subperm (fills.filter fun f => f.names order.id) :=
      (List.sublist_append_left _ _).subperm.trans hshares.distinct
    obtain ⟨counted, hsame, hpart⟩ := hcounted
    obtain ⟨rest, hrest⟩ := hpart.exists_perm_append
    have hrest := hrest.trans (hsame.append_right rest)
    have hrestPos : ∀ f ∈ rest, 0 < f.quantity := by
      intro f hf
      have hmem := hrest.symm.subset (List.mem_append_right (own ++ applied) hf)
      exact hpos f (List.mem_filter.mp hmem).1
    have hquantity : quantityOf rest = 0 := by
      have hsum : filledOf fills order.id = quantityOf (own ++ applied ++ rest) := (hrest.map Fill.quantity).sum_eq
      rw [quantityOf_append, quantityOf_append] at hsum
      linarith [hshares.filled]
    rw [eq_nil_of_quantityOf hrestPos hquantity, List.append_nil] at hrest
    exact hrest.symm
  · rcases hlock with hin | hfull | hleft
    · exact absurd hin hnot
    · exact absurd hfull (not_le.mpr hopen)
    · exact hleft

/-- What an order has still to lock after its own fills, which cost no more than its limit, and what they take. -/
theorem remainingLock_covers {uuid : String} {request : MatchingEngine.Order} {lock : Decimal}
    (hnew : NewOrder uuid order.placed) (hrequest : Requested order request)
    (hlock : estimateLockAmount order (splitSymbol order.symbol).2 service.takerFeeBps = .ok lock)
    (hfactor : 0 ≤ feeFactor service.takerFeeBps) (hpriced : requiresPrice order.type = true)
    (hmatched : ∀ f ∈ own, ∃ maker, Matched maker request f ∧ maker.orderId ≠ request.orderId) :
    remainingLock { order with filledQuantity := quantityOf own } (splitSymbol order.symbol).2 service.takerFeeBps
      + (own.map (service.debit order)).sum ≤ lock := by
  have hdebit : ∀ f ∈ own, service.debit order f
      = consumedLockForFill order.side f.price f.quantity service.takerFeeBps := by
    intro f hf
    obtain ⟨maker, hm, hne⟩ := hmatched f hf
    have hother : maker.orderId ≠ order.placed.id := hrequest.orderId ▸ hne
    have hplaced : service.debit order.placed f
        = consumedLockForFill order.placed.side f.price f.quantity service.takerFeeBps :=
      service.debit_taker hnew hm hother hrequest.userId
    exact hplaced
  have hsymbol : isSymbol order.symbol = true := hnew.symbol
  rcases estimateLockAmount_spec hsymbol hlock with ⟨hside, rfl⟩ | ⟨hside, price, hprice, rfl⟩
  · have hsum : (own.map (service.debit order)).sum = quantityOf own := by
      rw [quantityOf]
      congr 1
      refine List.map_congr_left fun f hf => ?_
      rw [hdebit f hf, hside]
      rfl
    have hleft : remainingLock { order with filledQuantity := quantityOf own } (splitSymbol order.symbol).2
        service.takerFeeBps = order.quantity - quantityOf own := by
      rw [remainingLock, hside]
    rw [hsum, hleft]
    linarith
  · have hsum : (own.map (service.debit order)).sum
        ≤ price * feeFactor service.takerFeeBps * quantityOf own := by
      rw [quantityOf, ← List.sum_map_mul_left]
      refine List.sum_le_sum fun f hf => ?_
      obtain ⟨maker, hm, -⟩ := hmatched f hf
      have hlimit : f.price ≤ price :=
        price_le_of_crosses (hrequest.kind ▸ hpriced) (hrequest.side.trans hside) (hrequest.price.trans hprice)
          (hm.takerPrice (hrequest.kind ▸ hpriced))
      rw [hdebit f hf, hside]
      show f.price * f.quantity + calculateFee (f.price * f.quantity) service.takerFeeBps ≤ _
      rw [withFee_eq, mul_right_comm price]
      exact mul_le_mul_of_nonneg_right (mul_le_mul_of_nonneg_right hlimit hm.quantity.le) hfactor
    have hleft : remainingLock { order with filledQuantity := quantityOf own } (splitSymbol order.symbol).2
        service.takerFeeBps = price * (order.quantity - quantityOf own) * feeFactor service.takerFeeBps := by
      rw [remainingLock, hside, hprice]
      simp only [if_pos (quoteAsset_ne_empty hsymbol)]
      exact withFee_eq _ _
    rw [hleft]
    linarith

/-- **What is left of a lock covers the settlements**, where all fills of the order are counted. -/
theorem lockLeft_covers {uuid : String} {request : MatchingEngine.Order} {lock : Decimal}
    (hnew : NewOrder uuid order.placed) (hrequest : Requested order request)
    (hlock : estimateLockAmount order (splitSymbol order.symbol).2 service.takerFeeBps = .ok lock)
    (hfactor : 0 ≤ feeFactor service.takerFeeBps) (hpriced : requiresPrice order.type = true)
    (hperm : (own ++ applied).Perm (fills.filter fun f => f.names order.id))
    (htaker : ∀ f ∈ own, f.makerOrderId ≠ order.id) (hmaker : ∀ f ∈ applied, f.makerOrderId = order.id)
    (hmatched : ∀ f ∈ own ++ applied, ∃ maker taker, Matched maker taker f ∧
      (maker = request ∨ taker = request ∧ maker.orderId ≠ request.orderId)) :
    lockLeft service order own applied + service.debits order fills ≤ lock := by
  have hown : ∀ f ∈ own, ∃ maker, Matched maker request f ∧ maker.orderId ≠ request.orderId := by
    intro f hf
    obtain ⟨maker, taker, hm, rfl | ⟨rfl, hne⟩⟩ := hmatched f (List.mem_append_left _ hf)
    · exact absurd (hm.makerOrderId.trans hrequest.orderId) (htaker f hf)
    · exact ⟨maker, hm, hne⟩
  have happlied : (applied.map (service.debit order)).sum = consumedOf service order.side applied := by
    rw [consumedOf]
    congr 1
    refine List.map_congr_left fun f hf => ?_
    obtain ⟨maker, taker, hm, heq⟩ := hmatched f (List.mem_append_right _ hf)
    have hid : maker.orderId = order.placed.id := hm.makerOrderId.symm.trans (hmaker f hf)
    have huser : maker.userId = order.placed.userId := by
      rcases heq with rfl | ⟨-, hne⟩
      · exact hrequest.userId
      · exact absurd (hid.trans hrequest.orderId.symm) hne
    have hplaced : service.debit order.placed f
        = consumedLockForFill order.placed.side f.price f.quantity service.makerFeeBps :=
      service.debit_maker hnew hm hid huser
    exact hplaced
  have hdebits : service.debits order fills
      = (own.map (service.debit order)).sum + (applied.map (service.debit order)).sum := by
    rw [TradingService.debits, ← (hperm.map (service.debit order)).sum_eq, List.map_append, List.sum_append]
  have hcovers := remainingLock_covers hnew hrequest hlock hfactor hpriced hown
  rw [hdebits, lockLeft, happlied]
  linarith

end Left

/-! ### Orders that the engine has cancelled -/

/-- **An order that the engine has cancelled**: it was submitted, has not filled its quantity, and is no longer live. -/
structure Dead (remote : Remote) (id : String) : Prop where
  submitted : ∃ h ∈ remote.handled, h.id = id ∧ h.request.kind ≠ .market ∧
    (h.request.kind.isStop = false → filledOf remote.fills id < h.request.originalQuantity)
  gone : ∀ symbol, ¬LiveAt remote symbol id

section Dead

variable {remote remote' : Remote} {id symbol : String}

/-- What the engine has reported of an order is part of the fills of its book. -/
theorem filledOf_reported (he : Engaged remote) {h : Handled} (hh : h ∈ remote.handled) :
    filledOf remote.fills h.id ≤ filledOf (fillsAt remote.handled h.symbol) h.id := by
  have hpos : ∀ g ∈ remote.handled, ∀ f ∈ g.fills ++ g.dropped, 0 < f.quantity :=
    fun g hg f hf => (he.history g.symbol).pos f (mem_fillsAt hg hf)
  have hother : ∀ g ∈ remote.handled, g.symbol ≠ h.symbol → filledOf g.fills h.id = 0 := by
    intro g hg hsymbol
    have hnone : g.fills.filter (fun f => f.names h.id) = [] := by
      refine List.filter_eq_nil_iff.mpr fun f hf hnames => hsymbol ?_
      have hbook := (he.history g.symbol).submitted (mem_fillsAt hg (List.mem_append_left _ hf)) hnames
      obtain ⟨h', hh', hsame, hid⟩ := mem_requestIds.mp hbook
      rw [← hsame, he.unique hh' hh hid]
    rw [filledOf, hnone]
    rfl
  have hlist : ∀ handled ⊆ remote.handled, filledOf (handled.flatMap Handled.fills) h.id
      ≤ filledOf (fillsAt handled h.symbol) h.id := by
    intro handled
    induction handled with
    | nil => exact fun _ => le_refl _
    | cons g handled ih =>
        intro hsub
        obtain ⟨hg, hrest⟩ := List.cons_subset.mp hsub
        have hih := ih hrest
        rw [List.flatMap_cons, MatchingEngine.filledOf_append]
        by_cases hsame : g.symbol = h.symbol
        · have hcons : fillsAt (g :: handled) h.symbol = (g.fills ++ g.dropped) ++ fillsAt handled h.symbol := by
            rw [fillsAt, List.filter_cons_of_pos (by simpa using hsame), List.flatMap_cons]
            rfl
          have hdropped : 0 ≤ filledOf g.dropped h.id := by
            refine List.sum_nonneg fun q hq => ?_
            obtain ⟨f, hf, rfl⟩ := List.mem_map.mp hq
            exact (hpos g hg f (List.mem_append_right _ (List.mem_filter.mp hf).1)).le
          rw [hcons, MatchingEngine.filledOf_append, MatchingEngine.filledOf_append]
          linarith
        · have hcons : fillsAt (g :: handled) h.symbol = fillsAt handled h.symbol := by
            rw [fillsAt, List.filter_cons_of_neg (by simpa using hsame)]
            rfl
          rw [hcons, hother g hg hsame, zero_add]
          exact hih
  exact hlist remote.handled (List.Subset.refl _)

/-- **The engine cancels an order.** -/
theorem Dead.cancelled (he : Engaged remote) {orderId userId : String} {book : OrderBook} {engine : Core}
    (hcancel : (bookOf remote.engine symbol).cancel orderId userId = .ok (true, book))
    (hresult : MatchingEngine.Cancelled (bookOf remote.engine symbol) orderId userId true book)
    (hbooks : engine.books = remote.engine.books.insert symbol book) :
    (∃ s, LiveAt remote s orderId) ∧ Dead { remote with engine := engine } orderId := by
  have hbook := (he.history symbol).inv
  have hbook' := ((he.history symbol).cancelled hcancel).inv
  obtain ⟨hlive, hdead⟩ := hresult.dead hbook hbook'
  obtain ⟨h, hh, hsymbol, hid, hkind⟩ := he.live hlive
  refine ⟨⟨symbol, hlive⟩, ⟨h, hh, hid, hkind, fun hstop => ?_⟩, fun symbol' hin => ?_⟩
  · obtain ⟨o, ho, hoid⟩ := List.mem_map.mp hlive
    have hrequest : h.request ∈ requestsAt remote.handled symbol := mem_requestsAt.mpr ⟨h, hh, hsymbol, rfl⟩
    have hids := he.request_ids symbol
    rcases MatchingEngine.mem_liveOrders.mp ho with ⟨side, price, l, hl, hqueued⟩ | hpending
    · have hbuilt : ∀ request ∈ requestsAt remote.handled symbol, request.Built := by
        intro request hmem
        obtain ⟨g, hg, -, rfl⟩ := mem_requestsAt.mp hmem
        exact he.built g hg
      have hleft := (he.history symbol).left hids hrequest hbuilt
        (MatchingEngine.mem_queuedOrders.mpr ⟨price, l, hl, hqueued⟩) (hoid.trans hid.symm)
      have hreported := filledOf_reported he hh
      rw [hsymbol] at hreported
      rw [← hid]
      exact hreported.trans_lt hleft
    · obtain ⟨s, hs, hstem, hkind⟩ := (he.history symbol).sources.pending o hpending
      have hsame : s = h.request :=
        List.inj_on_of_nodup_map hids hs hrequest (hstem.orderId.symm.trans (hoid.trans hid.symm))
      rw [hsame, hstop] at hkind
      cases hkind
  · have hin : orderId ∈ orderIds (bookOf engine symbol').liveOrders := hin
    rw [bookOf_insert hbooks] at hin
    split at hin
    · exact hdead hin
    · rename_i hne
      obtain ⟨h', hh', hsymbol', hid', -⟩ := he.live hin
      obtain rfl := he.unique hh hh' (hid.trans hid'.symm)
      exact hne (hsymbol'.symm.trans hsymbol)

/-- A call on the engine that submits nothing sets no order live. -/
theorem Dead.mono (h : Dead remote id) (hhandled : remote'.handled = remote.handled)
    (hlive : ∀ symbol, LiveAt remote' symbol id → LiveAt remote symbol id) : Dead remote' id := by
  have hfills : remote'.fills = remote.fills := congrArg (List.flatMap Handled.fills) hhandled
  refine ⟨?_, fun symbol hin => h.gone symbol (hlive symbol hin)⟩
  rw [hhandled, hfills]
  exact h.submitted

/-- **No later submission** names an order that was cancelled. -/
theorem Dead.traded (h : Dead remote id) (he : Engaged remote) {source : UuidSource} {request : MatchingEngine.Order}
    {report : ExecutionReport} {dropped : List ExecutionReport} {book : OrderBook} {engine : Core}
    (htraded : Traded source (bookOf remote.engine symbol) request report dropped book)
    (hbooks : engine.books = remote.engine.books.insert symbol book)
    (hnew : request.orderId ∉ remote.handled.map Handled.id) :
    Dead { remote with
      engine := engine
      handled := remote.handled ++ [⟨symbol, request, report.accepted, report.fills, fillsOf dropped⟩] } id ∧
      filledOf report.fills id = 0 ∧ ∀ f ∈ report.fills, f.names id = false := by
  obtain ⟨g, hg, hid, hkind, hopen⟩ := h.submitted
  have hne : id ≠ request.orderId := by
    rintro rfl
    exact hnew (hid ▸ List.mem_map_of_mem hg)
  have hunnamed : ∀ f ∈ report.fills, f.names id = false := by
    intro f hf
    rw [← Bool.not_eq_true]
    intro hnames
    rcases htraded.named (he.history symbol) (List.mem_append_left _ hf) hnames with hlive | heq
    · exact h.gone symbol hlive
    · exact hne heq
  have hnone : filledOf report.fills id = 0 := by
    have hnil : report.fills.filter (fun f => f.names id) = [] :=
      List.filter_eq_nil_iff.mpr fun f hf => by
        rw [hunnamed f hf]
        exact Bool.false_ne_true
    rw [filledOf, hnil]
    rfl
  refine ⟨⟨⟨g, List.mem_append_left _ hg, hid, hkind, fun hstop => ?_⟩, fun symbol' hin => ?_⟩, hnone, hunnamed⟩
  · rw [Remote.fills, List.flatMap_append, List.flatMap_singleton, MatchingEngine.filledOf_append]
    show filledOf remote.fills id + filledOf report.fills id < _
    rw [hnone, add_zero]
    exact hopen hstop
  · have hin : id ∈ orderIds (bookOf engine symbol').liveOrders := hin
    rw [bookOf_insert hbooks] at hin
    split at hin
    · rcases htraded.live (he.history symbol) hin with hlive | heq
      · exact h.gone symbol hlive
      · exact hne heq
    · exact h.gone symbol' hin

end Dead

/-! ### The condition -/

/-- An answer is lost. -/
def answerLost : Attempt Failure (CallFiles × UuidSource) → Bool
  | .lost _ _ => true
  | _ => false

/-- A call submits an order. -/
def submits : OrderProgress → Bool
  | .waiting (.submitOrder _) _ => true
  | _ => false

/-- **The condition on a step.**  The identifier of a new order is new.  No answer of the engine to a submission is lost.
Where a call goes on after the engine has cancelled its order, the object counts all fills of the order that the engine
has reported. -/
def Applied (world : OrderWorld) : OrderTurn → Prop
  | .enter call => ∀ id ∈ call.drawn, id ∉ drawn world.threads
  | .perform pos attempt => ∀ thread ∈ world.threads[pos]?, submits thread.progress = true → answerLost attempt = false
  | .resume pos => ∀ thread ∈ world.threads[pos]?, ∀ id ∈ toRelease thread.progress, ∀ order ∈ world.memory.orders,
      order.id = id → order.filledQuantity = filledOf world.remote.fills id

instance (world : OrderWorld) : DecidablePred (Applied world)
  | .enter call => inferInstanceAs (Decidable (∀ id ∈ call.drawn, id ∉ drawn world.threads))
  | .perform pos _ => inferInstanceAs (Decidable (∀ thread ∈ world.threads[pos]?, _ → _))
  | .resume pos => inferInstanceAs (Decidable (∀ thread ∈ world.threads[pos]?, ∀ id ∈ toRelease thread.progress,
      ∀ order ∈ world.memory.orders, _ → _))

/-! ### The invariant -/

/-- **What runs keep**: the ledger; each order is released once at most, and is dead then; and what is released is
covered. -/
structure Released (parse : DecimalParser) (service : TradingService) (world : OrderWorld) : Prop where
  ledger : Ledger parse service world
  shared : ∀ id ∈ world.memory.releasedIds, id ∈ world.memory.ids
  once : (world.memory.releasedIds ++ gather toRelease world.threads).Nodup
  dead : ∀ id ∈ world.memory.releasedIds ++ gather toRelease world.threads, Dead world.remote id
  covered : ReleasesCovered service world

namespace Released

variable {parse : DecimalParser} {service : TradingService} {memory memory' : Memory} {remote remote' : Remote}
  {pre post threads : List OrderThread} {call : OrderCall} {progress progress' : OrderProgress} {operation : Operation}
  {answer : Answer} {point : Point} {pause : OrderPause}

/-- **A call is made.** -/
theorem entered (h : Released parse service ⟨memory, remote, threads⟩) (henters : Enters service call progress)
    (hnew : ∀ id ∈ call.drawn, id ∉ drawn threads) :
    Released parse service ⟨memory, remote, threads ++ [⟨call, progress⟩]⟩ := by
  have hreleases : gather toRelease (threads ++ [⟨call, progress⟩]) = gather toRelease threads := by
    rw [gather_snoc, henters.releases, List.append_nil]
  refine ⟨h.ledger.entered henters hnew, h.shared, ?_, ?_, h.covered⟩
  · show (memory.releasedIds ++ gather toRelease (threads ++ [⟨call, progress⟩])).Nodup
    rw [hreleases]
    exact h.once
  · show ∀ id ∈ memory.releasedIds ++ gather toRelease (threads ++ [⟨call, progress⟩]), Dead remote id
    rw [hreleases]
    exact h.dead

/-- **A step that releases nothing**, and makes no fill of an order that was released. -/
theorem quiet (h : Released parse service ⟨memory, remote, pre ++ ⟨call, progress⟩ :: post⟩)
    (hledger : Ledger parse service ⟨memory, remote', pre ++ ⟨call, progress'⟩ :: post⟩)
    (hreleases : (toRelease progress').Sublist (toRelease progress)) (hdead : ∀ id, Dead remote id → Dead remote' id)
    (hdebits : ∀ order : StoredOrder, Dead remote order.id →
      service.debits order remote'.fills = service.debits order remote.fills) :
    Released parse service ⟨memory, remote', pre ++ ⟨call, progress'⟩ :: post⟩ := by
  have hless : (gather toRelease (pre ++ ⟨call, progress'⟩ :: post)).Subperm
      (gather toRelease (pre ++ ⟨call, progress⟩ :: post)) := gather_subperm hreleases.subperm
  have hall : (memory.releasedIds ++ gather toRelease (pre ++ ⟨call, progress'⟩ :: post)).Subperm
      (memory.releasedIds ++ gather toRelease (pre ++ ⟨call, progress⟩ :: post)) :=
    (List.subperm_append_left _).mpr hless
  refine ⟨hledger, h.shared, ?_, fun id hid => hdead id (h.dead id (hall.subset hid)), ?_⟩
  · obtain ⟨ids, hperm, hsub⟩ := hall
    exact hperm.nodup_iff.mp (hsub.nodup h.once)
  · intro order horder hreleased lock hlock
    show memory.releasedOf order.id + service.debits order remote'.fills ≤ lock
    rw [hdebits order (h.dead order.id (List.mem_append_left _ hreleased))]
    exact h.covered order horder hreleased lock hlock

/-- What the engine answers besides a cancellation releases nothing. -/
theorem toRelease_answered (hanswer : answer ≠ .cancelled true) : toRelease (.ready answer point) = [] := by
  cases point with
  | cancelAnswered orderId symbol userId attempt =>
      show Point.toRelease (some answer) (.cancelAnswered orderId symbol userId attempt) = []
      cases answer with
      | cancelled done =>
          cases done with
          | false => rfl
          | true => exact absurd rfl hanswer
      | done | report | failed => rfl
  | _ => rfl

/-- **The engine cancels an order**, which was live and so had not been released. -/
theorem cancelled {orderId symbol userId : String} {attempt : ℕ} {book : OrderBook} {engine : Core}
    (h : Released parse service ⟨memory, remote,
      pre ++ ⟨call, .waiting (.cancelOrder orderId symbol userId) (.cancelAnswered orderId symbol userId attempt)⟩ :: post⟩)
    (hledger : Ledger parse service ⟨memory, { remote with engine := engine },
      pre ++ ⟨call, .ready (.cancelled true) (.cancelAnswered orderId symbol userId attempt)⟩ :: post⟩)
    (hreturned : (bookOf remote.engine symbol).cancel orderId userId = .ok (true, book))
    (hresult : MatchingEngine.Cancelled (bookOf remote.engine symbol) orderId userId true book)
    (hbooks : engine.books = remote.engine.books.insert symbol book)
    (hlive : ∀ id symbol', LiveAt { remote with engine := engine } symbol' id → LiveAt remote symbol' id) :
    Released parse service ⟨memory, { remote with engine := engine },
      pre ++ ⟨call, .ready (.cancelled true) (.cancelAnswered orderId symbol userId attempt)⟩ :: post⟩ := by
  obtain ⟨⟨symbol', hwas⟩, hdead⟩ := Dead.cancelled h.ledger.engaged hreturned hresult hbooks
  have hbefore := gather_perm toRelease pre post call
    (.waiting (.cancelOrder orderId symbol userId) (.cancelAnswered orderId symbol userId attempt))
  have hafter := gather_perm toRelease pre post call
    (.ready (.cancelled true) (.cancelAnswered orderId symbol userId attempt))
  have hall : (memory.releasedIds ++ gather toRelease
        (pre ++ ⟨call, .ready (.cancelled true) (.cancelAnswered orderId symbol userId attempt)⟩ :: post)).Perm
      (orderId :: (memory.releasedIds ++ gather toRelease (pre ++ ⟨call,
        .waiting (.cancelOrder orderId symbol userId) (.cancelAnswered orderId symbol userId attempt)⟩ :: post))) :=
    ((hafter.trans (hbefore.symm.cons orderId)).append_left _).trans List.perm_middle
  refine ⟨hledger, h.shared, hall.nodup_iff.mpr (List.nodup_cons.mpr ⟨fun hin => ?_, h.once⟩), fun id hid => ?_,
    h.covered⟩
  · exact (h.dead orderId hin).gone symbol' hwas
  · rcases List.mem_cons.mp (hall.subset hid) with rfl | hold
    · exact hdead
    · exact (h.dead id hold).mono rfl (hlive id)

/-- **An operation is made.** -/
theorem performed (h : Released parse service ⟨memory, remote, pre ++ ⟨call, .waiting operation point⟩ :: post⟩)
    (hperformed : Performed parse remote operation answer remote') (hinv : CoreInv remote'.engine)
    (hseen : answer.Failed → remote'.handled = remote.handled) :
    Released parse service ⟨memory, remote', pre ++ ⟨call, .ready answer point⟩ :: post⟩ := by
  have hledger := h.ledger.performed hperformed hinv hseen
  have hfailed : answer.Failed → answer ≠ .cancelled true := by
    rintro ⟨failure, rfl⟩
    simp
  have hnothing : answer ≠ .cancelled true →
      (toRelease (.ready answer point)).Sublist (toRelease (.waiting operation point)) := by
    intro hanswer
    rw [toRelease_answered hanswer]
    exact List.nil_sublist _
  cases hperformed with
  | unsent operation failed =>
      exact h.quiet hledger (hnothing (hfailed failed)) (fun _ hdead => hdead) fun _ _ => rfl
  | written inside answered wallet =>
      refine h.quiet hledger (hnothing ?_) (fun _ hdead => hdead.mono rfl fun _ hlive => hlive) fun _ _ => rfl
      rcases answered with rfl | failed
      · simp
      · exact hfailed failed
  | refused order answered =>
      refine h.quiet hledger (hnothing ?_) (fun _ hdead => hdead) fun _ _ => rfl
      rcases answered with ⟨report, rfl, -⟩ | failed
      · simp
      · exact hfailed failed
  | @traded order request source report dropped book engine _ sent trades books answered =>
      obtain ⟨-, attempt, rfl⟩ := h.ledger.prepared ⟨call, .waiting (.submitOrder order) point⟩
        (List.mem_append_right _ List.mem_cons_self)
      have hrequest : request.orderId = order.id := by
        obtain ⟨price, stopPrice, quantity, -, -, -, rfl⟩ := engineOrder_fields sent
        rfl
      have hnew : request.orderId ∉ remote.handled.map Handled.id := by
        intro hin
        obtain ⟨g, hg, hid⟩ := List.mem_map.mp hin
        have hsubmit : g.id ∈ toSubmit (.waiting (.submitOrder order) (.submitted order attempt)) := by
          rw [hid, hrequest]
          exact List.mem_cons_self
        exact h.ledger.unsent g hg (mem_gather_own hsubmit)
      refine h.quiet hledger (hnothing ?_) (fun _ hdead => (hdead.traded h.ledger.engaged trades books hnew).1)
        fun rested hdead => ?_
      · rcases answered with rfl | failed
        · simp
        · exact hfailed failed
      · have hunnamed := (hdead.traded h.ledger.engaged trades books hnew).2.2
        rw [Remote.fills, List.flatMap_append, List.flatMap_singleton, TradingService.debits, List.filter_append,
          List.map_append, List.sum_append]
        show service.debits rested remote.fills + service.debits rested report.fills = _
        rw [debits_of_not_named hunnamed, add_zero]
  | unknown orderId symbol userId books answered =>
      refine h.quiet hledger (hnothing ?_) (fun _ hdead => hdead.mono rfl fun symbol hlive => ?_) fun _ _ => rfl
      · rcases answered with rfl | failed
        · simp
        · exact hfailed failed
      · rwa [LiveAt, bookOf_congr books] at hlive
  | @cancelled orderId symbol userId done book engine returned result books _ answered =>
      have hlive : ∀ id symbol', LiveAt { remote with engine := engine } symbol' id → LiveAt remote symbol' id := by
        intro id symbol' hin
        have hin : id ∈ orderIds (bookOf engine symbol').liveOrders := hin
        rw [bookOf_insert books] at hin
        split at hin
        · rename_i hsymbol
          obtain ⟨o, ho, rfl⟩ := List.mem_map.mp hin
          rw [hsymbol]
          exact List.mem_map_of_mem (result.live ho)
        · exact hin
      by_cases hanswer : answer = .cancelled true
      · obtain ⟨-, attempt, rfl⟩ := h.ledger.prepared ⟨call, .waiting (.cancelOrder orderId symbol userId) point⟩
          (List.mem_append_right _ List.mem_cons_self)
        obtain rfl : done = true := by
          rcases answered with heq | failed
          · exact Answer.cancelled.inj (heq.symm.trans hanswer)
          · exact absurd hanswer (hfailed failed)
        subst hanswer
        exact h.cancelled hledger returned result books hlive
      · exact h.quiet hledger (hnothing hanswer) (fun id hdead => hdead.mono rfl (hlive id)) fun _ _ => rfl

/-! ### Going on -/

/-- **No object is lost**, and none changes its terms; one may be pushed. -/
theorem objects_kept (h : Resumed service memory answer point pause memory') :
    (∀ id ∈ memory.ids, id ∈ memory'.ids) ∧ ∀ order ∈ memory'.objects,
      (∃ old ∈ memory.objects, order.placed = old.placed) ∨ order ∈ toPush service (.ready answer point) := by
  have hsame : (∀ id ∈ memory.ids, id ∈ memory.ids) ∧ ∀ order ∈ memory.objects,
      (∃ old ∈ memory.objects, order.placed = old.placed) ∨ order ∈ toPush service (.ready answer point) :=
    ⟨fun _ hid => hid, fun order horder => Or.inl ⟨order, horder, rfl⟩⟩
  have hchanged : ∀ (id : String) (f : StoredOrder → StoredOrder),
      (∀ order ∈ memory.objects, order.id = id → (f order).placed = order.placed) →
      ∀ order ∈ (memory.change id f).objects, ∃ old ∈ memory.objects, order.placed = old.placed := by
    intro id f hf order horder
    rcases Memory.mem_change horder with ⟨hold, -⟩ | ⟨old, hold, hid, rfl⟩
    · exact ⟨order, hold, rfl⟩
    · exact ⟨old, hold, hf old hold hid⟩
  cases h with
  | carries | unknown | missing | kept | released | found => exact hsame
  | applied order report fill rest maker mem hid status =>
      have hids : (memory.change maker.id fun _ => service.fillMaker maker (service.toTrade order fill)).ids
          = memory.ids := Memory.ids_change fun _ _ => rfl
      refine ⟨fun id hid => hids ▸ hid, fun order' horder' => ?_⟩
      rcases Memory.mem_change horder' with ⟨hold, -⟩ | ⟨-, -, -, rfl⟩
      · exact Or.inl ⟨order', hold, rfl⟩
      · exact Or.inl ⟨maker, List.mem_append_left _ mem, rfl⟩
  | emptied order report id rest =>
      have hids : (memory.change id fun maker => { maker with lockedAmount := 0 }).ids = memory.ids :=
        Memory.ids_change fun _ hid => hid
      have hperm := Memory.objects_splice (memory.change id fun maker => { maker with lockedAmount := 0 }) id
      have hkept := hchanged id (fun maker => { maker with lockedAmount := 0 }) fun _ _ _ => rfl
      refine ⟨fun id' hid' => (Memory.ids_splice _ id).symm.subset (hids ▸ hid'), fun order' horder' => ?_⟩
      exact Or.inl (hkept order' (hperm.subset horder'))
  | pushed order report last rests =>
      have hpush : toPush service (.ready answer point) = [order] := by
        rcases last with rfl | rfl <;> exact if_pos rests
      have hobjects := Memory.objects_push memory order
      refine ⟨fun id hid => ?_, fun order' horder' => ?_⟩
      · have hmap := (hobjects.map StoredOrder.id).symm.subset
        rw [List.map_append] at hmap
        exact hmap (List.mem_append_left _ hid)
      · rcases List.mem_append.mp (hobjects.subset horder') with hold | hnew
        · exact Or.inl ⟨order', hold, rfl⟩
        · exact Or.inr (hpush ▸ hnew)
  | cancelled orderId =>
      have hids : (memory.change orderId fun order => { order with lockedAmount := 0, status := .cancelled }).ids
          = memory.ids := Memory.ids_change fun _ hid => hid
      have hkept := hchanged orderId (fun order => { order with lockedAmount := 0, status := .cancelled })
        fun _ _ _ => rfl
      exact ⟨fun id hid => hids ▸ hid, fun order horder => Or.inl (hkept order horder)⟩
  | spliced orderId =>
      have hperm := Memory.objects_splice memory orderId
      exact ⟨fun id hid => (Memory.ids_splice memory orderId).symm.subset hid,
        fun order horder => Or.inl ⟨order, hperm.subset horder, rfl⟩⟩

/-- A call that goes on releases nothing, unless its order was cancelled and is found. -/
theorem released_or_found (h : Resumed service memory answer point pause memory') :
    (memory'.released = memory.released ∧ toRelease pause.progress = []) ∨
      ∃ orderId symbol userId attempt order, point = .cancelAnswered orderId symbol userId attempt ∧
        order ∈ memory.orders ∧ order.id = orderId ∧ answer = .cancelled true ∧
        pause = unlocking order order.lockedAmount (.cancelUnlocked orderId) ∧
        memory' = { memory with released := memory.released ++ [(orderId, order.lockedAmount)] } := by
  have hsplice : ∀ (memory : Memory) (id : String), (memory.splice id).released = memory.released := by
    intro memory id
    rw [Memory.splice]
    split <;> rfl
  cases h with
  | carries same => exact Or.inl ⟨rfl, same.releases⟩
  | released order report rest maker mem status =>
      obtain ⟨operation, heq, -⟩ := unlocking_spec maker maker.lockedAmount (.makerUnlocked order report maker.id rest)
      rw [heq]
      exact Or.inl ⟨rfl, rfl⟩
  | emptied order report id rest => exact Or.inl ⟨hsplice _ id, rfl⟩
  | spliced orderId => exact Or.inl ⟨hsplice _ orderId, rfl⟩
  | found orderId symbol userId attempt order mem hid done =>
      exact Or.inr ⟨orderId, symbol, userId, attempt, order, rfl, mem, hid, done, rfl, rfl⟩
  | unknown | applied | missing | kept | pushed | cancelled => exact Or.inl ⟨rfl, rfl⟩

/-- **A call goes on**, and releases nothing. -/
theorem carried (h : Released parse service ⟨memory, remote, pre ++ ⟨call, .ready answer point⟩ :: post⟩)
    (hledger : Ledger parse service ⟨memory', remote, pre ++ ⟨call, pause.progress⟩ :: post⟩)
    (hresumed : Resumed service memory answer point pause memory') (hsame : memory'.released = memory.released)
    (hnothing : toRelease pause.progress = []) :
    Released parse service ⟨memory', remote, pre ++ ⟨call, pause.progress⟩ :: post⟩ := by
  obtain ⟨hids, hobjects⟩ := objects_kept hresumed
  have hreleasedIds : memory'.releasedIds = memory.releasedIds := congrArg (List.map Prod.fst) hsame
  have hless : (gather toRelease (pre ++ ⟨call, pause.progress⟩ :: post)).Subperm
      (gather toRelease (pre ++ ⟨call, .ready answer point⟩ :: post)) := by
    refine gather_subperm ?_
    rw [hnothing]
    exact (List.nil_sublist _).subperm
  have hall : (memory'.releasedIds ++ gather toRelease (pre ++ ⟨call, pause.progress⟩ :: post)).Subperm
      (memory.releasedIds ++ gather toRelease (pre ++ ⟨call, .ready answer point⟩ :: post)) := by
    rw [hreleasedIds]
    exact (List.subperm_append_left _).mpr hless
  refine ⟨hledger, fun id hid => ?_, ?_, fun id hid => h.dead id (hall.subset hid), ?_⟩
  · have hid : id ∈ memory'.releasedIds := hid
    rw [hreleasedIds] at hid
    exact hids id (h.shared id hid)
  · obtain ⟨ids, hperm, hsub⟩ := hall
    exact hperm.nodup_iff.mp (hsub.nodup h.once)
  · intro order horder hreleased lock hlock
    have hreleased : order.id ∈ memory'.releasedIds := hreleased
    rw [hreleasedIds] at hreleased
    rcases hobjects order horder with ⟨old, hold, hplaced⟩ | hpush
    · have hplacedId : order.placed.id = old.placed.id := by rw [hplaced]
      have hid : order.id = old.id := hplacedId
      have hlocked : estimateLockAmount old.placed (splitSymbol old.placed.symbol).2 service.takerFeeBps = .ok lock := by
        rw [← hplaced]
        exact hlock
      have hdebits : service.debits order.placed remote.fills = service.debits old.placed remote.fills := by
        rw [hplaced]
      have hcovered := h.covered old hold (hid ▸ hreleased) lock hlocked
      show memory'.releasedOf order.id + service.debits order.placed remote.fills ≤ lock
      rw [hdebits, Memory.releasedOf, hsame, hid]
      exact hcovered
    · -- what is pushed had no object before
      have hclaim : order.id ∈ gather (claimed service) (pre ++ ⟨call, .ready answer point⟩ :: post) :=
        mem_gather_own (List.mem_append_right _ (List.mem_map_of_mem hpush))
      exact absurd rfl ((List.nodup_append.mp h.ledger.ids).2.2 order.id (h.shared order.id hreleased) order.id hclaim)

/-- **What is left of the lock of an order that was cancelled** covers its settlements, where its object counts all
its fills. -/
theorem left_covers (h : Ledger parse service ⟨memory, remote, threads⟩) (hexact : parse.Exact)
    (hfactor : 0 ≤ feeFactor service.takerFeeBps) {order : StoredOrder} (hmem : order ∈ memory.objects)
    (hdead : Dead remote order.id) (hnot : order.id ∉ memory.releasedIds)
    (hall : order.filledQuantity = filledOf remote.fills order.id) {lock : Decimal}
    (hlock : estimateLockAmount order (splitSymbol order.symbol).2 service.takerFeeBps = .ok lock) :
    order.lockedAmount + service.debits order remote.fills ≤ lock := by
  obtain ⟨hknown, haccount⟩ := h.objects order hmem
  obtain ⟨g, hg, hgid, hkind, hopen⟩ := hdead.submitted
  obtain ⟨g', hg', -, hid', -, hsent⟩ := hknown.submission
  obtain rfl := h.engaged.unique hg hg' (hgid.trans hid'.symm)
  have hrequest := engineOrder_spec hexact hsent
  have hplain : g.request.kind.isStop = false := by
    rw [hrequest.kind]
    exact hknown.plain
  have hpriced : requiresPrice order.type = true := by
    rw [← hrequest.kind]
    cases hk : g.request.kind with
    | market => exact absurd hk hkind
    | stopMarket | stopLimit =>
        rw [hk] at hplain
        cases hplain
    | _ => rfl
  have hless : order.filledQuantity < order.quantity := by
    rw [hall, ← hrequest.quantity]
    exact hopen hplain
  obtain ⟨own, applied, hperm, htaker, hmaker, hlocked⟩ :=
    haccount.counted hnot hless hall fun f hf => h.engaged.pos hf
  rw [hlocked]
  refine lockLeft_covers hknown.new hrequest hlock hfactor hpriced hperm htaker hmaker fun f hf => ?_
  obtain ⟨hf, hnames⟩ := List.mem_filter.mp (hperm.subset hf)
  have hmatched := h.engaged.matched hg hf (hgid ▸ hnames)
  exact hmatched

/-- **A cancellation releases a lock** whose object counts all fills of the order. -/
theorem found {orderId symbol userId : String} {attempt : ℕ} {order : StoredOrder}
    (h : Released parse service ⟨memory, remote,
      pre ++ ⟨call, .ready (.cancelled true) (.cancelAnswered orderId symbol userId attempt)⟩ :: post⟩)
    (hexact : parse.Exact) (hfactor : 0 ≤ feeFactor service.takerFeeBps) (hmem : order ∈ memory.orders)
    (hid : order.id = orderId) (hall : order.filledQuantity = filledOf remote.fills orderId) :
    Released parse service ⟨{ memory with released := memory.released ++ [(orderId, order.lockedAmount)] }, remote,
      pre ++ ⟨call, (unlocking order order.lockedAmount (.cancelUnlocked orderId)).progress⟩ :: post⟩ := by
  have hledger := h.ledger.found order
  subst hid
  have hobject : order ∈ memory.objects := List.mem_append_left _ hmem
  have hbefore := gather_perm toRelease pre post call
    (.ready (.cancelled true) (.cancelAnswered order.id symbol userId attempt))
  have hrelease : order.id ∈ toRelease (.ready (.cancelled true) (.cancelAnswered order.id symbol userId attempt)) :=
    List.mem_cons_self
  have hown : order.id ∈ gather toRelease
      (pre ++ ⟨call, .ready (.cancelled true) (.cancelAnswered order.id symbol userId attempt)⟩ :: post) :=
    mem_gather_own hrelease
  have hnot : order.id ∉ memory.releasedIds := fun hin => (List.nodup_append.mp h.once).2.2 order.id hin order.id hown rfl
  have hdead : Dead remote order.id := h.dead order.id (List.mem_append_right _ hown)
  have hids : Memory.releasedIds { memory with released := memory.released ++ [(order.id, order.lockedAmount)] }
      = memory.releasedIds ++ [order.id] := List.map_append
  obtain ⟨operation, heq, -⟩ := unlocking_spec order order.lockedAmount (.cancelUnlocked order.id)
  rw [heq] at hledger ⊢
  have hafter := gather_perm toRelease pre post call (.waiting operation (.cancelUnlocked order.id))
  have hperm : (memory.releasedIds ++ [order.id]
        ++ gather toRelease (pre ++ ⟨call, .waiting operation (.cancelUnlocked order.id)⟩ :: post)).Perm
      (memory.releasedIds ++ gather toRelease (pre ++ ⟨call,
        .ready (.cancelled true) (.cancelAnswered order.id symbol userId attempt)⟩ :: post)) := by
    rw [List.append_assoc]
    exact ((hafter.cons order.id).trans hbefore.symm).append_left memory.releasedIds
  refine ⟨hledger, fun id hid => ?_, ?_, fun id hid => ?_, ?_⟩
  · have hid : id ∈ memory.releasedIds ++ [order.id] := hids ▸ hid
    rcases List.mem_append.mp hid with hold | hlast
    · exact h.shared id hold
    · rw [List.mem_singleton.mp hlast]
      exact List.mem_map_of_mem hobject
  · show (Memory.releasedIds _ ++ _).Nodup
    rw [hids]
    exact hperm.nodup_iff.mpr h.once
  · have hid : id ∈ Memory.releasedIds { memory with released := memory.released ++ [(order.id, order.lockedAmount)] }
      ++ gather toRelease (pre ++ ⟨call, .waiting operation (.cancelUnlocked order.id)⟩ :: post) := hid
    rw [hids] at hid
    exact h.dead id (hperm.subset hid)
  · intro order' horder' hreleased lock hlock
    have horder' : order' ∈ memory.objects := horder'
    have hreleased : order'.id ∈ memory.releasedIds ++ [order.id] := hids ▸ hreleased
    have hof : Memory.releasedOf { memory with released := memory.released ++ [(order.id, order.lockedAmount)] } order'.id
        = memory.releasedOf order'.id + if order.id = order'.id then order.lockedAmount else 0 := by
      rw [Memory.releasedOf, Memory.releasedOf, List.filter_append, List.map_append, List.sum_append]
      congr 1
      by_cases hsame : order.id = order'.id
      · simp [hsame]
      · simp [hsame]
    show Memory.releasedOf _ order'.id + service.debits order' remote.fills ≤ lock
    rw [hof]
    by_cases hsame : order.id = order'.id
    · obtain rfl := Memory.eq_of_id h.ledger.ids.of_append_left hobject horder' hsame
      have hnone : memory.releasedOf order.id = 0 := by
        have hnil : memory.released.filter (fun entry => decide (entry.1 = order.id)) = [] := by
          refine List.filter_eq_nil_iff.mpr fun entry hentry hentryId => hnot ?_
          rw [← of_decide_eq_true hentryId]
          exact List.mem_map_of_mem hentry
        rw [Memory.releasedOf, hnil]
        rfl
      rw [hnone, if_pos rfl, zero_add]
      exact left_covers h.ledger hexact hfactor hobject hdead hnot hall hlock
    · have hold : order'.id ∈ memory.releasedIds :=
        (List.mem_append.mp hreleased).resolve_right fun hin => hsame (List.mem_singleton.mp hin).symm
      rw [if_neg hsame, add_zero]
      exact h.covered order' horder' hold lock hlock

/-! ### Runs -/

/-- Nothing has been placed. -/
theorem start (parse : DecimalParser) (service : TradingService) (wallet : Wallet.Database)
    (persistence : Option MatchingEngine.Persistence) :
    Released parse service (Trading.start wallet persistence) where
  ledger :=
    { engaged := Engaged.start wallet persistence
      prepared := fun thread hthread => nomatch hthread
      ids := List.nodup_nil
      unsent := fun h hh => nomatch hh
      drawn := fun id hid => by rcases hid with hid | hid | hid <;> cases hid
      due := fun f hf => nomatch hf
      objects := fun order horder => nomatch horder
      pushes := fun order horder => nomatch horder
      empties := fun id hid => nomatch hid
      cancels := fun id hid => nomatch hid }
  shared := fun id hid => nomatch hid
  once := List.nodup_nil
  dead := fun id hid => nomatch hid
  covered := fun order horder => nomatch horder

end Released

section Failed

variable {codec : DecimalCodec} {parse : DecimalParser} {remote remote' : Remote} {operation : Operation}
  {input : CallFiles × UuidSource} {answer : Answer}

/-- Only a submission is recorded by the engine. -/
theorem handled_of_handle (hother : ∀ order, operation ≠ .submitOrder order)
    (h : Remote.handle codec parse operation input remote = .ok (answer, remote')) :
    remote'.handled = remote.handled := by
  cases operation with
  | submitOrder order => exact absurd rfl (hother order)
  | walletPost request =>
      rw [Remote.handle] at h
      cases hposted : remote.walletPost request with
      | error e =>
          rw [hposted] at h
          cases h
      | ok posted =>
          obtain ⟨reply, wallet, -, rfl⟩ := walletPost_eq_ok.mp hposted
          rw [hposted] at h
          cases h
          rfl
  | cancelOrder orderId symbol userId =>
      rw [Remote.handle] at h
      split at h
      · cases h
      · cases h
        rfl
  | findRows | saveOrder | updateOrder | saveTrade | produce | resolved =>
      cases h
      rfl

/-- What is handled is answered. -/
theorem answered_of_handle (h : Remote.handle codec parse operation input remote = .ok (answer, remote')) :
    ¬answer.Failed := by
  rintro ⟨failure, rfl⟩
  cases operation with
  | submitOrder order =>
      rw [Remote.handle] at h
      split at h
      · cases h
      · split at h <;> cases h
  | walletPost request =>
      rw [Remote.handle] at h
      cases hposted : remote.walletPost request <;> rw [hposted] at h <;> cases h
  | cancelOrder orderId symbol userId =>
      rw [Remote.handle] at h
      split at h <;> cases h
  | findRows | saveOrder | updateOrder | saveTrade | produce | resolved => cases h

/-- **What fails has not reached the books**, unless the answer to a submission is lost. -/
theorem handled_of_failed {attempt : Attempt Failure (CallFiles × UuidSource)}
    (h : perform codec parse operation attempt remote = (answer, remote')) (hfailed : answer.Failed)
    (hseen : (∃ order, operation = .submitOrder order) → answerLost attempt = false) :
    remote'.handled = remote.handled := by
  by_cases hresolved : operation = .resolved
  · subst hresolved
    cases h
    rfl
  rw [perform_eq codec parse hresolved] at h
  cases attempt with
  | unsent failure =>
      cases h
      rfl
  | lost failure input =>
      have hother : ∀ order, operation ≠ .submitOrder order := by
        intro order heq
        cases hseen ⟨order, heq⟩
      rw [Attempt.run] at h
      cases hhandle : Remote.handle codec parse operation input remote with
      | error e =>
          rw [hhandle] at h
          cases h
          rfl
      | ok p =>
          rw [hhandle] at h
          cases h
          exact handled_of_handle hother hhandle
  | answered input =>
      rw [Attempt.run] at h
      cases hhandle : Remote.handle codec parse operation input remote with
      | error e =>
          rw [hhandle] at h
          cases h
          rfl
      | ok p =>
          rw [hhandle] at h
          cases h
          exact absurd hfailed (answered_of_handle hhandle)

end Failed

/-- **Every step keeps the invariant**, if it meets the condition. -/
theorem Released.step {codec : DecimalCodec} {parse : DecimalParser} {service : TradingService} {maxRetries : ℕ}
    {world world' : OrderWorld} {turn : OrderTurn} {reply : Unit} (h : Released parse service world)
    (hexact : parse.Exact) (hfactor : 0 ≤ feeFactor service.takerFeeBps) (happlied : Applied world turn)
    (hexec : (program codec parse service maxRetries).exec world turn = .ok (reply, world')) :
    Released parse service world' := by
  obtain ⟨memory, remote, threads⟩ := world
  cases Program.exec_spec hexec with
  | entered call block =>
      obtain ⟨henters, hmemory⟩ : Enters service call (enter call memory).1.progress ∧ (enter call memory).2 = memory :=
        enter_spec call memory
      have hblock : enter call memory = _ := block
      rw [hblock] at henters hmemory
      obtain rfl := hmemory
      exact h.entered henters happlied
  | performed pre post call operation point input hthreads effect =>
      have hthreads : threads = pre ++ ⟨call, .waiting operation point⟩ :: post := hthreads
      subst hthreads
      have hprepared := h.ledger.prepared _ (List.mem_append_right pre List.mem_cons_self)
      obtain ⟨hperformed, hinv⟩ := perform_spec h.ledger.engaged.inv hprepared effect
      refine h.performed hperformed hinv fun hfailed => handled_of_failed effect hfailed ?_
      rintro ⟨order, rfl⟩
      exact happlied _ (getElem?_between pre post _) rfl
  | resumed pre post call answer point hthreads block =>
      have hthreads : threads = pre ++ ⟨call, .ready answer point⟩ :: post := hthreads
      subst hthreads
      have hprepared := h.ledger.prepared _ (List.mem_append_right pre List.mem_cons_self)
      have hresumed := resume_spec maxRetries point block
      have hledger := h.ledger.resumed (resume_prepared hprepared block) hresumed
      rcases Released.released_or_found hresumed with ⟨hsame, hnothing⟩ | ⟨orderId, symbol, userId, attempt, order, rfl, hmem,
        hid, rfl, rfl, rfl⟩
      · exact h.carried hledger hresumed hsame hnothing
      · exact h.found hexact hfactor hmem hid (happlied _ (getElem?_between pre post _) orderId List.mem_cons_self order hmem hid)
  | idle => exact h

/-- The wallets of two users, one who has bitcoin and one who has money. -/
def fundedWallets : Wallet.Database where
  users := quietMarket.trading.users
  wallets := (SortedMap.empty.insert (Wallet.Database.rowKey "alice" "BTC") ⟨.fin 2, .fin 0⟩).insert
    (Wallet.Database.rowKey "bob" "USDT") ⟨.fin 1000, .fin 0⟩
  ledger := []

/-- Steps of one call. -/
def proceed (pos steps : ℕ) : List OrderTurn :=
  (List.replicate steps [.perform pos (.answered (MatchingEngine.filesOk, fun _ => "trade")), .resume pos]).flatten

/-- An offer of two that rests, a bid of one that meets it, and a cancellation of the offer. -/
def offerTakenAndCancelled (bidSteps cancelSteps : ℕ) : List OrderTurn :=
  [.enter (.placeOrder "order-1" (bitcoinOrder "alice" "account-1" .sell .limit 100 none 2))] ++ proceed 0 8 ++
    [.enter (.placeOrder "order-2" (bitcoinOrder "bob" "account-2" .buy .limit 100 none 1))] ++ proceed 1 bidSteps ++
    [.enter (.cancelOrder "order-1" "BTC-USDT" "alice")] ++ proceed 2 cancelSteps

/-- The run in which the bid has been answered, but its fill not applied, when the offer is cancelled; then the bid goes
on. -/
def cancelledMeanwhile : List OrderTurn := offerTakenAndCancelled 4 8 ++ proceed 1 1

/-- What the bid throws. -/
def settlementRefused : TradingError :=
  .http 400 "wallet request failed: \x7b\"statusCode\":500,\"message\":\"Internal server error\"\x7d"

end NexusTrade.Trading
