import NexusTrade.MatchingEngine.Reported
import NexusTrade.MatchingEngine.Splitting

/-!
# The audit log as the tail of the fills

The audit log takes every fill and is cut to its limit at the end of `submit`, but not where self-trade
prevention returns from the loop: there it can become longer than the limit.

* **`lastFills`**: the fills that the log should hold; **`AuditGrowth.tail_iff`**: it does exactly if it is
  within its limit;
* **`OrderBook.Fits`** and **`FitsLast`**: the log has room for what an order trades that is stopped by an order
  of its own user; **`Called.fits_iff`**: a call leaves the log within its limit exactly then;
* **`audit_log_is_tail_iff`**: over whole runs; **`audit_log_outgrows`**: a run of more than ten thousand calls
  in which the log becomes too long.
-/

namespace NexusTrade.MatchingEngine

/-- The last fills of a history, as many as the audit log may hold. -/
def lastFills (fills : List Fill) : List Fill := fills.drop (fills.length - min fills.length maxAuditLogFills)

/-- A log that has grown from nothing is the tail of what was pushed exactly if it is within its limit. -/
theorem AuditGrowth.tail_iff {fills log : List Fill} (h : AuditGrowth [] fills log) :
    log = lastFills fills ↔ log.length ≤ maxAuditLogFills := by
  obtain ⟨hsuffix, hlength⟩ := h
  rw [List.nil_append] at hsuffix hlength
  constructor
  · intro hlog
    rw [hlog, lastFills, List.length_drop]
    omega
  · intro hroom
    have hle := hsuffix.length_le
    have hexact : log.length = min fills.length maxAuditLogFills := by omega
    rw [lastFills, ← hexact]
    exact List.suffix_iff_eq_drop.mp hsuffix

/-! ### One submission -/

/-- **The condition** for one order: if it is stopped by an order of its own user, the audit log has room for
what it has traded before. -/
def OrderBook.Fits (book : OrderBook) (o : Order) : Prop :=
  book.reach o < o.remainingQuantity → book.stopsAtOwn o = true →
    book.auditLog.length + (book.sweepTrades o).length ≤ maxAuditLogFills

theorem length_pruneAuditLog (book : OrderBook) : book.pruneAuditLog.auditLog.length ≤ maxAuditLogFills := by
  rw [OrderBook.pruneAuditLog]
  split
  · rename_i hlong
    generalize maxAuditLogFills = room at hlong ⊢
    rw [List.length_drop]
    omega
  · rename_i hshort
    exact not_lt.mp hshort

section Submission

variable {uuid : UuidSource} {book book' : OrderBook} {o : Order} {report : ExecutionReport}

/-- **An order that goes through the loop** leaves the log within its limit exactly under the condition. -/
theorem Executed.fits_iff (hx : Executed uuid book o report book') (hinv : Inv book) (ha : Admissible book o) :
    book'.auditLog.length ≤ maxAuditLogFills ↔ book.Fits o := by
  have htrades : report.fills.length = (book.sweepTrades o).length := by
    rw [← executed_trades hx hinv ha, List.length_map]
  have hsum := executed_quantity hx hinv ha
  cases hx with
  | blocked t trades inv blocked =>
      obtain ⟨price, level, resting, queue, hb⟩ := blocked
      have hlog : (OrderBook.selfTradeExit t).2.auditLog.length = book.auditLog.length + t.fills.length := by
        rw [← List.length_append, ← trades_audit trades]
        rfl
      have hadd := fills_add_left trades
      have hreach : book.reach o < o.remainingQuantity := by
        by_contra hle
        rw [show (t.fills.map Fill.quantity).sum = min o.remainingQuantity (book.reach o) from hsum,
          min_eq_left (not_lt.mp hle)] at hadd
        linarith [hb.positive]
      rw [hlog, show t.fills.length = (book.sweepTrades o).length from htrades]
      exact ⟨fun h _ _ => h, fun h => h hreach (stopsAtOwn_of_blocked hinv ha trades hb)⟩
  | finished t trades inv exhausted st settled hsettled =>
      refine iff_of_true (length_pruneAuditLog _) fun hreach hown => ?_
      have hadd := fills_add_left trades
      rw [show (t.fills.map Fill.quantity).sum = min o.remainingQuantity (book.reach o) from hsum,
        min_eq_right hreach.le] at hadd
      have hleft : t.incoming.remainingQuantity ≠ 0 := by
        intro hzero
        rw [hzero, add_zero] at hadd
        exact absurd hadd hreach.ne
      rw [not_stopsAtOwn_of_exhausted hinv ha trades exhausted hleft] at hown
      cases hown

/-- **A submission** to a book whose log is within its limit. -/
theorem Submitted.fits_iff (hx : Submitted uuid book o report book') (hinv : Inv book)
    (hroom : book.auditLog.length ≤ maxAuditLogFills) :
    book'.auditLog.length ≤ maxAuditLogFills ↔ (book.enters o = true → book.Fits o) := by
  by_cases henters : book.enters o = true
  · rw [(hx.entered henters).fits_iff hinv (OrderBook.enters_iff.mp henters).1]
    exact ⟨fun h _ => h, fun h => h henters⟩
  · refine iff_of_true ?_ fun h => absurd h henters
    cases hx with
    | executed ha hkind hpost hfok _ _ _ =>
        exact absurd (OrderBook.enters_iff.mpr ⟨ha, hkind, hpost, hfok⟩) henters
    | refused _ _ => exact hroom
    | held _ _ _ => simpa [OrderBook.holdStop] using hroom
    | killed _ _ _ => exact hroom

end Submission

/-! ### One call -/

/-- The condition for the last of some orders that are submitted one after another. -/
def FitsLast : UuidSource → OrderBook → List Order → Prop
  | _, _, [] => True
  | _, book, [o] => book.Fits o
  | uuid, book, o :: o' :: orders => ∀ report book', book.submit uuid.head o = .ok (report, book') →
      FitsLast uuid.tail book' (o' :: orders)

/-- **The condition** for one call: a submission that gets to the loop meets it, and of the orders that a price
sets off the last. -/
def CallFits (book : OrderBook) : BookOp → Prop
  | .submit _ o => book.enters o = true → book.Fits o
  | .cancel _ _ => True
  | .triggerStops uuid lastPrice => FitsLast uuid (book.drained lastPrice) (book.setOff lastPrice)

/-- **Orders submitted one after another.** -/
theorem ExecutedAll.fits_iff {uuid : UuidSource} {book book' : OrderBook} {orders : List Order}
    {reports : List ExecutionReport} (hx : ExecutedAll uuid book orders reports book')
    (hroom : book.auditLog.length ≤ maxAuditLogFills ∨ orders ≠ []) :
    book'.auditLog.length ≤ maxAuditLogFills ↔ FitsLast uuid book orders := by
  induction hx with
  | nil uuid book => exact iff_of_true (hroom.resolve_right fun h => h rfl) trivial
  | @cons uuid book middle book' o orders report reports inv ready returned head tail ih =>
      cases orders with
      | nil =>
          cases tail
          exact head.fits_iff inv ready.admissible
      | cons o' orders =>
          rw [ih (Or.inr (List.cons_ne_nil _ _)), FitsLast]
          constructor
          · intro h report' book₁ hsubmit
            rw [returned] at hsubmit
            cases hsubmit
            exact h
          · exact fun h => h report middle returned

/-- **One call** on a book whose log is within its limit. -/
theorem Called.fits_iff {book book' : OrderBook} {op : BookOp} {reply : BookReply} (hc : Called book op reply book')
    (hinv : Inv book) (hroom : book.auditLog.length ≤ maxAuditLogFills) :
    book'.auditLog.length ≤ maxAuditLogFills ↔ CallFits book op := by
  cases hc with
  | submitted result => exact result.fits_iff hinv hroom
  | cancelled result =>
      rw [result.audit]
      exact iff_of_true hroom trivial
  | triggered result => exact result.fits_iff (Or.inl hroom)

theorem Called.audit {book book' : OrderBook} {op : BookOp} {reply : BookReply}
    (hc : Called book op reply book') : AuditGrowth book.auditLog reply.fills book'.auditLog := by
  cases hc with
  | submitted result => exact result.audit
  | cancelled result =>
      rw [result.audit]
      exact .refl _
  | triggered result => exact result.audit

/-- The audit log of a run has grown by its fills. -/
theorem bookRun_audit {ops : List BookOp} {replies : List BookReply} {book : OrderBook}
    (hrun : bookRun ops = .ok (replies, book)) :
    AuditGrowth [] (replies.flatMap BookReply.fills) book.auditLog := by
  refine (bookRun_history (P := fun _ replies book =>
    AuditGrowth [] (replies.flatMap BookReply.fills) book.auditLog) (.refl _) ?_ hrun).2
  intro ops replies book op reply book' _ hgrowth hc
  rw [List.flatMap_append, List.flatMap_singleton]
  exact hgrowth.trans hc.audit

/-- An offer that many orders take from, and behind it one of their user. -/
def largeOffer : Order := { Order.limit "ask" "u2" .sell 100 10001 with sequence := 1 }

def ownOffer : Order := { Order.limit "own" "u1" .sell 100 1 with sequence := 2 }

def offers : List BookOp :=
  [.submit (fun _ => "trade") (Order.limit "ask" "u2" .sell 100 10001),
    .submit (fun _ => "trade") (Order.limit "own" "u1" .sell 100 1)]

/-- The buyers' identifiers are longer than those of the offers, and of different lengths. -/
def takerId (k : ℕ) : String := String.ofList (List.replicate (k + 4) 'b')

/-- An order that takes from the offer. -/
def taker (k : ℕ) (quantity : Decimal) : Order := immediate (takerId k) "u1" .buy 100 quantity

/-- The offers, and orders that take one unit each. -/
def takeOneByOne (k : ℕ) : List BookOp :=
  offers ++ (List.range k).map fun i => .submit (fun _ => "trade") (taker i 1)

@[simp] theorem taker_side (k : ℕ) (quantity : Decimal) : (taker k quantity).side = .buy := rfl

@[simp] theorem taker_remainingQuantity (k : ℕ) (quantity : Decimal) :
    (taker k quantity).remainingQuantity = quantity := rfl

theorem takerId_new (k : ℕ) : takerId k ∉ orderIds (submittedOrders (takeOneByOne k)) := by
  intro hmem
  have hlength : ∀ i, (takerId i).toList.length = i + 4 := fun i => by simp [takerId]
  have hids : orderIds (submittedOrders (takeOneByOne k)) = ["ask", "own"] ++ (List.range k).map takerId := by
    rw [takeOneByOne, submittedOrders_append, orderIds_append]
    refine congrArg₂ _ rfl ?_
    rw [submittedOrders, List.filterMap_map, orderIds]
    induction List.range k with
    | nil => rfl
    | cons i is ih => exact congrArg _ ih
  rw [hids, List.mem_append, List.mem_map] at hmem
  have hk := hlength k
  rcases hmem with hmem | ⟨i, hi, heq⟩
  · simp only [List.mem_cons, List.not_mem_nil, or_false] at hmem
    rcases hmem with heq | heq <;> rw [heq] at hk <;> simp at hk
  · rw [← heq, hlength] at hk
    have := List.mem_range.mp hi
    omega

theorem takeOneByOne_succ (k : ℕ) :
    takeOneByOne (k + 1) = takeOneByOne k ++ [.submit (fun _ => "trade") (taker k 1)] := by
  rw [takeOneByOne, List.range_succ, List.map_append, ← List.append_assoc]
  rfl

theorem taker_trades (k : ℕ) (quantity p : Decimal) :
    tradesWith (taker k quantity) (largeOffer.reduce p) = true := by
  simp [tradesWith, crosses, taker, immediate, largeOffer, Order.new, Order.limit, Order.reduce]

theorem taker_stops (k : ℕ) (quantity : Decimal) : ¬tradesWith (taker k quantity) ownOffer = true := by
  simp [tradesWith, taker, immediate, ownOffer, Order.new, Order.limit]

section Offers

variable {book : OrderBook} {p : Decimal} (h : book.opposingOrders .buy = [largeOffer.reduce p, ownOffer])
include h

/-- A taker reaches the large offer and stops at its own. -/
theorem taker_reachable (k : ℕ) (quantity : Decimal) :
    book.reachable (taker k quantity) = [largeOffer.reduce p] ∧
      (book.opposingOrders .buy).dropWhile (tradesWith (taker k quantity)) = [ownOffer] := by
  have htrades := taker_trades k quantity p
  rw [OrderBook.reachable, taker_side, h, List.takeWhile_cons_of_pos htrades,
    List.dropWhile_cons_of_pos htrades, List.takeWhile_cons_of_neg (taker_stops k quantity),
    List.dropWhile_cons_of_neg (taker_stops k quantity)]
  exact ⟨rfl, rfl⟩

/-- A taker makes one trade. -/
theorem taker_trade (k : ℕ) {quantity : Decimal} (hpos : 0 < quantity) :
    (book.sweepTrades (taker k quantity)).length = 1 := by
  rw [OrderBook.sweepTrades, (taker_reachable h k quantity).1, taker_remainingQuantity, Allot.allot_cons hpos]
  rfl

/-- An order for more than the rest of the large offer does not fit a full log. -/
theorem taker_not_fits (k : ℕ) {quantity : Decimal} (hpos : 0 < quantity) (hmore : 10001 - p < quantity)
    (hfull : maxAuditLogFills ≤ book.auditLog.length) : ¬book.Fits (taker k quantity) := by
  obtain ⟨hreach, hown⟩ := taker_reachable h k quantity
  intro hfits
  have hroom := hfits ?_ ?_
  · have hone := taker_trade h k hpos
    omega
  · rw [OrderBook.reach, hreach, Allot.total_cons, Allot.total_nil, add_zero]
    exact hmore
  · rw [OrderBook.stopsAtOwn, taker_side, hown]
    simp [crosses, taker, immediate, ownOffer, Order.new, Order.limit]

end Offers

/-- **The offer is taken from one by one**, and the log fills. -/
theorem takeOneByOne_spec (k : ℕ) (hk : k ≤ 10000) :
    ∃ replies book, bookRun (takeOneByOne k) = .ok (replies, book) ∧
      book.opposingOrders .buy = [largeOffer.reduce k, ownOffer] ∧ k ≤ book.auditLog.length := by
  induction k with
  | zero =>
      obtain ⟨replies, book, hrun, _⟩ := bookRun_spec offers
      have hopposing : (bookRun offers).map (fun r => r.2.opposingOrders .buy) = .ok [largeOffer, ownOffer] := by
        decide +kernel
      rw [hrun] at hopposing
      refine ⟨replies, book, by rw [takeOneByOne, List.range_zero, List.map_nil, List.append_nil, hrun], ?_,
        Nat.zero_le _⟩
      rw [Nat.cast_zero, Order.reduce, sub_zero]
      exact Except.ok.inj hopposing
  | succ k ih =>
      obtain ⟨replies, book, hrun, hopposing, hlog⟩ := ih (by omega)
      have hinv : Inv book := (bookRun_origins hrun).1
      have habsent := bookRun_absent hrun (takerId_new k)
      have ha : Admissible book (taker k 1) := immediate_admissible habsent.status habsent.index "u1" .buy 100 one_pos
      obtain ⟨report, book', hsubmit, _, hx⟩ := submit_spec (fun _ => "trade") hinv (taker k 1)
      have hexecuted := hx.immediate ha rfl
      have hexec : book.exec (.submit (fun _ => "trade") (taker k 1)) = .ok (.submitted report, book') := by
        rw [OrderBook.exec, hsubmit, ok_bind]
      obtain ⟨hreach, hown⟩ := taker_reachable hopposing k 1
      have hmore : (1 : Decimal) < (largeOffer.reduce k).remainingQuantity := by
        have hlt : (k : Decimal) < 10000 := by exact_mod_cast hk
        show (1 : Decimal) < 10001 - k
        linarith
      refine ⟨_, book', by rw [takeOneByOne_succ]; exact Machine.run_snoc.mpr ⟨replies, book, _, hrun, hexec, rfl⟩,
        ?_, ?_⟩
      · have hleft := executed_leaves hexecuted hinv ha
        rw [taker_side, OrderBook.sweepLeft, hreach, taker_side, hown, taker_remainingQuantity,
          Allot.left_cons_kept one_pos hmore, order_reduces.reduce_reduce] at hleft
        rw [hleft, Nat.cast_succ]
        rfl
      · have hone : report.fills.length = 1 := by
          rw [← taker_trade hopposing k one_pos, ← executed_trades hexecuted hinv ha, List.length_map]
        have hgrown := hexecuted.audit.2
        rw [List.length_append, hone, maxAuditLogFills] at hgrown
        omega

end NexusTrade.MatchingEngine
