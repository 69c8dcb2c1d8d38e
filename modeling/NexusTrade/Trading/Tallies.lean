import NexusTrade.Trading.Releases

/-!
# What an object counts

The fills that the object of an order counts, and what is left of its lock then, while every fill of the order is counted
or due.

* **`Remote.made`**, **`lockAfter`** and **`Reflects`**: every fill of the engine, and an object that says what they have
  done to its order;
* **`Counts`**: every fill of an order is counted by its object, or has still to be applied to it;
* **`Counts.traded`**, **`Counts.apply`** and **`Counts.other`**: more fills, a fill that is applied to the order, and one
  that is applied to another;
* **`Kept`** and **`Closed`**: an order whose lock is what its fills leave, and one whose lock has been unlocked.
-/

namespace NexusTrade.Trading

open MatchingEngine (Decimal Fill ExecutionReport filledOf fillsOf)

/-! ### The claim -/

/-- Every fill that the engine has made, those of the stop orders that it set off among them. -/
def Remote.made (remote : Remote) : List Fill := remote.handled.flatMap fun h => h.fills ++ h.dropped

/-- What is left of the lock of an order, which has traded as taker and then as maker. -/
def lockAfter (service : TradingService) (order : StoredOrder) (fills : List Fill) : Decimal :=
  lockLeft service order
    (fills.filter fun f => f.names order.id ∧ f.makerOrderId ≠ order.id)
    (fills.filter fun f => f.makerOrderId = order.id)

/-- **An object says what the engine has done to its order**, and the column of its row the same.  Its lock is what the fills
leave of it; that of an order that is complete has been unlocked, and the object taken out of `orders`. -/
structure Reflects (service : TradingService) (world : OrderWorld) (order : StoredOrder) : Prop where
  filled : order.filledQuantity = filledOf world.remote.made order.id
  inserted : order.id ∈ world.remote.rows.map OrderEntity.id
  written : ∀ row ∈ world.remote.rows, row.id = order.id →
    row.filledColumn = some (.fin (filledOf world.remote.made order.id))
  opens : order.filledQuantity < order.quantity →
    order ∈ world.memory.orders ∧ order.lockedAmount = lockAfter service order world.remote.made
  completes : order.quantity ≤ order.filledQuantity → (∀ o ∈ world.memory.orders, o.id ≠ order.id) ∧
    order.lockedAmount = 0 ∧ (0 < lockAfter service order world.remote.made →
      .unlock (TradingService.mutationOf order (lockAfter service order world.remote.made)) ∈ world.remote.served)

/-! ### Counting -/

/-- **An object counts every fill of its order** that is not due: its own as taker, and those applied to it as maker. -/
structure Counts (fills due : List Fill) (order : StoredOrder) (own applied : List Fill) : Prop where
  all : (own ++ applied ++ due.filter fun f => f.makerOrderId = order.id).Perm (fills.filter fun f => f.names order.id)
  taker : ∀ f ∈ own, f.makerOrderId ≠ order.id
  maker : ∀ f ∈ applied, f.makerOrderId = order.id
  filled : order.filledQuantity = quantityOf own + quantityOf applied

section Counts

variable {service : TradingService} {fills due due' own applied : List Fill} {order order' : StoredOrder} {fill : Fill}

theorem quantityOf_perm {fs gs : List Fill} (h : fs.Perm gs) : quantityOf fs = quantityOf gs :=
  (h.map Fill.quantity).sum_eq

theorem quantityOf_singleton (fill : Fill) : quantityOf [fill] = fill.quantity := add_zero fill.quantity

/-- The lock depends on the fills, not on their order. -/
theorem lockLeft_perm {own' applied' : List Fill} (hown : own.Perm own') (happlied : applied.Perm applied') :
    lockLeft service order own applied = lockLeft service order own' applied' := by
  have hconsumed : consumedOf service order.side applied = consumedOf service order.side applied' :=
    (happlied.map _).sum_eq
  rw [lockLeft, lockLeft, quantityOf_perm hown, hconsumed]

/-- One fill more is applied. -/
theorem lockLeft_snoc (fill : Fill) : lockLeft service order own (applied ++ [fill])
    = lockLeft service order own applied
      - consumedLockForFill order.side fill.price fill.quantity service.makerFeeBps := by
  have hone : consumedOf service order.side [fill]
      = consumedLockForFill order.side fill.price fill.quantity service.makerFeeBps := add_zero _
  rw [lockLeft, lockLeft, consumedOf_append, hone, sub_sub]

namespace Counts

theorem same (h : Counts fills due order own applied) (hid : order'.id = order.id)
    (hfilled : order'.filledQuantity = order.filledQuantity) : Counts fills due order' own applied where
  all := hid ▸ h.all
  taker := hid ▸ h.taker
  maker := hid ▸ h.maker
  filled := hfilled.trans h.filled

/-- What the fills of an order add up to. -/
theorem total (h : Counts fills due order own applied) :
    order.filledQuantity + quantityOf (due.filter fun f => f.makerOrderId = order.id) = filledOf fills order.id := by
  have hsum := quantityOf_perm h.all
  rw [quantityOf_append, quantityOf_append, ← h.filled] at hsum
  exact hsum

/-- **More fills**, of which the order is not the taker. -/
theorem traded (h : Counts fills due order own applied) {more : List Fill} (hdue : due'.Perm (due ++ more))
    (hnew : ∀ f ∈ more, f.takerOrderId ≠ order.id) : Counts (fills ++ more) due' order own applied := by
  have hmore : more.filter (fun f => f.names order.id) = more.filter fun f => decide (f.makerOrderId = order.id) := by
    refine List.filter_congr fun f hf => ?_
    rw [Fill.names]
    exact decide_eq_decide.mpr (or_iff_left (hnew f hf))
  have hall : (due'.filter fun f => decide (f.makerOrderId = order.id)).Perm
      ((due.filter fun f => decide (f.makerOrderId = order.id)) ++ more.filter fun f => f.names order.id) := by
    rw [hmore, ← List.filter_append]
    exact hdue.filter _
  refine ⟨?_, h.taker, h.maker, h.filled⟩
  rw [List.filter_append]
  refine (hall.append_left (own ++ applied)).trans ?_
  rw [← List.append_assoc]
  exact h.all.append_right _

/-- **A fill is applied to the order.** -/
theorem apply (h : Counts fills due order own applied) (hdue : due.Perm (fill :: due'))
    (hmaker : fill.makerOrderId = order.id) (incoming : StoredOrder) :
    Counts fills due' (service.fillMaker order (service.toTrade incoming fill)) own (applied ++ [fill]) := by
  have hfilter : (due.filter fun f => decide (f.makerOrderId = order.id)).Perm
      (fill :: due'.filter fun f => decide (f.makerOrderId = order.id)) := by
    refine (hdue.filter _).trans (List.Perm.of_eq ?_)
    exact List.filter_cons_of_pos (by simpa using hmaker)
  refine ⟨?_, h.taker, fun f hf => ?_, ?_⟩
  · show (own ++ (applied ++ [fill]) ++ due'.filter fun f => decide (f.makerOrderId = order.id)).Perm _
    rw [← List.append_assoc own, List.append_assoc (own ++ applied), List.singleton_append]
    exact (hfilter.symm.append_left (own ++ applied)).trans h.all
  · rcases List.mem_append.mp hf with hold | hlast
    · exact h.maker f hold
    · rw [List.mem_singleton.mp hlast]
      exact hmaker
  · show order.filledQuantity + fill.quantity = _
    rw [h.filled, quantityOf_append, quantityOf_singleton, add_assoc]

/-- A fill is applied to another order. -/
theorem other (h : Counts fills due order own applied) (hdue : due.Perm (fill :: due'))
    (hmaker : fill.makerOrderId ≠ order.id) : Counts fills due' order own applied := by
  have hfilter : (due.filter fun f => decide (f.makerOrderId = order.id)).Perm
      (due'.filter fun f => decide (f.makerOrderId = order.id)) := by
    refine (hdue.filter _).trans (List.Perm.of_eq ?_)
    exact List.filter_cons_of_neg (by simpa using hmaker)
  exact ⟨(hfilter.symm.append_left _).trans h.all, h.taker, h.maker, h.filled⟩

/-- **The lock that is left** once nothing is due. -/
theorem lockAfter_eq (h : Counts fills [] order own applied) :
    lockLeft service order own applied = lockAfter service order fills := by
  have hall : (own ++ applied).Perm (fills.filter fun f => f.names order.id) := by
    have hall := h.all
    rw [List.filter_nil, List.append_nil] at hall
    exact hall
  have hown : own.Perm (fills.filter fun f => decide (f.names order.id ∧ f.makerOrderId ≠ order.id)) := by
    have hpart := hall.filter fun f => decide (f.makerOrderId ≠ order.id)
    have hleft : own.filter (fun f => decide (f.makerOrderId ≠ order.id)) = own :=
      List.filter_eq_self.mpr fun f hf => decide_eq_true (h.taker f hf)
    have hright : applied.filter (fun f => decide (f.makerOrderId ≠ order.id)) = [] :=
      List.filter_eq_nil_iff.mpr fun f hf hne => of_decide_eq_true hne (h.maker f hf)
    rw [List.filter_append, hleft, hright, List.append_nil, List.filter_filter] at hpart
    refine hpart.trans (List.Perm.of_eq (List.filter_congr fun f _ => ?_))
    rw [Bool.decide_and, Bool.decide_eq_true, Bool.and_comm]
  have happlied : applied.Perm (fills.filter fun f => decide (f.makerOrderId = order.id)) := by
    have hpart := hall.filter fun f => decide (f.makerOrderId = order.id)
    have hleft : own.filter (fun f => decide (f.makerOrderId = order.id)) = [] :=
      List.filter_eq_nil_iff.mpr fun f hf heq => h.taker f hf (of_decide_eq_true heq)
    have hright : applied.filter (fun f => decide (f.makerOrderId = order.id)) = applied :=
      List.filter_eq_self.mpr fun f hf => decide_eq_true (h.maker f hf)
    rw [List.filter_append, hleft, hright, List.nil_append, List.filter_filter] at hpart
    refine hpart.trans (List.Perm.of_eq (List.filter_congr fun f _ => ?_))
    rw [Fill.names]
    by_cases hid : f.makerOrderId = order.id
    · simp [hid]
    · simp [hid]
  exact lockLeft_perm hown happlied

end Counts

/-! ### Objects -/

/-- **An order that is kept**: its lock is what its fills leave of it. -/
structure Kept (service : TradingService) (fills due : List Fill) (order : StoredOrder) : Prop where
  quantity : 0 ≤ order.quantity
  status : order.quantity ≤ order.filledQuantity → order.status = .filled
  counts : ∃ own applied, Counts fills due order own applied ∧ order.lockedAmount = lockLeft service order own applied

/-- **An order that is complete**, and what its fills have left of its lock is unlocked. -/
structure Closed (service : TradingService) (fills due : List Fill) (served : List WalletRequest) (order : StoredOrder) :
    Prop where
  complete : order.quantity ≤ order.filledQuantity
  emptied : order.lockedAmount = 0
  counts : ∃ own applied, Counts fills due order own applied ∧ (0 < lockLeft service order own applied →
    .unlock (TradingService.mutationOf order (lockLeft service order own applied)) ∈ served)

variable {served served' : List WalletRequest} {report : ExecutionReport}

theorem Kept.traded (h : Kept service fills due order) {more : List Fill} (hdue : due'.Perm (due ++ more))
    (hnew : ∀ f ∈ more, f.takerOrderId ≠ order.id) : Kept service (fills ++ more) due' order := by
  obtain ⟨own, applied, hcounts, hlock⟩ := h.counts
  exact ⟨h.quantity, h.status, own, applied, hcounts.traded hdue hnew, hlock⟩

theorem Kept.other (h : Kept service fills due order) (hdue : due.Perm (fill :: due'))
    (hmaker : fill.makerOrderId ≠ order.id) : Kept service fills due' order := by
  obtain ⟨own, applied, hcounts, hlock⟩ := h.counts
  exact ⟨h.quantity, h.status, own, applied, hcounts.other hdue hmaker, hlock⟩

/-- **A fill is applied to the order**, and taken off its lock. -/
theorem Kept.apply (h : Kept service fills due order) (hdue : due.Perm (fill :: due'))
    (hmaker : fill.makerOrderId = order.id) (incoming : StoredOrder) :
    Kept service fills due' (service.fillMaker order (service.toTrade incoming fill)) := by
  obtain ⟨own, applied, hcounts, hlock⟩ := h.counts
  refine ⟨h.quantity, fillMaker_filled_iff.mpr, own, applied ++ [fill], hcounts.apply hdue hmaker incoming, ?_⟩
  show order.lockedAmount - consumedLockForFill order.side fill.price fill.quantity service.makerFeeBps
    = lockLeft service order own (applied ++ [fill])
  rw [hlock, lockLeft_snoc]

/-- **A new order**: all fills that name it are its own. -/
theorem Kept.opened (hunfilled : order.filledQuantity = 0)
    (hown : ∀ f ∈ report.fills, f.takerOrderId = order.id ∧ f.makerOrderId ≠ order.id ∧ 0 < f.quantity)
    (hbefore : ∀ f ∈ fills, f.names order.id = false) (hdue : ∀ f ∈ due, f.makerOrderId ≠ order.id)
    (hrests : shouldRest (service.filledBy order report) = true) :
    Kept service (fills ++ report.fills) due { service.filledBy order report with
      lockedAmount := remainingLock (service.filledBy order report) (splitSymbol order.symbol).2
        service.takerFeeBps } := by
  have hfilled : (service.filledBy order report).filledQuantity = quantityOf report.fills := by
    rw [TradingService.filledBy_filledQuantity, hunfilled, zero_add]
    rfl
  have hopen : (service.filledBy order report).filledQuantity < order.quantity :=
    sub_pos.mp (of_decide_eq_true (Bool.and_eq_true_iff.mp hrests).1)
  have hnonneg : 0 ≤ quantityOf report.fills :=
    List.sum_nonneg fun q hq => by
      obtain ⟨f, hf, rfl⟩ := List.mem_map.mp hq
      exact (hown f hf).2.2.le
  have hnamed : (fills ++ report.fills).filter (fun f => f.names order.id) = report.fills := by
    have hnone : fills.filter (fun f => f.names order.id) = [] :=
      List.filter_eq_nil_iff.mpr fun f hf => Bool.not_eq_true _ ▸ hbefore f hf
    rw [List.filter_append, hnone, List.nil_append]
    exact List.filter_eq_self.mpr fun f hf => decide_eq_true (Or.inr (hown f hf).1)
  have hnone : due.filter (fun f => decide (f.makerOrderId = order.id)) = [] :=
    List.filter_eq_nil_iff.mpr fun f hf heq => hdue f hf (of_decide_eq_true heq)
  refine ⟨?_, fun hfull => absurd hfull (not_le.mpr hopen), report.fills, [],
    ⟨?_, fun f hf => (hown f hf).2.1, ?_, ?_⟩, ?_⟩
  · show 0 ≤ order.quantity
    linarith
  · show (report.fills ++ [] ++ due.filter fun f : Fill => f.makerOrderId = order.id).Perm
      ((fills ++ report.fills).filter fun f => f.names order.id)
    rw [hnone, hnamed, List.append_nil, List.append_nil]
  · intro f hf
    cases hf
  · show (service.filledBy order report).filledQuantity = quantityOf report.fills + 0
    rw [hfilled, add_zero]
  · show remainingLock (service.filledBy order report) _ _ = remainingLock _ _ _ - 0
    rw [sub_zero, ← hfilled]
    rfl

/-- **The lock of an order that is complete** is unlocked. -/
theorem Kept.close (h : Kept service fills due order) (hcomplete : order.quantity ≤ order.filledQuantity)
    (hunlocked : order.lockedAmount ≤ 0 ∨
      .unlock (TradingService.mutationOf order order.lockedAmount) ∈ served) :
    Closed service fills due served { order with lockedAmount := 0 } := by
  obtain ⟨own, applied, hcounts, hlock⟩ := h.counts
  refine ⟨hcomplete, rfl, own, applied, hcounts.same rfl rfl, fun hleft => ?_⟩
  have hleft : 0 < lockLeft service order own applied := hleft
  rw [← hlock] at hleft
  have hserved := hunlocked.resolve_left (not_le.mpr hleft)
  rw [hlock] at hserved
  exact hserved

theorem Closed.traded (h : Closed service fills due served order) {more : List Fill} (hdue : due'.Perm (due ++ more))
    (hnew : ∀ f ∈ more, f.takerOrderId ≠ order.id) : Closed service (fills ++ more) due' served order := by
  obtain ⟨own, applied, hcounts, hlock⟩ := h.counts
  exact ⟨h.complete, h.emptied, own, applied, hcounts.traded hdue hnew, hlock⟩

theorem Closed.other (h : Closed service fills due served order) (hdue : due.Perm (fill :: due'))
    (hmaker : fill.makerOrderId ≠ order.id) : Closed service fills due' served order := by
  obtain ⟨own, applied, hcounts, hlock⟩ := h.counts
  exact ⟨h.complete, h.emptied, own, applied, hcounts.other hdue hmaker, hlock⟩

theorem Closed.mono (h : Closed service fills due served order) (hserved : served ⊆ served') :
    Closed service fills due served' order := by
  obtain ⟨own, applied, hcounts, hlock⟩ := h.counts
  exact ⟨h.complete, h.emptied, own, applied, hcounts, fun hleft => hserved (hlock hleft)⟩

end Counts

/-! ### No order fills more than its quantity -/

section Bounded

variable {parse : DecimalParser} {service : TradingService} {remote : Remote} {order : StoredOrder}

/-- The engine fills no more of an order than its quantity. -/
theorem Engaged.filled_le (he : Engaged remote) (hexact : parse.Exact) (hknown : Known parse service remote.handled order)
    (hquantity : 0 ≤ order.quantity) : filledOf remote.fills order.id ≤ order.quantity := by
  obtain ⟨g, hg, -, hid, -, hsent⟩ := hknown.submission
  have hrequest := engineOrder_spec hexact hsent
  have hbuilt : ∀ request ∈ requestsAt remote.handled g.symbol, request.Built := by
    intro request hmem
    obtain ⟨g', hg', -, rfl⟩ := mem_requestsAt.mp hmem
    exact he.built g' hg'
  have hbounded := (he.history g.symbol).bounded (he.request_ids g.symbol) (mem_requestsAt.mpr ⟨g, hg, rfl, rfl⟩) hbuilt
    (by rw [hrequest.quantity]; exact hquantity)
  rw [hrequest.quantity] at hbounded
  have hreported := filledOf_reported he hg
  rw [← hid]
  exact hreported.trans hbounded

/-- **An order that is complete has no fill left to apply.** -/
theorem Counts.open_of_due {fills due own applied : List Fill} {fill : Fill} (h : Counts fills due order own applied)
    (hpos : ∀ f ∈ due, 0 < f.quantity) (hbounded : filledOf fills order.id ≤ order.quantity) (hdue : fill ∈ due)
    (hmaker : fill.makerOrderId = order.id) : order.filledQuantity < order.quantity := by
  have hmem : fill ∈ due.filter fun f => decide (f.makerOrderId = order.id) :=
    List.mem_filter.mpr ⟨hdue, decide_eq_true hmaker⟩
  have hpart : fill.quantity ≤ quantityOf (due.filter fun f => decide (f.makerOrderId = order.id)) := by
    refine List.single_le_sum (fun q hq => ?_) _ (List.mem_map_of_mem hmem)
    obtain ⟨f, hf, rfl⟩ := List.mem_map.mp hq
    exact (hpos f (List.mem_filter.mp hf).1).le
  have htotal := h.total
  have hpositive := hpos fill hdue
  linarith

end Bounded

end NexusTrade.Trading
