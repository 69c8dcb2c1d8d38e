import Mathlib.Algebra.Order.BigOperators.Group.List
import NexusTrade.Trading.Locks
import NexusTrade.Trading.Threads

/-!
# What the service knows of fills

The objects of orders that rest, and what they say of the fills that the engine has made: each object counts some
fills of its order, the calls have still to apply others, and no fill is both or is counted twice.

* **`Shares`** and **`Account`**: the fills that an object counts, and what is left of its lock;
* **`Account.mono`**, **`Account.applied`** and **`Account.emptied`**: more fills, a fill that is applied to its maker, and
  a lock that is emptied.
-/

namespace NexusTrade.Trading

open MatchingEngine (Side Decimal Fill ExecutionReport Core OrderBook History orderIds filledOf)

/-! ### Accounts -/

def quantityOf (fills : List Fill) : Decimal := (fills.map Fill.quantity).sum

/-- What some fills have consumed of the lock of their maker. -/
def consumedOf (service : TradingService) (side : Side) (fills : List Fill) : Decimal :=
  (fills.map fun f => consumedLockForFill side f.price f.quantity service.makerFeeBps).sum

/-- What is left of the lock of an order that has traded as taker and then as maker. -/
def lockLeft (service : TradingService) (order : StoredOrder) (own applied : List Fill) : Decimal :=
  remainingLock { order with filledQuantity := quantityOf own } (splitSymbol order.symbol).2
    service.takerFeeBps - consumedOf service order.side applied

/-- **The fills that an object counts**: its own as taker, and those applied to it as maker.  Among all fills these
and the ones that are due are different ones. -/
structure Shares (fills due : List Fill) (order : StoredOrder) (own applied : List Fill) : Prop where
  distinct : (own ++ applied ++ due.filter fun f => f.makerOrderId = order.id).Subperm
    (fills.filter fun f => f.names order.id)
  taker : ∀ f ∈ own, f.makerOrderId ≠ order.id
  maker : ∀ f ∈ applied, f.makerOrderId = order.id
  filled : order.filledQuantity = quantityOf own + quantityOf applied

/-- **The account of an object**: its lock is what the fills that it counts leave of it, unless the order is
complete or a cancellation has released the lock. -/
structure Account (service : TradingService) (fills due : List Fill) (released : List String)
    (order : StoredOrder) : Prop where
  shares : ∃ own applied, Shares fills due order own applied ∧
    (order.id ∈ released ∨ order.quantity ≤ order.filledQuantity ∨
      order.lockedAmount = lockLeft service order own applied)
  status : order.status = .filled → order.quantity ≤ order.filledQuantity

variable {service : TradingService} {fills fills' due due' : List Fill} {released released' : List String}
  {order : StoredOrder}

theorem quantityOf_append (fs gs : List Fill) : quantityOf (fs ++ gs) = quantityOf fs + quantityOf gs := by
  rw [quantityOf, List.map_append, List.sum_append]
  rfl

theorem consumedOf_append (side : Side) (fs gs : List Fill) :
    consumedOf service side (fs ++ gs) = consumedOf service side fs + consumedOf service side gs := by
  rw [consumedOf, List.map_append, List.sum_append]
  rfl

/-- More fills, and less that is due. -/
theorem Account.mono (h : Account service fills due released order) {more extra : List Fill}
    (hfills : fills' = fills ++ more) (hdue : due'.Subperm (due ++ extra)) (hextra : extra.Sublist more)
    (hreleased : released ⊆ released') : Account service fills' due' released' order := by
  obtain ⟨own, applied, hshares, hlock⟩ := h.shares
  refine ⟨⟨own, applied, ⟨?_, hshares.taker, hshares.maker, hshares.filled⟩, ?_⟩, h.status⟩
  · have hdue' : (due'.filter fun f => f.makerOrderId = order.id).Subperm
        ((due.filter fun f => f.makerOrderId = order.id) ++
          extra.filter fun f => f.makerOrderId = order.id) := by
      rw [← List.filter_append]
      exact hdue.filter _
    have hextra' : (extra.filter fun f => f.makerOrderId = order.id).Sublist
        (more.filter fun f => f.names order.id) := by
      refine List.Sublist.trans (List.monotone_filter_right _ fun f hf => ?_) (hextra.filter _)
      exact decide_eq_true (Or.inl (of_decide_eq_true hf))
    rw [hfills, List.filter_append]
    refine List.Subperm.trans ((List.subperm_append_left _).mpr hdue') ?_
    rw [← List.append_assoc]
    exact List.Subperm.append hshares.distinct hextra'.subperm
  · rcases hlock with hin | hlock
    · exact Or.inl (hreleased hin)
    · exact Or.inr hlock

/-- **A fill is applied to its maker.** -/
theorem Account.applied (h : Account service fills due released order) {fill : Fill}
    (hdue : due.Perm (fill :: due')) (hmaker : fill.makerOrderId = order.id) (hpositive : 0 < fill.quantity)
    (incoming : StoredOrder) :
    Account service fills due' released (service.fillMaker order (service.toTrade incoming fill)) := by
  obtain ⟨own, applied, hshares, hlock⟩ := h.shares
  have hquantity : quantityOf (applied ++ [fill]) = quantityOf applied + fill.quantity := by
    rw [quantityOf_append]
    show _ + (fill.quantity + 0) = _
    rw [add_zero]
  refine ⟨⟨own, applied ++ [fill], ⟨?_, hshares.taker, ?_, ?_⟩, ?_⟩, fun hstatus => ?_⟩
  · refine List.Subperm.trans (List.Perm.subperm ?_) hshares.distinct
    have hfilter : (due.filter fun f => f.makerOrderId = order.id).Perm
        (fill :: due'.filter fun f => f.makerOrderId = order.id) := by
      refine (hdue.filter _).trans (List.Perm.of_eq ?_)
      exact List.filter_cons_of_pos (by simpa using hmaker)
    show (own ++ (applied ++ [fill]) ++ due'.filter fun f => f.makerOrderId = order.id).Perm _
    rw [← List.append_assoc own, List.append_assoc (own ++ applied), List.singleton_append]
    exact (List.Perm.refl _).append hfilter.symm
  · intro f hf
    rcases List.mem_append.mp hf with hf | hf
    · exact hshares.maker f hf
    · rw [List.mem_singleton.mp hf]
      exact hmaker
  · show order.filledQuantity + fill.quantity = _
    rw [hshares.filled, hquantity, add_assoc]
  · rcases hlock with hin | hfull | hlock
    · exact Or.inl hin
    · refine Or.inr (Or.inl ?_)
      show order.quantity ≤ order.filledQuantity + fill.quantity
      linarith
    · refine Or.inr (Or.inr ?_)
      show order.lockedAmount - consumedLockForFill order.side fill.price fill.quantity service.makerFeeBps
        = remainingLock _ _ _ - consumedOf service order.side (applied ++ [fill])
      rw [hlock, lockLeft, consumedOf_append]
      show _ - _ - _ = _ - (_ + (consumedLockForFill order.side fill.price fill.quantity service.makerFeeBps + 0))
      rw [add_zero, sub_sub]
      rfl
  · have hstatus : (if order.filledQuantity + fill.quantity ≥ order.quantity then OrderStatus.filled
        else .partiallyFilled) = .filled := hstatus
    show order.quantity ≤ order.filledQuantity + fill.quantity
    split at hstatus
    · assumption
    · cases hstatus

/-- The lock is emptied. -/
theorem Account.emptied (h : Account service fills due released order)
    (hdone : order.quantity ≤ order.filledQuantity ∨ order.id ∈ released) (status : OrderStatus)
    (hstatus : status = order.status ∨ status = .cancelled) :
    Account service fills due released { order with lockedAmount := 0, status := status } := by
  obtain ⟨own, applied, hshares, _⟩ := h.shares
  refine ⟨⟨own, applied, ⟨hshares.distinct, hshares.taker, hshares.maker, hshares.filled⟩, ?_⟩, fun hf => ?_⟩
  · rcases hdone with hfull | hin
    · exact Or.inr (Or.inl hfull)
    · exact Or.inl hin
  · have hf : status = .filled := hf
    rcases hstatus with hsame | hcancelled
    · exact h.status (hsame ▸ hf)
    · rw [hcancelled] at hf
      cases hf

end NexusTrade.Trading
