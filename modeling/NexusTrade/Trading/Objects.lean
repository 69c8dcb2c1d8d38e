import NexusTrade.Trading.Interleaved

/-!
# The objects of orders

What one fill does to the orders in memory, where no other call proceeds: `applyFillToLocalOrders` of
`services/trading-service/src/services/trading.service.ts`.

* **`Memory.change_at`** and **`Memory.splice_at`**: an object among `orders` is assigned to, and taken out;
* **`FillApplied`**: the maker is not among `orders`, or stays there, or is filled and taken out;
* **`FillApplied.ids`**: no object is lost.
-/

namespace NexusTrade.Trading

open MatchingEngine (Fill ExecutionReport)

/-! ### One object -/

namespace Memory

variable {memory : Memory} {pre post : List StoredOrder} {maker : StoredOrder}

/-- The identifiers of the objects. -/
def ids (memory : Memory) : List String := memory.objects.map StoredOrder.id

theorem object_eq (hids : memory.ids.Nodup) {order : StoredOrder} (h : order ∈ memory.objects) :
    memory.object order.id = some order := by
  have hpairwise := List.pairwise_map.mp hids
  rw [object]
  obtain ⟨pre, post, heq⟩ := List.append_of_mem h
  rw [heq] at hpairwise ⊢
  refine List.find?_eq_some_iff_append.mpr ⟨decide_eq_true rfl, pre, post, rfl, fun old hold => ?_⟩
  have hne : old.id ≠ order.id := (List.pairwise_append.mp hpairwise).2.2 old hold order
    (List.mem_cons_self)
  rw [decide_eq_false hne]
  rfl

/-- The objects around one of those among `orders`. -/
theorem objects_at (memory : Memory) (h : memory.orders = pre ++ maker :: post) :
    memory.objects = pre ++ maker :: (post ++ memory.spliced) := by
  rw [objects, h, List.append_assoc, List.cons_append]

/-- The other objects have other identifiers. -/
theorem ids_ne (h : memory.orders = pre ++ maker :: post) (hids : memory.ids.Nodup) :
    ∀ order ∈ pre ++ (post ++ memory.spliced), order.id ≠ maker.id := by
  have hpairwise := List.pairwise_map.mp hids
  rw [objects_at memory h] at hpairwise
  obtain ⟨_, hcons, hbetween⟩ := List.pairwise_append.mp hpairwise
  intro order horder
  rcases List.mem_append.mp horder with hpre | hpost
  · exact hbetween order hpre maker List.mem_cons_self
  · exact fun heq => (List.pairwise_cons.mp hcons).1 order hpost heq.symm

/-- The identifiers, where another object with the same identifier stands in the place of one. -/
theorem ids_at (memory : Memory) (h : memory.orders = pre ++ maker :: post) (maker' : StoredOrder)
    (hid : maker'.id = maker.id) : ids { memory with orders := pre ++ maker' :: post } = memory.ids := by
  rw [ids, ids, objects_at memory h, objects_at { memory with orders := _ } rfl, List.map_append, List.map_append,
    List.map_cons, List.map_cons, hid]

/-- The identifiers, where an object is taken out of `orders`. -/
theorem ids_out (memory : Memory) (h : memory.orders = pre ++ maker :: post) (maker' : StoredOrder)
    (hid : maker'.id = maker.id) :
    (ids { memory with orders := pre ++ post, spliced := memory.spliced ++ [maker'] }).Perm memory.ids := by
  have hids : (pre ++ post ++ (memory.spliced ++ [maker'])).map StoredOrder.id
      = (pre ++ (post ++ memory.spliced)).map StoredOrder.id ++ [maker.id] := by
    simp only [List.map_append, List.append_assoc, List.map_cons, List.map_nil, hid]
  have hmiddle : (maker :: (pre ++ (post ++ memory.spliced))).Perm
      (pre ++ maker :: (post ++ memory.spliced)) := List.perm_middle.symm
  rw [ids, ids, objects_at memory h, objects, hids]
  exact (List.perm_append_singleton _ _).trans (hmiddle.map StoredOrder.id)

/-- Assigning to an object leaves those with other identifiers. -/
theorem map_ne {orders : List StoredOrder} {id : String} (h : ∀ order ∈ orders, order.id ≠ id)
    (f : StoredOrder → StoredOrder) :
    (orders.map fun order => if order.id = id then f order else order) = orders := by
  rw [List.map_congr_left fun order horder => if_neg (h order horder), List.map_id']

/-- **An object among `orders` is assigned to.** -/
theorem change_at (h : memory.orders = pre ++ maker :: post) (hids : memory.ids.Nodup)
    (f : StoredOrder → StoredOrder) :
    memory.change maker.id f = { memory with orders := pre ++ f maker :: post } := by
  have hne := ids_ne h hids
  have hpre := map_ne (fun order ho => hne order (List.mem_append_left _ ho)) f
  have hpost := map_ne (fun order ho => hne order (List.mem_append_right _ (List.mem_append_left _ ho))) f
  have hspliced := map_ne (fun order ho => hne order (List.mem_append_right _ (List.mem_append_right _ ho))) f
  rw [change, h, List.map_append, List.map_cons, if_pos rfl, hpre, hpost, hspliced]

/-- **An object among `orders` is taken out.** -/
theorem splice_at (memory : Memory) (maker : StoredOrder) (h : memory.orders = pre ++ maker :: post)
    (hpre : ∀ order ∈ pre, order.id ≠ maker.id) :
    memory.splice maker.id
      = { memory with orders := pre ++ post, spliced := memory.spliced ++ [maker] } := by
  have hfind : memory.orders.findIdx? (fun order => decide (order.id = maker.id)) = some pre.length := by
    rw [h, List.findIdx?_append, List.findIdx?_eq_none_iff.mpr fun order ho => decide_eq_false (hpre order ho),
      List.findIdx?_cons]
    simp only [decide_true, Option.none_or, if_true, Option.map_some, Nat.zero_add]
  rw [splice, hfind, h]
  dsimp only
  rw [List.eraseIdx_append_of_length_le (Nat.le_refl _), Nat.sub_self, List.getElem?_append_right (Nat.le_refl _),
    Nat.sub_self]
  rfl

/-- The lock of an object among `orders` is emptied, and the object taken out. -/
theorem empty_at (memory : Memory) (maker : StoredOrder) (h : memory.orders = pre ++ maker :: post)
    (hids : memory.ids.Nodup) :
    (memory.change maker.id fun maker => { maker with lockedAmount := 0 }).splice maker.id
      = { memory with
          orders := pre ++ post
          spliced := memory.spliced ++ [{ maker with lockedAmount := 0 }] } := by
  rw [change_at h hids]
  refine splice_at { memory with orders := _ } { maker with lockedAmount := 0 } rfl ?_
  exact fun order horder => ids_ne h hids order (List.mem_append_left _ horder)

/-- The maker of a fill, if it is among `orders`. -/
theorem find_at {id : String} (h : memory.orders.find? (fun order => decide (order.id = id)) = some maker) :
    maker.id = id ∧ ∃ pre post, memory.orders = pre ++ maker :: post := by
  obtain ⟨hid, pre, post, heq, _⟩ := List.find?_eq_some_iff_append.mp h
  exact ⟨of_decide_eq_true hid, pre, post, heq⟩

theorem find_none {id : String} :
    memory.orders.find? (fun order => decide (order.id = id)) = none ↔ ∀ order ∈ memory.orders, order.id ≠ id := by
  rw [List.find?_eq_none]
  exact forall₂_congr fun order _ => not_congr decide_eq_true_iff

end Memory

/-! ### One fill -/

section Fills

variable {service : TradingService} {order : StoredOrder} {fill : Fill} {memory memory' : Memory}

/-- **What a fill does to the objects**: `applyFillToLocalOrders`. -/
inductive FillApplied (service : TradingService) (order : StoredOrder) (memory : Memory) (fill : Fill) :
    Memory → Prop
  | unknown (absent : ∀ o ∈ memory.orders, o.id ≠ fill.makerOrderId) :
      FillApplied service order memory fill memory
  | kept (pre post : List StoredOrder) (maker : StoredOrder) (found : memory.orders = pre ++ maker :: post)
      (named : maker.id = fill.makerOrderId)
      (opens : maker.filledQuantity + fill.quantity < maker.quantity) :
      FillApplied service order memory fill
        { memory with orders := pre ++ service.fillMaker maker (service.toTrade order fill) :: post }
  | filled (pre post : List StoredOrder) (maker : StoredOrder) (found : memory.orders = pre ++ maker :: post)
      (named : maker.id = fill.makerOrderId)
      (closes : maker.quantity ≤ maker.filledQuantity + fill.quantity) :
      FillApplied service order memory fill
        { memory with
          orders := pre ++ post
          spliced := memory.spliced ++
            [{ service.fillMaker maker (service.toTrade order fill) with lockedAmount := 0 }] }

/-- When a maker is filled. -/
theorem fillMaker_filled_iff {maker : StoredOrder} :
    (service.fillMaker maker (service.toTrade order fill)).status = .filled ↔
      maker.quantity ≤ maker.filledQuantity + fill.quantity := by
  show (if maker.quantity ≤ maker.filledQuantity + fill.quantity then OrderStatus.filled else .partiallyFilled)
    = .filled ↔ _
  split
  · rename_i h
    exact iff_of_true rfl h
  · rename_i h
    exact iff_of_false (fun heq => nomatch heq) h

/-- **No object is lost**, and none is added. -/
theorem FillApplied.ids (h : FillApplied service order memory fill memory') : memory'.ids.Perm memory.ids := by
  cases h with
  | unknown absent => exact List.Perm.refl _
  | kept pre post maker found named opens => exact List.Perm.of_eq (Memory.ids_at memory found _ rfl)
  | filled pre post maker found named closes => exact Memory.ids_out memory found _ rfl

end Fills

end NexusTrade.Trading
