import Mathlib.Tactic.Ring
import NexusTrade.MatchingEngine.Accessors

/-!
# The representation invariant of the order book

`Inv book` says how the seven components of a book fit together: what a level holds, what the index
and the status log say about queued and pending orders, that the book is not crossed and that the
queues are in order of arrival.  It is stated with lookups, so that each operation is one case split
on the key it writes:

* **`Inv.of_same`**: what does not touch the levels, the index and the stop orders keeps it;
* **`Inv.of_levelChange`**: replacing one level by one with fewer orders keeps it (a trade, a cancel);
* **`Inv.of_levelGrow`**: appending an order that crosses nothing keeps it (`rest`).
-/

namespace NexusTrade.MatchingEngine

/-- The identifiers of a list of orders. -/
def orderIds (orders : List Order) : List String := orders.map Order.orderId

theorem orderIds_cons (o : Order) (orders : List Order) :
    orderIds (o :: orders) = o.orderId :: orderIds orders := rfl

theorem mem_orderIds {o : Order} {orders : List Order} (h : o ∈ orders) :
    o.orderId ∈ orderIds orders :=
  List.mem_map_of_mem h

/-- The remaining quantities of a list of orders, added up. -/
def totalRemaining (orders : List Order) : Decimal := (orders.map Order.remainingQuantity).sum

/-- What a level of a side holds. -/
structure LevelInv (side : Side) (price : Decimal) (bound : ℕ) (level : PriceLevel) : Prop where
  price_eq : level.price = price
  nonempty : level.orders ≠ []
  own : ∀ o ∈ level.orders, o.side = side ∧ o.price = some price ∧ 0 < o.remainingQuantity
  total : level.totalQuantity = totalRemaining level.orders
  increasing : (level.orders.map Order.sequence).Pairwise (· < ·)
  bounded : ∀ o ∈ level.orders, o.sequence ≤ bound
  ids : (orderIds level.orders).Nodup

theorem LevelInv.mono {side : Side} {price : Decimal} {m n : ℕ} {level : PriceLevel} (hmn : m ≤ n)
    (h : LevelInv side price m level) : LevelInv side price n level :=
  { h with bounded := fun o ho => (h.bounded o ho).trans hmn }

/-- What a pending stop order is. -/
structure PendingInv (book : OrderBook) (o : Order) : Prop where
  stopPrice : o.stopPrice.isSome
  kind : o.kind.isStop
  price : requiresPrice o.kind → o.price.isSome
  positive : 0 < o.remainingQuantity
  status : book.status.find o.orderId = some (.pendingStop, 0)
  unindexed : book.orderIndex.find o.orderId = none

/-- **The representation invariant.** -/
structure Inv (book : OrderBook) : Prop where
  level : ∀ side price l, book.level side price = some l → LevelInv side price book.nextSequence l
  index : ∀ id side price, book.orderIndex.find id = some (side, price) ↔
    ∃ l, book.level side price = some l ∧ id ∈ orderIds l.orders
  uncrossed : ∀ bid ask lb la, book.level .buy bid = some lb → book.level .sell ask = some la →
    bid < ask
  pending : ∀ o ∈ book.stopOrders, PendingInv book o
  pendingIds : (orderIds book.stopOrders).Nodup

theorem inv_default : Inv OrderBook.default where
  level := fun side price l h => by cases side <;> cases h
  index := fun id side price => by
    constructor
    · intro h
      cases h
    · rintro ⟨l, h, _⟩
      cases side <;> cases h
  uncrossed := fun bid ask lb la h => by cases h
  pending := fun o ho => by cases ho
  pendingIds := List.nodup_nil

/-! ### Updates that keep the levels -/

/-- What touches neither the levels, the index nor the stop orders, and keeps the status entries of
the stop orders, keeps the invariant. -/
theorem Inv.of_same {b b' : OrderBook} (h : Inv b) (hlevels : ∀ side, b'.levels side = b.levels side)
    (hindex : b'.orderIndex = b.orderIndex) (hstops : b'.stopOrders = b.stopOrders)
    (hseq : b.nextSequence ≤ b'.nextSequence)
    (hstatus : ∀ o ∈ b.stopOrders, b'.status.find o.orderId = some (.pendingStop, 0)) : Inv b' := by
  have hlevel : ∀ side price, b'.level side price = b.level side price := fun side price =>
    OrderBook.level_congr (hlevels side) price
  refine ⟨?_, ?_, ?_, ?_, ?_⟩
  · intro side price l hl
    rw [hlevel] at hl
    exact (h.level side price l hl).mono hseq
  · intro id side price
    rw [hindex, h.index]
    simp only [hlevel]
  · intro bid ask lb la hb ha
    rw [hlevel] at hb ha
    exact h.uncrossed bid ask lb la hb ha
  · intro o ho
    rw [hstops] at ho
    exact { h.pending o ho with
      status := hstatus o ho
      unindexed := by rw [hindex]; exact (h.pending o ho).unindexed }
  · rw [hstops]
    exact h.pendingIds

theorem Inv.pruneStatusLog {b : OrderBook} (h : Inv b) : Inv b.pruneStatusLog :=
  h.of_same (by simp) (by simp) (by simp) (by simp)
    fun o ho => b.find_pruneStatusLog_pending (h.pending o ho).status

theorem Inv.pruneAuditLog {b : OrderBook} (h : Inv b) : Inv b.pruneAuditLog :=
  h.of_same (by simp) (by simp) (by simp) (by simp) fun o ho => by
    rw [OrderBook.pruneAuditLog_status]
    exact (h.pending o ho).status

theorem Inv.nextSequenced {b : OrderBook} (h : Inv b) : Inv b.nextSequenced :=
  h.of_same (by simp) (by simp) (by simp) (by simp) fun o ho => (h.pending o ho).status

/-- Logging the status of an order that is not pending keeps the invariant. -/
theorem Inv.setStatus {b : OrderBook} (h : Inv b) {id : String} (hid : id ∉ orderIds b.stopOrders)
    (st : OrderStatus) (q : Decimal) : Inv (b.setStatus id st q) :=
  h.of_same (by simp) (by simp) (by simp) (by simp) fun o ho => by
    have hne : o.orderId ≠ id := fun e => hid (e ▸ List.mem_map_of_mem ho)
    rw [OrderBook.find_setStatus, if_neg hne]
    exact (h.pending o ho).status

/-- A queued order is not pending. -/
theorem Inv.queued_not_pending {b : OrderBook} (h : Inv b) {side : Side} {price : Decimal}
    {l : PriceLevel} (hl : b.level side price = some l) {id : String} (hid : id ∈ orderIds l.orders) :
    id ∉ orderIds b.stopOrders := by
  intro hp
  obtain ⟨o, ho, rfl⟩ := List.mem_map.mp hp
  have hind := (h.index o.orderId side price).mpr ⟨l, hl, hid⟩
  rw [(h.pending o ho).unindexed] at hind
  cases hind

/-- An identifier is queued at one level only. -/
theorem Inv.level_unique {b : OrderBook} (h : Inv b) {side side' : Side} {price price' : Decimal}
    {l l' : PriceLevel} (hl : b.level side price = some l) (hl' : b.level side' price' = some l')
    {id : String} (hid : id ∈ orderIds l.orders) (hid' : id ∈ orderIds l'.orders) :
    side' = side ∧ price' = price := by
  have h1 := (h.index id side price).mpr ⟨l, hl, hid⟩
  have h2 := (h.index id side' price').mpr ⟨l', hl', hid'⟩
  rw [h1] at h2
  cases h2
  exact ⟨rfl, rfl⟩

/-! ### A level with fewer orders -/

/-- **Replacing one level** by one the identifiers of which are among the old ones keeps the
invariant, if the index forgets what left and the level goes when it is empty. -/
theorem Inv.of_levelChange {b b' : OrderBook} {side : Side} {price : Decimal} {l : PriceLevel}
    (l' : PriceLevel) (h : Inv b) (hl : b.level side price = some l)
    (hlevel : ∀ s p, b'.level s p = if s = side ∧ p = price then
      (if l'.orders = [] then none else some l') else b.level s p)
    (hl' : l'.orders ≠ [] → LevelInv side price b.nextSequence l')
    (hsub : ∀ id ∈ orderIds l'.orders, id ∈ orderIds l.orders)
    (hindex : ∀ id, b'.orderIndex.find id
      = if id ∈ orderIds l.orders ∧ id ∉ orderIds l'.orders then none else b.orderIndex.find id)
    (hstops : b'.stopOrders = b.stopOrders) (hseq : b'.nextSequence = b.nextSequence)
    (hstatus : ∀ o ∈ b.stopOrders, b'.status.find o.orderId = some (.pendingStop, 0)) : Inv b' := by
  have hold : ∀ s p m, b'.level s p = some m →
      (s = side ∧ p = price ∧ m = l' ∧ l'.orders ≠ []) ∨
        (¬(s = side ∧ p = price) ∧ b.level s p = some m) := by
    intro s p m hm
    rw [hlevel] at hm
    by_cases hsp : s = side ∧ p = price
    · rw [if_pos hsp] at hm
      by_cases hempty : l'.orders = []
      · rw [if_pos hempty] at hm
        cases hm
      · rw [if_neg hempty] at hm
        cases hm
        exact Or.inl ⟨hsp.1, hsp.2, rfl, hempty⟩
    · rw [if_neg hsp] at hm
      exact Or.inr ⟨hsp, hm⟩
  have hexists : ∀ s p m, b'.level s p = some m → ∃ m', b.level s p = some m' := by
    intro s p m hm
    rcases hold s p m hm with ⟨rfl, rfl, _, _⟩ | ⟨_, hm⟩
    · exact ⟨l, hl⟩
    · exact ⟨m, hm⟩
  refine ⟨?_, ?_, ?_, ?_, ?_⟩
  · intro s p m hm
    rw [hseq]
    rcases hold s p m hm with ⟨rfl, rfl, rfl, hne⟩ | ⟨_, hm⟩
    · exact hl' hne
    · exact h.level s p m hm
  · intro id s p
    rw [hindex]
    constructor
    · intro hid
      split_ifs at hid with hgone
      obtain ⟨m, hm, hmem⟩ := (h.index id s p).mp hid
      by_cases hsp : s = side ∧ p = price
      · obtain ⟨rfl, rfl⟩ := hsp
        rw [hl] at hm
        cases hm
        have hmem' : id ∈ orderIds l'.orders := by
          by_contra hnot
          exact hgone ⟨hmem, hnot⟩
        have hne : l'.orders ≠ [] := by
          intro he
          rw [he] at hmem'
          cases hmem'
        exact ⟨l', by rw [hlevel, if_pos ⟨rfl, rfl⟩, if_neg hne], hmem'⟩
      · exact ⟨m, by rw [hlevel, if_neg hsp]; exact hm, hmem⟩
    · rintro ⟨m, hm, hmem⟩
      rcases hold s p m hm with ⟨rfl, rfl, rfl, _⟩ | ⟨hsp, hm⟩
      · rw [if_neg (fun hgone => hgone.2 hmem)]
        exact (h.index id s p).mpr ⟨l, hl, hsub id hmem⟩
      · have hnot : id ∉ orderIds l.orders := fun hid => hsp (h.level_unique hl hm hid hmem)
        rw [if_neg (fun hgone => hnot hgone.1)]
        exact (h.index id s p).mpr ⟨m, hm, hmem⟩
  · intro bid ask lb la hb ha
    obtain ⟨lb', hb'⟩ := hexists _ _ _ hb
    obtain ⟨la', ha'⟩ := hexists _ _ _ ha
    exact h.uncrossed bid ask lb' la' hb' ha'
  · intro o ho
    rw [hstops] at ho
    have hpend := h.pending o ho
    exact { hpend with
      status := hstatus o ho
      unindexed := by rw [hindex]; split_ifs <;> [rfl; exact hpend.unindexed] }
  · rw [hstops]
    exact h.pendingIds

/-! ### A level with one order more -/

/-- What the level of a price holds, if a price without a level counts as an empty level. -/
theorem Inv.levelOrEmpty {b : OrderBook} (h : Inv b) (side : Side) (price : Decimal) :
    (b.levelOrEmpty side price).price = price ∧
    (∀ o ∈ (b.levelOrEmpty side price).orders,
      o.side = side ∧ o.price = some price ∧ 0 < o.remainingQuantity) ∧
    (b.levelOrEmpty side price).totalQuantity = totalRemaining (b.levelOrEmpty side price).orders ∧
    ((b.levelOrEmpty side price).orders.map Order.sequence).Pairwise (· < ·) ∧
    (∀ o ∈ (b.levelOrEmpty side price).orders, o.sequence ≤ b.nextSequence) ∧
    (orderIds (b.levelOrEmpty side price).orders).Nodup ∧
    ∀ id, id ∈ orderIds (b.levelOrEmpty side price).orders ↔
      b.orderIndex.find id = some (side, price) := by
  rw [OrderBook.levelOrEmpty]
  cases hl : b.level side price with
  | none =>
      refine ⟨rfl, ?_, rfl, List.Pairwise.nil, ?_, List.nodup_nil, ?_⟩
      · intro o ho
        cases ho
      · intro o ho
        cases ho
      · intro id
        rw [h.index, hl]
        constructor
        · intro hid
          cases hid
        · rintro ⟨l, hl', _⟩
          cases hl'
  | some l =>
      obtain ⟨hprice, _, hown, htotal, hinc, hbound, hids⟩ := h.level _ _ _ hl
      refine ⟨hprice, hown, htotal, hinc, hbound, hids, ?_⟩
      intro id
      rw [h.index, hl]
      constructor
      · intro hid
        exact ⟨l, rfl, hid⟩
      · rintro ⟨l', hl', hid⟩
        cases hl'
        exact hid

/-- **Appending an order** to the level of its price keeps the invariant, if the order is new, arrived
after those queued there and is beyond every price of the opposite side. -/
theorem Inv.of_levelGrow {b b' : OrderBook} {side : Side} {price : Decimal} {order : Order}
    (h : Inv b)
    (hlevel : ∀ s p, b'.level s p = if s = side ∧ p = price then
      some ((b.levelOrEmpty side price).push order) else b.level s p)
    (hindex : ∀ id, b'.orderIndex.find id
      = if id = order.orderId then some (side, price) else b.orderIndex.find id)
    (hstops : b'.stopOrders = b.stopOrders) (hseq : b'.nextSequence = b.nextSequence)
    (hstatus : ∀ o ∈ b.stopOrders, b'.status.find o.orderId = some (.pendingStop, 0))
    (hown : order.side = side ∧ order.price = some price ∧ 0 < order.remainingQuantity)
    (hnew : b.orderIndex.find order.orderId = none) (hpend : order.orderId ∉ orderIds b.stopOrders)
    (hlast : ∀ o ∈ (b.levelOrEmpty side price).orders, o.sequence < order.sequence)
    (hbound : order.sequence ≤ b.nextSequence)
    (hbeyond : ∀ p l, b.level (opposite side) p = some l → ¬OrderBook.betterOrEqual side price p) :
    Inv b' := by
  obtain ⟨eprice, eown, etotal, einc, ebound, eids, eindex⟩ := h.levelOrEmpty side price
  have hold : ∀ s p m, b'.level s p = some m →
      (s = side ∧ p = price ∧ m = (b.levelOrEmpty side price).push order) ∨
        (¬(s = side ∧ p = price) ∧ b.level s p = some m) := by
    intro s p m hm
    rw [hlevel] at hm
    by_cases hsp : s = side ∧ p = price
    · rw [if_pos hsp] at hm
      cases hm
      exact Or.inl ⟨hsp.1, hsp.2, rfl⟩
    · rw [if_neg hsp] at hm
      exact Or.inr ⟨hsp, hm⟩
  have hids : orderIds ((b.levelOrEmpty side price).push order).orders
      = orderIds (b.levelOrEmpty side price).orders ++ [order.orderId] := by
    rw [PriceLevel.push, orderIds, List.map_append]
    rfl
  have hnotin : order.orderId ∉ orderIds (b.levelOrEmpty side price).orders := by
    intro hin
    rw [eindex, hnew] at hin
    cases hin
  refine ⟨?_, ?_, ?_, ?_, ?_⟩
  · intro s p m hm
    rw [hseq]
    rcases hold s p m hm with ⟨rfl, rfl, rfl⟩ | ⟨_, hm⟩
    · refine ⟨eprice, ?_, ?_, ?_, ?_, ?_, ?_⟩
      · simp [PriceLevel.push]
      · intro o ho
        rcases List.mem_append.mp ho with ho | ho
        · exact eown o ho
        · rw [List.mem_singleton.mp ho]
          exact hown
      · show (b.levelOrEmpty s p).totalQuantity + order.remainingQuantity = _
        simp [totalRemaining, etotal, PriceLevel.push]
      · show (((b.levelOrEmpty s p).orders ++ [order]).map Order.sequence).Pairwise (· < ·)
        rw [List.map_append, List.pairwise_append]
        refine ⟨einc, List.pairwise_singleton _ _, ?_⟩
        intro m hm n hn
        obtain ⟨o, ho, rfl⟩ := List.mem_map.mp hm
        rw [List.mem_singleton.mp hn]
        exact hlast o ho
      · intro o ho
        rcases List.mem_append.mp ho with ho | ho
        · exact ebound o ho
        · rw [List.mem_singleton.mp ho]
          exact hbound
      · rw [hids]
        exact List.nodup_append.mpr ⟨eids, by simp, by
          intro a ha c hc
          rw [List.mem_singleton.mp hc]
          rintro rfl
          exact hnotin ha⟩
    · exact h.level s p m hm
  · intro id s p
    rw [hindex]
    by_cases hid : id = order.orderId
    · subst hid
      rw [if_pos rfl]
      constructor
      · intro he
        cases he
        refine ⟨_, by rw [hlevel, if_pos ⟨rfl, rfl⟩], ?_⟩
        rw [hids]
        simp
      · rintro ⟨m, hm, hmem⟩
        rcases hold s p m hm with ⟨rfl, rfl, _⟩ | ⟨_, hm⟩
        · rfl
        · rw [(h.index _ s p).mpr ⟨m, hm, hmem⟩] at hnew
          cases hnew
    · rw [if_neg hid]
      constructor
      · intro hfind
        by_cases hsp : s = side ∧ p = price
        · obtain ⟨rfl, rfl⟩ := hsp
          refine ⟨_, by rw [hlevel, if_pos ⟨rfl, rfl⟩], ?_⟩
          rw [hids]
          exact List.mem_append_left _ ((eindex id).mpr hfind)
        · obtain ⟨m, hm, hmem⟩ := (h.index id s p).mp hfind
          exact ⟨m, by rw [hlevel, if_neg hsp]; exact hm, hmem⟩
      · rintro ⟨m, hm, hmem⟩
        rcases hold s p m hm with ⟨rfl, rfl, rfl⟩ | ⟨_, hm⟩
        · rw [hids] at hmem
          rcases List.mem_append.mp hmem with hmem | hmem
          · exact (eindex id).mp hmem
          · exact absurd (List.mem_singleton.mp hmem) hid
        · exact (h.index id s p).mpr ⟨m, hm, hmem⟩
  · intro bid ask lb la hb ha
    rcases hold _ _ _ hb with ⟨hs, rfl, _⟩ | ⟨_, hb⟩ <;>
      rcases hold _ _ _ ha with ⟨hs', rfl, _⟩ | ⟨_, ha⟩
    · rw [← hs] at hs'
      cases hs'
    · subst hs
      exact not_le.mp (hbeyond ask la ha)
    · subst hs'
      exact not_le.mp (hbeyond bid lb hb)
    · exact h.uncrossed bid ask lb la hb ha
  · intro o ho
    rw [hstops] at ho
    have hne : o.orderId ≠ order.orderId := fun e => hpend (e ▸ List.mem_map_of_mem ho)
    exact { h.pending o ho with
      status := hstatus o ho
      unindexed := by rw [hindex, if_neg hne]; exact (h.pending o ho).unindexed }
  · rw [hstops]
    exact h.pendingIds

/-! ### A trade -/

/-- The situation in which a pass through the loop body trades: the best level, its front order and
the queue behind it. -/
structure CanTrade (s : MatchState) (price : Decimal) (level : PriceLevel) (resting : Order)
    (queue : List Order) : Prop where
  positive : 0 < s.incoming.remainingQuantity
  best : s.book.bestPrice s.incoming.side = some price
  crosses : crosses s.incoming price = true
  atLevel : s.book.level (opposite s.incoming.side) price = some level
  front : level.orders = resting :: queue
  other : resting.userId ≠ s.incoming.userId

namespace CanTrade

variable {s : MatchState} {price : Decimal} {level : PriceLevel} {resting : Order}
  {queue : List Order}

theorem front_mem (h : CanTrade s price level resting queue) : resting ∈ level.orders := by
  rw [h.front]
  exact List.mem_cons_self

theorem front_id (h : CanTrade s price level resting queue) :
    resting.orderId ∈ orderIds level.orders :=
  List.mem_map_of_mem h.front_mem

theorem restingInv (h : CanTrade s price level resting queue) (hs : Inv s.book) :
    resting.side = opposite s.incoming.side ∧ resting.price = some price ∧
      0 < resting.remainingQuantity :=
  (hs.level _ _ _ h.atLevel).own resting h.front_mem

/-- The orders of the traded level: the old ones, with the maker reduced. -/
theorem mem_tradedLevel {o : Order}
    (ho : o ∈ (s.tradedLevel level resting queue).orders) :
    o ∈ queue ∨ (o = resting.reduce (tradeQuantity s.incoming resting) ∧ o.remainingQuantity ≠ 0) := by
  simp only [MatchState.tradedLevel, PriceLevel.tradeFront] at ho
  split at ho
  · exact Or.inl ho
  · rename_i hzero
    rcases List.mem_cons.mp ho with rfl | ho
    · exact Or.inr ⟨rfl, hzero⟩
    · exact Or.inl ho

theorem quantity_pos (h : CanTrade s price level resting queue) (hs : Inv s.book) :
    0 < tradeQuantity s.incoming resting :=
  lt_min h.positive (h.restingInv hs).2.2

theorem reduced_nonneg : 0 ≤ (resting.reduce (tradeQuantity s.incoming resting)).remainingQuantity :=
  sub_nonneg.mpr (min_le_right _ _)

/-- The identifiers left in the traded level: all of them, or all but the maker's. -/
theorem orderIds_tradedLevel (h : CanTrade s price level resting queue) :
    orderIds (s.tradedLevel level resting queue).orders
      = if (resting.reduce (tradeQuantity s.incoming resting)).remainingQuantity = 0
        then orderIds queue else orderIds level.orders := by
  rw [h.front]
  simp only [MatchState.tradedLevel, PriceLevel.tradeFront]
  split <;> rfl

/-- The level a trade leaves, if it is not empty, is again a level of its side and price. -/
theorem tradedLevel_inv (h : CanTrade s price level resting queue) (hs : Inv s.book)
    (hne : (s.tradedLevel level resting queue).orders ≠ []) :
    LevelInv (opposite s.incoming.side) price s.book.nextSequence
      (s.tradedLevel level resting queue) := by
  obtain ⟨hprice, _, hown, htotal, hinc, hbound, hids⟩ := hs.level _ _ _ h.atLevel
  have hrest := h.restingInv hs
  rw [h.front] at hown htotal hinc hbound hids
  simp only [orderIds, List.map_cons, List.nodup_cons, List.pairwise_cons] at hinc hids
  by_cases hzero : (resting.reduce (tradeQuantity s.incoming resting)).remainingQuantity = 0
  · have horders : (s.tradedLevel level resting queue).orders = queue := by
      simp only [MatchState.tradedLevel, PriceLevel.tradeFront, if_pos hzero]
    refine ⟨hprice, hne, ?_, ?_, ?_, ?_, ?_⟩ <;> rw [horders]
    · exact fun o ho => hown o (List.mem_cons_of_mem _ ho)
    · show level.totalQuantity - tradeQuantity s.incoming resting = totalRemaining queue
      have hq : resting.remainingQuantity - tradeQuantity s.incoming resting = 0 := hzero
      rw [htotal, totalRemaining, List.map_cons, List.sum_cons, totalRemaining]
      linarith
    · exact hinc.2
    · exact fun o ho => hbound o (List.mem_cons_of_mem _ ho)
    · exact hids.2
  · have horders : (s.tradedLevel level resting queue).orders
        = resting.reduce (tradeQuantity s.incoming resting) :: queue := by
      simp only [MatchState.tradedLevel, PriceLevel.tradeFront, if_neg hzero]
    refine ⟨hprice, hne, ?_, ?_, ?_, ?_, ?_⟩ <;> rw [horders]
    · intro o ho
      rcases List.mem_cons.mp ho with rfl | ho
      · exact ⟨hrest.1, hrest.2.1, lt_of_le_of_ne reduced_nonneg (Ne.symm hzero)⟩
      · exact hown o (List.mem_cons_of_mem _ ho)
    · show level.totalQuantity - tradeQuantity s.incoming resting
        = totalRemaining (resting.reduce (tradeQuantity s.incoming resting) :: queue)
      rw [htotal, totalRemaining, List.map_cons, List.sum_cons, totalRemaining, List.map_cons,
        List.sum_cons]
      show _ = (resting.remainingQuantity - tradeQuantity s.incoming resting) + _
      ring
    · exact List.pairwise_cons.mpr hinc
    · intro o ho
      rcases List.mem_cons.mp ho with rfl | ho
      · exact hbound resting List.mem_cons_self
      · exact hbound o (List.mem_cons_of_mem _ ho)
    · exact List.nodup_cons.mpr hids

/-- **A trade keeps the invariant.** -/
theorem trade_inv (h : CanTrade s price level resting queue) (hs : Inv s.book) (uuid : UuidSource) :
    Inv (s.trade uuid price level resting queue).book := by
  have hids : (orderIds level.orders).Nodup := (hs.level _ _ _ h.atLevel).ids
  have hmem := h.front_id
  have hpend := hs.queued_not_pending h.atLevel hmem
  refine hs.of_levelChange (s.tradedLevel level resting queue) h.atLevel ?_ ?_ ?_ ?_ ?_ ?_ ?_
  · exact fun side p => s.level_trade uuid price level resting queue side p h.atLevel
  · exact h.tradedLevel_inv hs
  · intro id hid
    rw [h.orderIds_tradedLevel] at hid
    split at hid
    · rw [h.front]
      exact List.mem_cons_of_mem _ hid
    · exact hid
  · intro id
    rw [s.index_trade, h.orderIds_tradedLevel]
    by_cases hzero : (resting.reduce (tradeQuantity s.incoming resting)).remainingQuantity = 0
    · rw [h.front] at hids ⊢
      have hnot : resting.orderId ∉ orderIds queue := (List.nodup_cons.mp hids).1
      have hiff : (id ∈ orderIds (resting :: queue) ∧ id ∉ orderIds queue) ↔ id = resting.orderId := by
        constructor
        · rintro ⟨hin, hout⟩
          exact (List.mem_cons.mp hin).resolve_right hout
        · rintro rfl
          exact ⟨List.mem_cons_self, hnot⟩
      simp only [hzero, true_and, if_true, hiff]
    · simp only [hzero, false_and, if_false, and_not_self]
  · simp
  · simp
  · intro o ho
    refine s.pending_trade uuid price level resting queue ?_ (hs.pending o ho).status
    exact fun e => hpend (e ▸ List.mem_map_of_mem ho)

end CanTrade

end NexusTrade.MatchingEngine
