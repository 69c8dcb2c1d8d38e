import NexusTrade.Trading.Tallies

/-!
# Calls that place orders

What a call that places an order awaits at each of its points, and what it does to the row of its order.

* **`Point.Placing`**, **`Fits`** and **`Fitting`**: the points of such a call, and what it awaits there;
* **`inserted`** and **`rested`**: the row that it has inserted, and the order that it has left in `orders`;
* **`Proceeds`** and **`resume_proceeds`**: what a call keeps when it goes on;
* **`Emptying`**: a maker that is taken out has its lock unlocked before;
* **`Rowed`** and **`Rowed.performed`**: the row of an order says what the object says, or it will be written.
-/

namespace NexusTrade.Trading

open MatchingEngine (Decimal Fill ExecutionReport)

/-! ### What is awaited -/

/-- The points of a call that places an order. -/
def Point.Placing : Point → Prop
  | .cancelAnswered _ _ _ _ | .cancelUnlocked _ | .cancelSaved _ | .cancelAnnounced => False
  | .rejectedUpdated order _ | .rejectedUnlocked order _ => order.status = .rejected
  | _ => True

/-- Where the rows of orders are written. -/
def Fits : Operation → Point → Prop
  | operation, .saved order => operation = .saveOrder (OrderEntity.create order)
  | operation, .makerUpdated _ _ id _ => ∃ filledQuantity status, operation = .updateOrder id (some filledQuantity) status
  | operation, .orderUpdated order _ => operation = .updateOrder order.id (some order.filledQuantity) order.status
  | .saveOrder _, _ | .updateOrder _ (some _) _, _ => False
  | _, _ => True

/-- **A call that places an order**, and has not failed once its order was taken. -/
def Fitting : OrderProgress → Prop
  | .waiting operation point => point.Placing ∧ Fits operation point
  | .ready answer point => point.Placing ∧ (point.taken = true → ¬answer.Failed)
  | .finished _ => True

/-- The identifier of an order whose row is inserted, up to the answer of the engine. -/
def Point.inserted (answer : Option Answer) : Point → List String
  | .saved order =>
    match answer with
    | none | some (.failed _) => []
    | some _ => [order.id]
  | .locked order | .submitted order _ => [order.id]
  | _ => []

def inserted : OrderProgress → List String := atPoint Point.inserted

/-- The identifier of an order that a call has left in `orders`. -/
def rested : OrderProgress → List String
  | .finished (.placed order _) => if shouldRest order then [order.id] else []
  | _ => []

/-- **What a call keeps when it goes on.** -/
structure Proceeds (memory : Memory) (answer : Answer) (point : Point) (next : OrderProgress) : Prop where
  fitting : Fitting next
  inserted : Trading.inserted next ⊆ Trading.inserted (.ready answer point)
  rested : Trading.rested next ⊆ memory.ids

section Resume

variable {service : TradingService} {maxRetries : ℕ} {memory memory' : Memory} {answer : Answer} {point : Point}
  {pause : OrderPause}

theorem unlocking_proceeds (order : StoredOrder) (amount : Decimal) {next : Point} (hplacing : next.Placing)
    (hfits : Fits .resolved next) (hposts : ∀ request, Fits (.walletPost request) next)
    (hinserted : next.inserted none = []) : Proceeds memory answer point (unlocking order amount next).progress := by
  have hnone : ∀ operation, inserted (.waiting operation next) ⊆ inserted (.ready answer point) := by
    intro operation id hid
    rw [inserted, atPoint, hinserted] at hid
    cases hid
  rw [unlocking]
  split
  · exact ⟨⟨hplacing, hfits⟩, hnone _, List.nil_subset _⟩
  · exact ⟨⟨hplacing, hposts _⟩, hnone _, List.nil_subset _⟩

theorem threw_proceeds (error : TradingError) : Proceeds memory answer point (.finished (.threw error)) :=
  ⟨trivial, List.nil_subset _, List.nil_subset _⟩

theorem nextTrade_proceeds (order : StoredOrder) (report : ExecutionReport) (rest : List Fill) :
    Proceeds memory' answer point (nextTrade service memory order report rest).progress := by
  cases rest with
  | nil => exact ⟨⟨trivial, rfl⟩, List.nil_subset _, List.nil_subset _⟩
  | cons fill rest => exact ⟨⟨trivial, trivial⟩, List.nil_subset _, List.nil_subset _⟩

/-- The end of a call. -/
theorem finishPlacing_proceeds (order : StoredOrder) (report : ExecutionReport) :
    Proceeds (finishPlacing memory order report).2 answer point (finishPlacing memory order report).1.progress := by
  refine ⟨trivial, List.nil_subset _, ?_⟩
  show (if shouldRest order then [order.id] else []) ⊆ (if shouldRest order then _ else memory : Memory).ids
  split
  · intro id hid
    rw [List.mem_singleton.mp hid]
    exact List.mem_map_of_mem (List.mem_append_left _ (List.mem_append_right _ (List.mem_singleton_self order)))
  · exact List.nil_subset _

theorem resumeFailed_proceeds (failure : Failure) (h : Fitting (.ready (.failed failure) point)) :
    Proceeds memory (.failed failure) point (resumeFailed maxRetries failure point).progress := by
  cases point with
  | submitted order attempt =>
      rw [resumeFailed]
      split
      · exact ⟨⟨trivial, trivial⟩, List.Subset.refl _, List.nil_subset _⟩
      · exact unlocking_proceeds order _ trivial trivial (fun _ => trivial) rfl
  | cancelAnswered | cancelUnlocked | cancelSaved | cancelAnnounced => exact h.1.elim
  | checked | saved | locked | unreachable | rejectedUpdated | rejectedUnlocked => exact threw_proceeds _
  | settled | recorded | makerUpdated | makerUnlocked | produced | orderUpdated | unlocked | announced
  | matched => exact absurd ⟨failure, rfl⟩ (h.2 rfl)

theorem resumeDone_proceeds (service : TradingService) (memory : Memory) (h : Fitting (.ready answer point))
    (hdone : ¬answer.Failed) :
    Proceeds (resumeDone service memory point answer).2 answer point
      (resumeDone service memory point answer).1.progress := by
  cases point with
  | checked uuid dto =>
      rw [resumeDone, afterCheck]
      split
      · exact threw_proceeds _
      · cases newOrder uuid dto with
        | error e => exact threw_proceeds _
        | ok order => exact ⟨⟨trivial, rfl⟩, List.nil_subset _, List.nil_subset _⟩
  | saved order =>
      rw [resumeDone, afterSave]
      split
      · exact threw_proceeds _
      · refine ⟨⟨trivial, trivial⟩, ?_, List.nil_subset _⟩
        cases answer with
        | failed failure => exact absurd ⟨failure, rfl⟩ hdone
        | done | report | cancelled => exact List.Subset.refl _
  | locked order => exact ⟨⟨trivial, trivial⟩, List.Subset.refl _, List.nil_subset _⟩
  | submitted order attempt =>
      cases answer with
      | report report =>
          rw [resumeDone, afterReport]
          split
          · exact ⟨⟨rfl, trivial⟩, List.nil_subset _, List.nil_subset _⟩
          · exact nextTrade_proceeds order report report.fills
      | done | cancelled | failed => exact threw_proceeds _
  | rejectedUpdated order report =>
      exact unlocking_proceeds order _ h.1 trivial (fun _ => trivial) rfl
  | rejectedUnlocked order report =>
      refine ⟨trivial, List.nil_subset _, ?_⟩
      have hstatus : order.status = .rejected := h.1
      have hrests : shouldRest order = false := by
        rw [shouldRest, hstatus]
        exact Bool.and_false _
      show (if shouldRest order then [order.id] else []) ⊆ _
      rw [hrests]
      exact List.nil_subset _
  | recorded order report fill rest =>
      rw [resumeDone, applyFill]
      split
      · exact ⟨⟨trivial, trivial⟩, List.nil_subset _, List.nil_subset _⟩
      · exact ⟨⟨trivial, _, _, rfl⟩, List.nil_subset _, List.nil_subset _⟩
  | makerUpdated order report maker rest =>
      rw [resumeDone, releaseMaker]
      cases memory.object maker with
      | none => exact ⟨⟨trivial, trivial⟩, List.nil_subset _, List.nil_subset _⟩
      | some maker =>
          dsimp only
          split
          · exact unlocking_proceeds maker _ trivial trivial (fun _ => trivial) rfl
          · exact ⟨⟨trivial, trivial⟩, List.nil_subset _, List.nil_subset _⟩
  | produced order report rest => exact nextTrade_proceeds order report rest
  | orderUpdated order report => exact unlocking_proceeds order _ trivial trivial (fun _ => trivial) rfl
  | announced order report =>
      rw [resumeDone]
      split
      · exact finishPlacing_proceeds order report
      · exact ⟨⟨trivial, trivial⟩, List.nil_subset _, List.nil_subset _⟩
  | matched order report => exact finishPlacing_proceeds order report
  | unreachable error => exact threw_proceeds _
  | settled | makerUnlocked | unlocked => exact ⟨⟨trivial, trivial⟩, List.nil_subset _, List.nil_subset _⟩
  | cancelAnswered | cancelUnlocked | cancelSaved | cancelAnnounced => exact h.1.elim

/-- **A call that places an order goes on.** -/
theorem resume_proceeds (h : Fitting (.ready answer point))
    (hresume : resume service maxRetries point answer memory = (pause, memory')) :
    Proceeds memory' answer point pause.progress := by
  cases answer with
  | failed failure =>
      obtain ⟨rfl, rfl⟩ := Prod.mk.inj hresume
      exact resumeFailed_proceeds failure h
  | done | report | cancelled =>
      have hresume : resumeDone service memory point _ = (pause, memory') := hresume
      have hproceeds := resumeDone_proceeds service memory h
        (by rintro ⟨failure, heq⟩; cases heq)
      rw [hresume] at hproceeds
      exact hproceeds

end Resume

/-! ### The lock of a maker that is complete -/

/-- **A maker that will be taken out** of `orders` has no lock, or its lock is being unlocked. -/
def Emptying (memory : Memory) (served : List WalletRequest) : OrderProgress → Prop
  | .waiting operation (.makerUnlocked _ _ id _) => ∀ order ∈ memory.orders, order.id = id →
    order.lockedAmount ≤ 0 ∨ operation = .walletPost (.unlock (TradingService.mutationOf order order.lockedAmount))
  | .ready _ (.makerUnlocked _ _ id _) => ∀ order ∈ memory.orders, order.id = id →
    order.lockedAmount ≤ 0 ∨ .unlock (TradingService.mutationOf order order.lockedAmount) ∈ served
  | _ => True

section Emptying

variable {memory memory' : Memory} {served served' : List WalletRequest} {progress : OrderProgress}

theorem emptying_of_toEmpty (h : toEmpty progress = []) : Emptying memory served progress := by
  cases progress with
  | waiting operation point =>
      cases point with
      | makerUnlocked => cases h
      | _ => trivial
  | ready answer point =>
      cases point with
      | makerUnlocked => cases h
      | _ => trivial
  | finished outcome => trivial

/-- Nothing becomes of the makers that will be taken out, and more is unlocked. -/
theorem Emptying.mono (h : Emptying memory served progress) (hserved : served ⊆ served')
    (horders : ∀ order ∈ memory'.orders, order.id ∈ toEmpty progress → order ∈ memory.orders) :
    Emptying memory' served' progress := by
  cases progress with
  | waiting operation point =>
      cases point with
      | makerUnlocked order report id rest =>
          intro maker hmaker hid
          exact h maker (horders maker hmaker (List.mem_singleton.mpr hid)) hid
      | _ => trivial
  | ready answer point =>
      cases point with
      | makerUnlocked order report id rest =>
          intro maker hmaker hid
          exact (h maker (horders maker hmaker (List.mem_singleton.mpr hid)) hid).imp_right fun hin => hserved hin
      | _ => trivial
  | finished outcome => trivial

end Emptying

/-! ### Rows -/

/-- **The row of an order** says what its object says, unless that has still to be written. -/
structure Rowed (rows : List OrderEntity) (pending : List (String × Decimal)) (order : StoredOrder) : Prop where
  inserted : order.id ∈ rows.map OrderEntity.id
  written : (∀ row ∈ rows, row.id = order.id → row.filledQuantity = order.filledQuantity) ∨
    (order.id, order.filledQuantity) ∈ pending

section Rows

variable {rows : List OrderEntity} {row row' : OrderEntity} {pending pending' : List (String × Decimal)}
  {order : StoredOrder} {id : String} {filledQuantity : Option Decimal} {status : OrderStatus}

theorem mem_ids_saveOrder (rows : List OrderEntity) (row : OrderEntity) :
    row.id ∈ (saveOrder rows row).map OrderEntity.id := by
  rw [saveOrder]
  split
  · rename_i hany
    obtain ⟨old, hold, hid⟩ := List.any_eq_true.mp hany
    refine List.mem_map.mpr ⟨_, List.mem_map_of_mem hold, ?_⟩
    rw [if_pos (of_decide_eq_true hid)]
  · exact List.mem_map_of_mem (List.mem_append_right _ (List.mem_singleton_self row))

theorem ids_saveOrder (rows : List OrderEntity) (row : OrderEntity) :
    rows.map OrderEntity.id ⊆ (saveOrder rows row).map OrderEntity.id := by
  rw [saveOrder]
  split
  · intro id hid
    obtain ⟨old, hold, rfl⟩ := List.mem_map.mp hid
    refine List.mem_map.mpr ⟨_, List.mem_map_of_mem hold, ?_⟩
    split
    · rename_i hid
      exact hid.symm
    · rfl
  · rw [List.map_append]
    exact List.subset_append_left _ _

/-- Inserting a row leaves those with other identifiers. -/
theorem mem_saveOrder_of_ne (h : row' ∈ saveOrder rows row) (hne : row'.id ≠ row.id) : row' ∈ rows := by
  rw [saveOrder] at h
  split at h
  · obtain ⟨old, hold, rfl⟩ := List.mem_map.mp h
    split at hne
    · exact absurd rfl hne
    · rename_i hother
      rw [if_neg hother]
      exact hold
  · rcases List.mem_append.mp h with hold | hlast
    · exact hold
    · exact absurd (congrArg OrderEntity.id (List.mem_singleton.mp hlast)) hne

/-- A row after an update. -/
theorem mem_updateOrder (h : row' ∈ updateOrder rows id filledQuantity status) : ∃ row ∈ rows, row.id = row'.id ∧
    row'.filledQuantity = if row.id = id then filledQuantity.getD row.filledQuantity else row.filledQuantity := by
  obtain ⟨row, hrow, rfl⟩ := List.mem_map.mp h
  refine ⟨row, hrow, ?_⟩
  by_cases hid : row.id = id
  · rw [if_pos hid, if_pos hid]
    exact ⟨rfl, rfl⟩
  · rw [if_neg hid, if_neg hid]
    exact ⟨rfl, rfl⟩

theorem ids_rows (rows : List OrderEntity) (operation : Operation) :
    rows.map OrderEntity.id ⊆ (operation.rows rows).map OrderEntity.id := by
  cases operation with
  | saveOrder row => exact ids_saveOrder rows row
  | updateOrder id filledQuantity status =>
      show _ ⊆ (updateOrder rows id filledQuantity status).map OrderEntity.id
      rw [ids_updateOrder]
      exact List.Subset.refl _
  | _ => exact List.Subset.refl _

/-- **An operation takes effect**; if it writes the row of the order, what the object says was to be written. -/
theorem Rowed.performed {operation : Operation} (h : Rowed rows pending order)
    (hpending : ∀ entry ∈ pending, entry ∈ operation.toWrite ∨ entry ∈ pending')
    (hother : ∀ row, operation = .saveOrder row → row.id ≠ order.id)
    (hcurrent : order.id ∈ operation.toWrite.map Prod.fst → (order.id, order.filledQuantity) ∈ pending) :
    Rowed (operation.rows rows) pending' order := by
  refine ⟨ids_rows rows operation h.inserted, ?_⟩
  have hkept : operation.toWrite = [] →
      (∀ row' ∈ operation.rows rows, row'.id = order.id → ∃ row ∈ rows, row.id = row'.id ∧
        row'.filledQuantity = row.filledQuantity) →
      (∀ row' ∈ operation.rows rows, row'.id = order.id → row'.filledQuantity = order.filledQuantity) ∨
        (order.id, order.filledQuantity) ∈ pending' := by
    intro hnothing hsame
    rcases h.written with hwritten | hlater
    · refine Or.inl fun row' hrow' hid => ?_
      obtain ⟨row, hrow, hrowId, hfilled⟩ := hsame row' hrow' hid
      rw [hfilled]
      exact hwritten row hrow (hrowId.trans hid)
    · refine Or.inr ((hpending _ hlater).resolve_left ?_)
      rw [hnothing]
      exact List.not_mem_nil
  cases operation with
  | saveOrder row =>
      refine hkept rfl fun row' hrow' hid => ⟨row', mem_saveOrder_of_ne hrow' ?_, rfl, rfl⟩
      rw [hid]
      exact (hother row rfl).symm
  | updateOrder id filledQuantity status =>
      cases filledQuantity with
      | none =>
          refine hkept rfl fun row' hrow' hid => ?_
          obtain ⟨row, hrow, hrowId, hfilled⟩ := mem_updateOrder hrow'
          refine ⟨row, hrow, hrowId, ?_⟩
          rw [hfilled]
          exact ite_self _
      | some filledQuantity =>
          by_cases hid : order.id = id
          · rcases hpending _ (hcurrent (List.mem_singleton.mpr hid)) with hnow | hlater
            · obtain ⟨-, hfilled⟩ := Prod.mk.inj (List.mem_singleton.mp hnow)
              refine Or.inl fun row' hrow' hrowId' => ?_
              obtain ⟨row, hrow, hrowId, heq⟩ := mem_updateOrder hrow'
              rw [heq, if_pos ((hrowId.trans hrowId').trans hid), hfilled]
              rfl
            · exact Or.inr hlater
          · rcases h.written with hwritten | hlater
            · refine Or.inl fun row' hrow' hrowId' => ?_
              obtain ⟨row, hrow, hrowId, heq⟩ := mem_updateOrder hrow'
              have hrowOrder : row.id = order.id := hrowId.trans hrowId'
              rw [heq, if_neg (hrowOrder ▸ hid)]
              exact hwritten row hrow hrowOrder
            · refine Or.inr ((hpending _ hlater).resolve_left fun hnow => hid ?_)
              exact (Prod.mk.inj (List.mem_singleton.mp hnow)).1
  | _ => exact hkept rfl fun row' hrow' _ => ⟨row', hrow', rfl, rfl⟩

end Rows

end NexusTrade.Trading
