import NexusTrade.Trading.Ledger

/-!
# The ledger over a run

Every step of the program keeps the ledger, if identifiers are new and no answer of the engine to a submission is lost.

* **`Memory.objects_change`**, **`Memory.objects_push`** and **`Memory.objects_splice`**: what an assignment, a push and
  a splice do to the objects;
* **`Ledger.performed`**: an operation is made;
* **`Ledger.resumed`**: a call goes on.
-/

namespace NexusTrade.Trading

open MatchingEngine (Decimal Fill ExecutionReport Core CoreInv CallFiles UuidSource DecimalCodec OrderBook Traded
  orderIds)

/-! ### Objects -/

namespace Memory

variable {memory : Memory} {id : String} {f : StoredOrder → StoredOrder}

theorem objects_change (memory : Memory) (id : String) (f : StoredOrder → StoredOrder) :
    (memory.change id f).objects = memory.objects.map fun order => if order.id = id then f order else order := by
  rw [objects, objects, List.map_append]
  rfl

theorem mem_change {order : StoredOrder} (h : order ∈ (memory.change id f).objects) :
    (order ∈ memory.objects ∧ order.id ≠ id) ∨ ∃ old ∈ memory.objects, old.id = id ∧ order = f old := by
  rw [objects_change] at h
  obtain ⟨old, hold, rfl⟩ := List.mem_map.mp h
  by_cases hid : old.id = id
  · rw [if_pos hid]
    exact Or.inr ⟨old, hold, hid, rfl⟩
  · rw [if_neg hid]
    exact Or.inl ⟨hold, hid⟩

/-- What becomes of an object. -/
theorem change_mem {order : StoredOrder} (h : order ∈ memory.objects) :
    (if order.id = id then f order else order) ∈ (memory.change id f).objects := by
  rw [objects_change]
  exact List.mem_map_of_mem h

theorem ids_change (hf : ∀ order, order.id = id → (f order).id = id) : (memory.change id f).ids = memory.ids := by
  rw [ids, ids, objects_change, List.map_map]
  refine List.map_congr_left fun order _ => ?_
  show (if order.id = id then f order else order).id = order.id
  split
  · rename_i hid
    rw [hf order hid, hid]
  · rfl

/-- **A splice loses no object**, whatever it takes out of `orders`. -/
theorem objects_splice (memory : Memory) (id : String) : (memory.splice id).objects.Perm memory.objects := by
  rw [splice]
  split
  · rename_i pos hpos
    obtain ⟨hlt, -, -⟩ := List.findIdx?_eq_some_iff_getElem.mp hpos
    rw [objects, objects, List.getElem?_eq_getElem hlt]
    have hsplit := List.getElem_cons_eraseIdx_perm hlt
    show (memory.orders.eraseIdx pos ++ (memory.spliced ++ [memory.orders[pos]])).Perm _
    rw [← List.append_assoc]
    exact (List.perm_append_singleton _ _).trans (hsplit.append_right memory.spliced)
  · rw [objects, objects]
    show (memory.orders.dropLast ++ (memory.spliced ++ memory.orders.getLast?.toList)).Perm _
    cases hlast : memory.orders.getLast? with
    | none =>
        rw [List.getLast?_eq_none_iff.mp hlast]
        exact List.Perm.of_eq (List.append_nil _)
    | some last =>
        have hne : memory.orders ≠ [] := by
          intro hnil
          rw [hnil] at hlast
          cases hlast
        have heq : memory.orders.dropLast ++ [last] = memory.orders := by
          rw [List.getLast?_eq_getLast_of_ne_nil hne] at hlast
          rw [← Option.some.inj hlast, List.dropLast_append_getLast]
        have hmove : (memory.orders.dropLast ++ (memory.spliced ++ [last])).Perm
            (memory.orders.dropLast ++ ([last] ++ memory.spliced)) :=
          List.Perm.append_left _ List.perm_append_comm
        have hjoin : memory.orders.dropLast ++ ([last] ++ memory.spliced) = memory.orders ++ memory.spliced := by
          rw [← List.append_assoc, heq]
        exact hmove.trans (List.Perm.of_eq hjoin)

theorem objects_push (memory : Memory) (order : StoredOrder) :
    (objects { memory with orders := memory.orders ++ [order] }).Perm (memory.objects ++ [order]) := by
  show (memory.orders ++ [order] ++ memory.spliced).Perm _
  rw [objects, List.append_assoc, List.append_assoc]
  exact List.Perm.append_left _ List.perm_append_comm

theorem releasedIds_splice (memory : Memory) (id : String) : (memory.splice id).releasedIds = memory.releasedIds := by
  rw [splice]
  split <;> rfl

theorem ids_splice (memory : Memory) (id : String) : (memory.splice id).ids.Perm memory.ids :=
  (objects_splice memory id).map StoredOrder.id

theorem eq_of_id {order order' : StoredOrder} (hids : memory.ids.Nodup) (h : order ∈ memory.objects)
    (h' : order' ∈ memory.objects) (hid : order.id = order'.id) : order = order' :=
  List.inj_on_of_nodup_map hids h h' hid

end Memory

section Steps

variable {parse : DecimalParser} {service : TradingService} {memory memory' : Memory} {remote remote' : Remote}
  {pre post : List OrderThread} {call : OrderCall} {progress progress' : OrderProgress} {operation : Operation}
  {answer : Answer} {point : Point} {pause : OrderPause}

/-- **A call has no more to do than before**, and the objects are the same. -/
theorem Ledger.less (h : Ledger parse service ⟨memory, remote, pre ++ ⟨call, progress⟩ :: post⟩)
    (hengaged : Engaged remote') (hhandled : remote'.handled = remote.handled) (hprepared : Prepared service progress')
    (hsubmit : (toSubmit progress').Sublist (toSubmit progress))
    (hdue : (toApply progress').Sublist (toApply progress))
    (hpushes : (toPush service progress').Sublist (toPush service progress))
    (hempties : ∀ id ∈ toEmpty progress',
      ∃ order ∈ memory.objects, order.id = id ∧ order.quantity ≤ order.filledQuantity)
    (hcancels : ∀ id ∈ toCancel progress', id ∈ memory.releasedIds) :
    Ledger parse service ⟨memory, remote', pre ++ ⟨call, progress'⟩ :: post⟩ := by
  have hclaimed : (claimed service progress').Sublist (claimed service progress) := hsubmit.append (hpushes.map _)
  refine h.moved hengaged hhandled hprepared ((hclaimed.append_left _).subperm) hsubmit.subset hdue.subperm
    (List.Subset.refl _) ?_ hpushes.subset hempties (fun order horder hfull => ⟨order, horder, rfl, hfull⟩) hcancels
  exact fun order horder => (h.objects order horder).less (gather_subperm hdue.subperm) (List.Subset.refl _)

/-! ### Operations -/

/-- What is left to do once an operation is answered, where the answer is no report of an order that was accepted. -/
theorem answered_less {answer : Answer} {point : Point} {operation : Operation}
    (hquiet : ∀ report, answer = .report report → report.accepted = false) :
    (toSubmit (.ready answer point)).Sublist (toSubmit (.waiting operation point)) ∧
      (toApply (.ready answer point)).Sublist (toApply (.waiting operation point)) ∧
      (toPush service (.ready answer point)).Sublist (toPush service (.waiting operation point)) := by
  cases point with
  | submitted order attempt =>
      have hnone : accepted (some answer) = [] := accepted_eq_nil hquiet
      refine ⟨?_, ?_, ?_⟩
      · show (Point.toSubmit (some answer) (.submitted order attempt)).Sublist [order.id]
        cases answer with
        | report report => exact List.nil_sublist _
        | done | cancelled | failed => exact List.Sublist.refl _
      · show ((accepted (some answer)).flatMap _).Sublist _
        rw [hnone]
        exact List.nil_sublist _
      · show ((accepted (some answer)).flatMap _).Sublist _
        rw [hnone]
        exact List.nil_sublist _
  | _ => exact ⟨List.Sublist.refl _, List.Sublist.refl _, List.Sublist.refl _⟩

/-- **An operation is answered**, and nothing has been submitted. -/
theorem Ledger.answered (h : Ledger parse service ⟨memory, remote, pre ++ ⟨call, .waiting operation point⟩ :: post⟩)
    (hengaged : Engaged remote') (hhandled : remote'.handled = remote.handled)
    (hquiet : ∀ report, answer = .report report → report.accepted = false) :
    Ledger parse service ⟨memory, remote', pre ++ ⟨call, .ready answer point⟩ :: post⟩ := by
  have hprepared := h.prepared ⟨call, .waiting operation point⟩ (List.mem_append_right _ List.mem_cons_self)
  obtain ⟨hsubmit, hdue, hpushes⟩ := answered_less hquiet
  refine h.less hengaged hhandled hprepared.1 hsubmit hdue hpushes (fun id hid => ?_) fun id hid => ?_
  · have hbefore : id ∈ toEmpty (.waiting operation point) := hid
    exact h.empties id (mem_gather_own hbefore)
  · have hbefore : id ∈ toCancel (.waiting operation point) := hid
    exact h.cancels id (mem_gather_own hbefore)

/-- **An operation is made**, and if it submits an order its answer is not lost. -/
theorem Ledger.performed (h : Ledger parse service ⟨memory, remote, pre ++ ⟨call, .waiting operation point⟩ :: post⟩)
    (hperformed : Performed parse remote operation answer remote') (hinv : CoreInv remote'.engine)
    (hseen : answer.Failed → remote'.handled = remote.handled) :
    Ledger parse service ⟨memory, remote', pre ++ ⟨call, .ready answer point⟩ :: post⟩ := by
  have hprepared := h.prepared ⟨call, .waiting operation point⟩ (List.mem_append_right _ List.mem_cons_self)
  cases hperformed with
  | unsent operation failed => exact h.answered h.engaged rfl failed.refused
  | written inside answered wallet =>
      exact h.answered ⟨h.engaged.inv, h.engaged.history, h.engaged.ids, h.engaged.built⟩ rfl
        (refused_or_failed (by rintro _ ⟨⟩) answered)
  | refused order answered => exact h.answered h.engaged rfl (refusal_or_failed answered)
  | traded order sent trades books answered =>
      rcases answered with hreport | failed
      · obtain ⟨-, attempt, rfl⟩ := hprepared
        rw [hreport]
        exact h.traded hinv sent trades books
      · have hlength := congrArg List.length (hseen failed)
        simp at hlength
  | unknown orderId symbol userId books answered =>
      have hengaged : Engaged { remote with engine := _ } :=
        ⟨hinv, fun symbol => bookOf_congr books symbol ▸ h.engaged.history symbol, h.engaged.ids, h.engaged.built⟩
      exact h.answered hengaged rfl (refused_or_failed (by rintro _ ⟨⟩) answered)
  | cancelled orderId symbol userId returned result books answered =>
      exact h.answered (h.engaged.cancelled hinv returned books) rfl
        (refused_or_failed (by rintro _ ⟨⟩) answered)

/-! ### Going on -/

/-- **A call has the same still to do**, or it throws. -/
theorem Ledger.carried (h : Ledger parse service ⟨memory, remote, pre ++ ⟨call, .ready answer point⟩ :: post⟩)
    (hprepared : Prepared service progress') (hcarries : Carries service point answer progress') :
    Ledger parse service ⟨memory, remote, pre ++ ⟨call, progress'⟩ :: post⟩ := by
  have hsubmit : (toSubmit progress').Sublist (toSubmit (.ready answer point)) := by
    rcases hcarries.submit with hsame | hnil
    · rw [hsame]
    · rw [hnil]
      exact List.nil_sublist _
  have hrest : (toApply progress').Sublist (toApply (.ready answer point)) ∧
      (toPush service progress').Sublist (toPush service (.ready answer point)) := by
    rcases hcarries.rest with ⟨happly, hpush, -⟩ | ⟨-, -, error, rfl⟩
    · rw [happly, hpush]
      exact ⟨List.Sublist.refl _, List.Sublist.refl _⟩
    · exact ⟨List.nil_sublist _, List.nil_sublist _⟩
  refine h.less h.engaged rfl hprepared hsubmit hrest.1 hrest.2 (fun id hid => ?_) fun id hid => ?_
  · rw [hcarries.empties] at hid
    cases hid
  · rw [hcarries.cancels] at hid
    cases hid

/-- **A fill is applied** to its maker. -/
theorem Ledger.applied {order maker : StoredOrder} {report : ExecutionReport} {fill : Fill} {rest : List Fill}
    (h : Ledger parse service ⟨memory, remote, pre ++ ⟨call, .ready answer (.recorded order report fill rest)⟩ :: post⟩)
    (hmem : maker ∈ memory.orders) (hid : maker.id = fill.makerOrderId) (status : OrderStatus) :
    Ledger parse service
      ⟨memory.change maker.id fun _ => service.fillMaker maker (service.toTrade order fill), remote,
        pre ++ ⟨call, .waiting (.updateOrder maker.id (some (maker.filledQuantity + fill.quantity)) status)
          (.makerUpdated order report maker.id rest)⟩ :: post⟩ := by
  have hobject : maker ∈ memory.objects := List.mem_append_left _ hmem
  have hpositive : 0 < fill.quantity := by
    have hdue : fill ∈ toApply (.ready answer (.recorded order report fill rest)) := List.mem_cons_self
    exact h.engaged.pos (h.due (mem_gather_own hdue))
  have hids : (memory.change maker.id fun _ => service.fillMaker maker (service.toTrade order fill)).ids = memory.ids :=
    Memory.ids_change fun _ _ => rfl
  have hdue : (gather toApply (pre ++ ⟨call, .ready answer (.recorded order report fill rest)⟩ :: post)).Perm
      (fill :: gather toApply (pre ++ ⟨call, .waiting (.updateOrder maker.id
        (some (maker.filledQuantity + fill.quantity)) status) (.makerUpdated order report maker.id rest)⟩ :: post)) := by
    have hbefore := gather_perm toApply pre post call (.ready answer (.recorded order report fill rest))
    have hafter := gather_perm toApply pre post call (.waiting (.updateOrder maker.id
      (some (maker.filledQuantity + fill.quantity)) status) (.makerUpdated order report maker.id rest))
    exact hbefore.trans (hafter.symm.cons fill)
  refine h.moved h.engaged rfl ⟨trivial, trivial⟩ ?_ (List.Subset.refl _) (List.sublist_cons_self fill rest).subperm
    (List.Subset.refl _) ?_ (List.Subset.refl _) (fun _ hin => nomatch hin) ?_ (fun _ hin => nomatch hin)
  · rw [hids]
    exact List.Subperm.refl _
  · intro order' horder'
    rcases Memory.mem_change horder' with ⟨hold, -⟩ | ⟨-, -, -, rfl⟩
    · exact (h.objects order' hold).less ((List.sublist_cons_self fill _).subperm.trans hdue.symm.subperm)
        (List.Subset.refl _)
    · obtain ⟨hknown, haccount⟩ := h.objects maker hobject
      exact ⟨hknown.same rfl, haccount.applied hdue hid.symm hpositive order⟩
  · intro old hold hfull
    refine ⟨_, Memory.change_mem hold, ?_⟩
    split
    · rename_i hsame
      obtain rfl := Memory.eq_of_id h.ids.of_append_left hold hobject hsame
      refine ⟨rfl, ?_⟩
      show old.quantity ≤ old.filledQuantity + fill.quantity
      linarith
    · exact ⟨rfl, hfull⟩

/-- **The lock of an object is emptied**, where it is complete or its cancellation has released the lock. -/
theorem emptied_standing {released : List String} {id : String} {status : StoredOrder → OrderStatus}
    (hids : memory.ids.Nodup)
    (hobjects : ∀ order ∈ memory.objects,
      Standing parse service remote.handled remote.fills (gather toApply (pre ++ ⟨call, progress⟩ :: post)) released order)
    (hdue : (toApply progress').Subperm (toApply progress))
    (hdone : (∃ order ∈ memory.objects, order.id = id ∧ order.quantity ≤ order.filledQuantity) ∨ id ∈ released)
    (hstatus : ∀ order, status order = order.status ∨ status order = .cancelled) :
    ∀ order ∈ (memory.change id fun order => { order with lockedAmount := 0, status := status order }).objects,
      Standing parse service remote.handled remote.fills (gather toApply (pre ++ ⟨call, progress'⟩ :: post)) released
        order := by
  intro order horder
  rcases Memory.mem_change horder with ⟨hold, -⟩ | ⟨old, hold, hid, rfl⟩
  · exact (hobjects order hold).less (gather_subperm hdue) (List.Subset.refl _)
  · obtain ⟨hknown, haccount⟩ := (hobjects old hold).less (gather_subperm hdue) (List.Subset.refl _)
    refine ⟨hknown.same rfl, haccount.emptied ?_ (status old) (hstatus old)⟩
    rcases hdone with ⟨full, hfull, hsame, hle⟩ | hin
    · obtain rfl := Memory.eq_of_id hids hold hfull (hid.trans hsame.symm)
      exact Or.inl hle
    · exact Or.inr (hid ▸ hin)

/-- **The lock of a maker that is filled** is emptied, and the maker taken out. -/
theorem Ledger.emptied {order : StoredOrder} {report : ExecutionReport} {id : String} {rest : List Fill}
    (h : Ledger parse service
      ⟨memory, remote, pre ++ ⟨call, .ready answer (.makerUnlocked order report id rest)⟩ :: post⟩) :
    Ledger parse service
      ⟨(memory.change id fun maker => { maker with lockedAmount := 0 }).splice id, remote,
        pre ++ ⟨call, .waiting .produce (.produced order report rest)⟩ :: post⟩ := by
  have hempty : id ∈ toEmpty (.ready answer (.makerUnlocked order report id rest)) := List.mem_cons_self
  have hdone := h.empties id (mem_gather_own hempty)
  have hids : (memory.change id fun maker => { maker with lockedAmount := 0 }).ids = memory.ids :=
    Memory.ids_change fun _ hid => hid
  have hperm := Memory.objects_splice (memory.change id fun maker => { maker with lockedAmount := 0 }) id
  have hreleased := Memory.releasedIds_splice (memory.change id fun maker => { maker with lockedAmount := 0 }) id
  refine h.moved h.engaged rfl ⟨trivial, trivial⟩ ?_ (List.Subset.refl _) (List.Subperm.refl _)
    (hreleased ▸ List.Subset.refl _) ?_ (List.Subset.refl _) (fun _ hin => nomatch hin) ?_ (fun _ hin => nomatch hin)
  · refine ((Memory.ids_splice _ id).append_right _).subperm.trans ?_
    rw [hids]
    exact List.Subperm.refl _
  · intro order' horder'
    have hdue : (toApply (.waiting .produce (.produced order report rest))).Subperm
        (toApply (.ready answer (.makerUnlocked order report id rest))) := List.Subperm.refl _
    rw [hreleased]
    exact emptied_standing h.ids.of_append_left h.objects hdue (Or.inl hdone) (fun _ => Or.inl rfl) order'
      (hperm.subset horder')
  · intro old hold hfull
    refine ⟨_, hperm.symm.subset (Memory.change_mem hold), ?_⟩
    split <;> exact ⟨rfl, hfull⟩

/-- **A cancellation has released the lock.** -/
theorem Ledger.cancelled {orderId : String}
    (h : Ledger parse service ⟨memory, remote, pre ++ ⟨call, .ready answer (.cancelUnlocked orderId)⟩ :: post⟩) :
    Ledger parse service
      ⟨memory.change orderId fun order => { order with lockedAmount := 0, status := .cancelled }, remote,
        pre ++ ⟨call, .waiting (.updateOrder orderId none .cancelled) (.cancelSaved orderId)⟩ :: post⟩ := by
  have hcancel : orderId ∈ toCancel (.ready answer (.cancelUnlocked orderId)) := List.mem_cons_self
  have hreleased := h.cancels orderId (mem_gather_own hcancel)
  have hids : (memory.change orderId fun order => { order with lockedAmount := 0, status := .cancelled }).ids
      = memory.ids := Memory.ids_change fun _ hid => hid
  refine h.moved h.engaged rfl ⟨trivial, trivial⟩ ?_ (List.Subset.refl _) (List.Subperm.refl _)
    (List.Subset.refl _) ?_ (List.Subset.refl _) (fun _ hin => nomatch hin) ?_ (fun _ hin => nomatch hin)
  · rw [hids]
    exact List.Subperm.refl _
  · exact emptied_standing h.ids.of_append_left h.objects (List.Subperm.refl _) (Or.inr hreleased)
      fun _ => Or.inr rfl
  · intro old hold hfull
    refine ⟨_, Memory.change_mem hold, ?_⟩
    split <;> exact ⟨rfl, hfull⟩

/-- **The cancelled order is taken out.** -/
theorem Ledger.spliced {orderId : String}
    (h : Ledger parse service ⟨memory, remote, pre ++ ⟨call, .ready answer (.cancelSaved orderId)⟩ :: post⟩) :
    Ledger parse service
      ⟨memory.splice orderId, remote, pre ++ ⟨call, .waiting .produce .cancelAnnounced⟩ :: post⟩ := by
  have hperm := Memory.objects_splice memory orderId
  have hreleased := Memory.releasedIds_splice memory orderId
  refine h.moved h.engaged rfl ⟨trivial, trivial⟩ ?_ (List.Subset.refl _) (List.Subperm.refl _)
    (hreleased ▸ List.Subset.refl _) ?_ (List.Subset.refl _) (fun _ hin => nomatch hin) ?_ (fun _ hin => nomatch hin)
  · exact ((Memory.ids_splice memory orderId).append_right _).subperm
  · intro order horder
    rw [hreleased]
    exact (h.objects order (hperm.subset horder)).less (gather_subperm (List.Subperm.refl _)) (List.Subset.refl _)
  · exact fun old hold hfull => ⟨old, hperm.symm.subset hold, rfl, hfull⟩

/-- **The order of a call is pushed.** -/
theorem Ledger.pushed {order : StoredOrder} {report : ExecutionReport}
    (h : Ledger parse service ⟨memory, remote, pre ++ ⟨call, .ready answer point⟩ :: post⟩)
    (hlast : point = .announced order report ∨ point = .matched order report) (hrests : shouldRest order = true) :
    Ledger parse service
      ⟨{ memory with orders := memory.orders ++ [order] }, remote,
        pre ++ ⟨call, .finished (.placed order report)⟩ :: post⟩ := by
  have hpush : toPush service (.ready answer point) = [order] := by
    rcases hlast with rfl | rfl <;> exact if_pos hrests
  have hsubmit : toSubmit (.ready answer point) = [] := by
    rcases hlast with rfl | rfl <;> rfl
  have happly : toApply (.ready answer point) = [] := by
    rcases hlast with rfl | rfl <;> rfl
  have hobjects := Memory.objects_push memory order
  refine h.moved h.engaged rfl trivial ?_ (List.nil_subset _) ?_ (List.Subset.refl _) ?_ (List.nil_subset _)
    (fun id hin => absurd hin (List.not_mem_nil (a := id))) ?_ (fun id hin => absurd hin (List.not_mem_nil (a := id)))
  · rw [claimed, claimed, hpush, hsubmit]
    show ((memory.orders ++ [order] ++ memory.spliced).map StoredOrder.id ++ []).Subperm
      (memory.objects.map StoredOrder.id ++ [order].map StoredOrder.id)
    rw [List.append_nil, ← List.map_append]
    exact (hobjects.map StoredOrder.id).subperm
  · rw [happly]
    exact List.Subperm.refl _
  · intro order' horder'
    have hless : (toApply (.finished (.placed order report))).Subperm (toApply (.ready answer point)) := by
      rw [happly]
      exact List.Subperm.refl _
    rcases List.mem_append.mp (hobjects.subset horder') with hold | hnew
    · exact (h.objects order' hold).less (gather_subperm hless) (List.Subset.refl _)
    · have hown : order' ∈ toPush service (.ready answer point) := hpush ▸ hnew
      exact (h.pushes order' (mem_gather_own hown)).less (gather_subperm hless) (List.Subset.refl _)
  · exact fun old hold hfull => ⟨old, hobjects.symm.subset (List.mem_append_left _ hold), rfl, hfull⟩

/-- **A cancellation releases** the lock of an object. -/
theorem Ledger.found {orderId symbol userId : String} {attempt : ℕ} (order : StoredOrder)
    (h : Ledger parse service
      ⟨memory, remote, pre ++ ⟨call, .ready answer (.cancelAnswered orderId symbol userId attempt)⟩ :: post⟩) :
    Ledger parse service
      ⟨{ memory with released := memory.released ++ [(orderId, order.lockedAmount)] }, remote,
        pre ++ ⟨call, (unlocking order order.lockedAmount (.cancelUnlocked orderId)).progress⟩ :: post⟩ := by
  have hreleased : memory.releasedIds
      ⊆ Memory.releasedIds { memory with released := memory.released ++ [(orderId, order.lockedAmount)] } := by
    rw [Memory.releasedIds, Memory.releasedIds, List.map_append]
    exact List.subset_append_left _ _
  have hpoint : Point.Prepared service (.cancelUnlocked orderId) := trivial
  have hprepared := unlocking_prepared order order.lockedAmount hpoint trivial fun _ => trivial
  obtain ⟨operation, heq, -⟩ := unlocking_spec order order.lockedAmount (.cancelUnlocked orderId)
  rw [heq] at hprepared ⊢
  refine h.moved h.engaged rfl hprepared (List.Subperm.append (List.Subperm.refl _) ?_) (List.nil_subset _)
    (List.Subperm.refl _) hreleased ?_ (List.Subset.refl _) (fun _ hin => nomatch hin)
    (fun old hold hfull => ⟨old, hold, rfl, hfull⟩) ?_
  · exact (List.nil_sublist _).subperm
  · intro order' horder'
    exact (h.objects order' horder').less (gather_subperm (List.Subperm.refl _)) hreleased
  · intro id hid
    obtain rfl : id = orderId := List.mem_singleton.mp hid
    rw [Memory.releasedIds, List.map_append]
    exact List.mem_append_right _ List.mem_cons_self

/-- **A call goes on.** -/
theorem Ledger.resumed (h : Ledger parse service ⟨memory, remote, pre ++ ⟨call, .ready answer point⟩ :: post⟩)
    (hprepared : Prepared service pause.progress) (hresumed : Resumed service memory answer point pause memory') :
    Ledger parse service ⟨memory', remote, pre ++ ⟨call, pause.progress⟩ :: post⟩ := by
  cases hresumed with
  | carries same => exact h.carried hprepared same
  | unknown order report fill rest maker =>
      exact h.less h.engaged rfl ⟨trivial, trivial⟩ (List.Sublist.refl _) (List.sublist_cons_self fill rest)
        (List.Sublist.refl _) (fun _ hin => nomatch hin) fun _ hin => nomatch hin
  | applied order report fill rest maker mem hid status => exact h.applied mem hid status
  | missing order report id rest maker =>
      exact h.less h.engaged rfl ⟨trivial, trivial⟩ (List.Sublist.refl _) (List.Sublist.refl _)
        (List.Sublist.refl _) (fun _ hin => nomatch hin) fun _ hin => nomatch hin
  | kept order report rest maker mem status =>
      exact h.less h.engaged rfl ⟨trivial, trivial⟩ (List.Sublist.refl _) (List.Sublist.refl _)
        (List.Sublist.refl _) (fun _ hin => nomatch hin) fun _ hin => nomatch hin
  | released order report rest maker mem status =>
      obtain ⟨operation, heq, -⟩ := unlocking_spec maker maker.lockedAmount (.makerUnlocked order report maker.id rest)
      rw [heq] at hprepared ⊢
      refine h.less h.engaged rfl hprepared (List.Sublist.refl _) (List.Sublist.refl _) (List.Sublist.refl _)
        (fun id hid => ?_) fun _ hin => nomatch hin
      obtain rfl : id = maker.id := List.mem_singleton.mp hid
      exact ⟨maker, mem, rfl, (h.objects maker mem).account.status status⟩
  | emptied order report id rest => exact h.emptied
  | pushed order report last rests => exact h.pushed last rests
  | found orderId symbol userId attempt order mem hid done => exact h.found order
  | cancelled orderId => exact h.cancelled
  | spliced orderId => exact h.spliced

end Steps

end NexusTrade.Trading
