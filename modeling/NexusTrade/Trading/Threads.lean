import NexusTrade.Trading.Interleaved

/-!
# What a call has still to do

A call between two of its steps, by what it has still to do to what the calls share.

* **`toSubmit`**, **`toApply`**, **`toPush`**, **`toWrite`**, **`toCheck`**, **`toEmpty`** and **`toCancel`**: the
  order it has still to submit, the fills it has still to apply, the object it will push, the rows it will
  write, and the objects whose locks it will release;
* **`Resumed`** and **`resume_spec`**: what a call does to the objects when it goes on, and what it has still to
  do then.
-/

namespace NexusTrade.Trading

open MatchingEngine (Side Decimal Fill ExecutionReport)

abbrev OrderProgress := Progress Operation Answer Point Outcome

/-! ### What is left to do -/

/-- The report that the engine has answered, if it has accepted the order. -/
def accepted : Option Answer → List ExecutionReport
  | some (.report report) => if report.accepted then [report] else []
  | _ => []

/-- An answer that reports no accepted order leaves nothing to settle, to apply or to push. -/
theorem accepted_eq_nil {answer : Answer} (h : ∀ report, answer = .report report → report.accepted = false) :
    accepted (some answer) = [] := by
  cases answer with
  | report report => exact if_neg (by rw [h report rfl]; exact Bool.false_ne_true)
  | done | cancelled | failed => rfl

theorem accepted_refused {report : ExecutionReport} (h : report.accepted = false) :
    accepted (some (.report report)) = [] := if_neg (by rw [h]; exact Bool.false_ne_true)

theorem accepted_report {report : ExecutionReport} (h : ¬report.accepted = false) :
    accepted (some (.report report)) = [report] := if_pos (by simpa using h)

/-- The object of an order that rests. -/
def resting (service : TradingService) (order : StoredOrder) : List StoredOrder :=
  if shouldRest order then
    [{ order with lockedAmount := remainingLock order (splitSymbol order.symbol).2 service.takerFeeBps }]
  else []

namespace Point

variable (service : TradingService) (answer : Option Answer)

/-- The identifier of an order that has still to be submitted. -/
def toSubmit : Point → List String
  | .checked uuid _ => [uuid]
  | .saved order | .locked order => [order.id]
  | .submitted order _ =>
    match answer with
    | some (.report _) => []
    | _ => [order.id]
  | _ => []

/-- The fills that have still to be applied to their makers. -/
def toApply : Point → List Fill
  | .submitted _ _ => (accepted answer).flatMap ExecutionReport.fills
  | .settled _ _ fill rest | .recorded _ _ fill rest => fill :: rest
  | .makerUpdated _ _ _ rest | .makerUnlocked _ _ _ rest | .produced _ _ rest => rest
  | _ => []

/-- The object that will be pushed, as it will be then. -/
def toPush : Point → List StoredOrder
  | .submitted order _ =>
    (accepted answer).flatMap fun report => resting service (service.filledBy order report)
  | .settled order report _ _ | .recorded order report _ _ | .makerUpdated order report _ _
  | .makerUnlocked order report _ _ | .produced order report _ =>
    resting service (service.filledBy order report)
  | .orderUpdated order _ => resting service order
  | .unlocked order _ restLock =>
    if shouldRest order then [{ order with lockedAmount := restLock }] else []
  | .announced order _ | .matched order _ => if shouldRest order then [order] else []
  | _ => []

/-- What will be written to the row of the order. -/
def toWrite : Point → List (String × Decimal)
  | .submitted order _ =>
    (accepted answer).map fun report => (order.id, (service.filledBy order report).filledQuantity)
  | .settled order report _ _ | .recorded order report _ _ | .makerUpdated order report _ _
  | .makerUnlocked order report _ _ | .produced order report _ =>
    [(order.id, (service.filledBy order report).filledQuantity)]
  | _ => []

/-- The maker whose status will be looked at. -/
def toCheck : Point → List String
  | .makerUpdated _ _ maker _ => [maker]
  | _ => []

/-- The maker whose lock will be emptied. -/
def toEmpty : Point → List String
  | .makerUnlocked _ _ maker _ => [maker]
  | _ => []

/-- The cancelled order whose lock will be emptied. -/
def toCancel : Point → List String
  | .cancelUnlocked orderId => [orderId]
  | _ => []

/-- The order that the engine says it has cancelled. -/
def toRelease : Point → List String
  | .cancelAnswered orderId _ _ _ =>
    match answer with
    | some (.cancelled true) => [orderId]
    | _ => []
  | _ => []

end Point

/-- The filled quantity that an operation writes. -/
def Operation.toWrite : Operation → List (String × Decimal)
  | .updateOrder id (some filledQuantity) _ => [(id, filledQuantity)]
  | _ => []

/-- What is left to do at the point at which a call is. -/
def atPoint {β : Type} (f : Option Answer → Point → List β) : OrderProgress → List β
  | .waiting _ point => f none point
  | .ready answer point => f (some answer) point
  | .finished _ => []

def toSubmit : OrderProgress → List String := atPoint Point.toSubmit

def toApply : OrderProgress → List Fill := atPoint Point.toApply

def toPush (service : TradingService) : OrderProgress → List StoredOrder := atPoint (Point.toPush service)

def toWrite (service : TradingService) (progress : OrderProgress) : List (String × Decimal) :=
  (match progress with
    | .waiting operation _ => operation.toWrite
    | _ => []) ++ atPoint (Point.toWrite service) progress

def toCheck : OrderProgress → List String := atPoint fun _ => Point.toCheck

def toEmpty : OrderProgress → List String := atPoint fun _ => Point.toEmpty

def toCancel : OrderProgress → List String := atPoint fun _ => Point.toCancel

def toRelease : OrderProgress → List String := atPoint Point.toRelease

/-! ### Going on -/

/-- **A call has the same still to do**, or it throws and does nothing more. -/
structure Carries (service : TradingService) (point : Point) (answer : Answer) (next : OrderProgress) :
    Prop where
  submit : toSubmit next = toSubmit (.ready answer point) ∨ toSubmit next = []
  rest : (toApply next = toApply (.ready answer point) ∧
      toPush service next = toPush service (.ready answer point) ∧
      toWrite service next = toWrite service (.ready answer point)) ∨
    (point.taken = true ∧ (∃ failure, answer = .failed failure) ∧
      ∃ error, next = .finished (.abandoned error))
  checks : toCheck next = []
  empties : toEmpty next = []
  cancels : toCancel next = []
  releases : toRelease next = []

/-- **What a call does when it goes on.** -/
inductive Resumed (service : TradingService) (memory : Memory) (answer : Answer) :
    Point → OrderPause → Memory → Prop
  | carries {point : Point} {pause : OrderPause} (same : Carries service point answer pause.progress) :
      Resumed service memory answer point pause memory
  | unknown (order : StoredOrder) (report : ExecutionReport) (fill : Fill) (rest : List Fill)
      (maker : ∀ o ∈ memory.orders, o.id ≠ fill.makerOrderId) :
      Resumed service memory answer (.recorded order report fill rest)
        (.await .produce (.produced order report rest)) memory
  | applied (order : StoredOrder) (report : ExecutionReport) (fill : Fill) (rest : List Fill)
      (maker : StoredOrder) (mem : maker ∈ memory.orders) (hid : maker.id = fill.makerOrderId)
      (status : OrderStatus) :
      Resumed service memory answer (.recorded order report fill rest)
        (.await (.updateOrder maker.id (some (maker.filledQuantity + fill.quantity)) status)
          (.makerUpdated order report maker.id rest))
        (memory.change maker.id fun _ => service.fillMaker maker (service.toTrade order fill))
  | missing (order : StoredOrder) (report : ExecutionReport) (id : String) (rest : List Fill)
      (maker : ∀ o ∈ memory.objects, o.id ≠ id) :
      Resumed service memory answer (.makerUpdated order report id rest)
        (.await .produce (.produced order report rest)) memory
  | kept (order : StoredOrder) (report : ExecutionReport) (rest : List Fill) (maker : StoredOrder)
      (mem : maker ∈ memory.objects) (status : maker.status ≠ .filled) :
      Resumed service memory answer (.makerUpdated order report maker.id rest)
        (.await .produce (.produced order report rest)) memory
  | released (order : StoredOrder) (report : ExecutionReport) (rest : List Fill) (maker : StoredOrder)
      (mem : maker ∈ memory.objects) (status : maker.status = .filled) :
      Resumed service memory answer (.makerUpdated order report maker.id rest)
        (unlocking maker maker.lockedAmount (.makerUnlocked order report maker.id rest)) memory
  | emptied (order : StoredOrder) (report : ExecutionReport) (id : String) (rest : List Fill) :
      Resumed service memory answer (.makerUnlocked order report id rest)
        (.await .produce (.produced order report rest))
        ((memory.change id fun maker => { maker with lockedAmount := 0 }).splice id)
  | pushed {point : Point} (order : StoredOrder) (report : ExecutionReport)
      (last : point = .announced order report ∨ point = .matched order report)
      (rests : shouldRest order = true) :
      Resumed service memory answer point (.finish (.placed order report))
        { memory with orders := memory.orders ++ [order] }
  | found (orderId symbol userId : String) (attempt : ℕ) (order : StoredOrder)
      (mem : order ∈ memory.orders) (hid : order.id = orderId) (done : answer = .cancelled true) :
      Resumed service memory answer (.cancelAnswered orderId symbol userId attempt)
        (unlocking order order.lockedAmount (.cancelUnlocked orderId))
        { memory with released := memory.released ++ [(orderId, order.lockedAmount)] }
  | cancelled (orderId : String) :
      Resumed service memory answer (.cancelUnlocked orderId)
        (.await (.updateOrder orderId none .cancelled) (.cancelSaved orderId))
        (memory.change orderId fun order => { order with lockedAmount := 0, status := .cancelled })
  | spliced (orderId : String) :
      Resumed service memory answer (.cancelSaved orderId) (.await .produce .cancelAnnounced)
        (memory.splice orderId)

section Resume

variable (service : TradingService) (maxRetries : ℕ) {memory : Memory} {answer : Answer}

theorem unlocking_spec (order : StoredOrder) (amount : Decimal) (next : Point) :
    ∃ operation, unlocking order amount next = .await operation next ∧
      ((amount ≤ 0 ∧ operation = .resolved) ∨
        (0 < amount ∧ operation = .walletPost (.unlock (TradingService.mutationOf order amount)))) := by
  rw [unlocking]
  split
  · rename_i hle
    exact ⟨_, rfl, Or.inl ⟨hle, rfl⟩⟩
  · rename_i hle
    exact ⟨_, rfl, Or.inr ⟨not_le.mp hle, rfl⟩⟩

/-- Going on where the operation has failed. -/
theorem resumeFailed_carries (failure : Failure) (point : Point) :
    Carries service point (.failed failure) (resumeFailed maxRetries failure point).progress := by
  cases point with
  | submitted order attempt =>
      rw [resumeFailed]
      split
      · exact ⟨Or.inl rfl, Or.inl ⟨rfl, rfl, rfl⟩, rfl, rfl, rfl, rfl⟩
      · obtain ⟨operation, heq, ⟨_, rfl⟩ | ⟨_, rfl⟩⟩ := unlocking_spec order order.lockedAmount
          (.unreachable (.http 503 ("matching engine unavailable: " ++ failure.error.message))) <;> rw [heq] <;>
          exact ⟨Or.inr rfl, Or.inl ⟨rfl, rfl, rfl⟩, rfl, rfl, rfl, rfl⟩
  | cancelAnswered orderId symbol userId attempt =>
      rw [resumeFailed]
      split <;> exact ⟨Or.inl rfl, Or.inl ⟨rfl, rfl, rfl⟩, rfl, rfl, rfl, rfl⟩
  | checked | saved | locked | unreachable | rejectedUpdated | rejectedUnlocked | cancelUnlocked | cancelSaved
  | cancelAnnounced =>
      exact ⟨Or.inr rfl, Or.inl ⟨rfl, rfl, rfl⟩, rfl, rfl, rfl, rfl⟩
  | settled | recorded | makerUpdated | makerUnlocked | produced | orderUpdated | unlocked | announced
  | matched =>
      exact ⟨Or.inr rfl, Or.inr ⟨rfl, ⟨_, rfl⟩, _, rfl⟩, rfl, rfl, rfl, rfl⟩

variable {service}

/-- Before the engine is asked. -/
theorem afterCheck_carries (uuid : String) (dto : PlaceOrderDto) :
    Carries service (.checked uuid dto) answer (afterCheck service uuid dto).progress := by
  rw [afterCheck]
  split
  · exact ⟨Or.inr rfl, Or.inl ⟨rfl, rfl, rfl⟩, rfl, rfl, rfl, rfl⟩
  · cases hnew : newOrder uuid dto with
    | error e => exact ⟨Or.inr rfl, Or.inl ⟨rfl, rfl, rfl⟩, rfl, rfl, rfl, rfl⟩
    | ok order =>
        have hid : toSubmit (.waiting (.saveOrder (OrderEntity.create order))
            (.saved order)) = [uuid] := congrArg (fun id => [id]) (newOrder_spec hnew).id
        exact ⟨Or.inl hid, Or.inl ⟨rfl, rfl, rfl⟩, rfl, rfl, rfl, rfl⟩

theorem afterSave_carries (order : StoredOrder) :
    Carries service (.saved order) answer (afterSave service order).progress := by
  rw [afterSave]
  split
  · exact ⟨Or.inr rfl, Or.inl ⟨rfl, rfl, rfl⟩, rfl, rfl, rfl, rfl⟩
  · exact ⟨Or.inl rfl, Or.inl ⟨rfl, rfl, rfl⟩, rfl, rfl, rfl, rfl⟩

/-- From one trade to the next, or to the update of the order. -/
theorem nextTrade_carries {point : Point} {order : StoredOrder} {report : ExecutionReport}
    {rest : List Fill} (happly : toApply (.ready answer point) = rest)
    (hpush : toPush service (.ready answer point) = resting service (service.filledBy order report))
    (hwrite : toWrite service (.ready answer point)
      = [(order.id, (service.filledBy order report).filledQuantity)]) :
    Carries service point answer (nextTrade service memory order report rest).progress := by
  cases rest with
  | nil => exact ⟨Or.inr rfl, Or.inl ⟨happly.symm, hpush.symm, hwrite.symm⟩, rfl, rfl, rfl, rfl⟩
  | cons fill rest => exact ⟨Or.inr rfl, Or.inl ⟨happly.symm, hpush.symm, hwrite.symm⟩, rfl, rfl, rfl, rfl⟩

theorem afterReport_carries (order : StoredOrder) (attempt : ℕ) (report : ExecutionReport) :
    Carries service (.submitted order attempt) (.report report)
      (afterReport service memory order report).progress := by
  rw [afterReport]
  split
  · rename_i hrefused
    have hnone : accepted (some (.report report)) = [] := accepted_refused hrefused
    refine ⟨Or.inr rfl, Or.inl ⟨?_, ?_, ?_⟩, rfl, rfl, rfl, rfl⟩
    · show [] = (accepted (some (.report report))).flatMap _
      rw [hnone]
      rfl
    · show [] = (accepted (some (.report report))).flatMap _
      rw [hnone]
      rfl
    · show [] = [] ++ (accepted (some (.report report))).map _
      rw [hnone]
      rfl
  · rename_i haccepted
    have hsome : accepted (some (.report report)) = [report] := accepted_report haccepted
    refine nextTrade_carries ?_ ?_ ?_
    · show (accepted (some (.report report))).flatMap _ = _
      rw [hsome, List.flatMap_singleton]
    · show (accepted (some (.report report))).flatMap _ = _
      rw [hsome, List.flatMap_singleton]
    · show [] ++ (accepted (some (.report report))).map _ = _
      rw [hsome]
      rfl

/-- The order rests with its lock, or nothing is left to push. -/
theorem unlockUnused_carries (order : StoredOrder) (report : ExecutionReport) :
    Carries service (.orderUpdated order report) answer (unlockUnused service order report).progress := by
  rw [unlockUnused]
  have hpush : ∀ restLock, restLock = (if shouldRest order then
        remainingLock order (splitSymbol order.symbol).2 service.takerFeeBps else 0) →
      (if shouldRest order then [{ order with lockedAmount := restLock }] else [])
        = resting service order := by
    rintro _ rfl
    rw [resting]
    split
    · rfl
    · rfl
  obtain ⟨operation, heq, ⟨_, rfl⟩ | ⟨_, rfl⟩⟩ := unlocking_spec order _ (.unlocked order report
    (if shouldRest order then remainingLock order (splitSymbol order.symbol).2 service.takerFeeBps else 0)) <;>
    rw [heq] <;>
    exact ⟨Or.inr rfl, Or.inl ⟨rfl, hpush _ rfl, rfl⟩, rfl, rfl, rfl, rfl⟩

/-- Applying a fill to its maker. -/
theorem applyFill_spec (order : StoredOrder) (report : ExecutionReport) (fill : Fill) (rest : List Fill) :
    Resumed service memory answer (.recorded order report fill rest)
      (applyFill service memory order report fill rest).1 (applyFill service memory order report fill rest).2 := by
  rw [applyFill]
  cases hfind : memory.orders.find? fun maker => decide (maker.id = fill.makerOrderId) with
  | none =>
      refine .unknown order report fill rest fun o ho hid => ?_
      exact absurd (decide_eq_true hid) (List.find?_eq_none.mp hfind o ho)
  | some maker =>
      have hid := List.find?_some hfind
      rw [decide_eq_true_eq] at hid
      exact .applied order report fill rest maker (List.mem_of_find?_eq_some hfind) hid _

/-- Looking whether the maker is filled. -/
theorem releaseMaker_spec (order : StoredOrder) (report : ExecutionReport) (id : String) (rest : List Fill) :
    Resumed service memory answer (.makerUpdated order report id rest)
      (releaseMaker memory order report id rest) memory := by
  rw [releaseMaker]
  cases hfind : memory.object id with
  | none =>
      refine .missing order report id rest fun o ho hid => ?_
      exact absurd (decide_eq_true hid) (List.find?_eq_none.mp hfind o ho)
  | some maker =>
      have hmem : maker ∈ memory.objects := List.mem_of_find?_eq_some hfind
      have hid := List.find?_some (show memory.objects.find? (fun o => decide (o.id = id)) = _ from hfind)
      rw [decide_eq_true_eq] at hid
      obtain rfl := hid
      dsimp only
      split
      · rename_i hstatus
        exact .released order report rest maker hmem hstatus
      · rename_i hstatus
        exact .kept order report rest maker hmem hstatus

/-- The end of a call that places an order. -/
theorem finishPlacing_spec {point : Point} (order : StoredOrder) (report : ExecutionReport)
    (hlast : point = .announced order report ∨ point = .matched order report) :
    Resumed service memory answer point (finishPlacing memory order report).1
      (finishPlacing memory order report).2 := by
  rw [finishPlacing]
  split
  · rename_i hrest
    exact .pushed order report hlast hrest
  · rename_i hrest
    have hnone : toPush service (.ready answer point) = [] := by
      rcases hlast with rfl | rfl <;> exact if_neg hrest
    refine .carries ⟨Or.inr rfl, Or.inl ⟨?_, hnone.symm, ?_⟩, rfl, rfl, rfl, rfl⟩
    · rcases hlast with rfl | rfl <;> rfl
    · rcases hlast with rfl | rfl <;> rfl

theorem afterCancel_spec (orderId symbol userId : String) (attempt : ℕ) (done : Bool) :
    Resumed service memory (.cancelled done) (.cancelAnswered orderId symbol userId attempt)
      (afterCancel memory orderId symbol userId done).1 (afterCancel memory orderId symbol userId done).2 := by
  have hsame : Resumed service memory (.cancelled done) (.cancelAnswered orderId symbol userId attempt)
      (.finish (.cancelled done)) memory :=
    .carries ⟨Or.inr rfl, Or.inl ⟨rfl, rfl, rfl⟩, rfl, rfl, rfl, rfl⟩
  unfold afterCancel
  cases hfind : memory.orders.find? fun order =>
      decide (order.id = orderId ∧ order.symbol = symbol ∧ order.userId = userId) with
  | none => cases done <;> exact hsame
  | some order =>
      have hfound := List.find?_some hfind
      rw [decide_eq_true_eq] at hfound
      cases done with
      | false => exact hsame
      | true =>
          exact .found orderId symbol userId attempt order (List.mem_of_find?_eq_some hfind) hfound.1 rfl

/-- Going on where the operation has been answered. -/
theorem resumeDone_spec (point : Point) :
    Resumed service memory answer point (resumeDone service memory point answer).1
      (resumeDone service memory point answer).2 := by
  have hidle : ∀ {point : Point} {pause : OrderPause}, toSubmit pause.progress = [] →
      (toApply pause.progress = toApply (.ready answer point) ∧
        toPush service pause.progress = toPush service (.ready answer point) ∧
        toWrite service pause.progress = toWrite service (.ready answer point)) →
      toCheck pause.progress = [] → toEmpty pause.progress = [] → toCancel pause.progress = [] →
      toRelease pause.progress = [] → Resumed service memory answer point pause memory :=
    fun hsubmit hrest hcheck hempty hcancel hrelease =>
      .carries ⟨Or.inr hsubmit, Or.inl hrest, hcheck, hempty, hcancel, hrelease⟩
  cases point with
  | checked uuid dto => exact .carries (afterCheck_carries uuid dto)
  | saved order => exact .carries (afterSave_carries order)
  | locked order => exact .carries ⟨Or.inl rfl, Or.inl ⟨rfl, rfl, rfl⟩, rfl, rfl, rfl, rfl⟩
  | submitted order attempt =>
      cases answer with
      | report report => exact .carries (afterReport_carries order attempt report)
      | done | cancelled | failed => exact hidle rfl ⟨rfl, rfl, rfl⟩ rfl rfl rfl rfl
  | unreachable error => exact hidle rfl ⟨rfl, rfl, rfl⟩ rfl rfl rfl rfl
  | rejectedUpdated order report =>
      rw [resumeDone]
      obtain ⟨operation, heq, ⟨_, rfl⟩ | ⟨_, rfl⟩⟩ :=
        unlocking_spec order order.lockedAmount (.rejectedUnlocked order report) <;> rw [heq] <;>
        exact hidle rfl ⟨rfl, rfl, rfl⟩ rfl rfl rfl rfl
  | rejectedUnlocked order report => exact hidle rfl ⟨rfl, rfl, rfl⟩ rfl rfl rfl rfl
  | settled order report fill rest => exact hidle rfl ⟨rfl, rfl, rfl⟩ rfl rfl rfl rfl
  | recorded order report fill rest => exact applyFill_spec order report fill rest
  | makerUpdated order report maker rest => exact releaseMaker_spec order report maker rest
  | makerUnlocked order report maker rest => exact .emptied order report maker rest
  | produced order report rest => exact .carries (nextTrade_carries rfl rfl rfl)
  | orderUpdated order report => exact .carries (unlockUnused_carries order report)
  | unlocked order report restLock => exact hidle rfl ⟨rfl, rfl, rfl⟩ rfl rfl rfl rfl
  | announced order report =>
      rw [resumeDone]
      split
      · exact finishPlacing_spec order report (Or.inl rfl)
      · exact hidle rfl ⟨rfl, rfl, rfl⟩ rfl rfl rfl rfl
  | matched order report => exact finishPlacing_spec order report (Or.inr rfl)
  | cancelAnswered orderId symbol userId attempt =>
      cases answer with
      | cancelled done => exact afterCancel_spec orderId symbol userId attempt done
      | done | report | failed => exact hidle rfl ⟨rfl, rfl, rfl⟩ rfl rfl rfl rfl
  | cancelUnlocked orderId => exact .cancelled orderId
  | cancelSaved orderId => exact .spliced orderId
  | cancelAnnounced => exact hidle rfl ⟨rfl, rfl, rfl⟩ rfl rfl rfl rfl

/-- **Every step of a call is one of these.** -/
theorem resume_spec (point : Point) {pause : OrderPause} {memory' : Memory}
    (h : resume service maxRetries point answer memory = (pause, memory')) :
    Resumed service memory answer point pause memory' := by
  cases answer with
  | failed failure =>
      obtain ⟨rfl, rfl⟩ := Prod.mk.inj h
      exact .carries (resumeFailed_carries service maxRetries failure point)
  | done | report | cancelled =>
      have h : resumeDone service memory point _ = (pause, memory') := h
      obtain ⟨rfl, rfl⟩ := Prod.mk.inj h
      exact resumeDone_spec point

end Resume

end NexusTrade.Trading
