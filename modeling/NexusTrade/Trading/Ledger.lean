import NexusTrade.Trading.Objects
import NexusTrade.Trading.Submissions
import NexusTrade.Trading.Tracking

/-!
# The ledger of the service

The invariant of the program.  It is about the objects of the orders that rest, those that calls share and those that
they will push, and about what the calls have still to do.

* **`Standing`**: an object is one of an order that has been submitted, and has an account;
* **`Ledger`** is the invariant;
* **`Ledger.moved`**, **`Ledger.entered`** and **`Ledger.traded`**: a step that submits nothing, a call that is made,
  and a submission.
-/

namespace NexusTrade.Trading

open MatchingEngine (Decimal Fill ExecutionReport Core CoreInv UuidSource OrderBook Matched Traded orderIds filledOf
  fillsOf)

/-- An order as it was made. -/
def StoredOrder.placed (order : StoredOrder) : StoredOrder :=
  { order with filledQuantity := 0, status := .new, lockedAmount := 0 }

/-- **An order that has been submitted.** -/
structure Known (parse : DecimalParser) (service : TradingService) (handled : List Handled) (order : StoredOrder) :
    Prop where
  new : NewOrder order.id order.placed
  priced : Priced service order
  plain : order.type.isStop = false
  sent : ∃ h ∈ handled, h.symbol = order.symbol ∧ engineOrder parse order = some h.request

/-- **How an order stands**: it has been submitted, and its object has an account. -/
structure Standing (parse : DecimalParser) (service : TradingService) (handled : List Handled)
    (fills due : List Fill) (released : List String) (order : StoredOrder) : Prop where
  known : Known parse service handled order
  account : Account service fills due released order

/-- The identifiers of the orders that a call will submit or push. -/
def claimed (service : TradingService) (progress : OrderProgress) : List String :=
  toSubmit progress ++ (toPush service progress).map StoredOrder.id

/-- The identifier that is drawn in a call. -/
def OrderCall.drawn : OrderCall → List String
  | .placeOrder uuid _ => [uuid]
  | .cancelOrder _ _ _ => []

/-- The identifiers that have been drawn. -/
def drawn (threads : List OrderThread) : List String := threads.flatMap fun thread => thread.call.drawn

/-- The identifiers of the orders that cancellations have released. -/
def Memory.releasedIds (memory : Memory) : List String := memory.released.map Prod.fst

/-- **The invariant of the program.** -/
structure Ledger (parse : DecimalParser) (service : TradingService) (world : OrderWorld) : Prop where
  engaged : Engaged world.remote
  prepared : ∀ thread ∈ world.threads, Prepared service thread.progress
  ids : (world.memory.ids ++ gather (claimed service) world.threads).Nodup
  unsent : ∀ h ∈ world.remote.handled, h.id ∉ gather toSubmit world.threads
  drawn : ∀ id, id ∈ world.memory.ids ∨ id ∈ gather (claimed service) world.threads ∨
    id ∈ world.remote.handled.map Handled.id → id ∈ Trading.drawn world.threads
  due : gather toApply world.threads ⊆ world.remote.fills
  objects : ∀ order ∈ world.memory.objects, Standing parse service world.remote.handled world.remote.fills
    (gather toApply world.threads) world.memory.releasedIds order
  pushes : ∀ order ∈ gather (toPush service) world.threads, Standing parse service world.remote.handled
    world.remote.fills (gather toApply world.threads) world.memory.releasedIds order
  empties : ∀ id ∈ gather toEmpty world.threads,
    ∃ order ∈ world.memory.objects, order.id = id ∧ order.quantity ≤ order.filledQuantity
  cancels : ∀ id ∈ gather toCancel world.threads, id ∈ world.memory.releasedIds

section Standing

variable {parse : DecimalParser} {service : TradingService} {handled handled' : List Handled}
  {fills fills' due due' : List Fill} {released released' : List String} {order order' : StoredOrder}

/-- What is known of an order does not change. -/
theorem Known.same (h : Known parse service handled order) (hplaced : order'.placed = order.placed) :
    Known parse service handled order' := by
  obtain ⟨hnew, ⟨lock, hlock⟩, hplain, g, hg, hsymbol, hrequest⟩ := h
  have hsame : order'.placed.symbol = order.placed.symbol := by rw [hplaced]
  refine ⟨?_, ⟨lock, ?_⟩, ?_, g, hg, ?_, ?_⟩
  · show NewOrder order'.placed.id order'.placed
    rw [hplaced]
    exact hnew
  · show estimateLockAmount order'.placed (splitSymbol order'.placed.symbol).2 service.takerFeeBps = .ok lock
    rw [hplaced]
    exact hlock
  · show order'.placed.type.isStop = false
    rw [hplaced]
    exact hplain
  · exact hsymbol.trans hsame.symm
  · show engineOrder parse order'.placed = some g.request
    rw [hplaced]
    exact hrequest

theorem Known.mono (h : Known parse service handled order) (hsub : handled ⊆ handled') :
    Known parse service handled' order := by
  obtain ⟨hnew, hpriced, hplain, g, hg, hsent⟩ := h
  exact ⟨hnew, hpriced, hplain, g, hsub hg, hsent⟩

/-- The submission of the order. -/
theorem Known.submission (h : Known parse service handled order) : ∃ g ∈ handled, g.symbol = order.symbol ∧
    g.id = order.id ∧ g.request.userId = order.userId ∧ engineOrder parse order = some g.request := by
  obtain ⟨g, hg, hsymbol, hrequest⟩ := h.sent
  obtain ⟨price, stopPrice, quantity, _, _, _, heq⟩ := engineOrder_fields hrequest
  refine ⟨g, hg, hsymbol, ?_, ?_, hrequest⟩
  · rw [Handled.id, heq]
    rfl
  · rw [heq]
    rfl

/-- More fills, and less that is due. -/
theorem Standing.mono (h : Standing parse service handled fills due released order) {more extra : List Fill}
    (hhandled : handled ⊆ handled') (hfills : fills' = fills ++ more) (hdue : due'.Subperm (due ++ extra))
    (hextra : extra.Sublist more) (hreleased : released ⊆ released') :
    Standing parse service handled' fills' due' released' order :=
  ⟨h.known.mono hhandled, h.account.mono hfills hdue hextra hreleased⟩

/-- No more fills, and no more that is due. -/
theorem Standing.less (h : Standing parse service handled fills due released order) (hdue : due'.Subperm due)
    (hreleased : released ⊆ released') : Standing parse service handled fills due' released' order := by
  refine h.mono (List.Subset.refl _) (List.append_nil _).symm ?_ (List.Sublist.refl []) hreleased
  rw [List.append_nil]
  exact hdue

end Standing

/-! ### A step that submits nothing -/

section Moved

variable {parse : DecimalParser} {service : TradingService} {memory memory' : Memory} {remote remote' : Remote}
  {pre post : List OrderThread} {call : OrderCall} {progress progress' : OrderProgress}

theorem drawn_at (pre post : List OrderThread) (call : OrderCall) (progress progress' : OrderProgress) :
    drawn (pre ++ ⟨call, progress⟩ :: post) = drawn (pre ++ ⟨call, progress'⟩ :: post) := by
  rw [drawn, drawn, List.flatMap_append, List.flatMap_append, List.flatMap_cons, List.flatMap_cons]

/-- What the calls hold after a step of one of them. -/
theorem gather_subperm {β : Type} {f : OrderProgress → List β} (h : (f progress').Subperm (f progress)) :
    (gather f (pre ++ ⟨call, progress'⟩ :: post)).Subperm (gather f (pre ++ ⟨call, progress⟩ :: post)) :=
  ((gather_perm f pre post call progress').subperm.trans
    ((List.subperm_append_right _).mpr h)).trans (gather_perm f pre post call progress).symm.subperm

/-- The identifiers of the objects and of the orders to come, after a step of one call. -/
theorem claimed_subperm
    (hids : (memory'.ids ++ claimed service progress').Subperm (memory.ids ++ claimed service progress)) :
    (memory'.ids ++ gather (claimed service) (pre ++ ⟨call, progress'⟩ :: post)).Subperm
      (memory.ids ++ gather (claimed service) (pre ++ ⟨call, progress⟩ :: post)) := by
  have hleft := (gather_perm (claimed service) pre post call progress').append_left memory'.ids
  have hright := (gather_perm (claimed service) pre post call progress).append_left memory.ids
  rw [← List.append_assoc] at hleft hright
  exact hleft.subperm.trans (((List.subperm_append_right _).mpr hids).trans hright.symm.subperm)

theorem claims_of_submit {id : String} {threads : List OrderThread} (h : id ∈ gather toSubmit threads) :
    id ∈ gather (claimed service) threads := by
  obtain ⟨thread, hthread, hid⟩ := mem_gather.mp h
  exact mem_gather.mpr ⟨thread, hthread, List.mem_append_left _ hid⟩

/-- What all calls have, the one that makes a step and the others. -/
theorem forall_gather {β : Type} {f : OrderProgress → List β} {P : β → Prop} (h : ∀ b ∈ f progress', P b)
    (hothers : ∀ b ∈ gather f (pre ++ post), P b) : ∀ b ∈ gather f (pre ++ ⟨call, progress'⟩ :: post), P b := by
  intro b hb
  rcases List.mem_append.mp ((gather_perm f pre post call progress').subset hb) with hb | hb
  · exact h b hb
  · exact hothers b hb

theorem mem_gather_others {β : Type} {f : OrderProgress → List β} {b : β} (hb : b ∈ gather f (pre ++ post)) :
    b ∈ gather f (pre ++ ⟨call, progress⟩ :: post) :=
  (gather_perm f pre post call progress).symm.subset (List.mem_append_right _ hb)

theorem mem_gather_own {β : Type} {f : OrderProgress → List β} {b : β} (hb : b ∈ f progress) :
    b ∈ gather f (pre ++ ⟨call, progress⟩ :: post) :=
  (gather_perm f pre post call progress).symm.subset (List.mem_append_left _ hb)

/-- **A step that submits nothing.** -/
theorem Ledger.moved (h : Ledger parse service ⟨memory, remote, pre ++ ⟨call, progress⟩ :: post⟩)
    (hengaged : Engaged remote') (hhandled : remote'.handled = remote.handled)
    (hprepared : Prepared service progress')
    (hids : (memory'.ids ++ claimed service progress').Subperm (memory.ids ++ claimed service progress))
    (hsubmit : toSubmit progress' ⊆ toSubmit progress) (hdue : (toApply progress').Subperm (toApply progress))
    (hreleased : memory.releasedIds ⊆ memory'.releasedIds)
    (hobjects : ∀ order ∈ memory'.objects, Standing parse service remote.handled remote.fills
      (gather toApply (pre ++ ⟨call, progress'⟩ :: post)) memory'.releasedIds order)
    (hpushes : toPush service progress' ⊆ toPush service progress)
    (hempties : ∀ id ∈ toEmpty progress',
      ∃ order ∈ memory'.objects, order.id = id ∧ order.quantity ≤ order.filledQuantity)
    (hkeeps : ∀ order ∈ memory.objects, order.quantity ≤ order.filledQuantity →
      ∃ order' ∈ memory'.objects, order'.id = order.id ∧ order'.quantity ≤ order'.filledQuantity)
    (hcancels : ∀ id ∈ toCancel progress', id ∈ memory'.releasedIds) :
    Ledger parse service ⟨memory', remote', pre ++ ⟨call, progress'⟩ :: post⟩ := by
  have hfills : remote'.fills = remote.fills := congrArg (List.flatMap Handled.fills) hhandled
  have hduelist : (gather toApply (pre ++ ⟨call, progress'⟩ :: post)).Subperm
      (gather toApply (pre ++ ⟨call, progress⟩ :: post)) := gather_subperm hdue
  have hall : (memory'.ids ++ gather (claimed service) (pre ++ ⟨call, progress'⟩ :: post)).Subperm
      (memory.ids ++ gather (claimed service) (pre ++ ⟨call, progress⟩ :: post)) := claimed_subperm hids
  obtain ⟨ids, hperm, hsub⟩ := hall
  refine ⟨hengaged, ?_, hperm.nodup_iff.mp (hsub.nodup h.ids), ?_, ?_, ?_, ?_, ?_, ?_, ?_⟩
  · intro thread hthread
    rcases List.mem_append.mp hthread with hmem | hmem
    · exact h.prepared thread (List.mem_append_left _ hmem)
    · rcases List.mem_cons.mp hmem with rfl | hmem
      · exact hprepared
      · exact h.prepared thread (List.mem_append_right _ (List.mem_cons_of_mem _ hmem))
  · intro g hg hin
    rw [hhandled] at hg
    refine h.unsent g hg ?_
    rcases List.mem_append.mp ((gather_perm toSubmit pre post call progress').subset hin) with hin | hin
    · exact mem_gather_own (hsubmit hin)
    · exact mem_gather_others hin
  · intro id hid
    show id ∈ Trading.drawn (pre ++ ⟨call, progress'⟩ :: post)
    rw [drawn_at pre post call progress' progress]
    refine h.drawn id ?_
    rcases hid with hid | hid | hid
    · rcases List.mem_append.mp (hsub.subset (hperm.mem_iff.mpr (List.mem_append_left _ hid))) with hid | hid
      · exact Or.inl hid
      · exact Or.inr (Or.inl hid)
    · rcases List.mem_append.mp (hsub.subset (hperm.mem_iff.mpr (List.mem_append_right _ hid))) with hid | hid
      · exact Or.inl hid
      · exact Or.inr (Or.inl hid)
    · rw [hhandled] at hid
      exact Or.inr (Or.inr hid)
  · intro f hf
    show f ∈ remote'.fills
    rw [hfills]
    exact h.due (hduelist.subset hf)
  · intro order horder
    show Standing parse service remote'.handled remote'.fills _ _ order
    rw [hhandled, hfills]
    exact hobjects order horder
  · show ∀ order ∈ gather (toPush service) (pre ++ ⟨call, progress'⟩ :: post), Standing parse service remote'.handled
      remote'.fills _ _ order
    rw [hhandled, hfills]
    refine forall_gather (fun order horder => ?_) fun order horder => ?_
    · exact (h.pushes order (mem_gather_own (hpushes horder))).less hduelist hreleased
    · exact (h.pushes order (mem_gather_others horder)).less hduelist hreleased
  · refine forall_gather hempties fun id hid => ?_
    obtain ⟨order, horder, rfl, hfull⟩ := h.empties id (mem_gather_others hid)
    exact hkeeps order horder hfull
  · exact forall_gather hcancels fun id hid => hreleased (h.cancels id (mem_gather_others hid))

end Moved

/-! ### A call that is made -/

section Entered

variable {parse : DecimalParser} {service : TradingService} {memory : Memory} {remote : Remote}
  {threads : List OrderThread} {call : OrderCall} {progress : OrderProgress}

theorem gather_snoc {β : Type} (f : OrderProgress → List β) :
    gather f (threads ++ [⟨call, progress⟩]) = gather f threads ++ f progress := by
  rw [gather_append]
  exact congrArg _ (List.append_nil (f progress))

/-- What a call that is made has still to do. -/
structure Enters (service : TradingService) (call : OrderCall) (progress : OrderProgress) : Prop where
  prepared : Prepared service progress
  submit : toSubmit progress = [] ∨ toSubmit progress = call.drawn
  apply : toApply progress = []
  push : toPush service progress = []
  empties : toEmpty progress = []
  cancels : toCancel progress = []
  releases : toRelease progress = []

theorem enter_spec (call : OrderCall) (memory : Memory) :
    Enters service call (enter call memory).1.progress ∧ (enter call memory).2 = memory := by
  cases call with
  | placeOrder uuid dto => exact ⟨⟨enter_prepared _, Or.inr rfl, rfl, rfl, rfl, rfl, rfl⟩, rfl⟩
  | cancelOrder orderId symbol userId =>
      have hprepared : Prepared service (enter (.cancelOrder orderId symbol userId) memory).1.progress :=
        enter_prepared _
      rw [enter] at hprepared ⊢
      cases hsymbol : requireSymbol symbol with
      | error e =>
          rw [hsymbol] at hprepared
          exact ⟨⟨hprepared, Or.inl rfl, rfl, rfl, rfl, rfl, rfl⟩, rfl⟩
      | ok symbol =>
          rw [hsymbol] at hprepared
          exact ⟨⟨hprepared, Or.inl rfl, rfl, rfl, rfl, rfl, rfl⟩, rfl⟩

/-- **A call is made** with a new identifier. -/
theorem Ledger.entered (h : Ledger parse service ⟨memory, remote, threads⟩) (henters : Enters service call progress)
    (hnew : ∀ id ∈ call.drawn, id ∉ Trading.drawn threads) :
    Ledger parse service ⟨memory, remote, threads ++ [⟨call, progress⟩]⟩ := by
  have hclaimed : claimed service progress = [] ∨ claimed service progress = call.drawn := by
    rw [claimed, henters.push, List.map_nil, List.append_nil]
    exact henters.submit
  have hfresh : ∀ id ∈ claimed service progress, id ∈ call.drawn := by
    intro id hid
    rcases hclaimed with hnil | hdrawn
    · rw [hnil] at hid
      cases hid
    · exact hdrawn ▸ hid
  have hnodup : (claimed service progress).Nodup := by
    rcases hclaimed with hnil | hdrawn
    · rw [hnil]
      exact List.nodup_nil
    · rw [hdrawn]
      cases call with
      | placeOrder uuid dto => exact List.nodup_singleton uuid
      | cancelOrder _ _ _ => exact List.nodup_nil
  have hdrawn : Trading.drawn (threads ++ [⟨call, progress⟩]) = Trading.drawn threads ++ call.drawn := by
    rw [Trading.drawn, List.flatMap_append, List.flatMap_singleton]
    rfl
  have hdue : gather toApply (threads ++ [⟨call, progress⟩]) = gather toApply threads := by
    rw [gather_snoc, henters.apply, List.append_nil]
  refine ⟨h.engaged, ?_, ?_, ?_, ?_, ?_, ?_, ?_, ?_, ?_⟩
  · intro thread hthread
    rcases List.mem_append.mp hthread with hold | hlast
    · exact h.prepared thread hold
    · rw [List.mem_singleton.mp hlast]
      exact henters.prepared
  · show (memory.ids ++ gather (claimed service) (threads ++ [⟨call, progress⟩])).Nodup
    rw [gather_snoc, ← List.append_assoc, List.nodup_append]
    refine ⟨h.ids, hnodup, fun id hid id' hid' heq => hnew id' (hfresh id' hid') (heq ▸ h.drawn id ?_)⟩
    exact (List.mem_append.mp hid).imp_right Or.inl
  · intro g hg hin
    rw [gather_snoc] at hin
    rcases List.mem_append.mp hin with hin | hin
    · exact h.unsent g hg hin
    · refine hnew g.id (hfresh g.id (List.mem_append_left _ hin)) (h.drawn g.id (Or.inr (Or.inr ?_)))
      exact List.mem_map_of_mem hg
  · intro id hid
    show id ∈ Trading.drawn (threads ++ [⟨call, progress⟩])
    rw [hdrawn, List.mem_append]
    rcases hid with hid | hid | hid
    · exact Or.inl (h.drawn id (Or.inl hid))
    · have hid : id ∈ gather (claimed service) (threads ++ [⟨call, progress⟩]) := hid
      rw [gather_snoc] at hid
      rcases List.mem_append.mp hid with hid | hid
      · exact Or.inl (h.drawn id (Or.inr (Or.inl hid)))
      · exact Or.inr (hfresh id hid)
    · exact Or.inl (h.drawn id (Or.inr (Or.inr hid)))
  · show gather toApply (threads ++ [⟨call, progress⟩]) ⊆ remote.fills
    rw [hdue]
    exact h.due
  · show ∀ order ∈ memory.objects, Standing parse service remote.handled remote.fills
      (gather toApply (threads ++ [⟨call, progress⟩])) memory.releasedIds order
    rw [hdue]
    exact h.objects
  · show ∀ order ∈ gather (toPush service) (threads ++ [⟨call, progress⟩]), Standing parse service remote.handled
      remote.fills (gather toApply (threads ++ [⟨call, progress⟩])) memory.releasedIds order
    rw [hdue, gather_snoc, henters.push, List.append_nil]
    exact h.pushes
  · show ∀ id ∈ gather toEmpty (threads ++ [⟨call, progress⟩]), _
    rw [gather_snoc, henters.empties, List.append_nil]
    exact h.empties
  · show ∀ id ∈ gather toCancel (threads ++ [⟨call, progress⟩]), _
    rw [gather_snoc, henters.cancels, List.append_nil]
    exact h.cancels

end Entered

/-! ### A submission -/

section Traded

variable {parse : DecimalParser} {service : TradingService} {memory : Memory} {remote : Remote}
  {pre post : List OrderThread} {call : OrderCall} {order : StoredOrder} {attempt : ℕ}
  {request : MatchingEngine.Order} {source : UuidSource} {report : ExecutionReport} {dropped : List ExecutionReport}
  {book : OrderBook} {engine : Core}

/-- A stop order that is held does not rest in the service. -/
theorem plain_of_rests {book' : OrderBook} (htraded : Traded source book request report dropped book')
    (hsent : engineOrder parse order = some request) (hrests : shouldRest (service.filledBy order report) = true) :
    order.type.isStop = false := by
  obtain ⟨price, stopPrice, quantity, -, -, -, rfl⟩ := engineOrder_fields hsent
  obtain ⟨middle, -, -, hsubmitted, -⟩ := htraded.steps
  cases hsubmitted with
  | refused reason why =>
      rw [TradingService.shouldRest_done .rejected (by exact mapOrderStatus_wire _) (by decide) (by decide)] at hrests
      cases hrests
  | held admissible hkind hstop =>
      rw [TradingService.shouldRest_done .rejected (by exact mapOrderStatus_wire _) (by decide) (by decide)] at hrests
      cases hrests
  | killed admissible hkind hshort =>
      rw [TradingService.shouldRest_done .expired (by exact mapOrderStatus_wire _) (by decide) (by decide)] at hrests
      cases hrests
  | executed admissible hkind _ _ _ _ _ => exact hkind

/-- What is pushed of a report. -/
theorem mem_toPush_reported {rested : StoredOrder}
    (h : rested ∈ toPush service (.ready (.report report) (.submitted order attempt))) :
    report.accepted = true ∧ shouldRest (service.filledBy order report) = true ∧
      rested = { service.filledBy order report with
        lockedAmount := remainingLock (service.filledBy order report) (splitSymbol order.symbol).2
          service.takerFeeBps } := by
  obtain ⟨report', hreport', hrested⟩ := List.mem_flatMap.mp h
  rw [accepted] at hreport'
  split at hreport'
  · rename_i haccepted
    rw [List.mem_singleton] at hreport'
    subst hreport'
    rw [resting] at hrested
    split at hrested
    · rename_i hrests
      exact ⟨haccepted, hrests, List.mem_singleton.mp hrested⟩
    · cases hrested
  · cases hreport'

/-- The fills that are due of a report. -/
theorem toApply_reported :
    toApply (.ready (.report report) (.submitted order attempt)) = if report.accepted then report.fills else [] := by
  show (accepted (some (.report report))).flatMap ExecutionReport.fills = _
  rw [accepted]
  split
  · exact List.flatMap_singleton ..
  · rfl

/-- The order that was submitted is no longer to be submitted; it may have to be pushed. -/
theorem claimed_reported :
    (claimed service (.ready (.report report) (.submitted order attempt))).Sublist [order.id] := by
  show ([] ++ (toPush service (.ready (.report report) (.submitted order attempt))).map StoredOrder.id).Sublist _
  rw [List.nil_append]
  show (((accepted (some (.report report))).flatMap fun report =>
    resting service (service.filledBy order report)).map StoredOrder.id).Sublist _
  rw [accepted]
  split
  · rw [List.flatMap_singleton, resting]
    split
    · exact List.Sublist.refl _
    · exact List.nil_sublist _
  · exact List.nil_sublist _

/-- **The account of a new order**: all fills that name it are its own. -/
theorem Account.opened {fills due : List Fill} {released : List String}
    (hunfilled : order.filledQuantity = 0)
    (hown : ∀ f ∈ report.fills, f.takerOrderId = order.id ∧ f.makerOrderId ≠ order.id)
    (hdue : ∀ f ∈ due, f.makerOrderId ≠ order.id)
    (hrests : shouldRest (service.filledBy order report) = true) :
    Account service (fills ++ report.fills) due released { service.filledBy order report with
      lockedAmount := remainingLock (service.filledBy order report) (splitSymbol order.symbol).2
        service.takerFeeBps } := by
  have hnamed : report.fills.filter (fun f => f.names order.id) = report.fills :=
    List.filter_eq_self.mpr fun f hf => decide_eq_true (Or.inr (hown f hf).1)
  have hnone : due.filter (fun f => decide (f.makerOrderId = order.id)) = [] :=
    List.filter_eq_nil_iff.mpr fun f hf => by
      rw [decide_eq_true_eq]
      exact hdue f hf
  have hfilled : (service.filledBy order report).filledQuantity = quantityOf report.fills := by
    rw [TradingService.filledBy_filledQuantity, hunfilled, zero_add]
    rfl
  refine ⟨⟨report.fills, [], ⟨?_, fun f hf => (hown f hf).2, by simp, ?_⟩, Or.inr (Or.inr ?_)⟩,
    fun hstatus => ?_⟩
  · show (report.fills ++ [] ++ due.filter fun f : Fill => f.makerOrderId = order.id).Subperm
      ((fills ++ report.fills).filter fun f => f.names order.id)
    rw [hnone, List.append_nil, List.append_nil, List.filter_append, hnamed]
    exact (List.sublist_append_right _ _).subperm
  · show (service.filledBy order report).filledQuantity = quantityOf report.fills + 0
    rw [hfilled, add_zero]
  · show remainingLock (service.filledBy order report) _ _ = remainingLock _ _ _ - 0
    rw [sub_zero, ← hfilled]
    rfl
  · have hstatus : (service.filledBy order report).status = .filled := hstatus
    rw [shouldRest, hstatus] at hrests
    simp at hrests

/-- What is known of an order whose report says that it rests. -/
theorem Known.opened {handled : List Handled} {g : Handled} (hnew : NewOrder order.id order)
    (hpriced : Priced service order) (hplain : order.type.isStop = false) (hg : g ∈ handled)
    (hsymbol : g.symbol = order.symbol) (hsent : engineOrder parse order = some g.request) (lockedAmount : Decimal) :
    Known parse service handled { service.filledBy order report with lockedAmount := lockedAmount } where
  new := ⟨rfl, hnew.symbol, hnew.lockedAsset, rfl, rfl⟩
  priced := hpriced
  plain := hplain
  sent := ⟨g, hg, hsymbol, hsent⟩

/-- **A submission.** -/
theorem Ledger.traded
    (h : Ledger parse service
      ⟨memory, remote, pre ++ ⟨call, .waiting (.submitOrder order) (.submitted order attempt)⟩ :: post⟩)
    (hinv : CoreInv engine) (hsent : engineOrder parse order = some request)
    (htraded : Traded source (bookOf remote.engine order.symbol) request report dropped book)
    (hbooks : engine.books = remote.engine.books.insert order.symbol book) :
    Ledger parse service
      ⟨memory, { remote with
          engine := engine
          handled := remote.handled ++ [⟨order.symbol, request, report.accepted, report.fills, fillsOf dropped⟩] },
        pre ++ ⟨call, .ready (.report report) (.submitted order attempt)⟩ :: post⟩ := by
  have hpoint := h.prepared ⟨call, .waiting (.submitOrder order) (.submitted order attempt)⟩
    (List.mem_append_right _ List.mem_cons_self)
  obtain ⟨⟨hnew, hpriced⟩, -⟩ := hpoint
  have hrequest : request.orderId = order.id ∧ request.Built := by
    obtain ⟨price, stopPrice, quantity, -, -, -, rfl⟩ := engineOrder_fields hsent
    exact ⟨rfl, rfl, rfl⟩
  have hsubmit : order.id ∈ toSubmit (.waiting (.submitOrder order) (.submitted order attempt)) := List.mem_cons_self
  have hunsent : order.id ∉ remote.handled.map Handled.id := by
    intro hin
    obtain ⟨g, hg, hid⟩ := List.mem_map.mp hin
    refine h.unsent g hg ?_
    rw [hid]
    exact mem_gather_own hsubmit
  have hown := fun f hf => h.engaged.incoming (f := f) htraded (hrequest.1 ▸ hunsent) hf
  rw [hrequest.1] at hown
  have hfills : Remote.fills { remote with
      engine := engine
      handled := remote.handled ++ [⟨order.symbol, request, report.accepted, report.fills, fillsOf dropped⟩] }
      = remote.fills ++ report.fills := by
    rw [Remote.fills, List.flatMap_append, List.flatMap_singleton]
    rfl
  have hdue : (gather toApply (pre ++ ⟨call, .ready (.report report) (.submitted order attempt)⟩ :: post)).Subperm
      (gather toApply (pre ++ ⟨call, .waiting (.submitOrder order) (.submitted order attempt)⟩ :: post)
        ++ if report.accepted then report.fills else []) := by
    have hafter := gather_perm toApply pre post call (.ready (.report report) (.submitted order attempt))
    have hbefore := gather_perm toApply pre post call (.waiting (.submitOrder order) (.submitted order attempt))
    rw [toApply_reported] at hafter
    exact (hafter.trans (List.perm_append_comm.trans (hbefore.symm.append_right _))).subperm
  have hextra : (if report.accepted then report.fills else []).Sublist report.fills := by
    split
    · exact List.Sublist.refl _
    · exact List.nil_sublist _
  have hids : (memory.ids ++ gather (claimed service)
        (pre ++ ⟨call, .ready (.report report) (.submitted order attempt)⟩ :: post)).Subperm
      (memory.ids ++ gather (claimed service)
        (pre ++ ⟨call, .waiting (.submitOrder order) (.submitted order attempt)⟩ :: post)) :=
    claimed_subperm (List.Sublist.append_left claimed_reported _).subperm
  obtain ⟨ids, hperm, hsub⟩ := hids
  have hstanding : ∀ rested : StoredOrder, Standing parse service remote.handled remote.fills
        (gather toApply (pre ++ ⟨call, .waiting (.submitOrder order) (.submitted order attempt)⟩ :: post))
        memory.releasedIds rested →
      Standing parse service
        (remote.handled ++ [⟨order.symbol, request, report.accepted, report.fills, fillsOf dropped⟩])
        (remote.fills ++ report.fills)
        (gather toApply (pre ++ ⟨call, .ready (.report report) (.submitted order attempt)⟩ :: post))
        memory.releasedIds rested :=
    fun rested hrested => hrested.mono (List.subset_append_left _ _) rfl hdue hextra (List.Subset.refl _)
  have hdueFills : gather toApply (pre ++ ⟨call, .ready (.report report) (.submitted order attempt)⟩ :: post)
      ⊆ remote.fills ++ report.fills := by
    intro f hf
    rcases List.mem_append.mp (hdue.subset hf) with hf | hf
    · exact List.mem_append_left _ (h.due hf)
    · exact List.mem_append_right _ (hextra.subset hf)
  refine ⟨h.engaged.traded hinv htraded hbooks hrequest.2 (hrequest.1 ▸ hunsent), ?_,
    hperm.nodup_iff.mp (hsub.nodup h.ids), ?_, ?_, ?_, ?_, ?_, ?_, ?_⟩
  · intro thread hthread
    rcases mem_around hthread ⟨call, .waiting (.submitOrder order) (.submitted order attempt)⟩ with rfl | hother
    · exact ⟨hnew, hpriced⟩
    · exact h.prepared thread hother
  · -- the order is to be submitted by this call only
    have honce : ∀ id ∈ gather toSubmit (pre ++ post), id ≠ order.id := by
      intro id hid heq
      have hclaimed := (h.ids.of_append_right).perm
        (gather_perm (claimed service) pre post call (.waiting (.submitOrder order) (.submitted order attempt)))
      refine (List.nodup_append.mp hclaimed).2.2 order.id (List.mem_append_left _ hsubmit) id ?_ heq.symm
      exact claims_of_submit hid
    intro g hg hin
    rcases List.mem_append.mp ((gather_perm toSubmit pre post call _).subset hin) with hin | hin
    · cases hin
    · rcases List.mem_append.mp hg with hg | hg
      · exact h.unsent g hg (mem_gather_others hin)
      · rw [List.mem_singleton.mp hg] at hin
        exact honce _ hin hrequest.1
  · intro id hid
    show id ∈ Trading.drawn (pre ++ ⟨call, .ready (.report report) (.submitted order attempt)⟩ :: post)
    rw [drawn_at pre post call _ (.waiting (.submitOrder order) (.submitted order attempt))]
    refine h.drawn id ?_
    have hbefore : id ∈ memory.ids ++ gather (claimed service)
        (pre ++ ⟨call, .ready (.report report) (.submitted order attempt)⟩ :: post) →
        id ∈ memory.ids ∨ id ∈ gather (claimed service)
          (pre ++ ⟨call, .waiting (.submitOrder order) (.submitted order attempt)⟩ :: post) :=
      fun hin => List.mem_append.mp (hsub.subset (hperm.mem_iff.mpr hin))
    rcases hid with hid | hid | hid
    · exact (hbefore (List.mem_append_left _ hid)).imp_right Or.inl
    · exact (hbefore (List.mem_append_right _ hid)).imp_right Or.inl
    · rw [List.map_append, List.mem_append] at hid
      rcases hid with hid | hid
      · exact Or.inr (Or.inr hid)
      · rw [List.mem_singleton.mp hid]
        refine Or.inr (Or.inl (mem_gather_own (List.mem_append_left _ ?_)))
        exact List.mem_singleton.mpr hrequest.1
  · show _ ⊆ Remote.fills _
    rw [hfills]
    exact hdueFills
  · intro rested hrested
    show Standing parse service _ (Remote.fills _) _ _ rested
    rw [hfills]
    exact hstanding rested (h.objects rested hrested)
  · intro rested hrested
    show Standing parse service _ (Remote.fills _) _ _ rested
    rw [hfills]
    rcases List.mem_append.mp ((gather_perm (toPush service) pre post call _).subset hrested) with hown' | hother
    · obtain ⟨haccepted, hrests, rfl⟩ := mem_toPush_reported hown'
      refine ⟨Known.opened hnew hpriced (plain_of_rests htraded hsent hrests)
        (List.mem_append_right _ (List.mem_singleton_self _)) rfl hsent _, ?_⟩
      · refine Account.opened hnew.unfilled (fun f hf => ⟨(hown f hf).1, (hown f hf).2.1⟩) ?_ hrests
        intro f hf hmaker
        rcases List.mem_append.mp (hdueFills hf) with hold | hlast
        · have hnames := h.engaged.not_named hunsent hold
          rw [Fill.names, hmaker] at hnames
          simp at hnames
        · exact (hown f hlast).2.1 hmaker
    · exact hstanding rested (h.pushes rested (mem_gather_others hother))
  · intro id hid
    rcases List.mem_append.mp ((gather_perm toEmpty pre post call _).subset hid) with hown' | hother
    · cases hown'
    · exact h.empties id (mem_gather_others hother)
  · intro id hid
    rcases List.mem_append.mp ((gather_perm toCancel pre post call _).subset hid) with hown' | hother
    · cases hown'
    · exact h.cancels id (mem_gather_others hother)

end Traded

end NexusTrade.Trading
