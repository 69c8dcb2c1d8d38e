import NexusTrade.Trading.Placing

/-!
# Maker fills that are counted

`placeOrder` calls that proceed together, and the fills of one that the orders of others have made.  An order can be
matched as soon as the engine has it, but its object is found only once its own call has pushed it.

* **`FillsCounted`**: once all calls have returned, every order that was left in `orders` says what the engine has done;
* **`Findable`** is the condition on a step, **`Counted`** the invariant;
* **`Counted.quiet`**, **`Counted.traded`**, **`Counted.applied`**, **`Counted.emptied`** and **`Counted.pushed`**: the
  steps of a call;
* **`Stored`** and **`stored_step`**: the columns keep the filled quantities that are written to them;
* **`fills_are_counted`**: in every run whose steps meet the condition, every fill is counted.
-/

namespace NexusTrade.Trading

open MatchingEngine (Decimal Fill ExecutionReport Core CoreInv CallFiles UuidSource DecimalCodec OrderBook Traded
  filledOf fillsOf)

/-! ### The claim -/

/-- A call has returned. -/
def returned : OrderProgress → Bool
  | .finished _ => true
  | _ => false

/-- **Every fill is counted**, once all calls have returned. -/
def FillsCounted (service : TradingService) (world : OrderWorld) : Prop :=
  (∀ thread ∈ world.threads, returned thread.progress = true) →
    ∀ id ∈ gather rested world.threads, ∃ order ∈ world.memory.objects, order.id = id ∧ Reflects service world order

/-! ### The condition -/

/-- A call places an order. -/
def OrderCall.places : OrderCall → Bool
  | .placeOrder _ _ => true
  | .cancelOrder _ _ _ => false

/-- A submission sets off a stop order. -/
def setsOff (parse : DecimalParser) (engine : Core) : OrderProgress → Bool
  | .waiting (.submitOrder order) _ =>
    (engineOrder parse order).any fun request => (bookOf engine order.symbol).setsOffStop request
  | _ => false

def Answer.isFailed : Answer → Bool
  | .failed _ => true
  | _ => false

/-- An operation fails once the engine has accepted the order of its call. -/
def failsLate (codec : DecimalCodec) (parse : DecimalParser) (attempt : Attempt Failure (CallFiles × UuidSource))
    (remote : Remote) : OrderProgress → Bool
  | .waiting operation point => point.taken && (perform codec parse operation attempt remote).1.isFailed
  | _ => false

/-- The orders whose filled quantity an operation writes. -/
def writing : OrderProgress → List String
  | .waiting operation _ => operation.toWrite.map Prod.fst
  | _ => []

/-- The filled quantities that an operation writes. -/
def quantitiesWritten : OrderProgress → List Decimal
  | .waiting operation _ => operation.toWrite.map Prod.snd
  | _ => []

/-- The maker to which a call applies a fill. -/
def applying : OrderProgress → List String
  | .ready _ (.recorded _ _ fill _) => [fill.makerOrderId]
  | _ => []

/-- **The condition on a step.**  Calls place orders, with new identifiers.  No answer to a submission is lost, none sets
off a stop order, and nothing fails once the engine has accepted the order of a call.  Where the filled quantity of an
order is written, the column keeps the number as it is, and what its object says is still to be written.  Where a fill is
applied, its maker is in `orders`, and where a maker is taken out, it still is, or `orders` is empty. -/
def Findable (codec : DecimalCodec) (parse : DecimalParser) (service : TradingService) (world : OrderWorld) :
    OrderTurn → Prop
  | .enter call => call.places = true ∧ ∀ id ∈ call.drawn, id ∉ drawn world.threads
  | .perform pos attempt => ∀ thread ∈ world.threads[pos]?,
    (submits thread.progress = true → answerLost attempt = false) ∧
    setsOff parse world.remote.engine thread.progress = false ∧
    failsLate codec parse attempt world.remote thread.progress = false ∧
    (∀ q ∈ quantitiesWritten thread.progress, numeric 38 18 (.fin q) = some (.fin q)) ∧
    ∀ order ∈ world.memory.objects ++ gather (toPush service) world.threads, order.id ∈ writing thread.progress →
      (order.id, order.filledQuantity) ∈ gather (toWrite service) world.threads
  | .resume pos => ∀ thread ∈ world.threads[pos]?,
    (∀ id ∈ applying thread.progress, id ∈ world.memory.orders.map StoredOrder.id) ∧
    ∀ id ∈ toEmpty thread.progress, id ∈ world.memory.orders.map StoredOrder.id ∨ world.memory.orders = []

instance (codec : DecimalCodec) (parse : DecimalParser) (service : TradingService) (world : OrderWorld) :
    DecidablePred (Findable codec parse service world)
  | .enter call => inferInstanceAs (Decidable (_ ∧ ∀ id ∈ call.drawn, id ∉ drawn world.threads))
  | .perform pos _ => inferInstanceAs (Decidable (∀ thread ∈ world.threads[pos]?, _ ∧ _ ∧ _ ∧ _ ∧ _))
  | .resume pos => inferInstanceAs (Decidable (∀ thread ∈ world.threads[pos]?, _ ∧ _))

/-! ### The invariant -/

/-- The makers that a call may take out. -/
def toLeave (progress : OrderProgress) : List String := toCheck progress ++ toEmpty progress

/-- **What runs keep**: every object counts its fills, but those that calls have still to apply to it; the orders that
are complete are about to be taken out; and the rows are written, or about to be. -/
structure Counted (parse : DecimalParser) (service : TradingService) (world : OrderWorld) : Prop where
  ledger : Ledger parse service world
  undropped : ∀ h ∈ world.remote.handled, h.dropped = []
  fitting : ∀ thread ∈ world.threads,
    Fitting thread.progress ∧ Emptying world.memory world.remote.served thread.progress
  inserted : gather Trading.inserted world.threads ⊆ world.remote.rows.map OrderEntity.id
  rested : gather Trading.rested world.threads ⊆ world.memory.ids
  kept : ∀ order ∈ world.memory.orders, Kept service world.remote.fills (gather toApply world.threads) order
  leaves : ∀ order ∈ world.memory.orders, order.quantity ≤ order.filledQuantity →
    order.id ∈ gather toLeave world.threads
  pushes : ∀ order ∈ gather (toPush service) world.threads,
    Kept service world.remote.fills (gather toApply world.threads) order ∧ order.filledQuantity < order.quantity
  closed : ∀ order ∈ world.memory.spliced,
    Closed service world.remote.fills (gather toApply world.threads) world.remote.served order
  rows : ∀ order ∈ world.memory.objects ++ gather (toPush service) world.threads,
    Rowed world.remote.rows (gather (toWrite service) world.threads) order

section Steps

variable {codec : DecimalCodec} {parse : DecimalParser} {service : TradingService} {memory memory' : Memory}
  {remote remote' : Remote} {pre post threads : List OrderThread} {call : OrderCall} {progress progress' : OrderProgress}
  {operation : Operation} {answer : Answer} {point : Point} {pause : OrderPause}

theorem gather_congr {β : Type} {f : OrderProgress → List β} (h : f progress' = f progress) :
    gather f (pre ++ ⟨call, progress'⟩ :: post) = gather f (pre ++ ⟨call, progress⟩ :: post) := by
  rw [gather, gather, List.flatMap_append, List.flatMap_append, List.flatMap_cons, List.flatMap_cons]
  show _ ++ (f progress' ++ _) = _ ++ (f progress ++ _)
  rw [h]

/-- What the calls hold changes as what one of them holds. -/
theorem gather_subset {β : Type} {f : OrderProgress → List β} (h : f progress' ⊆ f progress) :
    gather f (pre ++ ⟨call, progress'⟩ :: post) ⊆ gather f (pre ++ ⟨call, progress⟩ :: post) :=
  forall_gather (fun _ hb => mem_gather_own (h hb)) fun _ hb => mem_gather_others hb

/-- What is pushed has no object yet. -/
theorem Ledger.apart {world : OrderWorld} (h : Ledger parse service world) {id : String} (hid : id ∈ world.memory.ids)
    {order : StoredOrder} (horder : order ∈ gather (toPush service) world.threads) : id ≠ order.id := by
  obtain ⟨thread, hthread, hpush⟩ := mem_gather.mp horder
  have hclaim : order.id ∈ gather (claimed service) world.threads :=
    mem_gather.mpr ⟨thread, hthread, List.mem_append_right _ (List.mem_map_of_mem hpush)⟩
  exact (List.nodup_append.mp h.ids).2.2 id hid order.id hclaim

/-- An order that has still to be submitted has no object. -/
theorem Ledger.unsubmitted (h : Ledger parse service ⟨memory, remote, pre ++ ⟨call, progress⟩ :: post⟩) {id : String}
    (hid : id ∈ toSubmit progress) (hown : toPush service progress = []) {order : StoredOrder}
    (horder : order ∈ memory.objects ++ gather (toPush service) (pre ++ ⟨call, progress⟩ :: post)) : id ≠ order.id := by
  obtain ⟨-, hclaims, hapart⟩ := List.nodup_append.mp h.ids
  have hclaimed : id ∈ claimed service progress := List.mem_append_left _ hid
  rcases List.mem_append.mp horder with hobject | hpush
  · exact (hapart order.id (List.mem_map_of_mem hobject) id (mem_gather_own hclaimed)).symm
  · have hclaims := hclaims.perm (gather_perm (claimed service) pre post call progress)
    refine (List.nodup_append.mp hclaims).2.2 id hclaimed order.id ?_
    rcases List.mem_append.mp ((gather_perm (toPush service) pre post call progress).subset hpush) with hpush | hpush
    · rw [hown] at hpush
      cases hpush
    · obtain ⟨thread, hthread, hpush⟩ := mem_gather.mp hpush
      exact mem_gather.mpr ⟨thread, hthread, List.mem_append_right _ (List.mem_map_of_mem hpush)⟩

namespace Counted

/-- **A step that leaves the objects, the fills that are due and the orders to come.** -/
theorem quiet (h : Counted parse service ⟨memory, remote, pre ++ ⟨call, progress⟩ :: post⟩)
    (hledger : Ledger parse service ⟨memory, remote', pre ++ ⟨call, progress'⟩ :: post⟩)
    (hhandled : remote'.handled = remote.handled) (hserved : remote.served ⊆ remote'.served)
    (hfitting : Fitting progress' ∧ Emptying memory remote'.served progress')
    (hids : remote.rows.map OrderEntity.id ⊆ remote'.rows.map OrderEntity.id)
    (hinserted : Trading.inserted progress' ⊆ remote'.rows.map OrderEntity.id)
    (hrested : Trading.rested progress' ⊆ memory.ids) (happly : toApply progress' = toApply progress)
    (hpush : toPush service progress' = toPush service progress)
    (hleaves : ∀ order ∈ memory.orders, order.quantity ≤ order.filledQuantity → order.id ∈ toLeave progress →
      order.id ∈ toLeave progress')
    (hrows : ∀ order ∈ memory.objects ++ gather (toPush service) (pre ++ ⟨call, progress⟩ :: post),
      Rowed remote.rows (gather (toWrite service) (pre ++ ⟨call, progress⟩ :: post)) order →
      Rowed remote'.rows (gather (toWrite service) (pre ++ ⟨call, progress'⟩ :: post)) order) :
    Counted parse service ⟨memory, remote', pre ++ ⟨call, progress'⟩ :: post⟩ := by
  have hfills : remote'.fills = remote.fills := congrArg (List.flatMap Handled.fills) hhandled
  have hdue : gather toApply (pre ++ ⟨call, progress'⟩ :: post) = gather toApply (pre ++ ⟨call, progress⟩ :: post) :=
    gather_congr happly
  have hpushes : gather (toPush service) (pre ++ ⟨call, progress'⟩ :: post)
      = gather (toPush service) (pre ++ ⟨call, progress⟩ :: post) := gather_congr hpush
  refine ⟨hledger, ?_, ?_, ?_, ?_, ?_, ?_, ?_, ?_, ?_⟩
  · show ∀ g ∈ remote'.handled, g.dropped = []
    rw [hhandled]
    exact h.undropped
  · intro thread hthread
    rcases mem_around hthread ⟨call, progress⟩ with rfl | hother
    · exact hfitting
    · exact ⟨(h.fitting thread hother).1, (h.fitting thread hother).2.mono hserved fun _ horder _ => horder⟩
  · exact forall_gather hinserted fun id hid => hids (h.inserted (mem_gather_others hid))
  · exact forall_gather hrested fun id hid => h.rested (mem_gather_others hid)
  · intro order horder
    show Kept service remote'.fills _ order
    rw [hfills, hdue]
    exact h.kept order horder
  · intro order horder hfull
    rcases List.mem_append.mp ((gather_perm toLeave pre post call progress).subset (h.leaves order horder hfull)) with
      hown | hother
    · exact mem_gather_own (hleaves order horder hfull hown)
    · exact mem_gather_others hother
  · show ∀ order ∈ gather (toPush service) (pre ++ ⟨call, progress'⟩ :: post), Kept service remote'.fills _ order ∧ _
    rw [hfills, hdue, hpushes]
    exact h.pushes
  · intro order horder
    show Closed service remote'.fills _ remote'.served order
    rw [hfills, hdue]
    exact (h.closed order horder).mono hserved
  · show ∀ order ∈ memory.objects ++ gather (toPush service) (pre ++ ⟨call, progress'⟩ :: post), _
    rw [hpushes]
    exact fun order horder => hrows order horder (h.rows order horder)

/-! ### A call that is made -/

/-- **A call is made.** -/
theorem entered (h : Counted parse service ⟨memory, remote, threads⟩) {uuid : String} {dto : PlaceOrderDto}
    (hledger : Ledger parse service
      ⟨memory, remote, threads ++ [⟨.placeOrder uuid dto, .waiting .findRows (.checked uuid dto)⟩]⟩) :
    Counted parse service
      ⟨memory, remote, threads ++ [⟨.placeOrder uuid dto, .waiting .findRows (.checked uuid dto)⟩]⟩ := by
  have hsame : ∀ {β : Type} (f : OrderProgress → List β), f (.waiting .findRows (.checked uuid dto)) = [] →
      gather f (threads ++ [⟨.placeOrder uuid dto, .waiting .findRows (.checked uuid dto)⟩]) = gather f threads := by
    intro β f hf
    rw [gather_snoc, hf, List.append_nil]
  have hdue := hsame toApply rfl
  have hpushes := hsame (toPush service) rfl
  refine ⟨hledger, h.undropped, ?_, ?_, ?_, ?_, ?_, ?_, ?_, ?_⟩
  · intro thread hthread
    rcases List.mem_append.mp hthread with hold | hlast
    · exact h.fitting thread hold
    · rw [List.mem_singleton.mp hlast]
      exact ⟨⟨trivial, trivial⟩, trivial⟩
  · show gather Trading.inserted (threads ++ [_]) ⊆ _
    rw [hsame Trading.inserted rfl]
    exact h.inserted
  · show gather Trading.rested (threads ++ [_]) ⊆ _
    rw [hsame Trading.rested rfl]
    exact h.rested
  · show ∀ order ∈ memory.orders, Kept service remote.fills (gather toApply (threads ++ [_])) order
    rw [hdue]
    exact h.kept
  · show ∀ order ∈ memory.orders, _ → order.id ∈ gather toLeave (threads ++ [_])
    rw [hsame toLeave rfl]
    exact h.leaves
  · show ∀ order ∈ gather (toPush service) (threads ++ [_]),
      Kept service remote.fills (gather toApply (threads ++ [_])) order ∧ _
    rw [hdue, hpushes]
    exact h.pushes
  · show ∀ order ∈ memory.spliced, Closed service remote.fills (gather toApply (threads ++ [_])) remote.served order
    rw [hdue]
    exact h.closed
  · show ∀ order ∈ memory.objects ++ gather (toPush service) (threads ++ [_]),
      Rowed remote.rows (gather (toWrite service) (threads ++ [_])) order
    rw [hpushes, hsame (toWrite service) rfl]
    exact h.rows

/-! ### Operations -/

/-- What is left to do once an operation is answered, where the answer is no report of an order that was accepted. -/
theorem answered_same (service : TradingService) (operation : Operation) (point : Point)
    (hquiet : ∀ report, answer = .report report → report.accepted = false) :
    toApply (.ready answer point) = toApply (.waiting operation point) ∧
      toPush service (.ready answer point) = toPush service (.waiting operation point) ∧
      atPoint (Point.toWrite service) (.ready answer point)
        = atPoint (Point.toWrite service) (.waiting operation point) := by
  cases point with
  | submitted order attempt =>
      have hnone : accepted (some answer) = [] := accepted_eq_nil hquiet
      refine ⟨?_, ?_, ?_⟩
      · show (accepted (some answer)).flatMap _ = _
        rw [hnone]
        rfl
      · show (accepted (some answer)).flatMap _ = _
        rw [hnone]
        rfl
      · show (accepted (some answer)).map _ = _
        rw [hnone]
        rfl
  | _ => exact ⟨rfl, rfl, rfl⟩

/-- Where filled quantities are written, the engine has accepted the order of the call. -/
theorem toWrite_of_fits (hfits : Fits operation point) (htaken : point.taken = false) : operation.toWrite = [] := by
  cases point with
  | saved order =>
      have heq : operation = .saveOrder (OrderEntity.create order) := hfits
      rw [heq]
      rfl
  | settled | recorded | makerUpdated | makerUnlocked | produced | orderUpdated | unlocked | announced
  | matched => cases htaken
  | _ =>
      cases operation with
      | updateOrder id filledQuantity status =>
          cases filledQuantity with
          | none => rfl
          | some filledQuantity => exact hfits.elim
      | _ => rfl

/-- **An operation is answered**, and the engine has accepted no order. -/
theorem answered (h : Counted parse service ⟨memory, remote, pre ++ ⟨call, .waiting operation point⟩ :: post⟩)
    (hledger : Ledger parse service ⟨memory, remote', pre ++ ⟨call, .ready answer point⟩ :: post⟩)
    (hhandled : remote'.handled = remote.handled)
    (hquiet : ∀ report, answer = .report report → report.accepted = false)
    (hlate : point.taken = true → ¬answer.Failed)
    (heffect : (remote'.rows = operation.rows remote.rows ∧ remote'.served = operation.served remote.served) ∨
      (remote'.rows = remote.rows ∧ remote'.served = remote.served ∧ answer.Failed))
    (hcurrent : ∀ order ∈ memory.objects ++ gather (toPush service) (pre ++ ⟨call, .waiting operation point⟩ :: post),
      order.id ∈ operation.toWrite.map Prod.fst →
        (order.id, order.filledQuantity) ∈ gather (toWrite service) (pre ++ ⟨call, .waiting operation point⟩ :: post)) :
    Counted parse service ⟨memory, remote', pre ++ ⟨call, .ready answer point⟩ :: post⟩ := by
  obtain ⟨⟨hplacing, hfits⟩, hemptying⟩ :=
    h.fitting ⟨call, .waiting operation point⟩ (List.mem_append_right _ List.mem_cons_self)
  obtain ⟨happly, hpush, hwrite⟩ := answered_same service operation point hquiet
  have hserved : remote.served ⊆ remote'.served := by
    rcases heffect with ⟨-, heq⟩ | ⟨-, heq, -⟩
    · rw [heq]
      cases operation with
      | walletPost request => exact List.subset_append_left _ _
      | _ => exact List.Subset.refl _
    · rw [heq]
      exact List.Subset.refl _
  have hids : remote.rows.map OrderEntity.id ⊆ remote'.rows.map OrderEntity.id := by
    rcases heffect with ⟨heq, -⟩ | ⟨heq, -, -⟩
    · rw [heq]
      exact ids_rows remote.rows operation
    · rw [heq]
      exact List.Subset.refl _
  have hbefore : ∀ id ∈ point.inserted none, id ∈ remote'.rows.map OrderEntity.id := by
    intro id hid
    have hown : id ∈ Trading.inserted (.waiting operation point) := hid
    exact hids (h.inserted (mem_gather_own hown))
  refine h.quiet hledger hhandled hserved ⟨⟨hplacing, hlate⟩, ?_⟩ hids ?_ (List.nil_subset _) happly hpush
    (fun _ _ _ hin => hin) fun order horder hrowed => ?_
  · cases point with
    | makerUnlocked order report id rest =>
        intro maker hmaker hid
        refine (hemptying maker hmaker hid).imp_right fun hunlock => ?_
        rcases heffect with ⟨-, heq⟩ | ⟨-, -, failed⟩
        · rw [heq, hunlock]
          exact List.mem_append_right _ (List.mem_singleton_self _)
        · exact absurd failed (hlate rfl)
    | _ => trivial
  · cases point with
    | saved order =>
        cases answer with
        | failed failure => exact List.nil_subset _
        | done | report | cancelled =>
            intro id hid
            obtain rfl : id = order.id := List.mem_singleton.mp hid
            have heq : operation = .saveOrder (OrderEntity.create order) := hfits
            rcases heffect with ⟨hrows, -⟩ | ⟨-, -, failure, failed⟩
            · rw [hrows, heq]
              exact mem_ids_saveOrder remote.rows (OrderEntity.create order)
            · cases failed
    | locked | submitted => exact hbefore
    | _ => exact List.nil_subset _
  · have hpending : ∀ entry ∈ gather (toWrite service) (pre ++ ⟨call, .waiting operation point⟩ :: post),
        entry ∈ operation.toWrite ∨
          entry ∈ gather (toWrite service) (pre ++ ⟨call, .ready answer point⟩ :: post) := by
      refine forall_gather (fun entry hentry => ?_) fun entry hentry => Or.inr (mem_gather_others hentry)
      rcases List.mem_append.mp hentry with hnow | hlater
      · exact Or.inl hnow
      · refine Or.inr (mem_gather_own (List.mem_append_right _ ?_))
        rw [hwrite]
        exact hlater
    rcases heffect with ⟨hrows, -⟩ | ⟨hrows, -, failed⟩
    · rw [hrows]
      refine hrowed.performed hpending (fun row hrow => ?_) (hcurrent order horder)
      cases point with
      | saved saved =>
          have heq : operation = .saveOrder (OrderEntity.create saved) := hfits
          obtain rfl : OrderEntity.create saved = row := Operation.saveOrder.inj (heq.symm.trans hrow)
          have hsubmit : saved.id ∈ toSubmit (.waiting operation (.saved saved)) := List.mem_cons_self
          exact h.ledger.unsubmitted hsubmit rfl horder
      | makerUpdated order report id rest =>
          obtain ⟨filledQuantity, status, heq⟩ := hfits
          rw [heq] at hrow
          cases hrow
      | orderUpdated order report =>
          have heq : operation = .updateOrder order.id (some order.filledQuantity) order.status := hfits
          rw [heq] at hrow
          cases hrow
      | _ =>
          rw [hrow] at hfits
          exact hfits.elim
    · have htaken : point.taken = false := Bool.not_eq_true _ ▸ fun htaken => hlate htaken failed
      have hnothing := toWrite_of_fits hfits htaken
      rw [hrows]
      refine ⟨hrowed.inserted, hrowed.written.imp_right fun hlater => (hpending _ hlater).resolve_left ?_⟩
      rw [hnothing]
      exact List.not_mem_nil

/-- **A submission** that sets off no stop order. -/
theorem traded {order : StoredOrder} {attempt : ℕ} {request : MatchingEngine.Order} {source : UuidSource}
    {report : ExecutionReport} {dropped : List ExecutionReport} {book : OrderBook} {engine : Core}
    (h : Counted parse service
      ⟨memory, remote, pre ++ ⟨call, .waiting (.submitOrder order) (.submitted order attempt)⟩ :: post⟩)
    (hinv : CoreInv engine) (hsent : engineOrder parse order = some request)
    (htraded : Traded source (bookOf remote.engine order.symbol) request report dropped book)
    (hbooks : engine.books = remote.engine.books.insert order.symbol book)
    (hcalm : (bookOf remote.engine order.symbol).setsOffStop request = false) :
    Counted parse service
      ⟨memory, { remote with
          engine := engine
          handled := remote.handled ++ [⟨order.symbol, request, report.accepted, report.fills, fillsOf dropped⟩] },
        pre ++ ⟨call, .ready (.report report) (.submitted order attempt)⟩ :: post⟩ := by
  have hledger := h.ledger.traded hinv hsent htraded hbooks
  obtain ⟨⟨hnew, -⟩, -⟩ := h.ledger.prepared ⟨call, .waiting (.submitOrder order) (.submitted order attempt)⟩
    (List.mem_append_right _ List.mem_cons_self)
  have hrequest : request.orderId = order.id := by
    obtain ⟨price, stopPrice, quantity, -, -, -, rfl⟩ := engineOrder_fields hsent
    rfl
  have hsubmit : order.id ∈ toSubmit (.waiting (.submitOrder order) (.submitted order attempt)) := List.mem_cons_self
  have hunsent : order.id ∉ remote.handled.map Handled.id := by
    intro hin
    obtain ⟨g, hg, hid⟩ := List.mem_map.mp hin
    refine h.ledger.unsent g hg ?_
    rw [hid]
    exact mem_gather_own hsubmit
  have hown := fun f hf => h.ledger.engaged.incoming (f := f) htraded (hrequest ▸ hunsent) hf
  rw [hrequest] at hown
  have hbook := (h.ledger.engaged.history order.symbol).inv
  have hdropped : fillsOf dropped = [] := by
    rw [(htraded.calm hbook hcalm).2]
    rfl
  have hnofills : report.accepted = false → report.fills = [] := by
    obtain ⟨middle, -, -, hsubmitted, -⟩ := htraded.steps
    exact hsubmitted.no_fills
  have hfills : Remote.fills { remote with
      engine := engine
      handled := remote.handled ++ [⟨order.symbol, request, report.accepted, report.fills, fillsOf dropped⟩] }
      = remote.fills ++ report.fills := by
    rw [Remote.fills, List.flatMap_append, List.flatMap_singleton]
    rfl
  have hdue : (gather toApply (pre ++ ⟨call, .ready (.report report) (.submitted order attempt)⟩ :: post)).Perm
      (gather toApply (pre ++ ⟨call, .waiting (.submitOrder order) (.submitted order attempt)⟩ :: post)
        ++ report.fills) := by
    have hafter := gather_perm toApply pre post call (.ready (.report report) (.submitted order attempt))
    have hbefore := gather_perm toApply pre post call (.waiting (.submitOrder order) (.submitted order attempt))
    have hreported : toApply (.ready (.report report) (.submitted order attempt)) = report.fills := by
      rw [toApply_reported]
      split
      · rfl
      · rename_i hrefused
        exact (hnofills (Bool.not_eq_true _ ▸ hrefused)).symm
    rw [hreported] at hafter
    exact hafter.trans (List.perm_append_comm.trans (hbefore.symm.append_right _))
  have hothers : ∀ rested ∈ memory.objects ++ gather (toPush service)
      (pre ++ ⟨call, .waiting (.submitOrder order) (.submitted order attempt)⟩ :: post),
      ∀ f ∈ report.fills, f.takerOrderId ≠ rested.id := by
    intro rested hrested f hf
    rw [(hown f hf).1]
    exact h.ledger.unsubmitted hsubmit rfl hrested
  have hpending : gather (toWrite service)
        (pre ++ ⟨call, .waiting (.submitOrder order) (.submitted order attempt)⟩ :: post)
      ⊆ gather (toWrite service) (pre ++ ⟨call, .ready (.report report) (.submitted order attempt)⟩ :: post) :=
    gather_subset (List.nil_subset _)
  have hsame : ∀ {β : Type} (f : OrderProgress → List β),
      f (.ready (.report report) (.submitted order attempt))
        = f (.waiting (.submitOrder order) (.submitted order attempt)) →
      gather f (pre ++ ⟨call, .ready (.report report) (.submitted order attempt)⟩ :: post)
        = gather f (pre ++ ⟨call, .waiting (.submitOrder order) (.submitted order attempt)⟩ :: post) :=
    fun f hf => gather_congr hf
  refine ⟨hledger, ?_, ?_, ?_, ?_, ?_, ?_, ?_, ?_, ?_⟩
  · intro g hg
    rcases List.mem_append.mp hg with hold | hlast
    · exact h.undropped g hold
    · rw [List.mem_singleton.mp hlast]
      exact hdropped
  · intro thread hthread
    rcases mem_around hthread ⟨call, .waiting (.submitOrder order) (.submitted order attempt)⟩ with rfl | hother
    · exact ⟨⟨trivial, fun htaken => by cases htaken⟩, trivial⟩
    · exact h.fitting thread hother
  · show gather Trading.inserted (pre ++ _ :: post) ⊆ _
    rw [hsame Trading.inserted rfl]
    exact h.inserted
  · show gather Trading.rested (pre ++ _ :: post) ⊆ _
    rw [hsame Trading.rested rfl]
    exact h.rested
  · intro rested hrested
    show Kept service (Remote.fills _) _ rested
    rw [hfills]
    have hobject : rested ∈ memory.objects := List.mem_append_left _ hrested
    exact (h.kept rested hrested).traded hdue (hothers rested (List.mem_append_left _ hobject))
  · intro rested hrested hfull
    rw [hsame toLeave rfl]
    exact h.leaves rested hrested hfull
  · intro rested hrested
    show Kept service (Remote.fills _) _ rested ∧ _
    rw [hfills]
    rcases List.mem_append.mp ((gather_perm (toPush service) pre post call _).subset hrested) with hown' | hother
    · obtain ⟨-, hrests, rfl⟩ := mem_toPush_reported hown'
      refine ⟨Kept.opened hnew.unfilled hown (fun f hf => h.ledger.engaged.not_named hunsent hf) ?_ hrests, ?_⟩
      · intro f hf hmaker
        rcases List.mem_append.mp (hdue.subset hf) with hold | hlast
        · have hnames := h.ledger.engaged.not_named hunsent (h.ledger.due hold)
          rw [Fill.names, hmaker] at hnames
          simp at hnames
        · exact (hown f hlast).2.1 hmaker
      · exact sub_pos.mp (of_decide_eq_true (Bool.and_eq_true_iff.mp hrests).1)
    · have hbefore : rested ∈ gather (toPush service)
          (pre ++ ⟨call, .waiting (.submitOrder order) (.submitted order attempt)⟩ :: post) := mem_gather_others hother
      obtain ⟨hkept, hopen⟩ := h.pushes rested hbefore
      exact ⟨hkept.traded hdue (hothers rested (List.mem_append_right _ hbefore)), hopen⟩
  · intro rested hrested
    show Closed service (Remote.fills _) _ remote.served rested
    rw [hfills]
    have hobject : rested ∈ memory.objects := List.mem_append_right _ hrested
    exact (h.closed rested hrested).traded hdue (hothers rested (List.mem_append_left _ hobject))
  · intro rested hrested
    have hold : ∀ rested ∈ memory.objects ++ gather (toPush service)
        (pre ++ ⟨call, .waiting (.submitOrder order) (.submitted order attempt)⟩ :: post),
        Rowed remote.rows (gather (toWrite service)
          (pre ++ ⟨call, .ready (.report report) (.submitted order attempt)⟩ :: post)) rested := by
      intro rested hrested
      obtain ⟨hinserted, hwritten⟩ := h.rows rested hrested
      exact ⟨hinserted, hwritten.imp_right fun hin => hpending hin⟩
    rcases List.mem_append.mp hrested with hobject | hpush
    · exact hold rested (List.mem_append_left _ hobject)
    · rcases List.mem_append.mp ((gather_perm (toPush service) pre post call _).subset hpush) with hown' | hother
      · obtain ⟨haccepted, -, rfl⟩ := mem_toPush_reported hown'
        refine ⟨h.inserted (mem_gather_own (List.mem_singleton_self order.id)), Or.inr (mem_gather_own ?_)⟩
        refine List.mem_append_right _ (List.mem_map_of_mem (a := report) ?_)
        rw [accepted, if_pos haccepted]
        exact List.mem_singleton_self _
      · exact hold rested (List.mem_append_right _ (mem_gather_others hother))

/-! ### Going on -/

/-- **A fill is applied** to its maker. -/
theorem applied {order maker : StoredOrder} {report : ExecutionReport} {fill : Fill} {rest : List Fill}
    {status : OrderStatus} (h : Counted parse service ⟨memory, remote, pre ++ ⟨call, progress⟩ :: post⟩)
    (hexact : parse.Exact) (hprogress : progress = .ready answer (.recorded order report fill rest))
    (hnext : progress' = .waiting (.updateOrder maker.id (some (maker.filledQuantity + fill.quantity)) status)
      (.makerUpdated order report maker.id rest))
    (hmem : maker ∈ memory.orders) (hid : maker.id = fill.makerOrderId) :
    Counted parse service
      ⟨memory.change maker.id fun _ => service.fillMaker maker (service.toTrade order fill), remote,
        pre ++ ⟨call, progress'⟩ :: post⟩ := by
  have hledger : Ledger parse service
      ⟨memory.change maker.id fun _ => service.fillMaker maker (service.toTrade order fill), remote,
        pre ++ ⟨call, progress'⟩ :: post⟩ := by
    rw [hnext]
    have hbefore := h.ledger
    rw [hprogress] at hbefore
    exact hbefore.applied hmem hid status
  have hids : memory.ids.Nodup := h.ledger.ids.of_append_left
  obtain ⟨front, back, horders⟩ := List.append_of_mem hmem
  have hne := Memory.ids_ne horders hids
  rw [Memory.change_at horders hids] at hledger ⊢
  have happly : toApply progress = fill :: toApply progress' := by
    rw [hprogress, hnext]
    rfl
  have hdue : (gather toApply (pre ++ ⟨call, progress⟩ :: post)).Perm
      (fill :: gather toApply (pre ++ ⟨call, progress'⟩ :: post)) := by
    have hbefore := gather_perm toApply pre post call progress
    rw [happly] at hbefore
    exact hbefore.trans ((gather_perm toApply pre post call progress').symm.cons fill)
  have hpushes : gather (toPush service) (pre ++ ⟨call, progress'⟩ :: post)
      = gather (toPush service) (pre ++ ⟨call, progress⟩ :: post) := by
    refine gather_congr ?_
    rw [hprogress, hnext]
    rfl
  have hopen : maker.filledQuantity < maker.quantity := by
    obtain ⟨own, applied, hcounts, -⟩ := (h.kept maker hmem).counts
    have hknown := (h.ledger.objects maker (List.mem_append_left _ hmem)).known
    refine hcounts.open_of_due (fun f hf => h.ledger.engaged.pos (h.ledger.due hf))
      (h.ledger.engaged.filled_le hexact hknown (h.kept maker hmem).quantity) (mem_gather_own ?_) hid.symm
    rw [happly]
    exact List.mem_cons_self
  have hother : ∀ o ∈ front ++ service.fillMaker maker (service.toTrade order fill) :: back,
      o = service.fillMaker maker (service.toTrade order fill) ∨ (o ∈ memory.orders ∧ fill.makerOrderId ≠ o.id) := by
    intro o ho
    rcases List.mem_append.mp ho with hfront | hback
    · refine Or.inr ⟨horders ▸ List.mem_append_left _ hfront, ?_⟩
      rw [← hid]
      exact (hne o (List.mem_append_left _ hfront)).symm
    · rcases List.mem_cons.mp hback with rfl | hback
      · exact Or.inl rfl
      · refine Or.inr ⟨horders ▸ List.mem_append_right _ (List.mem_cons_of_mem _ hback), ?_⟩
        rw [← hid]
        exact (hne o (List.mem_append_right _ (List.mem_append_left _ hback))).symm
  refine ⟨hledger, h.undropped, ?_, ?_, ?_, ?_, ?_, ?_, ?_, ?_⟩
  · intro thread hthread
    rcases mem_around hthread ⟨call, progress⟩ with rfl | hthread'
    · rw [hnext]
      exact ⟨⟨trivial, _, _, rfl⟩, trivial⟩
    · obtain ⟨hfitting, hemptying⟩ := h.fitting thread hthread'
      refine ⟨hfitting, hemptying.mono (List.Subset.refl _) fun o ho hempty => ?_⟩
      rcases hother o ho with rfl | ⟨hold, -⟩
      · -- the maker is open, and so is not about to be taken out
        obtain ⟨full, hfull, hsame, hle⟩ := h.ledger.empties maker.id (mem_gather.mpr ⟨thread, hthread', hempty⟩)
        obtain rfl := Memory.eq_of_id hids hfull (List.mem_append_left _ hmem) hsame
        exact absurd hle (not_le.mpr hopen)
      · exact hold
  · refine forall_gather (fun id hid => ?_) fun id hid => h.inserted (mem_gather_others hid)
    rw [hnext] at hid
    cases hid
  · show gather Trading.rested (pre ++ ⟨call, progress'⟩ :: post) ⊆ Memory.ids _
    rw [Memory.ids_at memory horders (service.fillMaker maker (service.toTrade order fill)) rfl]
    refine forall_gather (fun id hid => ?_) fun id hid => h.rested (mem_gather_others hid)
    rw [hnext] at hid
    cases hid
  · intro o ho
    rcases hother o ho with rfl | ⟨hold, hapart⟩
    · exact (h.kept maker hmem).apply hdue hid.symm order
    · exact (h.kept o hold).other hdue hapart
  · intro o ho hfull
    rcases hother o ho with rfl | ⟨hold, -⟩
    · refine mem_gather_own ?_
      rw [hnext]
      exact List.mem_append_left _ (List.mem_singleton_self maker.id)
    · refine gather_subset ?_ (h.leaves o hold hfull)
      rw [hprogress]
      exact List.nil_subset _
  · intro o ho
    have ho : o ∈ gather (toPush service) (pre ++ ⟨call, progress⟩ :: post) := hpushes ▸ ho
    obtain ⟨hkept, hless⟩ := h.pushes o ho
    have hapart := h.ledger.apart (List.mem_map_of_mem (List.mem_append_left _ hmem)) ho
    exact ⟨hkept.other hdue (hid ▸ hapart), hless⟩
  · intro o ho
    refine (h.closed o ho).other hdue ?_
    rw [← hid]
    exact (hne o (List.mem_append_right _ (List.mem_append_right _ ho))).symm
  · have hsame : ∀ o ∈ memory.objects ++ gather (toPush service) (pre ++ ⟨call, progress⟩ :: post),
        Rowed remote.rows (gather (toWrite service) (pre ++ ⟨call, progress'⟩ :: post)) o := by
      intro o ho
      obtain ⟨hinserted, hwritten⟩ := h.rows o ho
      refine ⟨hinserted, hwritten.imp_right fun hin => gather_subset ?_ hin⟩
      rw [hprogress, hnext]
      exact List.subset_append_right _ _
    intro o ho
    rcases List.mem_append.mp ho with hobject | hpush
    · rcases List.mem_append.mp hobject with horder | hspliced
      · rcases hother o horder with rfl | ⟨hold, -⟩
        · have hbefore := hsame maker (List.mem_append_left _ (List.mem_append_left _ hmem))
          refine ⟨hbefore.inserted, Or.inr (mem_gather_own ?_)⟩
          rw [hnext]
          exact List.mem_append_left _ (List.mem_singleton_self _)
        · exact hsame o (List.mem_append_left _ (List.mem_append_left _ hold))
      · exact hsame o (List.mem_append_left _ (List.mem_append_right _ hspliced))
    · exact hsame o (List.mem_append_right _ (hpushes ▸ hpush))

/-- **A maker that is complete is taken out**, where it still is in `orders`. -/
theorem emptied {order : StoredOrder} {report : ExecutionReport} {id : String} {rest : List Fill}
    (h : Counted parse service ⟨memory, remote, pre ++ ⟨call, progress⟩ :: post⟩)
    (hprogress : progress = .ready answer (.makerUnlocked order report id rest))
    (hnext : progress' = .waiting .produce (.produced order report rest))
    (hfound : id ∈ memory.orders.map StoredOrder.id ∨ memory.orders = []) :
    Counted parse service
      ⟨(memory.change id fun maker => { maker with lockedAmount := 0 }).splice id, remote,
        pre ++ ⟨call, progress'⟩ :: post⟩ := by
  have hledger : Ledger parse service
      ⟨(memory.change id fun maker => { maker with lockedAmount := 0 }).splice id, remote,
        pre ++ ⟨call, progress'⟩ :: post⟩ := by
    rw [hnext]
    have hbefore := h.ledger
    rw [hprogress] at hbefore
    exact hbefore.emptied
  have hids : memory.ids.Nodup := h.ledger.ids.of_append_left
  have happly : toApply progress' = toApply progress := by
    rw [hprogress, hnext]
    rfl
  have hpush : toPush service progress' = toPush service progress := by
    rw [hprogress, hnext]
    rfl
  have hwrite : toWrite service progress' = toWrite service progress := by
    rw [hprogress, hnext]
    rfl
  have hinserted : Trading.inserted progress' = [] := by
    rw [hnext]
    rfl
  have hrested : Trading.rested progress' = [] := by
    rw [hnext]
    rfl
  have hfitting : ∀ memory served, Fitting progress' ∧ Emptying memory served progress' := by
    intro memory served
    rw [hnext]
    exact ⟨⟨trivial, trivial⟩, trivial⟩
  rcases hfound with hin | hnone
  · obtain ⟨maker, hmem, rfl⟩ := List.mem_map.mp hin
    obtain ⟨front, back, horders⟩ := List.append_of_mem hmem
    have hne := Memory.ids_ne horders hids
    have hkept : ∀ o ∈ front ++ back, o ∈ memory.orders ∧ o.id ≠ maker.id := by
      intro o ho
      rcases List.mem_append.mp ho with hfront | hback
      · exact ⟨horders ▸ List.mem_append_left _ hfront, hne o (List.mem_append_left _ hfront)⟩
      · exact ⟨horders ▸ List.mem_append_right _ (List.mem_cons_of_mem _ hback),
          hne o (List.mem_append_right _ (List.mem_append_left _ hback))⟩
    have hdue : gather toApply (pre ++ ⟨call, progress'⟩ :: post) = gather toApply (pre ++ ⟨call, progress⟩ :: post) :=
      gather_congr happly
    have hpushes : gather (toPush service) (pre ++ ⟨call, progress'⟩ :: post)
        = gather (toPush service) (pre ++ ⟨call, progress⟩ :: post) := gather_congr hpush
    have hwrites : gather (toWrite service) (pre ++ ⟨call, progress'⟩ :: post)
        = gather (toWrite service) (pre ++ ⟨call, progress⟩ :: post) := gather_congr hwrite
    rw [Memory.empty_at memory maker horders hids] at hledger ⊢
    have hclosed : Closed service remote.fills (gather toApply (pre ++ ⟨call, progress⟩ :: post)) remote.served
        { maker with lockedAmount := 0 } := by
      obtain ⟨full, hfull, hsame, hle⟩ := h.ledger.empties maker.id (mem_gather_own (by
        rw [hprogress]
        exact List.mem_singleton_self maker.id))
      obtain rfl := Memory.eq_of_id hids hfull (List.mem_append_left _ hmem) hsame
      have hemptying := (h.fitting ⟨call, progress⟩ (List.mem_append_right _ List.mem_cons_self)).2
      rw [hprogress] at hemptying
      exact (h.kept full hmem).close hle (hemptying full hmem rfl)
    refine ⟨hledger, h.undropped, ?_, ?_, ?_, ?_, ?_, ?_, ?_, ?_⟩
    · intro thread hthread
      rcases mem_around hthread ⟨call, progress⟩ with rfl | hother
      · exact hfitting _ _
      · obtain ⟨hfits, hemptying⟩ := h.fitting thread hother
        exact ⟨hfits, hemptying.mono (List.Subset.refl _) fun o ho _ => (hkept o ho).1⟩
    · refine forall_gather (fun id hid => ?_) fun id hid => h.inserted (mem_gather_others hid)
      rw [hinserted] at hid
      cases hid
    · have hperm := Memory.ids_out memory horders { maker with lockedAmount := 0 } rfl
      refine forall_gather (fun id hid => ?_) fun id hid => hperm.symm.subset (h.rested (mem_gather_others hid))
      rw [hrested] at hid
      cases hid
    · show ∀ o ∈ front ++ back, Kept service remote.fills (gather toApply (pre ++ ⟨call, progress'⟩ :: post)) o
      rw [hdue]
      exact fun o ho => h.kept o (hkept o ho).1
    · intro o ho hfull
      have hleaves := h.leaves o (hkept o ho).1 hfull
      rcases List.mem_append.mp ((gather_perm toLeave pre post call progress).subset hleaves) with hown | hother
      · rw [hprogress] at hown
        exact absurd (List.mem_singleton.mp hown) (hkept o ho).2
      · exact mem_gather_others hother
    · show ∀ o ∈ gather (toPush service) (pre ++ ⟨call, progress'⟩ :: post),
        Kept service remote.fills (gather toApply (pre ++ ⟨call, progress'⟩ :: post)) o ∧ _
      rw [hdue, hpushes]
      exact h.pushes
    · intro o ho
      show Closed service remote.fills (gather toApply (pre ++ ⟨call, progress'⟩ :: post)) remote.served o
      rw [hdue]
      rcases List.mem_append.mp ho with hold | hlast
      · exact h.closed o hold
      · rw [List.mem_singleton.mp hlast]
        exact hclosed
    · intro o ho
      show Rowed remote.rows (gather (toWrite service) (pre ++ ⟨call, progress'⟩ :: post)) o
      rw [hwrites]
      rcases List.mem_append.mp ho with hobject | hpushed
      · rcases List.mem_append.mp hobject with horder | hspliced
        · exact h.rows o (List.mem_append_left _ (List.mem_append_left _ (hkept o horder).1))
        · rcases List.mem_append.mp hspliced with hold | hlast
          · exact h.rows o (List.mem_append_left _ (List.mem_append_right _ hold))
          · rw [List.mem_singleton.mp hlast]
            have hrowed := h.rows maker (List.mem_append_left _ (List.mem_append_left _ hmem))
            exact ⟨hrowed.inserted, hrowed.written⟩
      · exact h.rows o (List.mem_append_right _ (hpushes ▸ hpushed))
  · -- no order is taken out, and the locks of those that were are empty
    have hspliced : (memory.spliced.map fun o => if o.id = id then { o with lockedAmount := 0 } else o)
        = memory.spliced := by
      refine (List.map_congr_left fun o ho => ?_).trans (List.map_id' _)
      split
      · exact congrArg (fun amount => { o with lockedAmount := amount }) (h.closed o ho).emptied.symm
      · rfl
    have hmemory : (memory.change id fun maker => { maker with lockedAmount := 0 }).splice id = memory := by
      rw [Memory.change, hspliced, hnone, Memory.splice]
      show Memory.mk [] (memory.spliced ++ []) memory.released = memory
      rw [List.append_nil, ← hnone]
    rw [hmemory] at hledger ⊢
    refine h.quiet hledger rfl (List.Subset.refl _) (hfitting _ _) (List.Subset.refl _) ?_ ?_ happly hpush ?_ ?_
    · rw [hinserted]
      exact List.nil_subset _
    · rw [hrested]
      exact List.nil_subset _
    · intro o ho
      rw [hnone] at ho
      cases ho
    · intro o _ hrowed
      rw [gather_congr hwrite]
      exact hrowed

/-- **The order of a call is pushed.** -/
theorem pushed {order : StoredOrder} {report : ExecutionReport}
    (h : Counted parse service ⟨memory, remote, pre ++ ⟨call, .ready answer point⟩ :: post⟩)
    (hlast : point = .announced order report ∨ point = .matched order report) (hrests : shouldRest order = true) :
    Counted parse service
      ⟨{ memory with orders := memory.orders ++ [order] }, remote,
        pre ++ ⟨call, .finished (.placed order report)⟩ :: post⟩ := by
  have hledger := h.ledger.pushed hlast hrests
  have hpush : toPush service (.ready answer point) = [order] := by
    rcases hlast with rfl | rfl <;> exact if_pos hrests
  have happly : toApply (.finished (.placed order report)) = toApply (.ready answer point) := by
    rcases hlast with rfl | rfl <;> rfl
  have hwrite : toWrite service (.finished (.placed order report)) = toWrite service (.ready answer point) := by
    rcases hlast with rfl | rfl <;> rfl
  have hleave : toLeave (.finished (.placed order report)) = toLeave (.ready answer point) := by
    rcases hlast with rfl | rfl <;> rfl
  have hdue : gather toApply (pre ++ ⟨call, .finished (.placed order report)⟩ :: post)
      = gather toApply (pre ++ ⟨call, .ready answer point⟩ :: post) := gather_congr happly
  have hpushes : gather (toPush service) (pre ++ ⟨call, .finished (.placed order report)⟩ :: post)
      ⊆ gather (toPush service) (pre ++ ⟨call, .ready answer point⟩ :: post) := gather_subset (List.nil_subset _)
  have hown : order ∈ gather (toPush service) (pre ++ ⟨call, .ready answer point⟩ :: post) := by
    refine mem_gather_own ?_
    rw [hpush]
    exact List.mem_singleton_self order
  obtain ⟨hkept, hopen⟩ := h.pushes order hown
  have hobjects := Memory.objects_push memory order
  refine ⟨hledger, h.undropped, ?_, ?_, ?_, ?_, ?_, ?_, ?_, ?_⟩
  · intro thread hthread
    rcases mem_around hthread ⟨call, .ready answer point⟩ with rfl | hother
    · exact ⟨trivial, trivial⟩
    · obtain ⟨hfits, hemptying⟩ := h.fitting thread hother
      refine ⟨hfits, hemptying.mono (List.Subset.refl _) fun o ho hempty => ?_⟩
      rcases List.mem_append.mp ho with hold | hlast
      · exact hold
      · -- what is pushed has had no object, and so is not about to be taken out
        rw [List.mem_singleton.mp hlast] at hempty
        obtain ⟨full, hfull, hsame, -⟩ := h.ledger.empties order.id (mem_gather.mpr ⟨thread, hother, hempty⟩)
        exact absurd hsame (h.ledger.apart (List.mem_map_of_mem hfull) hown)
  · exact forall_gather (fun id hid => absurd hid (List.not_mem_nil (a := id))) fun id hid =>
      h.inserted (mem_gather_others hid)
  · have hperm := hobjects.map StoredOrder.id
    rw [List.map_append] at hperm
    refine forall_gather (fun id hid => hperm.symm.subset (List.mem_append_right _ ?_)) fun id hid =>
      hperm.symm.subset (List.mem_append_left _ (h.rested (mem_gather_others hid)))
    have hid : id ∈ if shouldRest order then [order.id] else [] := hid
    rw [hrests] at hid
    exact hid
  · show ∀ o ∈ memory.orders ++ [order], Kept service remote.fills (gather toApply (pre ++ _ :: post)) o
    rw [hdue]
    intro o ho
    rcases List.mem_append.mp ho with hold | hlast
    · exact h.kept o hold
    · rw [List.mem_singleton.mp hlast]
      exact hkept
  · intro o ho hfull
    rcases List.mem_append.mp ho with hold | hlast
    · rw [gather_congr hleave]
      exact h.leaves o hold hfull
    · rw [List.mem_singleton.mp hlast] at hfull
      exact absurd hfull (not_le.mpr hopen)
  · intro o ho
    show Kept service remote.fills (gather toApply (pre ++ _ :: post)) o ∧ _
    rw [hdue]
    exact h.pushes o (hpushes ho)
  · show ∀ o ∈ memory.spliced, Closed service remote.fills (gather toApply (pre ++ _ :: post)) remote.served o
    rw [hdue]
    exact h.closed
  · intro o ho
    show Rowed remote.rows (gather (toWrite service) (pre ++ _ :: post)) o
    rw [gather_congr hwrite]
    refine h.rows o ?_
    rcases List.mem_append.mp ho with hobject | hpushed
    · rcases List.mem_append.mp (hobjects.subset hobject) with hold | hlast
      · exact List.mem_append_left _ hold
      · rw [List.mem_singleton.mp hlast]
        exact List.mem_append_right _ hown
    · exact List.mem_append_right _ (hpushes hpushed)

/-- Going on where the operation has been answered. -/
theorem resume_done {maxRetries : ℕ} (hdone : ¬answer.Failed) :
    resume service maxRetries point answer memory = resumeDone service memory point answer := by
  cases answer with
  | failed failure => exact absurd ⟨failure, rfl⟩ hdone
  | done | report | cancelled => rfl

/-- **A call looks whether a maker is complete.** -/
theorem checked {order : StoredOrder} {report : ExecutionReport} {id : String} {rest : List Fill}
    (h : Counted parse service
      ⟨memory, remote, pre ++ ⟨call, .ready answer (.makerUpdated order report id rest)⟩ :: post⟩)
    (hledger : Ledger parse service
      ⟨memory, remote, pre ++ ⟨call, (releaseMaker memory order report id rest).progress⟩ :: post⟩) :
    Counted parse service
      ⟨memory, remote, pre ++ ⟨call, (releaseMaker memory order report id rest).progress⟩ :: post⟩ := by
  have hids : memory.ids.Nodup := h.ledger.ids.of_append_left
  rw [releaseMaker] at hledger ⊢
  have hproduces : Ledger parse service
        ⟨memory, remote, pre ++ ⟨call, .waiting .produce (.produced order report rest)⟩ :: post⟩ →
      (∀ o ∈ memory.orders, o.id = id → o.status ≠ .filled) → Counted parse service
        ⟨memory, remote, pre ++ ⟨call, .waiting .produce (.produced order report rest)⟩ :: post⟩ := by
    intro hledger hopen
    refine h.quiet hledger rfl (List.Subset.refl _) ⟨⟨trivial, trivial⟩, trivial⟩ (List.Subset.refl _)
      (List.nil_subset _) (List.nil_subset _) rfl rfl (fun o ho hfull hleave => ?_) fun o _ hrowed => ?_
    · exact absurd ((h.kept o ho).status hfull) (hopen o ho (List.mem_singleton.mp hleave))
    · have hsame : gather (toWrite service) (pre ++ ⟨call, .waiting .produce (.produced order report rest)⟩ :: post)
          = gather (toWrite service) (pre ++ ⟨call, .ready answer (.makerUpdated order report id rest)⟩ :: post) :=
        gather_congr rfl
      rw [hsame]
      exact hrowed
  cases hfind : memory.object id with
  | none =>
      rw [hfind] at hledger
      refine hproduces hledger fun o ho hid => ?_
      exact absurd (decide_eq_true hid) (List.find?_eq_none.mp hfind o (List.mem_append_left _ ho))
  | some maker =>
      have hmem : maker ∈ memory.objects := List.mem_of_find?_eq_some hfind
      have hid := List.find?_some (show memory.objects.find? (fun o => decide (o.id = id)) = _ from hfind)
      rw [decide_eq_true_eq] at hid
      have hone : ∀ o ∈ memory.orders, o.id = id → o = maker := fun o ho hoid =>
        Memory.eq_of_id hids (List.mem_append_left _ ho) hmem (hoid.trans hid.symm)
      rw [hfind] at hledger
      dsimp only at hledger ⊢
      split at hledger
      · rename_i hstatus
        rw [if_pos hstatus]
        obtain ⟨operation, heq, hoperation⟩ :=
          unlocking_spec maker maker.lockedAmount (.makerUnlocked order report id rest)
        rw [heq] at hledger ⊢
        refine h.quiet hledger rfl (List.Subset.refl _) ⟨⟨trivial, ?_⟩, ?_⟩ (List.Subset.refl _)
          (List.nil_subset _) (List.nil_subset _) rfl rfl (fun o _ _ hleave => hleave) fun o _ hrowed => ?_
        · rcases hoperation with ⟨-, rfl⟩ | ⟨-, rfl⟩ <;> trivial
        · intro o ho hoid
          rw [hone o ho hoid]
          exact hoperation.imp And.left And.right
        · have hsame : gather (toWrite service) (pre ++ ⟨call, .waiting operation (.makerUnlocked order report id rest)⟩ :: post)
              = gather (toWrite service) (pre ++ ⟨call, .ready answer (.makerUpdated order report id rest)⟩ :: post) := by
            refine gather_congr ?_
            rcases hoperation with ⟨-, rfl⟩ | ⟨-, rfl⟩ <;> rfl
          show Rowed remote.rows (gather (toWrite service) (pre ++ ⟨call, .waiting operation _⟩ :: post)) o
          rw [hsame]
          exact hrowed
      · rename_i hstatus
        rw [if_neg hstatus]
        refine hproduces hledger fun o ho hoid => ?_
        rw [hone o ho hoid]
        exact hstatus

/-- **A call goes on.** -/
theorem resumed {maxRetries : ℕ} (h : Counted parse service ⟨memory, remote, pre ++ ⟨call, .ready answer point⟩ :: post⟩)
    (hexact : parse.Exact) (hresume : resume service maxRetries point answer memory = (pause, memory'))
    (hfound : ∀ id ∈ applying (.ready answer point), id ∈ memory.orders.map StoredOrder.id)
    (hthere : ∀ id ∈ toEmpty (.ready answer point), id ∈ memory.orders.map StoredOrder.id ∨ memory.orders = []) :
    Counted parse service ⟨memory', remote, pre ++ ⟨call, pause.progress⟩ :: post⟩ := by
  have hmem : (⟨call, .ready answer point⟩ : OrderThread) ∈ pre ++ ⟨call, .ready answer point⟩ :: post :=
    List.mem_append_right _ List.mem_cons_self
  have hfitting := (h.fitting _ hmem).1
  have hresumed := resume_spec maxRetries point hresume
  have hledger := h.ledger.resumed (resume_prepared (h.ledger.prepared _ hmem) hresume) hresumed
  have hproceeds := resume_proceeds hfitting hresume
  have hquiet : toLeave (.ready answer point) = [] →
      Counted parse service ⟨memory', remote, pre ++ ⟨call, pause.progress⟩ :: post⟩ := by
    intro hstays
    cases hresumed with
    | carries same =>
        obtain ⟨happly, hpush, hwrite⟩ := same.rest.resolve_right fun ⟨htaken, hfailed, _⟩ => hfitting.2 htaken hfailed
        refine h.quiet hledger rfl (List.Subset.refl _) ⟨hproceeds.fitting, emptying_of_toEmpty same.empties⟩
          (List.Subset.refl _) (fun id hid => h.inserted (mem_gather_own (hproceeds.inserted hid))) hproceeds.rested
          happly hpush (fun o _ _ hin => ?_) fun o _ hrowed => ?_
        · rw [hstays] at hin
          cases hin
        · rw [gather_congr hwrite]
          exact hrowed
    | unknown order report fill rest maker =>
        obtain ⟨o, ho, hid⟩ := List.mem_map.mp (hfound fill.makerOrderId (List.mem_singleton_self _))
        exact absurd hid (maker o ho)
    | applied order report fill rest maker mem hid status => exact h.applied hexact rfl rfl mem hid
    | missing | kept | released | emptied => cases hstays
    | pushed order report last rests => exact h.pushed last rests
    | found | cancelled | spliced => exact hfitting.1.elim
  cases point with
  | makerUpdated order report id rest =>
      rw [resume_done (hfitting.2 rfl)] at hresume
      obtain ⟨rfl, rfl⟩ := Prod.mk.inj hresume
      exact h.checked hledger
  | makerUnlocked order report id rest =>
      rw [resume_done (hfitting.2 rfl)] at hresume
      obtain ⟨rfl, rfl⟩ := Prod.mk.inj hresume
      exact h.emptied rfl rfl (hthere id (List.mem_singleton_self id))
  | _ => exact hquiet rfl

/-- **An operation is made.** -/
theorem performed (h : Counted parse service ⟨memory, remote, pre ++ ⟨call, .waiting operation point⟩ :: post⟩)
    (hperformed : Performed parse remote operation answer remote') (hinv : CoreInv remote'.engine)
    (hseen : answer.Failed → remote'.handled = remote.handled)
    (hcalm : setsOff parse remote.engine (.waiting operation point) = false)
    (hlate : point.taken = true → ¬answer.Failed)
    (hcurrent : ∀ order ∈ memory.objects ++ gather (toPush service) (pre ++ ⟨call, .waiting operation point⟩ :: post),
      order.id ∈ operation.toWrite.map Prod.fst →
        (order.id, order.filledQuantity) ∈ gather (toWrite service) (pre ++ ⟨call, .waiting operation point⟩ :: post)) :
    Counted parse service ⟨memory, remote', pre ++ ⟨call, .ready answer point⟩ :: post⟩ := by
  have hmem : (⟨call, .waiting operation point⟩ : OrderThread) ∈ pre ++ ⟨call, .waiting operation point⟩ :: post :=
    List.mem_append_right _ List.mem_cons_self
  have hprepared := h.ledger.prepared _ hmem
  have hledger := h.ledger.performed hperformed hinv hseen
  have hplacing := (h.fitting _ hmem).1.1
  cases hperformed with
  | unsent operation failed =>
      exact h.answered hledger rfl failed.refused hlate (Or.inr ⟨rfl, rfl, failed⟩) hcurrent
  | written inside answered wallet =>
      have hquiet : ∀ report, answer = .report report → report.accepted = false :=
        refused_or_failed (by rintro _ ⟨⟩) answered
      exact h.answered hledger rfl hquiet hlate (Or.inl ⟨rfl, rfl⟩) hcurrent
  | refused order answered =>
      exact h.answered hledger rfl (refusal_or_failed answered) hlate (Or.inl ⟨rfl, rfl⟩) hcurrent
  | traded order sent trades books answered =>
      obtain ⟨-, attempt, rfl⟩ := hprepared
      rcases answered with rfl | failed
      · refine h.traded hinv sent trades books ?_
        rw [setsOff, sent] at hcalm
        exact hcalm
      · have hlength := congrArg List.length (hseen failed)
        simp at hlength
  | unknown orderId symbol userId books answered =>
      obtain ⟨-, attempt, rfl⟩ := hprepared
      exact hplacing.elim
  | cancelled orderId symbol userId returned result books answered =>
      obtain ⟨-, attempt, rfl⟩ := hprepared
      exact hplacing.elim

/-! ### Runs -/

/-- Nothing has been placed. -/
theorem start (parse : DecimalParser) (service : TradingService) (wallet : Wallet.Database)
    (persistence : Option MatchingEngine.Persistence) : Counted parse service (Trading.start wallet persistence) where
  ledger := (Released.start parse service wallet persistence).ledger
  undropped := fun h hh => absurd hh (List.not_mem_nil (a := h))
  fitting := fun thread hthread => absurd hthread (List.not_mem_nil (a := thread))
  inserted := List.nil_subset _
  rested := List.nil_subset _
  kept := fun order horder => absurd horder (List.not_mem_nil (a := order))
  leaves := fun order horder => absurd horder (List.not_mem_nil (a := order))
  pushes := fun order horder => absurd horder (List.not_mem_nil (a := order))
  closed := fun order horder => absurd horder (List.not_mem_nil (a := order))
  rows := fun order horder => absurd horder (List.not_mem_nil (a := order))

/-- **Every step keeps the invariant**, if it meets the condition. -/
theorem step {maxRetries : ℕ} {world world' : OrderWorld} {turn : OrderTurn} {reply : Unit}
    (h : Counted parse service world) (hexact : parse.Exact) (hfindable : Findable codec parse service world turn)
    (hexec : (program codec parse service maxRetries).exec world turn = .ok (reply, world')) :
    Counted parse service world' := by
  obtain ⟨memory, remote, threads⟩ := world
  cases Program.exec_spec hexec with
  | entered call block =>
      obtain ⟨hplaces, hnew⟩ := hfindable
      cases call with
      | cancelOrder => cases hplaces
      | placeOrder uuid dto =>
          have henters : Enters service (.placeOrder uuid dto) _ := (enter_spec (.placeOrder uuid dto) memory).1
          have hledger := h.ledger.entered henters hnew
          cases block
          exact h.entered hledger
  | performed pre post call operation point input hthreads effect =>
      have hthreads : threads = pre ++ ⟨call, .waiting operation point⟩ :: post := hthreads
      subst hthreads
      obtain ⟨hlost, hcalm, hlate, -, hcurrent⟩ := hfindable _ (getElem?_between pre post _)
      have hprepared := h.ledger.prepared _ (List.mem_append_right pre List.mem_cons_self)
      obtain ⟨hperformed, hinv⟩ := perform_spec h.ledger.engaged.inv hprepared effect
      refine h.performed hperformed hinv (fun hfailed => handled_of_failed effect hfailed ?_) hcalm ?_ hcurrent
      · rintro ⟨order, rfl⟩
        exact hlost rfl
      · rintro htaken ⟨failure, rfl⟩
        have heffect : perform codec parse operation input remote = _ := effect
        have hlate : (point.taken && (perform codec parse operation input remote).1.isFailed) = false := hlate
        rw [heffect, htaken] at hlate
        cases hlate
  | resumed pre post call answer point hthreads block =>
      have hthreads : threads = pre ++ ⟨call, .ready answer point⟩ :: post := hthreads
      subst hthreads
      obtain ⟨hfound, hthere⟩ := hfindable _ (getElem?_between pre post _)
      exact h.resumed hexact block hfound hthere
  | idle => exact h

/-- **What is in the table** is what the columns hold: every filled quantity is kept as it was written. -/
def Stored (world : OrderWorld) : Prop :=
  ∀ row ∈ world.remote.rows, row.filledColumn = some (.fin row.filledQuantity)

/-- Rows that are written with a quantity that the column keeps. -/
theorem stored_rows {rows : List OrderEntity} (h : ∀ row ∈ rows, row.filledColumn = some (.fin row.filledQuantity))
    (hsaved : ∀ row, operation = .saveOrder row → row.filledColumn = some (.fin row.filledQuantity))
    (hwritten : ∀ q ∈ operation.toWrite.map Prod.snd, numeric 38 18 (.fin q) = some (.fin q)) :
    ∀ row ∈ operation.rows rows, row.filledColumn = some (.fin row.filledQuantity) := by
  cases operation with
  | saveOrder row =>
      have hrow := hsaved row rfl
      intro row' hrow'
      have hrow' : row' ∈ saveOrder rows row := hrow'
      rw [saveOrder] at hrow'
      split at hrow'
      · obtain ⟨old, hold, rfl⟩ := List.mem_map.mp hrow'
        split
        · exact hrow
        · exact h old hold
      · rcases List.mem_append.mp hrow' with hold | hlast
        · exact h row' hold
        · rw [List.mem_singleton.mp hlast]
          exact hrow
  | updateOrder id filledQuantity status =>
      intro row' hrow'
      obtain ⟨old, hold, rfl⟩ := List.mem_map.mp hrow'
      split
      · cases filledQuantity with
        | none => exact h old hold
        | some q => exact hwritten q (List.mem_singleton_self q)
      · exact h old hold
  | _ => exact h

/-- **Every step keeps what the columns hold.** -/
theorem stored_step {maxRetries : ℕ} {world world' : OrderWorld} {turn : OrderTurn} {reply : Unit}
    (h : Counted parse service world) (hstored : Stored world)
    (hfindable : Findable codec parse service world turn)
    (hexec : (program codec parse service maxRetries).exec world turn = .ok (reply, world')) : Stored world' := by
  obtain ⟨memory, remote, threads⟩ := world
  cases Program.exec_spec hexec with
  | entered call block => exact hstored
  | resumed pre post call answer point hthreads block => exact hstored
  | idle => exact hstored
  | performed pre post call operation point input hthreads effect =>
      have hthreads : threads = pre ++ ⟨call, .waiting operation point⟩ :: post := hthreads
      subst hthreads
      have hmem : (⟨call, .waiting operation point⟩ : OrderThread) ∈ pre ++ ⟨call, .waiting operation point⟩ :: post :=
        List.mem_append_right pre List.mem_cons_self
      obtain ⟨-, -, -, hwritten, -⟩ := hfindable _ (getElem?_between pre post _)
      have hprepared := h.ledger.prepared _ hmem
      obtain ⟨hperformed, -⟩ := perform_spec h.ledger.engaged.inv hprepared effect
      cases hperformed with
      | written inside answered wallet =>
          refine stored_rows hstored ?_ hwritten
          rintro row rfl
          -- a new row has nothing filled
          have hfits := (h.fitting _ hmem).1.2
          cases point with
          | saved order =>
              have hrow : row = OrderEntity.create order := Operation.saveOrder.inj hfits
              have hunfilled : order.filledQuantity = 0 := hprepared.1.unfilled
              rw [hrow, OrderEntity.filledColumn]
              show numeric 38 18 (.fin order.filledQuantity) = some (.fin order.filledQuantity)
              rw [hunfilled]
              exact (numeric_ordered 38 18).holds 0 (NexusTrade.Fits.zero 38 18)
          | makerUpdated order report id rest =>
              obtain ⟨filledQuantity, status, heq⟩ := hfits
              cases heq
          | orderUpdated order report => cases hfits
          | _ => exact hfits.elim
      | _ => exact hstored

theorem gather_returned {β : Type} {f : OrderProgress → List β} (hf : ∀ outcome, f (.finished outcome) = [])
    (h : ∀ thread ∈ threads, returned thread.progress = true) : gather f threads = [] := by
  refine List.flatMap_eq_nil_iff.mpr fun thread hthread => ?_
  have hreturned := h thread hthread
  cases hprogress : thread.progress with
  | finished outcome => exact hf outcome
  | waiting operation point =>
      rw [hprogress] at hreturned
      cases hreturned
  | ready answer point =>
      rw [hprogress] at hreturned
      cases hreturned

/-- **Once all calls have returned**, nothing is left to apply, to push, to take out or to write. -/
theorem fillsCounted {world : OrderWorld} (h : Counted parse service world) (hstored : Stored world) :
    FillsCounted service world := by
  intro hreturned id hid
  have hdue : gather toApply world.threads = [] := gather_returned (fun _ => rfl) hreturned
  have hstays : gather toLeave world.threads = [] := gather_returned (fun _ => rfl) hreturned
  have hwritten : gather (toWrite service) world.threads = [] := gather_returned (fun _ => rfl) hreturned
  have hmade : world.remote.made = world.remote.fills := by
    refine List.flatMap_congr fun g hg => ?_
    rw [h.undropped g hg, List.append_nil]
  obtain ⟨order, hobject, rfl⟩ := List.mem_map.mp (h.rested hid)
  have hcounted : ∀ own applied, Counts world.remote.fills (gather toApply world.threads) order own applied →
      order.filledQuantity = filledOf world.remote.fills order.id ∧
        lockLeft service order own applied = lockAfter service order world.remote.fills := by
    intro own applied hcounts
    rw [hdue] at hcounts
    refine ⟨?_, hcounts.lockAfter_eq⟩
    rw [← hcounts.total]
    exact (add_zero _).symm
  have hrow := h.rows order (List.mem_append_left _ hobject)
  rw [hwritten] at hrow
  have hwritten : ∀ row ∈ world.remote.rows, row.id = order.id → row.filledColumn = some (.fin order.filledQuantity) := by
    intro row hmem hid
    rw [hstored row hmem, hrow.written.resolve_right List.not_mem_nil row hmem hid]
  refine ⟨order, hobject, rfl, ?_⟩
  rcases List.mem_append.mp hobject with horder | hspliced
  · obtain ⟨own, applied, hcounts, hlock⟩ := (h.kept order horder).counts
    obtain ⟨hfilled, hleft⟩ := hcounted own applied hcounts
    refine ⟨hmade ▸ hfilled, hrow.inserted, ?_, fun _ => ⟨horder, hmade ▸ hlock.trans hleft⟩, fun hfull => ?_⟩
    · rw [hmade, ← hfilled]
      exact hwritten
    · have hleaves := h.leaves order horder hfull
      rw [hstays] at hleaves
      cases hleaves
  · have hclosed := h.closed order hspliced
    obtain ⟨own, applied, hcounts, hunlock⟩ := hclosed.counts
    obtain ⟨hfilled, hleft⟩ := hcounted own applied hcounts
    refine ⟨hmade ▸ hfilled, hrow.inserted, ?_, fun hopen => absurd hclosed.complete (not_le.mpr hopen),
      fun _ => ⟨fun o ho heq => ?_, hclosed.emptied, ?_⟩⟩
    · rw [hmade, ← hfilled]
      exact hwritten
    · have hids := h.ledger.ids.of_append_left
      rw [Memory.ids, Memory.objects, List.map_append] at hids
      exact (List.nodup_append.mp hids).2.2 o.id (List.mem_map_of_mem ho) order.id (List.mem_map_of_mem hspliced) heq
    · rw [hmade, ← hleft]
      exact hunlock

end Counted

end Steps

/-- **Every fill is counted**, in every run whose steps meet the condition. -/
theorem fills_are_counted (codec : DecimalCodec) (parse : DecimalParser) (service : TradingService)
    (maxRetries : ℕ) (hexact : parse.Exact) (wallet : Wallet.Database)
    (persistence : Option MatchingEngine.Persistence) {turns : List OrderTurn}
    (h : Machine.Along (program codec parse service maxRetries).exec (Findable codec parse service)
      (start wallet persistence) turns) :
    ∃ replies world, Machine.run (program codec parse service maxRetries).exec (start wallet persistence) turns
        = .ok (replies, world) ∧ FillsCounted service world := by
  have hstart : Counted parse service (start wallet persistence) ∧ Counted.Stored (start wallet persistence) :=
    ⟨Counted.start parse service wallet persistence, fun row hrow => absurd hrow List.not_mem_nil⟩
  obtain ⟨replies, world, hrun, hcounted, hstored⟩ := Machine.run_safe_along
    (Q := fun _ _ world => Counted parse service world ∧ Counted.Stored world) hstart
    (fun _ _ _ _ _ _ hinv hfindable hexec =>
      ⟨hinv.1.step hexact hfindable hexec, hinv.1.stored_step hinv.2 hfindable hexec⟩) turns h
  exact ⟨replies, world, hrun, hcounted.fillsCounted hstored⟩

/-! ### Matched before it is pushed -/

/-- An offer of one that the engine has answered, and a bid that takes it; the call of the offer goes on where the bid is
about to apply its fill, or only once the bid has been answered. -/
def offerTaken (bidSteps : ℕ) : List OrderTurn :=
  [.enter (.placeOrder "order-1" (bitcoinOrder "alice" "account-1" .sell .limit 100 none 1))] ++ proceed 0 4 ++
    [.enter (.placeOrder "order-2" (bitcoinOrder "bob" "account-2" .buy .limit 100 none 1))] ++ proceed 1 bidSteps ++
    proceed 0 4 ++ proceed 1 (16 - bidSteps)

theorem fills_are_counted_pushedMeanwhile :
    ∃ replies world, Machine.run (program MatchingEngine.fractionCodec some quietMarket.trading 3).exec
        (start fundedWallets none) (offerTaken 4) = .ok (replies, world) ∧
      (∀ thread ∈ world.threads, returned thread.progress = true) ∧ gather rested world.threads = ["order-1"] ∧
      FillsCounted quietMarket.trading world := by
  have hmeets : Machine.Along (program MatchingEngine.fractionCodec some quietMarket.trading 3).exec
      (Findable MatchingEngine.fractionCodec some quietMarket.trading) (start fundedWallets none) (offerTaken 4) := by
    decide +kernel
  obtain ⟨replies, world, hrun, hcounted⟩ := fills_are_counted MatchingEngine.fractionCodec some quietMarket.trading 3
    (fun q q' h => (Option.some.inj h).symm) fundedWallets none hmeets
  have hends : (Machine.run (program MatchingEngine.fractionCodec some quietMarket.trading 3).exec
      (start fundedWallets none) (offerTaken 4)).map (fun r => (r.2.threads.all fun thread => returned thread.progress,
        gather rested r.2.threads)) = .ok (true, ["order-1"]) := by decide +kernel
  rw [hrun] at hends
  obtain ⟨hreturned, hrested⟩ := Prod.mk.inj (Except.ok.inj hends)
  exact ⟨replies, world, hrun, List.all_eq_true.mp hreturned, hrested, hcounted⟩

/-- **A fill of an order that is not pushed yet is lost**: the offer is taken, and stays in `orders` with nothing filled
and its whole lock. -/
theorem matched_before_pushed_is_lost :
    ∃ replies world, Machine.run (program MatchingEngine.fractionCodec some quietMarket.trading 3).exec
        (start fundedWallets none) (offerTaken 16) = .ok (replies, world) ∧
      filledOf world.remote.made "order-1" = 1 ∧
      (world.memory.objects.map fun order => (order.id, order.filledQuantity, order.lockedAmount)) = [("order-1", 0, 1)] ∧
      ¬FillsCounted quietMarket.trading world := by
  have hends : (Machine.run (program MatchingEngine.fractionCodec some quietMarket.trading 3).exec
      (start fundedWallets none) (offerTaken 16)).map (fun r => decide
        ((∀ thread ∈ r.2.threads, returned thread.progress = true) ∧ gather rested r.2.threads = ["order-1"] ∧
          filledOf r.2.remote.made "order-1" = 1 ∧
          (r.2.memory.objects.map fun order => (order.id, order.filledQuantity, order.lockedAmount)) = [("order-1", 0, 1)]))
      = .ok true := by decide +kernel
  cases hrun : Machine.run (program MatchingEngine.fractionCodec some quietMarket.trading 3).exec
      (start fundedWallets none) (offerTaken 16) with
  | error e => cases e
  | ok r =>
      rw [hrun] at hends
      obtain ⟨hreturned, hrested, hmade, hobjects⟩ := of_decide_eq_true (Except.ok.inj hends)
      refine ⟨r.1, r.2, rfl, hmade, hobjects, fun hcounted => ?_⟩
      have hrested : "order-1" ∈ gather rested r.2.threads := by
        rw [hrested]
        exact List.mem_singleton_self _
      obtain ⟨order, horder, hid, hreflects⟩ := hcounted hreturned "order-1" hrested
      have hobject := List.mem_map_of_mem (f := fun o => (o.id, o.filledQuantity, o.lockedAmount)) horder
      rw [hobjects] at hobject
      obtain ⟨-, hrest⟩ := Prod.mk.inj (List.mem_singleton.mp hobject)
      have hfilled := hreflects.filled
      rw [hid, hmade, (Prod.mk.inj hrest).1] at hfilled
      exact absurd hfilled (by decide)

end NexusTrade.Trading
