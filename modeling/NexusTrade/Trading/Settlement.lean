import NexusTrade.Trading.Alone
import NexusTrade.Trading.Objects

/-!
# The trades of an order

`placeOrder` from the answer of the engine on, while no other call proceeds: each fill is settled, recorded and
applied to its maker, and each of these may fail.

* **`SettledOnce`**: every fill is settled once, recorded once, and applied once to the object of its maker;
* **`Harms`**: an operation fails before all of this is done;
* **`CompletedLast`**: the fill that completes a maker is the last one that names it;
* **`Iteration`**: what becomes of one fill;
* **`placeOrder_settles_once_iff`**: every fill is settled once exactly if no operation that fails does harm.
-/

namespace NexusTrade.Trading

open MatchingEngine (Side Decimal Fill ExecutionReport CallFiles UuidSource DecimalCodec)

/-! ### What is done of the fills -/

/-- The settlements among the requests to the wallet service. -/
def settlements (requests : List WalletRequest) : List Wallet.SettlementDto :=
  requests.filterMap fun
    | .settleTrade dto => some dto
    | .lock _ | .unlock _ => none

/-- The object of a maker after a fill; once it is filled, its lock is released. -/
def TradingService.closeMaker (service : TradingService) (maker : StoredOrder) (trade : Trade) : StoredOrder :=
  let filled := service.fillMaker maker trade
  if filled.status = .filled then { filled with lockedAmount := 0 } else filled

/-- The object of a maker after the fills that name it. -/
def afterFills (service : TradingService) (order : StoredOrder) (maker : StoredOrder) (fills : List Fill) :
    StoredOrder :=
  fills.foldl (fun maker fill => if fill.makerOrderId = maker.id then
    service.closeMaker maker (service.toTrade order fill) else maker) maker

/-- The fills are applied once to an order; if they complete it, it is no longer in `orders`. -/
structure AppliedTo (service : TradingService) (order : StoredOrder) (fills : List Fill) (maker : StoredOrder)
    (memory' : Memory) : Prop where
  object : memory'.object maker.id = some (afterFills service order maker fills)
  closed : (∃ fill ∈ fills, fill.makerOrderId = maker.id) →
    (afterFills service order maker fills).status = .filled → ∀ o ∈ memory'.orders, o.id ≠ maker.id

/-- **The fills are applied once to their makers**, the orders that were in `orders`. -/
def AppliedOnce (service : TradingService) (order : StoredOrder) (fills : List Fill) (memory memory' : Memory) :
    Prop := ∀ maker ∈ memory.orders, AppliedTo service order fills maker memory'

/-- **Every fill is settled once in the wallet, recorded once in `trades`, and applied once to its maker.** -/
structure SettledOnce (service : TradingService) (order : StoredOrder) (fills : List Fill) (memory : Memory)
    (remote : Remote) (memory' : Memory) (remote' : Remote) : Prop where
  settled : ∃ sides : List Side, sides.length = fills.length ∧ settlements remote'.served
    = settlements remote.served ++ (fills.map (service.toTrade order)).zipWith TradingService.settlement sides
  recorded : remote'.trades = remote.trades ++ fills.map (service.toTrade order)
  applied : AppliedOnce service order fills memory memory'

/-! ### Operations that fail -/

section Harm

variable (codec : DecimalCodec) (parse : DecimalParser)

/-- **An operation fails before all is done of the fills**: a settlement; a row in `trades` that is not written, or
was to be followed by something; or what is left to do for a maker or for further fills. -/
def Harms (s : OrderState) (attempt : OrderAttempt) : Prop :=
  match s.pause with
  | .finish _ => False
  | .await operation point =>
    (∃ failure, (perform codec parse operation attempt s.remote).1 = .failed failure) ∧
    match point with
    | .settled _ _ _ _ | .makerUnlocked _ _ _ _ => True
    | .recorded _ _ fill rest => (∃ failure, attempt = .unsent failure) ∨ rest ≠ [] ∨
        ∃ maker ∈ s.memory.orders, maker.id = fill.makerOrderId
    | .makerUpdated _ _ id rest =>
      rest ≠ [] ∨ ∃ maker, s.memory.object id = some maker ∧ maker.status = .filled
    | .produced _ _ rest => rest ≠ []
    | _ => False

end Harm

/-- **The fill that completes an order is the last one that names it**, from the quantity that is filled. -/
def CompletedLast (id : String) (quantity : Decimal) : Decimal → List Fill → Prop
  | _, [] => True
  | filled, fill :: rest =>
    if fill.makerOrderId = id then
      (quantity ≤ filled + fill.quantity → ∀ later ∈ rest, later.makerOrderId ≠ id) ∧
        CompletedLast id quantity (filled + fill.quantity) rest
    else CompletedLast id quantity filled rest

/-- No fill names a maker that an earlier one completes. -/
def NoneExceeds (fills : List Fill) (memory : Memory) : Prop :=
  ∀ maker ∈ memory.orders, CompletedLast maker.id maker.quantity maker.filledQuantity fills

/-! ### One maker -/

section Maker

variable {service : TradingService} {order maker : StoredOrder} {fill : Fill} {fills rest : List Fill}

theorem closeMaker_id (trade : Trade) : (service.closeMaker maker trade).id = maker.id := by
  rw [TradingService.closeMaker]
  split <;> rfl

theorem closeMaker_filledQuantity :
    (service.closeMaker maker (service.toTrade order fill)).filledQuantity = maker.filledQuantity + fill.quantity := by
  rw [TradingService.closeMaker]
  split <;> rfl

theorem afterFills_named (h : fill.makerOrderId = maker.id) : afterFills service order maker (fill :: rest)
    = afterFills service order (service.closeMaker maker (service.toTrade order fill)) rest := by
  rw [afterFills, List.foldl_cons, if_pos h]
  rfl

theorem afterFills_other (h : fill.makerOrderId ≠ maker.id) :
    afterFills service order maker (fill :: rest) = afterFills service order maker rest := by
  rw [afterFills, List.foldl_cons, if_neg h]
  rfl

/-- Fills that do not name an order leave it. -/
theorem afterFills_unnamed (h : ∀ fill ∈ fills, fill.makerOrderId ≠ maker.id) :
    afterFills service order maker fills = maker := by
  induction fills with
  | nil => rfl
  | cons fill rest ih =>
      rw [afterFills_other (h fill List.mem_cons_self)]
      exact ih fun later hlater => h later (List.mem_cons_of_mem fill hlater)

variable (service order) in
/-- **What is filled of an order grows by the fills that name it.** -/
theorem afterFills_filledQuantity (maker : StoredOrder) (fills : List Fill) :
    (afterFills service order maker fills).filledQuantity = maker.filledQuantity
      + ((fills.filter fun fill => fill.makerOrderId = maker.id).map Fill.quantity).sum := by
  induction fills generalizing maker with
  | nil => exact (add_zero _).symm
  | cons fill rest ih =>
      by_cases h : fill.makerOrderId = maker.id
      · rw [afterFills_named h, ih, closeMaker_id, closeMaker_filledQuantity,
          List.filter_cons, if_pos (decide_eq_true h), List.map_cons, List.sum_cons, add_assoc]
      · rw [afterFills_other h, ih, List.filter_cons, if_neg fun hnamed => h (of_decide_eq_true hnamed)]

/-- An order that is named again is filled further. -/
theorem afterFills_ne (hpositive : ∀ fill ∈ fills, 0 < fill.quantity)
    (h : ∃ fill ∈ fills, fill.makerOrderId = maker.id) : afterFills service order maker fills ≠ maker := by
  obtain ⟨fill, hfill, hnamed⟩ := h
  have hsum : 0 < ((fills.filter fun fill => fill.makerOrderId = maker.id).map Fill.quantity).sum := by
    refine List.sum_pos _ ?_ ?_
    · intro q hq
      obtain ⟨fill, hfill, rfl⟩ := List.mem_map.mp hq
      exact hpositive fill (List.mem_of_mem_filter hfill)
    · exact List.ne_nil_of_mem (List.mem_map_of_mem (List.mem_filter.mpr ⟨hfill, decide_eq_true hnamed⟩))
  intro heq
  have hsame := afterFills_filledQuantity service order maker fills
  rw [heq] at hsame
  linarith

end Maker

/-! ### The makers of one fill -/

section Makers

variable {service : TradingService} {order : StoredOrder} {fill : Fill} {rest : List Fill}
  {memory memory₁ memory' : Memory}

/-- A fill that completes its maker is the last one that names it. -/
def Completes (memory : Memory) (fill : Fill) (rest : List Fill) : Prop :=
  ∀ maker ∈ memory.orders, maker.id = fill.makerOrderId →
    maker.quantity ≤ maker.filledQuantity + fill.quantity → ∀ later ∈ rest, later.makerOrderId ≠ maker.id

/-- Objects that are taken out of `orders` stay as they are, and out of it. -/
theorem spliced_stays (hids : memory'.ids.Nodup) (hspliced : memory₁.spliced ⊆ memory'.spliced) :
    ∀ maker ∈ memory₁.spliced, memory'.object maker.id = some maker ∧ ∀ o ∈ memory'.orders, o.id ≠ maker.id := by
  intro maker hmaker
  have hmem := hspliced hmaker
  refine ⟨Memory.object_eq hids (List.mem_append_right _ hmem), fun o ho => ?_⟩
  have hpairwise := List.pairwise_map.mp hids
  exact (List.pairwise_append.mp hpairwise).2.2 o ho maker hmem

theorem completedLast_other {maker : StoredOrder} (h : maker.id ≠ fill.makerOrderId) (filled : Decimal) :
    CompletedLast maker.id maker.quantity filled (fill :: rest) ↔
      CompletedLast maker.id maker.quantity filled rest := by
  rw [CompletedLast, if_neg fun hid => h hid.symm]

theorem completedLast_named {maker : StoredOrder} (h : maker.id = fill.makerOrderId) (filled : Decimal) :
    CompletedLast maker.id maker.quantity filled (fill :: rest) ↔
      (maker.quantity ≤ filled + fill.quantity → ∀ later ∈ rest, later.makerOrderId ≠ maker.id) ∧
        CompletedLast maker.id maker.quantity (filled + fill.quantity) rest := by
  rw [CompletedLast, if_pos h.symm]

/-- Fills that do not name an order do not complete it. -/
theorem completedLast_unnamed {id : String} {quantity : Decimal} {fills : List Fill}
    (h : ∀ fill ∈ fills, fill.makerOrderId ≠ id) (filled : Decimal) : CompletedLast id quantity filled fills := by
  induction fills with
  | nil => trivial
  | cons fill rest ih =>
      rw [CompletedLast, if_neg (h fill List.mem_cons_self)]
      exact ih fun later hlater => h later (List.mem_cons_of_mem fill hlater)

variable (memory) in
/-- The orders around a maker, which have other identifiers. -/
theorem forall_orders {pre post : List StoredOrder} {maker : StoredOrder} {P : StoredOrder → Prop}
    (found : memory.orders = pre ++ maker :: post) :
    (∀ o ∈ memory.orders, P o) ↔ P maker ∧ ∀ o ∈ pre ++ post, P o := by
  rw [found, List.forall_mem_append, List.forall_mem_cons, List.forall_mem_append]
  exact and_left_comm

/-- The identifiers of the orders around a maker. -/
theorem around_ne {pre post : List StoredOrder} {maker : StoredOrder}
    (found : memory.orders = pre ++ maker :: post) (hids : memory.ids.Nodup) :
    ∀ o ∈ pre ++ post, o.id ≠ maker.id := by
  intro o ho
  refine Memory.ids_ne found hids o ?_
  rw [← List.append_assoc]
  exact List.mem_append_left _ ho

variable (rest) in
/-- **No fill exceeds its maker**, if this one does not, and those after it do not. -/
theorem noneExceeds_cons (hids : memory.ids.Nodup) (h : FillApplied service order memory fill memory₁) :
    NoneExceeds (fill :: rest) memory ↔ NoneExceeds rest memory₁ ∧ Completes memory fill rest := by
  cases h with
  | unknown absent =>
      constructor
      · intro h
        exact ⟨fun maker hmaker => (completedLast_other (absent maker hmaker) _).mp (h maker hmaker),
          fun maker hmaker hid => absurd hid (absent maker hmaker)⟩
      · rintro ⟨h, _⟩ maker hmaker
        exact (completedLast_other (absent maker hmaker) _).mpr (h maker hmaker)
  | kept pre post maker found named opens =>
      have hne := around_ne found hids
      rw [NoneExceeds, NoneExceeds, Completes, forall_orders memory found, forall_orders memory found,
        forall_orders { memory with orders := _ } rfl, completedLast_named named]
      have hothers : ∀ o ∈ pre ++ post, CompletedLast o.id o.quantity o.filledQuantity (fill :: rest) ↔
          CompletedLast o.id o.quantity o.filledQuantity rest :=
        fun o ho => completedLast_other (fun hid => hne o ho (hid.trans named.symm)) _
      constructor
      · rintro ⟨⟨_, hlast⟩, hrest⟩
        exact ⟨⟨hlast, fun o ho => (hothers o ho).mp (hrest o ho)⟩,
          fun _ hcloses => absurd hcloses (not_le.mpr opens),
          fun o ho hid => absurd (hid.trans named.symm) (hne o ho)⟩
      · rintro ⟨⟨hlast, hrest⟩, _⟩
        exact ⟨⟨fun hcloses => absurd hcloses (not_le.mpr opens), hlast⟩,
          fun o ho => (hothers o ho).mpr (hrest o ho)⟩
  | filled pre post maker found named closes =>
      have hne := around_ne found hids
      rw [NoneExceeds, Completes, forall_orders memory found, forall_orders memory found, completedLast_named named]
      have hothers : ∀ o ∈ pre ++ post, CompletedLast o.id o.quantity o.filledQuantity (fill :: rest) ↔
          CompletedLast o.id o.quantity o.filledQuantity rest :=
        fun o ho => completedLast_other (fun hid => hne o ho (hid.trans named.symm)) _
      constructor
      · rintro ⟨⟨hcloses, _⟩, hrest⟩
        exact ⟨fun o ho => (hothers o ho).mp (hrest o ho), fun _ => hcloses,
          fun o ho hid => absurd (hid.trans named.symm) (hne o ho)⟩
      · rintro ⟨hrest, hcloses, _⟩
        exact ⟨⟨hcloses named, completedLast_unnamed (hcloses named closes) _⟩,
          fun o ho => (hothers o ho).mpr (hrest o ho)⟩

theorem appliedTo_other {maker : StoredOrder} (h : maker.id ≠ fill.makerOrderId) :
    AppliedTo service order (fill :: rest) maker memory' ↔ AppliedTo service order rest maker memory' := by
  have hne : fill.makerOrderId ≠ maker.id := fun heq => h heq.symm
  constructor
  · rintro ⟨hobject, hclosed⟩
    rw [afterFills_other hne] at hobject hclosed
    exact ⟨hobject, fun ⟨later, hlater, hnamed⟩ => hclosed ⟨later, List.mem_cons_of_mem fill hlater, hnamed⟩⟩
  · rintro ⟨hobject, hclosed⟩
    refine ⟨by rw [afterFills_other hne, hobject], ?_⟩
    rw [afterFills_other hne]
    rintro ⟨later, hlater, hnamed⟩
    rcases List.mem_cons.mp hlater with rfl | hlater
    · exact absurd hnamed hne
    · exact hclosed ⟨later, hlater, hnamed⟩

/-- A fill that leaves its maker open. -/
theorem appliedTo_kept {maker : StoredOrder} (h : maker.id = fill.makerOrderId)
    (hopens : maker.filledQuantity + fill.quantity < maker.quantity) :
    AppliedTo service order (fill :: rest) maker memory' ↔
      AppliedTo service order rest (service.fillMaker maker (service.toTrade order fill)) memory' := by
  have hstatus : (service.fillMaker maker (service.toTrade order fill)).status ≠ .filled :=
    fun hfilled => absurd (fillMaker_filled_iff.mp hfilled) (not_le.mpr hopens)
  have hclose : service.closeMaker maker (service.toTrade order fill)
      = service.fillMaker maker (service.toTrade order fill) := if_neg hstatus
  constructor
  · rintro ⟨hobject, hclosed⟩
    rw [afterFills_named h.symm, hclose] at hobject hclosed
    exact ⟨hobject, fun _ => hclosed ⟨fill, List.mem_cons_self, h.symm⟩⟩
  · rintro ⟨hobject, hclosed⟩
    refine ⟨by rw [afterFills_named h.symm, hclose]; exact hobject, ?_⟩
    rw [afterFills_named h.symm, hclose]
    rintro _ hfilled
    by_cases hnamed : ∃ later ∈ rest, later.makerOrderId = maker.id
    · exact hclosed hnamed hfilled
    · have hsame : afterFills service order (service.fillMaker maker (service.toTrade order fill)) rest
          = service.fillMaker maker (service.toTrade order fill) :=
        afterFills_unnamed fun later hlater heq => hnamed ⟨later, hlater, heq⟩
      rw [hsame] at hfilled
      exact absurd hfilled hstatus

/-- A fill that completes its maker. -/
theorem appliedTo_filled {maker : StoredOrder} (h : maker.id = fill.makerOrderId)
    (hcloses : maker.quantity ≤ maker.filledQuantity + fill.quantity)
    (hpositive : ∀ later ∈ rest, 0 < later.quantity)
    (hobject : memory'.object maker.id
      = some { service.fillMaker maker (service.toTrade order fill) with lockedAmount := 0 })
    (hclosed : ∀ o ∈ memory'.orders, o.id ≠ maker.id) :
    AppliedTo service order (fill :: rest) maker memory' ↔ ∀ later ∈ rest, later.makerOrderId ≠ maker.id := by
  have hclose : service.closeMaker maker (service.toTrade order fill)
      = { service.fillMaker maker (service.toTrade order fill) with lockedAmount := 0 } :=
    if_pos (fillMaker_filled_iff.mpr hcloses)
  constructor
  · rintro ⟨happlied, _⟩ later hlater hnamed
    rw [hobject, afterFills_named h.symm, ← hclose, Option.some.injEq] at happlied
    refine afterFills_ne hpositive ⟨later, hlater, ?_⟩ happlied.symm
    rw [closeMaker_id]
    exact hnamed
  · intro hlast
    refine ⟨?_, fun _ _ => hclosed⟩
    rw [hobject, afterFills_named h.symm, ← hclose, afterFills_unnamed]
    intro later hlater
    rw [closeMaker_id]
    exact hlast later hlater

/-- **The fills are applied once**, if this one is, and those after it are. -/
theorem appliedOnce_cons (hids : memory.ids.Nodup) (hpositive : ∀ later ∈ rest, 0 < later.quantity)
    (h : FillApplied service order memory fill memory₁) (hids' : memory'.ids.Nodup)
    (hspliced : memory₁.spliced ⊆ memory'.spliced) :
    AppliedOnce service order (fill :: rest) memory memory' ↔
      AppliedOnce service order rest memory₁ memory' ∧ Completes memory fill rest := by
  cases h with
  | unknown absent =>
      constructor
      · intro h
        exact ⟨fun maker hmaker => (appliedTo_other (absent maker hmaker)).mp (h maker hmaker),
          fun maker hmaker hid => absurd hid (absent maker hmaker)⟩
      · rintro ⟨h, _⟩ maker hmaker
        exact (appliedTo_other (absent maker hmaker)).mpr (h maker hmaker)
  | kept pre post maker found named opens =>
      have hne := around_ne found hids
      have hother : ∀ o ∈ pre ++ post, o.id ≠ fill.makerOrderId :=
        fun o ho hid => hne o ho (hid.trans named.symm)
      rw [AppliedOnce, AppliedOnce, Completes, forall_orders memory found, forall_orders memory found,
        forall_orders { memory with orders := _ } rfl, appliedTo_kept named opens]
      constructor
      · rintro ⟨hmaker, hrest⟩
        exact ⟨⟨hmaker, fun o ho => (appliedTo_other (hother o ho)).mp (hrest o ho)⟩,
          fun _ hcloses => absurd hcloses (not_le.mpr opens), fun o ho hid => absurd hid (hother o ho)⟩
      · rintro ⟨⟨hmaker, hrest⟩, _⟩
        exact ⟨hmaker, fun o ho => (appliedTo_other (hother o ho)).mpr (hrest o ho)⟩
  | filled pre post maker found named closes =>
      have hne := around_ne found hids
      have hother : ∀ o ∈ pre ++ post, o.id ≠ fill.makerOrderId :=
        fun o ho hid => hne o ho (hid.trans named.symm)
      obtain ⟨hobject, hclosed⟩ := spliced_stays hids' hspliced _
        (List.mem_append_right _ (List.mem_singleton_self _))
      rw [AppliedOnce, AppliedOnce, Completes, forall_orders memory found, forall_orders memory found,
        appliedTo_filled named closes hpositive hobject hclosed]
      constructor
      · rintro ⟨hlast, hrest⟩
        exact ⟨fun o ho => (appliedTo_other (hother o ho)).mp (hrest o ho), fun _ _ => hlast,
          fun o ho hid => absurd hid (hother o ho)⟩
      · rintro ⟨hrest, hlast, _⟩
        exact ⟨hlast named closes, fun o ho => (appliedTo_other (hother o ho)).mpr (hrest o ho)⟩

end Makers

/-! ### One fill -/

/-- No operation that fails does harm. -/
def Harmless (codec : DecimalCodec) (parse : DecimalParser) (s : OrderState) (attempt : OrderAttempt) : Prop :=
  ¬Harms codec parse s attempt

/-- A fill is settled and recorded. -/
structure FillRecorded (service : TradingService) (order : StoredOrder) (remote : Remote) (fill : Fill)
    (remote' : Remote) : Prop where
  settled : ∃ side, settlements remote'.served
    = settlements remote.served ++ [TradingService.settlement (service.toTrade order fill) side]
  recorded : remote'.trades = saveTrade remote.trades (service.toTrade order fill)

/-- **What becomes of a fill**, from a state of the call in which it is not yet done: the call ends with something
left undone; or it was the last fill, and the call ends with all done; or the call goes on with the next one. -/
inductive Iteration (codec : DecimalCodec) (parse : DecimalParser) (service : TradingService) (maxRetries : ℕ)
    (order : StoredOrder) (report : ExecutionReport) (fill : Fill) (rest : List Fill) (memory : Memory)
    (remote : Remote) (s : OrderState) (attempts : List OrderAttempt) (s' : OrderState) : Prop
  | broken (harm : ¬(program codec parse service maxRetries).along (Harmless codec parse) s attempts)
      (ids : s'.memory.ids.Perm memory.ids) (spliced : memory.spliced ⊆ s'.memory.spliced)
      (short : s'.remote.trades.length < remote.trades.length + (rest.length + 1) ∨
        (rest = [] ∧ ¬AppliedOnce service order [fill] memory s'.memory))
  | ended (spares : (program codec parse service maxRetries).along (Harmless codec parse) s attempts)
      (last : rest = []) (applied : FillApplied service order memory fill s'.memory)
      (recorded : FillRecorded service order remote fill s'.remote)
  | passed (memory₁ : Memory) (remote₁ : Remote) (attempts₁ : List OrderAttempt)
      (spares : (program codec parse service maxRetries).along (Harmless codec parse) s attempts ↔
        (program codec parse service maxRetries).along (Harmless codec parse)
          ⟨nextTrade service memory₁ order report rest, memory₁, remote₁⟩ attempts₁)
      (next : (program codec parse service maxRetries).alone
        ⟨nextTrade service memory₁ order report rest, memory₁, remote₁⟩ attempts₁ = s')
      (applied : FillApplied service order memory fill memory₁)
      (recorded : FillRecorded service order remote fill remote₁)

section Iterations

variable {codec : DecimalCodec} {parse : DecimalParser} {service : TradingService} {maxRetries : ℕ}
  {order maker : StoredOrder} {report : ExecutionReport} {fill : Fill} {rest : List Fill}
  {memory memory₁ : Memory} {remote remote₁ : Remote} {s s' : OrderState} {attempt : OrderAttempt}
  {attempts : List OrderAttempt} {outcome : Outcome}

/-- A step that does no harm. -/
theorem Iteration.cons (hharmless : Harmless codec parse s attempt)
    (h : Iteration codec parse service maxRetries order report fill rest memory remote
      ((program codec parse service maxRetries).advance s attempt) attempts s') :
    Iteration codec parse service maxRetries order report fill rest memory remote s (attempt :: attempts) s' := by
  have halong : (program codec parse service maxRetries).along (Harmless codec parse) s (attempt :: attempts) ↔
      (program codec parse service maxRetries).along (Harmless codec parse)
        ((program codec parse service maxRetries).advance s attempt) attempts := and_iff_right hharmless
  cases h with
  | broken harm ids spliced short => exact .broken (fun h => harm (halong.mp h)) ids spliced short
  | ended spares last applied recorded => exact .ended (halong.mpr spares) last applied recorded
  | passed memory₁ remote₁ attempts₁ spares next applied recorded =>
      exact .passed memory₁ remote₁ attempts₁ (halong.trans spares) next applied recorded

/-- A step that does harm. -/
theorem Iteration.harmed (hharms : Harms codec parse s attempt) (ids : s'.memory.ids.Perm memory.ids)
    (spliced : memory.spliced ⊆ s'.memory.spliced)
    (short : s'.remote.trades.length < remote.trades.length + (rest.length + 1) ∨
      (rest = [] ∧ ¬AppliedOnce service order [fill] memory s'.memory)) :
    Iteration codec parse service maxRetries order report fill rest memory remote s (attempt :: attempts) s' :=
  .broken (fun h => h.1 hharms) ids spliced short

/-- A call that has ended does no harm. -/
theorem along_ended (attempts : List OrderAttempt) :
    (program codec parse service maxRetries).along (Harmless codec parse) ⟨.finish outcome, memory, remote⟩
      attempts :=
  Program.along_keeps (P := fun s => s.pause = .finish outcome)
    (fun s attempt h => by rw [Program.advance, h]; exact h)
    (fun s attempt h hharms => by rw [Harms, h] at hharms; exact hharms) rfl attempts

theorem length_saveTrade_le (trades : List Trade) (trade : Trade) :
    (saveTrade trades trade).length ≤ trades.length + 1 := by
  rw [saveTrade]
  split
  · rw [List.length_map]
    exact Nat.le_succ _
  · rw [List.length_append]
    exact Nat.le_refl _

/-- Where more fills follow, one row is too few. -/
theorem FillRecorded.short (h : FillRecorded service order remote fill remote₁) (hrest : rest ≠ []) :
    remote₁.trades.length < remote.trades.length + (rest.length + 1) := by
  have hlength := length_saveTrade_le remote.trades (service.toTrade order fill)
  have hpositive := List.length_pos_iff.mpr hrest
  rw [h.recorded]
  omega

theorem FillApplied.spliced (h : FillApplied service order memory fill memory₁) :
    memory.spliced ⊆ memory₁.spliced := by
  cases h with
  | unknown absent => exact List.Subset.refl _
  | kept pre post maker found named opens => exact List.Subset.refl _
  | filled pre post maker found named closes => exact List.subset_append_left _ _

/-- **The event of a trade.** -/
theorem produced_iteration (happlied : FillApplied service order memory fill memory₁)
    (hrecorded : FillRecorded service order remote fill remote₁)
    (hrun : (program codec parse service maxRetries).alone
      ⟨.await .produce (.produced order report rest), memory₁, remote₁⟩ attempts = s')
    (hend : s'.pause = .finish outcome) :
    Iteration codec parse service maxRetries order report fill rest memory remote
      ⟨.await .produce (.produced order report rest), memory₁, remote₁⟩ attempts s' := by
  obtain ⟨first, attempts, rfl, hnext⟩ := Program.alone_awaits hrun hend
  have hfailed : ∀ failure, (perform codec parse .produce first remote₁).1 = .failed failure →
      s' = ⟨.finish (.abandoned failure.error), memory₁, remote₁⟩ →
      Iteration codec parse service maxRetries order report fill rest memory remote
        ⟨.await .produce (.produced order report rest), memory₁, remote₁⟩ (first :: attempts) s' := by
    rintro failure hperform rfl
    by_cases hrest : rest = []
    · have hadvance : (program codec parse service maxRetries).advance
          ⟨.await .produce (.produced order report rest), memory₁, remote₁⟩ first
          = ⟨.finish (.abandoned failure.error), memory₁, remote₁⟩ := by
        cases first with
        | unsent => cases hperform; rfl
        | lost => cases hperform; rfl
        | answered => cases hperform
      refine .cons (fun hharms => hharms.2 hrest) ?_
      rw [hadvance]
      exact .ended (along_ended attempts) hrest happlied hrecorded
    · exact .harmed ⟨⟨failure, hperform⟩, hrest⟩ happlied.ids happlied.spliced (Or.inl (hrecorded.short hrest))
  cases first with
  | unsent failure => exact hfailed failure rfl (alone_ended hnext)
  | lost failure input => exact hfailed failure rfl (alone_ended hnext)
  | answered input =>
      refine .cons (fun ⟨⟨_, h⟩, _⟩ => nomatch h) ?_
      exact .passed memory₁ remote₁ attempts Iff.rfl hnext happlied hrecorded

theorem settlements_unlock (requests : List WalletRequest) (dto : Wallet.BalanceMutationDto) :
    settlements (requests ++ [.unlock dto]) = settlements requests := by
  rw [settlements, List.filterMap_append]
  exact List.append_nil _

/-- Releasing a lock settles and records nothing. -/
theorem FillRecorded.unlocked {remote₂ : Remote} {dto : Wallet.BalanceMutationDto}
    (h : FillRecorded service order remote fill remote₁) (hpost : remote₁.walletPost (.unlock dto) = .ok remote₂) :
    FillRecorded service order remote fill remote₂ := by
  obtain ⟨reply, wallet, _, rfl⟩ := walletPost_eq_ok.mp hpost
  obtain ⟨side, hsettled⟩ := h.settled
  refine ⟨⟨side, ?_⟩, h.recorded⟩
  rw [← hsettled]
  exact settlements_unlock _ _

section Found

variable {pre post : List StoredOrder}

/-- A maker that is filled and still among `orders`. -/
theorem not_appliedOnce (found : memory.orders = pre ++ maker :: post) (named : maker.id = fill.makerOrderId)
    (closes : maker.quantity ≤ maker.filledQuantity + fill.quantity) :
    ¬AppliedOnce service order [fill] memory
      { memory with orders := pre ++ service.fillMaker maker (service.toTrade order fill) :: post } := by
  intro h
  have hmaker : maker ∈ memory.orders := by
    rw [found]
    exact List.mem_append_right _ List.mem_cons_self
  have hclose : service.closeMaker maker (service.toTrade order fill)
      = { service.fillMaker maker (service.toTrade order fill) with lockedAmount := 0 } :=
    if_pos (fillMaker_filled_iff.mpr closes)
  refine (h maker hmaker).closed ⟨fill, List.mem_cons_self, named.symm⟩ ?_
    (service.fillMaker maker (service.toTrade order fill)) (List.mem_append_right _ List.mem_cons_self) rfl
  rw [afterFills_named named.symm, hclose]
  exact fillMaker_filled_iff.mpr closes

/-- **The release of the lock of a maker that is filled.** -/
theorem unlocking_iteration (hids : memory.ids.Nodup) (found : memory.orders = pre ++ maker :: post)
    (named : maker.id = fill.makerOrderId) (closes : maker.quantity ≤ maker.filledQuantity + fill.quantity)
    (hrecorded : FillRecorded service order remote fill remote₁) {released : StoredOrder} {amount : Decimal}
    (hrun : (program codec parse service maxRetries).alone
      ⟨unlocking released amount (.makerUnlocked order report maker.id rest),
        { memory with orders := pre ++ service.fillMaker maker (service.toTrade order fill) :: post }, remote₁⟩
      attempts = s')
    (hend : s'.pause = .finish outcome) :
    Iteration codec parse service maxRetries order report fill rest memory remote
      ⟨unlocking released amount (.makerUnlocked order report maker.id rest),
        { memory with orders := pre ++ service.fillMaker maker (service.toTrade order fill) :: post }, remote₁⟩
      attempts s' := by
  have hempty := Memory.empty_at
    { memory with orders := pre ++ service.fillMaker maker (service.toTrade order fill) :: post }
    (service.fillMaker maker (service.toTrade order fill)) rfl (by
      rw [Memory.ids_at memory found (service.fillMaker maker (service.toTrade order fill)) rfl]
      exact hids)
  have hdone : ∀ {remote₂ : Remote} {attempts : List OrderAttempt},
      FillRecorded service order remote fill remote₂ → (program codec parse service maxRetries).alone
        ⟨.await .produce (.produced order report rest),
          (({ memory with orders := pre ++ service.fillMaker maker (service.toTrade order fill) :: post }
            : Memory).change maker.id fun maker => { maker with lockedAmount := 0 }).splice maker.id, remote₂⟩
        attempts = s' →
      Iteration codec parse service maxRetries order report fill rest memory remote
        ⟨.await .produce (.produced order report rest),
          (({ memory with orders := pre ++ service.fillMaker maker (service.toTrade order fill) :: post }
            : Memory).change maker.id fun maker => { maker with lockedAmount := 0 }).splice maker.id, remote₂⟩
        attempts s' := by
    intro remote₂ attempts hrecorded hnext
    refine produced_iteration ?_ hrecorded hnext hend
    have happlied : FillApplied service order memory fill _ := .filled pre post maker found named closes
    rw [show maker.id = (service.fillMaker maker (service.toTrade order fill)).id from rfl, hempty]
    exact happlied
  have hfailed : ∀ {operation : Operation} {first : OrderAttempt} {attempts : List OrderAttempt} {failure : Failure}
      {remote₂ : Remote}, (perform codec parse operation first remote₁).1 = .failed failure →
      FillRecorded service order remote fill remote₂ →
      s' = ⟨.finish (.abandoned failure.error),
        { memory with orders := pre ++ service.fillMaker maker (service.toTrade order fill) :: post }, remote₂⟩ →
      Iteration codec parse service maxRetries order report fill rest memory remote
        ⟨.await operation (.makerUnlocked order report maker.id rest),
          { memory with orders := pre ++ service.fillMaker maker (service.toTrade order fill) :: post }, remote₁⟩
        (first :: attempts) s' := by
    rintro operation first attempts failure remote₂ hperform hrecorded rfl
    refine .harmed ⟨⟨failure, hperform⟩, trivial⟩ (List.Perm.of_eq (Memory.ids_at memory found _ rfl))
      (List.Subset.refl _) ?_
    by_cases hrest : rest = []
    · exact Or.inr ⟨hrest, not_appliedOnce found named closes⟩
    · exact Or.inl (hrecorded.short hrest)
  by_cases hamount : amount ≤ 0
  · rw [unlocking, if_pos hamount] at hrun ⊢
    obtain ⟨first, attempts, rfl, hnext⟩ := Program.alone_awaits hrun hend
    have hresolved : ∀ failure, Answer.done ≠ .failed failure := by simp
    exact .cons (fun h => h.1.elim hresolved) (hdone hrecorded hnext)
  · rw [unlocking, if_neg hamount] at hrun ⊢
    obtain ⟨first, attempts, rfl, hnext⟩ := Program.alone_awaits hrun hend
    rcases perform_walletPost codec parse (.unlock (TradingService.mutationOf released amount)) first remote₁ with
      ⟨failure, hperform⟩ | ⟨remote₂, hpost, ⟨failure, hperform⟩ | hperform⟩
    · rw [advance_abandoned codec parse service maxRetries _ _ rfl hperform] at hnext
      exact hfailed (congrArg Prod.fst hperform) hrecorded (alone_ended hnext)
    · rw [advance_abandoned codec parse service maxRetries _ _ rfl hperform] at hnext
      exact hfailed (congrArg Prod.fst hperform) (hrecorded.unlocked hpost) (alone_ended hnext)
    · refine .cons ?_ ?_
      · rintro ⟨⟨failure, h⟩, _⟩
        rw [hperform] at h
        cases h
      · rw [advance_eq codec parse service maxRetries _ _ hperform] at hnext ⊢
        exact hdone (hrecorded.unlocked hpost) hnext

/-- **The update of the row of the maker.** -/
theorem makerUpdated_iteration (hids : memory.ids.Nodup) (found : memory.orders = pre ++ maker :: post)
    (named : maker.id = fill.makerOrderId) (hrecorded : FillRecorded service order remote fill remote₁)
    {filledQuantity : Option Decimal} {status : OrderStatus}
    (hrun : (program codec parse service maxRetries).alone
      ⟨.await (.updateOrder maker.id filledQuantity status) (.makerUpdated order report maker.id rest),
        { memory with orders := pre ++ service.fillMaker maker (service.toTrade order fill) :: post }, remote₁⟩
      attempts = s')
    (hend : s'.pause = .finish outcome) :
    Iteration codec parse service maxRetries order report fill rest memory remote
      ⟨.await (.updateOrder maker.id filledQuantity status) (.makerUpdated order report maker.id rest),
        { memory with orders := pre ++ service.fillMaker maker (service.toTrade order fill) :: post }, remote₁⟩
      attempts s' := by
  have hmem : service.fillMaker maker (service.toTrade order fill) ∈ Memory.objects
      { memory with orders := pre ++ service.fillMaker maker (service.toTrade order fill) :: post } :=
    List.mem_append_left _ (List.mem_append_right _ List.mem_cons_self)
  have hobject : Memory.object
      { memory with orders := pre ++ service.fillMaker maker (service.toTrade order fill) :: post } maker.id
      = some (service.fillMaker maker (service.toTrade order fill)) :=
    (Memory.object_eq (by
      rw [Memory.ids_at memory found (service.fillMaker maker (service.toTrade order fill)) rfl]
      exact hids) hmem :)
  have hupdated : ∀ {remote₂ : Remote}, remote₂ = { remote₁ with
        rows := updateOrder remote₁.rows maker.id filledQuantity status } →
      FillRecorded service order remote fill remote₂ := by
    rintro _ rfl
    exact ⟨hrecorded.settled, hrecorded.recorded⟩
  have hopens : ¬maker.quantity ≤ maker.filledQuantity + fill.quantity →
      FillApplied service order memory fill
        { memory with orders := pre ++ service.fillMaker maker (service.toTrade order fill) :: post } :=
    fun h => .kept pre post maker found named (not_le.mp h)
  obtain ⟨first, attempts, rfl, hnext⟩ := Program.alone_awaits hrun hend
  have hfailed : ∀ {failure : Failure} {remote₂ : Remote},
      perform codec parse (.updateOrder maker.id filledQuantity status) first remote₁
        = (.failed failure, remote₂) →
      FillRecorded service order remote fill remote₂ →
      Iteration codec parse service maxRetries order report fill rest memory remote
        ⟨.await (.updateOrder maker.id filledQuantity status) (.makerUpdated order report maker.id rest),
          { memory with orders := pre ++ service.fillMaker maker (service.toTrade order fill) :: post }, remote₁⟩
        (first :: attempts) s' := by
    intro failure remote₂ hperform hrecorded
    rw [advance_abandoned codec parse service maxRetries _ _ rfl hperform] at hnext
    obtain rfl := alone_ended hnext
    by_cases hrest : rest = []
    · by_cases hcloses : maker.quantity ≤ maker.filledQuantity + fill.quantity
      · exact .harmed ⟨⟨failure, congrArg Prod.fst hperform⟩,
          Or.inr ⟨_, hobject, fillMaker_filled_iff.mpr hcloses⟩⟩ (List.Perm.of_eq (Memory.ids_at memory found _ rfl))
          (List.Subset.refl _) (Or.inr ⟨hrest, not_appliedOnce found named hcloses⟩)
      · refine .cons ?_ ?_
        · rintro ⟨_, hmore | ⟨object, hfound, hfilled⟩⟩
          · exact hmore hrest
          · rw [hobject] at hfound
            cases hfound
            exact hcloses (fillMaker_filled_iff.mp hfilled)
        · rw [advance_abandoned codec parse service maxRetries _ _ rfl hperform]
          exact .ended (along_ended attempts) hrest (hopens hcloses) hrecorded
    · exact .harmed ⟨⟨failure, congrArg Prod.fst hperform⟩, Or.inl hrest⟩ (List.Perm.of_eq (Memory.ids_at memory found _ rfl))
        (List.Subset.refl _) (Or.inl (hrecorded.short hrest))
  have hne : Operation.updateOrder maker.id filledQuantity status ≠ .resolved := fun h => nomatch h
  rcases perform_write (f := fun remote =>
      { remote with rows := updateOrder remote.rows maker.id filledQuantity status }) hne (fun _ _ => rfl) first
    remote₁ with ⟨failure, _, hperform⟩ | ⟨failure, _, _, hperform⟩ | hperform
  · exact hfailed hperform hrecorded
  · exact hfailed hperform (hupdated rfl)
  · refine .cons ?_ ?_
    · rintro ⟨⟨failure, h⟩, _⟩
      rw [hperform] at h
      cases h
    · rw [advance_eq codec parse service maxRetries _ _ hperform] at hnext ⊢
      have hrelease : (resume service maxRetries (.makerUpdated order report maker.id rest) .done
            { memory with orders := pre ++ service.fillMaker maker (service.toTrade order fill) :: post }).1
          = if maker.quantity ≤ maker.filledQuantity + fill.quantity then
              unlocking (service.fillMaker maker (service.toTrade order fill))
                (service.fillMaker maker (service.toTrade order fill)).lockedAmount
                (.makerUnlocked order report maker.id rest)
            else .await .produce (.produced order report rest) := by
        show releaseMaker _ order report maker.id rest = _
        rw [releaseMaker, hobject]
        simp only [fillMaker_filled_iff]
      rw [hrelease] at hnext ⊢
      split at hnext
      · rename_i hcloses
        rw [if_pos hcloses]
        exact unlocking_iteration hids found named hcloses (hupdated rfl) hnext hend
      · rename_i hcloses
        rw [if_neg hcloses]
        exact produced_iteration (hopens hcloses) (hupdated rfl) hnext hend

end Found

/-- **The row of the trade.** -/
theorem recorded_iteration (hids : memory.ids.Nodup) (hpositive : 0 < fill.quantity)
    (hsettled : ∃ side, settlements remote₁.served
      = settlements remote.served ++ [TradingService.settlement (service.toTrade order fill) side])
    (htrades : remote₁.trades = remote.trades)
    (hrun : (program codec parse service maxRetries).alone
      ⟨.await (.saveTrade (service.toTrade order fill)) (.recorded order report fill rest), memory, remote₁⟩
      attempts = s')
    (hend : s'.pause = .finish outcome) :
    Iteration codec parse service maxRetries order report fill rest memory remote
      ⟨.await (.saveTrade (service.toTrade order fill)) (.recorded order report fill rest), memory, remote₁⟩
      attempts s' := by
  have hne : Operation.saveTrade (service.toTrade order fill) ≠ .resolved := fun h => nomatch h
  have hrecorded : FillRecorded service order remote fill
      { remote₁ with trades := saveTrade remote₁.trades (service.toTrade order fill) } :=
    ⟨hsettled, by rw [htrades]⟩
  obtain ⟨first, attempts, rfl, hnext⟩ := Program.alone_awaits hrun hend
  rcases perform_write (f := fun remote =>
      { remote with trades := saveTrade remote.trades (service.toTrade order fill) }) hne (fun _ _ => rfl) first
    remote₁ with ⟨failure, hunsent, hperform⟩ | ⟨failure, input, rfl, hperform⟩ | hperform
  · rw [advance_abandoned codec parse service maxRetries _ _ rfl hperform] at hnext
    obtain rfl := alone_ended hnext
    refine .harmed ⟨⟨failure, congrArg Prod.fst hperform⟩, Or.inl ⟨failure, hunsent⟩⟩ (List.Perm.refl _)
      (List.Subset.refl _) (Or.inl ?_)
    show remote₁.trades.length < _
    rw [htrades]
    omega
  · rw [advance_abandoned codec parse service maxRetries _ _ rfl hperform] at hnext
    obtain rfl := alone_ended hnext
    by_cases hrest : rest = []
    · cases hfind : memory.orders.find? fun maker => decide (maker.id = fill.makerOrderId) with
      | none =>
          have habsent := Memory.find_none.mp hfind
          refine .cons ?_ ?_
          · rintro ⟨_, ⟨_, hunsent⟩ | hmore | ⟨maker, hmaker, hnamed⟩⟩
            · cases hunsent
            · exact hmore hrest
            · exact habsent maker hmaker hnamed
          · rw [advance_abandoned codec parse service maxRetries _ _ rfl hperform]
            exact .ended (along_ended attempts) hrest (.unknown habsent) hrecorded
      | some maker =>
          obtain ⟨hnamed, pre, post, hfound⟩ := Memory.find_at hfind
          have hmaker : maker ∈ memory.orders := by
            rw [hfound]
            exact List.mem_append_right _ List.mem_cons_self
          refine .harmed ⟨⟨failure, congrArg Prod.fst hperform⟩, Or.inr (Or.inr ⟨maker, hmaker, hnamed⟩)⟩
            (List.Perm.refl _) (List.Subset.refl _) (Or.inr ⟨hrest, fun happlied => ?_⟩)
          have hobject := (happlied maker hmaker).object
          rw [Memory.object_eq hids (List.mem_append_left _ hmaker), Option.some.injEq] at hobject
          refine afterFills_ne ?_ ⟨fill, List.mem_cons_self, hnamed.symm⟩ hobject.symm
          exact fun later hlater => List.mem_singleton.mp hlater ▸ hpositive
    · exact .harmed ⟨⟨failure, congrArg Prod.fst hperform⟩, Or.inr (Or.inl hrest)⟩ (List.Perm.refl _)
        (List.Subset.refl _) (Or.inl (hrecorded.short hrest))
  · refine .cons ?_ ?_
    · rintro ⟨⟨failure, h⟩, _⟩
      rw [hperform] at h
      cases h
    · rw [advance_eq codec parse service maxRetries _ _ hperform] at hnext ⊢
      have happly : resume service maxRetries (.recorded order report fill rest) .done memory
          = applyFill service memory order report fill rest := rfl
      rw [happly, applyFill] at hnext ⊢
      cases hfind : memory.orders.find? fun maker => decide (maker.id = fill.makerOrderId) with
      | none =>
          rw [hfind] at hnext
          exact produced_iteration (.unknown (Memory.find_none.mp hfind)) hrecorded hnext hend
      | some maker =>
          obtain ⟨hnamed, pre, post, hfound⟩ := Memory.find_at hfind
          rw [hfind] at hnext
          simp only [Memory.change_at hfound hids] at hnext ⊢
          exact makerUpdated_iteration hids hfound hnamed hrecorded hnext hend

/-- **One fill.** -/
theorem settled_iteration (hids : memory.ids.Nodup) (hpositive : 0 < fill.quantity)
    (hrun : (program codec parse service maxRetries).alone
      ⟨nextTrade service memory order report (fill :: rest), memory, remote⟩ attempts = s')
    (hend : s'.pause = .finish outcome) :
    Iteration codec parse service maxRetries order report fill rest memory remote
      ⟨nextTrade service memory order report (fill :: rest), memory, remote⟩ attempts s' := by
  rw [nextTrade] at hrun ⊢
  obtain ⟨first, attempts, rfl, hnext⟩ := Program.alone_awaits hrun hend
  rcases perform_walletPost codec parse (.settleTrade (TradingService.settlement (service.toTrade order fill)
      (((memory.orders.find? fun maker => maker.id = fill.makerOrderId).map StoredOrder.side).getD
        (MatchingEngine.opposite order.side)))) first remote with
    ⟨failure, hperform⟩ | ⟨remote₂, hpost, ⟨failure, hperform⟩ | hperform⟩
  · rw [advance_abandoned codec parse service maxRetries _ _ rfl hperform] at hnext
    obtain rfl := alone_ended hnext
    refine .harmed ⟨⟨failure, congrArg Prod.fst hperform⟩, trivial⟩ (List.Perm.refl _) (List.Subset.refl _)
      (Or.inl ?_)
    show remote.trades.length < _
    omega
  · obtain ⟨reply, wallet, _, rfl⟩ := walletPost_eq_ok.mp hpost
    rw [advance_abandoned codec parse service maxRetries _ _ rfl hperform] at hnext
    obtain rfl := alone_ended hnext
    refine .harmed ⟨⟨failure, congrArg Prod.fst hperform⟩, trivial⟩ (List.Perm.refl _) (List.Subset.refl _)
      (Or.inl ?_)
    show remote.trades.length < _
    omega
  · obtain ⟨reply, wallet, _, rfl⟩ := walletPost_eq_ok.mp hpost
    refine .cons ?_ ?_
    · rintro ⟨⟨failure, h⟩, _⟩
      rw [hperform] at h
      cases h
    · rw [advance_eq codec parse service maxRetries _ _ hperform] at hnext ⊢
      exact recorded_iteration hids hpositive ⟨_, List.filterMap_append⟩ rfl hnext hend

/-! ### After the fills -/

/-- Where a call is that has done all of its fills, and the memory, which was another when they were done. -/
def ClosingPause (id : String) (memory memory' : Memory) : OrderPause → Prop
  | .await operation (.orderUpdated order _) => order.id = id ∧ memory' = memory ∧
      ∃ filledQuantity status, operation = .updateOrder id filledQuantity status
  | .await operation (.unlocked order _ _) => order.id = id ∧ memory' = memory ∧
      (operation = .resolved ∨ ∃ dto, operation = .walletPost (.unlock dto))
  | .await operation (.announced order _) | .await operation (.matched order _) =>
    order.id = id ∧ memory' = memory ∧ operation = .produce
  | .finish (.placed _ _) => memory' = memory ∨
      ∃ order : StoredOrder, order.id = id ∧ memory' = { memory with orders := memory.orders ++ [order] }
  | .finish (.abandoned _) => memory' = memory
  | _ => False

/-- **A call that has done all of its fills**, from some memory and tables on: its order is updated and announced,
and pushed in the end. -/
structure Closing (id : String) (memory : Memory) (remote : Remote) (s : OrderState) : Prop where
  trades : s.remote.trades = remote.trades
  settled : settlements s.remote.served = settlements remote.served
  pause : ClosingPause id memory s.memory s.pause

theorem Closing.harmless {id : String} (h : Closing id memory remote s) : Harmless codec parse s attempt := by
  have hpause := h.pause
  rw [Harmless, Harms]
  cases hcase : s.pause with
  | finish outcome => exact fun hharms => hharms
  | await operation point =>
      rw [hcase] at hpause
      cases point with
      | orderUpdated | unlocked | announced | matched => exact fun hharms => hharms.2
      | _ => cases hpause

/-- The release of what an order does not need. -/
theorem closing_unlocking {id : String} {placed released : StoredOrder} (hid : placed.id = id) (amount : Decimal)
    (restLock : Decimal) :
    ClosingPause id memory memory (unlocking released amount (.unlocked placed report restLock)) := by
  rw [unlocking]
  split
  · exact ⟨hid, rfl, Or.inl rfl⟩
  · exact ⟨hid, rfl, Or.inr ⟨_, rfl⟩⟩

/-- The end of such a call. -/
theorem closing_finish {id : String} {placed : StoredOrder} (hid : placed.id = id) :
    ClosingPause id memory (finishPlacing memory placed report).2 (finishPlacing memory placed report).1 := by
  rw [finishPlacing]
  split
  · exact Or.inr ⟨placed, hid, rfl⟩
  · exact Or.inl rfl

variable (codec parse) in
/-- Whether an event is produced or not, the tables stay. -/
theorem perform_produce (attempt : OrderAttempt) (remote : Remote) :
    (∃ failure, perform codec parse .produce attempt remote = (.failed failure, remote)) ∨
      perform codec parse .produce attempt remote = (.done, remote) := by
  cases attempt with
  | unsent failure => exact Or.inl ⟨failure, rfl⟩
  | lost failure input => exact Or.inl ⟨failure, rfl⟩
  | answered input => exact Or.inr rfl

/-- A step of such a call. -/
theorem Closing.advance {id : String} (h : Closing id memory remote s) :
    Closing id memory remote ((program codec parse service maxRetries).advance s attempt) := by
  obtain ⟨pause, memory₁, remote₁⟩ := s
  obtain ⟨htrades, hsettled, hpause⟩ := h
  have habandoned : ∀ {remote₂ : Remote} {error : TradingError}, remote₂.trades = remote₁.trades →
      settlements remote₂.served = settlements remote₁.served →
      Closing id memory remote ⟨.finish (.abandoned error), memory, remote₂⟩ :=
    fun htrades₂ hsettled₂ => ⟨htrades₂.trans htrades, hsettled₂.trans hsettled, rfl⟩
  cases pause with
  | finish outcome => exact ⟨htrades, hsettled, hpause⟩
  | await operation point =>
      cases point with
      | orderUpdated placed report =>
          obtain ⟨hid, rfl, filledQuantity, status, rfl⟩ := hpause
          have hne : Operation.updateOrder id filledQuantity status ≠ .resolved := fun h => nomatch h
          rcases perform_write (f := fun remote =>
              { remote with rows := updateOrder remote.rows id filledQuantity status }) hne (fun _ _ => rfl) attempt
            remote₁ with ⟨failure, _, hperform⟩ | ⟨failure, _, _, hperform⟩ | hperform
          · rw [advance_abandoned codec parse service maxRetries _ _ rfl hperform]
            exact habandoned rfl rfl
          · rw [advance_abandoned codec parse service maxRetries _ _ rfl hperform]
            exact habandoned rfl rfl
          · rw [advance_eq codec parse service maxRetries _ _ hperform]
            exact ⟨htrades, hsettled, closing_unlocking hid _ _⟩
      | unlocked placed report restLock =>
          obtain ⟨hid, rfl, rfl | ⟨dto, rfl⟩⟩ := hpause
          · exact ⟨htrades, hsettled, hid, rfl, rfl⟩
          · rcases perform_walletPost codec parse (.unlock dto) attempt remote₁ with
              ⟨failure, hperform⟩ | ⟨remote₂, hpost, hanswer⟩
            · rw [advance_abandoned codec parse service maxRetries _ _ rfl hperform]
              exact habandoned rfl rfl
            · obtain ⟨reply, wallet, _, rfl⟩ := walletPost_eq_ok.mp hpost
              rcases hanswer with ⟨failure, hperform⟩ | hperform
              · rw [advance_abandoned codec parse service maxRetries _ _ rfl hperform]
                exact habandoned rfl (settlements_unlock _ _)
              · rw [advance_eq codec parse service maxRetries _ _ hperform]
                exact ⟨htrades, (settlements_unlock _ _).trans hsettled, hid, rfl, rfl⟩
      | announced placed report =>
          obtain ⟨hid, rfl, rfl⟩ := hpause
          rcases perform_produce codec parse attempt remote₁ with ⟨failure, hperform⟩ | hperform
          · rw [advance_abandoned codec parse service maxRetries _ _ rfl hperform]
            exact habandoned rfl rfl
          · rw [advance_eq codec parse service maxRetries _ _ hperform]
            have hresume : resume service maxRetries (.announced placed report) .done memory₁
                = if report.fills.isEmpty then finishPlacing memory₁ placed report
                  else (.await .produce (.matched placed report), memory₁) := rfl
            rw [hresume]
            split
            · exact ⟨htrades, hsettled, closing_finish hid⟩
            · exact ⟨htrades, hsettled, hid, rfl, rfl⟩
      | matched placed report =>
          obtain ⟨hid, rfl, rfl⟩ := hpause
          rcases perform_produce codec parse attempt remote₁ with ⟨failure, hperform⟩ | hperform
          · rw [advance_abandoned codec parse service maxRetries _ _ rfl hperform]
            exact habandoned rfl rfl
          · rw [advance_eq codec parse service maxRetries _ _ hperform]
            exact ⟨htrades, hsettled, closing_finish hid⟩
      | _ => cases hpause

variable (codec parse service maxRetries order report) in
/-- **The run of such a call.** -/
theorem closing_alone (memory : Memory) (remote : Remote) (attempts : List OrderAttempt) :
    Closing order.id memory remote ((program codec parse service maxRetries).alone
        ⟨nextTrade service memory order report [], memory, remote⟩ attempts) ∧
      (program codec parse service maxRetries).along (Harmless codec parse)
        ⟨nextTrade service memory order report [], memory, remote⟩ attempts := by
  have hstart : Closing order.id memory remote ⟨nextTrade service memory order report [], memory, remote⟩ :=
    ⟨rfl, rfl, rfl, rfl, _, _, rfl⟩
  exact ⟨Program.alone_keeps (fun _ _ h => h.advance) hstart attempts,
    Program.along_keeps (fun _ _ h => h.advance) (fun _ _ h => h.harmless) hstart attempts⟩

/-- **The end of such a call**: the objects are there, and one may have been pushed. -/
theorem Closing.ended {id : String} (h : Closing id memory remote s) (hend : s.pause = .finish outcome)
    (hids : (id :: memory.ids).Nodup) :
    s.memory.ids.Nodup ∧ memory.spliced ⊆ s.memory.spliced ∧ memory.orders ⊆ s.memory.orders := by
  have hpause := h.pause
  rw [hend] at hpause
  have hmemory : s.memory = memory ∨ ∃ order : StoredOrder, order.id = id ∧
      s.memory = { memory with orders := memory.orders ++ [order] } := by
    cases outcome with
    | placed => exact hpause
    | abandoned => exact Or.inl hpause
    | cancelled | threw => cases hpause
  rcases hmemory with hmemory | ⟨placed, hid, hmemory⟩
  · rw [hmemory]
    exact ⟨(List.nodup_cons.mp hids).2, List.Subset.refl _, List.Subset.refl _⟩
  · rw [hmemory]
    refine ⟨?_, List.Subset.refl _, List.subset_append_left _ _⟩
    have hpushed : (memory.orders ++ [placed] ++ memory.spliced).Perm (placed :: memory.objects) := by
      rw [List.append_assoc]
      exact List.perm_middle
    refine (hpushed.map StoredOrder.id).nodup_iff.mpr ?_
    rw [List.map_cons, hid]
    exact hids

/-! ### Every fill -/

/-- **The fills of an order**, from some memory and tables on: all is done once exactly if no operation that fails
does harm, and no fill exceeds its maker. -/
theorem loop_settles {fills : List Fill} (hids : (order.id :: memory.ids).Nodup)
    (htrades : (remote.trades.map Trade.id ++ fills.map Fill.tradeId).Nodup)
    (hpositive : ∀ fill ∈ fills, 0 < fill.quantity)
    (hrun : (program codec parse service maxRetries).alone
      ⟨nextTrade service memory order report fills, memory, remote⟩ attempts = s')
    (hend : s'.pause = .finish outcome) :
    (s'.memory.ids.Nodup ∧ memory.spliced ⊆ s'.memory.spliced) ∧
      (s'.remote.trades = remote.trades ++ fills.map (service.toTrade order) →
        AppliedOnce service order fills memory s'.memory →
        (program codec parse service maxRetries).along (Harmless codec parse)
          ⟨nextTrade service memory order report fills, memory, remote⟩ attempts ∧ NoneExceeds fills memory) ∧
      ((program codec parse service maxRetries).along (Harmless codec parse)
          ⟨nextTrade service memory order report fills, memory, remote⟩ attempts → NoneExceeds fills memory →
        SettledOnce service order fills memory remote s'.memory s'.remote) := by
  induction fills generalizing memory remote attempts with
  | nil =>
      obtain ⟨hclosing, halong⟩ := closing_alone codec parse service maxRetries order report memory remote attempts
      rw [hrun] at hclosing
      obtain ⟨hids', hspliced, horders⟩ := hclosing.ended hend hids
      refine ⟨⟨hids', hspliced⟩, fun _ _ => ⟨halong, fun _ _ => trivial⟩, fun _ _ => ?_⟩
      refine ⟨⟨[], rfl, hclosing.settled.trans (List.append_nil _).symm⟩,
        hclosing.trades.trans (List.append_nil _).symm, fun maker hmaker => ⟨?_, fun ⟨_, h, _⟩ => nomatch h⟩⟩
      exact Memory.object_eq hids' (List.mem_append_left _ (horders hmaker))
  | cons fill rest ih =>
      have hmemory := (List.nodup_cons.mp hids).2
      have hpositive' : ∀ later ∈ rest, 0 < later.quantity :=
        fun later hlater => hpositive later (List.mem_cons_of_mem fill hlater)
      have hsave : saveTrade remote.trades (service.toTrade order fill)
          = remote.trades ++ [service.toTrade order fill] := by
        refine saveTrade_new fun old hold heq => ?_
        exact (List.nodup_append.mp htrades).2.2 old.id (List.mem_map_of_mem hold) fill.tradeId
          List.mem_cons_self heq
      cases settled_iteration hmemory (hpositive fill List.mem_cons_self) hrun hend with
      | broken harm ids spliced short =>
          refine ⟨⟨ids.nodup_iff.mpr hmemory, spliced⟩, fun hrecorded happlied => ?_, fun h => absurd h harm⟩
          rcases short with hshort | ⟨rfl, hunapplied⟩
          · rw [hrecorded, List.length_append, List.length_map, List.length_cons] at hshort
            exact absurd hshort (Nat.lt_irrefl _)
          · exact absurd happlied hunapplied
      | ended spares last applied recorded =>
          obtain rfl := last
          have hids' := applied.ids.nodup_iff.mpr hmemory
          have hnone := (noneExceeds_cons [] hmemory applied).mpr
            ⟨fun _ _ => trivial, fun _ _ _ _ later hlater => nomatch hlater⟩
          refine ⟨⟨hids', applied.spliced⟩, fun _ _ => ⟨spares, hnone⟩, fun _ _ => ?_⟩
          obtain ⟨side, hsettled⟩ := recorded.settled
          refine ⟨⟨[side], rfl, hsettled⟩, recorded.recorded.trans hsave, ?_⟩
          refine (appliedOnce_cons hmemory hpositive' applied hids' (List.Subset.refl _)).mpr
            ⟨fun maker hmaker => ⟨?_, fun ⟨_, h, _⟩ => nomatch h⟩, fun _ _ _ _ later hlater => nomatch hlater⟩
          exact Memory.object_eq hids' (List.mem_append_left _ hmaker)
      | passed memory₁ remote₁ attempts₁ spares next applied recorded =>
          have hids₁ : (order.id :: memory₁.ids).Nodup := (applied.ids.cons order.id).nodup_iff.mpr hids
          have hrecorded₁ : remote₁.trades = remote.trades ++ [service.toTrade order fill] :=
            recorded.recorded.trans hsave
          have htrades₁ : (remote₁.trades.map Trade.id ++ rest.map Fill.tradeId).Nodup := by
            rw [hrecorded₁, List.map_append, List.append_assoc]
            exact htrades
          obtain ⟨⟨hids', hspliced⟩, hforward, hback⟩ := ih hids₁ htrades₁ hpositive' next
          have happlied := appliedOnce_cons hmemory hpositive' applied hids' hspliced
          have hnone := noneExceeds_cons rest hmemory applied
          refine ⟨⟨hids', List.Subset.trans applied.spliced hspliced⟩, fun hrecorded honce => ?_,
            fun halong hexceeds => ?_⟩
          · obtain ⟨honce₁, hcompletes⟩ := happlied.mp honce
            obtain ⟨halong, hexceeds⟩ := hforward (by
              rw [hrecorded, hrecorded₁, List.append_assoc]
              rfl) honce₁
            exact ⟨spares.mpr halong, hnone.mpr ⟨hexceeds, hcompletes⟩⟩
          · obtain ⟨hexceeds₁, hcompletes⟩ := hnone.mp hexceeds
            obtain ⟨⟨sides, hlength, hsettled⟩, hrecorded, honce⟩ := hback (spares.mp halong) hexceeds₁
            obtain ⟨side, hside⟩ := recorded.settled
            refine ⟨⟨side :: sides, congrArg Nat.succ hlength, ?_⟩, ?_, happlied.mpr ⟨honce, hcompletes⟩⟩
            · rw [hsettled, hside, List.append_assoc]
              rfl
            · rw [hrecorded, hrecorded₁, List.append_assoc]
              rfl

end Iterations

/-- **The trades of an order are settled once exactly if** no operation that fails before all is done does harm,
and the fill that completes a maker is the last one that names it.  The call goes on with a report in which the
engine accepts its order. -/
theorem placeOrder_settles_once_iff (codec : DecimalCodec) (parse : DecimalParser) (service : TradingService)
    (maxRetries attempt : ℕ) (order : StoredOrder) (report : ExecutionReport) (haccepted : report.accepted = true)
    (memory : Memory) (remote : Remote) (hids : (order.id :: memory.ids).Nodup)
    (htrades : (remote.trades.map Trade.id ++ report.fills.map Fill.tradeId).Nodup)
    (hpositive : ∀ fill ∈ report.fills, 0 < fill.quantity) (attempts : List OrderAttempt) (s' : OrderState)
    (hrun : (program codec parse service maxRetries).alone
      ⟨(resume service maxRetries (.submitted order attempt) (.report report) memory).1, memory, remote⟩ attempts
        = s')
    (outcome : Outcome) (hend : s'.pause = .finish outcome) :
    SettledOnce service order report.fills memory remote s'.memory s'.remote ↔
      (program codec parse service maxRetries).along (Harmless codec parse)
        ⟨(resume service maxRetries (.submitted order attempt) (.report report) memory).1, memory, remote⟩
        attempts ∧ NoneExceeds report.fills memory := by
  have hresume : (resume service maxRetries (.submitted order attempt) (.report report) memory).1
      = nextTrade service memory order report report.fills := by
    show afterReport service memory order report = _
    rw [afterReport, if_neg (by rw [haccepted]; exact fun h => nomatch h)]
  rw [hresume] at hrun ⊢
  obtain ⟨_, hforward, hback⟩ := loop_settles hids htrades hpositive hrun hend
  exact ⟨fun h => hforward h.recorded h.applied, fun h => hback h.1 h.2⟩

/-! ### A frozen maker -/

/-- An offer of one coin for 100. -/
def restingAsk : StoredOrder where
  id := "order-1"
  userId := "alice"
  accountId := "account-1"
  symbol := "BTC-USDT"
  side := .sell
  type := .limit
  price := some 100
  stopPrice := none
  quantity := 1
  filledQuantity := 0
  status := .new
  lockedAsset := "BTC"
  lockedAmount := 1

/-- A bid that meets it. -/
def crossingBid : StoredOrder :=
  { restingAsk with
    id := "order-2", userId := "bob", accountId := "account-2", side := .buy, lockedAsset := "USDT"
    lockedAmount := 2501 / 25 }

/-- The answer of the engine. -/
def crossingReport : ExecutionReport where
  orderId := "order-2"
  accepted := true
  status := .filled
  fills := [⟨"trade-1", "order-1", "order-2", "alice", "bob", 100, 1⟩]
  rejectReason := none

/-- The tables, with the user of the offer frozen. -/
def frozenMaker : Remote :=
  (start { users := (SortedMap.empty.insert "alice" .frozen).insert "bob" .active, wallets := .empty, ledger := [] }
    none).remote

/-- What is left of the call. -/
def afterFrozen (attempts : List OrderAttempt) : OrderState :=
  (program MatchingEngine.fractionCodec some quietMarket.trading 3).alone
    ⟨(resume quietMarket.trading 3 (.submitted crossingBid 0) (.report crossingReport) ⟨[restingAsk], [], []⟩).1,
      ⟨[restingAsk], [], []⟩, frozenMaker⟩ attempts

theorem placeOrder_settles_once_iff_frozen :
    (∃ error, (afterFrozen [.answered (MatchingEngine.filesOk, fun _ => "first")]).pause
      = .finish (.abandoned error)) ∧
    (SettledOnce quietMarket.trading crossingBid crossingReport.fills ⟨[restingAsk], [], []⟩ frozenMaker
        (afterFrozen [.answered (MatchingEngine.filesOk, fun _ => "first")]).memory
        (afterFrozen [.answered (MatchingEngine.filesOk, fun _ => "first")]).remote ↔
      (program MatchingEngine.fractionCodec some quietMarket.trading 3).along
        (Harmless MatchingEngine.fractionCodec some)
        ⟨(resume quietMarket.trading 3 (.submitted crossingBid 0) (.report crossingReport)
          ⟨[restingAsk], [], []⟩).1, ⟨[restingAsk], [], []⟩, frozenMaker⟩
        [.answered (MatchingEngine.filesOk, fun _ => "first")] ∧
      NoneExceeds crossingReport.fills ⟨[restingAsk], [], []⟩) := by
  have hend : (afterFrozen [.answered (MatchingEngine.filesOk, fun _ => "first")]).pause = .finish (.abandoned
      (.http 400 "wallet request failed: \x7b\"statusCode\":403,\"message\":\"account is not active\"\x7d")) := by
    decide +kernel
  exact ⟨⟨_, hend⟩, placeOrder_settles_once_iff MatchingEngine.fractionCodec some quietMarket.trading 3 0
    crossingBid crossingReport rfl ⟨[restingAsk], [], []⟩ frozenMaker (by decide +kernel) (by decide +kernel)
    (by decide +kernel) _ _ rfl _ hend⟩

/-- **A trade that the engine has executed may stay unsettled**: its maker is frozen. -/
theorem frozen_maker_is_not_settled :
    ¬∀ attempts outcome, (afterFrozen attempts).pause = .finish outcome →
      SettledOnce quietMarket.trading crossingBid crossingReport.fills ⟨[restingAsk], [], []⟩ frozenMaker
        (afterFrozen attempts).memory (afterFrozen attempts).remote := by
  intro h
  have hend : (afterFrozen [.answered (MatchingEngine.filesOk, fun _ => "first")]).pause = .finish (.abandoned
      (.http 400 "wallet request failed: \x7b\"statusCode\":403,\"message\":\"account is not active\"\x7d")) := by
    decide +kernel
  have hrecorded := (h _ _ hend).recorded
  have hnone : (afterFrozen [.answered (MatchingEngine.filesOk, fun _ => "first")]).remote.trades = [] := by
    decide +kernel
  rw [hnone] at hrecorded
  cases hrecorded

end NexusTrade.Trading
