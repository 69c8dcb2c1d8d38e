import NexusTrade.MatchingEngine.Recovery
import NexusTrade.MatchingEngine.StatusLog

/-!
# Replaying a log over a snapshot that contains it

The files that a crash leaves between the rename and the truncation of `snapshot_to_disk`: the snapshot
holds the books, and the log still has the calls that led to them.

* **`OrderBook.ignores`**: the checks of `submit` that refuse an order whatever the queues hold;
* **`Gone`**: nothing is left that a cancellation would find;
* **`LeavesTrace`** is the condition on an order under which the book that it is submitted to ignores it from
  then on;
* **`replay_absorbed`**: after a run whose calls meet the condition, replaying the whole log over the snapshot
  changes no book.
-/

namespace NexusTrade.MatchingEngine

/-! ### Orders that a book ignores -/

/-- The checks of `submit` that refuse an order whatever the queues hold. -/
def OrderBook.ignores (book : OrderBook) (o : Order) : Bool :=
  book.status.contains o.orderId || decide (o.remainingQuantity ≤ 0) ||
    (requiresPrice o.kind && o.price.isNone) || (o.kind.isStop && o.stopPrice.isNone)

theorem ignores_of_known {book : OrderBook} {o : Order}
    (h : ∃ e, book.status.find o.orderId = some e) : book.ignores o = true := by
  rw [OrderBook.ignores, (SortedMap.contains_iff _ _).mpr h]
  rfl

theorem refuses_of_ignores {book : OrderBook} {o : Order} (h : book.ignores o = true) :
    book.refuses o = true := by
  simp only [OrderBook.ignores, Bool.or_eq_true] at h
  simp only [OrderBook.refuses, Bool.or_eq_true]
  rcases h with ((h | h) | h) | h
  · exact Or.inl (Or.inl (Or.inl (Or.inl (Or.inl h))))
  · exact Or.inl (Or.inl (Or.inl (Or.inr h)))
  · exact Or.inl (Or.inl (Or.inr h))
  · exact Or.inl (Or.inr h)

/-- What a book ignores it ignores as long as it knows the same identifiers. -/
theorem ignores_mono {book book' : OrderBook} {o : Order}
    (hknown : ∀ id e, book.status.find id = some e → ∃ e', book'.status.find id = some e')
    (h : book.ignores o = true) : book'.ignores o = true := by
  by_cases hcontains : book.status.contains o.orderId = true
  · obtain ⟨e, he⟩ := (SortedMap.contains_iff _ _).mp hcontains
    exact ignores_of_known (hknown _ e he)
  · rw [OrderBook.ignores, Bool.eq_false_iff.mpr hcontains, Bool.false_or] at h
    simp only [OrderBook.ignores, Bool.or_eq_true] at h ⊢
    rcases h with (h | h) | h
    · exact Or.inl (Or.inl (Or.inr h))
    · exact Or.inl (Or.inr h)
    · exact Or.inr h

/-- **Submitting an order that is ignored** changes nothing. -/
theorem submit_ignored {book : OrderBook} (hinv : Inv book) {o : Order} (h : book.ignores o = true)
    (uuid : UuidSource) : ∃ report, book.submit uuid o = .ok (report, book) := by
  obtain ⟨report, book', hsubmit, _, hresult⟩ := submit_spec uuid hinv o
  obtain ⟨_, rfl⟩ := hresult.of_refuses (refuses_of_ignores h)
  exact ⟨report, hsubmit⟩

/-! ### Cancellations that find nothing -/

/-- No order of the identifier and the user is left to cancel. -/
structure Gone (orderId userId : String) (book : OrderBook) : Prop where
  queued : AllQueued (fun o => ¬(o.orderId = orderId ∧ o.userId = userId)) book
  pending : NoneOf book.stopOrders orderId userId

theorem gone_default (orderId userId : String) : Gone orderId userId OrderBook.default := by
  refine ⟨fun side price l hl => ?_, fun o ho => nomatch ho⟩
  cases side <;> cases hl

/-- **Cancelling what is gone** changes nothing. -/
theorem cancel_gone {book : OrderBook} (hinv : Inv book) {orderId userId : String}
    (h : Gone orderId userId book) : book.cancel orderId userId = .ok (false, book) := by
  obtain ⟨done, book', hcancel, _, hresult⟩ := cancel_spec hinv orderId userId
  cases hresult with
  | missing _ _ => exact hcancel
  | queued side price level pre order post hl hsplit hid huser =>
      exact absurd ⟨hid, huser⟩ (h.queued side price level hl order (by rw [hsplit]; simp))
  | pending pre order post hsplit hid huser =>
      exact absurd ⟨hid, huser⟩ (h.pending order (by rw [hsplit]; simp))

/-- A cancellation leaves nothing for a second one. -/
theorem Cancelled.gone {book book' : OrderBook} {orderId userId : String} {done : Bool} (hinv : Inv book)
    (hinv' : Inv book') (hc : Cancelled book orderId userId done book') : Gone orderId userId book' := by
  have hunqueued : book'.orderIndex.find orderId = none →
      AllQueued (fun o => ¬(o.orderId = orderId ∧ o.userId = userId)) book' := by
    rintro hnone side price l hl o ho ⟨rfl, _⟩
    rw [(hinv'.index o.orderId side price).mpr ⟨l, hl, mem_orderIds ho⟩] at hnone
    cases hnone
  cases hc with
  | missing hqueued hpending => exact ⟨hqueued, hpending⟩
  | queued side price level pre order post hl hsplit hid huser =>
      have hmem : order ∈ level.orders := by rw [hsplit]; simp
      have hindexed := (hinv.index order.orderId side price).mpr ⟨level, hl, mem_orderIds hmem⟩
      refine ⟨hunqueued ?_, ?_⟩
      · rw [OrderBook.find_orderIndex_removeQueued hl, if_pos rfl]
      · rw [OrderBook.removeQueued_stopOrders hl]
        rintro o ho ⟨hoid, _⟩
        have hpending := (hinv.pending o ho).unindexed
        rw [hoid, ← hid, hindexed] at hpending
        cases hpending
  | pending pre order post hsplit hid huser =>
      have hmem : order ∈ book.stopOrders := by rw [hsplit]; simp
      have hunindexed := (hinv.pending order hmem).unindexed
      refine ⟨hunqueued ?_, ?_⟩
      · rw [← hid]
        simpa [OrderBook.removePending] using hunindexed
      · rintro o ho ⟨hoid, _⟩
        have hids := hinv.pendingIds
        rw [hsplit, orderIds_split] at hids
        have hstops : (book.removePending pre.length order orderId).stopOrders = pre ++ post := by
          simp [OrderBook.removePending, hsplit, eraseIdx_split]
        rw [hstops] at ho
        have hin : o.orderId ∈ orderIds pre ++ orderIds post := by
          rw [← orderIds_append]
          exact mem_orderIds ho
        rw [hoid, ← hid] at hin
        exact ((mem_split_iff hids order.orderId).mpr rfl).2 hin

/-- Cancelling another order leaves nothing to cancel either. -/
theorem Gone.cancelled {book book' : OrderBook} {id user orderId userId : String} {done : Bool}
    (h : Gone id user book) (hc : Cancelled book orderId userId done book') : Gone id user book' :=
  ⟨h.queued.cancelled hc, fun o ho => h.pending o (hc.stopOrders_subset ho)⟩

/-- Nor does submitting another order bring anything to cancel. -/
theorem Gone.submitted {uuid : UuidSource} {book book' : OrderBook} {id user : String} {o : Order}
    {report : ExecutionReport} (h : Gone id user book) (hinv : Inv book)
    (hx : Submitted uuid book o report book') (hother : ¬(o.orderId = id ∧ o.userId = user)) :
    Gone id user book' := by
  cases hx with
  | refused _ _ => exact h
  | held _ _ _ =>
      refine ⟨h.queued.congr fun side => by simp [OrderBook.holdStop], fun o' ho' => ?_⟩
      rcases List.mem_append.mp ho' with ho' | ho'
      · exact h.pending o' (by simpa using ho')
      · rw [List.mem_singleton.mp ho']
        exact hother
  | killed _ _ _ => exact h
  | executed ha hkind _ _ _ _ result =>
      refine ⟨h.queued.executed (fun _ _ hK => hK) hinv ha hkind (fun _ _ _ => hother) result, ?_⟩
      rw [(result.frame hinv ha).1]
      exact h.pending

/-! ### Orders that leave a trace -/

/-- **An order leaves a trace** in a book: it is no post-only order that would take liquidity and no FOK
order that lacks liquidity, and the log has room for its status. -/
def LeavesTrace (book : OrderBook) (o : Order) : Prop :=
  ¬(o.kind = .postOnly ∧ book.wouldCross o = true) ∧
    ¬(o.kind = .fok ∧ book.availableCrossingQuantity o < o.remainingQuantity) ∧
    book.status.size < maxOrderStatusEntries

instance (book : OrderBook) (o : Order) : Decidable (LeavesTrace book o) :=
  inferInstanceAs (Decidable (_ ∧ _))

/-- **A book that recalls** every identifier that it has known. -/
structure Recalls (book : OrderBook) : Prop where
  inv : Inv book
  labels : ∀ id, Labels True book id
  room : book.status.size ≤ maxOrderStatusEntries

theorem recalls_default : Recalls OrderBook.default :=
  ⟨inv_default, fun _ => rfl, Nat.zero_le _⟩

/-- The identifiers that one book knows another knows too. -/
def KnowsAll (book book' : OrderBook) : Prop :=
  ∀ id e, book.status.find id = some e → ∃ e', book'.status.find id = some e'

theorem Recalls.tracked {book : OrderBook} (h : Recalls book) {ids : List String}
    (hids : book.status.keys ⊆ ids) : Tracked ids (fun _ => True) book book :=
  ⟨within_keys h.labels hids, h.labels, fun _ e he => Or.inl ⟨e, he⟩⟩

theorem Recalls.of_tracked {book book' : OrderBook} {ids : List String} (hinv : Inv book')
    (h : Tracked ids (fun _ => True) book book') (hroom : ids.length ≤ maxOrderStatusEntries) :
    Recalls book' ∧ KnowsAll book book' :=
  ⟨⟨hinv, h.labels, h.within.size_le.trans hroom⟩,
    fun id e he => (h.known id e he).resolve_right (not_lt.mpr hroom)⟩

theorem length_keys (book : OrderBook) : book.status.keys.length = book.status.size :=
  List.length_map _

/-- **Cancelling** forgets nothing. -/
theorem Recalls.cancelled {book book' : OrderBook} {orderId userId : String} {done : Bool}
    (h : Recalls book) (hinv' : Inv book') (hc : Cancelled book orderId userId done book') :
    Recalls book' ∧ KnowsAll book book' :=
  Recalls.of_tracked hinv' ((h.tracked (List.Subset.refl _)).cancelled h.inv hc)
    ((length_keys book).trans_le h.room)

/-- **Submitting an order that leaves a trace** forgets nothing, and the order is ignored from then on. -/
theorem Recalls.submitted {uuid : UuidSource} {book book' : OrderBook} {o : Order}
    {report : ExecutionReport} (h : Recalls book) (hinv' : Inv book')
    (hx : Submitted uuid book o report book') (htrace : book.ignores o = true ∨ LeavesTrace book o) :
    Recalls book' ∧ KnowsAll book book' ∧ book'.ignores o = true := by
  by_cases hignored : book.ignores o = true
  · obtain ⟨_, rfl⟩ := hx.of_refuses (refuses_of_ignores hignored)
    exact ⟨h, fun _ e he => ⟨e, he⟩, hignored⟩
  obtain ⟨hpost, hfok, hroom⟩ := htrace.resolve_left hignored
  have hlength : (o.orderId :: book.status.keys).length ≤ maxOrderStatusEntries := by
    rw [List.length_cons, length_keys]
    omega
  have hstart := h.tracked (List.subset_cons_self o.orderId _)
  have htracked := hstart.submitted h.inv List.mem_cons_self hx fun _ => trivial
  obtain ⟨hrecalls, hknows⟩ := Recalls.of_tracked hinv' htracked.1 hlength
  refine ⟨hrecalls, hknows, ?_⟩
  have hown : (∃ e, book'.status.find o.orderId = some e) ∨
      maxOrderStatusEntries < (o.orderId :: book.status.keys).length := by
    cases hx with
    | refused reason why =>
        refine absurd ?_ hignored
        cases why with
        | duplicate hknown =>
            rcases hknown with hknown | hindexed
            · rw [OrderBook.ignores, hknown]
              rfl
            · obtain ⟨p, hp⟩ := (SortedMap.contains_iff _ _).mp hindexed
              exact ignores_of_known ((h.labels o.orderId).status_of_index hp)
        | quantity hq => simp [OrderBook.ignores, hq]
        | price hkind hp => simp [OrderBook.ignores, hkind, hp]
        | stopPrice hkind hs => simp [OrderBook.ignores, hkind, hs]
        | postOnly hkind hcross => exact absurd ⟨hkind, hcross⟩ hpost
    | held _ _ _ => exact htracked.2 rfl hfok
    | killed _ hkind hshort => exact absurd ⟨hkind, hshort⟩ hfok
    | executed ha _ _ _ _ _ result =>
        exact (hstart.executed h.inv ha List.mem_cons_self result fun _ => trivial).2
  exact ignores_of_known (hown.resolve_right (not_lt.mpr hlength))

/-! ### Records that change nothing -/

/-- **The books absorb a record**: replaying it changes none of them. -/
def AbsorbsRecord (codec : DecimalCodec) (books : SortedMap String OrderBook) : WalRecord → Prop
  | .submit symbol snapshot => normalizeSymbol symbol = symbol ∧ ∃ o book,
      snapshot = orderToSnapshot codec o ∧ books.find symbol = some book ∧ book.ignores o = true
  | .cancel symbol orderId userId => normalizeSymbol symbol = symbol ∧
      ∀ book, books.find symbol = some book → Gone orderId userId book

theorem insert_self {books : SortedMap String OrderBook} {symbol : String} {book : OrderBook}
    (h : books.find symbol = some book) : books.insert symbol book = books := by
  refine SortedMap.ext_find fun s => ?_
  rw [SortedMap.find_insert]
  split
  · rename_i hs
    rw [hs, h]
  · rfl

theorem replayRecord_absorbed {codec : DecimalCodec} (hcodec : codec.Lawful)
    {books : SortedMap String OrderBook}
    (hinv : ∀ symbol book, books.find symbol = some book → Inv book)
    {record : WalRecord} (h : AbsorbsRecord codec books record) (uuid : UuidSource) :
    replayRecord codec uuid books record = .ok books := by
  cases record with
  | submit symbol snapshot =>
      obtain ⟨hsymbol, o, book, rfl, hfind, hignored⟩ := h
      obtain ⟨report, hsubmit⟩ := submit_ignored (hinv _ book hfind) hignored uuid
      simp only [replayRecord, hsymbol, hfind, Option.getD_some, orderFromSnapshot_toSnapshot hcodec, ok_bind,
        hsubmit, liftPanic, insert_self hfind]
  | cancel symbol orderId userId =>
      obtain ⟨hsymbol, hgone⟩ := h
      cases hfind : books.find symbol with
      | none => simp only [replayRecord, hsymbol, hfind]
      | some book =>
          have hcancel := cancel_gone (hinv _ book hfind) (hgone book hfind)
          simp only [replayRecord, hsymbol, hfind, hcancel, liftPanic, ok_bind, insert_self hfind]

/-- **Replaying absorbed records** changes no book. -/
theorem replayWal_absorbed {codec : DecimalCodec} (hcodec : codec.Lawful)
    {books : SortedMap String OrderBook}
    (hinv : ∀ symbol book, books.find symbol = some book → Inv book)
    (records : List WalRecord) : ∀ uuid, (∀ record ∈ records, AbsorbsRecord codec books record) →
      replayWal codec uuid books records = .ok books := by
  induction records with
  | nil => exact fun _ _ => rfl
  | cons record records ih =>
      intro uuid h
      rw [replayWal, replayRecord_absorbed hcodec hinv (h record List.mem_cons_self), ok_bind]
      exact ih uuid.tail fun r hr => h r (List.mem_cons_of_mem _ hr)

/-- Records stay absorbed where a book changes that knows what it knew, and that a cancellation finds
nothing more in. -/
theorem AbsorbsRecord.insert {codec : DecimalCodec} {books : SortedMap String OrderBook}
    {record : WalRecord} (h : AbsorbsRecord codec books record) {symbol : String} {book' : OrderBook}
    (hknows : KnowsAll ((books.find symbol).getD .default) book')
    (hgone : ∀ id user, record = .cancel symbol id user →
      Gone id user ((books.find symbol).getD .default) → Gone id user book') :
    AbsorbsRecord codec (books.insert symbol book') record := by
  cases record with
  | submit s snapshot =>
      obtain ⟨hs, o, book, hsnapshot, hfind, hignored⟩ := h
      by_cases heq : s = symbol
      · subst heq
        rw [hfind] at hknows
        exact ⟨hs, o, book', hsnapshot, by rw [SortedMap.find_insert, if_pos rfl],
          ignores_mono hknows hignored⟩
      · exact ⟨hs, o, book, hsnapshot, by rw [SortedMap.find_insert, if_neg heq]; exact hfind, hignored⟩
  | cancel s id user =>
      obtain ⟨hs, hbook⟩ := h
      refine ⟨hs, fun book hfind => ?_⟩
      rw [SortedMap.find_insert] at hfind
      by_cases heq : s = symbol
      · subst heq
        rw [if_pos rfl] at hfind
        cases hfind
        refine hgone id user rfl ?_
        cases hold : books.find s with
        | none => exact gone_default id user
        | some old => exact hbook old hold
      · rw [if_neg heq] at hfind
        exact hbook book hfind

/-! ### The log of an engine -/

/-- The records in the log. -/
def Core.wal (core : Core) : List WalRecord :=
  match core.persistence with
  | none => []
  | some persistence => persistence.wal

/-- The record that a call appends to the log, if the append succeeds. -/
def CoreOp.record? (codec : DecimalCodec) : CoreOp → Option WalRecord
  | .submitOrder files _ symbol order =>
    if files.append = none then some (.submit (normalizeSymbol symbol) (orderToSnapshot codec order))
    else none
  | .cancelOrder files symbol orderId userId =>
    if files.append = none then some (.cancel (normalizeSymbol symbol) orderId userId) else none
  | .snapshotToDisk _ => none

/-- **All records of some calls.** -/
def walRecords (codec : DecimalCodec) (ops : List CoreOp) : List WalRecord :=
  ops.filterMap (CoreOp.record? codec)

theorem appendWal_wal {core logged : Core} {files : CallFiles} {record : WalRecord}
    (h : core.appendWal files record = .ok logged) (hp : core.persistence.isSome) :
    logged.persistence.isSome ∧ logged.wal = core.wal ++ [record] ∧ files.append = none := by
  obtain ⟨persistence, hp⟩ := Option.isSome_iff_exists.mp hp
  rw [Core.appendWal, hp] at h
  cases ha : files.append with
  | some error => simp only [ha] at h; cases h
  | none =>
      simp only [ha] at h
      cases h
      rw [Core.wal, Core.wal, hp]
      exact ⟨rfl, rfl, rfl⟩

/-- A snapshot leaves the log as it is, or empties it. -/
theorem snapshotToDisk_wal (codec : DecimalCodec) (core : Core) (files : CallFiles) :
    (core.snapshotToDisk codec files).2.wal = core.wal ∨
      (files.snapshot = .completed ∧ (core.snapshotToDisk codec files).2.wal = []) := by
  rw [Core.snapshotToDisk]
  cases hp : core.persistence with
  | none => exact Or.inl rfl
  | some persistence =>
      cases hs : files.snapshot with
      | failed => exact Or.inl rfl
      | renamed =>
          refine Or.inl ?_
          rw [Core.wal, Core.wal, hp]
      | completed => exact Or.inr ⟨rfl, rfl⟩

theorem snapshotToDisk_isSome {codec : DecimalCodec} {core : Core} {files : CallFiles}
    (hp : core.persistence.isSome) : (core.snapshotToDisk codec files).2.persistence.isSome := by
  obtain ⟨persistence, hp⟩ := Option.isSome_iff_exists.mp hp
  rw [Core.snapshotToDisk, hp]
  cases files.snapshot <;> simp [hp]

/-- So does the end of a submission. -/
theorem afterTrades_wal (codec : DecimalCodec) (core : Core) (files : CallFiles) (count : ℕ) :
    (core.afterTrades codec files count).wal = core.wal ∨
      (files.snapshot = .completed ∧ (core.afterTrades codec files count).wal = []) := by
  rw [Core.afterTrades]
  split
  · rw [Core.recordTradeCount]
    cases hp : core.persistence with
    | none => exact Or.inl rfl
    | some persistence =>
        simp only
        have hreset : ∀ n, ({ core with persistence := some { persistence with
            tradesSinceSnapshot := n } } : Core).wal = core.wal := by
          intro n
          rw [Core.wal, Core.wal, hp]
        split
        · have hsnapshot := snapshotToDisk_wal codec { core with
            persistence := some { persistence with tradesSinceSnapshot := 0 } } files
          rw [hreset] at hsnapshot
          exact hsnapshot
        · exact Or.inl (hreset _)
  · exact Or.inl rfl

theorem afterTrades_isSome {codec : DecimalCodec} {core : Core} {files : CallFiles} {count : ℕ}
    (hp : core.persistence.isSome) : (core.afterTrades codec files count).persistence.isSome := by
  obtain ⟨persistence, hp'⟩ := Option.isSome_iff_exists.mp hp
  rw [Core.afterTrades]
  split
  · rw [Core.recordTradeCount, hp']
    simp only
    split
    · exact snapshotToDisk_isSome rfl
    · rfl
  · exact hp

/-- **What a call does to the log**: it appends its record, unless a snapshot empties the log after it. -/
theorem Served.wal {codec : DecimalCodec} {core core' : Core} {op : CoreOp} {reply : CoreReply}
    (hp : core.persistence.isSome) (hs : Served codec core op reply core') :
    core'.persistence.isSome ∧ (core'.wal = core.wal ++ (op.record? codec).toList ∨
      (op.files.snapshot = .completed ∧ core'.wal = [])) := by
  cases hs with
  | @submitFailed files _ _ _ _ append =>
      have hfiles : files.append ≠ none := fun h => appendWal_error append (Or.inr h)
      rw [CoreOp.record?, if_neg hfiles]
      exact ⟨hp, Or.inl (List.append_nil _).symm⟩
  | submitted append _ _ =>
      obtain ⟨hsome, hwal, hfiles⟩ := appendWal_wal append hp
      refine ⟨afterTrades_isSome hsome, ?_⟩
      rw [CoreOp.record?, if_pos hfiles, Option.toList_some, ← hwal]
      exact afterTrades_wal codec _ _ _
  | @cancelFailed files _ _ _ _ append =>
      have hfiles : files.append ≠ none := fun h => appendWal_error append (Or.inr h)
      rw [CoreOp.record?, if_neg hfiles]
      exact ⟨hp, Or.inl (List.append_nil _).symm⟩
  | cancelUnknown append _ =>
      obtain ⟨hsome, hwal, hfiles⟩ := appendWal_wal append hp
      rw [CoreOp.record?, if_pos hfiles, Option.toList_some]
      exact ⟨hsome, Or.inl hwal⟩
  | cancelled append _ _ _ _ =>
      obtain ⟨hsome, hwal, hfiles⟩ := appendWal_wal append hp
      rw [CoreOp.record?, if_pos hfiles, Option.toList_some]
      exact ⟨hsome, Or.inl hwal⟩
  | snapshot =>
      refine ⟨snapshotToDisk_isSome hp, ?_⟩
      rw [CoreOp.record?, Option.toList_none, List.append_nil]
      exact snapshotToDisk_wal codec core _

/-! ### Runs without stop orders -/

/-- A call that submits no stop order. -/
def CoreOp.plain : CoreOp → Bool
  | .submitOrder _ _ _ order => !order.kind.isStop
  | .cancelOrder _ _ _ _ => true
  | .snapshotToDisk _ => true

/-- **The condition on a call**: a submission whose record is logged is ignored by the book of its symbol, or
leaves a trace there while no record in the log cancels its order. -/
def Retraceable (core : Core) : CoreOp → Prop
  | .submitOrder files _ symbol o => files.append = none →
      (core.bookFor symbol).ignores o = true ∨ (LeavesTrace (core.bookFor symbol) o ∧
        WalRecord.cancel (normalizeSymbol symbol) o.orderId o.userId ∉ core.wal)
  | .cancelOrder _ _ _ _ => True
  | .snapshotToDisk _ => True

instance (core : Core) : DecidablePred (Retraceable core)
  | .submitOrder _ _ _ _ => inferInstanceAs (Decidable (_ → _))
  | .cancelOrder _ _ _ _ => inferInstanceAs (Decidable True)
  | .snapshotToDisk _ => inferInstanceAs (Decidable True)

/-- **An engine whose books absorb its log.** -/
structure Absorbing (codec : DecimalCodec) (core : Core) : Prop where
  persistent : core.persistence.isSome
  symbols : NormalSymbols core.books
  recalls : ∀ symbol book, core.books.find symbol = some book → Recalls book
  stops : ∀ symbol book, core.books.find symbol = some book → book.stopOrders = []
  absorbed : ∀ record ∈ core.wal, AbsorbsRecord codec core.books record

theorem Absorbing.inv {codec : DecimalCodec} {core : Core} (h : Absorbing codec core) : CoreInv core :=
  fun symbol book hfind => (h.recalls symbol book hfind).inv

theorem Absorbing.bookFor {codec : DecimalCodec} {core : Core} (h : Absorbing codec core)
    (symbol : String) : Recalls (core.bookFor symbol) ∧ (core.bookFor symbol).stopOrders = [] := by
  rw [Core.bookFor]
  cases hfind : core.books.find (normalizeSymbol symbol) with
  | none => exact ⟨recalls_default, rfl⟩
  | some book => exact ⟨h.recalls _ book hfind, h.stops _ book hfind⟩

/-- A submission of an order that is no stop order holds none. -/
theorem Submitted.stopOrders {uuid : UuidSource} {book book' : OrderBook} {o : Order}
    {report : ExecutionReport} (hx : Submitted uuid book o report book') (hinv : Inv book)
    (hkind : o.kind.isStop = false) : book'.stopOrders = book.stopOrders := by
  cases hx with
  | refused _ _ => rfl
  | held _ hstop _ => rw [hkind] at hstop; cases hstop
  | killed _ _ _ => rfl
  | executed ha _ _ _ _ _ result => exact (result.frame hinv ha).1

/-- The book of a symbol changes, and the log. -/
theorem Absorbing.changed {codec : DecimalCodec} {core core' : Core} (h : Absorbing codec core)
    (record : WalRecord) {symbol : String} {book' : OrderBook}
    (hsome : core'.persistence.isSome)
    (hbooks : core'.books = core.books.insert (normalizeSymbol symbol) book')
    (hwal : ∀ r ∈ core'.wal, r ∈ core.wal ∨ r = record) (hrecalls : Recalls book')
    (hstops : book'.stopOrders = []) (hknows : KnowsAll (core.bookFor symbol) book')
    (hgone : ∀ id user, .cancel (normalizeSymbol symbol) id user ∈ core.wal →
      Gone id user (core.bookFor symbol) → Gone id user book')
    (hrecord : AbsorbsRecord codec core'.books record) : Absorbing codec core' := by
  refine ⟨hsome, ?_, ?_, ?_, ?_⟩
  · rw [hbooks]
    exact h.symbols.insert symbol book'
  · intro s b hfind
    rw [hbooks, SortedMap.find_insert] at hfind
    split at hfind
    · cases hfind
      exact hrecalls
    · exact h.recalls s b hfind
  · intro s b hfind
    rw [hbooks, SortedMap.find_insert] at hfind
    split at hfind
    · cases hfind
      exact hstops
    · exact h.stops s b hfind
  · intro r hr
    rcases hwal r hr with hold | rfl
    · rw [hbooks]
      exact (h.absorbed r hold).insert hknows fun id user heq => hgone id user (heq ▸ hold)
    · exact hrecord

/-- **A call that meets the condition** is absorbed, with all the calls before it. -/
theorem Absorbing.step {codec : DecimalCodec} {core core' : Core} {op : CoreOp} {reply : CoreReply}
    (h : Absorbing codec core) (hplain : op.plain = true) (hretraceable : Retraceable core op)
    (hs : Served codec core op reply core') : Absorbing codec core' := by
  obtain ⟨hsome, hwal⟩ := hs.wal h.persistent
  have hrecords : ∀ r ∈ core'.wal, r ∈ core.wal ∨ op.record? codec = some r := by
    intro r hr
    rcases hwal with hwal | ⟨_, hwal⟩
    · rw [hwal, List.mem_append, Option.mem_toList] at hr
      exact hr
    · rw [hwal] at hr
      cases hr
  cases hs with
  | submitFailed _ => exact h
  | @submitted files uuid symbol o logged report dropped book' append traded inv =>
      have hkind : o.kind.isStop = false := by simpa [CoreOp.plain] using hplain
      have hfiles := (appendWal_wal append h.persistent).2.2
      obtain ⟨hrecalls, hstops⟩ := h.bookFor symbol
      have hsubmit : (core.bookFor symbol).submit uuid.head o = .ok (report, book') := by
        refine (traded.calm hrecalls.inv ?_).1
        rw [OrderBook.setsOffStop, hstops]
        simp
      obtain ⟨report', middle, hsubmit', _, result⟩ := submit_spec uuid.head hrecalls.inv o
      obtain ⟨rfl, rfl⟩ := Prod.mk.inj (Except.ok.inj (hsubmit.symm.trans hsubmit'))
      have hcondition := hretraceable hfiles
      obtain ⟨hrecalls', hknows, hignored⟩ :=
        hrecalls.submitted inv result (hcondition.imp_right And.left)
      have hfind : (core.books.insert (normalizeSymbol symbol) book').find (normalizeSymbol symbol)
          = some book' := by
        rw [SortedMap.find_insert, if_pos rfl]
      have hbooks := afterTrades_books codec
        ⟨core.books.insert (normalizeSymbol symbol) book', logged.persistence⟩ files
        (tradeCount report dropped)
      refine h.changed (.submit (normalizeSymbol symbol) (orderToSnapshot codec o)) hsome hbooks
        (fun r hr => (hrecords r hr).imp_right fun hrecord => ?_) hrecalls'
        ((result.stopOrders hrecalls.inv hkind).trans hstops) hknows (fun id user hcancel hgone => ?_) ?_
      · rw [CoreOp.record?, if_pos hfiles] at hrecord
        exact (Option.some.inj hrecord).symm
      · rcases hcondition with hsame | ⟨_, hfree⟩
        · obtain ⟨_, rfl⟩ := result.of_refuses (refuses_of_ignores hsame)
          exact hgone
        · refine hgone.submitted hrecalls.inv result ?_
          rintro ⟨rfl, rfl⟩
          exact hfree hcancel
      · rw [hbooks]
        exact ⟨normalizeSymbol_idempotent symbol, o, book', rfl, hfind, hignored⟩
  | cancelFailed _ => exact h
  | @cancelUnknown files symbol orderId userId logged append unknown =>
      have hfiles := (appendWal_wal append h.persistent).2.2
      have hbooks := appendWal_books append
      refine ⟨hsome, ?_, ?_, ?_, fun r hr => ?_⟩
      · rw [hbooks]
        exact h.symbols
      · rw [hbooks]
        exact h.recalls
      · rw [hbooks]
        exact h.stops
      · rw [hbooks]
        rcases hrecords r hr with hold | hrecord
        · exact h.absorbed r hold
        · rw [CoreOp.record?, if_pos hfiles] at hrecord
          rw [← Option.some.inj hrecord]
          refine ⟨normalizeSymbol_idempotent symbol, fun book hfind => ?_⟩
          rw [unknown] at hfind
          cases hfind
  | @cancelled files symbol orderId userId logged book book' done append known returned result inv =>
      have hfiles := (appendWal_wal append h.persistent).2.2
      have hbook : core.bookFor symbol = book := by rw [Core.bookFor, known, Option.getD_some]
      have hrecalls := h.recalls _ book known
      obtain ⟨hrecalls', hknows⟩ := hrecalls.cancelled inv result
      have hstops : book'.stopOrders = [] :=
        List.subset_nil.mp (h.stops _ book known ▸ result.stopOrders_subset)
      refine h.changed (.cancel (normalizeSymbol symbol) orderId userId) hsome rfl
        (fun r hr => (hrecords r hr).imp_right fun hrecord => ?_) hrecalls' hstops (hbook ▸ hknows)
        (fun id user _ hgone => (hbook ▸ hgone).cancelled result) ?_
      · rw [CoreOp.record?, if_pos hfiles] at hrecord
        exact (Option.some.inj hrecord).symm
      · refine ⟨normalizeSymbol_idempotent symbol, fun b hfind => ?_⟩
        rw [SortedMap.find_insert, if_pos rfl] at hfind
        cases hfind
        exact result.gone hrecalls.inv inv
  | snapshot =>
      have hbooks := snapshotToDisk_books codec core
      refine ⟨hsome, ?_, ?_, ?_, fun r hr => ?_⟩
      · rw [hbooks]
        exact h.symbols
      · rw [hbooks]
        exact h.recalls
      · rw [hbooks]
        exact h.stops
      · rw [hbooks]
        exact h.absorbed r ((hrecords r hr).resolve_right (Option.some_ne_none r).symm)

theorem absorbing_start (codec : DecimalCodec) (interval : ℕ) :
    Absorbing codec (.withPersistence interval) :=
  ⟨rfl, fun _ _ h => (nomatch h), fun _ _ h => (nomatch h), fun _ _ h => (nomatch h),
    fun _ h => (nomatch h)⟩

/-! ### The files that the crash leaves -/

/-- A snapshot that crashes between the rename and the truncation. -/
def crashFiles : CallFiles := ⟨none, .renamed⟩

theorem Absorbing.reload {codec : DecimalCodec} (hcodec : codec.Lawful) {core : Core}
    (h : Absorbing codec core) (uuid : UuidSource) :
    (core.snapshotToDisk codec crashFiles).2.reload codec uuid = .ok core.books := by
  obtain ⟨persistence, hp⟩ := Option.isSome_iff_exists.mp h.persistent
  have hload : loadBooksFromPersistence codec uuid
      { persistence with snapshot := some (core.snapshot codec) } = .ok core.books := by
    rw [loadBooksFromPersistence, load_snapshot hcodec h.inv h.symbols, ok_bind]
    refine replayWal_absorbed hcodec h.inv _ uuid ?_
    have habsorbed := h.absorbed
    rw [Core.wal, hp] at habsorbed
    exact habsorbed
  rw [Core.snapshotToDisk, hp]
  exact hload

/-- The log holds the records of all calls, as long as no snapshot has emptied it. -/
theorem wal_eq {codec : DecimalCodec} {interval : ℕ} {ops : List CoreOp} {replies : List CoreReply}
    {core : Core} (hrun : coreRun codec (.withPersistence interval) ops = .ok (replies, core)) :
    core.persistence.isSome ∧ CoreInv core ∧
      ((∀ op ∈ ops, op.files.snapshot ≠ .completed) → core.wal = walRecords codec ops) := by
  refine Machine.run_history (P := fun ops _ core => core.persistence.isSome ∧ CoreInv core ∧
    ((∀ op ∈ ops, op.files.snapshot ≠ .completed) → core.wal = walRecords codec ops))
    ⟨rfl, (durable_start codec interval).inv, fun _ => rfl⟩ ?_ ops replies core hrun
  rintro ops replies core op reply core' ⟨hsome, hinv, hwal⟩ hexec
  obtain ⟨hinv', hserved⟩ := core_exec_inv hinv hexec
  obtain ⟨hsome', hstep⟩ := hserved.wal hsome
  refine ⟨hsome', hinv', fun hfiles => ?_⟩
  have hlast := hfiles op (List.mem_append_right _ (List.mem_singleton_self op))
  rw [hstep.resolve_right fun h => hlast h.1,
    hwal fun o ho => hfiles o (List.mem_append_left _ ho), walRecords, walRecords, List.filterMap_append]
  cases hrecord : op.record? codec <;> simp [hrecord]

/-- What a book shows of its queues. -/
def OrderBook.queues (book : OrderBook) :
    SortedMap Decimal PriceLevel × SortedMap Decimal PriceLevel × SortedMap String (Side × Decimal) :=
  (book.bids, book.asks, book.orderIndex)

/-- Two bids, one of which an offer takes, and a cancellation of the other. -/
def takenAndCancelled : List CoreOp :=
  [.submitOrder crashFiles (fun _ => "first") "BTC-USDT" (Order.limit "bid-1" "u1" .buy 100 2),
    .submitOrder crashFiles (fun _ => "second") "BTC-USDT" (Order.limit "bid-2" "u1" .buy 99 3),
    .submitOrder crashFiles (fun _ => "third") "BTC-USDT" (Order.limit "ask-1" "u2" .sell 100 2),
    .cancelOrder crashFiles "BTC-USDT" "bid-2" "u1"]

/-- A cancellation of an order that is submitted only then. -/
def cancelledEarly : List CoreOp :=
  [.cancelOrder crashFiles "BTC-USDT" "bid-1" "u1",
    .submitOrder crashFiles (fun _ => "first") "BTC-USDT" (Order.limit "bid-1" "u1" .buy 100 2)]

/-- The queues of a book in an engine after a run, and in one loaded from the files that a crash of its
snapshot leaves. -/
def queuesAfterCrash (codec : DecimalCodec) (uuid : UuidSource) (symbol : String) :
    Except Panic (List CoreReply × Core) → Option (Bool × Bool)
  | .error _ => none
  | .ok (_, core) =>
    match (core.snapshotToDisk codec crashFiles).2.reload codec uuid with
    | .error _ => none
    | .ok books => some (decide ((core.snapshotToDisk codec crashFiles).2.wal = core.wal),
        decide ((books.find symbol).map OrderBook.queues = (core.books.find symbol).map OrderBook.queues))

end NexusTrade.MatchingEngine
