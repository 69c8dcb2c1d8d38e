import NexusTrade.MatchingEngine.Concurrent

/-!
# The order of the log and the order of execution

Calls on the engine from several threads, while no snapshot is taken and no stop order is submitted.

* **`NoStops`**: there is no stop order in the books, nor among the calls that are logged;
* **`wal_order_reproduces`**: if the calls of each symbol take the lock of its book in the order of the log,
  replaying the log gives the live books.
-/

namespace NexusTrade.MatchingEngine

/-! ### Runs without snapshots and stop orders -/

/-- A call that submits no stop order. -/
def Request.plain : Request → Bool
  | .submit _ order => !order.kind.isStop
  | .cancel _ _ _ => true

/-- A step of `submit_order` or `cancel_order`, with an order that is no stop order. -/
def Action.plainCall : Action → Bool
  | .append request => request.plain
  | .apply _ _ => true
  | .read | .write _ | .rename _ | .truncate _ => false

/-- **There are no stop orders.** -/
structure NoStops (s : Shared) : Prop where
  books : ∀ symbol book, s.books.find symbol = some book → book.stopOrders = []
  pending : ∀ entry ∈ s.pending, entry.2.plain = true

theorem NoStops.bookAt {s : Shared} (h : NoStops s) (symbol : String) :
    (bookAt s.books symbol).stopOrders = [] := by
  rw [NexusTrade.MatchingEngine.bookAt]
  cases hfind : s.books.find symbol with
  | none => rfl
  | some book => exact h.books symbol book hfind

/-- Without stop orders none is set off. -/
theorem NoStops.quiet {s : Shared} (h : NoStops s) (action : Action) : Quiet s action := by
  cases action with
  | apply pos uuid =>
      intro entry hentry
      cases hrequest : entry.2 with
      | submit symbol order =>
          rw [Request.setsOffStop, OrderBook.setsOffStop, h.bookAt]
          simp
      | cancel symbol orderId userId => rfl
  | _ => trivial

theorem applyRequest_noStops {uuid : UuidSource} {s : Shared} {books' : SortedMap String OrderBook}
    {request : Request} {reply : ActionReply} (h : NoStops s) (hinv : BooksInv s.books)
    (hplain : request.plain = true)
    (happly : applyRequest uuid s.books request = .ok (reply, books')) :
    ∀ symbol book, books'.find symbol = some book → book.stopOrders = [] := by
  have hinsert : ∀ symbol book', book'.stopOrders = [] →
      ∀ s' book, (s.books.insert symbol book').find s' = some book → book.stopOrders = [] := by
    intro symbol book' hbook' s' book hfind
    rw [SortedMap.find_insert] at hfind
    split at hfind
    · cases hfind
      exact hbook'
    · exact h.books s' book hfind
  cases request with
  | submit symbol order =>
      have hbook := hinv.bookAt (normalizeSymbol symbol)
      have hstops := h.bookAt (normalizeSymbol symbol)
      obtain ⟨report, dropped, book', htrade, _, ht⟩ := submitAndTrigger_spec uuid hbook order
      rw [applyRequest, htrade] at happly
      cases happly
      refine hinsert _ _ ?_
      have hsubmit : (NexusTrade.MatchingEngine.bookAt s.books (normalizeSymbol symbol)).submit uuid.head
          order = .ok (report, book') := by
        refine (ht.calm hbook ?_).1
        rw [OrderBook.setsOffStop, hstops]
        simp
      obtain ⟨report', middle, hsubmit', _, result⟩ := submit_spec uuid.head hbook order
      obtain ⟨rfl, rfl⟩ := Prod.mk.inj (Except.ok.inj (hsubmit.symm.trans hsubmit'))
      have hkind : order.kind.isStop = false := by simpa [Request.plain] using hplain
      rw [result.stopOrders hbook hkind, hstops]
  | cancel symbol orderId userId =>
      rw [applyRequest] at happly
      cases hfind : s.books.find (normalizeSymbol symbol) with
      | none =>
          rw [hfind] at happly
          cases happly
          exact h.books
      | some book =>
          obtain ⟨done, book', hcancel, _, result⟩ := cancel_spec (hinv _ book hfind) orderId userId
          simp only [hfind, hcancel, stuckPanic] at happly
          cases happly
          exact hinsert _ _ (List.subset_nil.mp (h.books _ book hfind ▸ result.stopOrders_subset))

theorem NoStops.step {codec : DecimalCodec} {s s' : Shared} {action : Action} {reply : ActionReply}
    (h : NoStops s) (hinv : BooksInv s.books) (hcall : action.plainCall = true)
    (hexec : s.exec codec action = .ok (reply, s')) : NoStops s' := by
  cases action with
  | append request =>
      cases hexec
      refine ⟨h.books, fun entry hentry => ?_⟩
      rcases List.mem_append.mp hentry with hentry | hentry
      · exact h.pending entry hentry
      · rw [List.mem_singleton.mp hentry]
        exact hcall
  | apply pos uuid =>
      rw [Shared.exec] at hexec
      cases hentry : s.pending[pos]? with
      | none => rw [hentry] at hexec; cases hexec
      | some entry =>
          simp only [hentry] at hexec
          obtain ⟨⟨reply', books⟩, happly, hrest⟩ := bind_eq_ok.mp hexec
          cases hrest
          have hplain := h.pending entry (List.mem_of_getElem? hentry)
          exact ⟨applyRequest_noStops h hinv hplain happly,
            fun e he => h.pending e (List.mem_of_mem_eraseIdx he)⟩
  | _ => cases hcall

/-! ### The law -/

/-- **The log is the order of execution**: in every interleaving of calls without stop orders and snapshots,
in which the calls of each symbol take the lock of its book in the order of the log, once all of them have
returned replaying the log from nothing gives the live books, up to trade identifiers. -/
theorem wal_order_reproduces {codec : DecimalCodec} (hcodec : codec.Lawful) {actions : List Action}
    (hcalls : ∀ action ∈ actions, action.plainCall = true)
    (horder : Machine.Along (Shared.exec codec) InOrder .start actions) {replies : List ActionReply}
    {s : Shared} (hrun : sharedRun codec actions = .ok (replies, s)) (hreturned : s.pending = [])
    (uuid : UuidSource) :
    ∃ books, replayWal codec uuid .empty s.wal = .ok books ∧
      ∀ symbol, SameUpToTradeIds (bookAt books symbol) (bookAt s.books symbol) := by
  have hfollows : ∃ past, Follows codec s past ∧ NoStops s ∧ s.path = none := by
    refine Machine.run_history_along (Q := fun actions _ s => (∀ a ∈ actions, a.plainCall = true) →
      ∃ past, Follows codec s past ∧ NoStops s ∧ s.path = none) (fun _ => ?_) ?_ actions replies s hrun
        horder hcalls
    · exact ⟨.start, follows_start codec, ⟨fun _ _ h => (nomatch h), fun _ h => (nomatch h)⟩, rfl⟩
    · intro actions replies s action reply s' h hin hexec hcalls
      obtain ⟨past, hfollows, hstops, hpath⟩ := h fun a ha => hcalls a (List.mem_append_left _ ha)
      have hcall := hcalls action (List.mem_append_right _ (List.mem_singleton_self action))
      have hcovers : Covers s action := by
        cases action with
        | append _ => exact trivial
        | apply _ _ => exact trivial
        | _ => cases hcall
      refine ⟨pastAfter s past action,
        hfollows.step hcodec hin (hstops.quiet action) hcovers hexec,
        hstops.step hfollows.inv hcall hexec, ?_⟩
      cases action with
      | append _ =>
          cases hexec
          exact hpath
      | apply pos uuid =>
          rw [Shared.exec] at hexec
          cases hentry : s.pending[pos]? with
          | none => rw [hentry] at hexec; cases hexec
          | some entry =>
              simp only [hentry] at hexec
              obtain ⟨_, _, hrest⟩ := bind_eq_ok.mp hexec
              cases hrest
              exact hpath
      | _ => cases hcall
  obtain ⟨past, hfollows, _, hpath⟩ := hfollows
  obtain ⟨books, hload, hbooks⟩ := hfollows.reload hcodec
    (fun file hfile => by rw [hpath] at hfile; cases hfile) uuid
  rw [hreturned] at hbooks
  refine ⟨books, ?_, fun symbol => congrFun hbooks symbol⟩
  rw [loadBooksFromPersistence, Shared.files, hpath] at hload
  exact hload

/-- Two threads log an offer and a bid, and then take the lock one after the other. -/
def loggedTogether : List Action :=
  [.append (.submit "BTC-USDT" (Order.limit "ask-1" "u1" .sell 100 2)),
    .append (.submit "BTC-USDT" (Order.limit "bid-1" "u2" .buy 100 1)),
    .apply 0 (fun _ => "first"), .apply 0 (fun _ => "second")]

theorem wal_order_reproduces_loggedTogether :
    ∃ replies s books, sharedRun fractionCodec loggedTogether = .ok (replies, s) ∧
      replayWal fractionCodec (fun _ => "replayed") .empty s.wal = .ok books ∧
      ∀ symbol, SameUpToTradeIds (bookAt books symbol) (bookAt s.books symbol) := by
  have hran : (sharedRun fractionCodec loggedTogether).map (fun r => r.2.pending) = .ok [] := by
    decide +kernel
  cases hrun : sharedRun fractionCodec loggedTogether with
  | error _ => rw [hrun] at hran; cases hran
  | ok r =>
      rw [hrun] at hran
      obtain ⟨books, hreplay, hsame⟩ := wal_order_reproduces fractionCodec_lawful (by decide)
        (by decide +kernel) hrun (Except.ok.inj hran) (fun _ => "replayed")
      exact ⟨r.1, r.2, books, rfl, hreplay, hsame⟩

/-- Two threads log bids at one price, and take the lock in the other order. -/
def lockedInOtherOrder : List Action :=
  [.append (.submit "BTC-USDT" (Order.limit "bid-1" "u1" .buy 100 1)),
    .append (.submit "BTC-USDT" (Order.limit "bid-2" "u2" .buy 100 1)),
    .apply 1 (fun _ => "first"), .apply 0 (fun _ => "second")]

/-- The queues of a book after a run, and after its log is replayed. -/
def queuesReplayed (codec : DecimalCodec) (uuid : UuidSource) (symbol : String) :
    Except Stuck (List ActionReply × Shared) → Option (Bool × Bool)
  | .error _ => none
  | .ok (_, s) =>
    match replayWal codec uuid .empty s.wal with
    | .error _ => none
    | .ok books => some (s.pending.isEmpty,
        decide ((bookAt books symbol).bids = (bookAt s.books symbol).bids))

/-- **The log can have another order than the execution**: of two bids at one price the one that was logged
first is behind the other in the live queue, and before it in the replayed one. -/
theorem replay_reorders_queue :
    ¬∀ (codec : DecimalCodec) (actions : List Action) (replies : List ActionReply) (s : Shared)
      (uuid : UuidSource), codec.Lawful → (∀ action ∈ actions, action.plainCall = true) →
      sharedRun codec actions = .ok (replies, s) → s.pending = [] →
      ∃ books, replayWal codec uuid .empty s.wal = .ok books ∧
        ∀ symbol, (bookAt books symbol).bids = (bookAt s.books symbol).bids := by
  intro h
  have hdiffer : queuesReplayed fractionCodec (fun _ => "replayed") "BTC-USDT"
      (sharedRun fractionCodec lockedInOtherOrder) = some (true, false) := by
    decide +kernel
  cases hrun : sharedRun fractionCodec lockedInOtherOrder with
  | error _ => rw [hrun] at hdiffer; cases hdiffer
  | ok r =>
      obtain ⟨replies, s⟩ := r
      rw [hrun, queuesReplayed] at hdiffer
      have hreturned : s.pending = [] := by
        split at hdiffer
        · cases hdiffer
        · exact List.isEmpty_iff.mp (Prod.mk.inj (Option.some.inj hdiffer)).1
      obtain ⟨books, hreplay, hsame⟩ := h fractionCodec lockedInOtherOrder replies s
        (fun _ => "replayed") fractionCodec_lawful (by decide) hrun hreturned
      simp [hreplay, hsame "BTC-USDT"] at hdiffer

end NexusTrade.MatchingEngine
