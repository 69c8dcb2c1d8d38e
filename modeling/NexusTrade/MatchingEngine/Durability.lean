import NexusTrade.MatchingEngine.Concurrent

/-!
# What survives a crash

Calls on the engine and snapshots from several threads, with a crash after any step.

* **`Traced`**: what is applied leaves a trace in its book, so that the snapshot absorbs its record;
* **`Retained`**: the live books absorb what has been applied since the log was truncated, and every snapshot
  absorbs what it covers of the log;
* **`acknowledged_survive`**: loading the files that a crash leaves gives the live books, which have the effect
  of all calls that have returned, with the calls that were logged and had not returned applied to them.
-/

namespace NexusTrade.MatchingEngine

/-! ### Calls that are absorbed -/

/-- Making a call again changes no book. -/
def AbsorbsRequest (books : SortedMap String OrderBook) : Request → Prop
  | .submit symbol order => (bookAt books (normalizeSymbol symbol)).ignores order = true
  | .cancel symbol orderId userId => Gone orderId userId (bookAt books (normalizeSymbol symbol))

theorem perform_absorbed {books : SortedMap String OrderBook} (hinv : BooksInv books) {request : Request}
    (h : AbsorbsRequest books request) :
    (anonBooks books request.symbol).perform request = anonBooks books request.symbol := by
  cases request with
  | submit symbol order =>
      obtain ⟨report, hsubmit⟩ := submit_ignored (hinv.bookAt (normalizeSymbol symbol)) h noIds
      exact perform_submit hsubmit symbol
  | cancel symbol orderId userId =>
      exact perform_cancel (cancel_gone (hinv.bookAt (normalizeSymbol symbol)) h) symbol

/-- Calls stay absorbed where a book changes that knows what it knew, and that a cancellation finds nothing
more in. -/
theorem AbsorbsRequest.insert {books : SortedMap String OrderBook} {request : Request}
    (h : AbsorbsRequest books request) {symbol : String} {book' : OrderBook}
    (hknows : KnowsAll (bookAt books symbol) book')
    (hgone : ∀ s id user, request = .cancel s id user → request.symbol = symbol →
      Gone id user (bookAt books symbol) → Gone id user book') :
    AbsorbsRequest (books.insert symbol book') request := by
  cases request with
  | submit s order =>
      rw [AbsorbsRequest, bookAt_insert]
      split
      · rename_i heq
        rw [AbsorbsRequest, heq] at h
        exact ignores_mono hknows h
      · exact h
  | cancel s id user =>
      rw [AbsorbsRequest, bookAt_insert]
      split
      · rename_i heq
        rw [AbsorbsRequest, heq] at h
        exact hgone s id user rfl heq h
      · exact h

/-! ### The condition -/

/-- **A step leaves a trace**: a submission that it applies is ignored by the book of its symbol, or leaves a
trace there while no record before it in the log cancels its order. -/
def Traced (s : Shared) : Action → Prop
  | .apply pos _ => ∀ entry ∈ s.pending[pos]?,
    match entry.2 with
    | .submit symbol order =>
        (bookAt s.books (normalizeSymbol symbol)).ignores order = true ∨
          (LeavesTrace (bookAt s.books (normalizeSymbol symbol)) order ∧
            WalRecord.cancel (normalizeSymbol symbol) order.orderId order.userId
              ∉ s.wal.take (entry.1 - s.truncated))
    | .cancel _ _ _ => True
  | _ => True

instance (s : Shared) : DecidablePred (Traced s)
  | .apply pos _ =>
    have (entry : ℕ × Request) : Decidable (match entry.2 with
        | .submit symbol order =>
            (bookAt s.books (normalizeSymbol symbol)).ignores order = true ∨
              (LeavesTrace (bookAt s.books (normalizeSymbol symbol)) order ∧
                WalRecord.cancel (normalizeSymbol symbol) order.orderId order.userId
                  ∉ s.wal.take (entry.1 - s.truncated))
        | .cancel _ _ _ => True) := by
      cases entry.2 <;> infer_instance
    inferInstanceAs (Decidable (∀ entry ∈ s.pending[pos]?, _))
  | .append _ | .read | .write _ | .rename _ | .truncate _ => isTrue trivial

/-- The records of a symbol that have been applied, and are still in the log, are before those that have
not. -/
theorem Follows.ahead {codec : DecimalCodec} {s : Shared} {past : Logged.History (ℕ × Request)}
    (h : Follows codec s past) {pos : ℕ} {entry : ℕ × Request} (hentry : s.pending[pos]? = some entry)
    (hfirst : ∀ other ∈ s.pending.take pos, other.2.symbol ≠ entry.2.symbol) {e : ℕ × Request}
    (he : e ∈ past.applied.drop past.truncated) (hsymbol : e.2.symbol = entry.2.symbol) :
    e.2.record codec ∈ s.wal.take (entry.1 - s.truncated) := by
  rw [h.pending] at hentry hfirst
  have hpending : Logged.ofKey entryKey entry.2.symbol past.pending
      = Logged.ofKey entryKey entry.2.symbol [entry]
        ++ Logged.ofKey entryKey entry.2.symbol (past.pending.eraseIdx pos) :=
    Logged.ofKey_eraseIdx hentry hfirst _
  have hsplit := h.ordered.log_split h.ordered.bound entry.2.symbol
  rw [List.take_length, List.drop_length, List.append_nil, Logged.ofKey_append, hpending] at hsplit
  have hown : e ∈ Logged.ofKey entryKey entry.2.symbol (past.applied.drop past.truncated) :=
    List.mem_filter.mpr ⟨he, decide_eq_true hsymbol⟩
  have hlast : entry ∈ Logged.ofKey entryKey entry.2.symbol [entry]
      ++ Logged.ofKey entryKey entry.2.symbol (past.pending.eraseIdx pos) :=
    List.mem_append_left _ (List.mem_filter.mpr ⟨List.mem_singleton_self _, decide_eq_true rfl⟩)
  -- the numbers of the log grow
  have hsorted : past.total.Pairwise fun a b => a.1 < b.1 := by
    rw [← List.pairwise_map, h.numbers]
    exact List.pairwise_lt_range
  have hsortedLog : (Logged.ofKey entryKey entry.2.symbol past.log).Pairwise fun a b => a.1 < b.1 :=
    hsorted.sublist ((List.filter_sublist).trans (List.drop_sublist _ _))
  have hlt : e.1 < entry.1 := by
    rw [hsplit, List.pairwise_append] at hsortedLog
    exact hsortedLog.2.2 e hown entry hlast
  have hlog : e ∈ past.log := by
    have hin : e ∈ Logged.ofKey entryKey entry.2.symbol past.log := by
      rw [hsplit]
      exact List.mem_append_left _ hown
    exact (List.mem_filter.mp hin).1
  obtain ⟨i, hget⟩ := List.mem_iff_getElem?.mp hlog
  have htotal : past.total[past.truncated + i]? = some e := by
    rw [← hget, Logged.History.log, List.getElem?_drop]
  have hnumber : e.1 = past.truncated + i := by
    obtain ⟨hi, _⟩ := List.getElem?_eq_some_iff.mp htotal
    have hat : (past.total.map Prod.fst)[past.truncated + i]? = some (past.truncated + i) := by
      rw [h.numbers, List.getElem?_range hi]
    rw [List.getElem?_map, htotal] at hat
    exact Option.some.inj hat
  rw [h.wal, ← List.map_take, h.truncated]
  refine List.mem_map.mpr ⟨e, List.mem_iff_getElem?.mpr ⟨i, ?_⟩, rfl⟩
  rw [List.getElem?_take, if_pos (by omega), hget]

/-! ### What is retained -/

/-- **What has been applied is retained**: by the live books since the log was truncated, and by every
snapshot as far as the log still has it. -/
structure Retained (codec : DecimalCodec) (s : Shared) (past : Logged.History (ℕ × Request)) : Prop where
  recalls : ∀ symbol book, s.books.find symbol = some book → Recalls book
  live : ∀ entry ∈ past.applied.drop past.truncated, AbsorbsRequest s.books entry.2
  files : ∀ file ∈ s.payloads, ∀ books, loadBooksFromSnapshot codec (some file.books) = .ok books →
    ∀ entry ∈ (past.applied.take file.seen).drop past.truncated, AbsorbsRequest books entry.2

theorem Retained.bookAt {codec : DecimalCodec} {s : Shared} {past : Logged.History (ℕ × Request)}
    (h : Retained codec s past) (symbol : String) : Recalls (bookAt s.books symbol) := by
  rw [NexusTrade.MatchingEngine.bookAt]
  cases hfind : s.books.find symbol with
  | none => exact recalls_default
  | some book => exact h.recalls symbol book hfind

/-- What applying a call does to the books, if it leaves a trace. -/
theorem Retained.applied {codec : DecimalCodec} {s : Shared} {past : Logged.History (ℕ × Request)}
    (h : Retained codec s past) (hfollows : Follows codec s past) {pos : ℕ} {entry : ℕ × Request}
    (hentry : s.pending[pos]? = some entry) {uuid : UuidSource}
    (hfirst : ∀ other ∈ s.pending.take pos, other.2.symbol ≠ entry.2.symbol)
    (hquiet : entry.2.setsOffStop s.books = false) (htraced : Traced s (.apply pos uuid))
    {books' : SortedMap String OrderBook} {reply : ActionReply}
    (happly : applyRequest uuid s.books entry.2 = .ok (reply, books')) :
    (∀ symbol book, books'.find symbol = some book → Recalls book) ∧
      (∀ e ∈ past.applied.drop past.truncated, AbsorbsRequest books' e.2) ∧
      AbsorbsRequest books' entry.2 := by
  have hahead := fun e he hsymbol => hfollows.ahead hentry hfirst (e := e) he hsymbol
  have hinsert : ∀ symbol book', Recalls book' →
      ∀ s' book, (s.books.insert symbol book').find s' = some book → Recalls book := by
    intro symbol book' hbook' s' book hfind
    rw [SortedMap.find_insert] at hfind
    split at hfind
    · cases hfind
      exact hbook'
    · exact h.recalls s' book hfind
  obtain ⟨n, request⟩ := entry
  cases request with
  | submit symbol order =>
      have hrecalls := h.bookAt (normalizeSymbol symbol)
      obtain ⟨report, dropped, book', htrade, hinv', ht⟩ :=
        submitAndTrigger_spec uuid hrecalls.inv order
      rw [applyRequest, htrade] at happly
      cases happly
      have hsubmit := (ht.calm hrecalls.inv hquiet).1
      obtain ⟨report', middle, hsubmit', _, result⟩ := submit_spec uuid.head hrecalls.inv order
      obtain ⟨rfl, rfl⟩ := Prod.mk.inj (Except.ok.inj (hsubmit.symm.trans hsubmit'))
      have hcondition := htraced _ hentry
      obtain ⟨hrecalls', hknows, hignored⟩ :=
        hrecalls.submitted hinv' result (hcondition.imp_right And.left)
      refine ⟨hinsert _ _ hrecalls', fun e he => ?_, ?_⟩
      · refine (h.live e he).insert hknows fun s' id user hcancel hsymbol hgone => ?_
        rcases hcondition with hsame | ⟨_, hfree⟩
        · obtain ⟨_, rfl⟩ := result.of_refuses (refuses_of_ignores hsame)
          exact hgone
        · refine hgone.submitted hrecalls.inv result ?_
          rintro ⟨rfl, rfl⟩
          refine hfree ?_
          have hrecord := hahead e he hsymbol
          rw [hcancel] at hrecord hsymbol
          rw [← show normalizeSymbol s' = normalizeSymbol symbol from hsymbol]
          exact hrecord
      · rw [AbsorbsRequest, bookAt_insert, if_pos rfl]
        exact hignored
  | cancel symbol orderId userId =>
      rw [applyRequest] at happly
      cases hfind : s.books.find (normalizeSymbol symbol) with
      | none =>
          rw [hfind] at happly
          cases happly
          refine ⟨h.recalls, h.live, ?_⟩
          have hdefault : NexusTrade.MatchingEngine.bookAt s.books (normalizeSymbol symbol) = .default := by
            rw [NexusTrade.MatchingEngine.bookAt, hfind]
            rfl
          rw [AbsorbsRequest, hdefault]
          exact gone_default orderId userId
      | some book =>
          have hrecalls := h.recalls _ book hfind
          obtain ⟨done, book', hcancel, hinv', result⟩ := cancel_spec hrecalls.inv orderId userId
          simp only [hfind, hcancel, stuckPanic] at happly
          cases happly
          obtain ⟨hrecalls', hknows⟩ := hrecalls.cancelled hinv' result
          have hbook : NexusTrade.MatchingEngine.bookAt s.books (normalizeSymbol symbol) = book := by
            rw [NexusTrade.MatchingEngine.bookAt, hfind]
            rfl
          refine ⟨hinsert _ _ hrecalls', fun e he => ?_, ?_⟩
          · exact (h.live e he).insert (hbook ▸ hknows) fun _ _ _ _ _ hgone =>
              (hbook ▸ hgone).cancelled result
          · rw [AbsorbsRequest, bookAt_insert, if_pos rfl]
            exact result.gone hrecalls.inv hinv'

theorem mem_drop_mono {α : Type} {as : List α} {m n : ℕ} (h : m ≤ n) {a : α} (ha : a ∈ as.drop n) :
    a ∈ as.drop m := by
  obtain ⟨k, rfl⟩ := Nat.exists_eq_add_of_le h
  rw [← List.drop_drop] at ha
  exact List.mem_of_mem_drop ha

/-- The books that a step leaves, and what had been applied. -/
theorem Retained.step {codec : DecimalCodec} (hcodec : codec.Lawful) {s s' : Shared}
    {past : Logged.History (ℕ × Request)} {action : Action} {reply : ActionReply}
    (h : Retained codec s past) (hfollows : Follows codec s past) (hin : InOrder s action)
    (hquiet : Quiet s action) (htraced : Traced s action)
    (hexec : s.exec codec action = .ok (reply, s')) :
    Retained codec s' (pastAfter s past action) := by
  -- a payload that is read covers what the live books absorb
  have hpayloads : ∀ file ∈ s'.payloads, ∀ books,
      loadBooksFromSnapshot codec (some file.books) = .ok books →
      ∀ entry ∈ (past.applied.take file.seen).drop past.truncated, AbsorbsRequest books entry.2 := by
    intro file hfile books hload
    rcases exec_payloads hexec hfile with hold | rfl
    · exact h.files file hold books hload
    · have hread : loadBooksFromSnapshot codec
          (some (s.books.mapValues (OrderBook.toSnapshot codec))) = .ok s.books :=
        @load_snapshot codec hcodec ⟨s.books, none⟩ hfollows.inv hfollows.symbols
      obtain rfl := Except.ok.inj (hread.symm.trans hload)
      rw [show s.applied = past.applied.length from hfollows.applied, List.take_length]
      exact h.live
  have hsame : s'.books = s.books → ∀ symbol book, s'.books.find symbol = some book → Recalls book := by
    intro hbooks
    rw [hbooks]
    exact h.recalls
  cases action with
  | append request =>
      cases hexec
      exact ⟨h.recalls, h.live, hpayloads⟩
  | apply pos uuid =>
      rw [Shared.exec] at hexec
      cases hentry : s.pending[pos]? with
      | none => rw [hentry] at hexec; cases hexec
      | some entry =>
          simp only [hentry] at hexec
          obtain ⟨⟨reply', books⟩, happly, hrest⟩ := bind_eq_ok.mp hexec
          cases hrest
          obtain ⟨hrecalls, hlive, hown⟩ := h.applied hfollows hentry (hin entry hentry)
            (hquiet entry hentry) htraced happly
          rw [pastAfter, hentry]
          refine ⟨hrecalls, fun e he => ?_, fun file hfile loaded hload e he => ?_⟩
          · have he' : e ∈ (past.applied ++ [entry]).drop past.truncated := he
            rw [List.drop_append_of_le_length hfollows.ordered.bound, List.mem_append] at he'
            rcases he' with he' | he'
            · exact hlive e he'
            · rw [List.mem_singleton.mp he']
              exact hown
          · have he' : e ∈ ((past.applied ++ [entry]).take file.seen).drop past.truncated := he
            rw [List.take_append_of_le_length (hfollows.files file hfile).seen] at he'
            exact h.files file hfile loaded hload e he'
  | read =>
      cases hexec
      exact ⟨h.recalls, h.live, hpayloads⟩
  | write pos =>
      rw [Shared.exec] at hexec
      split at hexec
      · cases hexec
        exact ⟨h.recalls, h.live, hpayloads⟩
      · cases hexec
  | rename pos =>
      rw [Shared.exec] at hexec
      split at hexec
      · split at hexec
        · cases hexec
          exact ⟨h.recalls, h.live, hpayloads⟩
        · cases hexec
          exact ⟨h.recalls, h.live, hpayloads⟩
      · cases hexec
  | truncate pos =>
      rw [Shared.exec] at hexec
      split at hexec
      · cases hexec
        refine ⟨h.recalls, fun e he => h.live e (mem_drop_mono hfollows.ordered.bound_total he), ?_⟩
        exact fun file hfile books hload e he =>
          hpayloads file hfile books hload e (mem_drop_mono hfollows.ordered.bound_total he)
      · cases hexec

/-! ### The law -/

/-- **The condition on a step.** -/
def Careful (s : Shared) (action : Action) : Prop :=
  InOrder s action ∧ Quiet s action ∧ Covers s action ∧ Traced s action

instance (s : Shared) : DecidablePred (Careful s) :=
  fun _ => inferInstanceAs (Decidable (_ ∧ _))

/-- An offer and a bid that takes a part of it; a crash comes after the rename of a snapshot that holds both,
and after another bid is logged. -/
def crashAfterRename : List Action :=
  [.append (.submit "BTC-USDT" (Order.limit "ask-1" "u1" .sell 100 2)),
    .append (.submit "BTC-USDT" (Order.limit "bid-1" "u2" .buy 100 1)),
    .apply 0 (fun _ => "first"), .apply 0 (fun _ => "second"), .read, .write 0, .rename 0,
    .append (.submit "BTC-USDT" (Order.limit "bid-2" "u2" .buy 99 1))]

/-- A bid is logged and applied between the read and the truncation of a snapshot. -/
def bidDuringSnapshot : List Action :=
  [.read, .append (.submit "BTC-USDT" (Order.limit "bid-1" "u1" .buy 100 1)),
    .apply 0 (fun _ => "first"), .write 0, .rename 0, .truncate 0]

end NexusTrade.MatchingEngine
