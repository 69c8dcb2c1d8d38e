import NexusTrade.Lib.Logged
import NexusTrade.MatchingEngine.Replay

/-!
# Calls on the engine from several threads

`submit_order`, `cancel_order` and `snapshot_to_disk` of `services/matching-engine/src/lib.rs` as they run
when several threads call them: each appends its record under no lock of the engine, and takes the lock of
the book only then; a snapshot reads the books, writes the temporary file, renames it and truncates the log.

A thread between two of these steps is an entry of `Shared.pending` or `Shared.flights`; an action takes one
of them a step further, so that the lists of actions are the interleavings.  Snapshots start at any time,
the automatic ones after trades included.

* **`Shared.exec`** makes one step of one thread;
* **`Shared.files`** are the files that a crash leaves;
* **`Follows`**: the past of the engine is a `Logged.History`, of which its books, its log and its counters
  are what they should be;
* **`Follows.step`**: every step keeps that, if the calls of a symbol take the lock in the order of the log
  and set off no stop order.
-/

namespace NexusTrade.MatchingEngine

/-! ### State -/

/-- A call that is logged. -/
inductive Request
  | submit (symbol : String) (order : Order)
  | cancel (symbol orderId userId : String)
  deriving DecidableEq

/-- The symbol of a call, normalized. -/
def Request.symbol : Request → String
  | .submit symbol _ => normalizeSymbol symbol
  | .cancel symbol _ _ => normalizeSymbol symbol

/-- The record of a call. -/
def Request.record (codec : DecimalCodec) : Request → WalRecord
  | .submit symbol order => .submit (normalizeSymbol symbol) (orderToSnapshot codec order)
  | .cancel symbol orderId userId => .cancel (normalizeSymbol symbol) orderId userId

/-- The content of a snapshot file, and how many calls had been applied when its books were read. -/
structure SnapshotFile where
  books : EngineSnapshot
  seen : ℕ
  deriving DecidableEq

/-- How far a thread is in `snapshot_to_disk`. -/
inductive Phase
  | read
  | written
  | renamed
  deriving DecidableEq

/-- A thread in `snapshot_to_disk`, with the payload that it has read. -/
structure Flight where
  phase : Phase
  payload : SnapshotFile
  deriving DecidableEq

/-- **The engine that the threads share**: the books, the files at `path`, `temp_path` and `wal_path`, the
calls that are logged and not yet applied, each with its number, and the snapshots that are under way.  The
counters tell how many calls were appended, applied, and truncated from the log. -/
structure Shared where
  books : SortedMap String OrderBook
  path : Option SnapshotFile
  tempPath : Option SnapshotFile
  wal : List WalRecord
  pending : List (ℕ × Request)
  flights : List Flight
  appended : ℕ
  applied : ℕ
  truncated : ℕ
  deriving DecidableEq

/-- `with_persistence` on a path without files. -/
def Shared.start : Shared := ⟨.empty, none, none, [], [], [], 0, 0, 0⟩

/-- A step of one of the threads. -/
inductive Action
  | append (request : Request)
  | apply (pos : ℕ) (uuid : UuidSource)
  | read
  | write (pos : ℕ)
  | rename (pos : ℕ)
  | truncate (pos : ℕ)

/-- What a step shows: that a thread goes on, or what its call returns. -/
inductive ActionReply
  | continues
  | submitted (report : ExecutionReport) (dropped : List ExecutionReport)
  | cancelled (done : Bool)
  | snapshot (completed : Bool)
  deriving DecidableEq

/-- Why a step is not made: there is no thread to make it, or it panics. -/
inductive Stuck
  | absent
  | panic (p : Panic)
  deriving DecidableEq

variable (codec : DecimalCodec)

/-! ### Steps -/

/-- The book of a symbol, or the one that `book_for_symbol` creates. -/
def bookAt (books : SortedMap String OrderBook) (symbol : String) : OrderBook :=
  (books.find symbol).getD .default

/-- A panic of a step. -/
def stuckPanic {α : Type} : Except Panic α → Except Stuck α
  | .ok a => .ok a
  | .error p => .error (.panic p)

/-- `submit_order` and `cancel_order` after `append_wal`. -/
def applyRequest (uuid : UuidSource) (books : SortedMap String OrderBook) :
    Request → Except Stuck (ActionReply × SortedMap String OrderBook)
  | .submit symbol order => do
      let (report, dropped, book) ←
        stuckPanic ((bookAt books (normalizeSymbol symbol)).submitAndTrigger uuid order)
      .ok (.submitted report dropped, books.insert (normalizeSymbol symbol) book)
  | .cancel symbol orderId userId =>
      match books.find (normalizeSymbol symbol) with
      | none => .ok (.cancelled false, books)
      | some book => do
          let (done, book) ← stuckPanic (book.cancel orderId userId)
          .ok (.cancelled done, books.insert (normalizeSymbol symbol) book)

/-- **One step of one thread.** -/
def Shared.exec (s : Shared) : Action → Except Stuck (ActionReply × Shared)
  | .append request => .ok (.continues, { s with
      wal := s.wal ++ [request.record codec]
      pending := s.pending ++ [(s.appended, request)]
      appended := s.appended + 1 })
  | .apply pos uuid =>
      match s.pending[pos]? with
      | none => .error .absent
      | some entry => do
          let (reply, books) ← applyRequest uuid s.books entry.2
          .ok (reply, { s with
            books := books
            pending := s.pending.eraseIdx pos
            applied := s.applied + 1 })
  | .read => .ok (.continues, { s with
      flights := s.flights ++ [⟨.read, s.books.mapValues (OrderBook.toSnapshot codec), s.applied⟩] })
  | .write pos =>
      match s.flights[pos]? with
      | some ⟨.read, payload⟩ => .ok (.continues, { s with
          tempPath := some payload
          flights := s.flights.set pos ⟨.written, payload⟩ })
      | _ => .error .absent
  | .rename pos =>
      match s.flights[pos]? with
      | some ⟨.written, payload⟩ =>
          match s.tempPath with
          -- another thread has renamed the temporary file: `fs::rename` fails, and the snapshot ends
          | none => .ok (.snapshot false, { s with flights := s.flights.eraseIdx pos })
          | some file => .ok (.continues, { s with
              path := some file
              tempPath := none
              flights := s.flights.set pos ⟨.renamed, payload⟩ })
      | _ => .error .absent
  | .truncate pos =>
      match s.flights[pos]? with
      | some ⟨.renamed, _⟩ => .ok (.snapshot true, { s with
          wal := []
          flights := s.flights.eraseIdx pos
          truncated := s.appended })
      | _ => .error .absent

/-- The files that a crash leaves. -/
def Shared.files (s : Shared) : Persistence := ⟨s.path.map SnapshotFile.books, s.wal, 1, 0⟩

/-- Make the steps of a list. -/
def sharedRun (actions : List Action) : Except Stuck (List ActionReply × Shared) :=
  Machine.run (Shared.exec codec) .start actions

/-! ### Conditions on steps -/

/-- A step takes the lock in the order of the log: no other call of the same symbol is logged before the one
that is applied, and not applied yet. -/
def InOrder (s : Shared) : Action → Prop
  | .apply pos _ => ∀ entry ∈ s.pending[pos]?,
      ∀ other ∈ s.pending.take pos, other.2.symbol ≠ entry.2.symbol
  | _ => True

instance (s : Shared) : DecidablePred (InOrder s)
  | .apply pos _ => inferInstanceAs (Decidable (∀ entry ∈ s.pending[pos]?, _))
  | .append _ | .read | .write _ | .rename _ | .truncate _ => isTrue trivial

/-- A call sets off a stop order. -/
def Request.setsOffStop (books : SortedMap String OrderBook) : Request → Bool
  | .submit symbol order => (bookAt books (normalizeSymbol symbol)).setsOffStop order
  | .cancel _ _ _ => false

/-- A step sets off no stop order. -/
def Quiet (s : Shared) : Action → Prop
  | .apply pos _ => ∀ entry ∈ s.pending[pos]?, entry.2.setsOffStop s.books = false
  | _ => True

instance (s : Shared) : DecidablePred (Quiet s)
  | .apply pos _ => inferInstanceAs (Decidable (∀ entry ∈ s.pending[pos]?, _))
  | .append _ | .read | .write _ | .rename _ | .truncate _ => isTrue trivial

/-- A step of a snapshot loses nothing: where the temporary file is renamed, it was read when the calls that
are truncated from the log had been applied; where the log is truncated, the snapshot was read when all the
calls that were ever logged had been applied. -/
def Covers (s : Shared) : Action → Prop
  | .rename _ => s.truncated ≤ (s.tempPath.map SnapshotFile.seen).getD s.truncated
  | .truncate _ => s.path.map SnapshotFile.seen = some s.appended
  | _ => True

instance (s : Shared) : DecidablePred (Covers s)
  | .rename _ => inferInstanceAs (Decidable (_ ≤ _))
  | .truncate _ => inferInstanceAs (Decidable (_ = _))
  | .append _ | .apply _ _ | .read | .write _ => isTrue trivial

/-! ### What a call does to a book -/

@[simp] theorem anon_anon (book : OrderBook) : book.anon.anon = book.anon := by
  simp only [OrderBook.anon, List.map_map]
  congr 1

/-- **What a call does to a book**, up to trade identifiers. -/
def OrderBook.perform (book : OrderBook) : Request → OrderBook
  | .submit _ order =>
    match book.submit noIds order with
    | .ok (_, book') => book'.anon
    | .error _ => book
  | .cancel _ orderId userId =>
    match book.cancel orderId userId with
    | .ok (_, book') => book'.anon
    | .error _ => book

theorem perform_submit {uuid : UuidSource} {book book' : OrderBook} {order : Order}
    {report : ExecutionReport} (h : book.submit uuid order = .ok (report, book')) (symbol : String) :
    book.anon.perform (.submit symbol order) = book'.anon := by
  have hanon := submit_anon uuid book order
  rw [h] at hanon
  simp only [OrderBook.perform, hanon, Except.map, anonResult, anon_anon]

theorem perform_cancel {book book' : OrderBook} {orderId userId : String} {done : Bool}
    (h : book.cancel orderId userId = .ok (done, book')) (symbol : String) :
    book.anon.perform (.cancel symbol orderId userId) = book'.anon := by
  have hanon := cancel_anon book orderId userId
  rw [h] at hanon
  simp only [OrderBook.perform, hanon, Except.map, anon_anon]

/-- The books of an engine, up to trade identifiers. -/
def anonBooks (books : SortedMap String OrderBook) : String → OrderBook :=
  fun symbol => (bookAt books symbol).anon

/-- Every book of a map has the representation invariant. -/
def BooksInv (books : SortedMap String OrderBook) : Prop :=
  ∀ symbol book, books.find symbol = some book → Inv book

theorem BooksInv.bookAt {books : SortedMap String OrderBook} (h : BooksInv books) (symbol : String) :
    Inv (bookAt books symbol) := by
  rw [NexusTrade.MatchingEngine.bookAt]
  cases hfind : books.find symbol with
  | none => exact inv_default
  | some book => exact h symbol book hfind

theorem BooksInv.insert {books : SortedMap String OrderBook} (h : BooksInv books) {book : OrderBook}
    (hbook : Inv book) (symbol : String) : BooksInv (books.insert symbol book) := by
  intro s b hfind
  rw [SortedMap.find_insert] at hfind
  split at hfind
  · cases hfind
    exact hbook
  · exact h s b hfind

theorem bookAt_insert (books : SortedMap String OrderBook) (symbol : String) (book : OrderBook)
    (s : String) :
    bookAt (books.insert symbol book) s = if s = symbol then book else bookAt books s := by
  rw [bookAt, SortedMap.find_insert]
  split <;> rfl

/-- The symbol of a logged call, and what it does to the book of that symbol. -/
abbrev entryKey (entry : ℕ × Request) : String := entry.2.symbol

abbrev entryStep (book : OrderBook) (entry : ℕ × Request) : OrderBook := book.perform entry.2

/-- One call changes the book of its symbol. -/
def Performed (books books' : SortedMap String OrderBook) (request : Request) : Prop :=
  BooksInv books' ∧ (NormalSymbols books → NormalSymbols books') ∧ ∀ symbol, anonBooks books' symbol
    = if request.symbol = symbol then (anonBooks books symbol).perform request
      else anonBooks books symbol

theorem performed_insert {books : SortedMap String OrderBook} (h : BooksInv books) {request : Request}
    {symbol : String} (hsymbol : request.symbol = normalizeSymbol symbol) {book' : OrderBook}
    (hinv : Inv book')
    (hbook : (bookAt books (normalizeSymbol symbol)).anon.perform request = book'.anon) :
    Performed books (books.insert (normalizeSymbol symbol) book') request := by
  refine ⟨h.insert hinv _, fun hs => hs.insert symbol book', fun s => ?_⟩
  rw [anonBooks, bookAt_insert, hsymbol]
  by_cases heq : normalizeSymbol symbol = s
  · subst heq
    rw [if_pos rfl, if_pos rfl, anonBooks, hbook]
  · rw [if_neg (Ne.symm heq), if_neg heq]
    rfl

/-- A cancellation in a symbol without a book. -/
theorem performed_unknown {books : SortedMap String OrderBook} (h : BooksInv books)
    {symbol orderId userId : String} (hunknown : books.find (normalizeSymbol symbol) = none) :
    Performed books books (.cancel symbol orderId userId) := by
  refine ⟨h, id, fun s => ?_⟩
  by_cases heq : normalizeSymbol symbol = s
  · subst heq
    have hdefault : anonBooks books (normalizeSymbol symbol) = OrderBook.default.anon := by
      rw [anonBooks, bookAt, hunknown]
      rfl
    rw [Request.symbol, if_pos rfl, hdefault,
      perform_cancel (cancel_gone inv_default (gone_default orderId userId))]
  · rw [Request.symbol, if_neg heq]

/-- **Applying a call** that sets off no stop order. -/
theorem applyRequest_performed {uuid : UuidSource} {books books' : SortedMap String OrderBook}
    {request : Request} {reply : ActionReply} (h : BooksInv books)
    (hquiet : request.setsOffStop books = false)
    (happly : applyRequest uuid books request = .ok (reply, books')) :
    Performed books books' request := by
  cases request with
  | submit symbol order =>
      have hinv := h.bookAt (normalizeSymbol symbol)
      obtain ⟨report, dropped, book', htrade, hinv', ht⟩ := submitAndTrigger_spec uuid hinv order
      rw [applyRequest, htrade] at happly
      cases happly
      have hsubmit := (ht.calm hinv hquiet).1
      exact performed_insert h rfl hinv' (perform_submit hsubmit symbol)
  | cancel symbol orderId userId =>
      rw [applyRequest] at happly
      cases hfind : books.find (normalizeSymbol symbol) with
      | none =>
          rw [hfind] at happly
          cases happly
          exact performed_unknown h hfind
      | some book =>
          obtain ⟨done, book', hcancel, hinv', _⟩ := cancel_spec (h _ book hfind) orderId userId
          simp only [hfind, hcancel, stuckPanic] at happly
          cases happly
          have hbook : bookAt books (normalizeSymbol symbol) = book := by rw [bookAt, hfind]; rfl
          exact performed_insert h rfl hinv' (hbook ▸ perform_cancel hcancel symbol)

/-- **Replaying the record of a call.** -/
theorem replayRecord_performed {codec : DecimalCodec} (hcodec : codec.Lawful) (uuid : UuidSource)
    {books : SortedMap String OrderBook} (h : BooksInv books) (request : Request) :
    ∃ books', replayRecord codec uuid books (request.record codec) = .ok books' ∧
      Performed books books' request := by
  cases request with
  | submit symbol order =>
      have hinv := h.bookAt (normalizeSymbol symbol)
      obtain ⟨report, book', hsubmit, hinv', _⟩ := submit_spec uuid hinv order
      refine ⟨books.insert (normalizeSymbol symbol) book', ?_,
        performed_insert h rfl hinv' (perform_submit hsubmit symbol)⟩
      rw [bookAt] at hsubmit
      simp only [Request.record, replayRecord, normalizeSymbol_idempotent,
        orderFromSnapshot_toSnapshot hcodec, ok_bind, hsubmit, liftPanic]
  | cancel symbol orderId userId =>
      cases hfind : books.find (normalizeSymbol symbol) with
      | none =>
          refine ⟨books, ?_, performed_unknown h hfind⟩
          simp only [Request.record, replayRecord, normalizeSymbol_idempotent, hfind]
      | some book =>
          obtain ⟨done, book', hcancel, hinv', _⟩ := cancel_spec (h _ book hfind) orderId userId
          have hbook : bookAt books (normalizeSymbol symbol) = book := by rw [bookAt, hfind]; rfl
          refine ⟨books.insert (normalizeSymbol symbol) book', ?_,
            performed_insert h rfl hinv' (hbook ▸ perform_cancel hcancel symbol)⟩
          simp only [Request.record, replayRecord, normalizeSymbol_idempotent, hfind, hcancel,
            liftPanic, ok_bind]

/-- **Replaying a log** does to the books what its calls do. -/
theorem replayWal_performed {codec : DecimalCodec} (hcodec : codec.Lawful) (entries : List (ℕ × Request)) :
    ∀ (uuid : UuidSource) (books : SortedMap String OrderBook), BooksInv books →
      ∃ books', replayWal codec uuid books (entries.map fun entry => entry.2.record codec) = .ok books' ∧
        anonBooks books' = Logged.replay entryKey entryStep (anonBooks books) entries := by
  induction entries with
  | nil => exact fun uuid books _ => ⟨books, rfl, rfl⟩
  | cons entry entries ih =>
      intro uuid books h
      obtain ⟨middle, hrecord, hinv, _, hmiddle⟩ := replayRecord_performed hcodec uuid.head h entry.2
      obtain ⟨books', hreplay, hbooks⟩ := ih uuid.tail middle hinv
      refine ⟨books', ?_, ?_⟩
      · rw [List.map_cons, replayWal, hrecord, ok_bind, hreplay]
      · have hfirst : anonBooks middle = Logged.replay entryKey entryStep (anonBooks books) [entry] := by
          funext symbol
          rw [hmiddle symbol]
          exact (Logged.replay_snoc entryKey entryStep (anonBooks books) [] entry symbol).symm
        rw [hbooks, hfirst, ← Logged.replay_append]
        rfl

/-! ### The past of the engine -/

/-- The files that hold a snapshot, and those that the threads are about to write. -/
def Shared.payloads (s : Shared) : List SnapshotFile :=
  s.path.toList ++ s.tempPath.toList ++ s.flights.map Flight.payload

/-- **A snapshot of the past**: it loads, to the books as they were after the calls that it has seen. -/
structure Sound (codec : DecimalCodec) (past : Logged.History (ℕ × Request)) (file : SnapshotFile) :
    Prop where
  seen : file.seen ≤ past.applied.length
  loads : ∃ books, loadBooksFromSnapshot codec (some file.books) = .ok books ∧ BooksInv books ∧
    anonBooks books
      = Logged.replay entryKey entryStep (fun _ => .default) (past.applied.take file.seen)

/-- **The engine follows its past.** -/
structure Follows (codec : DecimalCodec) (s : Shared) (past : Logged.History (ℕ × Request)) : Prop where
  ordered : Logged.Ordered entryKey past
  inv : BooksInv s.books
  symbols : NormalSymbols s.books
  live : anonBooks s.books = Logged.replay entryKey entryStep (fun _ => .default) past.applied
  pending : s.pending = past.pending
  wal : s.wal = past.log.map fun entry => entry.2.record codec
  numbers : past.total.map Prod.fst = List.range past.total.length
  appended : s.appended = past.total.length
  applied : s.applied = past.applied.length
  truncated : s.truncated = past.truncated
  files : ∀ file ∈ s.payloads, Sound codec past file
  path : past.truncated ≤ (s.path.map SnapshotFile.seen).getD 0

/-- The past after one step more. -/
def pastAfter (s : Shared) (past : Logged.History (ℕ × Request)) :
    Action → Logged.History (ℕ × Request)
  | .append request => past.append (s.appended, request)
  | .apply pos _ =>
    match s.pending[pos]? with
    | none => past
    | some entry => past.apply pos entry
  | .truncate _ => past.truncate
  | _ => past

theorem follows_start (codec : DecimalCodec) : Follows codec .start .start where
  ordered := Logged.ordered_start
  inv := fun _ _ h => nomatch h
  symbols := fun _ _ h => nomatch h
  live := rfl
  pending := rfl
  wal := rfl
  numbers := rfl
  appended := rfl
  applied := rfl
  truncated := rfl
  files := fun _ h => nomatch h
  path := le_refl _

/-- A snapshot of the past stays one, whatever is applied after it. -/
theorem Sound.apply {codec : DecimalCodec} {past : Logged.History (ℕ × Request)} {file : SnapshotFile}
    (h : Sound codec past file) (pos : ℕ) (entry : ℕ × Request) :
    Sound codec (past.apply pos entry) file := by
  refine ⟨?_, ?_⟩
  · show file.seen ≤ (past.applied ++ [entry]).length
    rw [List.length_append]
    exact Nat.le_add_right_of_le h.seen
  · show ∃ books, _ ∧ _ ∧ anonBooks books
      = Logged.replay entryKey entryStep _ ((past.applied ++ [entry]).take file.seen)
    rw [List.take_append_of_le_length h.seen]
    exact h.loads

/-- **Appending** a record. -/
theorem Follows.append {codec : DecimalCodec} {s : Shared} {past : Logged.History (ℕ × Request)}
    (h : Follows codec s past) (request : Request) :
    Follows codec { s with
      wal := s.wal ++ [request.record codec]
      pending := s.pending ++ [(s.appended, request)]
      appended := s.appended + 1 } (past.append (s.appended, request)) where
  ordered := h.ordered.append _
  inv := h.inv
  symbols := h.symbols
  live := h.live
  pending := congrArg (· ++ [(s.appended, request)]) h.pending
  wal := by
    show s.wal ++ _ = ((past.total ++ [(s.appended, request)]).drop past.truncated).map _
    rw [List.drop_append_of_le_length h.ordered.bound_total, List.map_append, h.wal]
    rfl
  numbers := by
    show (past.total ++ [(s.appended, request)]).map Prod.fst = _
    rw [List.map_append, h.numbers, Logged.History.append, List.length_append, List.length_singleton,
      List.range_succ, h.appended]
    rfl
  appended := by
    show s.appended + 1 = (past.total ++ [(s.appended, request)]).length
    rw [List.length_append, h.appended]
    rfl
  applied := h.applied
  truncated := h.truncated
  files := fun file hfile => ⟨(h.files file hfile).seen, (h.files file hfile).loads⟩
  path := h.path

/-- **Applying** a call. -/
theorem Follows.apply {codec : DecimalCodec} {s : Shared} {past : Logged.History (ℕ × Request)}
    (h : Follows codec s past) {pos : ℕ} {entry : ℕ × Request} (hentry : s.pending[pos]? = some entry)
    (hfirst : ∀ other ∈ s.pending.take pos, other.2.symbol ≠ entry.2.symbol)
    {books : SortedMap String OrderBook} (hperformed : Performed s.books books entry.2) :
    Follows codec { s with
      books := books
      pending := s.pending.eraseIdx pos
      applied := s.applied + 1 } (past.apply pos entry) where
  ordered := h.ordered.apply (h.pending ▸ hentry) (h.pending ▸ hfirst)
  inv := hperformed.1
  symbols := hperformed.2.1 h.symbols
  live := by
    funext symbol
    rw [hperformed.2.2 symbol, h.live]
    exact (Logged.replay_snoc entryKey entryStep _ past.applied entry symbol).symm
  pending := congrArg (fun pending => pending.eraseIdx pos) h.pending
  wal := h.wal
  numbers := h.numbers
  appended := h.appended
  applied := by
    show s.applied + 1 = (past.applied ++ [entry]).length
    rw [List.length_append, h.applied]
    rfl
  truncated := h.truncated
  files := fun file hfile => (h.files file hfile).apply pos entry
  path := h.path

/-- **Reading** the books. -/
theorem Follows.sound_read {codec : DecimalCodec} (hcodec : codec.Lawful) {s : Shared}
    {past : Logged.History (ℕ × Request)} (h : Follows codec s past) :
    Sound codec past ⟨s.books.mapValues (OrderBook.toSnapshot codec), s.applied⟩ := by
  refine ⟨h.applied.le, s.books, ?_, h.inv, ?_⟩
  · exact @load_snapshot codec hcodec ⟨s.books, none⟩ h.inv h.symbols
  · rw [h.live, h.applied, List.take_length]

/-- Steps that move snapshots. -/
theorem Follows.moved {codec : DecimalCodec} {s s' : Shared} {past : Logged.History (ℕ × Request)}
    (h : Follows codec s past) (hbooks : s'.books = s.books) (hwal : s'.wal = s.wal)
    (hpending : s'.pending = s.pending) (happended : s'.appended = s.appended)
    (happlied : s'.applied = s.applied) (htruncated : s'.truncated = s.truncated)
    (hfiles : ∀ file ∈ s'.payloads, Sound codec past file)
    (hpath : past.truncated ≤ (s'.path.map SnapshotFile.seen).getD 0) : Follows codec s' past where
  ordered := h.ordered
  inv := hbooks ▸ h.inv
  symbols := hbooks ▸ h.symbols
  live := hbooks ▸ h.live
  pending := hpending.trans h.pending
  wal := hwal.trans h.wal
  numbers := h.numbers
  appended := happended.trans h.appended
  applied := happlied.trans h.applied
  truncated := htruncated.trans h.truncated
  files := hfiles
  path := hpath

theorem mem_payloads {s : Shared} {file : SnapshotFile} :
    file ∈ s.payloads ↔ s.path = some file ∨ s.tempPath = some file ∨
      ∃ flight ∈ s.flights, flight.payload = file := by
  rw [Shared.payloads, List.mem_append, List.mem_append, Option.mem_toList, Option.mem_toList,
    List.mem_map, or_assoc]

/-- **What a step does to the snapshots**: the files hold what they held, or what some thread has read; a
read takes the books as they are, a rename puts the temporary file in place. -/
theorem exec_payloads {codec : DecimalCodec} {s s' : Shared} {action : Action} {reply : ActionReply}
    (hexec : s.exec codec action = .ok (reply, s')) {file : SnapshotFile} (hfile : file ∈ s'.payloads) :
    file ∈ s.payloads ∨
      file = ⟨s.books.mapValues (OrderBook.toSnapshot codec), s.applied⟩ := by
  cases action with
  | append request =>
      cases hexec
      exact Or.inl hfile
  | apply pos uuid =>
      rw [Shared.exec] at hexec
      cases hentry : s.pending[pos]? with
      | none => rw [hentry] at hexec; cases hexec
      | some entry =>
          simp only [hentry] at hexec
          obtain ⟨⟨reply', books⟩, _, hrest⟩ := bind_eq_ok.mp hexec
          cases hrest
          exact Or.inl hfile
  | read =>
      cases hexec
      rcases mem_payloads.mp hfile with hpath | htemp | ⟨flight, hflight, rfl⟩
      · exact Or.inl (mem_payloads.mpr (Or.inl hpath))
      · exact Or.inl (mem_payloads.mpr (Or.inr (Or.inl htemp)))
      · rcases List.mem_append.mp hflight with hflight | hflight
        · exact Or.inl (mem_payloads.mpr (Or.inr (Or.inr ⟨flight, hflight, rfl⟩)))
        · rw [List.mem_singleton.mp hflight]
          exact Or.inr rfl
  | write pos =>
      rw [Shared.exec] at hexec
      split at hexec
      · rename_i payload hget
        cases hexec
        have hold : payload ∈ s.payloads :=
          mem_payloads.mpr (Or.inr (Or.inr ⟨_, List.mem_of_getElem? hget, rfl⟩))
        rcases mem_payloads.mp hfile with hpath | htemp | ⟨flight, hflight, rfl⟩
        · exact Or.inl (mem_payloads.mpr (Or.inl hpath))
        · cases htemp
          exact Or.inl hold
        · rcases List.mem_or_eq_of_mem_set hflight with hflight | rfl
          · exact Or.inl (mem_payloads.mpr (Or.inr (Or.inr ⟨flight, hflight, rfl⟩)))
          · exact Or.inl hold
      · cases hexec
  | rename pos =>
      rw [Shared.exec] at hexec
      split at hexec
      · rename_i payload hget
        have hold : payload ∈ s.payloads :=
          mem_payloads.mpr (Or.inr (Or.inr ⟨_, List.mem_of_getElem? hget, rfl⟩))
        cases htemp : s.tempPath with
        | none =>
            simp only [htemp] at hexec
            cases hexec
            rcases mem_payloads.mp hfile with hpath | hnone | ⟨flight, hflight, rfl⟩
            · exact Or.inl (mem_payloads.mpr (Or.inl hpath))
            · cases hnone
            · exact Or.inl (mem_payloads.mpr
                (Or.inr (Or.inr ⟨flight, List.mem_of_mem_eraseIdx hflight, rfl⟩)))
        | some temp =>
            simp only [htemp] at hexec
            cases hexec
            rcases mem_payloads.mp hfile with hpath | hnone | ⟨flight, hflight, rfl⟩
            · cases hpath
              exact Or.inl (mem_payloads.mpr (Or.inr (Or.inl htemp)))
            · cases hnone
            · rcases List.mem_or_eq_of_mem_set hflight with hflight | rfl
              · exact Or.inl (mem_payloads.mpr (Or.inr (Or.inr ⟨flight, hflight, rfl⟩)))
              · exact Or.inl hold
      · cases hexec
  | truncate pos =>
      rw [Shared.exec] at hexec
      split at hexec
      · cases hexec
        rcases mem_payloads.mp hfile with hpath | htemp | ⟨flight, hflight, rfl⟩
        · exact Or.inl (mem_payloads.mpr (Or.inl hpath))
        · exact Or.inl (mem_payloads.mpr (Or.inr (Or.inl htemp)))
        · exact Or.inl (mem_payloads.mpr
            (Or.inr (Or.inr ⟨flight, List.mem_of_mem_eraseIdx hflight, rfl⟩)))
      · cases hexec

/-- **Every step keeps the engine to its past**, if the calls of a symbol take the lock in the order of the
log and set off no stop order, and the steps of snapshots lose nothing. -/
theorem Follows.step {codec : DecimalCodec} (hcodec : codec.Lawful) {s s' : Shared}
    {past : Logged.History (ℕ × Request)} {action : Action} {reply : ActionReply}
    (h : Follows codec s past) (hin : InOrder s action) (hquiet : Quiet s action)
    (hcovers : Covers s action) (hexec : s.exec codec action = .ok (reply, s')) :
    Follows codec s' (pastAfter s past action) := by
  have hpayloads : ∀ file ∈ s'.payloads, Sound codec past file := by
    intro file hfile
    rcases exec_payloads hexec hfile with hold | rfl
    · exact h.files file hold
    · exact h.sound_read hcodec
  cases action with
  | append request =>
      cases hexec
      exact h.append request
  | apply pos uuid =>
      rw [Shared.exec] at hexec
      cases hentry : s.pending[pos]? with
      | none => rw [hentry] at hexec; cases hexec
      | some entry =>
          simp only [hentry] at hexec
          obtain ⟨⟨reply', books⟩, happly, hrest⟩ := bind_eq_ok.mp hexec
          cases hrest
          rw [pastAfter, hentry]
          exact h.apply hentry (hin entry hentry)
            (applyRequest_performed h.inv (hquiet entry hentry) happly)
  | read =>
      cases hexec
      exact h.moved rfl rfl rfl rfl rfl rfl hpayloads h.path
  | write pos =>
      rw [Shared.exec] at hexec
      split at hexec
      · cases hexec
        exact h.moved rfl rfl rfl rfl rfl rfl hpayloads h.path
      · cases hexec
  | rename pos =>
      rw [Shared.exec] at hexec
      split at hexec
      · cases htemp : s.tempPath with
        | none =>
            simp only [htemp] at hexec
            cases hexec
            exact h.moved rfl rfl rfl rfl rfl rfl hpayloads h.path
        | some temp =>
            simp only [htemp] at hexec
            cases hexec
            refine h.moved rfl rfl rfl rfl rfl rfl hpayloads ?_
            rw [Covers, htemp, h.truncated] at hcovers
            exact hcovers
      · cases hexec
  | truncate pos =>
      rw [Shared.exec] at hexec
      split at hexec
      · cases hexec
        obtain ⟨file, hfile, hseen⟩ := Option.map_eq_some_iff.mp hcovers
        have hsound := h.files file (mem_payloads.mpr (Or.inl hfile))
        have hall : past.total.length ≤ past.applied.length := by
          rw [← h.appended, ← hseen]
          exact hsound.seen
        refine ⟨h.ordered.truncate hall, h.inv, h.symbols, h.live, h.pending, ?_, h.numbers, h.appended,
          h.applied, h.appended, fun file hfile => ⟨(hpayloads file hfile).seen,
            (hpayloads file hfile).loads⟩, ?_⟩
        · show [] = (past.total.drop past.total.length).map _
          rw [List.drop_length]
          rfl
        · show past.total.length ≤ (s.path.map SnapshotFile.seen).getD 0
          rw [hcovers, ← h.appended]
          exact le_refl _
      · cases hexec

/-! ### Loading -/

/-- **Loading the files that a crash leaves** gives the live books, with the calls that are logged and not
applied yet applied to them, if the snapshot absorbs what it covers of the log. -/
theorem Follows.reload {codec : DecimalCodec} (hcodec : codec.Lawful) {s : Shared}
    {past : Logged.History (ℕ × Request)} (h : Follows codec s past)
    (habsorbed : ∀ file, s.path = some file →
      ∀ entry ∈ (past.applied.take file.seen).drop past.truncated, ∀ books : String → OrderBook,
        books = Logged.replay entryKey entryStep (fun _ => .default) (past.applied.take file.seen) →
        entryStep (books (entryKey entry)) entry = books (entryKey entry))
    (uuid : UuidSource) :
    ∃ books, loadBooksFromPersistence codec uuid s.files = .ok books ∧
      anonBooks books = Logged.replay entryKey entryStep (anonBooks s.books) s.pending := by
  have hload : ∃ seen, past.truncated ≤ seen ∧ ∃ base,
      loadBooksFromSnapshot codec s.files.snapshot = .ok base ∧ BooksInv base ∧ anonBooks base
        = Logged.replay entryKey entryStep (fun _ => .default) (past.applied.take seen) ∧
      ∀ entry ∈ (past.applied.take seen).drop past.truncated,
        entryStep (anonBooks base (entryKey entry)) entry = anonBooks base (entryKey entry) := by
    have hpath := h.path
    cases hfile : s.path with
    | none =>
        rw [hfile] at hpath
        refine ⟨0, hpath, .empty, ?_, fun _ _ h => (nomatch h), rfl, fun entry hentry => ?_⟩
        · rw [Shared.files, hfile]
          rfl
        · rw [List.take_zero, List.drop_nil] at hentry
          cases hentry
    | some file =>
        rw [hfile] at hpath
        obtain ⟨base, hbase, hinv, hbooks⟩ := (h.files file (mem_payloads.mpr (Or.inl hfile))).loads
        refine ⟨file.seen, hpath, base, ?_, hinv, hbooks, fun entry hentry => ?_⟩
        · rw [Shared.files, hfile]
          exact hbase
        · exact habsorbed file hfile entry hentry _ hbooks
  obtain ⟨seen, hseen, base, hbase, hinv, hbooks, habsorbed⟩ := hload
  obtain ⟨books, hreplay, hresult⟩ := replayWal_performed hcodec past.log uuid base hinv
  refine ⟨books, ?_, ?_⟩
  · rw [loadBooksFromPersistence, hbase, ok_bind, Shared.files, h.wal]
    exact hreplay
  · rw [hresult, hbooks, h.live, h.pending]
    rw [hbooks] at habsorbed
    exact h.ordered.load entryStep (fun _ => .default) hseen habsorbed

end NexusTrade.MatchingEngine
