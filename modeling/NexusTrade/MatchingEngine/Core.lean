import Mathlib.Data.List.DropRight
import NexusTrade.MatchingEngine.Snapshot
import NexusTrade.MatchingEngine.Sweep

/-!
# The matching engine core

`MatchingEngineCore` of `services/matching-engine/src/lib.rs`: a book per symbol, the cascade of stop
orders after a submission, the write-ahead log and the snapshot, and loading from both.

The outcome of the file operations of a call is an input of the call (`CallFiles`).  The log is the list
of its records: the JSON of a record is data that is read back as it was written.

* **`OrderBook.cascade`** is the loop that triggers stop orders; the fuel `submit_order` gives it is a
  potential that every popped price lowers;
* **`loadBooksFromPersistence`** reads the snapshot and replays the log;
* **`Core.exec`** makes one call.
-/

namespace NexusTrade.MatchingEngine

/-! ### Symbols -/

/-- `char::is_whitespace`, the characters `str::trim` removes. -/
def isWhitespace (c : Char) : Bool :=
  (9 ≤ c.toNat && c.toNat ≤ 13) || c.toNat = 32 || c.toNat = 133 || c.toNat = 160 ||
    c.toNat = 5760 || (8192 ≤ c.toNat && c.toNat ≤ 8202) || c.toNat = 8232 || c.toNat = 8233 ||
    c.toNat = 8239 || c.toNat = 8287 || c.toNat = 12288

/-- `char::to_ascii_uppercase`. -/
def toAsciiUppercase (c : Char) : Char :=
  if 97 ≤ c.toNat ∧ c.toNat ≤ 122 then Char.ofNat (c.toNat - 32) else c

/-- `str::trim`. -/
def trim (cs : List Char) : List Char := (cs.dropWhile isWhitespace).rdropWhile isWhitespace

/-- `normalize_symbol`. -/
def normalizeSymbol (symbol : String) : String :=
  String.ofList ((trim symbol.toList).map toAsciiUppercase)

/-! ### State -/

/-- `WalRecord`. -/
inductive WalRecord
  | submit (symbol : String) (order : OrderSnapshot)
  | cancel (symbol orderId userId : String)
  deriving DecidableEq

/-- `EngineSnapshot`. -/
abbrev EngineSnapshot := SortedMap String OrderBookSnapshot

/-- `PersistenceConfig`, with the files it names: the snapshot at `path`, if there is one, and the
records in the log at `wal_path`. -/
structure Persistence where
  snapshot : Option EngineSnapshot
  wal : List WalRecord
  snapshotIntervalTrades : ℕ
  tradesSinceSnapshot : ℕ
  deriving DecidableEq

/-- `MatchingEngineCore`. -/
structure Core where
  books : SortedMap String OrderBook
  persistence : Option Persistence
  deriving DecidableEq

/-- `MatchingEngineCore::new`. -/
def Core.new : Core := ⟨.empty, none⟩

/-- How far `snapshot_to_disk` gets: it fails before the rename, after it, or not at all. -/
inductive SnapshotOutcome
  | failed
  | renamed
  | completed
  deriving DecidableEq

/-- What the file operations of one call do: the error of the append to the log, if it fails, in which case it has
written nothing, and how far the snapshot gets, if one is taken. -/
structure CallFiles where
  append : Option String
  snapshot : SnapshotOutcome
  deriving DecidableEq

/-- The file operations of a call all succeed. -/
def filesOk : CallFiles := ⟨none, .completed⟩

variable (codec : DecimalCodec)

/-! ### Files -/

/-- `append_wal`, on the records of the log; what a failed append has written is left to the bytes of the file. -/
def Core.appendWal (core : Core) (files : CallFiles) (record : WalRecord) : Except String Core :=
  match core.persistence with
  | none => .ok core
  | some persistence =>
    match files.append with
    | some error => .error error
    | none => .ok { core with
        persistence := some { persistence with wal := persistence.wal ++ [record] } }

/-- `snapshot`. -/
def Core.snapshot (core : Core) : EngineSnapshot := core.books.mapValues (OrderBook.toSnapshot codec)

/-- `snapshot_to_disk`; the flag says that it returned `Ok`. -/
def Core.snapshotToDisk (core : Core) (files : CallFiles) : Bool × Core :=
  match core.persistence with
  | none => (true, core)
  | some persistence =>
    match files.snapshot with
    | .failed => (false, core)
    | .renamed => (false, { core with
        persistence := some { persistence with snapshot := some (core.snapshot codec) } })
    | .completed => (true, { core with
        persistence := some { persistence with snapshot := some (core.snapshot codec), wal := [] } })

/-- `record_trade_count`. -/
def Core.recordTradeCount (core : Core) (files : CallFiles) (count : ℕ) : Core :=
  match core.persistence with
  | none => core
  | some persistence =>
    if persistence.snapshotIntervalTrades ≤ persistence.tradesSinceSnapshot + count then
      (({ core with
          persistence := some { persistence with tradesSinceSnapshot := 0 } } : Core).snapshotToDisk
        codec files).2
    else { core with
      persistence := some { persistence with
        tradesSinceSnapshot := persistence.tradesSinceSnapshot + count } }

/-! ### Submitting and cancelling -/

/-- The prices of the fills of some reports, in order. -/
def fillPrices (reports : List ExecutionReport) : List Decimal :=
  (reports.flatMap ExecutionReport.fills).map Fill.price

/-- The `while let` loop of `submit_order` over `trigger_prices`: the reports of the stop orders set off,
which the source counts and drops. -/
def OrderBook.cascade : ℕ → UuidSource → OrderBook → List Decimal →
    Except Panic (List ExecutionReport × OrderBook)
  | 0, _, _, _ => .error .diverges
  | fuel + 1, uuid, book, triggerPrices =>
    match triggerPrices.getLast? with
    | none => .ok ([], book)
    | some lastPrice => do
        let (triggered, book) ← book.triggerStops uuid.head lastPrice
        let (more, book) ← cascade fuel uuid.tail book
          (triggerPrices.dropLast ++ fillPrices triggered)
        .ok (triggered ++ more, book)

/-- What a cascade can still do: a price to look at, a queued order to fill, a stop order to set off. -/
def OrderBook.cascadeFuel (book : OrderBook) (triggerPrices : List Decimal) : ℕ :=
  triggerPrices.length + book.orderIndex.size + 2 * book.stopOrders.length + 1

/-- `book.submit` and the loop after it. -/
def OrderBook.submitAndTrigger (uuid : UuidSource) (book : OrderBook) (order : Order) :
    Except Panic (ExecutionReport × List ExecutionReport × OrderBook) := do
  let (report, book) ← book.submit uuid.head order
  let triggerPrices := fillPrices [report]
  let (triggered, book) ← book.cascade (book.cascadeFuel triggerPrices) uuid.tail triggerPrices
  .ok (report, triggered, book)

/-- The report for a failed append. -/
def walFailedReport (orderId error : String) : ExecutionReport where
  orderId := orderId
  accepted := false
  status := .rejected
  fills := []
  rejectReason := some ("persistence wal append failed: " ++ error)

/-- `book_for_symbol`: the book of a symbol, created where there is none. -/
def Core.bookFor (core : Core) (symbol : String) : OrderBook :=
  (core.books.find (normalizeSymbol symbol)).getD .default

/-- `trade_count`. -/
def tradeCount (report : ExecutionReport) (triggered : List ExecutionReport) : ℕ :=
  report.fills.length + (triggered.flatMap ExecutionReport.fills).length

/-- `submit_order`: its report, and the reports it drops. -/
def Core.submitOrder (files : CallFiles) (uuid : UuidSource) (core : Core) (symbol : String)
    (order : Order) : Except Panic (ExecutionReport × List ExecutionReport × Core) :=
  match core.appendWal files (.submit (normalizeSymbol symbol) (orderToSnapshot codec order)) with
  | .error error => .ok (walFailedReport order.orderId error, [], core)
  | .ok core => do
      let (report, triggered, book) ← (core.bookFor symbol).submitAndTrigger uuid order
      let core := { core with books := core.books.insert (normalizeSymbol symbol) book }
      .ok (report, triggered,
        if 0 < tradeCount report triggered then
          core.recordTradeCount codec files (tradeCount report triggered)
        else core)

/-- `cancel_order`. -/
def Core.cancelOrder (files : CallFiles) (core : Core) (symbol orderId userId : String) :
    Except Panic (Bool × Core) :=
  match core.appendWal files (.cancel (normalizeSymbol symbol) orderId userId) with
  | .error _ => .ok (false, core)
  | .ok core =>
    match core.books.find (normalizeSymbol symbol) with
    | none => .ok (false, core)
    | some book => do
        let (done, book) ← book.cancel orderId userId
        .ok (done, { core with books := core.books.insert (normalizeSymbol symbol) book })

/-! ### Loading -/

/-- A panic during loading. -/
def liftPanic {α : Type} : Except Panic α → Except LoadError α
  | .ok a => .ok a
  | .error p => .error (.panic p)

/-- `load_books_from_snapshot`. -/
def loadBooksFromSnapshot : Option EngineSnapshot → Except LoadError (SortedMap String OrderBook)
  | none => .ok .empty
  | some snapshot => do
      let books ← snapshot.entries.mapM fun e => do
        let book ← OrderBook.fromSnapshot codec e.2
        .ok (normalizeSymbol e.1, book)
      .ok (SortedMap.collect books)

/-- The body of the loop of `replay_wal`. -/
def replayRecord (uuid : UuidSource) (books : SortedMap String OrderBook) :
    WalRecord → Except LoadError (SortedMap String OrderBook)
  | .submit symbol order => do
      let book := (books.find (normalizeSymbol symbol)).getD .default
      let order ← orderFromSnapshot codec order
      let (_, book) ← liftPanic (book.submit uuid order)
      .ok (books.insert (normalizeSymbol symbol) book)
  | .cancel symbol orderId userId =>
      match books.find (normalizeSymbol symbol) with
      | none => .ok books
      | some book => do
          let (_, book) ← liftPanic (book.cancel orderId userId)
          .ok (books.insert (normalizeSymbol symbol) book)

/-- `replay_wal`. -/
def replayWal : UuidSource → SortedMap String OrderBook → List WalRecord →
    Except LoadError (SortedMap String OrderBook)
  | _, books, [] => .ok books
  | uuid, books, record :: records => do
      let books ← replayRecord codec uuid.head books record
      replayWal uuid.tail books records

/-- `load_books_from_persistence`. -/
def loadBooksFromPersistence (uuid : UuidSource) (persistence : Persistence) :
    Except LoadError (SortedMap String OrderBook) := do
  let books ← loadBooksFromSnapshot codec persistence.snapshot
  replayWal codec uuid books persistence.wal

/-- `with_persistence` on a path without files. -/
def Core.withPersistence (snapshotIntervalTrades : ℕ) : Core :=
  ⟨.empty, some ⟨none, [], max snapshotIntervalTrades 1, 0⟩⟩

/-! ### Calls -/

/-- A call on the engine, with what its file operations do and the identifiers it can draw. -/
inductive CoreOp
  | submitOrder (files : CallFiles) (uuid : UuidSource) (symbol : String) (order : Order)
  | cancelOrder (files : CallFiles) (symbol orderId userId : String)
  | snapshotToDisk (files : CallFiles)

/-- What a call returns; of a submission also the reports that it drops. -/
inductive CoreReply
  | submitted (report : ExecutionReport) (dropped : List ExecutionReport)
  | cancelled (done : Bool)
  | snapshot (completed : Bool)
  deriving DecidableEq

/-- Make one call. -/
def Core.exec (core : Core) : CoreOp → Except Panic (CoreReply × Core)
  | .submitOrder files uuid symbol order => do
      let (report, dropped, core) ← core.submitOrder codec files uuid symbol order
      .ok (.submitted report dropped, core)
  | .cancelOrder files symbol orderId userId => do
      let (done, core) ← core.cancelOrder files symbol orderId userId
      .ok (.cancelled done, core)
  | .snapshotToDisk files =>
      .ok (.snapshot (core.snapshotToDisk codec files).1, (core.snapshotToDisk codec files).2)

end NexusTrade.MatchingEngine
