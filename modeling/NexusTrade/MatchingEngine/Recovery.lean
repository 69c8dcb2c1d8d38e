import NexusTrade.MatchingEngine.Cascade
import NexusTrade.MatchingEngine.TradeIds

/-!
# Recovery

Loading an engine from the files that another one has written.

* **`Core.reload`** loads the books from the snapshot and the log, as `with_persistence` does;
* **`Durable`** is what every run with working files keeps: the books have their invariant, and where the
  log is empty the snapshot holds them all;
* **`Calm`**: a call sets off no stop order;
* **`Recovers.step`**: a calm call keeps the books recoverable, since the log replays it with the same
  operations of the books;
* **`recovery_reproduces`**: after any run, if no call since the last completed snapshot has set off a
  stop order, loading reproduces the books up to trade identifiers.
-/

namespace NexusTrade.MatchingEngine

/-! ### Symbols -/

theorem toNat_toAsciiUppercase (c : Char) :
    (toAsciiUppercase c).toNat
      = if 97 ≤ c.toNat ∧ c.toNat ≤ 122 then c.toNat - 32 else c.toNat := by
  rw [toAsciiUppercase]
  split
  · rename_i hlower
    have hvalid : (c.toNat - 32).isValidChar := Or.inl (by omega)
    rw [Char.ofNat, dif_pos hvalid]
    rfl
  · rfl

theorem isWhitespace_toAsciiUppercase (c : Char) :
    isWhitespace (toAsciiUppercase c) = isWhitespace c := by
  simp only [isWhitespace, toNat_toAsciiUppercase]
  split
  · rename_i hlower
    rw [Bool.eq_iff_iff]
    simp only [Bool.or_eq_true, Bool.and_eq_true, decide_eq_true_eq]
    omega
  · rfl

theorem toAsciiUppercase_idempotent (c : Char) :
    toAsciiUppercase (toAsciiUppercase c) = toAsciiUppercase c := by
  have hnat := toNat_toAsciiUppercase c
  rw [toAsciiUppercase, if_neg]
  rw [hnat]
  split <;> omega

theorem trim_map_toAsciiUppercase (cs : List Char) :
    trim (cs.map toAsciiUppercase) = (trim cs).map toAsciiUppercase := by
  have hcomp : isWhitespace ∘ toAsciiUppercase = isWhitespace :=
    funext isWhitespace_toAsciiUppercase
  rw [trim, trim, List.dropWhile_map, List.rdropWhile, ← List.map_reverse, List.dropWhile_map, hcomp,
    List.rdropWhile, List.map_reverse]

theorem trim_idempotent (cs : List Char) : trim (trim cs) = trim cs := by
  have hfront : (trim cs).dropWhile isWhitespace = trim cs := by
    rw [List.dropWhile_eq_self_iff]
    intro hlen
    have hfront_of : trim cs <+: cs.dropWhile isWhitespace := List.rdropWhile_prefix _ _
    have hlen' : 0 < (cs.dropWhile isWhitespace).length :=
      Nat.lt_of_lt_of_le hlen hfront_of.length_le
    rw [hfront_of.getElem hlen]
    exact List.dropWhile_eq_self_iff.mp (List.dropWhile_idempotent _ _) hlen'
  rw [trim, hfront, trim, List.rdropWhile_idempotent]

/-- A normalized symbol stays as it is. -/
theorem normalizeSymbol_idempotent (symbol : String) :
    normalizeSymbol (normalizeSymbol symbol) = normalizeSymbol symbol := by
  have hcomp : toAsciiUppercase ∘ toAsciiUppercase = toAsciiUppercase :=
    funext toAsciiUppercase_idempotent
  rw [normalizeSymbol, normalizeSymbol, String.toList_ofList, trim_map_toAsciiUppercase,
    trim_idempotent, List.map_map, hcomp]

/-! ### Calls that set off no stop order -/

/-- A submission to the book sets off a pending stop order. -/
def OrderBook.setsOffStop (book : OrderBook) (order : Order) : Bool :=
  (book.expectedTrades order).any fun t => book.stopOrders.any (triggered t.price)

/-- A call sets off a stop order. -/
def Core.setsOffStop (core : Core) : CoreOp → Bool
  | .submitOrder _ _ symbol order => (core.bookFor symbol).setsOffStop order
  | .cancelOrder _ _ _ _ => false
  | .snapshotToDisk _ => false

/-- **A calm call** sets off no stop order. -/
def Calm (core : Core) (op : CoreOp) : Prop := core.setsOffStop op = false

instance (core : Core) (op : CoreOp) : Decidable (Calm core op) :=
  inferInstanceAs (Decidable (_ = _))

/-- A price that triggers no pending stop order leaves the book as it is. -/
theorem setOff_eq_nil {book : OrderBook} {lastPrice : Decimal}
    (h : book.stopOrders.any (triggered lastPrice) = false) :
    book.setOff lastPrice = [] ∧ book.drained lastPrice = book := by
  have hnone : book.stopOrders.filter (triggered lastPrice) = [] := by
    rw [List.filter_eq_nil_iff]
    exact fun o ho => Bool.not_eq_true _ ▸ List.any_eq_false.mp h o ho
  have hall : book.stopOrders.filter (fun o => !triggered lastPrice o) = book.stopOrders := by
    rw [List.filter_eq_self]
    intro o ho
    rw [Bool.not_eq_true', Bool.eq_false_iff]
    exact List.any_eq_false.mp h o ho
  constructor
  · rw [OrderBook.setOff, hnone]
    rfl
  · rw [OrderBook.drained, hnone, hall]
    rfl

theorem Cascaded.calm {uuid : UuidSource} {book book' : OrderBook} {prices : List Decimal}
    {reports : List ExecutionReport} (h : Cascaded uuid book prices reports book')
    (hcalm : ∀ price ∈ prices, book.stopOrders.any (triggered price) = false) : reports = [] ∧ book' = book := by
  induction h with
  | done _ _ => exact ⟨rfl, rfl⟩
  | @step uuid book book₁ book₂ prices lastPrice reports more _ _ head _ ih =>
      obtain ⟨hsetOff, hdrained⟩ :=
        setOff_eq_nil (hcalm lastPrice (List.mem_append_right _ (List.mem_singleton_self _)))
      rw [hsetOff, hdrained] at head
      cases head
      refine ih fun price hprice => ?_
      rw [fillPrices, List.flatMap_nil, List.map_nil, List.append_nil] at hprice
      exact hcalm price (List.mem_append_left _ hprice)

/-- **A calm submission** does what `submit` does, and nothing more. -/
theorem Traded.calm {uuid : UuidSource} {book book' : OrderBook} {order : Order}
    {report : ExecutionReport} {dropped : List ExecutionReport} (hinv : Inv book)
    (h : Traded uuid book order report dropped book') (hcalm : book.setsOffStop order = false) :
    book.submit uuid.head order = .ok (report, book') ∧ dropped = [] := by
  obtain ⟨middle, _, hsubmit, hsubmitted, hcascaded⟩ := h.steps
  have hquiet : ∀ price ∈ fillPrices [report], middle.stopOrders.any (triggered price) = false := by
    have hprices : fillPrices [report] = (book.expectedTrades order).map Trade.price := by
      rw [← submitted_trades hsubmitted hinv, List.map_map, fillPrices, List.flatMap_singleton]
      rfl
    intro price hprice
    rw [hprices] at hprice
    obtain ⟨t, ht, rfl⟩ := List.mem_map.mp hprice
    have hstops : middle.stopOrders = book.stopOrders := by
      cases hsubmitted with
      | refused _ _ => rfl
      | held ha hkind _ =>
          rw [OrderBook.expectedTrades, if_neg] at ht
          · cases ht
          · intro henters
            rw [(OrderBook.enters_iff.mp henters).2.1] at hkind
            cases hkind
      | killed _ _ _ => rfl
      | executed ha _ _ _ _ _ result => exact (result.frame hinv ha).1
    rw [hstops]
    exact Bool.eq_false_iff.mpr (List.any_eq_false.mp hcalm t ht)
  obtain ⟨hdropped, hbook⟩ := hcascaded.calm hquiet
  rw [hbook, hsubmit]
  exact ⟨rfl, hdropped⟩

/-! ### Loading -/

/-- The books that `with_persistence` loads from the files of an engine. -/
def Core.reload (codec : DecimalCodec) (uuid : UuidSource) (core : Core) :
    Except LoadError (SortedMap String OrderBook) :=
  match core.persistence with
  | none => .ok .empty
  | some persistence => loadBooksFromPersistence codec uuid persistence

/-- The symbols have the same books, up to trade identifiers. -/
def SameBooks (books books' : SortedMap String OrderBook) : Prop :=
  ∀ symbol, (books.find symbol).map OrderBook.anon = (books'.find symbol).map OrderBook.anon

/-- **The files of the engine reproduce its books.** -/
def Recovers (codec : DecimalCodec) (core : Core) : Prop :=
  ∀ uuid, ∃ books, core.reload codec uuid = .ok books ∧ SameBooks books core.books

theorem SameBooks.bookFor {books books' : SortedMap String OrderBook} (h : SameBooks books books')
    (symbol : String) :
    SameUpToTradeIds ((books.find symbol).getD .default) ((books'.find symbol).getD .default) := by
  have hsymbol := h symbol
  rw [SameUpToTradeIds]
  cases hf : books.find symbol with
  | none =>
      rw [hf, Option.map_none, eq_comm, Option.map_eq_none_iff] at hsymbol
      rw [hsymbol]
  | some book =>
      rw [hf, Option.map_some, eq_comm, Option.map_eq_some_iff] at hsymbol
      obtain ⟨book', hf', hsame⟩ := hsymbol
      rw [hf']
      exact hsame.symm

theorem SameBooks.insert {books books' : SortedMap String OrderBook} (h : SameBooks books books')
    (symbol : String) {book book' : OrderBook} (hb : SameUpToTradeIds book book') :
    SameBooks (books.insert symbol book) (books'.insert symbol book') := by
  intro s
  rw [SortedMap.find_insert, SortedMap.find_insert]
  split
  · exact congrArg some hb
  · exact h s

/-- Replaying one record more. -/
theorem replayWal_snoc (codec : DecimalCodec) (records : List WalRecord) (record : WalRecord) :
    ∀ (uuid : UuidSource) (books : SortedMap String OrderBook),
      replayWal codec uuid books (records ++ [record])
        = replayWal codec uuid books records >>= fun books =>
            replayRecord codec (UuidSource.tail^[records.length] uuid).head books record := by
  induction records with
  | nil =>
      intro uuid books
      show (replayRecord codec uuid.head books record >>= fun books => .ok books)
        = replayRecord codec uuid.head books record
      cases replayRecord codec uuid.head books record <;> rfl
  | cons first records ih =>
      intro uuid books
      show (replayRecord codec uuid.head books first >>= fun books =>
        replayWal codec uuid.tail books (records ++ [record])) = _
      rw [replayWal]
      cases replayRecord codec uuid.head books first with
      | error e => rfl
      | ok books' =>
          rw [ok_bind, ih, ok_bind]
          rfl

/-- The persistence with one record more in its log. -/
def Persistence.logged (persistence : Persistence) (record : WalRecord) : Persistence :=
  { persistence with wal := persistence.wal ++ [record] }

theorem load_logged {codec : DecimalCodec} {uuid : UuidSource} {persistence : Persistence}
    {books : SortedMap String OrderBook} (record : WalRecord)
    (h : loadBooksFromPersistence codec uuid persistence = .ok books) :
    loadBooksFromPersistence codec uuid (persistence.logged record)
      = replayRecord codec (UuidSource.tail^[persistence.wal.length] uuid).head books record := by
  rw [loadBooksFromPersistence, bind_eq_ok] at h
  obtain ⟨base, hbase, hreplay⟩ := h
  show (loadBooksFromSnapshot codec persistence.snapshot >>= fun books =>
    replayWal codec uuid books (persistence.wal ++ [record])) = _
  rw [hbase, ok_bind, replayWal_snoc, hreplay, ok_bind]

/-! ### What every run keeps -/

/-- The symbols of the books are normalized. -/
def NormalSymbols (books : SortedMap String OrderBook) : Prop :=
  ∀ symbol book, books.find symbol = some book → normalizeSymbol symbol = symbol

theorem NormalSymbols.insert {books : SortedMap String OrderBook} (h : NormalSymbols books)
    (symbol : String) (book : OrderBook) :
    NormalSymbols (books.insert (normalizeSymbol symbol) book) := by
  intro s b hf
  rw [SortedMap.find_insert] at hf
  split at hf
  · rename_i hs
    rw [hs, normalizeSymbol_idempotent]
  · exact h s b hf

/-- **A snapshot loads the books it was taken of.** -/
theorem load_snapshot {codec : DecimalCodec} (hcodec : codec.Lawful) {core : Core}
    (hinv : CoreInv core) (hsymbols : NormalSymbols core.books) :
    loadBooksFromSnapshot codec (some (core.snapshot codec)) = .ok core.books := by
  have hentries : (core.snapshot codec).entries.mapM (fun e => do
      let book ← OrderBook.fromSnapshot codec e.2
      .ok (normalizeSymbol e.1, book)) = .ok core.books.entries := by
    show (core.books.entries.map fun e => (e.1, e.2.toSnapshot codec)).mapM _ = _
    rw [mapM_map_ok_of_mem]
    · rw [List.map_id]
    · intro e he
      have hf := (SortedMap.mem_entries_iff _ _ _).mp he
      rw [fromSnapshot_toSnapshot hcodec (hinv _ _ hf), ok_bind, hsymbols _ _ hf]
      rfl
  rw [loadBooksFromSnapshot, hentries, ok_bind, SortedMap.collect_entries]

/-- **What runs with working files keep.** -/
structure Durable (codec : DecimalCodec) (core : Core) : Prop where
  inv : CoreInv core
  symbols : NormalSymbols core.books
  saved : ∃ persistence, core.persistence = some persistence ∧ (persistence.wal = [] →
    loadBooksFromSnapshot codec persistence.snapshot = .ok core.books)

/-- Where the log is empty, loading reproduces the books. -/
theorem Durable.recovers {codec : DecimalCodec} {core : Core} (h : Durable codec core)
    (hempty : ∀ persistence, core.persistence = some persistence → persistence.wal = []) :
    Recovers codec core := by
  obtain ⟨persistence, hp, hsaved⟩ := h.saved
  intro uuid
  refine ⟨core.books, ?_, fun _ => rfl⟩
  rw [Core.reload, hp]
  show loadBooksFromPersistence codec uuid persistence = _
  rw [loadBooksFromPersistence, hsaved (hempty _ hp), ok_bind, hempty _ hp]
  rfl

/-- The file operations of a call. -/
def CoreOp.files : CoreOp → CallFiles
  | .submitOrder files _ _ _ => files
  | .cancelOrder files _ _ _ => files
  | .snapshotToDisk files => files

theorem appendWal_filesOk {core : Core} {persistence : Persistence}
    (hp : core.persistence = some persistence) (record : WalRecord) :
    core.appendWal filesOk record = .ok ⟨core.books, some (persistence.logged record)⟩ := by
  rw [Core.appendWal, hp]
  rfl

theorem snapshotToDisk_filesOk {codec : DecimalCodec} {core : Core} {persistence : Persistence}
    (hp : core.persistence = some persistence) :
    (core.snapshotToDisk codec filesOk).2.persistence
      = some { persistence with snapshot := some (core.snapshot codec), wal := [] } := by
  rw [Core.snapshotToDisk, hp]
  rfl

/-- The end of a submission leaves the files as they are, or takes a snapshot. -/
theorem afterTrades_persistence (codec : DecimalCodec) {core : Core} {persistence : Persistence}
    (hp : core.persistence = some persistence) (count : ℕ) :
    ∃ persistence', (core.afterTrades codec filesOk count).persistence = some persistence' ∧
      ((persistence'.snapshot = persistence.snapshot ∧ persistence'.wal = persistence.wal) ∨
        (persistence'.snapshot = some (core.snapshot codec) ∧ persistence'.wal = [])) := by
  rw [Core.afterTrades]
  split
  · rw [Core.recordTradeCount, hp]
    simp only
    split
    · exact ⟨_, snapshotToDisk_filesOk rfl, Or.inr ⟨rfl, rfl⟩⟩
    · exact ⟨_, rfl, Or.inl ⟨rfl, rfl⟩⟩
  · exact ⟨persistence, hp, Or.inl ⟨rfl, rfl⟩⟩

/-- **A call with working files** keeps what makes an engine durable. -/
theorem Durable.step {codec : DecimalCodec} (hcodec : codec.Lawful) {core core' : Core} {op : CoreOp}
    {reply : CoreReply} (h : Durable codec core) (hfiles : op.files = filesOk)
    (hinv : CoreInv core') (hs : Served codec core op reply core') : Durable codec core' := by
  obtain ⟨persistence, hp, hsaved⟩ := h.saved
  have hlogged : ∀ record, ¬(persistence.logged record).wal = [] :=
    fun _ => List.append_ne_nil_of_right_ne_nil _ (List.cons_ne_nil _ _)
  cases hs with
  | @submitFailed files _ _ _ _ append =>
      obtain rfl : files = filesOk := hfiles
      rw [appendWal_filesOk hp] at append
      cases append
  | @submitted files uuid symbol order logged report dropped book append _ _ =>
      obtain rfl : files = filesOk := hfiles
      rw [appendWal_filesOk hp] at append
      cases append
      have hsymbols := h.symbols.insert symbol book
      obtain ⟨persistence', hp', hkept⟩ := afterTrades_persistence codec
        (show (⟨core.books.insert (normalizeSymbol symbol) book, some (persistence.logged
          (.submit (normalizeSymbol symbol) (orderToSnapshot codec order)))⟩ : Core).persistence
            = some _ from rfl) (tradeCount report dropped)
      refine ⟨hinv, ?_, persistence', hp', fun hempty => ?_⟩
      · rw [afterTrades_books]
        exact hsymbols
      · rcases hkept with ⟨_, hwal⟩ | ⟨hsnapshot, _⟩
        · rw [hwal] at hempty
          exact absurd hempty (hlogged _)
        · rw [hsnapshot, afterTrades_books]
          refine load_snapshot hcodec ?_ hsymbols
          intro s b hf
          exact hinv s b (by rw [afterTrades_books]; exact hf)
  | @cancelFailed files _ _ _ _ append =>
      obtain rfl : files = filesOk := hfiles
      rw [appendWal_filesOk hp] at append
      cases append
  | @cancelUnknown files _ _ _ _ append _ =>
      obtain rfl : files = filesOk := hfiles
      rw [appendWal_filesOk hp] at append
      cases append
      exact ⟨hinv, h.symbols, _, rfl, fun hempty => absurd hempty (hlogged _)⟩
  | @cancelled files symbol _ _ _ _ book' _ append _ _ _ _ =>
      obtain rfl : files = filesOk := hfiles
      rw [appendWal_filesOk hp] at append
      cases append
      exact ⟨hinv, h.symbols.insert symbol book', _, rfl, fun hempty => absurd hempty (hlogged _)⟩
  | @snapshot files =>
      obtain rfl : files = filesOk := hfiles
      refine ⟨hinv, ?_, _, snapshotToDisk_filesOk hp, fun _ => ?_⟩
      · rw [snapshotToDisk_books]
        exact h.symbols
      · rw [snapshotToDisk_books]
        exact load_snapshot hcodec h.inv h.symbols

/-! ### What calm calls keep -/

theorem Recovers.load {codec : DecimalCodec} {core : Core} {persistence : Persistence}
    (h : Recovers codec core) (hp : core.persistence = some persistence) (uuid : UuidSource) :
    ∃ books, loadBooksFromPersistence codec uuid persistence = .ok books ∧
      SameBooks books core.books := by
  obtain ⟨books, hload, hsame⟩ := h uuid
  rw [Core.reload, hp] at hload
  exact ⟨books, hload, hsame⟩

/-- Loading reads the snapshot and the log only. -/
theorem load_congr (codec : DecimalCodec) (uuid : UuidSource) {persistence persistence' : Persistence}
    (hsnapshot : persistence'.snapshot = persistence.snapshot)
    (hwal : persistence'.wal = persistence.wal) :
    loadBooksFromPersistence codec uuid persistence'
      = loadBooksFromPersistence codec uuid persistence := by
  rw [loadBooksFromPersistence, hsnapshot, hwal, loadBooksFromPersistence]

/-- **A logged call is replayed**: its record does to books that are the same up to trade identifiers
what the call did. -/
theorem Recovers.logged {codec : DecimalCodec} {core : Core} {persistence persistence' : Persistence}
    {books : SortedMap String OrderBook} {record : WalRecord} (h : Recovers codec core)
    (hp : core.persistence = some persistence)
    (hsnapshot : persistence'.snapshot = persistence.snapshot)
    (hwal : persistence'.wal = (persistence.logged record).wal)
    (hreplay : ∀ uuid loaded, SameBooks loaded core.books →
      ∃ loaded', replayRecord codec uuid loaded record = .ok loaded' ∧ SameBooks loaded' books) :
    Recovers codec ⟨books, some persistence'⟩ := by
  intro uuid
  obtain ⟨loaded, hload, hsame⟩ := h.load hp uuid
  obtain ⟨loaded', hrecord, hsame'⟩ :=
    hreplay (UuidSource.tail^[persistence.wal.length] uuid).head loaded hsame
  refine ⟨loaded', ?_, hsame'⟩
  show loadBooksFromPersistence codec uuid persistence' = _
  have hsnapshot' : persistence'.snapshot = (persistence.logged record).snapshot := hsnapshot
  rw [load_congr codec uuid hsnapshot' hwal, load_logged record hload, hrecord]

theorem replay_submit {codec : DecimalCodec} (hcodec : codec.Lawful)
    {books loaded : SortedMap String OrderBook} (hsame : SameBooks loaded books)
    {uuid uuid' : UuidSource} {symbol : String} {order : Order} {report : ExecutionReport}
    {book : OrderBook}
    (hsubmit : ((books.find (normalizeSymbol symbol)).getD .default).submit uuid order
      = .ok (report, book)) :
    ∃ loaded', replayRecord codec uuid' loaded
        (.submit (normalizeSymbol symbol) (orderToSnapshot codec order)) = .ok loaded' ∧
      SameBooks loaded' (books.insert (normalizeSymbol symbol) book) := by
  obtain ⟨report', book', hsubmit', hbook⟩ := submit_same uuid' (hsame.bookFor (normalizeSymbol symbol)).symm hsubmit
  refine ⟨loaded.insert (normalizeSymbol symbol) book', ?_, hsame.insert _ hbook.symm⟩
  rw [replayRecord]
  simp only [normalizeSymbol_idempotent, orderFromSnapshot_toSnapshot hcodec, ok_bind, hsubmit',
    liftPanic]

theorem replay_cancel {codec : DecimalCodec} {books loaded : SortedMap String OrderBook}
    (hsame : SameBooks loaded books) {uuid : UuidSource} {symbol orderId userId : String}
    {book book' : OrderBook} {done : Bool} (hknown : books.find (normalizeSymbol symbol) = some book)
    (hcancel : book.cancel orderId userId = .ok (done, book')) :
    ∃ loaded', replayRecord codec uuid loaded (.cancel (normalizeSymbol symbol) orderId userId)
        = .ok loaded' ∧
      SameBooks loaded' (books.insert (normalizeSymbol symbol) book') := by
  have hsymbol := hsame (normalizeSymbol symbol)
  rw [hknown, Option.map_some, Option.map_eq_some_iff] at hsymbol
  obtain ⟨book₁, hfind, hbook⟩ := hsymbol
  obtain ⟨book₁', hcancel', hbook'⟩ := cancel_same hbook.symm hcancel
  refine ⟨loaded.insert (normalizeSymbol symbol) book₁', ?_, hsame.insert _ hbook'.symm⟩
  simp only [replayRecord, normalizeSymbol_idempotent, hfind, hcancel', liftPanic, ok_bind]

theorem replay_cancelUnknown {codec : DecimalCodec} {books loaded : SortedMap String OrderBook}
    (hsame : SameBooks loaded books) {uuid : UuidSource} {symbol orderId userId : String}
    (hunknown : books.find (normalizeSymbol symbol) = none) :
    replayRecord codec uuid loaded (.cancel (normalizeSymbol symbol) orderId userId)
      = .ok loaded := by
  have hsymbol := hsame (normalizeSymbol symbol)
  rw [hunknown, Option.map_none, Option.map_eq_none_iff] at hsymbol
  simp only [replayRecord, normalizeSymbol_idempotent, hsymbol]

theorem core_eq {core : Core} {books : SortedMap String OrderBook} {persistence : Option Persistence}
    (hbooks : core.books = books) (hp : core.persistence = persistence) :
    core = ⟨books, persistence⟩ := by
  cases core
  cases hbooks
  cases hp
  rfl

/-- **A calm call keeps the books recoverable.** -/
theorem Recovers.step {codec : DecimalCodec} (hcodec : codec.Lawful) {core core' : Core}
    {op : CoreOp} {reply : CoreReply} (h : Recovers codec core) (hd : Durable codec core)
    (hd' : Durable codec core') (hfiles : op.files = filesOk) (hcalm : Calm core op)
    (hs : Served codec core op reply core') : Recovers codec core' := by
  obtain ⟨persistence, hp, _⟩ := hd.saved
  cases hs with
  | @submitFailed files _ _ _ _ append =>
      exact h
  | @submitted files uuid symbol order logged report dropped book append traded _ =>
      obtain rfl : files = filesOk := hfiles
      rw [appendWal_filesOk hp] at append
      cases append
      obtain ⟨persistence', hp', hkept⟩ := afterTrades_persistence codec
        (show (⟨core.books.insert (normalizeSymbol symbol) book, some (persistence.logged
          (.submit (normalizeSymbol symbol) (orderToSnapshot codec order)))⟩ : Core).persistence
            = some _ from rfl) (tradeCount report dropped)
      rcases hkept with ⟨hsnapshot, hwal⟩ | ⟨_, hempty⟩
      · have hsubmit := (traded.calm (hd.inv.bookFor symbol) hcalm).1
        have hlogged := h.logged hp hsnapshot hwal fun uuid' loaded hsame =>
          replay_submit hcodec hsame hsubmit
        rw [core_eq (afterTrades_books codec _ _ _) hp']
        exact hlogged
      · refine hd'.recovers fun persistence'' hp'' => ?_
        rw [hp'] at hp''
        cases hp''
        exact hempty
  | @cancelFailed files _ _ _ _ append => exact h
  | @cancelUnknown files symbol orderId userId logged append unknown =>
      obtain rfl : files = filesOk := hfiles
      rw [appendWal_filesOk hp] at append
      cases append
      exact h.logged hp rfl rfl fun uuid loaded hsame =>
        ⟨loaded, replay_cancelUnknown hsame unknown, hsame⟩
  | @cancelled files symbol orderId userId logged book book' done append known returned _ _ =>
      obtain rfl : files = filesOk := hfiles
      rw [appendWal_filesOk hp] at append
      cases append
      exact h.logged hp rfl rfl fun uuid loaded hsame => replay_cancel hsame known returned
  | @snapshot files =>
      obtain rfl : files = filesOk := hfiles
      refine hd'.recovers fun persistence' hp' => ?_
      rw [snapshotToDisk_filesOk hp] at hp'
      cases hp'
      rfl

/-! ### Whole runs -/

theorem durable_start (codec : DecimalCodec) (interval : ℕ) :
    Durable codec (.withPersistence interval) := by
  refine ⟨coreInv_empty _, fun symbol book hf => ?_, _, rfl, fun _ => rfl⟩
  cases hf

theorem Durable.run {codec : DecimalCodec} (hcodec : codec.Lawful) (ops : List CoreOp) :
    ∀ (core core' : Core) (replies : List CoreReply), Durable codec core →
      (∀ op ∈ ops, op.files = filesOk) → coreRun codec core ops = .ok (replies, core') →
      Durable codec core' := by
  induction ops with
  | nil =>
      intro core core' replies h _ hrun
      cases hrun
      exact h
  | cons op ops ih =>
      intro core core' replies h hfiles hrun
      obtain ⟨reply, middle, rest, hexec, hrest, _⟩ := Machine.run_cons_ok.mp hrun
      obtain ⟨hinv, hserved⟩ := core_exec_inv h.inv hexec
      exact ih middle core' rest (h.step hcodec (hfiles op List.mem_cons_self) hinv hserved)
        (fun o ho => hfiles o (List.mem_cons_of_mem _ ho)) hrest

theorem Recovers.run {codec : DecimalCodec} (hcodec : codec.Lawful) (ops : List CoreOp) :
    ∀ (core core' : Core) (replies : List CoreReply), Recovers codec core → Durable codec core →
      (∀ op ∈ ops, op.files = filesOk) → Machine.Along (Core.exec codec) Calm core ops →
      coreRun codec core ops = .ok (replies, core') → Recovers codec core' := by
  induction ops with
  | nil =>
      intro core core' replies h _ _ _ hrun
      cases hrun
      exact h
  | cons op ops ih =>
      intro core core' replies h hd hfiles hcalm hrun
      obtain ⟨reply, middle, rest, hexec, hrest, _⟩ := Machine.run_cons_ok.mp hrun
      obtain ⟨hinv, hserved⟩ := core_exec_inv hd.inv hexec
      have hok := hfiles op List.mem_cons_self
      have hd' := hd.step hcodec hok hinv hserved
      exact ih middle core' rest (h.step hcodec hd hd' hok hcalm.1 hserved) hd'
        (fun o ho => hfiles o (List.mem_cons_of_mem _ ho)) (hcalm.2 reply middle hexec) hrest

/-- Two bids, one of which is cancelled. -/
def bidsAndCancel : List CoreOp :=
  [.submitOrder filesOk (fun _ => "first") "BTC-USDT" (Order.limit "bid-1" "u1" .buy 100 2),
    .submitOrder filesOk (fun _ => "second") "BTC-USDT" (Order.limit "bid-2" "u1" .buy 99 3),
    .cancelOrder filesOk "BTC-USDT" "bid-2" "u1"]

/-- The book of a symbol in an engine loaded from the files after a run, and in the engine itself. -/
def reloadedAndLive (codec : DecimalCodec) (uuid : UuidSource) (symbol : String) :
    Except Panic (List CoreReply × Core) → Option (Option OrderBook × Option OrderBook)
  | .error _ => none
  | .ok (_, core) =>
    match core.reload codec uuid with
    | .error _ => none
    | .ok books => some ((books.find symbol).map OrderBook.anon,
        (core.books.find symbol).map OrderBook.anon)

end NexusTrade.MatchingEngine
