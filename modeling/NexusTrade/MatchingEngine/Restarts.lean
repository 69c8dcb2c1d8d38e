import NexusTrade.MatchingEngine.Symbols
import NexusTrade.MatchingEngine.RoundTrip

/-!
# Lives of an engine

A process that runs the engine of `services/matching-engine/src/lib.rs` can end at any time, and the next one
starts with `with_persistence` on the files that it finds.

* **`Core.restart`** is the end of a process and the start of the next one; `Life.exec` makes a call or restarts;
* **`Loadable`** is what every call and every restart keeps, whichever file operations fail: the snapshot is one of
  sound books, and each record of the log can be read;
* **`restarts_never_fail`**: so the engine always comes up again, with sound books;
* **`Resembles`** relates an engine with files to one without that never ends;
* **`restarts_are_invisible`**: with working files, and no restart while a stop order that was set off is only in
  memory, the clients of an engine that is restarted at any points get the answers of one that never is.
-/

namespace NexusTrade.MatchingEngine

/-! ### Restarting -/

/-- The process ends, and `with_persistence` starts another one on its files; without files nothing is kept. -/
def Core.restart (codec : DecimalCodec) (uuid : UuidSource) (core : Core) : Except LoadError Core :=
  match core.persistence with
  | none => .ok .new
  | some persistence => do
    let books ← loadBooksFromPersistence codec uuid persistence
    .ok ⟨books, some { persistence with tradesSinceSnapshot := 0 }⟩

/-- A call on the engine, or a restart, with the identifiers that replaying the log draws. -/
inductive LifeOp
  | call (op : CoreOp)
  | restart (uuid : UuidSource)

inductive LifeReply
  | answered (reply : CoreReply)
  | restarted
  deriving DecidableEq

/-- An engine, with a record that no call reads: a stop order has been set off since the log was last empty. -/
structure Life where
  core : Core
  adrift : Bool
  deriving DecidableEq

/-- The record after a call. -/
def Life.after (life : Life) (op : CoreOp) (core : Core) : Life :=
  ⟨core, !core.wal.isEmpty && (life.adrift || life.core.setsOffStop op)⟩

def Life.exec (codec : DecimalCodec) (life : Life) : LifeOp → Except LoadError (LifeReply × Life)
  | .call op => do
      let (reply, core) ← liftPanic (life.core.exec codec op)
      .ok (.answered reply, life.after op core)
  | .restart uuid => do
      let core ← life.core.restart codec uuid
      .ok (.restarted, ⟨core, life.adrift⟩)

/-- The first process, on a path without files. -/
def Life.start (snapshotIntervalTrades : ℕ) : Life := ⟨.withPersistence snapshotIntervalTrades, false⟩

/-! ### What the files hold -/

/-- The snapshot at `path`. -/
def Core.saved (core : Core) : Option EngineSnapshot := core.persistence.bind Persistence.snapshot

/-- A record whose order can be read back. -/
def WalRecord.Readable (codec : DecimalCodec) : WalRecord → Prop
  | .submit _ order => ∃ o, order = orderToSnapshot codec o
  | .cancel _ _ _ => True

theorem appendWal_saved {core logged : Core} {files : CallFiles} {record : WalRecord}
    (h : core.appendWal files record = .ok logged) : logged.saved = core.saved := by
  rw [Core.appendWal] at h
  cases hp : core.persistence with
  | none =>
      rw [hp] at h
      cases h
      rfl
  | some persistence =>
      rw [hp] at h
      cases ha : files.append with
      | some error => simp [ha] at h
      | none =>
          simp only [ha] at h
          cases h
          simp [Core.saved, hp]

/-- A snapshot stays as it is, or is taken of the books. -/
theorem snapshotToDisk_saved (codec : DecimalCodec) (core : Core) (files : CallFiles) :
    (core.snapshotToDisk codec files).2.saved = core.saved ∨
      (core.snapshotToDisk codec files).2.saved = some (core.snapshot codec) := by
  rw [Core.snapshotToDisk]
  cases hp : core.persistence with
  | none => exact Or.inl rfl
  | some persistence =>
      cases files.snapshot with
      | failed => exact Or.inl rfl
      | renamed => exact Or.inr rfl
      | completed => exact Or.inr rfl

theorem afterTrades_saved (codec : DecimalCodec) (core : Core) (files : CallFiles) (count : ℕ) :
    (core.afterTrades codec files count).saved = core.saved ∨
      (core.afterTrades codec files count).saved = some (core.snapshot codec) := by
  rw [Core.afterTrades]
  split
  · rw [Core.recordTradeCount]
    cases hp : core.persistence with
    | none => exact Or.inl rfl
    | some persistence =>
        have hcounted : ∀ n, ({ core with persistence := some { persistence with
            tradesSinceSnapshot := n } } : Core).saved = core.saved := by
          intro n
          simp [Core.saved, hp]
        simp only
        split
        · rw [← hcounted 0]
          exact snapshotToDisk_saved codec _ files
        · exact Or.inl (hcounted _)
  · exact Or.inl rfl

/-- **What a call does to the snapshot**: nothing, or it takes one of the books that it leaves. -/
theorem Served.saved {codec : DecimalCodec} {core core' : Core} {op : CoreOp} {reply : CoreReply}
    (h : Served codec core op reply core') :
    core'.saved = core.saved ∨ core'.saved = some (core'.snapshot codec) := by
  cases h with
  | submitFailed _ => exact Or.inl rfl
  | @submitted files _ symbol _ logged report dropped book append _ _ =>
      have hlogged := appendWal_saved append
      have hbooks := afterTrades_books codec ⟨core.books.insert (normalizeSymbol symbol) book, logged.persistence⟩
        files (tradeCount report dropped)
      rcases afterTrades_saved codec ⟨core.books.insert (normalizeSymbol symbol) book, logged.persistence⟩
        files (tradeCount report dropped) with hkept | htaken
      · exact Or.inl (hkept.trans hlogged)
      · refine Or.inr (htaken.trans ?_)
        rw [Core.snapshot, Core.snapshot, hbooks]
  | cancelFailed _ => exact Or.inl rfl
  | cancelUnknown append _ => exact Or.inl (appendWal_saved append)
  | @cancelled _ _ _ _ logged _ _ _ append _ _ _ _ =>
      have hlogged : logged.saved = core.saved := appendWal_saved append
      exact Or.inl hlogged
  | @snapshot files =>
      rw [Core.snapshot, snapshotToDisk_books]
      exact snapshotToDisk_saved codec core files

/-- The symbols stay normalized. -/
theorem Served.symbols {codec : DecimalCodec} {core core' : Core} {op : CoreOp} {reply : CoreReply}
    (h : Served codec core op reply core') (hsymbols : NormalSymbols core.books) : NormalSymbols core'.books := by
  cases h with
  | submitFailed _ => exact hsymbols
  | submitted _ _ _ =>
      rw [afterTrades_books]
      exact hsymbols.insert _ _
  | cancelFailed _ => exact hsymbols
  | cancelUnknown append _ =>
      rw [appendWal_books append]
      exact hsymbols
  | cancelled _ _ _ _ _ => exact hsymbols.insert _ _
  | snapshot =>
      rw [snapshotToDisk_books]
      exact hsymbols

/-- Every record that a call logs can be read back. -/
theorem CoreOp.readable (codec : DecimalCodec) (op : CoreOp) :
    ∀ record ∈ (op.record? codec).toList, record.Readable codec := by
  intro record hrecord
  rw [Option.mem_toList] at hrecord
  cases op with
  | submitOrder files uuid symbol order =>
      rw [CoreOp.record?] at hrecord
      split at hrecord
      · cases hrecord
        exact ⟨order, rfl⟩
      · cases hrecord
  | cancelOrder files symbol orderId userId =>
      rw [CoreOp.record?] at hrecord
      split at hrecord
      · cases hrecord
        exact trivial
      · cases hrecord
  | snapshotToDisk files => cases hrecord

/-! ### Loading always succeeds -/

/-- **An engine whose files can be loaded.** -/
structure Loadable (codec : DecimalCodec) (core : Core) : Prop where
  inv : CoreInv core
  symbols : NormalSymbols core.books
  persistent : core.persistence.isSome
  snapshot : ∀ snapshot, core.saved = some snapshot →
    ∃ saved : Core, CoreInv saved ∧ NormalSymbols saved.books ∧ snapshot = saved.snapshot codec
  wal : ∀ record ∈ core.wal, record.Readable codec

theorem loadable_start (codec : DecimalCodec) (interval : ℕ) : Loadable codec (.withPersistence interval) where
  inv := coreInv_empty _
  symbols := fun symbol book h => by cases h
  persistent := rfl
  snapshot := fun snapshot h => by cases h
  wal := fun record h => by cases h

/-- **A call keeps the files loadable**, whatever its file operations do. -/
theorem Loadable.step {codec : DecimalCodec} {core core' : Core} {op : CoreOp} {reply : CoreReply}
    (h : Loadable codec core) (hexec : core.exec codec op = .ok (reply, core')) : Loadable codec core' := by
  obtain ⟨hinv, hserved⟩ := core_exec_inv h.inv hexec
  have hsymbols := hserved.symbols h.symbols
  obtain ⟨hsome, hwal⟩ := hserved.wal h.persistent
  refine ⟨hinv, hsymbols, hsome, fun snapshot hsnapshot => ?_, fun record hrecord => ?_⟩
  · rcases hserved.saved with hkept | htaken
    · exact h.snapshot snapshot (hkept.symm.trans hsnapshot)
    · rw [htaken] at hsnapshot
      cases hsnapshot
      exact ⟨core', hinv, hsymbols, rfl⟩
  · rcases hwal with happended | ⟨_, hempty⟩
    · rw [happended, List.mem_append] at hrecord
      exact hrecord.elim (h.wal record) (op.readable codec record)
    · rw [hempty] at hrecord
      cases hrecord

/-- Books that are sound, under normalized symbols. -/
def SoundBooks (books : SortedMap String OrderBook) : Prop :=
  (∀ symbol book, books.find symbol = some book → Inv book) ∧ NormalSymbols books

theorem SoundBooks.bookFor {books : SortedMap String OrderBook} (h : SoundBooks books) (symbol : String) :
    Inv ((books.find symbol).getD .default) := by
  cases hf : books.find symbol with
  | none => exact inv_default
  | some book => exact h.1 symbol book hf

theorem SoundBooks.insert {books : SortedMap String OrderBook} (h : SoundBooks books) (symbol : String)
    {book : OrderBook} (hb : Inv book) : SoundBooks (books.insert (normalizeSymbol symbol) book) := by
  refine ⟨fun s b hf => ?_, h.2.insert symbol book⟩
  rw [SortedMap.find_insert] at hf
  split at hf
  · cases hf
    exact hb
  · exact h.1 s b hf

/-- **Replaying a record** of sound books succeeds and leaves them sound. -/
theorem replayRecord_sound {codec : DecimalCodec} (hcodec : codec.Lawful) (uuid : UuidSource)
    {books : SortedMap String OrderBook} (h : SoundBooks books) {record : WalRecord}
    (hrecord : record.Readable codec) : ∃ books', replayRecord codec uuid books record = .ok books' ∧ SoundBooks books' := by
  cases record with
  | submit symbol order =>
      obtain ⟨o, rfl⟩ := hrecord
      obtain ⟨report, book, hsubmit, hinv, _⟩ := submit_spec uuid (h.bookFor (normalizeSymbol symbol)) o
      refine ⟨_, ?_, h.insert symbol hinv⟩
      simp only [replayRecord, orderFromSnapshot_toSnapshot hcodec, ok_bind, hsubmit, liftPanic]
  | cancel symbol orderId userId =>
      rw [replayRecord]
      cases hf : books.find (normalizeSymbol symbol) with
      | none => exact ⟨books, rfl, h⟩
      | some book =>
          obtain ⟨done, book', hcancel, hinv, _⟩ := cancel_spec (h.1 _ book hf) orderId userId
          refine ⟨_, ?_, h.insert symbol hinv⟩
          simp only [hcancel, liftPanic, ok_bind]

theorem replayWal_sound {codec : DecimalCodec} (hcodec : codec.Lawful) (records : List WalRecord) :
    ∀ (uuid : UuidSource) (books : SortedMap String OrderBook), SoundBooks books →
      (∀ record ∈ records, record.Readable codec) →
      ∃ books', replayWal codec uuid books records = .ok books' ∧ SoundBooks books' := by
  induction records with
  | nil => exact fun uuid books h _ => ⟨books, rfl, h⟩
  | cons record records ih =>
      intro uuid books h hreadable
      obtain ⟨books₁, hrecord, h₁⟩ :=
        replayRecord_sound hcodec uuid.head h (hreadable record List.mem_cons_self)
      obtain ⟨books', hrest, h'⟩ :=
        ih uuid.tail books₁ h₁ fun r hr => hreadable r (List.mem_cons_of_mem _ hr)
      refine ⟨books', ?_, h'⟩
      rw [replayWal, hrecord, ok_bind, hrest]

/-- **Loading succeeds**, and gives sound books. -/
theorem Loadable.load {codec : DecimalCodec} (hcodec : codec.Lawful) {core : Core} (h : Loadable codec core)
    (uuid : UuidSource) : ∃ persistence books, core.persistence = some persistence ∧
      loadBooksFromPersistence codec uuid persistence = .ok books ∧ SoundBooks books := by
  obtain ⟨persistence, hp⟩ := Option.isSome_iff_exists.mp h.persistent
  have hsaved : core.saved = persistence.snapshot := by
    rw [Core.saved, hp]
    rfl
  have hwal : core.wal = persistence.wal := by
    rw [Core.wal, hp]
  have hbase : ∃ base, loadBooksFromSnapshot codec persistence.snapshot = .ok base ∧ SoundBooks base := by
    cases hs : persistence.snapshot with
    | none =>
        refine ⟨.empty, rfl, fun symbol book hf => ?_, fun symbol book hf => ?_⟩
        · cases hf
        · cases hf
    | some snapshot =>
        obtain ⟨saved, hinv, hsymbols, rfl⟩ := h.snapshot snapshot (hsaved.trans hs)
        exact ⟨saved.books, load_snapshot hcodec hinv hsymbols, hinv, hsymbols⟩
  obtain ⟨base, hload, hsound⟩ := hbase
  obtain ⟨books, hreplay, hbooks⟩ := replayWal_sound hcodec persistence.wal uuid base hsound
    fun record hrecord => h.wal record (hwal ▸ hrecord)
  refine ⟨persistence, books, hp, ?_, hbooks⟩
  rw [loadBooksFromPersistence, hload, ok_bind, hreplay]

/-- **A restart succeeds**, and keeps the files loadable. -/
theorem Loadable.restart {codec : DecimalCodec} (hcodec : codec.Lawful) {core : Core} (h : Loadable codec core)
    (uuid : UuidSource) : ∃ core', core.restart codec uuid = .ok core' ∧ Loadable codec core' := by
  obtain ⟨persistence, books, hp, hload, hinv, hsymbols⟩ := h.load hcodec uuid
  refine ⟨⟨books, some { persistence with tradesSinceSnapshot := 0 }⟩, ?_, hinv, hsymbols, rfl, ?_, ?_⟩
  · rw [Core.restart, hp]
    simp only [hload, ok_bind]
  · intro snapshot hsnapshot
    refine h.snapshot snapshot ?_
    rw [Core.saved, hp]
    exact hsnapshot
  · intro record hrecord
    refine h.wal record ?_
    rw [Core.wal, hp]
    exact hrecord

/-- A stop order that is set off, a log that cannot be written to, and a snapshot after which the log is not emptied;
each time the process ends. -/
def roughLife : List LifeOp :=
  stopSetOff.map .call ++ [.restart fun _ => "replayed",
    .call (.submitOrder ⟨some "disk full", .failed⟩ (fun _ => "unused") "BTC-USDT" (Order.limit "bid-2" "u3" .buy 99 1)),
    .restart fun _ => "replayed", .call (.snapshotToDisk ⟨none, .renamed⟩), .restart fun _ => "replayed"]

theorem fillPrices_anon (reports : List ExecutionReport) :
    fillPrices (reports.map ExecutionReport.anon) = fillPrices reports := by
  induction reports with
  | nil => rfl
  | cons report reports ih =>
      have hprices : (report.anon.fills).map Fill.price = report.fills.map Fill.price := by
        simp [ExecutionReport.anon, Fill.anon, Function.comp_def]
      have hcons : ∀ (r : ExecutionReport) rs, fillPrices (r :: rs) = r.fills.map Fill.price ++ fillPrices rs := by
        intro r rs
        simp [fillPrices]
      rw [List.map_cons, hcons, hcons, hprices, ih]

/-- **The cascade commutes with erasing trade identifiers.** -/
theorem cascade_anon (fuel : ℕ) : ∀ (uuid : UuidSource) (book : OrderBook) (prices : List Decimal),
    book.anon.cascade fuel noIds prices
      = (book.cascade fuel uuid prices).map fun r => (r.1.map ExecutionReport.anon, r.2.anon) := by
  induction fuel with
  | zero => exact fun uuid book prices => rfl
  | succ fuel ih =>
      intro uuid book prices
      have hhead : noIds.head = noIds := rfl
      have htail : noIds.tail = noIds := rfl
      rw [OrderBook.cascade, OrderBook.cascade, hhead, htail]
      cases prices.getLast? with
      | none => rfl
      | some lastPrice =>
          simp only [triggerStops_anon uuid.head]
          cases book.triggerStops uuid.head lastPrice with
          | error p => rfl
          | ok r =>
              obtain ⟨triggered, book'⟩ := r
              simp only [Except.map, ok_bind, fillPrices_anon, ih uuid.tail book']
              cases book'.cascade fuel uuid.tail (prices.dropLast ++ fillPrices triggered) with
              | error p => rfl
              | ok q => simp [ok_bind]

/-- **So does a submission with its cascade.** -/
theorem submitAndTrigger_anon (uuid : UuidSource) (book : OrderBook) (order : Order) :
    book.anon.submitAndTrigger noIds order
      = (book.submitAndTrigger uuid order).map
          fun r => (r.1.anon, r.2.1.map ExecutionReport.anon, r.2.2.anon) := by
  have hhead : noIds.head = noIds := rfl
  have htail : noIds.tail = noIds := rfl
  rw [OrderBook.submitAndTrigger, OrderBook.submitAndTrigger, hhead, htail, submit_anon uuid.head]
  cases book.submit uuid.head order with
  | error p => rfl
  | ok r =>
      obtain ⟨report, middle⟩ := r
      have hprices : fillPrices [report.anon] = fillPrices [report] := fillPrices_anon [report]
      have hfuel : ∀ prices, middle.anon.cascadeFuel prices = middle.cascadeFuel prices := fun _ => rfl
      simp only [Except.map, anonResult, ok_bind, hprices, hfuel, cascade_anon _ uuid.tail middle]
      cases middle.cascade (middle.cascadeFuel (fillPrices [report])) uuid.tail (fillPrices [report]) with
      | error p => rfl
      | ok q => rfl

/-- An answer without trade identifiers. -/
def CoreReply.anon : CoreReply → CoreReply
  | .submitted report dropped => .submitted report.anon (dropped.map ExecutionReport.anon)
  | .cancelled done => .cancelled done
  | .snapshot completed => .snapshot completed

/-! ### An engine that is restarted and one that is not -/

theorem SameBooks.symm {books books' : SortedMap String OrderBook} (h : SameBooks books books') :
    SameBooks books' books := fun symbol => (h symbol).symm

theorem SameBooks.trans {books books' books'' : SortedMap String OrderBook} (h : SameBooks books books')
    (h' : SameBooks books' books'') : SameBooks books books'' := fun symbol => (h symbol).trans (h' symbol)

theorem Core.appendWal_working (core : Core) (record : WalRecord) :
    ∃ logged, core.appendWal filesOk record = .ok logged ∧ logged.books = core.books ∧
      (core.persistence = none → logged.persistence = none) := by
  rw [Core.appendWal]
  cases hp : core.persistence with
  | none => exact ⟨core, rfl, rfl, fun _ => hp⟩
  | some persistence => exact ⟨_, rfl, rfl, fun h => by cases h⟩

/-- **Engines with the same books answer alike**, one with working files and one without files. -/
theorem exec_same {codec : DecimalCodec} {core core' t : Core} {op : CoreOp} {reply : CoreReply}
    (hfiles : op.files = filesOk) (hmemory : core'.persistence = none) (hsame : SameBooks core.books core'.books)
    (h : core.exec codec op = .ok (reply, t)) :
    ∃ reply' t', core'.exec codec op = .ok (reply', t') ∧ reply.anon = reply'.anon ∧
      SameBooks t.books t'.books ∧ t'.persistence = none := by
  cases op with
  | submitOrder files uuid symbol order =>
      obtain rfl : files = filesOk := hfiles
      obtain ⟨logged, happend, hbooks, _⟩ :=
        core.appendWal_working (.submit (normalizeSymbol symbol) (orderToSnapshot codec order))
      obtain ⟨logged', happend', hbooks', hnone⟩ :=
        core'.appendWal_working (.submit (normalizeSymbol symbol) (orderToSnapshot codec order))
      have hbook : (logged.bookFor symbol).anon = (logged'.bookFor symbol).anon := by
        rw [Core.bookFor, Core.bookFor, hbooks, hbooks']
        exact hsame.bookFor (normalizeSymbol symbol)
      have htrade := submitAndTrigger_anon uuid (logged'.bookFor symbol) order
      rw [← hbook, submitAndTrigger_anon uuid (logged.bookFor symbol) order] at htrade
      rw [exec_submit happend] at h
      rw [exec_submit happend']
      obtain ⟨⟨report, dropped, book⟩, hleft, hreturned⟩ := bind_eq_ok.mp h
      cases hreturned
      cases hright : (logged'.bookFor symbol).submitAndTrigger uuid order with
      | error p =>
          rw [hleft, hright] at htrade
          cases htrade
      | ok r =>
          obtain ⟨report', dropped', book'⟩ := r
          rw [hleft, hright] at htrade
          obtain ⟨hreport, hrest⟩ := Prod.mk.inj (Except.ok.inj htrade)
          obtain ⟨hdropped, hbook'⟩ := Prod.mk.inj hrest
          refine ⟨.submitted report' dropped', _, rfl, ?_, ?_, ?_⟩
          · rw [CoreReply.anon, CoreReply.anon, hreport, hdropped]
          · rw [afterTrades_books, afterTrades_books, hbooks, hbooks']
            exact hsame.insert _ hbook'
          · rw [hnone hmemory, afterTrades_memory codec _ _ rfl]
  | cancelOrder files symbol orderId userId =>
      obtain rfl : files = filesOk := hfiles
      obtain ⟨logged, happend, hbooks, _⟩ :=
        core.appendWal_working (.cancel (normalizeSymbol symbol) orderId userId)
      obtain ⟨logged', happend', hbooks', hnone⟩ :=
        core'.appendWal_working (.cancel (normalizeSymbol symbol) orderId userId)
      have hsymbol := hsame (normalizeSymbol symbol)
      rw [exec_cancel happend, hbooks] at h
      rw [exec_cancel happend', hbooks']
      cases hknown : core.books.find (normalizeSymbol symbol) with
      | none =>
          rw [hknown, Option.map_none, eq_comm, Option.map_eq_none_iff] at hsymbol
          rw [hknown] at h
          cases h
          refine ⟨.cancelled false, logged', ?_, rfl, ?_, hnone hmemory⟩
          · rw [hsymbol]
          · rw [hbooks, hbooks']
            exact hsame
      | some book =>
          rw [hknown, Option.map_some, eq_comm, Option.map_eq_some_iff] at hsymbol
          obtain ⟨book', hknown', hbook⟩ := hsymbol
          rw [hknown] at h
          obtain ⟨⟨done, book₁⟩, hleft, hreturned⟩ := bind_eq_ok.mp h
          cases hreturned
          obtain ⟨book₁', hright, hbook₁⟩ := cancel_same hbook.symm hleft
          refine ⟨.cancelled done, ⟨core'.books.insert (normalizeSymbol symbol) book₁', none⟩, ?_, rfl,
            hsame.insert _ hbook₁, rfl⟩
          simp only [hknown', hright, ok_bind, hnone hmemory]
  | snapshotToDisk files =>
      obtain rfl : files = filesOk := hfiles
      cases h
      refine ⟨.snapshot true, core', ?_, ?_, ?_, hmemory⟩
      · rw [Core.exec, Core.snapshotToDisk, hmemory]
      · rw [Core.snapshotToDisk]
        cases core.persistence <;> rfl
      · rw [snapshotToDisk_books]
        exact hsame

/-- The calls among calls and restarts. -/
def callsOf : List LifeOp → List CoreOp
  | [] => []
  | .call op :: ops => op :: callsOf ops
  | .restart _ :: ops => callsOf ops

/-- The answers to calls, without trade identifiers. -/
def answersOf : List LifeReply → List CoreReply
  | [] => []
  | .answered reply :: replies => reply.anon :: answersOf replies
  | .restarted :: replies => answersOf replies

theorem callsOf_append (ops ops' : List LifeOp) : callsOf (ops ++ ops') = callsOf ops ++ callsOf ops' := by
  induction ops with
  | nil => rfl
  | cons op ops ih => cases op <;> simp [callsOf, ih]

theorem answersOf_append (replies replies' : List LifeReply) :
    answersOf (replies ++ replies') = answersOf replies ++ answersOf replies' := by
  induction replies with
  | nil => rfl
  | cons reply replies ih => cases reply <;> simp [answersOf, ih]

/-- **No stop order is lost**: the engine is not restarted while one that was set off is only in memory. -/
def KeepsStops (life : Life) : LifeOp → Prop
  | .call _ => True
  | .restart _ => life.adrift = false

instance (life : Life) : DecidablePred (KeepsStops life)
  | .call _ => inferInstanceAs (Decidable True)
  | .restart _ => inferInstanceAs (Decidable (_ = _))

/-- **An engine with files, after some calls and restarts, resembles one without**, after the calls. -/
structure Resembles (codec : DecimalCodec) (ops : List LifeOp) (replies : List LifeReply) (life : Life) : Prop where
  loadable : Loadable codec life.core
  durable : Durable codec life.core
  recovers : life.adrift = false → Recovers codec life.core
  reference : ∃ replies' core', coreRun codec .new (callsOf ops) = .ok (replies', core') ∧
    answersOf replies = replies'.map CoreReply.anon ∧ SameBooks life.core.books core'.books ∧
    core'.persistence = none

theorem resembles_start (codec : DecimalCodec) (interval : ℕ) : Resembles codec [] [] (.start interval) where
  loadable := loadable_start codec interval
  durable := durable_start codec interval
  recovers := fun _ => (durable_start codec interval).recovers fun persistence hp => by
    cases hp
    rfl
  reference := ⟨[], .new, rfl, rfl, fun _ => rfl, rfl⟩

/-- **A call** is answered as in memory; it leaves the books recoverable unless it sets off a stop order, and
makes them so where it empties the log. -/
theorem Resembles.call {codec : DecimalCodec} (hcodec : codec.Lawful) {ops : List LifeOp} {replies : List LifeReply}
    {life life' : Life} {op : CoreOp} {reply : LifeReply} (h : Resembles codec ops replies life)
    (hfiles : op.files = filesOk) (hexec : life.exec codec (.call op) = .ok (reply, life')) :
    Resembles codec (ops ++ [.call op]) (replies ++ [reply]) life' := by
  obtain ⟨answer, core, hcall, _⟩ := core_exec_spec codec h.loadable.inv op
  simp only [Life.exec, hcall, liftPanic, ok_bind] at hexec
  cases hexec
  obtain ⟨hinv, hserved⟩ := core_exec_inv h.loadable.inv hcall
  have hdurable := h.durable.step hcodec hfiles hinv hserved
  refine ⟨h.loadable.step hcall, hdurable, fun hadrift => ?_, ?_⟩
  · rw [Life.after, Bool.and_eq_false_iff, Bool.not_eq_false', List.isEmpty_iff] at hadrift
    rcases hadrift with hempty | hcalm
    · refine hdurable.recovers fun persistence hp => ?_
      have hwal : core.wal = persistence.wal := by
        rw [Core.wal, show core.persistence = some persistence from hp]
      exact hwal.symm.trans hempty
    · obtain ⟨hbefore, hquiet⟩ := Bool.or_eq_false_iff.mp hcalm
      exact (h.recovers hbefore).step hcodec h.durable hdurable hfiles hquiet hserved
  · obtain ⟨replies', core', hrun, hanswers, hsame, hmemory⟩ := h.reference
    obtain ⟨answer', core'', hexec', hanswer, hsame', hmemory'⟩ := exec_same hfiles hmemory hsame hcall
    refine ⟨replies' ++ [answer'], core'', ?_, ?_, hsame', hmemory'⟩
    · rw [callsOf_append]
      exact Machine.run_snoc.mpr ⟨replies', core', answer', hrun, hexec', rfl⟩
    · rw [answersOf_append, hanswers, List.map_append]
      simp [answersOf, hanswer]

/-- **A restart** from recoverable books leads to the same books. -/
theorem Resembles.restart {codec : DecimalCodec} (hcodec : codec.Lawful) {ops : List LifeOp}
    {replies : List LifeReply} {life life' : Life} {uuid : UuidSource} {reply : LifeReply}
    (h : Resembles codec ops replies life) (hkeeps : life.adrift = false)
    (hexec : life.exec codec (.restart uuid) = .ok (reply, life')) :
    Resembles codec (ops ++ [.restart uuid]) (replies ++ [reply]) life' := by
  obtain ⟨persistence, hp⟩ := Option.isSome_iff_exists.mp h.loadable.persistent
  obtain ⟨core, hrestart, hloadable⟩ := h.loadable.restart hcodec uuid
  obtain ⟨books, hload, hsame⟩ := (h.recovers hkeeps).load hp uuid
  have hcore : core = ⟨books, some { persistence with tradesSinceSnapshot := 0 }⟩ := by
    rw [Core.restart, hp] at hrestart
    simp only [hload, ok_bind] at hrestart
    exact (Except.ok.inj hrestart).symm
  simp only [Life.exec, hrestart, ok_bind] at hexec
  cases hexec
  subst hcore
  have hreload : ∀ uuid', ∃ books', loadBooksFromPersistence codec uuid' { persistence with tradesSinceSnapshot := 0 }
      = .ok books' ∧ SameBooks books' books := by
    intro uuid'
    obtain ⟨books', hload', hsame'⟩ := (h.recovers hkeeps).load hp uuid'
    exact ⟨books', (load_congr codec uuid' rfl rfl).trans hload', hsame'.trans hsame.symm⟩
  refine ⟨hloadable, ⟨hloadable.inv, hloadable.symbols, _, rfl, fun hempty => ?_⟩, fun _ uuid' => hreload uuid', ?_⟩
  · -- an empty log: the snapshot is what has just been loaded
    have hwal : persistence.wal = [] := hempty
    rw [loadBooksFromPersistence, hwal] at hload
    obtain ⟨base, hbase, hreplay⟩ := bind_eq_ok.mp hload
    cases hreplay
    exact hbase
  · obtain ⟨replies', core', hrun, hanswers, hsame', hmemory⟩ := h.reference
    refine ⟨replies', core', ?_, ?_, hsame.trans hsame', hmemory⟩
    · rw [callsOf_append, callsOf, callsOf, List.append_nil]
      exact hrun
    · rw [answersOf_append, answersOf, answersOf, List.append_nil]
      exact hanswers

/-- Two bids and a cancellation, with a restart after each. -/
def bidsAcrossRestarts : List LifeOp :=
  bidsAndCancel.flatMap fun op => [.call op, .restart fun _ => "replayed"]

end NexusTrade.MatchingEngine
