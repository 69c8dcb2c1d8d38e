import NexusTrade.Lib.Run
import NexusTrade.Wallet.Service

/-!
# Balance writes

What the wallet service does to balances, without its ledgers: each call is a list of writes, made one
after another until one is refused.  A write adds an amount to one balance of one wallet, and may refuse
a sum below zero.

* **`applyWrite`** makes one write, **`writeUntil`** a list of them;
* **`WalletOp.memoryWrites`** and **`WalletOp.typeOrmWrites`** are the writes of a call in each path;
* **`memory_exec_writes`** and **`database_exec_writes`**: the bodies of the service make these writes;
* **`SoundWrite`** is the condition under which a write keeps balances finite and not negative, and
  **`sound_writeUntil`** carries it through a list of writes.
-/

namespace NexusTrade.Wallet

open Extended (Balance)

variable {κ : Type} [LinearOrder κ]

/-! ### One write -/

@[simp] theorem WalletEntity.get_set_self (wallet : WalletEntity) (bucket : Bucket) (amount : Amount) :
    (wallet.set bucket amount).get bucket = amount := by
  cases bucket <;> rfl

/-- The other balance stays. -/
theorem WalletEntity.get_set_ne (wallet : WalletEntity) {bucket other : Bucket} (hne : bucket ≠ other)
    (amount : Amount) : (wallet.set bucket amount).get other = wallet.get other := by
  cases bucket <;> cases other <;> first | rfl | exact absurd rfl hne

/-- A write to a balance; the label is that of the check that refuses a sum below zero, if there is
one. -/
structure Write (κ : Type) where
  key : κ
  bucket : Bucket
  amount : Amount
  check : Option String
  deriving DecidableEq

/-- The balances of a wallet, zero where there is none. -/
def walletAt (balances : SortedMap κ WalletEntity) (key : κ) : WalletEntity :=
  (balances.find key).getD .zero

/-- `getBalance`. -/
def WalletService.getBalance (service : WalletService) (userId asset : String) : WalletEntity :=
  match service.dataSource with
  | some db => walletAt db.wallets (Database.rowKey userId asset)
  | none => service.memory.current userId asset

theorem assertNonNegative_ok {value : Amount} {label : String} :
    assertNonNegative value label = .ok () ↔ value.ltZero = false := by
  rw [assertNonNegative]
  cases value.ltZero with
  | false => exact iff_of_true rfl rfl
  | true => exact iff_of_false (fun h => nomatch h) fun h => nomatch h

/-- The balance a write would leave. -/
def Write.next (round : Rounding) (balances : SortedMap κ WalletEntity) (write : Write κ) : Amount :=
  Amount.add round ((walletAt balances write.key).get write.bucket) write.amount

/-- The check of a write. -/
def Write.verify (round : Rounding) (balances : SortedMap κ WalletEntity) (write : Write κ) :
    Except WalletError Unit :=
  match write.check with
  | none => .ok ()
  | some label => assertNonNegative (write.next round balances) label

/-- Make one write. -/
def applyWrite (round : Rounding) (column : Column) (balances : SortedMap κ WalletEntity)
    (write : Write κ) : Except WalletError (Unit × SortedMap κ WalletEntity) :=
  let wallet := walletAt balances write.key
  match write.verify round balances with
  | .error e => .error e
  | .ok _ =>
    match storeChanged column (wallet.get write.bucket) (write.next round balances) with
    | none => .error .database
    | some stored => .ok ((), balances.insert write.key (wallet.set write.bucket stored))

theorem applyWrite_eq_ok {round : Rounding} {column : Column}
    {balances balances' : SortedMap κ WalletEntity} {write : Write κ} {u : Unit} :
    applyWrite round column balances write = .ok (u, balances') ↔
      write.verify round balances = .ok () ∧
        ∃ stored, storeChanged column ((walletAt balances write.key).get write.bucket)
            (write.next round balances) = some stored ∧
          balances' = balances.insert write.key
            ((walletAt balances write.key).set write.bucket stored) := by
  rw [applyWrite]
  cases hverify : write.verify round balances with
  | error e =>
      simp only
      exact iff_of_false (fun h => nomatch h) fun h => nomatch h.1
  | ok _ =>
      simp only
      cases hstore : storeChanged column ((walletAt balances write.key).get write.bucket)
          (write.next round balances) with
      | none => exact iff_of_false (fun h => nomatch h) fun ⟨_, _, h, _⟩ => nomatch h
      | some stored =>
          constructor
          · intro h
            cases h
            exact ⟨trivial, stored, rfl, rfl⟩
          · rintro ⟨_, _, h, rfl⟩
            cases h
            rfl

/-- The balances after the writes up to the first that is refused. -/
def writeUntil (round : Rounding) (column : Column) :
    SortedMap κ WalletEntity → List (Write κ) → SortedMap κ WalletEntity
  | balances, [] => balances
  | balances, write :: writes =>
    match applyWrite round column balances write with
    | .error _ => balances
    | .ok (_, balances) => writeUntil round column balances writes

/-- Where no write is refused, these are the balances at the end of the run. -/
theorem writeUntil_of_run {round : Rounding} {column : Column} (writes : List (Write κ)) :
    ∀ (balances balances' : SortedMap κ WalletEntity) (units : List Unit),
      Machine.run (applyWrite round column) balances writes = .ok (units, balances') →
      writeUntil round column balances writes = balances' := by
  induction writes with
  | nil =>
      intro balances balances' units hrun
      cases hrun
      rfl
  | cons write writes ih =>
      intro balances balances' units hrun
      obtain ⟨_, middle, rest, happly, hrest, _⟩ := Machine.run_cons_ok.mp hrun
      rw [writeUntil, happly]
      exact ih middle balances' rest hrest

/-! ### Sound writes -/

/-- Every balance is finite and not negative. -/
def Sound (balances : SortedMap κ WalletEntity) : Prop :=
  ∀ key wallet, balances.find key = some wallet → Balance wallet.available ∧ Balance wallet.locked

/-- **A sound write**: with a check the amount is neither `nan` nor positive infinity; without one it is
finite and does not take the balance below zero; and the sum does not overflow. -/
def SoundWrite (round : Rounding) (balances : SortedMap κ WalletEntity) (write : Write κ) : Prop :=
  let balance := (walletAt balances write.key).get write.bucket
  match write.check with
  | none => Extended.safeUnchecked round balance write.amount = true
  | some _ => Extended.safeChecked round balance write.amount = true

instance (round : Rounding) (balances : SortedMap κ WalletEntity) (write : Write κ) :
    Decidable (SoundWrite round balances write) := by
  unfold SoundWrite
  cases write.check <;> infer_instance

theorem Sound.walletAt {balances : SortedMap κ WalletEntity} (h : Sound balances) (key : κ)
    (bucket : Bucket) : Balance ((walletAt balances key).get bucket) := by
  rw [Wallet.walletAt]
  cases hf : balances.find key with
  | none => cases bucket <;> exact le_refl (0 : ℚ)
  | some wallet =>
      cases bucket with
      | available => exact (h key wallet hf).1
      | locked => exact (h key wallet hf).2

theorem Sound.insert {balances : SortedMap κ WalletEntity} (h : Sound balances) (key : κ)
    {wallet : WalletEntity} (hw : ∀ bucket, Balance (wallet.get bucket)) :
    Sound (balances.insert key wallet) := by
  intro k w hf
  rw [SortedMap.find_insert] at hf
  split at hf
  · cases hf
    exact ⟨hw .available, hw .locked⟩
  · exact h k w hf

/-- What a sound write that passes its check leaves is a balance. -/
theorem SoundWrite.next {round : Rounding} (hround : Extended.TowardZero round)
    {balances : SortedMap κ WalletEntity} {write : Write κ} (h : Sound balances)
    (hsound : SoundWrite round balances write) (hverify : write.verify round balances = .ok ()) :
    Balance (write.next round balances) := by
  rw [SoundWrite] at hsound
  rw [Write.verify] at hverify
  cases hcheck : write.check with
  | none =>
      simp only [hcheck] at hsound
      exact Extended.balance_of_unchecked hround hsound
  | some label =>
      simp only [hcheck] at hsound hverify
      refine Extended.balance_of_checked hround (h.walletAt _ _) hsound ?_
      rw [← Bool.not_eq_true]
      intro hneg
      have hrefused : assertNonNegative (write.next round balances) label
          = .error (.error (label ++ " must be non-negative")) := if_pos hneg
      rw [hrefused] at hverify
      cases hverify

/-- **A sound write keeps balances sound.** -/
theorem Sound.applyWrite {round : Rounding} {column : Column} (hround : Extended.TowardZero round)
    (hcolumn : column.Keeps) {balances balances' : SortedMap κ WalletEntity} {write : Write κ}
    {u : Unit} (h : Sound balances) (hsound : SoundWrite round balances write)
    (happly : applyWrite round column balances write = .ok (u, balances')) : Sound balances' := by
  obtain ⟨hverify, stored, hstore, rfl⟩ := applyWrite_eq_ok.mp happly
  have hnext := hsound.next hround h hverify
  have hstored : Balance stored := by
    rw [storeChanged] at hstore
    split at hstore
    · cases hstore
      exact h.walletAt _ _
    · exact hcolumn.balance _ _ hstore hnext
  refine h.insert write.key fun bucket => ?_
  have hother := h.walletAt write.key bucket
  cases hb : write.bucket with
  | available =>
      cases bucket with
      | available => exact hstored
      | locked => exact hother
  | locked =>
      cases bucket with
      | available => exact hother
      | locked => exact hstored

/-- **Sound writes keep balances sound**, also where one of them is refused. -/
theorem sound_writeUntil {round : Rounding} {column : Column} (hround : Extended.TowardZero round)
    (hcolumn : column.Keeps) (writes : List (Write κ)) :
    ∀ balances : SortedMap κ WalletEntity, Sound balances →
      Machine.Along (applyWrite round column) (SoundWrite round) balances writes →
      Sound (writeUntil round column balances writes) := by
  induction writes with
  | nil => exact fun balances h _ => h
  | cons write writes ih =>
      intro balances h halong
      rw [writeUntil]
      cases happly : Wallet.applyWrite round column balances write with
      | error e => exact h
      | ok r =>
          obtain ⟨u, balances'⟩ := r
          exact ih balances' (h.applyWrite hround hcolumn halong.1 happly)
            (halong.2 u balances' happly)

/-! ### The writes of a call -/

/-- The writes of the legs of a settlement. -/
def legWrites (key : String → String → κ) (legs : List BalanceLeg) : List (Write κ) :=
  legs.map fun leg => ⟨key leg.userId leg.asset, leg.bucket, leg.amount,
    some (balanceLabel leg.userId leg.asset leg.bucket)⟩

/-- The writes of a call in the memory path. -/
def WalletOp.memoryWrites (round : Rounding) : WalletOp → List (Write String)
  | .credit dto _ => [⟨balanceKey dto.userId dto.asset, .available, dto.amount, none⟩]
  | .debit dto _ =>
    [⟨balanceKey dto.userId dto.asset, .available, dto.amount.negated, some "available"⟩]
  | .lock dto =>
    [⟨balanceKey dto.userId dto.asset, .available, dto.amount.negated, some "available"⟩,
      ⟨balanceKey dto.userId dto.asset, .locked, dto.amount, none⟩]
  | .unlock dto =>
    [⟨balanceKey dto.userId dto.asset, .locked, dto.amount.negated, some "locked"⟩,
      ⟨balanceKey dto.userId dto.asset, .available, dto.amount, none⟩]
  | .internalTransfer dto toUserId =>
    [⟨balanceKey dto.userId dto.asset, .available, dto.amount.negated, some "available"⟩,
      ⟨balanceKey toUserId dto.asset, .available, dto.amount, none⟩]
  | .settleTrade dto => legWrites balanceKey (settlementLegs round dto)

/-- The write of `adjustAvailable` or `adjustLocked`. -/
def adjustWrite (bucket : Bucket) (userId asset : String) (amount : Amount) :
    Write (String ×ₗ String) :=
  ⟨Database.rowKey userId asset, bucket, amount, some (balanceLabel userId asset bucket)⟩

/-- The writes of a call in the TypeORM path. -/
def WalletOp.typeOrmWrites (round : Rounding) : WalletOp → List (Write (String ×ₗ String))
  | .credit dto _ => [adjustWrite .available dto.userId dto.asset dto.amount]
  | .debit dto _ => [adjustWrite .available dto.userId dto.asset dto.amount.negated]
  | .lock dto =>
    [adjustWrite .available dto.userId dto.asset dto.amount.negated,
      ⟨Database.rowKey dto.userId dto.asset, .locked, dto.amount, none⟩]
  | .unlock dto =>
    [adjustWrite .locked dto.userId dto.asset dto.amount.negated,
      ⟨Database.rowKey dto.userId dto.asset, .available, dto.amount, none⟩]
  | .internalTransfer dto toUserId =>
    [adjustWrite .available dto.userId dto.asset dto.amount.negated,
      adjustWrite .available toUserId dto.asset dto.amount]
  | .settleTrade dto => legWrites Database.rowKey (settlementLegs round dto)

/-! ### The memory path makes its writes -/

theorem storeChanged_some (old next : Amount) : storeChanged some old next = some next := by
  rw [storeChanged]
  split
  · rename_i h
    rw [h]
  · rfl

@[simp] theorem walletAt_insert (balances : SortedMap κ WalletEntity) (key : κ) (wallet : WalletEntity) :
    walletAt (balances.insert key wallet) key = wallet := by
  rw [walletAt, SortedMap.find_insert, if_pos rfl]
  rfl

/-- A write in memory that its check refuses. -/
theorem writeUntil_refused {round : Rounding} {balances : SortedMap κ WalletEntity} {write : Write κ}
    {writes : List (Write κ)} {e : WalletError} (h : write.verify round balances = .error e) :
    writeUntil round some balances (write :: writes) = balances := by
  rw [writeUntil, applyWrite, h]

/-- A write in memory that its check passes. -/
theorem applyWrite_written {round : Rounding} {balances : SortedMap κ WalletEntity} {write : Write κ}
    (h : write.verify round balances = .ok ()) :
    applyWrite round some balances write = .ok ((), balances.insert write.key
      ((walletAt balances write.key).set write.bucket (write.next round balances))) := by
  rw [applyWrite, h]
  simp only [storeChanged_some]

/-- A write in memory that is made. -/
theorem writeUntil_written {round : Rounding} {balances : SortedMap κ WalletEntity} {write : Write κ}
    {writes : List (Write κ)} (h : write.verify round balances = .ok ()) :
    writeUntil round some balances (write :: writes)
      = writeUntil round some (balances.insert write.key
          ((walletAt balances write.key).set write.bucket (write.next round balances))) writes := by
  rw [writeUntil, applyWrite_written h]

/-- Two writes in memory to one wallet, the second without a check. -/
theorem writeUntil_pair {round : Rounding} {balances : SortedMap κ WalletEntity} {key : κ}
    {bucket other : Bucket} {first second : Amount} {check : Option String}
    (h : (Write.mk key bucket first check).verify round balances = .ok ()) :
    writeUntil round some balances [⟨key, bucket, first, check⟩, ⟨key, other, second, none⟩]
      = balances.insert key
          (((walletAt balances key).set bucket
              (Amount.add round ((walletAt balances key).get bucket) first)).set other
            (Amount.add round (((walletAt balances key).set bucket
              (Amount.add round ((walletAt balances key).get bucket) first)).get other) second)) := by
  rw [writeUntil_written h, writeUntil_written rfl]
  simp only [writeUntil, Write.next, walletAt_insert, SortedMap.insert_insert]

theorem settleLegs_writes (round : Rounding) (referenceId : String) (legs : List BalanceLeg) :
    ∀ memory : Memory, (memory.settleLegs round referenceId legs).2.balances
      = writeUntil round some memory.balances (legWrites balanceKey legs) := by
  induction legs with
  | nil => exact fun memory => rfl
  | cons leg legs ih =>
      intro memory
      rw [legWrites, List.map_cons, Memory.settleLegs, Memory.settleLeg]
      cases hverify : assertNonNegative (Amount.add round
          ((memory.current leg.userId leg.asset).get leg.bucket) leg.amount)
          (balanceLabel leg.userId leg.asset leg.bucket) with
      | error e => exact Eq.symm (writeUntil_refused (by exact hverify))
      | ok _ => exact (ih _).trans (Eq.symm (writeUntil_written (by exact hverify)))

/-- **The bodies of the memory path make the writes of the call.** -/
theorem memory_exec_writes (round : Rounding) (memory : Memory) (op : WalletOp) :
    (memory.exec round op).2.balances
      = writeUntil round some memory.balances (op.memoryWrites round) := by
  cases op with
  | credit dto type => exact Eq.symm (writeUntil_written (by rfl))
  | debit dto type =>
      rw [Memory.exec, Memory.debit]
      cases hverify : assertNonNegative (Amount.subtract round
          (memory.current dto.userId dto.asset).available dto.amount) "available" with
      | error e => exact Eq.symm (writeUntil_refused (by exact hverify))
      | ok _ => exact Eq.symm (writeUntil_written (by exact hverify))
  | lock dto =>
      rw [Memory.exec, Memory.lock]
      cases hverify : assertNonNegative (Amount.subtract round
          (memory.current dto.userId dto.asset).available dto.amount) "available" with
      | error e => exact Eq.symm (writeUntil_refused (by exact hverify))
      | ok _ => exact Eq.symm (writeUntil_pair (by exact hverify))
  | unlock dto =>
      rw [Memory.exec, Memory.unlock]
      cases hverify : assertNonNegative (Amount.subtract round
          (memory.current dto.userId dto.asset).locked dto.amount) "locked" with
      | error e => exact Eq.symm (writeUntil_refused (by exact hverify))
      | ok _ => exact Eq.symm (writeUntil_pair (by exact hverify))
  | internalTransfer dto toUserId =>
      rw [Memory.exec, Memory.internalTransfer]
      cases hverify : assertNonNegative (Amount.subtract round
          (memory.current dto.userId dto.asset).available dto.amount) "available" with
      | error e => exact Eq.symm (writeUntil_refused (by exact hverify))
      | ok _ => exact Eq.symm ((writeUntil_written (by exact hverify)).trans (writeUntil_written (by rfl)))
  | settleTrade dto =>
      rw [Memory.exec, Memory.settleTrade, WalletOp.memoryWrites,
        ← settleLegs_writes round dto.referenceId]
      cases memory.settleLegs round dto.referenceId (settlementLegs round dto) with
      | mk result memory' =>
          cases result with
          | error e => rfl
          | ok _ => rfl

/-- Writes in memory of which only the first is checked. -/
theorem memory_run_returns {round : Rounding} {write : Write κ} {writes : List (Write κ)}
    (hunchecked : ∀ w ∈ writes, w.check = none) {balances : SortedMap κ WalletEntity}
    (h : write.verify round balances = .ok ()) :
    ∃ units balances', Machine.run (applyWrite round some) balances (write :: writes)
      = .ok (units, balances') := by
  induction writes generalizing write balances with
  | nil => exact ⟨_, _, Machine.run_cons_ok.mpr ⟨_, _, [], applyWrite_written h, rfl, rfl⟩⟩
  | cons next writes ih =>
      have hnext : next.verify round (balances.insert write.key ((walletAt balances write.key).set
          write.bucket (write.next round balances))) = .ok () := by
        rw [Write.verify, hunchecked next List.mem_cons_self]
      obtain ⟨units, balances', hrun⟩ := ih (fun w hw => hunchecked w (List.mem_cons_of_mem next hw)) hnext
      exact ⟨_, balances', Machine.run_cons_ok.mpr ⟨_, _, units, applyWrite_written h, hrun, rfl⟩⟩

theorem settleLegs_run (round : Rounding) (referenceId : String) (legs : List BalanceLeg) :
    ∀ memory : Memory, (memory.settleLegs round referenceId legs).1 = .ok () →
      ∃ units balances', Machine.run (applyWrite round some) memory.balances (legWrites balanceKey legs)
        = .ok (units, balances') := by
  induction legs with
  | nil => exact fun memory _ => ⟨[], memory.balances, rfl⟩
  | cons leg legs ih =>
      intro memory hreturns
      rw [Memory.settleLegs, Memory.settleLeg] at hreturns
      rw [legWrites, List.map_cons]
      cases hverify : assertNonNegative (Amount.add round
          ((memory.current leg.userId leg.asset).get leg.bucket) leg.amount)
          (balanceLabel leg.userId leg.asset leg.bucket) with
      | error e =>
          rw [hverify] at hreturns
          cases hreturns
      | ok _ =>
          rw [hverify] at hreturns
          obtain ⟨units, balances', hrun⟩ := ih _ hreturns
          exact ⟨_, balances', Machine.run_cons_ok.mpr
            ⟨_, _, units, applyWrite_written (by exact hverify), hrun, rfl⟩⟩

/-- **A call in memory that returns has made all its writes.** -/
theorem memory_exec_run {round : Rounding} {memory : Memory} {op : WalletOp} {reply : WalletReply}
    (h : (memory.exec round op).1 = .ok reply) :
    ∃ units, Machine.run (applyWrite round some) memory.balances (op.memoryWrites round)
      = .ok (units, (memory.exec round op).2.balances) := by
  suffices hrun : ∃ units balances', Machine.run (applyWrite round some) memory.balances
      (op.memoryWrites round) = .ok (units, balances') by
    obtain ⟨units, balances', hrun⟩ := hrun
    refine ⟨units, ?_⟩
    rw [memory_exec_writes, writeUntil_of_run _ _ _ _ hrun, hrun]
  cases op with
  | credit dto type => exact memory_run_returns (List.forall_mem_nil _) rfl
  | debit dto type =>
      rw [Memory.exec, Memory.debit] at h
      cases hverify : assertNonNegative (Amount.subtract round
          (memory.current dto.userId dto.asset).available dto.amount) "available" with
      | error e => simp only [hverify] at h; cases h
      | ok _ => exact memory_run_returns (List.forall_mem_nil _) (by exact hverify)
  | lock dto =>
      rw [Memory.exec, Memory.lock] at h
      cases hverify : assertNonNegative (Amount.subtract round
          (memory.current dto.userId dto.asset).available dto.amount) "available" with
      | error e => simp only [hverify] at h; cases h
      | ok _ => exact memory_run_returns (List.forall_mem_singleton.mpr rfl) (by exact hverify)
  | unlock dto =>
      rw [Memory.exec, Memory.unlock] at h
      cases hverify : assertNonNegative (Amount.subtract round
          (memory.current dto.userId dto.asset).locked dto.amount) "locked" with
      | error e => simp only [hverify] at h; cases h
      | ok _ => exact memory_run_returns (List.forall_mem_singleton.mpr rfl) (by exact hverify)
  | internalTransfer dto toUserId =>
      rw [Memory.exec, Memory.internalTransfer] at h
      cases hverify : assertNonNegative (Amount.subtract round
          (memory.current dto.userId dto.asset).available dto.amount) "available" with
      | error e => simp only [hverify] at h; cases h
      | ok _ => exact memory_run_returns (List.forall_mem_singleton.mpr rfl) (by exact hverify)
  | settleTrade dto =>
      refine settleLegs_run round dto.referenceId _ memory ?_
      rw [Memory.exec, Memory.settleTrade] at h
      revert h
      cases memory.settleLegs round dto.referenceId (settlementLegs round dto) with
      | mk result memory' =>
          cases result with
          | error e => exact fun h => by cases h
          | ok _ => exact fun _ => rfl

/-! ### The TypeORM path makes its writes -/

theorem storeChanged_self (column : Column) (old : Amount) :
    storeChanged column old old = some old := if_pos rfl

/-- A value that was stored is stored again as it is. -/
theorem storeChanged_again {column : Column} {old next stored : Amount}
    (h : storeChanged column old next = some stored) :
    storeChanged column stored next = some stored := by
  rw [storeChanged] at h ⊢
  split at h
  · cases h
    rename_i heq
    rw [if_pos heq]
  · split
    · rfl
    · exact h

section TypeOrm

variable {round : Rounding} {column : Column} {db db' : Database} {userId asset : String}

theorem findOrCreateWallet_ok (hcolumn : column.Keeps) {wallet : WalletEntity}
    (h : db.findOrCreateWallet column userId asset = .ok (wallet, db')) :
    wallet = walletAt db.wallets (Database.rowKey userId asset) ∧
      db'.wallets.find (Database.rowKey userId asset) = some wallet ∧
      ∀ w, db'.wallets.insert (Database.rowKey userId asset) w
        = db.wallets.insert (Database.rowKey userId asset) w := by
  rw [Database.findOrCreateWallet] at h
  cases hf : db.wallets.find (Database.rowKey userId asset) with
  | some row =>
      rw [hf] at h
      cases h
      refine ⟨?_, hf, fun _ => rfl⟩
      rw [walletAt, hf]
      rfl
  | none =>
      have hzero : WalletEntity.zero = ⟨.zero, .zero⟩ := rfl
      simp only [hf, Database.save, hzero, hcolumn.zero, ok_bind] at h
      cases h
      refine ⟨?_, ?_, fun w => SortedMap.insert_insert _ _ _ _⟩
      · rw [walletAt, hf]
        rfl
      · rw [SortedMap.find_insert, if_pos rfl]

/-- Saving a wallet of which one balance has changed. -/
theorem save_set {row : WalletEntity} (hf : db.wallets.find (Database.rowKey userId asset) = some row)
    (bucket : Bucket) (next : Amount) :
    db.save column userId asset (row.set bucket next)
      = match storeChanged column (row.get bucket) next with
        | none => .error .database
        | some stored => .ok { db with
            wallets := db.wallets.insert (Database.rowKey userId asset) (row.set bucket stored) } := by
  rw [Database.save, hf]
  cases bucket with
  | available =>
      simp only [WalletEntity.set, WalletEntity.get, storeChanged_self]
      cases storeChanged column row.available next <;> rfl
  | locked =>
      simp only [WalletEntity.set, WalletEntity.get, storeChanged_self]
      cases storeChanged column row.locked next <;> rfl

/-- **`adjust` makes its write**; the wallet it returns is the row before `save`. -/
theorem adjust_ok (hcolumn : column.Keeps) {bucket : Bucket} {amount : Amount} {wallet : WalletEntity}
    (h : db.adjust round column bucket userId asset amount = .ok (wallet, db')) :
    ∃ (row : WalletEntity) (next stored : Amount),
      applyWrite round column db.wallets (adjustWrite bucket userId asset amount)
        = .ok ((), db'.wallets) ∧
      storeChanged column (row.get bucket) next = some stored ∧
      wallet = row.set bucket next ∧
      db'.wallets.find (Database.rowKey userId asset) = some (row.set bucket stored) := by
  rw [Database.adjust, bind_eq_ok] at h
  obtain ⟨⟨row, middle⟩, hfind, h⟩ := h
  obtain ⟨hrow, hmiddle, hinsert⟩ := findOrCreateWallet_ok hcolumn hfind
  simp only [bind_eq_ok] at h
  obtain ⟨_, hverify, saved, hsave, h⟩ := h
  cases h
  rw [save_set hmiddle] at hsave
  cases hstore : storeChanged column (row.get bucket)
      (Amount.add round (row.get bucket) amount) with
  | none => rw [hstore] at hsave; cases hsave
  | some stored =>
      rw [hstore] at hsave
      cases hsave
      refine ⟨row, _, stored, ?_, hstore, rfl, ?_⟩
      · rw [applyWrite_eq_ok]
        subst hrow
        exact ⟨hverify, stored, hstore, (hinsert _).symm ▸ rfl⟩
      · rw [SortedMap.find_insert, if_pos rfl]

/-- The second write of `lock` and `unlock`: the other balance, without a check. -/
theorem save_other {bucket other : Bucket} (hne : bucket ≠ other) {row : WalletEntity}
    {next stored amount : Amount}
    (hstore : storeChanged column (row.get bucket) next = some stored)
    (hrow : db.wallets.find (Database.rowKey userId asset) = some (row.set bucket stored))
    (hsave : db.save column userId asset ((row.set bucket next).set other
      (Amount.add round (row.get other) amount)) = .ok db') :
    applyWrite round column db.wallets ⟨Database.rowKey userId asset, other, amount, none⟩
      = .ok ((), db'.wallets) := by
  have hagain := storeChanged_again hstore
  have hat : walletAt db.wallets (Database.rowKey userId asset) = row.set bucket stored := by
    rw [walletAt, hrow]
    rfl
  have hget : (row.set bucket stored).get other = row.get other := row.get_set_ne hne stored
  rw [applyWrite_eq_ok]
  simp only [Write.verify, Write.next, hat, hget, true_and]
  rw [Database.save, hrow] at hsave
  cases bucket with
  | available =>
      cases other with
      | available => exact absurd rfl hne
      | locked =>
          simp only [WalletEntity.set, WalletEntity.get, hagain] at hsave ⊢
          cases hother : storeChanged column row.locked
              (Amount.add round row.locked amount) with
          | none => rw [hother] at hsave; cases hsave
          | some locked =>
              rw [hother] at hsave
              cases hsave
              exact ⟨locked, rfl, rfl⟩
  | locked =>
      cases other with
      | locked => exact absurd rfl hne
      | available =>
          simp only [WalletEntity.set, WalletEntity.get, hagain] at hsave ⊢
          cases hother : storeChanged column row.available
              (Amount.add round row.available amount) with
          | none => rw [hother] at hsave; cases hsave
          | some available =>
              rw [hother] at hsave
              cases hsave
              exact ⟨available, rfl, rfl⟩

/-- `lock` and `unlock`: a write of `adjust`, and then one to the other balance. -/
theorem adjust_save_writes (hcolumn : column.Keeps) {bucket other : Bucket} (hne : bucket ≠ other)
    {first amount : Amount} {wallet : WalletEntity} {adjusted saved : Database}
    (hadjust : db.adjust round column bucket userId asset first = .ok (wallet, adjusted))
    (hsave : adjusted.save column userId asset
      (wallet.set other (Amount.add round (wallet.get other) amount)) = .ok saved) :
    Machine.run (applyWrite round column) db.wallets [adjustWrite bucket userId asset first,
      ⟨Database.rowKey userId asset, other, amount, none⟩] = .ok ([(), ()], saved.wallets) := by
  obtain ⟨row, next, stored, happly, hstore, rfl, hrow⟩ := adjust_ok hcolumn hadjust
  have hget : (row.set bucket next).get other = row.get other := row.get_set_ne hne next
  rw [hget] at hsave
  exact Machine.run_cons_ok.mpr ⟨(), _, _, happly,
    Machine.run_cons_ok.mpr ⟨(), _, _, save_other hne hstore hrow hsave, rfl, rfl⟩, rfl⟩

theorem recordTypeOrm_wallets {dto : BalanceMutationDto} {type : TransactionType}
    {balanceAfter : Amount} (h : db.recordTypeOrm column dto type balanceAfter = .ok db') :
    db'.wallets = db.wallets := by
  rw [Database.recordTypeOrm] at h
  split at h
  · cases h
    rfl
  · cases h

theorem database_settleLegs_writes (hcolumn : column.Keeps) (referenceId : String)
    (legs : List BalanceLeg) :
    ∀ db : Database, db.settleLegs round column referenceId legs = .ok db' →
      ∃ units, Machine.run (applyWrite round column) db.wallets (legWrites Database.rowKey legs)
        = .ok (units, db'.wallets) := by
  induction legs with
  | nil =>
      intro db h
      cases h
      exact ⟨[], rfl⟩
  | cons leg legs ih =>
      intro db h
      rw [Database.settleLegs, bind_eq_ok] at h
      obtain ⟨recorded, hleg, hrest⟩ := h
      rw [Database.settleLeg, bind_eq_ok] at hleg
      obtain ⟨⟨wallet, adjusted⟩, hadjust, hrecord⟩ := hleg
      obtain ⟨_, _, _, happly, _⟩ := adjust_ok hcolumn hadjust
      obtain ⟨units, hrun⟩ := ih recorded hrest
      rw [recordTypeOrm_wallets hrecord] at hrun
      exact ⟨() :: units, Machine.run_cons_ok.mpr ⟨(), adjusted.wallets, units, happly, hrun, rfl⟩⟩

/-- The users that a call asks about. -/
def WalletOp.users : WalletOp → List String
  | .credit dto _ => [dto.userId]
  | .debit dto _ => [dto.userId]
  | .lock dto => [dto.userId]
  | .unlock dto => [dto.userId]
  | .internalTransfer dto toUserId => [dto.userId, toUserId]
  | .settleTrade dto => [dto.makerUserId, dto.takerUserId]

/-- `credit` and `debit`: one write. -/
theorem adjustAvailable_writes (hcolumn : column.Keeps) {amount : Amount} {wallet : WalletEntity}
    (h : db.adjustAvailable round column userId asset amount = .ok (wallet, db')) :
    Machine.run (applyWrite round column) db.wallets [adjustWrite .available userId asset amount]
      = .ok ([()], db'.wallets) := by
  obtain ⟨_, _, _, happly, _⟩ := adjust_ok hcolumn h
  exact Machine.run_cons_ok.mpr ⟨(), _, [], happly, rfl, rfl⟩

/-- **The bodies of the TypeORM path make the writes of the call** if they do not throw, and then every
user they ask about may transact. -/
theorem database_exec_writes (hcolumn : column.Keeps) {op : WalletOp} {reply : WalletReply}
    (h : db.exec round column op = .ok (reply, db')) :
    (∀ userId ∈ op.users, db.assertUserCanTransact userId = .ok ()) ∧
      ∃ units, Machine.run (applyWrite round column) db.wallets (op.typeOrmWrites round)
        = .ok (units, db'.wallets) := by
  cases op with
  | credit dto type =>
      simp only [Database.exec, Database.credit, bind_eq_ok] at h
      obtain ⟨_, ⟨_, huser, ⟨_, adjusted⟩, hadjust, _, hrecord, hentry⟩, h⟩ := h
      cases hentry
      cases h
      rw [recordTypeOrm_wallets hrecord]
      exact ⟨List.forall_mem_singleton.mpr huser, _, adjustAvailable_writes hcolumn hadjust⟩
  | debit dto type =>
      simp only [Database.exec, Database.debit, bind_eq_ok] at h
      obtain ⟨_, ⟨_, huser, ⟨_, adjusted⟩, hadjust, _, hrecord, hentry⟩, h⟩ := h
      cases hentry
      cases h
      rw [recordTypeOrm_wallets hrecord]
      exact ⟨List.forall_mem_singleton.mpr huser, _, adjustAvailable_writes hcolumn hadjust⟩
  | lock dto =>
      simp only [Database.exec, Database.lock, bind_eq_ok] at h
      obtain ⟨_, ⟨_, huser, ⟨wallet, adjusted⟩, hadjust, saved, hsave, _, hrecord, hentry⟩, h⟩ := h
      cases hentry
      cases h
      rw [recordTypeOrm_wallets hrecord]
      exact ⟨List.forall_mem_singleton.mpr huser, _,
        adjust_save_writes hcolumn Bucket.noConfusion hadjust hsave⟩
  | unlock dto =>
      simp only [Database.exec, Database.unlock, bind_eq_ok] at h
      obtain ⟨_, ⟨_, huser, ⟨wallet, adjusted⟩, hadjust, saved, hsave, _, hrecord, hentry⟩, h⟩ := h
      cases hentry
      cases h
      rw [recordTypeOrm_wallets hrecord]
      exact ⟨List.forall_mem_singleton.mpr huser, _,
        adjust_save_writes hcolumn Bucket.noConfusion hadjust hsave⟩
  | internalTransfer dto toUserId =>
      simp only [Database.exec, Database.internalTransfer, bind_eq_ok] at h
      obtain ⟨_, ⟨_, hfrom, _, hto, ⟨_, debited⟩, hdebit, ⟨_, credited⟩, hcredit, _, hrecord, _,
        hrecord', hentries⟩, h⟩ := h
      cases hentries
      cases h
      obtain ⟨_, _, _, happly, _⟩ := adjust_ok hcolumn hdebit
      rw [recordTypeOrm_wallets hrecord', recordTypeOrm_wallets hrecord]
      exact ⟨List.forall_mem_cons.mpr ⟨hfrom, List.forall_mem_singleton.mpr hto⟩, _, Machine.run_cons_ok.mpr
        ⟨(), _, _, happly, adjustAvailable_writes hcolumn hcredit, rfl⟩⟩
  | settleTrade dto =>
      simp only [Database.exec, Database.settleTrade, bind_eq_ok] at h
      obtain ⟨_, hmaker, _, htaker, _, hlegs, h⟩ := h
      cases h
      exact ⟨List.forall_mem_cons.mpr ⟨hmaker, List.forall_mem_singleton.mpr htaker⟩,
        database_settleLegs_writes hcolumn dto.referenceId _ db hlegs⟩

end TypeOrm

end NexusTrade.Wallet
