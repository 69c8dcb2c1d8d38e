import Mathlib.Data.Prod.Lex
import NexusTrade.Shared.Domain

/-!
# The wallet service

`WalletService` of `services/wallet-service/src/services/wallet.service.ts`: six operations on balances,
each written twice, for a map in memory and for a database.

A body of the memory path changes the map as it goes along and keeps what it has written when it throws.
A body of the TypeORM path works on a copy of the database that is committed at the end.

* **`Memory.credit`** … **`Memory.settleTrade`**, **`Database.credit`** … **`Database.settleTrade`**: the
  twelve bodies;
* **`WalletService.exec`** makes one call.
-/

namespace NexusTrade.Wallet

/-! ### Data -/

inductive Bucket
  | available
  | locked
  deriving DecidableEq, Repr

/-- The balances of a `WalletEntity`, and the entries of `balances`. -/
structure WalletEntity where
  available : Amount
  locked : Amount
  deriving DecidableEq

/-- `{ available: '0', locked: '0' }`. -/
def WalletEntity.zero : WalletEntity := ⟨.zero, .zero⟩

def WalletEntity.get (wallet : WalletEntity) : Bucket → Amount
  | .available => wallet.available
  | .locked => wallet.locked

def WalletEntity.set (wallet : WalletEntity) (bucket : Bucket) (amount : Amount) : WalletEntity :=
  match bucket with
  | .available => { wallet with available := amount }
  | .locked => { wallet with locked := amount }

structure BalanceMutationDto where
  userId : String
  asset : String
  amount : Amount
  referenceId : String
  deriving DecidableEq

structure SettlementDto where
  makerUserId : String
  takerUserId : String
  makerSide : String
  baseAsset : String
  quoteAsset : String
  price : Amount
  quantity : Amount
  makerFee : Option Amount
  takerFee : Option Amount
  referenceId : String
  deriving DecidableEq

structure BalanceLeg where
  userId : String
  asset : String
  amount : Amount
  bucket : Bucket
  deriving DecidableEq

/-- What `record` and `recordTypeOrm` write. -/
structure LedgerEntry where
  dto : BalanceMutationDto
  type : TransactionType
  balanceAfter : Amount
  deriving DecidableEq

/-- What the service throws: an `Error`, an `HttpException`, or the error of a column that does not
accept a value. -/
inductive WalletError
  | error (message : String)
  | http (status : ℕ) (message : String)
  | database
  deriving DecidableEq

/-- `assertNonNegative`. -/
def assertNonNegative (value : Amount) (label : String) : Except WalletError Unit :=
  if value.ltZero then .error (.error (label ++ " must be non-negative")) else .ok ()

/-- The label of a balance in `assertNonNegative`. -/
def balanceLabel (userId asset : String) : Bucket → String
  | .available => userId ++ ":" ++ asset ++ ":available"
  | .locked => userId ++ ":" ++ asset ++ ":locked"

variable (round : Rounding)

/-- `quoteAmount` of `settleTrade`. -/
def quoteAmount (dto : SettlementDto) : Amount := Amount.multiply round dto.price dto.quantity

/-- `legs` of `settleTrade`. -/
def settlementLegs (dto : SettlementDto) : List BalanceLeg :=
  let quoteAmount := quoteAmount round dto
  let makerFee := dto.makerFee.getD .zero
  let takerFee := dto.takerFee.getD .zero
  if dto.makerSide = "SELL" then
    [⟨dto.makerUserId, dto.baseAsset, dto.quantity.negated, .locked⟩,
      ⟨dto.makerUserId, dto.quoteAsset, Amount.subtract round quoteAmount makerFee, .available⟩,
      ⟨dto.takerUserId, dto.quoteAsset, (Amount.add round quoteAmount takerFee).negated, .locked⟩,
      ⟨dto.takerUserId, dto.baseAsset, dto.quantity, .available⟩]
  else
    [⟨dto.makerUserId, dto.quoteAsset, (Amount.add round quoteAmount makerFee).negated, .locked⟩,
      ⟨dto.makerUserId, dto.baseAsset, dto.quantity, .available⟩,
      ⟨dto.takerUserId, dto.baseAsset, dto.quantity.negated, .locked⟩,
      ⟨dto.takerUserId, dto.quoteAsset, Amount.subtract round quoteAmount takerFee, .available⟩]

/-- What a call returns. -/
inductive WalletReply
  | entry (entry : LedgerEntry)
  | transferred (debit credit : LedgerEntry)
  | settled (mode : String) (referenceId : String) (quoteAmount : Amount) (legs : List BalanceLeg)
  deriving DecidableEq

/-! ### The memory path -/

structure Memory where
  balances : SortedMap String WalletEntity
  ledger : List LedgerEntry
  deriving DecidableEq

/-- The key of `balances`. -/
def balanceKey (userId asset : String) : String := userId ++ ":" ++ asset

namespace Memory

def current (memory : Memory) (userId asset : String) : WalletEntity :=
  (memory.balances.find (balanceKey userId asset)).getD .zero

def set (memory : Memory) (userId asset : String) (wallet : WalletEntity) : Memory :=
  { memory with balances := memory.balances.insert (balanceKey userId asset) wallet }

/-- `record`. -/
def record (memory : Memory) (dto : BalanceMutationDto) (type : TransactionType)
    (balanceAfter : Amount) : LedgerEntry × Memory :=
  (⟨dto, type, balanceAfter⟩, { memory with ledger := memory.ledger ++ [⟨dto, type, balanceAfter⟩] })

/-- `credit`. -/
def credit (memory : Memory) (dto : BalanceMutationDto) (type : TransactionType) :
    LedgerEntry × Memory :=
  let current := memory.current dto.userId dto.asset
  let current := { current with available := Amount.add round current.available dto.amount }
  (memory.set dto.userId dto.asset current).record dto type current.available

/-- `debit`. -/
def debit (memory : Memory) (dto : BalanceMutationDto) (type : TransactionType) :
    Except WalletError LedgerEntry × Memory :=
  let current := memory.current dto.userId dto.asset
  let next := Amount.subtract round current.available dto.amount
  match assertNonNegative next "available" with
  | .error e => (.error e, memory)
  | .ok _ =>
    let current := { current with available := next }
    let (entry, memory) := (memory.set dto.userId dto.asset current).record
      { dto with amount := dto.amount.negated } type current.available
    (.ok entry, memory)

/-- `lock`. -/
def lock (memory : Memory) (dto : BalanceMutationDto) : Except WalletError LedgerEntry × Memory :=
  let current := memory.current dto.userId dto.asset
  let nextAvailable := Amount.subtract round current.available dto.amount
  match assertNonNegative nextAvailable "available" with
  | .error e => (.error e, memory)
  | .ok _ =>
    let current := { current with available := nextAvailable }
    let current := { current with locked := Amount.add round current.locked dto.amount }
    let (entry, memory) := (memory.set dto.userId dto.asset current).record dto .tradeSettlement
      current.available
    (.ok entry, memory)

/-- `unlock`. -/
def unlock (memory : Memory) (dto : BalanceMutationDto) : Except WalletError LedgerEntry × Memory :=
  let current := memory.current dto.userId dto.asset
  let nextLocked := Amount.subtract round current.locked dto.amount
  match assertNonNegative nextLocked "locked" with
  | .error e => (.error e, memory)
  | .ok _ =>
    let current := { current with locked := nextLocked }
    let current := { current with available := Amount.add round current.available dto.amount }
    let (entry, memory) := (memory.set dto.userId dto.asset current).record dto .tradeSettlement
      current.available
    (.ok entry, memory)

/-- `internalTransfer`; the object that was debited is the one `credit` changes when a user transfers to
himself. -/
def internalTransfer (memory : Memory) (dto : BalanceMutationDto) (toUserId : String) :
    Except WalletError (LedgerEntry × LedgerEntry) × Memory :=
  let current := memory.current dto.userId dto.asset
  let nextAvailable := Amount.subtract round current.available dto.amount
  match assertNonNegative nextAvailable "available" with
  | .error e => (.error e, memory)
  | .ok _ =>
    let memory := memory.set dto.userId dto.asset { current with available := nextAvailable }
    let (credit, memory) := memory.credit round { dto with userId := toUserId } .internalTransfer
    let (debit, memory) := memory.record dto .internalTransfer
      (memory.current dto.userId dto.asset).available
    (.ok (debit, credit), memory)

/-- The body of the loop of `settleTrade`. -/
def settleLeg (memory : Memory) (referenceId : String) (leg : BalanceLeg) :
    Except WalletError Unit × Memory :=
  let current := memory.current leg.userId leg.asset
  let next := Amount.add round (current.get leg.bucket) leg.amount
  match assertNonNegative next (balanceLabel leg.userId leg.asset leg.bucket) with
  | .error e => (.error e, memory)
  | .ok _ =>
    let current := current.set leg.bucket next
    let (_, memory) := (memory.set leg.userId leg.asset current).record
      ⟨leg.userId, leg.asset, leg.amount, referenceId⟩ .tradeSettlement current.available
    (.ok (), memory)

/-- The loop of `settleTrade`. -/
def settleLegs (referenceId : String) : Memory → List BalanceLeg → Except WalletError Unit × Memory
  | memory, [] => (.ok (), memory)
  | memory, leg :: legs =>
    match memory.settleLeg round referenceId leg with
    | (.error e, memory) => (.error e, memory)
    | (.ok _, memory) => settleLegs referenceId memory legs

/-- `settleTrade`. -/
def settleTrade (memory : Memory) (dto : SettlementDto) : Except WalletError WalletReply × Memory :=
  match memory.settleLegs round dto.referenceId (settlementLegs round dto) with
  | (.error e, memory) => (.error e, memory)
  | (.ok _, memory) => (.ok (.settled "memory" dto.referenceId (quoteAmount round dto)
      (settlementLegs round dto)), memory)

end Memory

/-! ### The TypeORM path -/

variable (column : Column)

/-- The rows that the service reads and writes. -/
structure Database where
  users : SortedMap String UserStatus
  wallets : SortedMap (String ×ₗ String) WalletEntity
  ledger : List LedgerEntry
  deriving DecidableEq

namespace Database

/-- The row of a user and an asset. -/
def rowKey (userId asset : String) : String ×ₗ String := toLex (userId, asset)

/-- `repository.save(wallet)`: the columns of a new row, and the changed columns of a row that exists. -/
def save (db : Database) (userId asset : String) (wallet : WalletEntity) :
    Except WalletError Database :=
  let stored := match db.wallets.find (rowKey userId asset) with
    | none => (column wallet.available, column wallet.locked)
    | some row => (storeChanged column row.available wallet.available,
        storeChanged column row.locked wallet.locked)
  match stored with
  | (some available, some locked) =>
    .ok { db with wallets := db.wallets.insert (rowKey userId asset) ⟨available, locked⟩ }
  | _ => .error .database

/-- `findOrCreateWallet`. -/
def findOrCreateWallet (db : Database) (userId asset : String) :
    Except WalletError (WalletEntity × Database) :=
  match db.wallets.find (rowKey userId asset) with
  | some wallet => .ok (wallet, db)
  | none => do
    let db ← db.save column userId asset .zero
    .ok (.zero, db)

/-- `assertUserCanTransact`. -/
def assertUserCanTransact (db : Database) (userId : String) : Except WalletError Unit :=
  match db.users.find userId with
  | none => .error (.http 404 "user not found")
  | some status =>
    if status = .frozen ∨ status = .closed then .error (.http 403 "account is not active") else .ok ()

/-- `adjustAvailable` and `adjustLocked`. -/
def adjust (bucket : Bucket) (db : Database) (userId asset : String) (amount : Amount) :
    Except WalletError (WalletEntity × Database) := do
  let (wallet, db) ← db.findOrCreateWallet column userId asset
  let next := Amount.add round (wallet.get bucket) amount
  assertNonNegative next (balanceLabel userId asset bucket)
  let wallet := wallet.set bucket next
  let db ← db.save column userId asset wallet
  .ok (wallet, db)

/-- `adjustAvailable`. -/
def adjustAvailable := adjust round column .available

/-- `adjustLocked`. -/
def adjustLocked := adjust round column .locked

/-- `recordTypeOrm`. -/
def recordTypeOrm (db : Database) (dto : BalanceMutationDto) (type : TransactionType)
    (balanceAfter : Amount) : Except WalletError Database :=
  match column dto.amount, column balanceAfter with
  | some amount, some balanceAfter =>
    .ok { db with ledger := db.ledger ++ [⟨{ dto with amount := amount }, type, balanceAfter⟩] }
  | _, _ => .error .database

/-- `credit`. -/
def credit (db : Database) (dto : BalanceMutationDto) (type : TransactionType) :
    Except WalletError (LedgerEntry × Database) := do
  db.assertUserCanTransact dto.userId
  let (wallet, db) ← db.adjustAvailable round column dto.userId dto.asset dto.amount
  let db ← db.recordTypeOrm column dto type wallet.available
  .ok (⟨dto, type, wallet.available⟩, db)

/-- `debit`. -/
def debit (db : Database) (dto : BalanceMutationDto) (type : TransactionType) :
    Except WalletError (LedgerEntry × Database) := do
  db.assertUserCanTransact dto.userId
  let (wallet, db) ← db.adjustAvailable round column dto.userId dto.asset dto.amount.negated
  let db ← db.recordTypeOrm column { dto with amount := dto.amount.negated } type wallet.available
  .ok (⟨dto, type, wallet.available⟩, db)

/-- `lock`. -/
def lock (db : Database) (dto : BalanceMutationDto) : Except WalletError (LedgerEntry × Database) := do
  db.assertUserCanTransact dto.userId
  let (wallet, db) ← db.adjustAvailable round column dto.userId dto.asset dto.amount.negated
  let wallet := { wallet with locked := Amount.add round wallet.locked dto.amount }
  let db ← db.save column dto.userId dto.asset wallet
  let db ← db.recordTypeOrm column dto .tradeSettlement wallet.available
  .ok (⟨dto, .tradeSettlement, wallet.available⟩, db)

/-- `unlock`. -/
def unlock (db : Database) (dto : BalanceMutationDto) :
    Except WalletError (LedgerEntry × Database) := do
  db.assertUserCanTransact dto.userId
  let (wallet, db) ← db.adjustLocked round column dto.userId dto.asset dto.amount.negated
  let wallet := { wallet with available := Amount.add round wallet.available dto.amount }
  let db ← db.save column dto.userId dto.asset wallet
  let db ← db.recordTypeOrm column dto .tradeSettlement wallet.available
  .ok (⟨dto, .tradeSettlement, wallet.available⟩, db)

/-- `internalTransfer`. -/
def internalTransfer (db : Database) (dto : BalanceMutationDto) (toUserId : String) :
    Except WalletError ((LedgerEntry × LedgerEntry) × Database) := do
  db.assertUserCanTransact dto.userId
  db.assertUserCanTransact toUserId
  let (debitWallet, db) ← db.adjustAvailable round column dto.userId dto.asset dto.amount.negated
  let (creditWallet, db) ← db.adjustAvailable round column toUserId dto.asset dto.amount
  let db ← db.recordTypeOrm column dto .internalTransfer debitWallet.available
  let db ← db.recordTypeOrm column { dto with userId := toUserId } .internalTransfer
    creditWallet.available
  .ok ((⟨dto, .internalTransfer, debitWallet.available⟩,
    ⟨{ dto with userId := toUserId }, .internalTransfer, creditWallet.available⟩), db)

/-- The body of the loop of `settleTrade`. -/
def settleLeg (db : Database) (referenceId : String) (leg : BalanceLeg) :
    Except WalletError Database := do
  let (wallet, db) ← db.adjust round column leg.bucket leg.userId leg.asset leg.amount
  db.recordTypeOrm column ⟨leg.userId, leg.asset, leg.amount, referenceId⟩ .tradeSettlement
    wallet.available

/-- The loop of `settleTrade`. -/
def settleLegs (referenceId : String) : Database → List BalanceLeg → Except WalletError Database
  | db, [] => .ok db
  | db, leg :: legs => do
    let db ← db.settleLeg round column referenceId leg
    settleLegs referenceId db legs

/-- `settleTrade`. -/
def settleTrade (db : Database) (dto : SettlementDto) :
    Except WalletError (WalletReply × Database) := do
  db.assertUserCanTransact dto.makerUserId
  db.assertUserCanTransact dto.takerUserId
  let db ← db.settleLegs round column dto.referenceId (settlementLegs round dto)
  .ok (.settled "typeorm" dto.referenceId (quoteAmount round dto) (settlementLegs round dto), db)

end Database

/-! ### Calls -/

/-- `WalletService`, with its database if it has one. -/
structure WalletService where
  dataSource : Option Database
  memory : Memory
  deriving DecidableEq

/-- A call on the service. -/
inductive WalletOp
  | credit (dto : BalanceMutationDto) (type : TransactionType)
  | debit (dto : BalanceMutationDto) (type : TransactionType)
  | lock (dto : BalanceMutationDto)
  | unlock (dto : BalanceMutationDto)
  | internalTransfer (dto : BalanceMutationDto) (toUserId : String)
  | settleTrade (dto : SettlementDto)
  deriving DecidableEq

/-- A call in the memory path. -/
def Memory.exec (memory : Memory) : WalletOp → Except WalletError WalletReply × Memory
  | .credit dto type => let r := memory.credit round dto type; (.ok (.entry r.1), r.2)
  | .debit dto type => let r := memory.debit round dto type; (r.1.map .entry, r.2)
  | .lock dto => let r := memory.lock round dto; (r.1.map .entry, r.2)
  | .unlock dto => let r := memory.unlock round dto; (r.1.map .entry, r.2)
  | .internalTransfer dto toUserId =>
    let r := memory.internalTransfer round dto toUserId
    (r.1.map fun entries => .transferred entries.1 entries.2, r.2)
  | .settleTrade dto => memory.settleTrade round dto

/-- The work of a call in a transaction. -/
def Database.exec (db : Database) : WalletOp → Except WalletError (WalletReply × Database)
  | .credit dto type => do
    let (entry, db) ← db.credit round column dto type
    .ok (.entry entry, db)
  | .debit dto type => do
    let (entry, db) ← db.debit round column dto type
    .ok (.entry entry, db)
  | .lock dto => do
    let (entry, db) ← db.lock round column dto
    .ok (.entry entry, db)
  | .unlock dto => do
    let (entry, db) ← db.unlock round column dto
    .ok (.entry entry, db)
  | .internalTransfer dto toUserId => do
    let ((debit, credit), db) ← db.internalTransfer round column dto toUserId
    .ok (.transferred debit credit, db)
  | .settleTrade dto => db.settleTrade round column dto

/-- `withTransaction`: what the work did is committed if it does not throw. -/
def WalletService.withTransaction (service : WalletService) (db : Database)
    (work : Database → Except WalletError (WalletReply × Database)) :
    Except WalletError WalletReply × WalletService :=
  match work db with
  | .error e => (.error e, service)
  | .ok (reply, db) => (.ok reply, { service with dataSource := some db })

/-- Make one call. -/
def WalletService.exec (service : WalletService) (op : WalletOp) :
    Except WalletError WalletReply × WalletService :=
  match service.dataSource with
  | some db => service.withTransaction db fun db => db.exec round column op
  | none =>
    let r := service.memory.exec round op
    (r.1, { service with memory := r.2 })

end NexusTrade.Wallet
