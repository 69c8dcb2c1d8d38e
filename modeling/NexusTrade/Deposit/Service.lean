import NexusTrade.Wallet.Service

/-!
# The deposit service

`DepositService` of `services/deposit-service/src/services/deposit.service.ts`, the topic it writes to, and
the consumer of that topic in `onModuleInit` of the wallet service.

The address of a deposit, a hash, and its network are left out: nothing reads them.  `randomUUID` and the
environment variable `MIN_DEPOSIT_AMOUNT` are parameters.

A message of the topic is delivered any number of times and in any order: the consumer commits an offset
after its handler, so that a crash between the two delivers the message again.

* **`DepositService.simulateDeposit`**, **`DepositService.confirm`**: the two operations;
* **`onDeposit`**: the handler of the wallet service;
* **`depositStep`** is one step of the two services and the topic between them.
-/

namespace NexusTrade

/-! ### The service -/

structure DepositEntity where
  id : String
  userId : String
  asset : String
  txHash : String
  amount : Amount
  confirmations : ℤ
  requiredConfirmations : ℤ
  status : TransactionStatus
  deriving DecidableEq

structure SimulateDepositDto where
  userId : String
  asset : String
  txHash : String
  amount : Amount
  deriving DecidableEq

/-- The rows that the service reads and writes. -/
structure DepositService where
  users : Option (SortedMap String UserStatus)
  deposits : SortedMap String DepositEntity
  deriving DecidableEq

/-- The values of an `int` column. -/
def InInt (n : ℤ) : Prop := -2147483648 ≤ n ∧ n ≤ 2147483647

instance : DecidablePred InInt := fun n =>
  inferInstanceAs (Decidable (-2147483648 ≤ n ∧ n ≤ 2147483647))

/-- `requiredConfirmations` of `simulateDeposit`. -/
def requiredConfirmations (asset : String) : ℤ :=
  if asset = "BTC" then 3 else if asset = "SOL" then 32 else 12

namespace DepositService

variable (minimum : Amount) (column : Column)

/-- `assertUserCanTransact`. -/
def assertUserCanTransact (service : DepositService) (userId : String) : Except ServiceError Unit :=
  userCanTransact service.users userId

/-- `deposits.save(deposit)`. -/
def save (service : DepositService) (deposit : DepositEntity) : Except ServiceError DepositService :=
  let amount := match service.deposits.find deposit.id with
    | none => column deposit.amount
    | some row => storeChanged column row.amount deposit.amount
  match amount with
  | none => .error .database
  | some amount =>
    if InInt deposit.confirmations then
      .ok { service with
        deposits := service.deposits.insert deposit.id { deposit with amount := amount } }
    else .error .database

/-- `simulateDeposit`; the event is produced after it, and nothing reads the amount in it, which no column has held. -/
def simulateDeposit (service : DepositService) (uuid : String) (dto : SimulateDepositDto) :
    Except ServiceError (KafkaEvent DepositEntity × DepositService) := do
  service.assertUserCanTransact dto.userId
  if service.deposits.entries.any fun entry => entry.2.txHash = dto.txHash then
    .error (.http 409 "deposit txHash already processed")
  else if dto.amount.lt minimum then .error (.http 400 "deposit below minimum amount")
  else
    let deposit := ⟨uuid, dto.userId, dto.asset, dto.txHash, dto.amount, 0,
      requiredConfirmations dto.asset, .pending⟩
    let service ← service.save column deposit
    .ok (⟨.depositDetected, deposit.id, deposit⟩, service)

/-- The deposit that `confirm` saves. -/
def confirmed (deposit : DepositEntity) (confirmations : ℤ) : DepositEntity :=
  { deposit with
    confirmations := confirmations
    status := if confirmations ≥ deposit.requiredConfirmations then .confirmed else deposit.status }

/-- `confirm` of a deposit that was found. -/
def confirmFound (service : DepositService) (deposit : DepositEntity) (confirmations : ℤ) :
    Except ServiceError (KafkaEvent DepositEntity × DepositService) := do
  service.assertUserCanTransact deposit.userId
  let deposit := confirmed deposit confirmations
  let service ← service.save column deposit
  let eventType := if deposit.status = .confirmed then EventType.depositConfirmed else .depositDetected
  .ok (⟨eventType, deposit.id, deposit⟩, service)

/-- `confirm`; the event, if the deposit is found, is produced after it. -/
def confirm (service : DepositService) (id : String) (confirmations : ℤ) :
    Except ServiceError (Option (KafkaEvent DepositEntity) × DepositService) :=
  match service.deposits.find id with
  | none => .ok (none, service)
  | some deposit => do
    let (event, service) ← service.confirmFound column deposit confirmations
    .ok (some event, service)

end DepositService

/-! ### The consumer -/

open Wallet

/-- The credit that the consumer of the wallet service makes of a payload. -/
def depositCredit (deposit : DepositEntity) : BalanceMutationDto :=
  ⟨deposit.userId, deposit.asset, deposit.amount, deposit.id⟩

/-- The consumer asks for a credit. -/
def IsCredit (event : KafkaEvent DepositEntity) : Prop :=
  event.eventType = .depositConfirmed ∧ event.payload.status = .confirmed

instance : DecidablePred IsCredit := fun event =>
  inferInstanceAs (Decidable (event.eventType = .depositConfirmed ∧ event.payload.status = .confirmed))

/-- The handler of the deposits topic in `onModuleInit`: the call it makes on the wallet service. -/
def onDeposit (event : KafkaEvent DepositEntity) : Option WalletOp :=
  if IsCredit event then some (.credit (depositCredit event.payload) .deposit) else none

/-! ### The system -/

/-- The two services and the topic; `credited` holds the positions of the messages for which the consumer
has credited a wallet. -/
structure DepositSystem where
  deposit : DepositService
  topic : List (KafkaEvent DepositEntity)
  credited : List ℕ
  wallet : WalletService
  deriving DecidableEq

/-- A call on the deposit service, or the delivery of a message. -/
inductive DepositCall
  | simulateDeposit (uuid : String) (dto : SimulateDepositDto)
  | confirm (id : String) (confirmations : ℤ)
  | deliver (position : ℕ)
  deriving DecidableEq

/-- What a step answers; a call that the handler made goes to the dead letter topic if it threw. -/
inductive DepositReply
  | threw (error : ServiceError)
  | notFound
  | produced (event : KafkaEvent DepositEntity)
  | called (op : WalletOp) (result : Except WalletError WalletReply)
  | ignored
  deriving DecidableEq

/-- The system after a call that produced an event. -/
def DepositSystem.produce (system : DepositSystem) (event : KafkaEvent DepositEntity)
    (service : DepositService) : DepositSystem :=
  { system with deposit := service, topic := system.topic ++ [event] }

/-- `eachMessage` of the consumer. -/
def DepositSystem.deliver (round : Rounding) (column : Column) (system : DepositSystem)
    (position : ℕ) : DepositReply × DepositSystem :=
  match system.topic[position]?.bind onDeposit with
  | none => (.ignored, system)
  | some op =>
    match system.wallet.exec round column op with
    | (.error e, wallet) => (.called op (.error e), { system with wallet := wallet })
    | (.ok reply, wallet) =>
      (.called op (.ok reply),
        { system with wallet := wallet, credited := system.credited ++ [position] })

/-- One step of the system. -/
def depositStep (minimum : Amount) (round : Rounding) (column : Column) (system : DepositSystem) :
    DepositCall → Except Empty (DepositReply × DepositSystem)
  | .simulateDeposit uuid dto =>
    match system.deposit.simulateDeposit minimum column uuid dto with
    | .error e => .ok (.threw e, system)
    | .ok (event, service) => .ok (.produced event, system.produce event service)
  | .confirm id confirmations =>
    match system.deposit.confirm column id confirmations with
    | .error e => .ok (.threw e, system)
    | .ok (none, _) => .ok (.notFound, system)
    | .ok (some event, service) => .ok (.produced event, system.produce event service)
  | .deliver position => .ok (system.deliver round column position)

end NexusTrade
