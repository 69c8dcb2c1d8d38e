import NexusTrade.Wallet.Service

/-!
# The withdrawal service

`WithdrawalService` of `services/withdrawal-service/src/services/withdrawal.service.ts`, the topic it
writes to, and the consumer of that topic in `onModuleInit` of the wallet service.

What the auth service and the wallet service answer to a request, the time and `randomUUID` come with the
call; the environment is a parameter.  A message of the topic is delivered any number of times and in any
order, as in the deposit service.

* **`WithdrawalService.request`**, **`approve`**, **`reject`**: the three operations;
* **`onWithdrawal`**: the handler of the wallet service;
* **`withdrawalStep`** is one step of the two services and the topic between them.
-/

namespace NexusTrade

/-! ### The service -/

inductive ApprovalTier
  | auto
  | operator
  | multiParty
  | coldCeremony
  deriving DecidableEq, Repr

structure WithdrawalEntity where
  id : String
  userId : String
  asset : String
  network : String
  address : String
  amount : Amount
  fee : Amount
  approvalTier : ApprovalTier
  status : TransactionStatus
  deriving DecidableEq

structure WithdrawalDto where
  userId : String
  asset : String
  network : String
  address : String
  amount : Amount
  deriving DecidableEq

/-- A whitelisted address; the time is in milliseconds. -/
structure WithdrawalAddressEntity where
  userId : String
  asset : String
  network : String
  address : String
  createdAt : ℤ
  deriving DecidableEq

/-- What the auth service answers to a code. -/
inductive TotpAnswer
  | unavailable (message : String)
  | refused
  | answered (verified : Bool)
  deriving DecidableEq

/-- What the wallet service answers when it is asked for a balance. -/
inductive BalanceAnswer
  | unavailable (message : String)
  | refused
  | answered (available : Option Amount)
  deriving DecidableEq

/-- What surrounds a request: the answers of the other services, the time and a new id. -/
structure Surroundings where
  uuid : String
  now : ℤ
  totp : TotpAnswer
  balance : BalanceAnswer
  deriving DecidableEq

/-- `WITHDRAWAL_TOTP_REQUIRED` and `WITHDRAWAL_WHITELIST_COOLDOWN_MS`. -/
structure WithdrawalConfig where
  totpRequired : Bool
  cooldownMs : ℤ
  deriving DecidableEq

/-- The defaults of the environment variables. -/
def WithdrawalConfig.default : WithdrawalConfig := ⟨true, 24 * 60 * 60 * 1000⟩

/-- The rows that the service reads and writes. -/
structure WithdrawalService where
  users : Option (SortedMap String UserStatus)
  addresses : List WithdrawalAddressEntity
  withdrawals : SortedMap String WithdrawalEntity
  deriving DecidableEq

/-- `verifyTotp`. -/
def verifyTotp (config : WithdrawalConfig) (totp : TotpAnswer) : Except ServiceError Unit :=
  if config.totpRequired = false then .ok ()
  else match totp with
    | .unavailable message => .error (.http 503 ("totp verification unavailable: " ++ message))
    | .refused => .error (.http 401 "totp verification failed")
    | .answered verified => if verified then .ok () else .error (.http 401 "invalid totp code")

/-- `verifyBalance`. -/
def verifyBalance (balance : BalanceAnswer) (amount : Amount) : Except ServiceError Unit :=
  match balance with
  | .unavailable message => .error (.http 503 ("wallet balance check unavailable: " ++ message))
  | .refused => .error (.http 400 "wallet balance check failed")
  | .answered available =>
    if (available.getD .zero).lt amount then .error (.http 400 "insufficient balance") else .ok ()

/-- The comparison `amount.gte(bound)` with a number. -/
def Amount.gte (amount : Amount) (bound : ℚ) : Bool := !amount.lt (.fin bound) && amount != .nan

/-- `tier` of `request`. -/
def approvalTier (amount : Amount) : ApprovalTier :=
  if amount.gte 1000000 then .coldCeremony
  else if amount.gte 100000 then .multiParty
  else if amount.gte 10000 then .operator
  else .auto

/-- `amount.mul('0.001')`. -/
def withdrawalFee (round : Rounding) (amount : Amount) : Amount :=
  amount.multiply round (.fin (1 / 1000))

namespace WithdrawalService

variable (config : WithdrawalConfig) (round : Rounding) (column : Column)

/-- `assertUserCanTransact`. -/
def assertUserCanTransact (service : WithdrawalService) (userId : String) :
    Except ServiceError Unit :=
  userCanTransact service.users userId

/-- `withdrawals.save(withdrawal)`. -/
def save (service : WithdrawalService) (withdrawal : WithdrawalEntity) :
    Except ServiceError WithdrawalService :=
  let stored := match service.withdrawals.find withdrawal.id with
    | none => (column withdrawal.amount, column withdrawal.fee)
    | some row => (storeChanged column row.amount withdrawal.amount,
        storeChanged column row.fee withdrawal.fee)
  match stored with
  | (some amount, some fee) =>
    .ok { service with
      withdrawals := service.withdrawals.insert withdrawal.id
        { withdrawal with amount := amount, fee := fee } }
  | _ => .error .database

/-- The address that a request names. -/
def whitelistedAddress (service : WithdrawalService) (dto : WithdrawalDto) :
    Option WithdrawalAddressEntity :=
  service.addresses.find? fun entry => entry.userId = dto.userId ∧ entry.asset = dto.asset ∧
    entry.network = dto.network ∧ entry.address = dto.address

/-- The checks of `request`. -/
def checkRequest (service : WithdrawalService) (surroundings : Surroundings) (dto : WithdrawalDto) :
    Except ServiceError Unit := do
  service.assertUserCanTransact dto.userId
  verifyTotp config surroundings.totp
  match service.whitelistedAddress dto with
  | none => .error (.http 403 "withdrawal address is not whitelisted")
  | some entry =>
    if surroundings.now - entry.createdAt < config.cooldownMs then
      .error (.http 403 "withdrawal address cooldown is active")
    else
      verifyBalance surroundings.balance (dto.amount.add round (withdrawalFee round dto.amount))

/-- The withdrawal that `request` creates. -/
def created (uuid : String) (dto : WithdrawalDto) : WithdrawalEntity :=
  let tier := approvalTier dto.amount
  ⟨uuid, dto.userId, dto.asset, dto.network, dto.address, dto.amount, withdrawalFee round dto.amount,
    tier, if tier = .auto then .confirmed else .pending⟩

/-- `request`; the events are produced after it. -/
def request (service : WithdrawalService) (surroundings : Surroundings) (dto : WithdrawalDto) :
    Except ServiceError (List (KafkaEvent WithdrawalEntity) × WithdrawalService) := do
  service.checkRequest config round surroundings dto
  let withdrawal := created round surroundings.uuid dto
  let service ← service.save column withdrawal
  if withdrawal.status = .confirmed then
    .ok ([⟨.withdrawalRequested, withdrawal.id, withdrawal⟩,
      ⟨.withdrawalApproved, withdrawal.id, withdrawal⟩], service)
  else .ok ([⟨.withdrawalRequested, withdrawal.id, withdrawal⟩], service)

/-- `approve` and `reject` up to the event: the withdrawal with its new status. -/
def decide (service : WithdrawalService) (id : String) (status : TransactionStatus) :
    Except ServiceError (Option WithdrawalEntity × WithdrawalService) :=
  match service.withdrawals.find id with
  | none => .ok (none, service)
  | some withdrawal => do
    service.assertUserCanTransact withdrawal.userId
    let withdrawal := { withdrawal with status := status }
    let service ← service.save column withdrawal
    .ok (some withdrawal, service)

/-- `approve`; the event, if the withdrawal is found, is produced after it. -/
def approve (service : WithdrawalService) (id : String) :
    Except ServiceError (Option (KafkaEvent WithdrawalEntity) × WithdrawalService) := do
  let (withdrawal, service) ← service.decide column id .confirmed
  .ok (withdrawal.map fun withdrawal => ⟨.withdrawalApproved, id, withdrawal⟩, service)

/-- `reject`; no event is produced. -/
def reject (service : WithdrawalService) (id : String) :
    Except ServiceError (Option WithdrawalEntity × WithdrawalService) :=
  service.decide column id .failed

end WithdrawalService

/-! ### The consumer -/

open Wallet

/-- The debit that the consumer of the wallet service makes of a payload. -/
def withdrawalDebit (round : Rounding) (withdrawal : WithdrawalEntity) : BalanceMutationDto :=
  ⟨withdrawal.userId, withdrawal.asset, withdrawal.amount.add round withdrawal.fee, withdrawal.id⟩

/-- The handler of the withdrawals topic in `onModuleInit`: the call it makes on the wallet service. -/
def onWithdrawal (round : Rounding) (event : KafkaEvent WithdrawalEntity) : Option WalletOp :=
  if event.eventType = .withdrawalApproved ∧ event.payload.status = .confirmed then
    some (.debit (withdrawalDebit round event.payload) .withdrawal)
  else none

/-! ### The system -/

/-- The two services and the topic; `debited` holds the positions of the messages for which the consumer
has debited a wallet. -/
structure WithdrawalSystem where
  withdrawal : WithdrawalService
  topic : List (KafkaEvent WithdrawalEntity)
  debited : List ℕ
  wallet : WalletService
  deriving DecidableEq

/-- A call on the withdrawal service, or the delivery of a message. -/
inductive WithdrawalCall
  | request (surroundings : Surroundings) (dto : WithdrawalDto)
  | approve (id approverId : String)
  | reject (id approverId : String)
  | deliver (position : ℕ)
  deriving DecidableEq

/-- What a step answers; a call that the handler made goes to the dead letter topic if it threw. -/
inductive WithdrawalReply
  | threw (error : ServiceError)
  | notFound
  | requested (events : List (KafkaEvent WithdrawalEntity))
  | approved (approverId : String) (event : KafkaEvent WithdrawalEntity)
  | rejected (approverId : String) (withdrawal : WithdrawalEntity)
  | called (op : WalletOp) (result : Except WalletError WalletReply)
  | ignored
  deriving DecidableEq

/-- The system after a call on the withdrawal service that produced events. -/
def WithdrawalSystem.produce (system : WithdrawalSystem) (events : List (KafkaEvent WithdrawalEntity))
    (service : WithdrawalService) : WithdrawalSystem :=
  { system with withdrawal := service, topic := system.topic ++ events }

/-- `eachMessage` of the consumer. -/
def WithdrawalSystem.deliver (round : Rounding) (column : Column) (system : WithdrawalSystem)
    (position : ℕ) : WithdrawalReply × WithdrawalSystem :=
  match system.topic[position]?.bind (onWithdrawal round) with
  | none => (.ignored, system)
  | some op =>
    match system.wallet.exec round column op with
    | (.error e, wallet) => (.called op (.error e), { system with wallet := wallet })
    | (.ok reply, wallet) =>
      (.called op (.ok reply),
        { system with wallet := wallet, debited := system.debited ++ [position] })

/-- One step of the system. -/
def withdrawalStep (config : WithdrawalConfig) (round : Rounding) (column : Column)
    (system : WithdrawalSystem) : WithdrawalCall → Except Empty (WithdrawalReply × WithdrawalSystem)
  | .request surroundings dto =>
    match system.withdrawal.request config round column surroundings dto with
    | .error e => .ok (.threw e, system)
    | .ok (events, service) => .ok (.requested events, system.produce events service)
  | .approve id approverId =>
    match system.withdrawal.approve column id with
    | .error e => .ok (.threw e, system)
    | .ok (none, _) => .ok (.notFound, system)
    | .ok (some event, service) => .ok (.approved approverId event, system.produce [event] service)
  | .reject id approverId =>
    match system.withdrawal.reject column id with
    | .error e => .ok (.threw e, system)
    | .ok (none, _) => .ok (.notFound, system)
    | .ok (some withdrawal, service) =>
      .ok (.rejected approverId withdrawal, system.produce [] service)
  | .deliver position => .ok (system.deliver round column position)

end NexusTrade
