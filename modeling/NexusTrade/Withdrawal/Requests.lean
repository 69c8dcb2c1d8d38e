import NexusTrade.Lib.Interleaving
import NexusTrade.Withdrawal.Service

/-!
# Withdrawals as asynchronous code

`whitelist`, `request`, `approve` and `reject` of `services/withdrawal-service/src/services/withdrawal.service.ts`, and
`addWithdrawalAddress` of `services/user-service/src/services/user.service.ts`, which writes to the same table: between
one `await` and the next a call runs alone, and at each `await` other calls may proceed.

The table of addresses has a unique index, and gives a row the time at which it is inserted.  `Date.now()` is no
operation that is awaited, but time passes before it: it is a step of its own.  What the other services answer comes
with the step.

* **`WithdrawalOperation`** and **`WithdrawalPoint`**: what a call awaits, and where it goes on;
* **`enterWithdrawal`** and **`resumeWithdrawal`** are the code between two points;
* **`performWithdrawal`** is the effect of an operation;
* **`withdrawalProgram`** is the program.
-/

namespace NexusTrade

/-! ### Addresses -/

/-- What identifies a row of the table of addresses. -/
structure AddressKey where
  userId : String
  asset : String
  network : String
  address : String
  deriving DecidableEq

def WithdrawalAddressEntity.key (entry : WithdrawalAddressEntity) : AddressKey :=
  ⟨entry.userId, entry.asset, entry.network, entry.address⟩

def WithdrawalDto.key (dto : WithdrawalDto) : AddressKey := ⟨dto.userId, dto.asset, dto.network, dto.address⟩

def WithdrawalEntity.key (row : WithdrawalEntity) : AddressKey := ⟨row.userId, row.asset, row.network, row.address⟩

/-! ### Calls -/

/-- A call of one of the two services; a request comes with the identifier that it draws. -/
inductive WithdrawalTask
  | whitelist (userId : String) (asset network : Option String) (address : String)
  | addWithdrawalAddress (userId asset network address : String)
  | request (uuid : String) (dto : WithdrawalDto)
  | approve (id approverId : String)
  | reject (id approverId : String)
  deriving DecidableEq

/-- What a call awaits; `clock` is `Date.now()`. -/
inductive WithdrawalOperation
  | assertUserCanTransact (userId : String)
  | findAddress (key : AddressKey)
  | saveAddress (key : AddressKey)
  | listAddresses (userId : String)
  | verifyTotp
  | clock
  | verifyBalance (amount : Amount)
  | saveWithdrawal (row : WithdrawalEntity)
  | findWithdrawal (id : String)
  | produce (event : KafkaEvent WithdrawalEntity)
  deriving DecidableEq

/-- What an operation answers; what fails is thrown. -/
inductive WithdrawalAnswer
  | done (result : Except ServiceError Unit)
  | address (found : Option WithdrawalAddressEntity)
  | stored (result : Except ServiceError WithdrawalAddressEntity)
  | addresses (rows : List WithdrawalAddressEntity)
  | time (now : ℤ)
  | withdrawal (found : Option WithdrawalEntity)
  deriving DecidableEq

/-- Where a call goes on, with its local variables. -/
inductive WithdrawalPoint
  | whitelistChecked (key : AddressKey)
  | whitelistFound (key : AddressKey)
  | whitelistStored (key : AddressKey)
  | bookFound (key : AddressKey)
  | bookStored (key : AddressKey)
  | bookListed (userId : String)
  | requestChecked (uuid : String) (dto : WithdrawalDto)
  | requestVerified (uuid : String) (dto : WithdrawalDto)
  | requestFound (uuid : String) (dto : WithdrawalDto)
  | requestTimed (uuid : String) (dto : WithdrawalDto) (entry : WithdrawalAddressEntity)
  | requestCovered (uuid : String) (dto : WithdrawalDto)
  | requestSaved (row : WithdrawalEntity)
  | requestProduced (row : WithdrawalEntity)
  | requestApproved (row : WithdrawalEntity)
  | decisionFound (id : String) (status : TransactionStatus)
  | decisionChecked (id : String) (row : WithdrawalEntity) (status : TransactionStatus)
  | decisionSaved (id : String) (row : WithdrawalEntity)
  | decisionProduced (row : WithdrawalEntity)
  deriving DecidableEq

/-- How a call ends. -/
inductive WithdrawalOutcome
  | threw (error : ServiceError)
  | whitelisted (entry : WithdrawalAddressEntity)
  | listed (userId : String) (rows : List WithdrawalAddressEntity)
  | requested (row : WithdrawalEntity)
  | notFound
  | decided (row : WithdrawalEntity)
  deriving DecidableEq

/-! ### Code -/

section Code

variable (config : WithdrawalConfig) (round : Rounding)

/-- The code up to the first point. -/
def enterWithdrawal : WithdrawalTask → Pause WithdrawalOperation WithdrawalPoint WithdrawalOutcome
  | .whitelist userId asset network address =>
    .await (.assertUserCanTransact userId)
      (.whitelistChecked ⟨userId, asset.getD "USDT", network.getD "ETH", address⟩)
  | .addWithdrawalAddress userId asset network address =>
    .await (.findAddress ⟨userId, asset, network, address⟩) (.bookFound ⟨userId, asset, network, address⟩)
  | .request uuid dto => .await (.assertUserCanTransact dto.userId) (.requestChecked uuid dto)
  | .approve id _ => .await (.findWithdrawal id) (.decisionFound id .confirmed)
  | .reject id _ => .await (.findWithdrawal id) (.decisionFound id .failed)

/-- The code from one point to the next, of `request`. -/
def resumeRequest : WithdrawalPoint → WithdrawalAnswer →
    Option (Pause WithdrawalOperation WithdrawalPoint WithdrawalOutcome)
  | .requestChecked uuid dto, .done (.ok ()) => some (.await .verifyTotp (.requestVerified uuid dto))
  | .requestVerified uuid dto, .done (.ok ()) => some (.await (.findAddress dto.key) (.requestFound uuid dto))
  | .requestFound _ _, .address none =>
    some (.finish (.threw (.http 403 "withdrawal address is not whitelisted")))
  | .requestFound uuid dto, .address (some entry) => some (.await .clock (.requestTimed uuid dto entry))
  | .requestTimed uuid dto entry, .time now =>
    if now - entry.createdAt < config.cooldownMs then
      some (.finish (.threw (.http 403 "withdrawal address cooldown is active")))
    else
      some (.await (.verifyBalance (dto.amount.add round (withdrawalFee round dto.amount))) (.requestCovered uuid dto))
  | .requestCovered uuid dto, .done (.ok ()) =>
    let row := WithdrawalService.created round uuid dto
    some (.await (.saveWithdrawal row) (.requestSaved row))
  | .requestSaved row, .done (.ok ()) =>
    some (.await (.produce ⟨.withdrawalRequested, row.id, row⟩) (.requestProduced row))
  | .requestProduced row, .done (.ok ()) =>
    if row.status = .confirmed then
      some (.await (.produce ⟨.withdrawalApproved, row.id, row⟩) (.requestApproved row))
    else some (.finish (.requested row))
  | .requestApproved row, .done (.ok ()) => some (.finish (.requested row))
  | _, _ => none

/-- The code from one point to the next, of the other calls. -/
def resumeTask : WithdrawalPoint → WithdrawalAnswer →
    Option (Pause WithdrawalOperation WithdrawalPoint WithdrawalOutcome)
  | .whitelistChecked key, .done (.ok ()) => some (.await (.findAddress key) (.whitelistFound key))
  | .whitelistFound _, .address (some entry) => some (.finish (.whitelisted entry))
  | .whitelistFound key, .address none => some (.await (.saveAddress key) (.whitelistStored key))
  | .whitelistStored _, .stored (.ok entry) => some (.finish (.whitelisted entry))
  | .bookFound key, .address (some _) => some (.await (.listAddresses key.userId) (.bookListed key.userId))
  | .bookFound key, .address none => some (.await (.saveAddress key) (.bookStored key))
  | .bookStored key, .stored (.ok _) => some (.await (.listAddresses key.userId) (.bookListed key.userId))
  | .bookListed userId, .addresses rows => some (.finish (.listed userId rows))
  | .decisionFound _ _, .withdrawal none => some (.finish .notFound)
  | .decisionFound id status, .withdrawal (some row) =>
    some (.await (.assertUserCanTransact row.userId) (.decisionChecked id row status))
  | .decisionChecked id row status, .done (.ok ()) =>
    some (.await (.saveWithdrawal { row with status := status }) (.decisionSaved id { row with status := status }))
  | .decisionSaved id row, .done (.ok ()) =>
    if row.status = .confirmed then
      some (.await (.produce ⟨.withdrawalApproved, id, row⟩) (.decisionProduced row))
    else some (.finish (.decided row))
  | .decisionProduced row, .done (.ok ()) => some (.finish (.decided row))
  | _, _ => none

/-- What an answer throws. -/
def WithdrawalAnswer.error : WithdrawalAnswer → ServiceError
  | .done (.error e) => e
  | .stored (.error e) => e
  | _ => .database

/-- The code from one point to the next; an operation that fails throws. -/
def resumeWithdrawal (point : WithdrawalPoint) (answer : WithdrawalAnswer) :
    Pause WithdrawalOperation WithdrawalPoint WithdrawalOutcome :=
  ((resumeRequest config round point answer).or (resumeTask point answer)).getD (.finish (.threw answer.error))

end Code

/-! ### Effects -/

/-- When a step is made, and what the other services answer in it; an event is on the topic exactly if `produce`
answers that it is. -/
structure WithdrawalMoment where
  now : ℤ
  totp : TotpAnswer
  balance : BalanceAnswer
  produced : Except ServiceError Unit
  deriving DecidableEq

/-- The tables, the topic, and the time of the last step. -/
structure WithdrawalTables where
  service : WithdrawalService
  topic : List (KafkaEvent WithdrawalEntity)
  clock : ℤ
  deriving DecidableEq

section Effects

variable (config : WithdrawalConfig) (column : Column)

/-- `addresses.findOne`. -/
def WithdrawalService.findAddress (service : WithdrawalService) (key : AddressKey) : Option WithdrawalAddressEntity :=
  service.addresses.find? fun entry => entry.key = key

/-- `addresses.save` of a new row. -/
def WithdrawalService.saveAddress (service : WithdrawalService) (now : ℤ) (key : AddressKey) :
    Except ServiceError (WithdrawalAddressEntity × WithdrawalService) :=
  match service.findAddress key with
  | some _ => .error .database
  | none =>
    let entry : WithdrawalAddressEntity := ⟨key.userId, key.asset, key.network, key.address, now⟩
    .ok (entry, { service with addresses := service.addresses ++ [entry] })

/-- The rows of a user, the last first. -/
def WithdrawalService.listAddresses (service : WithdrawalService) (userId : String) : List WithdrawalAddressEntity :=
  (service.addresses.filter fun entry => entry.userId = userId).mergeSort fun a b => b.createdAt ≤ a.createdAt

/-- The effect of an operation at a moment, on tables whose clock shows it. -/
def performAt (operation : WithdrawalOperation) (moment : WithdrawalMoment) (tables : WithdrawalTables) :
    WithdrawalAnswer × WithdrawalTables :=
  match operation with
  | .assertUserCanTransact userId => (.done (tables.service.assertUserCanTransact userId), tables)
  | .findAddress key => (.address (tables.service.findAddress key), tables)
  | .saveAddress key =>
    match tables.service.saveAddress moment.now key with
    | .error e => (.stored (.error e), tables)
    | .ok (entry, service) => (.stored (.ok entry), { tables with service := service })
  | .listAddresses userId => (.addresses (tables.service.listAddresses userId), tables)
  | .verifyTotp => (.done (verifyTotp config moment.totp), tables)
  | .clock => (.time moment.now, tables)
  | .verifyBalance amount => (.done (verifyBalance moment.balance amount), tables)
  | .saveWithdrawal row =>
    match tables.service.save column row with
    | .error e => (.done (.error e), tables)
    | .ok service => (.done (.ok ()), { tables with service := service })
  | .findWithdrawal id => (.withdrawal (tables.service.withdrawals.find id), tables)
  | .produce event =>
    match moment.produced with
    | .error e => (.done (.error e), tables)
    | .ok () => (.done (.ok ()), { tables with topic := tables.topic ++ [event] })

/-- The effect of an operation. -/
def performWithdrawal (operation : WithdrawalOperation) (moment : WithdrawalMoment) (tables : WithdrawalTables) :
    WithdrawalAnswer × WithdrawalTables :=
  performAt config column operation moment { tables with clock := moment.now }

end Effects

/-! ### The program -/

abbrev WithdrawalProgress := Progress WithdrawalOperation WithdrawalAnswer WithdrawalPoint WithdrawalOutcome

abbrev WithdrawalThread :=
  Thread WithdrawalTask WithdrawalOperation WithdrawalAnswer WithdrawalPoint WithdrawalOutcome

abbrev WithdrawalWorld :=
  World WithdrawalTask Unit WithdrawalTables WithdrawalOperation WithdrawalAnswer WithdrawalPoint WithdrawalOutcome

abbrev WithdrawalTurn := Turn WithdrawalTask WithdrawalMoment

/-- **The program.** -/
def withdrawalProgram (config : WithdrawalConfig) (round : Rounding) (column : Column) :
    Program WithdrawalTask Unit WithdrawalTables WithdrawalOperation WithdrawalAnswer WithdrawalPoint WithdrawalOutcome
      WithdrawalMoment where
  enter task memory := (enterWithdrawal task, memory)
  resume point answer memory := (resumeWithdrawal config round point answer, memory)
  perform := performWithdrawal config column

end NexusTrade
