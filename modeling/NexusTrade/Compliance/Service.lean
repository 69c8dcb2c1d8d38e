import NexusTrade.Shared.Relaying
import NexusTrade.Shared.Texts
import NexusTrade.Withdrawal.Requests

/-!
# The compliance service

`ComplianceService` of `services/compliance-service/src/services/compliance.service.ts`, and its consumer of the topic
that the withdrawal service writes to.

An amount is the number that its text denotes; a text that denotes none is refused before anything happens, and is left
out.  A delivery makes five attempts to send, as `KafkaService` does; a producer that cannot connect reaches the broker
with none of them.

* **`ComplianceService.screen`**: the check of a transaction;
* **`ComplianceService.onWithdrawal`**: the handler of the topic;
* **`Monitored`** are the two services, and **`Monitored.exec`** is one step;
* **`consumer_relays`**: the consumer that is delivered to is the one of `KafkaService` with this handler.
-/

namespace NexusTrade.Compliance

/-! ### The service -/

structure TransactionScreenDto where
  userId : String
  asset : String
  amountUsd : Amount
  counterparty : String
  deriving DecidableEq

/-- The payload that `screen` answers. -/
structure Screening extends TransactionScreenDto where
  highValue : Bool
  sanctionsHit : Bool
  suspicious : Bool
  travelRuleRequired : Bool
  deriving DecidableEq

/-- The event `SuspiciousActivityDetected`, without its identifiers and times. -/
structure SuspiciousActivity where
  aggregateId : String
  payload : Screening
  deriving DecidableEq

/-- The set of the watched addresses and entities. -/
structure ComplianceService where
  watchlist : List String
  deriving DecidableEq

namespace ComplianceService

/-- The service as `COMPLIANCE_WATCHLIST` sets it up. -/
def new (setting : Option String) : ComplianceService :=
  ⟨(trimmedEntries (setting.getD "blocked-address,sanctioned-entity")).filter (· ≠ "")⟩

variable (service : ComplianceService)

/-- `screen`: its payload, and the event if there is one. -/
def screen (dto : TransactionScreenDto) : Screening × Option SuspiciousActivity :=
  let highValue := dto.amountUsd.gte 10000
  let sanctionsHit := decide (dto.counterparty ∈ service.watchlist)
  let suspicious := highValue || sanctionsHit
  let payload : Screening := ⟨dto, highValue, sanctionsHit, suspicious, dto.amountUsd.gte 1000⟩
  (payload, if suspicious then some ⟨dto.userId, payload⟩ else none)

/-- What the consumer screens of a withdrawal. -/
def transactionOf (withdrawal : WithdrawalEntity) : TransactionScreenDto :=
  ⟨withdrawal.userId, withdrawal.asset, withdrawal.amount, withdrawal.address⟩

/-- The handler of `onModuleInit`: the event that it produces. -/
def onWithdrawal (event : KafkaEvent WithdrawalEntity) : Except String (Option SuspiciousActivity) :=
  if event.eventType = .withdrawalRequested then .ok (service.screen (transactionOf event.payload)).2 else .ok none

end ComplianceService

/-! ### The system -/

/-- The withdrawal service with its calls, and the compliance service as a consumer of its topic. -/
structure Monitored where
  withdrawals : WithdrawalWorld
  compliance : Relay.Consumer SuspiciousActivity

/-- A step of a call on the withdrawal service, a delivery to the compliance service, or a call of its `screen`. -/
inductive MonitoredCall
  | withdrawal (turn : WithdrawalTurn)
  | deliver (delivery : Relay.Delivery String)
  | screen (dto : TransactionScreenDto) (send : ℕ → Attempt String Unit)

/-- `KafkaService` makes five attempts. -/
def kafkaRetries : ℕ := 4

section System

variable (config : WithdrawalConfig) (round : Rounding) (column : Column) (service : ComplianceService)

/-- One step. -/
def Monitored.step (system : Monitored) : MonitoredCall → Monitored
  | .withdrawal turn =>
    { system with withdrawals := (withdrawalProgram config round column).step system.withdrawals turn }
  | .deliver delivery =>
    { system with
      compliance := system.compliance.deliver kafkaRetries service.onWithdrawal system.withdrawals.remote.topic
        delivery }
  | .screen dto send =>
    match (service.screen dto).2 with
    | none => system
    | some event => { system with compliance := (system.compliance.send kafkaRetries send event).2 }

/-- One step, as a machine that does not fail. -/
def Monitored.exec (system : Monitored) (call : MonitoredCall) : Except Empty (Unit × Monitored) :=
  .ok ((), system.step config round column service call)

/-- **The consumer**: what `KafkaService` does with the messages of the topic is what deliveries do. -/
theorem consumer_relays (parse : String → Except String (KafkaEvent WithdrawalEntity)) (topic : String)
    {kafka : Kafka.KafkaService} (hnew : kafka.effects = []) {log : List (KafkaEvent WithdrawalEntity)}
    {arrivals : List Kafka.Arrival} (hlog : ∀ arrival ∈ arrivals, Kafka.Carries parse log arrival.raw) :
    ∃ deliveries : List (Relay.Delivery String),
      deliveries.map Relay.Delivery.position = arrivals.map (fun arrival => arrival.raw.offset) ∧
      Kafka.Seen (arrivals.foldl (Kafka.KafkaService.arrive parse service.onWithdrawal topic) kafka)
        (deliveries.foldl (fun consumer delivery => consumer.deliver kafkaRetries service.onWithdrawal log delivery)
          .new) := by
  refine Kafka.arrivals_relayed parse service.onWithdrawal topic arrivals ⟨?_, ?_⟩ hlog
  · rw [hnew]
    rfl
  · rw [hnew]
    rfl

end System

end NexusTrade.Compliance
