import NexusTrade.Lib.Retry
import NexusTrade.Lib.Run

/-!
# The Kafka consumer

`KafkaService` of `packages/shared/src/modules/KafkaModule.ts`: what one call of `eachMessage` does, under every
pattern of failures of the parser, the handler, the broker and the commit.

* **`KafkaService.withRetry`**, **`connectProducer`**, **`produce`**, **`sendToDlq`** and **`eachMessage`** are the
  methods; what the outside sees of them are their **`Effect`**s;
* **`Kept`** says that a message whose offset is committed was handled or written to the dead-letter topic;
* **`kept_iff`** says for which failures it is, and **`partition_kept`** follows it through the deliveries of a
  partition.
-/

namespace NexusTrade.Kafka

/-! ### The service -/

/-- A message; its value is the text of its bytes. -/
structure Message where
  topic : String
  partition : ℕ
  offset : ℕ
  value : Option String
  deriving DecidableEq

/-- What `sendToDlq` writes. -/
structure DeadLetter where
  sourceTopic : String
  partition : ℕ
  offset : ℕ
  error : Option String
  payload : Option String
  failedAt : String
  deriving DecidableEq

/-- What is thrown: `null` and `undefined` have no `message`, and that of other values may be absent. -/
inductive Thrown
  | nullish
  | error (message : Option String)
  deriving DecidableEq

/-- What the outside sees: a handler that has completed, a record of a topic, a committed offset. -/
inductive Effect
  | handled (message : Message)
  | sent (topic key : String) (payload : DeadLetter)
  | committed (topic : String) (partition offset : ℕ)
  deriving DecidableEq

/-- The service, with the effects that it has had. -/
structure KafkaService where
  dlqTopic : String
  producerConnected : Bool
  effects : List Effect
  deriving DecidableEq

/-- What happens around a call: whether another call connects the producer while the handler runs, what becomes of
the attempts to connect, to send and to commit, and the time. -/
structure Surroundings where
  connectedMeanwhile : Bool
  connect : ℕ → Attempt String Unit
  send : ℕ → Attempt String Unit
  commit : Attempt String Unit
  now : String

namespace KafkaService

/-- An effect more. -/
def emit (effect : Effect) (service : KafkaService) : KafkaService :=
  { service with effects := service.effects ++ [effect] }

/-- `withRetry`: an operation is attempted five times. -/
def withRetry (operation : KafkaService → KafkaService) (pattern : ℕ → Attempt String Unit) (service : KafkaService) :
    Except String Unit × KafkaService :=
  Attempt.persist (fun service => ((), operation service)) pattern 4 0 service

def connectProducer (p : Surroundings) (service : KafkaService) : Except String Unit × KafkaService :=
  if service.producerConnected then (.ok (), service)
  else
    match service.withRetry id p.connect with
    | (.error e, service) => (.error e, service)
    | (.ok (), service) => (.ok (), { service with producerConnected := true })

def produce (p : Surroundings) (topic : String) (payload : DeadLetter) (key : String) (service : KafkaService) :
    Except String Unit × KafkaService :=
  match service.connectProducer p with
  | (.error e, service) => (.error e, service)
  | (.ok (), service) => service.withRetry (emit (.sent topic key payload)) p.send

/-- The record of a message that could not be handled. -/
def deadLetter (p : Surroundings) (sourceTopic : String) (raw : Message) (error : Option String) : DeadLetter :=
  ⟨sourceTopic, raw.partition, raw.offset, error, raw.value, p.now⟩

def sendToDlq (p : Surroundings) (sourceTopic : String) (raw : Message) (thrown : Thrown) (service : KafkaService) :
    KafkaService :=
  match thrown with
  -- reading `error.message` throws, and what is thrown in the block is logged
  | .nullish => service
  | .error message =>
    (service.produce p service.dlqTopic (deadLetter p sourceTopic raw message)
      (sourceTopic ++ ":" ++ toString raw.partition ++ ":" ++ toString raw.offset)).2

def nextOffset (offset : ℕ) : ℕ := offset + 1

/-- `commitOffsets` of the consumer. -/
def commitOffsets (p : Surroundings) (topic : String) (partition offset : ℕ) (service : KafkaService) :
    Except String Unit × KafkaService :=
  p.commit.run (fun _ service => .ok ((), service.emit (.committed topic partition offset))) service

section EachMessage

variable {Payload : Type} (parse : String → Except String Payload) (handler : Payload → Message → Except Thrown Unit)

/-- The `try` block of `eachMessage`; the answer says whether the handler has run. -/
def handle (raw : Message) : Except Thrown Bool :=
  match raw.value with
  | none => .ok false
  | some value =>
    if value = "" then .ok false
    else
      match parse value with
      | .error message => .error (.error (some message))
      | .ok payload =>
        match handler payload raw with
        | .error thrown => .error thrown
        | .ok () => .ok true

/-- `eachMessage` of a consumer of a topic: the result of the promise, and the service. -/
def eachMessage (topic : String) (raw : Message) (p : Surroundings) (service : KafkaService) :
    Except String Unit × KafkaService :=
  let service := { service with producerConnected := service.producerConnected || p.connectedMeanwhile }
  let service :=
    match handle parse handler raw with
    | .ok true => service.emit (.handled raw)
    | .ok false => service
    | .error thrown => service.sendToDlq p topic raw thrown
  service.commitOffsets p raw.topic raw.partition (nextOffset raw.offset)

end EachMessage

end KafkaService

open KafkaService (nextOffset handle eachMessage)

/-! ### What is claimed of a call -/

/-- The effect commits the offset past a message. -/
def Message.pastCommitted (message : Message) : Effect :=
  .committed message.topic message.partition (nextOffset message.offset)

/-- The effect writes a message to the dead-letter topic. -/
def Message.DeadLettered (message : Message) (dlqTopic : String) : Effect → Prop
  | .sent topic _ letter => topic = dlqTopic ∧ letter.sourceTopic = message.topic ∧ letter.partition = message.partition
      ∧ letter.offset = message.offset ∧ letter.payload = message.value
  | _ => False

/-- The message was handled, or written to the dead-letter topic. -/
def Message.Preserved (message : Message) (dlqTopic : String) (effects : List Effect) : Prop :=
  .handled message ∈ effects ∨ ∃ effect ∈ effects, message.DeadLettered dlqTopic effect

/-- **A message is kept**: it is preserved if the offset past it is committed. -/
def Kept (message : Message) (dlqTopic : String) (effects : List Effect) : Prop :=
  message.pastCommitted ∈ effects → message.Preserved dlqTopic effects

/-- The offset from which a consumer of a partition is given messages: the last that was committed. -/
def position (topic : String) (partition : ℕ) (effects : List Effect) : ℕ :=
  effects.foldl (fun position effect =>
    match effect with
    | .committed topic' partition' offset => if topic' = topic ∧ partition' = partition then offset else position
    | _ => position) 0

/-- A dead-letter record reaches its topic: the producer is or gets connected in five attempts, and one of five
attempts to send reaches the broker. -/
def Surroundings.Delivers (p : Surroundings) (service : KafkaService) : Prop :=
  (service.producerConnected = true ∨ p.connectedMeanwhile = true ∨ ∃ k ≤ 4, (p.connect k).Answers) ∧
    ∃ k ≤ 4, (p.send k).Reaches

/-- **The condition on a call**: the commit does not reach the broker; or the value is not empty and the handler
completes; or what is thrown has a message and the dead-letter record is delivered. -/
def Surroundings.Keeps (p : Surroundings) (handling : Except Thrown Bool) (service : KafkaService) : Prop :=
  ¬p.commit.Reaches ∨ handling = .ok true ∨ ∃ message, handling = .error (.error message) ∧ p.Delivers service

/-! ### The methods -/

namespace KafkaService

variable {p : Surroundings} {service : KafkaService}

theorem emit_iterate (effect : Effect) (m : ℕ) (service : KafkaService) :
    (emit effect)^[m] service = { service with effects := service.effects ++ List.replicate m effect } := by
  induction m generalizing service with
  | zero => simp
  | succ m ih =>
      rw [Function.iterate_succ_apply, ih]
      simp [emit, List.replicate_succ]

/-- **`connectProducer`** changes nothing else, and succeeds if the producer is connected or an attempt is answered. -/
theorem connectProducer_spec (p : Surroundings) (service : KafkaService) :
    ((service.connectProducer p).2.effects = service.effects ∧
        (service.connectProducer p).2.dlqTopic = service.dlqTopic) ∧
      ((service.connectProducer p).1 = .ok () ↔
        service.producerConnected = true ∨ ∃ k ≤ 4, (p.connect k).Answers) := by
  by_cases hconnected : service.producerConnected = true
  · simp [connectProducer, hconnected]
  · obtain ⟨m, hstate, -⟩ := Attempt.retry_iterate (fun service : KafkaService => ((), id service)) p.connect 4 0 service
    have hsame : (service.withRetry id p.connect).2 = service := by
      rw [withRetry, hstate]
      exact Function.iterate_fixed rfl m
    have hanswers := Attempt.retry_answers (fun service : KafkaService => ((), id service)) p.connect 4 0 service
    simp only [Nat.zero_add] at hanswers
    rw [connectProducer, if_neg hconnected, ← hanswers]
    change _ ∧ (_ ↔ _ ∨ ∃ reply, (service.withRetry id p.connect).1 = .ok reply)
    cases hretry : service.withRetry id p.connect with
    | mk result after =>
        rw [hretry] at hsame
        subst hsame
        have hoff : after.producerConnected = false := by simpa using hconnected
        cases result <;> simp [hoff]

/-- **`produce`** sends its record some times, and at all if it can connect and reach the broker. -/
theorem produce_spec (p : Surroundings) (topic key : String) (payload : DeadLetter) (service : KafkaService) :
    ∃ m, ((service.produce p topic payload key).2.effects =
        service.effects ++ List.replicate m (.sent topic key payload) ∧
          (service.produce p topic payload key).2.dlqTopic = service.dlqTopic) ∧
      (0 < m ↔ (service.producerConnected = true ∨ ∃ k ≤ 4, (p.connect k).Answers) ∧
        ∃ k ≤ 4, (p.send k).Reaches) := by
  obtain ⟨hsame, hconnects⟩ := connectProducer_spec p service
  rw [produce, ← hconnects]
  cases hconnect : service.connectProducer p with
  | mk result connected =>
      rw [hconnect] at hsame
      cases result with
      | error e => exact ⟨0, by simpa using hsame, by simp⟩
      | ok done =>
          obtain ⟨m, hstate, hm⟩ := Attempt.retry_iterate
            (fun service : KafkaService => ((), emit (.sent topic key payload) service)) p.send 4 0 connected
          simp only [Nat.zero_add] at hm
          refine ⟨m, ?_, by simpa using hm⟩
          show (connected.withRetry (emit (.sent topic key payload)) p.send).2.effects = _ ∧
            (connected.withRetry (emit (.sent topic key payload)) p.send).2.dlqTopic = _
          rw [withRetry, hstate]
          show ((emit (.sent topic key payload))^[m] connected).effects = _ ∧
            ((emit (.sent topic key payload))^[m] connected).dlqTopic = _
          rw [emit_iterate, ← hsame.1, ← hsame.2]
          exact ⟨rfl, rfl⟩

end KafkaService

/-! ### A call -/

section Call

variable {Payload : Type} (parse : String → Except String Payload) (handler : Payload → Message → Except Thrown Unit)

/-- **A call**: the blocks `try` and `catch` commit nothing, and the commit follows. -/
theorem eachMessage_spec (raw : Message) (p : Surroundings) (service : KafkaService) :
    ∃ own, ((eachMessage parse handler raw.topic raw p service).2.effects = service.effects ++ own ++
          (if p.commit.Reaches then [raw.pastCommitted] else []) ∧
        (eachMessage parse handler raw.topic raw p service).2.dlqTopic = service.dlqTopic) ∧
      (∀ topic partition offset, .committed topic partition offset ∉ own) ∧
      (raw.Preserved service.dlqTopic own ↔ handle parse handler raw = .ok true ∨
        ∃ message, handle parse handler raw = .error (.error message) ∧ p.Delivers service) := by
  have hcommit : ∀ service : KafkaService,
      (service.commitOffsets p raw.topic raw.partition (nextOffset raw.offset)).2.effects =
          service.effects ++ (if p.commit.Reaches then [raw.pastCommitted] else []) ∧
        (service.commitOffsets p raw.topic raw.partition (nextOffset raw.offset)).2.dlqTopic = service.dlqTopic := by
    intro service
    rw [KafkaService.commitOffsets]
    cases p.commit <;> simp [Attempt.run, Attempt.Reaches, KafkaService.emit, Message.pastCommitted]
  simp only [eachMessage, hcommit]
  cases handle parse handler raw with
  | ok ran =>
      cases ran with
      | true => exact ⟨[.handled raw], ⟨rfl, rfl⟩, by simp, by simp [Message.Preserved]⟩
      | false => exact ⟨[], by simp, by simp, by simp [Message.Preserved]⟩
  | error thrown =>
      cases thrown with
      | nullish => exact ⟨[], by simp [KafkaService.sendToDlq], by simp, by simp [Message.Preserved]⟩
      | error message =>
          obtain ⟨m, ⟨heffects, hdlq⟩, hm⟩ := KafkaService.produce_spec p service.dlqTopic
            (raw.topic ++ ":" ++ toString raw.partition ++ ":" ++ toString raw.offset)
            (KafkaService.deadLetter p raw.topic raw message)
            { service with producerConnected := service.producerConnected || p.connectedMeanwhile }
          refine ⟨_, ⟨congrArg (· ++ _) heffects, hdlq⟩, by simp [List.mem_replicate], ?_⟩
          have hletter : raw.DeadLettered service.dlqTopic (.sent service.dlqTopic
              (raw.topic ++ ":" ++ toString raw.partition ++ ":" ++ toString raw.offset)
              (KafkaService.deadLetter p raw.topic raw message)) := ⟨rfl, rfl, rfl, rfl, rfl⟩
          have hdelivers : p.Delivers service ↔ 0 < m := by
            rw [hm, Surroundings.Delivers]
            simp only [Bool.or_eq_true, or_assoc]
          rw [Message.Preserved]
          simp only [List.mem_replicate, reduceCtorEq, and_false, false_or, Except.error.injEq, Thrown.error.injEq,
            exists_eq_left', hdelivers]
          constructor
          · rintro ⟨effect, ⟨hsome, -⟩, -⟩
            omega
          · intro hsome
            exact ⟨_, ⟨by omega, rfl⟩, hletter⟩

/-- What is preserved stays so. -/
theorem Message.Preserved.mono {message : Message} {dlqTopic : String} {effects effects' : List Effect}
    (h : message.Preserved dlqTopic effects) (hsub : effects ⊆ effects') : message.Preserved dlqTopic effects' := by
  rcases h with hhandled | ⟨effect, hin, hletter⟩
  · exact Or.inl (hsub hhandled)
  · exact Or.inr ⟨effect, hsub hin, hletter⟩

/-- A commit preserves nothing. -/
theorem preserved_commit {message : Message} {dlqTopic topic : String} {partition offset : ℕ} {effects : List Effect}
    (h : message.Preserved dlqTopic (effects ++ [.committed topic partition offset])) :
    message.Preserved dlqTopic effects := by
  rcases h with hhandled | ⟨effect, hin, hletter⟩
  · exact Or.inl (by simpa using hhandled)
  · rcases List.mem_append.mp hin with hin | hin
    · exact Or.inr ⟨effect, hin, hletter⟩
    · rw [List.mem_singleton.mp hin] at hletter
      cases hletter

/-- The offset stays where nothing is committed. -/
theorem position_append {topic : String} {partition : ℕ} {own : List Effect}
    (hnone : ∀ topic partition offset, .committed topic partition offset ∉ own) (effects : List Effect) :
    position topic partition (effects ++ own) = position topic partition effects := by
  induction own using List.reverseRecOn with
  | nil => rw [List.append_nil]
  | append_singleton own effect ih =>
      have hrest := ih fun topic partition offset hin => hnone topic partition offset (by simp [hin])
      rw [← List.append_assoc, position, List.foldl_append, List.foldl_cons, List.foldl_nil]
      cases effect with
      | committed topic' partition' offset => exact absurd (by simp) (hnone topic' partition' offset)
      | _ => exact hrest

/-- **A message is kept** exactly under the condition; and where the offset past it is not committed, the consumer is
given the message again. -/
theorem kept_iff (raw : Message) (p : Surroundings) (service : KafkaService) :
    ∃ own, (eachMessage parse handler raw.topic raw p service).2.effects = service.effects ++ own ∧
      (Kept raw service.dlqTopic own ↔ p.Keeps (handle parse handler raw) service) ∧
      (raw.pastCommitted ∉ own → position raw.topic raw.partition (service.effects ++ own) =
        position raw.topic raw.partition service.effects) := by
  obtain ⟨own, ⟨heffects, -⟩, hnone, hpreserved⟩ := eachMessage_spec parse handler raw p service
  refine ⟨_, by rw [heffects, List.append_assoc], ?_, ?_⟩
  · rw [Kept, Surroundings.Keeps, ← hpreserved]
    by_cases hreaches : p.commit.Reaches
    · simp only [hreaches, if_true, not_true_eq_false, false_or]
      constructor
      · intro h
        exact preserved_commit (h (by simp))
      · intro h _
        exact h.mono (by simp)
    · simp only [hreaches, if_false, List.append_nil, not_false_eq_true, true_or, iff_true]
      intro hcommitted
      exact absurd hcommitted (hnone _ _ _)
  · intro huncommitted
    by_cases hreaches : p.commit.Reaches
    · rw [if_pos hreaches] at huncommitted
      exact absurd (by simp) huncommitted
    · rw [if_neg hreaches, List.append_nil]
      exact position_append hnone service.effects

end Call

/-- An object without fields is the only payload that can be read. -/
def parseEmpty (text : String) : Except String Unit :=
  if text = "{}" then .ok () else .error "Unexpected token"

/-- A handler fails, the broker refuses five connections, and takes the commit. -/
def refusesConnections : Surroundings :=
  ⟨false, fun _ => .unsent "connection refused", fun _ => .unsent "disconnected", .answered (), "2024-06-09T00:00:00Z"⟩

def unhandled : Message := ⟨"order.executed", 0, 7, some "{}"⟩

/-- **A message is lost**: its offset is committed, and that is all that happens. -/
theorem message_lost :
    (eachMessage parseEmpty (fun _ _ => .error (.error (some "deadlock detected"))) unhandled.topic unhandled
        refusesConnections ⟨"nexus.dlq", false, []⟩).2.effects = [.committed "order.executed" 0 8] ∧
      ¬Kept unhandled "nexus.dlq" [.committed "order.executed" 0 8] := by
  refine ⟨by decide +kernel, fun h => ?_⟩
  rcases h (by decide) with hhandled | ⟨effect, hin, hletter⟩
  · exact absurd hhandled (by decide)
  · rw [List.mem_singleton.mp hin] at hletter
    cases hletter

/-! ### The deliveries of a partition -/

/-- A partition: the values of its messages, and the service whose consumer reads them. -/
structure Partition where
  log : List (Option String)
  service : KafkaService

/-- A producer appends a value, or the consumer is given the next message. -/
inductive Turn
  | append (value : Option String)
  | deliver (p : Surroundings)

section Deliveries

variable {Payload : Type} (parse : String → Except String Payload) (handler : Payload → Message → Except Thrown Unit)
  (topic : String) (number : ℕ)

namespace Partition

/-- The message that the consumer is given next: the first whose offset is not committed. -/
def next (partition : Partition) : Option Message :=
  let offset := position topic number partition.service.effects
  partition.log[offset]?.map fun value => ⟨topic, number, offset, value⟩

def exec (partition : Partition) : Turn → Except Empty (Except String Unit × Partition)
  | .append value => .ok (.ok (), { partition with log := partition.log ++ [value] })
  | .deliver p =>
    match partition.next topic number with
    | none => .ok (.ok (), partition)
    | some raw =>
      let (result, service) := eachMessage parse handler topic raw p partition.service
      .ok (result, { partition with service := service })

/-- **The condition on a delivery.** -/
def Keeps (partition : Partition) : Turn → Prop
  | .append _ => True
  | .deliver p => ∀ raw ∈ partition.next topic number, p.Keeps (handle parse handler raw) partition.service

/-- **Every message before the committed offset is preserved.** -/
def Preserves (partition : Partition) : Prop :=
  ∀ offset value, offset < position topic number partition.service.effects → partition.log[offset]? = some value →
    (⟨topic, number, offset, value⟩ : Message).Preserved partition.service.dlqTopic partition.service.effects

/-- **The invariant**: so is what is preserved, and no offset after the end of the log is committed. -/
structure Sound (partition : Partition) : Prop where
  preserves : partition.Preserves topic number
  within : position topic number partition.service.effects ≤ partition.log.length

variable {parse handler topic number}

/-- **Every step keeps the invariant** under the condition. -/
theorem Sound.step {partition partition' : Partition} {turn : Turn} {reply : Except String Unit}
    (h : partition.Sound topic number) (hmeets : partition.Keeps parse handler topic number turn)
    (hexec : partition.exec parse handler topic number turn = .ok (reply, partition')) :
    partition'.Sound topic number := by
  obtain ⟨hpreserves, hwithin⟩ := h
  cases turn with
  | append value =>
      cases hexec
      refine ⟨fun offset value' hoffset hvalue => hpreserves offset value' hoffset ?_, ?_⟩
      · have hinside : offset < partition.log.length := Nat.lt_of_lt_of_le hoffset hwithin
        rwa [List.getElem?_append_left hinside] at hvalue
      · simp only [List.length_append]
        omega
  | deliver p =>
      cases hnext : partition.next topic number with
      | none =>
          simp only [exec, hnext] at hexec
          cases hexec
          exact ⟨hpreserves, hwithin⟩
      | some raw =>
          simp only [exec, hnext] at hexec
          cases hexec
          have hkeeps := hmeets raw hnext
          obtain ⟨value, hvalue, rfl⟩ := Option.map_eq_some_iff.mp hnext
          obtain ⟨hinside, -⟩ := List.getElem?_eq_some_iff.mp hvalue
          obtain ⟨own, ⟨heffects, hdlq⟩, hnone, hpreserved⟩ := eachMessage_spec parse handler
            ⟨topic, number, position topic number partition.service.effects, value⟩ p partition.service
          by_cases hreaches : p.commit.Reaches
          · rw [if_pos hreaches] at heffects
            have hposition : position topic number (partition.service.effects ++ own ++ [Message.pastCommitted
                ⟨topic, number, position topic number partition.service.effects, value⟩]) =
                  position topic number partition.service.effects + 1 := by
              rw [position, List.foldl_append]
              simp [Message.pastCommitted, nextOffset]
            refine ⟨fun offset value' hoffset hvalue' => ?_, ?_⟩
            · simp only [heffects, hdlq, hposition] at hoffset ⊢
              rcases Nat.lt_or_ge offset (position topic number partition.service.effects) with hbefore | hthere
              · exact (hpreserves offset value' hbefore hvalue').mono (by simp)
              · obtain rfl : offset = position topic number partition.service.effects := by omega
                obtain rfl : value = value' := Option.some.inj (hvalue.symm.trans hvalue')
                exact (hpreserved.mpr (hkeeps.resolve_left (not_not_intro hreaches))).mono (by simp)
            · simp only [heffects, hposition]
              omega
          · rw [if_neg hreaches, List.append_nil] at heffects
            refine ⟨fun offset value' hoffset hvalue' => ?_, ?_⟩
            · simp only [heffects, hdlq, position_append hnone] at hoffset ⊢
              exact (hpreserves offset value' hoffset hvalue').mono (by simp)
            · simp only [heffects, position_append hnone]
              exact hwithin

end Partition

/-- **No message is lost**: in every run whose deliveries meet the condition, every message before the committed
offset was handled or written to the dead-letter topic. -/
theorem partition_kept {partition : Partition} (h : partition.Sound topic number) {turns : List Turn}
    (hmeets : Machine.Along (Partition.exec parse handler topic number) (Partition.Keeps parse handler topic number)
      partition turns) :
    ∃ replies partition', Machine.run (Partition.exec parse handler topic number) partition turns
        = .ok (replies, partition') ∧ partition'.Preserves topic number := by
  obtain ⟨replies, partition', hrun, hsound⟩ := Machine.run_safe_along
    (Q := fun _ _ partition => partition.Sound topic number) h
    (fun _ _ _ _ _ _ hinv hmeets hexec => hinv.step hmeets hexec) turns hmeets
  exact ⟨replies, partition', hrun, hsound.preserves⟩

end Deliveries

end NexusTrade.Kafka
