import NexusTrade.Lib.Relay
import NexusTrade.Shared.Kafka

/-!
# The Kafka consumer as a relay

A handler that produces one event for a message, or none, makes the consumer of `KafkaService` one that sends on what
it reads: its dead letters and its commits are those of a `Relay.Consumer`.

* **`relays`** is such a handler;
* **`Seen`**: what has been seen of a service is what a relay has done;
* **`eachMessage_relayed`**: a call of `eachMessage` is a delivery to the relay, and **`arrivals_relayed`** follows it
  through the messages of a partition.
-/

namespace NexusTrade.Kafka

open KafkaService (eachMessage)

/-! ### What is seen -/

/-- The offsets of the dead letters. -/
def lettersOf (effects : List Effect) : List ℕ :=
  effects.filterMap fun effect =>
    match effect with
    | .sent _ _ letter => some letter.offset
    | _ => none

/-- The offsets of the messages past which an offset has been committed. -/
def commitsOf (effects : List Effect) : List ℕ :=
  effects.filterMap fun effect =>
    match effect with
    | .committed _ _ offset => some (offset - 1)
    | _ => none

/-- **What is seen** of a service is what a relay has done. -/
structure Seen {O : Type} (service : KafkaService) (consumer : Relay.Consumer O) : Prop where
  letters : lettersOf service.effects = consumer.letters
  commits : commitsOf service.effects = consumer.committed

/-! ### A handler that sends on -/

section Handler

variable {Payload O : Type} (act : Payload → Except String (Option O)) (send : ℕ → Attempt String Unit)

/-- What a handler throws. -/
def thrown (error : String) : Thrown := .error (some error)

/-- **A handler** that produces what its payload calls for; `withRetry` makes the attempts of a pattern. -/
def relays (payload : Payload) (_ : Message) : Except Thrown Unit :=
  match act payload with
  | .ok none => .ok ()
  | .ok (some _) => (Attempt.persist (fun _ => ((), ())) send 4 0 ()).1.mapError thrown
  | .error error => .error (thrown error)

/-- The attempts to write a dead letter: without a connection none of them reaches the broker. -/
def Surroundings.letter (p : Surroundings) (service : KafkaService) (k : ℕ) : Attempt String Unit :=
  match (service.connectProducer p).1 with
  | .ok () => p.send k
  | .error error => .unsent error

/-- The service when the handler has run. -/
def Surroundings.after (p : Surroundings) (service : KafkaService) : KafkaService :=
  { service with producerConnected := service.producerConnected || p.connectedMeanwhile }

/-- **A call of `eachMessage`**, as a delivery to a relay. -/
def Surroundings.delivery (p : Surroundings) (service : KafkaService) (raw : Message) : Relay.Delivery String :=
  ⟨raw.offset, send, p.letter (p.after service), p.commit⟩

end Handler

/-! ### A call -/

section Call

variable {Payload O : Type} {parse : String → Except String Payload} {act : Payload → Except String (Option O)}
  {send : ℕ → Attempt String Unit} {p : Surroundings} {service : KafkaService} {consumer : Relay.Consumer O}

/-- One effect more is seen. -/
theorem Seen.emit (h : Seen service consumer) {effect : Effect} {consumer' : Relay.Consumer O}
    (hletters : consumer'.letters = consumer.letters ++ lettersOf [effect])
    (hcommits : consumer'.committed = consumer.committed ++ commitsOf [effect]) :
    Seen (service.emit effect) consumer' := by
  constructor
  · rw [hletters, ← h.letters]
    exact List.filterMap_append
  · rw [hcommits, ← h.commits]
    exact List.filterMap_append

/-- Whether the handler succeeds is whether the relay does. -/
theorem send_result (send : ℕ → Attempt String Unit) (output : O) (consumer : Relay.Consumer O) :
    (consumer.send 4 send output).1 = (Attempt.persist (fun _ => ((), ())) send 4 0 ()).1 :=
  (Attempt.persist_simulates (R := fun (_ : Relay.Consumer O) (_ : Unit) => True) (fun _ _ _ => ⟨rfl, trivial⟩) send
    4 0 consumer () trivial).1

/-- **A dead letter** is written as the relay writes it. -/
theorem Seen.bury (h : Seen service consumer) (topic : String) (raw : Message) (error : Option String) :
    Seen (service.sendToDlq p topic raw (.error error)) (consumer.bury 4 (p.letter service) raw.offset) := by
  obtain ⟨⟨hsame, -⟩, -⟩ := KafkaService.connectProducer_spec p service
  rw [KafkaService.sendToDlq, KafkaService.produce, Relay.Consumer.bury]
  cases hconnect : service.connectProducer p with
  | mk result connected =>
      rw [hconnect] at hsame
      have hconnected : Seen connected consumer := by
        constructor
        · rw [hsame]
          exact h.letters
        · rw [hsame]
          exact h.commits
      cases result with
      | error e =>
          -- no attempt reaches the broker
          have hunsent : p.letter service = fun _ => .unsent e := by
            funext k
            rw [Surroundings.letter, hconnect]
          rw [hunsent, Attempt.persist_unsent]
          exact hconnected
      | ok done =>
          have hsent : p.letter service = p.send := by
            funext k
            rw [Surroundings.letter, hconnect]
          rw [hsent]
          exact (Attempt.persist_simulates (R := fun service consumer => Seen service consumer)
            (fun before relay hseen => ⟨rfl, hseen.emit rfl (List.append_nil _).symm⟩) p.send 4 0 connected consumer
            hconnected).2

/-- **A commit** is that of the relay. -/
theorem Seen.commit (h : Seen service consumer) (raw : Message) :
    Seen (service.commitOffsets p raw.topic raw.partition (KafkaService.nextOffset raw.offset)).2
      (consumer.commit p.commit raw.offset) := by
  have hreached : Seen (service.emit raw.pastCommitted)
      { consumer with committed := consumer.committed ++ [raw.offset] } :=
    h.emit (List.append_nil _).symm rfl
  rw [KafkaService.commitOffsets, Relay.Consumer.commit]
  cases p.commit with
  | unsent error => exact h
  | lost error input => exact hreached
  | answered input => exact hreached

/-- A message of the log: its value can be read. -/
def Carries (parse : String → Except String Payload) (log : List Payload) (raw : Message) : Prop :=
  ∃ text payload, raw.value = some text ∧ text ≠ "" ∧ parse text = .ok payload ∧ log[raw.offset]? = some payload

/-- **A call of `eachMessage` is a delivery** to the relay. -/
theorem eachMessage_relayed (h : Seen service consumer) {log : List Payload} {raw : Message}
    (hraw : Carries parse log raw) (topic : String) :
    Seen (eachMessage parse (relays act send) topic raw p service).2
      (consumer.deliver 4 act log (p.delivery send service raw)) := by
  obtain ⟨text, payload, hvalue, htext, hparse, hlog⟩ := hraw
  have hafter : Seen (p.after service) consumer := ⟨h.letters, h.commits⟩
  have hhandle : KafkaService.handle parse (relays act send) raw
      = (relays act send payload raw).map fun _ => true := by
    rw [KafkaService.handle, hvalue]
    simp only [if_neg htext, hparse]
    cases relays act send payload raw <;> rfl
  have hkept : ∀ {service : KafkaService} {consumer : Relay.Consumer O}, Seen service consumer →
      Seen (service.emit (.handled raw)) consumer :=
    fun hseen => hseen.emit (List.append_nil _).symm (List.append_nil _).symm
  have hfound : log[(p.delivery send service raw).position]? = some payload := hlog
  rw [Relay.Consumer.deliver, hfound, eachMessage]
  refine Seen.commit ?_ raw
  rw [hhandle, relays, Relay.Consumer.handle]
  cases hact : act payload with
  | error error => exact hafter.bury topic raw (some error)
  | ok called =>
      cases called with
      | none => exact hkept hafter
      | some output =>
          have hresult := send_result send output consumer
          have hsent : Seen (p.after service) (consumer.send 4 send output).2 := by
            obtain ⟨n, hsend, -⟩ := Relay.Consumer.send_spec 4 send output consumer
            rw [hsend]
            exact ⟨hafter.letters, hafter.commits⟩
          rw [← hresult]
          simp only [Surroundings.delivery]
          cases hrun : consumer.send 4 send output with
          | mk result after =>
              rw [hrun] at hsent
              cases result with
              | ok done => exact hkept hsent
              | error error => exact hsent.bury topic raw (some error)

end Call

/-! ### The messages of a partition -/

/-- A message that the consumer is given, and what becomes of the attempts that follow. -/
structure Arrival where
  raw : Message
  surroundings : Surroundings
  send : ℕ → Attempt String Unit

section Arrivals

variable {Payload O : Type} (parse : String → Except String Payload) (act : Payload → Except String (Option O))
  (topic : String)

def KafkaService.arrive (service : KafkaService) (arrival : Arrival) : KafkaService :=
  (eachMessage parse (relays act arrival.send) topic arrival.raw arrival.surroundings service).2

/-- **The messages of a partition**, each given any number of times and in any order, are deliveries to the relay. -/
theorem arrivals_relayed {log : List Payload} (arrivals : List Arrival) :
    ∀ {service : KafkaService} {consumer : Relay.Consumer O}, Seen service consumer →
      (∀ arrival ∈ arrivals, Carries parse log arrival.raw) →
      ∃ deliveries : List (Relay.Delivery String),
        deliveries.map Relay.Delivery.position = arrivals.map (fun arrival => arrival.raw.offset) ∧
        Seen (arrivals.foldl (KafkaService.arrive parse act topic) service)
          (deliveries.foldl (fun consumer delivery => consumer.deliver 4 act log delivery) consumer) := by
  induction arrivals with
  | nil =>
      intro service consumer h _
      exact ⟨[], rfl, h⟩
  | cons arrival arrivals ih =>
      intro service consumer h hlog
      have hfirst : Seen (service.arrive parse act topic arrival) (consumer.deliver 4 act log
          (arrival.surroundings.delivery arrival.send service arrival.raw)) :=
        eachMessage_relayed h (hlog arrival List.mem_cons_self) topic
      obtain ⟨deliveries, hpositions, hseen⟩ := ih hfirst fun a ha => hlog a (List.mem_cons_of_mem arrival ha)
      refine ⟨arrival.surroundings.delivery arrival.send service arrival.raw :: deliveries, ?_, hseen⟩
      rw [List.map_cons, hpositions]
      rfl

end Arrivals

end NexusTrade.Kafka
