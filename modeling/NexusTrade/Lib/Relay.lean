import Mathlib.Data.List.Basic
import NexusTrade.Lib.Retry

/-!
# A consumer that sends on what it reads

A consumer is given the messages of a log, each any number of times and in any order.  A message calls for something
that is sent on, or for nothing, or is refused.  What is sent is sent again until an answer arrives; a message that is
refused, or whose output no answer arrives for, is written to the dead letters the same way; and then the offset past
the message is committed.

* **`Consumer.send`**, **`bury`**, **`commit`** and **`deliver`**: what the consumer does, and one lemma for each;
* **`Noticed`**: what a message calls for has been sent, or the message is a dead letter;
* **`Keeps`**: the condition on a delivery, that an attempt reaches the broker if the commit does;
* **`Sound`** is the invariant: what is sent was called for, and every message whose offset is committed is noticed.
  **`Sound.deliver`**, **`Sound.send`** and **`Sound.append`** say that it is kept.
-/

namespace Relay

variable {M O ε : Type}

/-! ### The consumer -/

/-- What a consumer has done: what it has sent, the positions of its dead letters, and those that it has committed. -/
structure Consumer (O : Type) where
  sent : List O
  letters : List ℕ
  committed : List ℕ
  deriving DecidableEq

/-- A consumer that has been given nothing. -/
def Consumer.new : Consumer O := ⟨[], [], []⟩

/-- A delivery: of which message, and what becomes of the attempts that the consumer makes. -/
structure Delivery (ε : Type) where
  position : ℕ
  send : ℕ → Attempt ε Unit
  letter : ℕ → Attempt ε Unit
  commit : Attempt ε Unit

namespace Consumer

variable (retries : ℕ) (act : M → Except ε (Option O))

/-- Something is sent, until an answer arrives or no retry is left. -/
def send (pattern : ℕ → Attempt ε Unit) (output : O) (consumer : Consumer O) : Except ε Unit × Consumer O :=
  Attempt.persist (fun consumer : Consumer O => ((), { consumer with sent := consumer.sent ++ [output] })) pattern
    retries 0 consumer

/-- A message is written to the dead letters; if that fails too, it is dropped. -/
def bury (pattern : ℕ → Attempt ε Unit) (position : ℕ) (consumer : Consumer O) : Consumer O :=
  (Attempt.persist (fun consumer : Consumer O => ((), { consumer with letters := consumer.letters ++ [position] }))
    pattern retries 0 consumer).2

/-- The offset past a message is committed. -/
def commit (attempt : Attempt ε Unit) (position : ℕ) (consumer : Consumer O) : Consumer O :=
  (attempt.run (fun _ consumer => .ok ((), { consumer with committed := consumer.committed ++ [position] }))
    consumer).2

/-- What is made of a message. -/
def handle (delivery : Delivery ε) (message : M) (consumer : Consumer O) : Consumer O :=
  match act message with
  | .ok none => consumer
  | .ok (some output) =>
    match consumer.send retries delivery.send output with
    | (.ok (), consumer) => consumer
    | (.error _, consumer) => consumer.bury retries delivery.letter delivery.position
  | .error _ => consumer.bury retries delivery.letter delivery.position

/-- **A delivery** of a message of the log. -/
def deliver (log : List M) (delivery : Delivery ε) (consumer : Consumer O) : Consumer O :=
  match log[delivery.position]? with
  | none => consumer
  | some message => (consumer.handle retries act delivery message).commit delivery.commit delivery.position

/-! ### What the operations do -/

/-- What is appended again and again. -/
theorem persist_snoc {σ A : Type} (step : σ → σ) (view : List A → σ) {a : A}
    (hstep : ∀ l, step (view l) = view (l ++ [a])) (pattern : ℕ → Attempt ε Unit) (l : List A) :
    ∃ n, (Attempt.persist (fun s => ((), step s)) pattern retries 0 (view l)).2 = view (l ++ List.replicate n a) ∧
      (0 < n ↔ ∃ k ≤ retries, (pattern k).Reaches) := by
  have hiterate : ∀ n l, step^[n] (view l) = view (l ++ List.replicate n a) := by
    intro n
    induction n with
    | zero =>
        intro l
        simp
    | succ n ih =>
        intro l
        rw [Function.iterate_succ_apply, hstep, ih]
        simp [List.replicate_succ]
  obtain ⟨n, hstate, hn⟩ := Attempt.retry_iterate (fun s => ((), step s)) pattern retries 0 (view l)
  refine ⟨n, ?_, by simpa using hn⟩
  rw [hstate]
  exact hiterate n l

/-- **`send`** adds its output some times, and at all if an attempt reaches the broker. -/
theorem send_spec (pattern : ℕ → Attempt ε Unit) (output : O) (consumer : Consumer O) :
    ∃ n, (consumer.send retries pattern output).2
        = { consumer with sent := consumer.sent ++ List.replicate n output } ∧
      (0 < n ↔ ∃ k ≤ retries, (pattern k).Reaches) :=
  persist_snoc retries (fun consumer : Consumer O => { consumer with sent := consumer.sent ++ [output] })
    (fun sent => { consumer with sent := sent }) (fun _ => rfl) pattern consumer.sent

/-- It succeeds only if an attempt reaches the broker. -/
theorem reaches_of_send {retries : ℕ} {pattern : ℕ → Attempt ε Unit} {output : O} {consumer : Consumer O}
    (h : (consumer.send retries pattern output).1 = .ok ()) : ∃ k ≤ retries, (pattern k).Reaches := by
  obtain ⟨k, hk, hanswers⟩ := (Attempt.retry_answers _ pattern retries 0 consumer).mp ⟨(), h⟩
  rw [Nat.zero_add] at hanswers
  refine ⟨k, hk, ?_⟩
  cases hp : pattern k with
  | unsent error =>
      rw [hp] at hanswers
      exact hanswers
  | lost => trivial
  | answered => trivial

/-- **`bury`** adds the position some times, and at all if an attempt reaches the broker. -/
theorem bury_spec (pattern : ℕ → Attempt ε Unit) (position : ℕ) (consumer : Consumer O) :
    ∃ n, consumer.bury retries pattern position
        = { consumer with letters := consumer.letters ++ List.replicate n position } ∧
      (0 < n ↔ ∃ k ≤ retries, (pattern k).Reaches) :=
  persist_snoc retries (fun consumer : Consumer O => { consumer with letters := consumer.letters ++ [position] })
    (fun letters => { consumer with letters := letters }) (fun _ => rfl) pattern consumer.letters

/-- **`commit`** adds the position if the attempt reaches the broker. -/
theorem commit_spec (attempt : Attempt ε Unit) (position : ℕ) (consumer : Consumer O) :
    consumer.commit attempt position
      = { consumer with committed := consumer.committed ++ if attempt.Reaches then [position] else [] } := by
  cases attempt <;> simp [commit, Attempt.run, Attempt.Reaches]

/-- **`handle`** sends only what the message calls for, writes it to the dead letters only if it calls for something,
and commits nothing. -/
theorem handle_spec (delivery : Delivery ε) (message : M) (consumer : Consumer O) :
    ∃ sent letters, consumer.handle retries act delivery message
        = { consumer with sent := consumer.sent ++ sent, letters := consumer.letters ++ letters } ∧
      (∀ output ∈ sent, act message = .ok (some output)) ∧
      (∀ position ∈ letters, position = delivery.position ∧ act message ≠ .ok none) ∧
      ((∃ k ≤ retries, (delivery.letter k).Reaches) → act message ≠ .ok none →
        (∃ output ∈ sent, act message = .ok (some output)) ∨ delivery.position ∈ letters) ∧
      ((∃ k ≤ retries, (delivery.send k).Reaches) → ∀ output, act message = .ok (some output) → output ∈ sent) := by
  rw [handle]
  cases hact : act message with
  | error error =>
      obtain ⟨n, hbury, hn⟩ := bury_spec retries delivery.letter delivery.position consumer
      refine ⟨[], List.replicate n delivery.position, by simpa using hbury, by simp, ?_, ?_, by simp⟩
      · intro position hposition
        exact ⟨List.eq_of_mem_replicate hposition, by simp⟩
      · intro hreaches _
        have hsome : 0 < n := hn.mpr hreaches
        exact .inr (List.mem_replicate.mpr ⟨by omega, rfl⟩)
  | ok called =>
      cases called with
      | none => exact ⟨[], [], by simp, by simp, by simp, by simp, by simp⟩
      | some output =>
          obtain ⟨n, hsend, hn⟩ := send_spec retries delivery.send output consumer
          have hsent : ∀ o ∈ List.replicate n output,
              (Except.ok (some output) : Except ε (Option O)) = .ok (some o) := by
            intro o ho
            rw [List.eq_of_mem_replicate ho]
          have hreached : (∃ k ≤ retries, (delivery.send k).Reaches) → output ∈ List.replicate n output := by
            intro hreaches
            have hsome : 0 < n := hn.mpr hreaches
            exact List.mem_replicate.mpr ⟨by omega, rfl⟩
          cases hresult : consumer.send retries delivery.send output with
          | mk result after =>
              rw [hresult] at hsend
              subst hsend
              cases result with
              | ok =>
                  have hin := hreached (reaches_of_send (congrArg Prod.fst hresult))
                  refine ⟨List.replicate n output, [], by simp [hresult], hsent, by simp, ?_, ?_⟩
                  · exact fun _ _ => .inl ⟨output, hin, rfl⟩
                  · intro _ o ho
                    cases ho
                    exact hin
              | error error =>
                  obtain ⟨m, hbury, hm⟩ := bury_spec retries delivery.letter delivery.position
                    { consumer with sent := consumer.sent ++ List.replicate n output }
                  refine ⟨List.replicate n output, List.replicate m delivery.position, ?_, hsent, ?_, ?_, ?_⟩
                  · simpa [hact, hresult] using hbury
                  · intro position hposition
                    exact ⟨List.eq_of_mem_replicate hposition, by simp⟩
                  · intro hreaches _
                    have hsome : 0 < m := hm.mpr hreaches
                    exact .inr (List.mem_replicate.mpr ⟨by omega, rfl⟩)
                  · intro hreaches o ho
                    cases ho
                    exact hreached hreaches

end Consumer

/-! ### What is noticed -/

section Noticed

variable (act : M → Except ε (Option O))

/-- **A message is noticed**: it calls for nothing, or what it calls for has been sent, or it is a dead letter. -/
def Noticed (log : List M) (consumer : Consumer O) (position : ℕ) : Prop :=
  ∀ message, log[position]? = some message → act message = .ok none ∨
    (∃ output ∈ consumer.sent, act message = .ok (some output)) ∨ position ∈ consumer.letters

/-- **The condition on a delivery**: if the commit reaches the broker, the message calls for nothing, or an attempt to
send its output reaches the broker, or one to write the dead letter does. -/
def Keeps (retries : ℕ) (log : List M) (delivery : Delivery ε) : Prop :=
  delivery.commit.Reaches → ∀ message ∈ log[delivery.position]?, act message = .ok none ∨
    ((∃ k ≤ retries, (delivery.send k).Reaches) ∧ ∃ output, act message = .ok (some output)) ∨
      ∃ k ≤ retries, (delivery.letter k).Reaches

instance decidableCalls : (called : Except ε (Option O)) → Decidable (∃ output, called = .ok (some output))
  | .ok (some output) => .isTrue ⟨output, rfl⟩
  | .ok none => .isFalse (by simp)
  | .error _ => .isFalse (by simp)

instance [DecidableEq ε] [DecidableEq O] (retries : ℕ) (log : List M) (delivery : Delivery ε) :
    Decidable (Keeps act retries log delivery) :=
  inferInstanceAs (Decidable (delivery.commit.Reaches → ∀ message ∈ log[delivery.position]?, act message = .ok none ∨
    ((∃ k ≤ retries, (delivery.send k).Reaches) ∧ ∃ output, act message = .ok (some output)) ∨
      ∃ k ≤ retries, (delivery.letter k).Reaches))

/-- **The invariant**: what is sent was called for, or may be sent by others; a dead letter is a message of the log that
calls for something; and every message that is committed is in the log and noticed. -/
structure Sound (others : O → Prop) (log : List M) (consumer : Consumer O) : Prop where
  sent : ∀ output ∈ consumer.sent, others output ∨ ∃ message ∈ log, act message = .ok (some output)
  letters : ∀ position ∈ consumer.letters, ∃ message, log[position]? = some message ∧ act message ≠ .ok none
  committed : ∀ position ∈ consumer.committed, position < log.length ∧ Noticed act log consumer position

end Noticed

variable {act : M → Except ε (Option O)} {retries : ℕ} {others others' : O → Prop} {log : List M}
  {consumer consumer' : Consumer O}

/-- What is noticed stays so, while more is sent and written. -/
theorem Noticed.mono {position : ℕ} (h : Noticed act log consumer position) (hsent : consumer.sent ⊆ consumer'.sent)
    (hletters : consumer.letters ⊆ consumer'.letters) : Noticed act log consumer' position := by
  intro message hmessage
  rcases h message hmessage with hnone | ⟨output, houtput, hcalls⟩ | hletter
  · exact .inl hnone
  · exact .inr (.inl ⟨output, hsent houtput, hcalls⟩)
  · exact .inr (.inr (hletters hletter))

theorem Sound.new (others : O → Prop) (log : List M) : Sound act others log .new where
  sent := by simp [Consumer.new]
  letters := by simp [Consumer.new]
  committed := by simp [Consumer.new]

/-- Others may send more. -/
theorem Sound.imp (h : Sound act others log consumer) (himp : ∀ output, others output → others' output) :
    Sound act others' log consumer :=
  ⟨fun output houtput => (h.sent output houtput).imp_left (himp output), h.letters, h.committed⟩

/-- **The log grows.** -/
theorem Sound.append (h : Sound act others log consumer) (more : List M) : Sound act others (log ++ more) consumer where
  sent := by
    intro output houtput
    rcases h.sent output houtput with hother | ⟨message, hmessage, hcalls⟩
    · exact .inl hother
    · exact .inr ⟨message, List.mem_append_left more hmessage, hcalls⟩
  letters := by
    intro position hposition
    obtain ⟨message, hmessage, hcalls⟩ := h.letters position hposition
    refine ⟨message, ?_, hcalls⟩
    rw [List.getElem?_append_left (List.getElem?_eq_some_iff.mp hmessage).1]
    exact hmessage
  committed := by
    intro position hposition
    obtain ⟨hinside, hnoticed⟩ := h.committed position hposition
    refine ⟨by rw [List.length_append]; omega, fun message hmessage => hnoticed message ?_⟩
    rwa [List.getElem?_append_left hinside] at hmessage

/-- **Something else is sent.** -/
theorem Sound.send (h : Sound act others log consumer) {output : O} (hother : others output)
    (pattern : ℕ → Attempt ε Unit) : Sound act others log (consumer.send retries pattern output).2 := by
  obtain ⟨n, hsend, -⟩ := Consumer.send_spec retries pattern output consumer
  rw [hsend]
  refine ⟨fun o ho => ?_, h.letters, fun position hposition => ?_⟩
  · rcases List.mem_append.mp ho with ho | ho
    · exact h.sent o ho
    · rw [List.eq_of_mem_replicate ho]
      exact .inl hother
  · obtain ⟨hinside, hnoticed⟩ := h.committed position hposition
    exact ⟨hinside, hnoticed.mono (List.subset_append_left _ _) (List.Subset.refl _)⟩

/-- **A delivery keeps the invariant** under the condition. -/
theorem Sound.deliver (h : Sound act others log consumer) {delivery : Delivery ε}
    (hkeeps : Keeps act retries log delivery) : Sound act others log (consumer.deliver retries act log delivery) := by
  rw [Consumer.deliver]
  cases hmessage : log[delivery.position]? with
  | none => exact h
  | some message =>
      obtain ⟨sent, letters, hhandle, hcalled, hburied, hletter, hsend⟩ := Consumer.handle_spec retries act
        delivery message consumer
      simp only [hhandle, Consumer.commit_spec]
      refine ⟨fun output houtput => ?_, fun position hposition => ?_, fun position hposition => ?_⟩
      · rcases List.mem_append.mp houtput with houtput | houtput
        · exact h.sent output houtput
        · exact .inr ⟨message, List.mem_of_getElem? hmessage, hcalled output houtput⟩
      · rcases List.mem_append.mp hposition with hposition | hposition
        · exact h.letters position hposition
        · obtain ⟨rfl, hcalls⟩ := hburied position hposition
          exact ⟨message, hmessage, hcalls⟩
      · rcases List.mem_append.mp hposition with hposition | hposition
        · obtain ⟨hinside, hnoticed⟩ := h.committed position hposition
          exact ⟨hinside, hnoticed.mono (List.subset_append_left _ _) (List.subset_append_left _ _)⟩
        · split at hposition
          · rename_i hreaches
            obtain rfl := List.mem_singleton.mp hposition
            refine ⟨(List.getElem?_eq_some_iff.mp hmessage).1, fun other hother => ?_⟩
            obtain rfl : message = other := Option.some.inj (hmessage.symm.trans hother)
            rcases hkeeps hreaches message hmessage with hnone | ⟨hreached, output, hcalls⟩ | hreached
            · exact .inl hnone
            · exact .inr (.inl ⟨output, List.mem_append_right _ (hsend hreached output hcalls), hcalls⟩)
            · by_cases hnone : act message = .ok none
              · exact .inl hnone
              · refine .inr ((hletter hreached hnone).imp ?_ (List.mem_append_right _))
                rintro ⟨output, houtput, hcalls⟩
                exact ⟨output, List.mem_append_right _ houtput, hcalls⟩
          · cases hposition

end Relay
