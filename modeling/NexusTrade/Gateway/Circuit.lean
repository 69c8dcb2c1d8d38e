import NexusTrade.Gateway.Proxy
import NexusTrade.Lib.Run

/-!
# The circuit of an upstream

Calls to an upstream that proceed together.  A call that fails counts on from the state of the circuit that it has
read before the fetch, and replaces what others have written in the meantime.

* **`Since`** is what has happened at an upstream since its last success was written, **`Watched`** remembers it;
* **`Protects`** says what the circuit is for, **`CountsOn`** is the condition on a step;
* **`Counted`** is the invariant of an upstream, **`AllCounted.step`** the step lemma, and **`circuit_protects`** says
  that in every run under the condition every failure counts and an open circuit stays open;
* **`overlapping_failures`** and **`late_failure_recloses`**: what calls that overlap do.
-/

namespace NexusTrade.Gateway

/-! ### What a step ends -/

/-- The call that goes on after its fetch, with the state that it has read and the answer. -/
def fetched (world : GatewayWorld) : GatewayTurn → Option (Point × Answer)
  | .resume pos =>
    match world.threads[pos]? with
    | some ⟨_, .ready answer point⟩ => some (point, answer)
    | _ => none
  | _ => none

/-- The time that a step reads. -/
def timeOf (world : GatewayWorld) (turn : GatewayTurn) : Option ℤ :=
  match turn with
  | .enter call => some call.now
  | _ =>
    match fetched world turn with
    | some (_, .error _ now) => some now
    | _ => none

variable (config : GatewayConfig)

/-- **A step writes** the circuits where a call goes on after its fetch, and nowhere else. -/
theorem step_circuits (world : GatewayWorld) (turn : GatewayTurn) :
    ((program config).step world turn).memory
      = (fetched world turn).elim world.memory fun p => (resume config p.1 p.2 world.memory).2 := by
  cases turn with
  | enter call =>
      show (enter config call world.memory).2 = world.memory
      simp only [enter]
      split <;> rfl
  | perform pos answer =>
      simp only [Program.step]
      split <;> rfl
  | resume pos =>
      cases hget : world.threads[pos]? with
      | none => simp only [fetched, Program.step, hget, Option.elim]
      | some thread =>
          obtain ⟨call, progress⟩ := thread
          cases progress <;> simp only [fetched, Program.step, hget, Option.elim]
          rfl

/-! ### What a circuit is for -/

/-- **Since the last success at an upstream**: the calls that have failed, and the times until which the circuit has
been opened. -/
structure Since where
  failed : ℕ
  openings : List ℤ

/-- What the end of a call makes of it. -/
def Since.after (since : Since) (point : Point) : Answer → Since
  | .response _ => ⟨0, []⟩
  | .error _ now =>
    ⟨since.failed + 1,
      if config.circuitFailures ≤ nextFailures point.state then (now + config.circuitOpenMs) :: since.openings
      else since.openings⟩

/-- The program, what has happened at each upstream since its last success, and the time that was read last. -/
structure Watched where
  world : GatewayWorld
  since : Upstream → Since
  clock : ℤ

/-- What is remembered of an upstream. -/
def observe (since : Upstream → Since) : Option (Point × Answer) → Upstream → Since
  | none, base => since base
  | some (point, answer), base =>
    if base = point.call.base then (since base).after config point answer else since base

/-- Make a step and watch. -/
def Watched.exec (w : Watched) (turn : GatewayTurn) : Except Empty (Unit × Watched) :=
  .ok ((), ⟨(program config).step w.world turn, observe config w.since (fetched w.world turn),
    (timeOf w.world turn).getD w.clock⟩)

def Watched.start (now : ℤ) : Watched := ⟨Gateway.start, fun _ => ⟨0, []⟩, now⟩

/-- **What the circuit is for**: once enough calls have failed it has been opened, and no request is sent before the
time until which it has been opened. -/
structure Protects (w : Watched) : Prop where
  opens : ∀ base, config.circuitFailures ≤ (w.since base).failed → (w.since base).openings ≠ []
  staysOpen : ∀ call, ∀ opening ∈ (w.since call.base).openings, call.now < opening →
    enter config call w.world.memory = (.finish (.failed (circuitOpen call.base)), w.world.memory)

/-- Time does not go back. -/
def Forward (w : Watched) (turn : GatewayTurn) : Prop := ∀ now ∈ timeOf w.world turn, w.clock ≤ now

/-- The failures that a state counts. -/
def failuresOf (state : Option Circuit) : ℕ := state.elim 0 Circuit.failures

/-- The state that a call has read counts no less than the circuit does now, or enough to open it. -/
def Answer.countsOn (circuits : Circuits) (point : Point) : Answer → Bool
  | .response _ => true
  | .error _ _ => decide (failuresOf (circuits point.call.base) ≤ failuresOf point.state ∨
      config.circuitFailures ≤ nextFailures point.state)

/-- **The condition on a step**: a call that fails has read a state that counts no less than the circuit does now, or
enough to open it. -/
def CountsOn (w : Watched) (turn : GatewayTurn) : Prop :=
  ∀ p ∈ fetched w.world turn, p.2.countsOn config w.world.memory p.1 = true

instance (w : Watched) : DecidablePred (Forward w) := fun _ => inferInstanceAs (Decidable (∀ _ ∈ _, _))

instance (w : Watched) : DecidablePred (CountsOn config w) := fun _ => inferInstanceAs (Decidable (∀ _ ∈ _, _))

/-! ### One upstream -/

/-- **The invariant of an upstream**: a circuit that has not been opened counts every failure, and one that has been
opened keeps its count and its time. -/
structure Counted (found : Option Circuit) (since : Since) (clock : ℤ) : Prop where
  counted : since.openings = [] → since.failed ≤ failuresOf found ∧ failuresOf found < config.circuitFailures
  opened : since.openings ≠ [] → config.circuitFailures ≤ failuresOf found
  lasts : ∀ opening ∈ since.openings, opening ≤ clock + config.circuitOpenMs ∧
    ∃ circuit, found = some circuit ∧ opening ≤ circuit.openUntil

section Upstream

variable {config} {found : Option Circuit} {since : Since} {clock clock' : ℤ}

theorem Counted.none (hpositive : 0 < config.circuitFailures) (clock : ℤ) : Counted config none ⟨0, []⟩ clock :=
  ⟨fun _ => ⟨le_rfl, hpositive⟩, fun h => absurd rfl h, by simp⟩

theorem Counted.later (h : Counted config found since clock) (hclock : clock ≤ clock') :
    Counted config found since clock' := by
  refine ⟨h.counted, h.opened, fun opening hopening => ?_⟩
  obtain ⟨hle, hfound⟩ := h.lasts opening hopening
  exact ⟨by omega, hfound⟩

/-- **A call succeeds.** -/
theorem Counted.succeeded (hpositive : 0 < config.circuitFailures) (clock : ℤ) :
    Counted config (some ⟨0, 0⟩) ⟨0, []⟩ clock :=
  ⟨fun _ => ⟨le_rfl, hpositive⟩, fun h => absurd rfl h, by simp⟩

/-- **A call fails** that counts on. -/
theorem Counted.failed (h : Counted config found since clock) {point : Point} (message : String) {now : ℤ}
    (hnow : clock ≤ now) (hcounts : failuresOf found ≤ failuresOf point.state ∨
      config.circuitFailures ≤ nextFailures point.state) :
    Counted config (some (failedCircuit config point.state now))
      (since.after config point (.error message now)) now := by
  by_cases henough : config.circuitFailures ≤ nextFailures point.state
  · -- the failure opens the circuit, for no less time than those before it
    rw [Since.after, failedCircuit, if_pos henough, if_pos henough]
    refine ⟨fun hnil => absurd hnil (List.cons_ne_nil _ _), fun _ => henough, fun opening hopening => ?_⟩
    rcases List.mem_cons.mp hopening with rfl | hopening
    · exact ⟨le_rfl, _, rfl, le_rfl⟩
    · have hle := (h.lasts opening hopening).1
      exact ⟨by omega, _, rfl, by simp only; omega⟩
  · have hle := hcounts.resolve_right henough
    have hnext : nextFailures point.state = failuresOf point.state + 1 := rfl
    have hclosed : since.openings = [] := by
      by_contra hopened
      have := h.opened hopened
      omega
    obtain ⟨hcounted, _⟩ := h.counted hclosed
    rw [Since.after, failedCircuit, if_neg henough, if_neg henough, hclosed]
    refine ⟨fun _ => ⟨?_, not_le.mp henough⟩, fun hopened => absurd rfl hopened, by simp⟩
    show since.failed + 1 ≤ nextFailures point.state
    omega

end Upstream

/-! ### All upstreams -/

/-- **The invariant.** -/
def AllCounted (circuits : Circuits) (since : Upstream → Since) (clock : ℤ) : Prop :=
  ∀ base, Counted config (circuits base) (since base) clock

/-- **The step lemma.** -/
theorem AllCounted.step {w : Watched} (h : AllCounted config w.world.memory w.since w.clock)
    (hpositive : 0 < config.circuitFailures) {turn : GatewayTurn} (hforward : Forward w turn)
    (hcounts : CountsOn config w turn) :
    AllCounted config ((program config).step w.world turn).memory
      (observe config w.since (fetched w.world turn)) ((timeOf w.world turn).getD w.clock) := by
  have hclock : w.clock ≤ (timeOf w.world turn).getD w.clock := by
    cases htime : timeOf w.world turn with
    | none => exact le_rfl
    | some now => exact hforward now htime
  intro base
  rw [step_circuits]
  cases hfetched : fetched w.world turn with
  | none => exact (h base).later hclock
  | some p =>
      obtain ⟨point, answer⟩ := p
      have hcounts' := hcounts _ hfetched
      by_cases hbase : base = point.call.base
      · subst hbase
        cases answer with
        | response response =>
            simp only [Option.elim, resume, Circuits.set, observe, if_pos]
            exact .succeeded hpositive _
        | error message now =>
            have htime : timeOf w.world turn = some now := by
              cases turn with
              | enter call => cases hfetched
              | perform pos answer => cases hfetched
              | resume pos => simp only [timeOf, hfetched]
            rw [htime] at hclock ⊢
            simp only [Option.elim, resume, Circuits.set, observe, if_pos]
            exact (h _).failed message hclock (of_decide_eq_true hcounts')
      · cases answer <;> simp only [Option.elim, resume, Circuits.set, observe, if_neg hbase] <;>
          exact (h base).later hclock

/-- The invariant gives what the circuit is for. -/
theorem AllCounted.protects {w : Watched} (h : AllCounted config w.world.memory w.since w.clock) :
    Protects config w where
  opens := fun base hfailed hclosed => by
    obtain ⟨hcounted, hfew⟩ := (h base).counted hclosed
    omega
  staysOpen := fun call opening hopening hnow => by
    obtain ⟨_, circuit, hfound, hle⟩ := (h call.base).lasts opening hopening
    have hopen : isOpen (w.world.memory call.base) call.now = true := by
      rw [hfound]
      exact decide_eq_true (hnow.trans_le hle)
    simp only [enter, hopen, if_true]

/-- **The circuit protects its upstream**: in every run in which time does not go back and each call that fails counts
on, every failure since the last success counts, and an open circuit stays open until its time. -/
theorem circuit_protects (hpositive : 0 < config.circuitFailures) (now : ℤ) {turns : List GatewayTurn}
    {replies : List Unit} {w : Watched}
    (hrun : Machine.run (Watched.exec config) (Watched.start now) turns = .ok (replies, w))
    (hforward : Machine.Along (Watched.exec config) Forward (Watched.start now) turns)
    (hmeets : Machine.Along (Watched.exec config) (CountsOn config) (Watched.start now) turns) :
    Protects config w := by
  refine AllCounted.protects config (Machine.run_history_along
    (Q := fun _ _ w => AllCounted config w.world.memory w.since w.clock) ?_ ?_ turns replies w hrun
    (Machine.along_and hforward hmeets))
  · exact fun _ => .none hpositive now
  · rintro _ _ w turn _ w' hall ⟨hforward, hcounts⟩ hexec
    cases hexec
    exact hall.step config hpositive hforward hcounts

/-! ### Calls that overlap -/

/-- The settings where no variable is set. -/
def defaultConfig : GatewayConfig := ⟨fun _ => "http://localhost:3004", 3, 30000⟩

/-- A request for a wallet. -/
def request (now : ℤ) : FetchCall := ⟨.wallet, "/wallets/user-1", ⟨none, [], none⟩, now⟩

/-- The fetch of a call fails at a time. -/
def fails (pos : ℕ) (now : ℤ) : List GatewayTurn := [.perform pos (.error "fetch failed" now), .resume pos]

/-- Three calls fail one after another. -/
def inTurn : List GatewayTurn :=
  .enter (request 0) :: fails 0 1 ++ .enter (request 2) :: fails 1 3 ++ .enter (request 4) :: fails 2 5

theorem circuit_protects_inTurn :
    ∃ replies w, Machine.run (Watched.exec defaultConfig) (Watched.start 0) inTurn = .ok (replies, w) ∧
      Protects defaultConfig w := by
  obtain ⟨replies, w, hrun⟩ := Machine.run_returns (Watched.exec defaultConfig) (Watched.start 0) inTurn
  exact ⟨replies, w, hrun, circuit_protects defaultConfig (by decide) 0 hrun (by decide +kernel) (by decide +kernel)⟩

/-- Three calls begin before the first of them has failed. -/
def together : List GatewayTurn :=
  [.enter (request 0), .enter (request 0), .enter (request 0)] ++ fails 0 5000 ++ fails 1 5000 ++ fails 2 5000

/-- **Failures of calls that overlap** are counted once: three have failed, and the circuit has not been opened. -/
theorem overlapping_failures :
    ¬∀ (config : GatewayConfig) (now : ℤ) (turns : List GatewayTurn) (replies : List Unit) (w : Watched),
      0 < config.circuitFailures →
      Machine.run (Watched.exec config) (Watched.start now) turns = .ok (replies, w) →
      Machine.Along (Watched.exec config) Forward (Watched.start now) turns → Protects config w := by
  intro hall
  obtain ⟨replies, w, hrun⟩ := Machine.run_returns (Watched.exec defaultConfig) (Watched.start 0) together
  have hsince : (Machine.run (Watched.exec defaultConfig) (Watched.start 0) together).map
      (fun r => ((r.2.since .wallet).failed, (r.2.since .wallet).openings)) = .ok (3, []) := by
    decide +kernel
  rw [hrun] at hsince
  obtain ⟨hfailed, hopenings⟩ := Prod.mk.inj (Except.ok.inj hsince)
  exact (hall defaultConfig 0 together replies w (by decide) hrun (by decide +kernel)).opens .wallet hfailed.ge
    hopenings

/-- A call begins before three others fail, and fails when they have opened the circuit. -/
def late : List GatewayTurn :=
  .enter (request 0) :: .enter (request 0) :: fails 1 1 ++ .enter (request 2) :: fails 2 3 ++
    .enter (request 4) :: fails 3 5 ++ fails 0 5000

/-- **A late failure closes the circuit again**: it has been opened until 30005, and a call at 5001 is sent. -/
theorem late_failure_recloses :
    ∃ replies w, Machine.run (Watched.exec defaultConfig) (Watched.start 0) late = .ok (replies, w) ∧
      Machine.Along (Watched.exec defaultConfig) Forward (Watched.start 0) late ∧
      (w.since .wallet).openings = [30005] ∧
      ∃ point, (enter defaultConfig (request 5001) w.world.memory).1
        = .await ⟨"http://localhost:3004/wallets/user-1", (request 5001).init⟩ point := by
  obtain ⟨replies, w, hrun⟩ := Machine.run_returns (Watched.exec defaultConfig) (Watched.start 0) late
  have hlate : (Machine.run (Watched.exec defaultConfig) (Watched.start 0) late).map
      (fun r => ((r.2.since .wallet).openings, (enter defaultConfig (request 5001) r.2.world.memory).1))
        = .ok ([30005], .await ⟨"http://localhost:3004/wallets/user-1", (request 5001).init⟩
          ⟨request 5001, some ⟨1, 0⟩⟩) := by
    decide +kernel
  rw [hrun] at hlate
  obtain ⟨hopenings, hsent⟩ := Prod.mk.inj (Except.ok.inj hlate)
  exact ⟨replies, w, hrun, by decide +kernel, hopenings, _, hsent⟩

end NexusTrade.Gateway
