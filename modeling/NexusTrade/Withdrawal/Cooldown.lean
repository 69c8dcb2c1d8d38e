import Mathlib.Data.List.Nodup
import NexusTrade.Lib.Run
import NexusTrade.Withdrawal.Requests

/-!
# The cooldown of new addresses

Money goes out only to addresses that have been in the table for the time of the cooldown, whatever calls of the two
services proceed together.

* **`Aged`**: an address is old enough; this can only become true, since no row of the table is changed or removed;
* **`Sound`** says what a call knows: what it has found in the table is there, and once it has looked at the clock its
  address is old enough;
* **`Guarded`** is the invariant, **`Guarded.step`** the step lemma;
* **`TimeMoves`** is the condition on a step, that time does not go back;
* **`new_addresses_wait`**: so in every run under it each event names an address that is old enough, and the row of one
  that was not in the table at the start has been created since, for a call, and the cooldown has passed.
-/

namespace NexusTrade

/-! ### Addresses that are old enough -/

section Sound

variable (config : WithdrawalConfig)

/-- **An address that is old enough.** -/
def Aged (tables : WithdrawalTables) (key : AddressKey) : Prop :=
  ∃ entry ∈ tables.service.addresses, entry.key = key ∧ entry.createdAt + config.cooldownMs ≤ tables.clock

/-- The address that a call whitelists. -/
def WithdrawalTask.whitelists : WithdrawalTask → Option AddressKey
  | .whitelist userId asset network address => some ⟨userId, asset.getD "USDT", network.getD "ETH", address⟩
  | .addWithdrawalAddress userId asset network address => some ⟨userId, asset, network, address⟩
  | _ => none

/-! ### What a call knows -/

/-- What the local variables of a call say. -/
def PointSound (tables : WithdrawalTables) (task : WithdrawalTask) : WithdrawalPoint → Prop
  | .whitelistChecked key | .whitelistFound key | .bookFound key => task.whitelists = some key
  | .requestTimed _ dto entry => entry ∈ tables.service.addresses ∧ entry.key = dto.key
  | .requestCovered _ dto => Aged config tables dto.key
  | .requestSaved row | .requestProduced row | .requestApproved row => Aged config tables row.key
  | .decisionChecked _ row _ | .decisionSaved _ row | .decisionProduced row => Aged config tables row.key
  | _ => True

/-- What an operation that is awaited is about. -/
def OperationSound (tables : WithdrawalTables) (task : WithdrawalTask) : WithdrawalOperation → WithdrawalPoint → Prop
  | .findAddress key, .requestFound _ dto => key = dto.key
  | .saveAddress key, _ => task.whitelists = some key
  | .saveWithdrawal row, _ => Aged config tables row.key
  | .produce event, _ => Aged config tables event.payload.key
  | _, _ => True

/-- What an answer says. -/
def AnswerSound (tables : WithdrawalTables) : WithdrawalAnswer → WithdrawalPoint → Prop
  | .address (some entry), .requestFound _ dto => entry ∈ tables.service.addresses ∧ entry.key = dto.key
  | .time now, .requestTimed _ _ _ => now ≤ tables.clock
  | .withdrawal (some row), .decisionFound _ _ => Aged config tables row.key
  | _, _ => True

/-- **What a call knows.** -/
def Sound (tables : WithdrawalTables) (task : WithdrawalTask) : WithdrawalProgress → Prop
  | .waiting operation point => PointSound config tables task point ∧ OperationSound config tables task operation point
  | .ready answer point => PointSound config tables task point ∧ AnswerSound config tables answer point
  | .finished _ => True

end Sound

/-- The tables only grow, and time does not go back. -/
structure Grows (tables tables' : WithdrawalTables) : Prop where
  addresses : ∀ entry ∈ tables.service.addresses, entry ∈ tables'.service.addresses
  clock : tables.clock ≤ tables'.clock

section Growth

variable {config : WithdrawalConfig} {tables tables' : WithdrawalTables} {task : WithdrawalTask}

/-- **An address stays old enough.** -/
theorem Aged.mono (hgrows : Grows tables tables') {key : AddressKey} (h : Aged config tables key) :
    Aged config tables' key := by
  obtain ⟨entry, hentry, hkey, hage⟩ := h
  exact ⟨entry, hgrows.addresses entry hentry, hkey, hage.trans hgrows.clock⟩

theorem PointSound.mono (hgrows : Grows tables tables') {point : WithdrawalPoint}
    (h : PointSound config tables task point) : PointSound config tables' task point := by
  cases point with
  | whitelistChecked | whitelistFound | bookFound => exact h
  | requestTimed => exact ⟨hgrows.addresses _ h.1, h.2⟩
  | requestCovered | requestSaved | requestProduced | requestApproved => exact Aged.mono hgrows h
  | decisionChecked | decisionSaved | decisionProduced => exact Aged.mono hgrows h
  | _ => trivial

theorem OperationSound.mono (hgrows : Grows tables tables') {operation : WithdrawalOperation} {point : WithdrawalPoint}
    (h : OperationSound config tables task operation point) : OperationSound config tables' task operation point := by
  cases operation with
  | saveAddress => exact h
  | saveWithdrawal | produce => exact Aged.mono hgrows h
  | findAddress => cases point <;> exact h
  | _ => trivial

theorem AnswerSound.mono (hgrows : Grows tables tables') {answer : WithdrawalAnswer} {point : WithdrawalPoint}
    (h : AnswerSound config tables answer point) : AnswerSound config tables' answer point := by
  cases answer with
  | address found =>
      cases found with
      | none => trivial
      | some entry =>
          cases point with
          | requestFound => exact ⟨hgrows.addresses _ h.1, h.2⟩
          | _ => trivial
  | time now =>
      cases point with
      | requestTimed => exact le_trans h hgrows.clock
      | _ => trivial
  | withdrawal found =>
      cases found with
      | none => trivial
      | some row =>
          cases point with
          | decisionFound => exact Aged.mono hgrows h
          | _ => trivial
  | _ => trivial

/-- **What a call knows stays true.** -/
theorem Sound.mono (hgrows : Grows tables tables') {progress : WithdrawalProgress}
    (h : Sound config tables task progress) : Sound config tables' task progress := by
  cases progress with
  | waiting => exact ⟨h.1.mono hgrows, h.2.mono hgrows⟩
  | ready => exact ⟨h.1.mono hgrows, h.2.mono hgrows⟩
  | finished => trivial

end Growth

/-! ### The code -/

section Code

variable {config : WithdrawalConfig} {round : Rounding} {tables : WithdrawalTables} {task : WithdrawalTask}

theorem enter_sound (task : WithdrawalTask) : Sound config tables task (enterWithdrawal task).progress := by
  cases task with
  | whitelist => exact ⟨rfl, trivial⟩
  | addWithdrawalAddress => exact ⟨rfl, trivial⟩
  | request => exact ⟨trivial, trivial⟩
  | approve => exact ⟨trivial, trivial⟩
  | reject => exact ⟨trivial, trivial⟩

theorem resumeRequest_sound {point : WithdrawalPoint} {answer : WithdrawalAnswer}
    {pause : Pause WithdrawalOperation WithdrawalPoint WithdrawalOutcome}
    (h : resumeRequest config round point answer = some pause) (hpoint : PointSound config tables task point)
    (hanswer : AnswerSound config tables answer point) : Sound config tables task pause.progress := by
  unfold resumeRequest at h
  split at h
  case h_1 | h_2 | h_3 | h_4 =>
    cases h
    trivial
  case h_5 uuid dto entry now =>
    -- the cooldown is over: the address is old enough from now on
    split at h
    · cases h
      trivial
    · rename_i hover
      cases h
      have hage : entry.createdAt + config.cooldownMs ≤ tables.clock := by
        have hnow : now ≤ tables.clock := hanswer
        omega
      exact ⟨⟨entry, hpoint.1, hpoint.2, hage⟩, trivial⟩
  case h_6 uuid dto =>
    cases h
    exact ⟨hpoint, hpoint⟩
  case h_7 row =>
    cases h
    exact ⟨hpoint, hpoint⟩
  case h_8 row =>
    split at h
    · cases h
      exact ⟨hpoint, hpoint⟩
    · cases h
      trivial
  case h_9 =>
    cases h
    trivial
  case h_10 => cases h

theorem resumeTask_sound {point : WithdrawalPoint} {answer : WithdrawalAnswer}
    {pause : Pause WithdrawalOperation WithdrawalPoint WithdrawalOutcome}
    (h : resumeTask point answer = some pause) (hpoint : PointSound config tables task point)
    (hanswer : AnswerSound config tables answer point) : Sound config tables task pause.progress := by
  unfold resumeTask at h
  split at h
  case h_1 =>
    cases h
    exact ⟨hpoint, trivial⟩
  case h_2 | h_4 | h_5 | h_7 | h_8 | h_9 | h_13 =>
    cases h
    trivial
  case h_3 | h_6 =>
    -- the address that is inserted is the one that the call whitelists
    cases h
    exact ⟨trivial, hpoint⟩
  case h_10 =>
    cases h
    exact ⟨hanswer, trivial⟩
  case h_11 =>
    cases h
    exact ⟨hpoint, hpoint⟩
  case h_12 =>
    split at h
    · cases h
      exact ⟨hpoint, hpoint⟩
    · cases h
      trivial
  case h_14 => cases h

/-- **The code keeps what a call knows.** -/
theorem resume_sound {point : WithdrawalPoint} {answer : WithdrawalAnswer}
    (h : Sound config tables task (.ready answer point)) :
    Sound config tables task (resumeWithdrawal config round point answer).progress := by
  rw [resumeWithdrawal]
  cases hrequest : resumeRequest config round point answer with
  | some pause => exact resumeRequest_sound hrequest h.1 h.2
  | none =>
      rw [Option.none_or]
      cases htask : resumeTask point answer with
      | some pause => exact resumeTask_sound htask h.1 h.2
      | none => trivial

end Code

/-! ### The tables -/

/-- **What holds of the tables**: each row and each event names an address that is old enough, no address is in the
table twice, and what was in it at the start is still there. -/
structure TablesGuarded (config : WithdrawalConfig) (start tables : WithdrawalTables) : Prop where
  rows : ∀ id row, tables.service.withdrawals.find id = some row → Aged config tables row.key
  events : ∀ event ∈ tables.topic, Aged config tables event.payload.key
  unique : (tables.service.addresses.map WithdrawalAddressEntity.key).Nodup
  grown : Grows start tables

/-- What an operation changes, where it is sound. -/
structure Performed (config : WithdrawalConfig) (start tables : WithdrawalTables) (task : WithdrawalTask)
    (point : WithdrawalPoint) (answer : WithdrawalAnswer) (tables' : WithdrawalTables) : Prop where
  guarded : TablesGuarded config start tables'
  grows : Grows tables tables'
  answer : AnswerSound config tables' answer point
  added : ∀ entry ∈ tables'.service.addresses, entry ∈ tables.service.addresses ∨
    (entry.createdAt = tables'.clock ∧ task.whitelists = some entry.key)

section Effects

variable {config : WithdrawalConfig} {column : Column} {start tables : WithdrawalTables} {task : WithdrawalTask}
  {point : WithdrawalPoint}

theorem Grows.refl (tables : WithdrawalTables) : Grows tables tables := ⟨fun _ h => h, le_refl _⟩

theorem Grows.trans {tables' tables'' : WithdrawalTables} (h : Grows tables tables') (h' : Grows tables' tables'') :
    Grows tables tables'' :=
  ⟨fun entry hentry => h'.addresses entry (h.addresses entry hentry), h.clock.trans h'.clock⟩

/-- Time passes. -/
theorem TablesGuarded.wait (h : TablesGuarded config start tables) {now : ℤ} (hnow : tables.clock ≤ now) :
    TablesGuarded config start { tables with clock := now } := by
  have hgrows : Grows tables { tables with clock := now } := ⟨fun _ hentry => hentry, hnow⟩
  exact ⟨fun id row hrow => (h.rows id row hrow).mono hgrows, fun event hevent => (h.events event hevent).mono hgrows,
    h.unique, h.grown.trans hgrows⟩

/-- An operation that reads. -/
theorem Performed.read (h : TablesGuarded config start tables) {answer : WithdrawalAnswer}
    (hanswer : AnswerSound config tables answer point) : Performed config start tables task point answer tables :=
  ⟨h, .refl tables, hanswer, fun _ hentry => .inl hentry⟩

theorem save_addresses {service service' : WithdrawalService} {row : WithdrawalEntity}
    (h : service.save column row = .ok service') :
    service'.addresses = service.addresses ∧
      ∃ amount fee, service'.withdrawals
        = service.withdrawals.insert row.id { row with amount := amount, fee := fee } := by
  rw [WithdrawalService.save] at h
  split at h
  · cases h
    exact ⟨rfl, _, _, rfl⟩
  · cases h

/-- **Every operation keeps the tables**, and answers what is true. -/
theorem perform_sound (column : Column) (h : TablesGuarded config start tables) {operation : WithdrawalOperation}
    (moment : WithdrawalMoment) (hclock : tables.clock = moment.now)
    (hsound : OperationSound config tables task operation point) :
    Performed config start tables task point (performAt config column operation moment tables).1
      (performAt config column operation moment tables).2 := by
  cases operation with
  | assertUserCanTransact | listAddresses | verifyTotp | verifyBalance => exact .read h trivial
  | clock =>
      refine .read h ?_
      cases point with
      | requestTimed => exact hclock.ge
      | _ => trivial
  | findAddress key =>
      refine .read h ?_
      show AnswerSound config tables (.address (tables.service.findAddress key)) point
      cases hfound : tables.service.findAddress key with
      | none => trivial
      | some entry =>
          cases point with
          | requestFound uuid dto =>
              obtain rfl : key = dto.key := hsound
              have hkey := List.find?_some hfound
              exact ⟨List.mem_of_find?_eq_some hfound, of_decide_eq_true hkey⟩
          | _ => trivial
  | findWithdrawal id =>
      refine .read h ?_
      show AnswerSound config tables (.withdrawal (tables.service.withdrawals.find id)) point
      cases hfound : tables.service.withdrawals.find id with
      | none => trivial
      | some row =>
          cases point with
          | decisionFound => exact h.rows id row hfound
          | _ => trivial
  | produce event =>
      cases hproduced : moment.produced with
      | error e =>
          simp only [performAt, hproduced]
          exact .read h trivial
      | ok =>
          simp only [performAt, hproduced]
          have hgrows : Grows tables { tables with topic := tables.topic ++ [event] } := ⟨fun _ hentry => hentry, le_refl _⟩
          refine ⟨⟨h.rows, ?_, h.unique, h.grown.trans hgrows⟩, hgrows, trivial, fun _ hentry => .inl hentry⟩
          intro other hother
          rcases List.mem_append.mp hother with hother | hother
          · exact h.events other hother
          · rw [List.mem_singleton.mp hother]
            exact hsound
  | saveWithdrawal row =>
      cases hsaved : tables.service.save column row with
      | error e =>
          simp only [performAt, hsaved]
          exact .read h trivial
      | ok service =>
          simp only [performAt, hsaved]
          obtain ⟨haddresses, amount, fee, hrows⟩ := save_addresses hsaved
          have hgrows : Grows tables { tables with service := service } :=
            ⟨fun _ hentry => haddresses ▸ hentry, le_refl _⟩
          refine ⟨⟨?_, ?_, ?_, h.grown.trans hgrows⟩, hgrows, trivial, ?_⟩
          · intro id found hfound
            have hfound : service.withdrawals.find id = some found := hfound
            rw [hrows, SortedMap.find_insert] at hfound
            split at hfound
            · cases hfound
              exact Aged.mono hgrows hsound
            · exact (h.rows id found hfound).mono hgrows
          · exact fun other hother => (h.events other hother).mono hgrows
          · show (service.addresses.map _).Nodup
            rw [haddresses]
            exact h.unique
          · intro entry hentry
            have hentry : entry ∈ service.addresses := hentry
            rw [haddresses] at hentry
            exact .inl hentry
  | saveAddress key =>
      cases hfound : tables.service.findAddress key with
      | some entry =>
          simp only [performAt, WithdrawalService.saveAddress, hfound]
          exact .read h trivial
      | none =>
          simp only [performAt, WithdrawalService.saveAddress, hfound]
          have hgrows : Grows tables { tables with
              service := { tables.service with
                addresses := tables.service.addresses
                  ++ [⟨key.userId, key.asset, key.network, key.address, moment.now⟩] } } :=
            ⟨fun _ hentry => List.mem_append_left _ hentry, le_refl _⟩
          refine ⟨⟨?_, ?_, ?_, h.grown.trans hgrows⟩, hgrows, trivial, ?_⟩
          · exact fun id row hrow => (h.rows id row hrow).mono hgrows
          · exact fun event hevent => (h.events event hevent).mono hgrows
          · -- the index on the table lets no address in twice
            show ((tables.service.addresses ++ [_]).map WithdrawalAddressEntity.key).Nodup
            rw [List.map_append, List.nodup_append]
            refine ⟨h.unique, List.nodup_singleton _, ?_⟩
            intro other hother key' hkey heq
            obtain ⟨entry, hentry, rfl⟩ := List.mem_map.mp hother
            rw [List.map_singleton, List.mem_singleton] at hkey
            have habsent := List.find?_eq_none.mp hfound entry hentry
            exact habsent (decide_eq_true (heq.trans hkey))
          · intro entry hentry
            rcases List.mem_append.mp hentry with hentry | hentry
            · exact .inl hentry
            · rw [List.mem_singleton.mp hentry]
              exact .inr ⟨hclock.symm, hsound⟩

end Effects

/-! ### Steps -/

/-- **Time does not go back.** -/
def TimeMoves (world : WithdrawalWorld) : WithdrawalTurn → Prop
  | .perform _ moment => world.remote.clock ≤ moment.now
  | _ => True

instance (world : WithdrawalWorld) : DecidablePred (TimeMoves world)
  | .enter _ => inferInstanceAs (Decidable True)
  | .perform _ moment => inferInstanceAs (Decidable (world.remote.clock ≤ moment.now))
  | .resume _ => inferInstanceAs (Decidable True)

/-- **The invariant**: the tables are guarded, each call knows what is true, and an address that has come into the table
has been whitelisted by a call. -/
structure Guarded (config : WithdrawalConfig) (start : WithdrawalTables) (world : WithdrawalWorld) : Prop where
  tables : TablesGuarded config start world.remote
  sound : ∀ thread ∈ world.threads, Sound config world.remote thread.call thread.progress
  added : ∀ entry ∈ world.remote.service.addresses, entry ∈ start.service.addresses ∨
    (start.clock ≤ entry.createdAt ∧ ∃ thread ∈ world.threads, thread.call.whitelists = some entry.key)

section Steps

variable {config : WithdrawalConfig} {round : Rounding} {column : Column} {start : WithdrawalTables}

/-- **Every step keeps the invariant**, if time does not go back. -/
theorem Guarded.step {world world' : WithdrawalWorld} {turn : WithdrawalTurn} (h : Guarded config start world)
    (hmeets : TimeMoves world turn) (hstep : Stepped (withdrawalProgram config round column) world turn world') :
    Guarded config start world' := by
  cases hstep with
  | idle => exact h
  | entered task block =>
      cases block
      refine ⟨h.tables, fun thread hthread => ?_, fun entry hentry => ?_⟩
      · rcases List.mem_append.mp hthread with hthread | hthread
        · exact h.sound thread hthread
        · rw [List.mem_singleton.mp hthread]
          exact enter_sound task
      · rcases h.added entry hentry with hold | ⟨hsince, thread, hthread, hkey⟩
        · exact .inl hold
        · exact .inr ⟨hsince, thread, List.mem_append_left _ hthread, hkey⟩
  | resumed pre post task answer point hthreads block =>
      obtain ⟨memory, tables, threads⟩ := world
      subst hthreads
      cases block
      refine ⟨h.tables, fun thread hthread => ?_, fun entry hentry => ?_⟩
      · rcases mem_around hthread ⟨task, .ready answer point⟩ with rfl | hthread
        · exact resume_sound (h.sound ⟨task, .ready answer point⟩ (by simp))
        · exact h.sound thread hthread
      · exact (h.added entry hentry).imp_right
          (And.imp_right (exists_call_around (WithdrawalTask.whitelists · = some entry.key)))
  | @performed pre post task operation point moment hthreads answer remote effect =>
      obtain ⟨memory, tables, threads⟩ := world
      subst hthreads
      have hnow : tables.clock ≤ moment.now := hmeets
      have hwaited : Grows tables { tables with clock := moment.now } := ⟨fun _ hentry => hentry, hnow⟩
      have hown := (h.sound ⟨task, .waiting operation point⟩ (by simp)).mono hwaited
      have hperformed := perform_sound column (h.tables.wait hnow) moment rfl hown.2
      have heffect : performAt config column operation moment { tables with clock := moment.now } = (answer, remote) :=
        effect
      rw [heffect] at hperformed
      have hgrows := hwaited.trans hperformed.grows
      refine ⟨hperformed.guarded, fun thread hthread => ?_, fun entry hentry => ?_⟩
      · rcases mem_around hthread ⟨task, .waiting operation point⟩ with rfl | hthread
        · exact ⟨hown.1.mono hperformed.grows, hperformed.answer⟩
        · exact (h.sound thread hthread).mono hgrows
      · rcases hperformed.added entry hentry with hold | ⟨hcreated, hkey⟩
        · exact (h.added entry hold).imp_right
            (And.imp_right (exists_call_around (WithdrawalTask.whitelists · = some entry.key)))
        · refine .inr ⟨?_, ⟨task, .ready answer point⟩, by simp, hkey⟩
          rw [hcreated]
          exact hperformed.guarded.grown.clock

end Steps

/-! ### Runs -/

/-- **New addresses wait.**  The services start without withdrawals, on a table in which no address is twice.  Then in
every run in which time does not go back, each event of the topic names an address that has been in the table for the
time of the cooldown; and if it was not in the table at the start, its row has been created in the run, for a call that
has whitelisted it, at least the time of the cooldown ago. -/
theorem new_addresses_wait (config : WithdrawalConfig) (round : Rounding) (column : Column) {start : WithdrawalTables}
    (hrows : start.service.withdrawals = .empty) (htopic : start.topic = [])
    (hunique : (start.service.addresses.map WithdrawalAddressEntity.key).Nodup) {turns : List WithdrawalTurn}
    (h : Machine.Along (withdrawalProgram config round column).exec TimeMoves ⟨(), start, []⟩ turns) :
    ∃ replies world, Machine.run (withdrawalProgram config round column).exec ⟨(), start, []⟩ turns = .ok (replies, world) ∧
      (∀ event ∈ world.remote.topic, Aged config world.remote event.payload.key) ∧
      (∀ event ∈ world.remote.topic, event.payload.key ∉ start.service.addresses.map WithdrawalAddressEntity.key →
        ∃ entry ∈ world.remote.service.addresses, entry.key = event.payload.key ∧ start.clock ≤ entry.createdAt ∧
          entry.createdAt + config.cooldownMs ≤ world.remote.clock ∧
          ∃ thread ∈ world.threads, thread.call.whitelists = some event.payload.key) := by
  have hstart : Guarded config start ⟨(), start, []⟩ := by
    refine ⟨⟨fun id row hrow => ?_, fun event hevent => ?_, hunique, .refl start⟩, fun thread hthread => ?_, ?_⟩
    · rw [hrows] at hrow
      cases hrow
    · rw [htopic] at hevent
      cases hevent
    · cases hthread
    · exact fun _ hentry => .inl hentry
  obtain ⟨replies, world, hrun, hguarded⟩ := Machine.run_safe_along (Q := fun _ _ world => Guarded config start world)
    hstart (fun _ _ _ _ _ _ hinv hmeets hexec => hinv.step hmeets (Program.exec_spec hexec)) turns h
  refine ⟨replies, world, hrun, hguarded.tables.events, fun event hevent hnew => ?_⟩
  obtain ⟨entry, hentry, hkey, hage⟩ := hguarded.tables.events event hevent
  rcases hguarded.added entry hentry with hold | ⟨hsince, thread, hthread, hasked⟩
  · rw [← hkey] at hnew
    exact absurd (List.mem_map_of_mem hold) hnew
  · refine ⟨entry, hentry, hkey, hsince, hage, thread, hthread, ?_⟩
    rw [hasked, hkey]

/-- Services that know no users, and an empty table. -/
def emptyTables : WithdrawalTables := ⟨⟨none, [], .empty⟩, [], 0⟩

/-- An address is whitelisted, and a day later money is withdrawn to it. -/
def nextDay : List WithdrawalTurn :=
  [.enter (.whitelist "alice" (some "USDT") (some "ETH") "0xa11ce")] ++
    (List.replicate 3 [.perform 0 ⟨0, .answered true, .answered none, .ok ()⟩, .resume 0]).flatten ++
    [.enter (.request "withdrawal-1" ⟨"alice", "USDT", "ETH", "0xa11ce", .fin 10⟩)] ++
    (List.replicate 8
      [.perform 1 ⟨86400000, .answered true, .answered (some (.fin 20)), .ok ()⟩, .resume 1]).flatten

/-- Both events are produced when the day has passed. -/
theorem new_addresses_wait_nextDay :
    ∃ replies world, Machine.run (withdrawalProgram .default .fin some).exec ⟨(), emptyTables, []⟩ nextDay
        = .ok (replies, world) ∧
      world.remote.topic.map KafkaEvent.eventType = [.withdrawalRequested, .withdrawalApproved] ∧
      ∀ event ∈ world.remote.topic, Aged .default world.remote event.payload.key := by
  have hmeets : Machine.Along (withdrawalProgram .default .fin some).exec TimeMoves ⟨(), emptyTables, []⟩ nextDay := by
    decide +kernel
  have hunique : (emptyTables.service.addresses.map WithdrawalAddressEntity.key).Nodup := List.nodup_nil
  obtain ⟨replies, world, hrun, haged, _⟩ := new_addresses_wait .default .fin some rfl rfl hunique hmeets
  have htypes : (Machine.run (withdrawalProgram .default .fin some).exec ⟨(), emptyTables, []⟩ nextDay).map
      (fun r => r.2.remote.topic.map KafkaEvent.eventType) = .ok [.withdrawalRequested, .withdrawalApproved] := by
    decide +kernel
  rw [hrun] at htypes
  exact ⟨replies, world, hrun, Except.ok.inj htypes, haged⟩

end NexusTrade
