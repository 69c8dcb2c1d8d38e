import NexusTrade.Compliance.Service
import NexusTrade.Lib.Run

/-!
# Withdrawals are screened

What becomes of the withdrawals of a run, whatever calls proceed together and whatever fails.

* **`approvalTier_ne_auto`**: a withdrawal waits for an operator exactly if it is of high value for the compliance
  service;
* **`Told`** says what a call on the withdrawal service knows of its events, and **`Foretold`** what comes before an
  event of the topic;
* **`Watched`** is the invariant, with `Relay.Sound` of the consumer, and **`Watched.step`** the step lemma;
* **`withdrawals_are_screened`**: a request that is answered has been announced; what is announced and committed and
  waits for an operator, or goes to a watched address, is reported or a dead letter; nothing else is reported; and no
  withdrawal is approved that has not been announced before, unless somebody is asked to approve it.
-/

namespace NexusTrade.Compliance

/-! ### Amounts -/

theorem gte_mono {amount : Amount} {low high : ℚ} (hle : low ≤ high) (h : amount.gte high = true) :
    amount.gte low = true := by
  cases amount with
  | nan => simp [Amount.gte] at h
  | inf negative => simpa [Amount.gte, Extended.lt] using h
  | fin x =>
      simp only [Amount.gte, Extended.lt, Bool.and_eq_true, Bool.not_eq_true', decide_eq_false_iff_not, not_lt] at h ⊢
      exact ⟨hle.trans h.1, by simp⟩

/-- **The limit of the operators is the limit of the compliance service.** -/
theorem approvalTier_ne_auto {amount : Amount} : approvalTier amount ≠ .auto ↔ amount.gte 10000 = true := by
  rw [approvalTier]
  split
  · rename_i hmillion
    exact iff_of_true (by simp) (gte_mono (by norm_num) hmillion)
  · split
    · rename_i hundred
      exact iff_of_true (by simp) (gte_mono (by norm_num) hundred)
    · split <;> simp_all

/-! ### What calls know -/

section Told

variable (round : Rounding)

/-- The withdrawal that a call creates. -/
def Creates (task : WithdrawalTask) (row : WithdrawalEntity) : Prop :=
  ∃ uuid dto, task = .request uuid dto ∧ row = WithdrawalService.created round uuid dto

/-- A call decides on a withdrawal. -/
def Decides (task : WithdrawalTask) (id : String) (status : TransactionStatus) : Prop :=
  ∃ approverId, (task = .approve id approverId ∧ status = .confirmed) ∨
    (task = .reject id approverId ∧ status = .failed)

/-- A call approves a withdrawal. -/
def Approves (task : WithdrawalTask) (id : String) : Prop := ∃ approverId, task = .approve id approverId

/-- The event that announces a withdrawal. -/
def announcement (id : String) (row : WithdrawalEntity) : KafkaEvent WithdrawalEntity := ⟨.withdrawalRequested, id, row⟩

/-- A withdrawal has been announced. -/
def Announced (topic : List (KafkaEvent WithdrawalEntity)) (row : WithdrawalEntity) : Prop :=
  announcement row.id row ∈ topic

/-- What the local variables of a call say. -/
def PointTold (topic : List (KafkaEvent WithdrawalEntity)) (task : WithdrawalTask) : WithdrawalPoint → Prop
  | .requestChecked uuid dto => task = .request uuid dto
  | .requestVerified uuid dto => task = .request uuid dto
  | .requestFound uuid dto => task = .request uuid dto
  | .requestTimed uuid dto _ => task = .request uuid dto
  | .requestCovered uuid dto => task = .request uuid dto
  | .requestSaved row => Creates round task row
  | .requestProduced row => Creates round task row
  | .requestApproved row => Creates round task row ∧ Announced topic row ∧ row.approvalTier = .auto
  | .decisionFound id status => Decides task id status
  | .decisionChecked id _ status => Decides task id status
  | .decisionSaved id row => Decides task id row.status
  | .decisionProduced _ => True
  | .whitelistChecked _ => True
  | .whitelistFound _ => True
  | .whitelistStored _ => True
  | .bookFound _ => True
  | .bookStored _ => True
  | .bookListed _ => True

/-- What a call is about to produce. -/
def EventTold (task : WithdrawalTask) (event : KafkaEvent WithdrawalEntity) : WithdrawalPoint → Prop
  | .requestProduced row => event = announcement row.id row
  | .requestApproved row => event = ⟨.withdrawalApproved, row.id, row⟩
  | .decisionProduced _ => event.eventType = .withdrawalApproved ∧ Approves task event.aggregateId
  | _ => False

/-- What an operation that is awaited is about. -/
structure OperationTold (task : WithdrawalTask) (operation : WithdrawalOperation) (point : WithdrawalPoint) : Prop where
  event : ∀ event, operation = .produce event → EventTold task event point
  announces : ∀ row, point = .requestProduced row → operation = .produce (announcement row.id row)

/-- What an answer says. -/
def AnswerTold (topic : List (KafkaEvent WithdrawalEntity)) (answer : WithdrawalAnswer) (point : WithdrawalPoint) :
    Prop :=
  ∀ row, point = .requestProduced row → answer = .done (.ok ()) → Announced topic row

/-- **What a call knows of its events.** -/
def Told (topic : List (KafkaEvent WithdrawalEntity)) (task : WithdrawalTask) : WithdrawalProgress → Prop
  | .waiting operation point => PointTold round topic task point ∧ OperationTold task operation point
  | .ready answer point => PointTold round topic task point ∧ AnswerTold topic answer point
  | .finished outcome => ∀ row, outcome = .requested row → Creates round task row ∧ Announced topic row

end Told

section Code

variable {config : WithdrawalConfig} {round : Rounding} {topic : List (KafkaEvent WithdrawalEntity)}
  {task : WithdrawalTask}

/-- **What a call knows stays true**, while the topic grows. -/
theorem Told.append {progress : WithdrawalProgress} (h : Told round topic task progress)
    (more : List (KafkaEvent WithdrawalEntity)) : Told round (topic ++ more) task progress := by
  have hannounced : ∀ row, Announced topic row → Announced (topic ++ more) row :=
    fun row hrow => List.mem_append_left more hrow
  have hpoint : ∀ point, PointTold round topic task point → PointTold round (topic ++ more) task point := by
    intro point hpoint
    cases point with
    | requestApproved row => exact ⟨hpoint.1, hannounced row hpoint.2.1, hpoint.2.2⟩
    | _ => exact hpoint
  cases progress with
  | waiting operation point => exact ⟨hpoint point h.1, h.2⟩
  | ready answer point => exact ⟨hpoint point h.1, fun row hrow hdone => hannounced row (h.2 row hrow hdone)⟩
  | finished outcome => exact fun row hrow => ⟨(h row hrow).1, hannounced row (h row hrow).2⟩

/-- What a call goes on with: an operation that produces nothing, one that does, or its end. -/
theorem told_await {operation : WithdrawalOperation} {point : WithdrawalPoint}
    (hpoint : PointTold round topic task point) (hoperation : ∀ event, operation ≠ .produce event)
    (hother : ∀ row, point ≠ .requestProduced row) :
    Told round topic task (Pause.await operation point : Pause _ _ WithdrawalOutcome).progress :=
  ⟨hpoint, fun event heq => absurd heq (hoperation event), fun row heq => absurd heq (hother row)⟩

theorem told_produce {event : KafkaEvent WithdrawalEntity} {point : WithdrawalPoint}
    (hpoint : PointTold round topic task point) (hevent : EventTold task event point) :
    Told round topic task (Pause.await (.produce event) point : Pause _ _ WithdrawalOutcome).progress := by
  refine ⟨hpoint, fun other heq => ?_, fun row heq => ?_⟩
  · cases heq
    exact hevent
  · subst heq
    exact congrArg WithdrawalOperation.produce hevent

theorem told_finish {outcome : WithdrawalOutcome} (houtcome : ∀ row, outcome ≠ .requested row) :
    Told round topic task (Pause.finish outcome : Pause WithdrawalOperation WithdrawalPoint _).progress :=
  fun row heq => absurd heq (houtcome row)

theorem enter_told (task : WithdrawalTask) : Told round topic task (enterWithdrawal task).progress := by
  cases task with
  | whitelist => exact told_await trivial (by simp) (by simp)
  | addWithdrawalAddress => exact told_await trivial (by simp) (by simp)
  | request uuid dto =>
      refine told_await ?_ (by simp) (by simp)
      show WithdrawalTask.request uuid dto = .request uuid dto
      rfl
  | approve id approverId => exact told_await ⟨approverId, .inl ⟨rfl, rfl⟩⟩ (by simp) (by simp)
  | reject id approverId => exact told_await ⟨approverId, .inr ⟨rfl, rfl⟩⟩ (by simp) (by simp)

/-- A withdrawal that is confirmed when it is created needs no approval. -/
theorem Creates.auto {row : WithdrawalEntity} (h : Creates round task row) (hconfirmed : row.status = .confirmed) :
    row.approvalTier = .auto := by
  obtain ⟨uuid, dto, -, rfl⟩ := h
  by_contra hauto
  have hpending : (WithdrawalService.created round uuid dto).status = .pending := if_neg hauto
  rw [hpending] at hconfirmed
  cases hconfirmed

theorem resumeRequest_told {point : WithdrawalPoint} {answer : WithdrawalAnswer}
    {pause : Pause WithdrawalOperation WithdrawalPoint WithdrawalOutcome}
    (h : resumeRequest config round point answer = some pause) (hpoint : PointTold round topic task point)
    (hanswer : AnswerTold topic answer point) : Told round topic task pause.progress := by
  unfold resumeRequest at h
  split at h
  case h_1 | h_2 | h_4 =>
    cases h
    exact told_await hpoint (by simp) (by simp)
  case h_3 =>
    cases h
    exact told_finish (by simp)
  case h_5 =>
    split at h
    · cases h
      exact told_finish (by simp)
    · cases h
      exact told_await hpoint (by simp) (by simp)
  case h_6 uuid dto =>
    -- the withdrawal is created
    cases h
    exact told_await ⟨uuid, dto, hpoint, rfl⟩ (by simp) (by simp)
  case h_7 row =>
    cases h
    exact told_produce hpoint rfl
  case h_8 row =>
    have hannounced : Announced topic row := hanswer row rfl rfl
    split at h
    · rename_i hconfirmed
      cases h
      exact told_produce ⟨hpoint, hannounced, Creates.auto hpoint hconfirmed⟩ rfl
    · cases h
      intro other heq
      cases heq
      exact ⟨hpoint, hannounced⟩
  case h_9 row =>
    cases h
    intro other heq
    cases heq
    exact ⟨hpoint.1, hpoint.2.1⟩
  case h_10 => cases h

theorem resumeTask_told {point : WithdrawalPoint} {answer : WithdrawalAnswer}
    {pause : Pause WithdrawalOperation WithdrawalPoint WithdrawalOutcome} (h : resumeTask point answer = some pause)
    (hpoint : PointTold round topic task point) : Told round topic task pause.progress := by
  unfold resumeTask at h
  split at h
  case h_1 | h_3 | h_5 | h_6 | h_7 =>
    cases h
    exact told_await trivial (by simp) (by simp)
  case h_2 | h_4 | h_8 | h_9 | h_13 =>
    cases h
    exact told_finish (by simp)
  case h_10 | h_11 =>
    cases h
    exact told_await hpoint (by simp) (by simp)
  case h_12 id row =>
    split at h
    · rename_i hconfirmed
      cases h
      obtain ⟨approverId, ⟨happroves, -⟩ | ⟨-, hfailed⟩⟩ := hpoint
      · exact told_produce trivial ⟨rfl, approverId, happroves⟩
      · rw [hconfirmed] at hfailed
        cases hfailed
    · cases h
      exact told_finish (by simp)
  case h_14 => cases h

/-- **The code keeps what a call knows.** -/
theorem resume_told {point : WithdrawalPoint} {answer : WithdrawalAnswer}
    (h : Told round topic task (.ready answer point)) :
    Told round topic task (resumeWithdrawal config round point answer).progress := by
  rw [resumeWithdrawal]
  cases hrequest : resumeRequest config round point answer with
  | some pause => exact resumeRequest_told hrequest h.1 h.2
  | none =>
      rw [Option.none_or]
      cases htask : resumeTask point answer with
      | some pause => exact resumeTask_told htask h.1
      | none => exact told_finish (by simp)

end Code

/-! ### The topic -/

section Topic

variable (round : Rounding)

/-- **What comes before an event**: an announcement is of a withdrawal that a call has created; and an approval has been
announced and needed no operator, or a call is asked for it. -/
structure Foretold (threads : List WithdrawalThread) (topic : List (KafkaEvent WithdrawalEntity)) (position : ℕ)
    (event : KafkaEvent WithdrawalEntity) : Prop where
  announced : event.eventType = .withdrawalRequested → event = announcement event.payload.id event.payload ∧
    ∃ thread ∈ threads, Creates round thread.call event.payload
  approved : event.eventType = .withdrawalApproved →
    ((∃ earlier < position, topic[earlier]? = some (announcement event.aggregateId event.payload)) ∧
        event.payload.approvalTier = .auto) ∨
      ∃ thread ∈ threads, Approves thread.call event.aggregateId

end Topic

section Effects

variable {config : WithdrawalConfig} {round : Rounding} {column : Column}

/-- **What an operation appends to the topic.** -/
theorem perform_topic (operation : WithdrawalOperation) (moment : WithdrawalMoment) (tables : WithdrawalTables) :
    ∃ more, (performWithdrawal config column operation moment tables).2.topic = tables.topic ++ more ∧
      (more = [] ∧ (∀ event, operation = .produce event →
          (performWithdrawal config column operation moment tables).1 ≠ .done (.ok ())) ∨
        ∃ event, operation = .produce event ∧ more = [event]) := by
  cases operation with
  | produce event =>
      cases hproduced : moment.produced with
      | error e =>
          refine ⟨[], by simp [performWithdrawal, performAt, hproduced], .inl ⟨rfl, fun _ _ => ?_⟩⟩
          simp [performWithdrawal, performAt, hproduced]
      | ok done => exact ⟨[event], by simp [performWithdrawal, performAt, hproduced], .inr ⟨event, rfl, rfl⟩⟩
  | saveAddress key =>
      refine ⟨[], ?_, .inl ⟨rfl, by simp⟩⟩
      simp only [performWithdrawal, performAt]
      split <;> simp
  | saveWithdrawal row =>
      refine ⟨[], ?_, .inl ⟨rfl, by simp⟩⟩
      simp only [performWithdrawal, performAt]
      split <;> simp
  | _ => exact ⟨[], by simp [performWithdrawal, performAt], .inl ⟨rfl, by simp⟩⟩

section Later

variable {threads threads' : List WithdrawalThread} {topic : List (KafkaEvent WithdrawalEntity)} {position : ℕ}
  {event : KafkaEvent WithdrawalEntity}

/-- The calls go on. -/
theorem Foretold.calls (h : Foretold round threads topic position event)
    (hcalls : ∀ P : WithdrawalTask → Prop, (∃ thread ∈ threads, P thread.call) → ∃ thread ∈ threads', P thread.call) :
    Foretold round threads' topic position event where
  announced := fun htype => (h.announced htype).imp_right (hcalls (Creates round · event.payload))
  approved := fun htype => (h.approved htype).imp_right (hcalls (Approves · event.aggregateId))

/-- The topic grows. -/
theorem Foretold.append (h : Foretold round threads topic position event) (more : List (KafkaEvent WithdrawalEntity)) :
    Foretold round threads (topic ++ more) position event where
  announced := h.announced
  approved := by
    intro htype
    rcases h.approved htype with ⟨⟨earlier, hearlier, hannounced⟩, hauto⟩ | hasked
    · refine .inl ⟨⟨earlier, hearlier, ?_⟩, hauto⟩
      rw [List.getElem?_append_left (List.getElem?_eq_some_iff.mp hannounced).1]
      exact hannounced
    · exact .inr hasked

end Later

/-- **What a call produces has been foretold.** -/
theorem foretold_produced {threads : List WithdrawalThread} {topic : List (KafkaEvent WithdrawalEntity)}
    {task : WithdrawalTask} {event : KafkaEvent WithdrawalEntity} {point : WithdrawalPoint}
    (hthread : ∃ thread ∈ threads, thread.call = task) (hpoint : PointTold round topic task point)
    (hevent : EventTold task event point) : Foretold round threads (topic ++ [event]) topic.length event := by
  obtain ⟨thread, hthread, rfl⟩ := hthread
  cases point with
  | requestProduced row =>
      obtain rfl : event = announcement row.id row := hevent
      refine ⟨fun _ => ⟨rfl, thread, hthread, hpoint⟩, fun htype => ?_⟩
      cases htype
  | requestApproved row =>
      obtain rfl : event = ⟨.withdrawalApproved, row.id, row⟩ := hevent
      refine ⟨fun htype => ?_, fun _ => .inl ⟨?_, hpoint.2.2⟩⟩
      · cases htype
      · obtain ⟨earlier, hearlier⟩ := List.mem_iff_getElem?.mp hpoint.2.1
        have hinside : earlier < topic.length := (List.getElem?_eq_some_iff.mp hearlier).1
        refine ⟨earlier, hinside, ?_⟩
        rw [List.getElem?_append_left hinside]
        exact hearlier
  | decisionProduced row =>
      obtain ⟨htype, happroves⟩ := hevent
      refine ⟨fun hother => ?_, fun _ => .inr ⟨thread, hthread, happroves⟩⟩
      rw [htype] at hother
      cases hother
  | _ => exact hevent.elim

end Effects

/-! ### Steps -/

/-- What holds of the withdrawal service and its topic. -/
structure Recorded (round : Rounding) (world : WithdrawalWorld) : Prop where
  told : ∀ thread ∈ world.threads, Told round world.remote.topic thread.call thread.progress
  foretold : ∀ position event, world.remote.topic[position]? = some event →
    Foretold round world.threads world.remote.topic position event

section Steps

variable {config : WithdrawalConfig} {round : Rounding} {column : Column} {service : ComplianceService}

/-- **Every step of a call keeps what is recorded**, and the topic grows. -/
theorem Recorded.step {world world' : WithdrawalWorld} {turn : WithdrawalTurn} (h : Recorded round world)
    (hstep : Stepped (withdrawalProgram config round column) world turn world') :
    Recorded round world' ∧ ∃ more, world'.remote.topic = world.remote.topic ++ more := by
  cases hstep with
  | idle => exact ⟨h, [], by simp⟩
  | entered task block =>
      cases block
      refine ⟨⟨fun thread hthread => ?_, fun position event hevent => ?_⟩, [], by simp⟩
      · rcases List.mem_append.mp hthread with hthread | hthread
        · exact h.told thread hthread
        · rw [List.mem_singleton.mp hthread]
          exact enter_told task
      · exact (h.foretold position event hevent).calls fun P ⟨thread, hthread, hcall⟩ =>
          ⟨thread, List.mem_append_left _ hthread, hcall⟩
  | resumed pre post task answer point hthreads block =>
      obtain ⟨memory, tables, threads⟩ := world
      subst hthreads
      cases block
      refine ⟨⟨fun thread hthread => ?_, fun position event hevent => ?_⟩, [], by simp⟩
      · rcases mem_around hthread ⟨task, .ready answer point⟩ with rfl | hthread
        · exact resume_told (h.told ⟨task, .ready answer point⟩ (by simp))
        · exact h.told thread hthread
      · exact (h.foretold position event hevent).calls fun P => exists_call_around P
  | @performed pre post task operation point moment hthreads answer remote effect =>
      obtain ⟨memory, tables, threads⟩ := world
      subst hthreads
      have heffect : performWithdrawal config column operation moment tables = (answer, remote) := effect
      obtain ⟨more, htopic, hmore⟩ := @perform_topic config column operation moment tables
      rw [heffect] at htopic hmore
      have hown := h.told ⟨task, .waiting operation point⟩ (by simp)
      refine ⟨⟨fun thread hthread => ?_, fun position event hevent => ?_⟩, more, htopic⟩
      · show Told round remote.topic thread.call thread.progress
        rw [htopic]
        rcases mem_around hthread ⟨task, .waiting operation point⟩ with rfl | hthread
        · refine ⟨(hown.append more).1, fun row hpoint hdone => ?_⟩
          have hproduces := hown.2.announces row hpoint
          rcases hmore with ⟨-, hnone⟩ | ⟨event, hevent, rfl⟩
          · exact absurd hdone (hnone _ hproduces)
          · rw [hproduces] at hevent
            cases hevent
            exact List.mem_append_right _ (List.mem_singleton.mpr rfl)
        · exact (h.told thread hthread).append more
      · show Foretold round _ remote.topic position event
        have hevent : remote.topic[position]? = some event := hevent
        rw [htopic] at hevent ⊢
        rcases Nat.lt_or_ge position tables.topic.length with hbefore | hafter
        · rw [List.getElem?_append_left hbefore] at hevent
          exact ((h.foretold position event hevent).calls fun P => exists_call_around P).append more
        · rcases hmore with ⟨rfl, -⟩ | ⟨produced, hproduces, rfl⟩
          · rw [List.append_nil, List.getElem?_eq_none hafter] at hevent
            cases hevent
          · obtain ⟨hinside, -⟩ := List.getElem?_eq_some_iff.mp hevent
            obtain rfl : position = tables.topic.length := by
              rw [List.length_append, List.length_singleton] at hinside
              omega
            rw [List.getElem?_concat_length] at hevent
            obtain rfl := Option.some.inj hevent
            exact foretold_produced ⟨⟨task, .ready answer point⟩, by simp, rfl⟩ hown.1 (hown.2.event produced hproduces)

end Steps

/-! ### Runs -/

section Runs

variable (round : Rounding) (service : ComplianceService)

/-- An event that a call of `screen` may have sent. -/
def ScreenedBy (calls : List MonitoredCall) (event : SuspiciousActivity) : Prop :=
  ∃ dto send, .screen dto send ∈ calls ∧ (service.screen dto).2 = some event

/-- **The condition on a step**: the broker that takes the commit of a delivery takes its event or its dead letter. -/
def KeepsMessages (system : Monitored) : MonitoredCall → Prop
  | .deliver delivery => Relay.Keeps service.onWithdrawal kafkaRetries system.withdrawals.remote.topic delivery
  | .withdrawal _ => True
  | .screen _ _ => True

instance (system : Monitored) : DecidablePred (KeepsMessages service system)
  | .deliver delivery =>
    inferInstanceAs (Decidable
      (Relay.Keeps service.onWithdrawal kafkaRetries system.withdrawals.remote.topic delivery))
  | .withdrawal _ => inferInstanceAs (Decidable True)
  | .screen _ _ => inferInstanceAs (Decidable True)

/-- **The invariant.** -/
structure Watched (calls : List MonitoredCall) (system : Monitored) : Prop where
  recorded : Recorded round system.withdrawals
  relay : Relay.Sound service.onWithdrawal (ScreenedBy service calls) system.withdrawals.remote.topic system.compliance

variable {round service} {config : WithdrawalConfig} {column : Column}

/-- **Every step keeps the invariant** under the condition. -/
theorem Watched.step {calls : List MonitoredCall} {system : Monitored} {call : MonitoredCall}
    (h : Watched round service calls system) (hmeets : KeepsMessages service system call) :
    Watched round service (calls ++ [call]) (system.step config round column service call) := by
  have hlater : ∀ event, ScreenedBy service calls event → ScreenedBy service (calls ++ [call]) event := by
    rintro event ⟨dto, send, hcall, hscreen⟩
    exact ⟨dto, send, List.mem_append_left _ hcall, hscreen⟩
  cases call with
  | withdrawal turn =>
      obtain ⟨hrecorded, more, htopic⟩ := h.recorded.step
        ((withdrawalProgram config round column).step_spec system.withdrawals turn)
      refine ⟨hrecorded, ?_⟩
      show Relay.Sound service.onWithdrawal _
        ((withdrawalProgram config round column).step system.withdrawals turn).remote.topic system.compliance
      rw [htopic]
      exact (h.relay.imp hlater).append more
  | deliver delivery => exact ⟨h.recorded, (h.relay.imp hlater).deliver hmeets⟩
  | screen dto send =>
      simp only [Monitored.step]
      split
      · exact ⟨h.recorded, h.relay.imp hlater⟩
      · rename_i event hscreen
        have hsent : ScreenedBy service (calls ++ [.screen dto send]) event := ⟨dto, send, by simp, hscreen⟩
        exact ⟨h.recorded, (h.relay.imp hlater).send hsent send⟩

/-- A withdrawal that the compliance service has to report: it waits for an operator, or goes to a watched address. -/
def Suspicious (service : ComplianceService) (row : WithdrawalEntity) : Prop :=
  row.approvalTier ≠ .auto ∨ row.address ∈ service.watchlist

/-- **What is screened and reported.** -/
theorem screen_eq_some {dto : TransactionScreenDto} {event : SuspiciousActivity} :
    (service.screen dto).2 = some event ↔
      (dto.amountUsd.gte 10000 = true ∨ dto.counterparty ∈ service.watchlist) ∧
        event = ⟨dto.userId, (service.screen dto).1⟩ := by
  show (if (dto.amountUsd.gte 10000 || decide (dto.counterparty ∈ service.watchlist)) = true
    then some (⟨dto.userId, (service.screen dto).1⟩ : SuspiciousActivity) else none) = some event ↔ _
  split
  · rename_i hyes
    rw [Bool.or_eq_true, decide_eq_true_eq] at hyes
    exact ⟨fun heq => ⟨hyes, (Option.some.inj heq).symm⟩, fun heq => congrArg some heq.2.symm⟩
  · rename_i hno
    rw [Bool.or_eq_true, decide_eq_true_eq] at hno
    refine ⟨fun heq => ?_, fun heq => absurd heq.1 hno⟩
    cases heq

/-- **What is reported of a withdrawal** that a call has created. -/
theorem Creates.screened {task : WithdrawalTask} {row : WithdrawalEntity} (h : Creates round task row) :
    Suspicious service row ↔ ∃ event, (service.screen (ComplianceService.transactionOf row)).2 = some event := by
  obtain ⟨uuid, dto, -, rfl⟩ := h
  have htier : (WithdrawalService.created round uuid dto).approvalTier ≠ .auto ↔ dto.amount.gte 10000 = true :=
    approvalTier_ne_auto
  simp only [Suspicious, htier, screen_eq_some]
  exact ⟨fun h => ⟨_, h, rfl⟩, fun ⟨_, h, _⟩ => h⟩

/-- **Withdrawals are screened.**  The compliance service is given the topic of the withdrawal service from its
beginning, and the broker that takes the commit of a message takes its event or its dead letter.  Then, whatever calls
proceed together and whatever fails: each request that is answered has been announced; each announcement that is
committed, of a withdrawal that waits for an operator or goes to a watched address, is reported or a dead letter; what
is reported is such a withdrawal, or has been screened on demand; and an approval is of a withdrawal that has been
announced before and needed no operator, or of one that somebody is asked to approve. -/
theorem withdrawals_are_screened (config : WithdrawalConfig) (round : Rounding) (column : Column)
    (service : ComplianceService) {start : WithdrawalTables} (htopic : start.topic = []) {calls : List MonitoredCall}
    (h : Machine.Along (Monitored.exec config round column service) (KeepsMessages service) ⟨⟨(), start, []⟩, .new⟩
      calls) :
    ∃ replies system, Machine.run (Monitored.exec config round column service) ⟨⟨(), start, []⟩, .new⟩ calls
        = .ok (replies, system) ∧
      (∀ thread ∈ system.withdrawals.threads, ∀ row, thread.progress = .finished (.requested row) →
        Announced system.withdrawals.remote.topic row) ∧
      (∀ position ∈ system.compliance.committed, ∀ row,
        system.withdrawals.remote.topic[position]? = some (announcement row.id row) → Suspicious service row →
          (∃ event ∈ system.compliance.sent,
            event.payload.toTransactionScreenDto = ComplianceService.transactionOf row) ∨
            position ∈ system.compliance.letters) ∧
      (∀ event ∈ system.compliance.sent, ScreenedBy service calls event ∨
        ∃ row, Announced system.withdrawals.remote.topic row ∧ Suspicious service row ∧
          event.payload.toTransactionScreenDto = ComplianceService.transactionOf row) ∧
      ∀ (position : ℕ) (event : KafkaEvent WithdrawalEntity), system.withdrawals.remote.topic[position]? = some event →
        event.eventType = .withdrawalApproved →
        ((∃ earlier < position, system.withdrawals.remote.topic[earlier]?
            = some (announcement event.aggregateId event.payload)) ∧ event.payload.approvalTier = .auto) ∨
          ∃ thread ∈ system.withdrawals.threads, Approves thread.call event.aggregateId := by
  have hstart : Watched round service [] ⟨⟨(), start, []⟩, .new⟩ := by
    refine ⟨⟨by simp, fun position event hevent => ?_⟩, .new _ _⟩
    simp only [htopic, List.getElem?_nil, reduceCtorEq] at hevent
  obtain ⟨replies, system, hrun, hwatched⟩ := Machine.run_safe_along
    (Q := fun calls _ system => Watched round service calls system) hstart
    (fun _ _ _ _ _ _ hinv hmeets hexec => by cases hexec; exact hinv.step hmeets) calls h
  obtain ⟨⟨htold, hforetold⟩, hrelay⟩ := hwatched
  refine ⟨replies, system, hrun, fun thread hthread row hrow => ?_, fun position hposition row hrow hsuspicious => ?_,
    fun event hevent => ?_, fun position event hevent => (hforetold position event hevent).approved⟩
  · have hthread := htold thread hthread
    rw [hrow] at hthread
    exact (hthread row rfl).2
  · obtain ⟨-, thread, -, hcreates⟩ := (hforetold position _ hrow).announced rfl
    obtain ⟨event, hevent⟩ := hcreates.screened.mp hsuspicious
    have hact : service.onWithdrawal (announcement row.id row) = .ok (some event) := congrArg Except.ok hevent
    rcases (hrelay.committed position hposition).2 _ hrow with hnone | ⟨output, hsent, houtput⟩ | hletter
    · rw [hact] at hnone
      cases hnone
    · rw [hact] at houtput
      cases houtput
      refine .inl ⟨event, hsent, ?_⟩
      rw [(screen_eq_some.mp hevent).2]
      rfl
    · exact .inr hletter
  · rcases hrelay.sent event hevent with hscreened | ⟨message, hmessage, hact⟩
    · exact .inl hscreened
    · obtain ⟨position, hposition⟩ := List.mem_iff_getElem?.mp hmessage
      rw [ComplianceService.onWithdrawal] at hact
      split at hact
      · rename_i htype
        obtain ⟨hmessage', thread, -, hcreates⟩ := (hforetold position message hposition).announced htype
        have hscreen := Except.ok.inj hact
        refine .inr ⟨message.payload, ?_, hcreates.screened.mpr ⟨event, hscreen⟩, ?_⟩
        · rw [Announced, ← hmessage']
          exact hmessage
        · rw [(screen_eq_some.mp hscreen).2]
          rfl
      · cases hact

end Runs

/-- Two addresses that were whitelisted long ago. -/
def twoAddresses : WithdrawalTables :=
  ⟨⟨none, [⟨"alice", "USDT", "ETH", "0xa11ce", 0⟩, ⟨"bob", "USDT", "ETH", "blocked-address", 0⟩], .empty⟩, [], 0⟩

/-- A withdrawal of a call that runs alone, up to its last answer. -/
def requested (pos : ℕ) (uuid : String) (dto : WithdrawalDto) : List MonitoredCall :=
  .withdrawal (.enter (.request uuid dto)) :: (List.replicate 8
    [.withdrawal (.perform pos ⟨86400000, .answered true, .answered (some (.fin 30000)), .ok ()⟩),
      .withdrawal (.resume pos)]).flatten

/-- The first event is sent twice, since an answer is lost; the second cannot be sent and becomes a dead letter. -/
def twoDeliveries : List MonitoredCall :=
  [.deliver ⟨0, fun attempt => if attempt = 0 then .lost "timeout" () else .answered (), fun _ => .answered (),
      .answered ()⟩,
    .deliver ⟨1, fun _ => .unsent "disconnected", fun _ => .answered (), .answered ()⟩]

/-- Both withdrawals are noticed, the large one and the one to a watched address. -/
theorem withdrawals_are_screened_largeAndWatched :
    ∃ replies system, Machine.run (Monitored.exec .default .fin some (.new none)) ⟨⟨(), twoAddresses, []⟩, .new⟩
        (requested 0 "withdrawal-1" ⟨"alice", "USDT", "ETH", "0xa11ce", .fin 20000⟩ ++
          requested 1 "withdrawal-2" ⟨"bob", "USDT", "ETH", "blocked-address", .fin 10⟩ ++ twoDeliveries)
        = .ok (replies, system) ∧
      system.compliance.sent.length = 2 ∧ system.compliance.letters = [1] ∧
      ∀ thread ∈ system.withdrawals.threads, ∀ row, thread.progress = .finished (.requested row) →
        Announced system.withdrawals.remote.topic row := by
  have hmeets : Machine.Along (Monitored.exec .default .fin some (.new none)) (KeepsMessages (.new none))
      ⟨⟨(), twoAddresses, []⟩, .new⟩
        (requested 0 "withdrawal-1" ⟨"alice", "USDT", "ETH", "0xa11ce", .fin 20000⟩ ++
          requested 1 "withdrawal-2" ⟨"bob", "USDT", "ETH", "blocked-address", .fin 10⟩ ++ twoDeliveries) := by
    decide +kernel
  obtain ⟨replies, system, hrun, hannounced, _⟩ := withdrawals_are_screened .default .fin some (.new none) rfl hmeets
  have hcompliance : (Machine.run (Monitored.exec .default .fin some (.new none)) ⟨⟨(), twoAddresses, []⟩, .new⟩
        (requested 0 "withdrawal-1" ⟨"alice", "USDT", "ETH", "0xa11ce", .fin 20000⟩ ++
          requested 1 "withdrawal-2" ⟨"bob", "USDT", "ETH", "blocked-address", .fin 10⟩ ++ twoDeliveries)).map
      (fun r => (r.2.compliance.sent.length, r.2.compliance.letters)) = .ok (2, [1]) := by
    decide +kernel
  rw [hrun] at hcompliance
  have hpair := Except.ok.inj hcompliance
  exact ⟨replies, system, hrun, congrArg Prod.fst hpair, congrArg Prod.snd hpair, hannounced⟩

end NexusTrade.Compliance
