import NexusTrade.Lib.Delivery
import NexusTrade.Lib.Run
import NexusTrade.Withdrawal.Service

/-!
# The life cycle of withdrawals

A run of the withdrawal service, its topic and the consumer in the wallet service.  The topic is a log of
messages of which the approvals have an effect, the debit of a wallet, under the id of the withdrawal.

* **`Moves`**: from one state to a later one, a status changes from pending to confirmed or to failed only;
* **`LifeCycle`**: a withdrawal is approved at most once, and debited at most once, and neither if it has
  failed;
* **`withdrawal_life_cycle`**: both hold in every run in which no decided withdrawal is decided otherwise
  and no message is handled twice;
* **`rejected_then_approved`**: a run in which they do not.
-/

namespace NexusTrade

open Wallet Delivery

/-! ### What is claimed of a run -/

/-- The withdrawal that a message approves, under its id. -/
def approvalOf (event : KafkaEvent WithdrawalEntity) : Option (String × WithdrawalEntity) :=
  if event.eventType = .withdrawalApproved then some (event.aggregateId, event.payload) else none

/-- The `WithdrawalApproved` events of one withdrawal, by their payloads. -/
def approvalsOf (id : String) (topic : List (KafkaEvent WithdrawalEntity)) :
    List (String × WithdrawalEntity) :=
  (topic.filterMap approvalOf).filter fun approval => approval.1 = id

/-- The debits made, under the ids they refer to. -/
def debitsIn (replies : List WithdrawalReply) : List (String × BalanceMutationDto) :=
  replies.filterMap fun
    | .called (.debit dto _) (.ok _) => some (dto.referenceId, dto)
    | _ => none

/-- The debits made because of one withdrawal. -/
def debitsOf (id : String) (replies : List WithdrawalReply) : List (String × BalanceMutationDto) :=
  (debitsIn replies).filter fun debit => debit.1 = id

/-- **Statuses move** from pending to confirmed or failed, and withdrawals stay. -/
def Moves (before after : WithdrawalService) : Prop :=
  ∀ id withdrawal, before.withdrawals.find id = some withdrawal → ∃ withdrawal',
    after.withdrawals.find id = some withdrawal' ∧
      (withdrawal'.status = withdrawal.status ∨
        withdrawal.status = .pending ∧
          (withdrawal'.status = .confirmed ∨ withdrawal'.status = .failed))

/-- **Approved and debited at most once**; a debit is the amount and the fee of an approved withdrawal, and
what has failed is not approved. -/
structure LifeCycle (round : Rounding) (replies : List WithdrawalReply) (system : WithdrawalSystem) :
    Prop where
  approvedOnce : ∀ id, (approvalsOf id system.topic).length ≤ 1
  failed : ∀ id withdrawal, system.withdrawal.withdrawals.find id = some withdrawal →
    withdrawal.status = .failed → approvalsOf id system.topic = [] ∧ debitsOf id replies = []
  debitedOnce : ∀ id, (debitsOf id replies).length ≤ 1
  debited : ∀ id debit, debit ∈ debitsOf id replies →
    ∃ approval ∈ approvalsOf id system.topic, debit.2 = withdrawalDebit round approval.2

/-! ### Conditions on a call -/

/-- `randomUUID` gives an id that no withdrawal has. -/
def NewWithdrawalId (system : WithdrawalSystem) : WithdrawalCall → Prop
  | .request surroundings _ => system.withdrawal.withdrawals.find surroundings.uuid = none
  | .approve _ _ => True
  | .reject _ _ => True
  | .deliver _ => True

instance (system : WithdrawalSystem) : DecidablePred (NewWithdrawalId system)
  | .request surroundings _ =>
    inferInstanceAs (Decidable (system.withdrawal.withdrawals.find surroundings.uuid = none))
  | .approve _ _ => inferInstanceAs (Decidable True)
  | .reject _ _ => inferInstanceAs (Decidable True)
  | .deliver _ => inferInstanceAs (Decidable True)

/-- A decision is about a withdrawal whose status is one of some, unless it is refused. -/
def DecidesOn (statuses : List TransactionStatus) (service : WithdrawalService) (id : String) : Prop :=
  match service.withdrawals.find id with
  | none => True
  | some withdrawal =>
    withdrawal.status ∈ statuses ∨ service.assertUserCanTransact withdrawal.userId ≠ .ok ()

instance (statuses : List TransactionStatus) (service : WithdrawalService) (id : String) :
    Decidable (DecidesOn statuses service id) := by
  unfold DecidesOn
  cases service.withdrawals.find id <;> infer_instance

/-- What is approved is pending, what is rejected is pending or has failed, and a message for which a
wallet was debited is not delivered again. -/
def DecidedOnce (system : WithdrawalSystem) : WithdrawalCall → Prop
  | .request _ _ => True
  | .approve id _ => DecidesOn [.pending] system.withdrawal id
  | .reject id _ => DecidesOn [.pending, .failed] system.withdrawal id
  | .deliver position => position ∉ system.debited

instance (system : WithdrawalSystem) : DecidablePred (DecidedOnce system)
  | .request _ _ => inferInstanceAs (Decidable True)
  | .approve id _ => inferInstanceAs (Decidable (DecidesOn [.pending] system.withdrawal id))
  | .reject id _ => inferInstanceAs (Decidable (DecidesOn [.pending, .failed] system.withdrawal id))
  | .deliver position => inferInstanceAs (Decidable (position ∉ system.debited))

/-! ### Moves -/

theorem Moves.refl (service : WithdrawalService) : Moves service service :=
  fun _ withdrawal h => ⟨withdrawal, h, Or.inl rfl⟩

theorem Moves.trans {first second third : WithdrawalService} (h : Moves first second)
    (h' : Moves second third) : Moves first third := by
  intro id withdrawal hfind
  obtain ⟨withdrawal', hfind', hmove⟩ := h id withdrawal hfind
  obtain ⟨withdrawal'', hfind'', hmove'⟩ := h' id withdrawal' hfind'
  refine ⟨withdrawal'', hfind'', ?_⟩
  rcases hmove with heq | ⟨hpending, hdecided⟩
  · rw [← heq]
    exact hmove'
  · rcases hmove' with heq' | ⟨hpending', _⟩
    · rw [heq']
      exact Or.inr ⟨hpending, hdecided⟩
    · rcases hdecided with hconfirmed | hfailed
      · exact nomatch hconfirmed.symm.trans hpending'
      · exact nomatch hfailed.symm.trans hpending'

/-- A row is written that was not there, or whose status makes the move. -/
theorem Moves.insert {service service' : WithdrawalService} (withdrawal : WithdrawalEntity)
    (hbefore : ∀ row, service.withdrawals.find withdrawal.id = some row →
      withdrawal.status = row.status ∨
        row.status = .pending ∧ (withdrawal.status = .confirmed ∨ withdrawal.status = .failed))
    (hwithdrawals : service'.withdrawals = service.withdrawals.insert withdrawal.id withdrawal) :
    Moves service service' := by
  intro id row hrow
  by_cases hid : id = withdrawal.id
  · subst hid
    refine ⟨withdrawal, ?_, hbefore row hrow⟩
    rw [hwithdrawals, SortedMap.find_insert, if_pos rfl]
  · refine ⟨row, ?_, Or.inl rfl⟩
    rw [hwithdrawals, SortedMap.find_insert, if_neg hid]
    exact hrow

/-! ### What the operations do -/

variable {config : WithdrawalConfig} {round : Rounding} {column : Column}

namespace WithdrawalService

variable {service service' : WithdrawalService}

theorem save_ok {withdrawal : WithdrawalEntity}
    (h : service.save column withdrawal = .ok service') :
    ∃ amount fee, service' = { service with
      withdrawals := service.withdrawals.insert withdrawal.id
        { withdrawal with amount := amount, fee := fee } } := by
  simp only [save] at h
  split at h
  · rename_i amount fee _
    cases h
    exact ⟨amount, fee, rfl⟩
  · cases h

/-- **What `request` does** if it does not throw. -/
theorem request_ok {surroundings : Surroundings} {dto : WithdrawalDto}
    {events : List (KafkaEvent WithdrawalEntity)}
    (h : service.request config round column surroundings dto = .ok (events, service')) :
    ∃ withdrawal row, withdrawal.id = surroundings.uuid ∧ row.id = surroundings.uuid ∧
      row.status = withdrawal.status ∧
      service' = { service with withdrawals := service.withdrawals.insert row.id row } ∧
      (withdrawal.status = .confirmed ∧
          events = [⟨.withdrawalRequested, withdrawal.id, withdrawal⟩,
            ⟨.withdrawalApproved, withdrawal.id, withdrawal⟩] ∨
        events = [⟨.withdrawalRequested, withdrawal.id, withdrawal⟩]) := by
  simp only [request, bind_eq_ok] at h
  obtain ⟨_, _, saved, hsave, h⟩ := h
  obtain ⟨amount, fee, rfl⟩ := save_ok hsave
  refine ⟨created round surroundings.uuid dto,
    { created round surroundings.uuid dto with amount := amount, fee := fee }, rfl, rfl, rfl, ?_⟩
  split at h
  · rename_i hconfirmed
    cases h
    exact ⟨rfl, Or.inl ⟨hconfirmed, rfl⟩⟩
  · cases h
    exact ⟨rfl, Or.inr rfl⟩

/-- **What `approve` and `reject` do** to a withdrawal that they find, if they do not throw. -/
theorem decide_ok {id : String} {status : TransactionStatus} {row : WithdrawalEntity}
    {decided : Option WithdrawalEntity} (hrow : service.withdrawals.find id = some row)
    (hid : row.id = id) (h : service.decide column id status = .ok (decided, service')) :
    service.assertUserCanTransact row.userId = .ok () ∧ decided = some { row with status := status } ∧
      service' = { service with
        withdrawals := service.withdrawals.insert id { row with status := status } } := by
  subst hid
  simp only [decide, hrow, bind_eq_ok] at h
  obtain ⟨_, huser, saved, hsave, h⟩ := h
  cases h
  simp only [save, hrow, storeChanged, if_true] at hsave
  cases hsave
  exact ⟨huser, rfl, rfl⟩

theorem decide_none {id : String} {status : TransactionStatus} {decided : Option WithdrawalEntity}
    (hrow : service.withdrawals.find id = none)
    (h : service.decide column id status = .ok (decided, service')) : decided = none := by
  simp only [decide, hrow] at h
  cases h
  rfl

end WithdrawalService

/-! ### The invariant -/

/-- The rows have their ids; an approval is of a confirmed withdrawal, and no two are of one; the debits
made are those of the messages in `debited`, none of which is there twice. -/
structure WithdrawalInv (round : Rounding) (replies : List WithdrawalReply)
    (system : WithdrawalSystem) : Prop where
  ids : ∀ id row, system.withdrawal.withdrawals.find id = some row → row.id = id
  approvals : ∀ i id payload, effectAt approvalOf system.topic i = some (id, payload) →
    payload.id = id ∧ payload.status = .confirmed ∧
      ∃ row, system.withdrawal.withdrawals.find id = some row ∧ row.status = .confirmed
  distinct : Distinct approvalOf system.topic
  nodup : system.debited.Nodup
  taken : ∀ i ∈ system.debited, i < system.topic.length
  debits : debitsIn replies = (effects approvalOf system.topic system.debited).map
    fun approval => (approval.1, withdrawalDebit round approval.2)

section Inv

variable {replies : List WithdrawalReply} {system : WithdrawalSystem}

theorem debitsIn_append (replies more : List WithdrawalReply) :
    debitsIn (replies ++ more) = debitsIn replies ++ debitsIn more :=
  List.filterMap_append

/-- A reply that is not a debit. -/
theorem WithdrawalInv.reply (h : WithdrawalInv round replies system) (reply : WithdrawalReply)
    (hreply : debitsIn [reply] = []) : WithdrawalInv round (replies ++ [reply]) system := by
  refine { h with debits := ?_ }
  rw [debitsIn_append, hreply, List.append_nil]
  exact h.debits

/-- A withdrawal that is not confirmed has not been approved. -/
theorem WithdrawalInv.not_approved (h : WithdrawalInv round replies system) {id : String}
    (hbefore : ∀ row, system.withdrawal.withdrawals.find id = some row → row.status ≠ .confirmed)
    (i : ℕ) (payload : WithdrawalEntity) :
    effectAt approvalOf system.topic i ≠ some (id, payload) := by
  intro heffect
  obtain ⟨_, _, row, hrow, hstatus⟩ := h.approvals i id payload heffect
  exact hbefore row hrow hstatus

/-- A row that is not confirmed is written. -/
theorem WithdrawalInv.write (h : WithdrawalInv round replies system) (row : WithdrawalEntity)
    (service : WithdrawalService)
    (hbefore : ∀ old, system.withdrawal.withdrawals.find row.id = some old →
      old.status ≠ .confirmed)
    (hwrite : service.withdrawals = system.withdrawal.withdrawals.insert row.id row) :
    WithdrawalInv round replies { system with withdrawal := service } := by
  refine { h with ids := ?_, approvals := ?_ }
  · intro id old hold
    simp only [hwrite, SortedMap.find_insert] at hold
    split at hold
    · rename_i hid
      cases hold
      exact hid.symm
    · exact h.ids id old hold
  · intro i id payload heffect
    obtain ⟨hid, hstatus, old, hold, hconfirmed⟩ := h.approvals i id payload heffect
    refine ⟨hid, hstatus, old, ?_, hconfirmed⟩
    simp only [hwrite, SortedMap.find_insert]
    rw [if_neg]
    · exact hold
    · rintro rfl
      exact hbefore old hold hconfirmed

/-- A message is produced; if it is an approval, it is the first one of a confirmed withdrawal. -/
theorem WithdrawalInv.message (h : WithdrawalInv round replies system)
    (event : KafkaEvent WithdrawalEntity)
    (hevent : ∀ id payload, approvalOf event = some (id, payload) →
      (payload.id = id ∧ payload.status = .confirmed ∧
        ∃ row, system.withdrawal.withdrawals.find id = some row ∧ row.status = .confirmed) ∧
      ∀ i earlier, effectAt approvalOf system.topic i ≠ some (id, earlier)) :
    WithdrawalInv round replies { system with topic := system.topic ++ [event] } := by
  refine { h with approvals := ?_, distinct := ?_, taken := ?_, debits := ?_ }
  · intro i id payload heffect
    rw [effectAt_snoc] at heffect
    split at heffect
    · exact (hevent id payload heffect).1
    · exact h.approvals i id payload heffect
  · exact h.distinct.snoc fun id payload hsome => (hevent id payload hsome).2
  · intro i hi
    rw [List.length_append]
    exact Nat.lt_add_right _ (h.taken i hi)
  · rw [effects_append h.taken]
    exact h.debits

/-! ### Steps -/

theorem WithdrawalInv.request (h : WithdrawalInv round replies system) {surroundings : Surroundings}
    {dto : WithdrawalDto} {events : List (KafkaEvent WithdrawalEntity)} {service : WithdrawalService}
    (hnew : system.withdrawal.withdrawals.find surroundings.uuid = none)
    (hstep : system.withdrawal.request config round column surroundings dto = .ok (events, service)) :
    WithdrawalInv round (replies ++ [.requested events]) (system.produce events service) ∧
      Moves system.withdrawal service := by
  obtain ⟨withdrawal, row, hid, hrowid, hstatus, hservice, hevents⟩ :=
    WithdrawalService.request_ok hstep
  have hwrite : service.withdrawals = system.withdrawal.withdrawals.insert row.id row := by
    rw [hservice]
  have habsent : ∀ old, system.withdrawal.withdrawals.find row.id ≠ some old := by
    intro old hold
    rw [hrowid, hnew] at hold
    cases hold
  have hunapproved := h.not_approved fun old hold => absurd hold (habsent old)
  have hrequested := ((h.reply (.requested events) rfl).write row service
    (fun old hold => absurd hold (habsent old)) hwrite).message
      ⟨.withdrawalRequested, withdrawal.id, withdrawal⟩ (fun _ _ hsome => nomatch hsome)
  refine ⟨?_, Moves.insert row (fun old hold => absurd hold (habsent old)) hwrite⟩
  rcases hevents with ⟨hconfirmed, rfl⟩ | rfl
  · have happroved := hrequested.message ⟨.withdrawalApproved, withdrawal.id, withdrawal⟩ ?_
    · simp only [List.append_assoc] at happroved
      exact happroved
    · intro id payload hsome
      cases hsome
      refine ⟨⟨rfl, hconfirmed, row, ?_, hstatus.trans hconfirmed⟩, ?_⟩
      · simp only [hwrite, SortedMap.find_insert]
        rw [if_pos (hid.trans hrowid.symm)]
      · intro i earlier heffect
        rw [effectAt_snoc] at heffect
        split at heffect
        · cases heffect
        · rw [hid, ← hrowid] at heffect
          exact hunapproved i earlier heffect
  · exact hrequested

/-- `approve` and `reject` of a withdrawal that was found: the row, and the move. -/
theorem WithdrawalInv.decide (h : WithdrawalInv round replies system) {statuses : List TransactionStatus}
    {id : String} {status : TransactionStatus} {decided : WithdrawalEntity}
    {service : WithdrawalService} (hon : DecidesOn statuses system.withdrawal id)
    (hstatuses : ∀ old ∈ statuses, old = .pending ∨ old = status)
    (hdecision : status = .confirmed ∧ .confirmed ∉ statuses ∨ status = .failed)
    (hstep : system.withdrawal.decide column id status = .ok (some decided, service)) :
    WithdrawalInv round replies { system with withdrawal := service } ∧
      Moves system.withdrawal service ∧ decided.id = id ∧ decided.status = status ∧
      service.withdrawals.find id = some decided ∧
      ∀ i payload, effectAt approvalOf system.topic i ≠ some (id, payload) := by
  cases hfind : system.withdrawal.withdrawals.find id with
  | none => exact nomatch WithdrawalService.decide_none hfind hstep
  | some row =>
      have hid := h.ids id row hfind
      obtain ⟨huser, hdecided, hservice⟩ := WithdrawalService.decide_ok hfind hid hstep
      cases hdecided
      rw [DecidesOn, hfind] at hon
      have hmem : row.status ∈ statuses := hon.resolve_right fun hrefused => hrefused huser
      have hold := hstatuses row.status hmem
      have hbefore : ∀ old, system.withdrawal.withdrawals.find id = some old →
          old.status ≠ .confirmed := by
        intro old hsome hconfirmed
        cases hsome.symm.trans hfind
        rw [hconfirmed] at hmem hold
        rcases hdecision with ⟨_, hnot⟩ | hfailed
        · exact hnot hmem
        · rcases hold with hpending | hstatus
          · cases hpending
          · cases hstatus.trans hfailed
      have hwrite : service.withdrawals
          = system.withdrawal.withdrawals.insert row.id { row with status := status } := by
        rw [hservice, hid]
      subst hid
      refine ⟨h.write { row with status := status } service hbefore hwrite, ?_, rfl, rfl, ?_,
        h.not_approved hbefore⟩
      · refine Moves.insert { row with status := status } ?_ hwrite
        intro old hsome
        cases hsome.symm.trans hfind
        rcases hold with hpending | hstatus
        · refine Or.inr ⟨hpending, ?_⟩
          rcases hdecision with ⟨hconfirmed, _⟩ | hfailed
          · exact Or.inl hconfirmed
          · exact Or.inr hfailed
        · exact Or.inl hstatus.symm
      · rw [hwrite, SortedMap.find_insert, if_pos rfl]

theorem WithdrawalInv.approve (h : WithdrawalInv round replies system) {id approverId : String}
    {event : KafkaEvent WithdrawalEntity} {service : WithdrawalService}
    (hon : DecidesOn [.pending] system.withdrawal id)
    (hstep : system.withdrawal.approve column id = .ok (some event, service)) :
    WithdrawalInv round (replies ++ [.approved approverId event]) (system.produce [event] service) ∧
      Moves system.withdrawal service := by
  rw [WithdrawalService.approve, bind_eq_ok] at hstep
  obtain ⟨⟨decided, service'⟩, hdecide, hstep⟩ := hstep
  cases decided with
  | none => cases hstep
  | some withdrawal =>
      cases hstep
      obtain ⟨hinv, hmoves, hid, hstatus, hfind, hunapproved⟩ := h.decide hon
        (fun old hold => Or.inl (List.mem_singleton.mp hold)) (Or.inl ⟨rfl, by decide⟩) hdecide
      refine ⟨(hinv.reply _ rfl).message _ ?_, hmoves⟩
      intro id' payload hsome
      cases hsome
      exact ⟨⟨hid, hstatus, withdrawal, hfind, hstatus⟩, hunapproved⟩

theorem WithdrawalInv.reject (h : WithdrawalInv round replies system) {id approverId : String}
    {withdrawal : WithdrawalEntity} {service : WithdrawalService}
    (hon : DecidesOn [.pending, .failed] system.withdrawal id)
    (hstep : system.withdrawal.reject column id = .ok (some withdrawal, service)) :
    WithdrawalInv round (replies ++ [.rejected approverId withdrawal]) (system.produce [] service) ∧
      Moves system.withdrawal service := by
  obtain ⟨hinv, hmoves, _⟩ := h.decide hon (by simp) (Or.inr rfl) hstep
  rw [WithdrawalSystem.produce, List.append_nil]
  exact ⟨hinv.reply _ rfl, hmoves⟩

theorem WithdrawalInv.deliver (h : WithdrawalInv round replies system) {position : ℕ}
    (honce : position ∉ system.debited) :
    WithdrawalInv round (replies ++ [(system.deliver round column position).1])
        (system.deliver round column position).2 ∧
      (system.deliver round column position).2.withdrawal = system.withdrawal := by
  rw [WithdrawalSystem.deliver]
  cases hevent : system.topic[position]?.bind (onWithdrawal round) with
  | none => exact ⟨h.reply _ rfl, rfl⟩
  | some op =>
      obtain ⟨event, hmessage, hask⟩ := Option.bind_eq_some_iff.mp hevent
      rw [onWithdrawal] at hask
      split at hask
      · rename_i happroval
        cases hask
        have heffect : effectAt approvalOf system.topic position
            = some (event.aggregateId, event.payload) := by
          rw [effectAt, hmessage, Option.bind_some, approvalOf, if_pos happroval.1]
        have hid : event.payload.id = event.aggregateId :=
          (h.approvals position _ _ heffect).1
        simp only
        cases hexec : system.wallet.exec round column
            (.debit (withdrawalDebit round event.payload) .withdrawal) with
        | mk result wallet =>
            have hwallet : WithdrawalInv round replies { system with wallet := wallet } := { h with }
            cases result with
            | error e => exact ⟨hwallet.reply _ rfl, rfl⟩
            | ok reply =>
                refine ⟨{ hwallet with nodup := ?_, taken := ?_, debits := ?_ }, rfl⟩
                · rw [List.nodup_append]
                  refine ⟨h.nodup, List.nodup_singleton position, ?_⟩
                  rintro i hi j hj rfl
                  exact honce (List.mem_singleton.mp hj ▸ hi)
                · intro i hi
                  rcases List.mem_append.mp hi with hold | hnew
                  · exact h.taken i hold
                  · rw [List.mem_singleton.mp hnew]
                    exact effectAt_lt heffect
                · rw [debitsIn_append, h.debits, effects_snoc system.debited heffect,
                    List.map_append, List.map_singleton, ← hid]
                  rfl
      · cases hask

/-- **One step** of a call that meets the conditions. -/
theorem WithdrawalInv.step {system' : WithdrawalSystem} {call : WithdrawalCall} {reply : WithdrawalReply}
    (h : WithdrawalInv round replies system) (hnew : NewWithdrawalId system call)
    (honce : DecidedOnce system call)
    (hstep : withdrawalStep config round column system call = .ok (reply, system')) :
    WithdrawalInv round (replies ++ [reply]) system' ∧ Moves system.withdrawal system'.withdrawal := by
  cases call with
  | request surroundings dto =>
      rw [withdrawalStep] at hstep
      split at hstep
      · cases hstep
        exact ⟨h.reply _ rfl, Moves.refl _⟩
      · rename_i hcall
        cases hstep
        exact h.request hnew hcall
  | approve id approverId =>
      rw [withdrawalStep] at hstep
      split at hstep
      · cases hstep
        exact ⟨h.reply _ rfl, Moves.refl _⟩
      · cases hstep
        exact ⟨h.reply _ rfl, Moves.refl _⟩
      · rename_i hcall
        cases hstep
        exact h.approve honce hcall
  | reject id approverId =>
      rw [withdrawalStep] at hstep
      split at hstep
      · cases hstep
        exact ⟨h.reply _ rfl, Moves.refl _⟩
      · cases hstep
        exact ⟨h.reply _ rfl, Moves.refl _⟩
      · rename_i hcall
        cases hstep
        exact h.reject honce hcall
  | deliver position =>
      have hdeliver := Except.ok.inj hstep
      obtain ⟨hinv, hsame⟩ : WithdrawalInv round
          (replies ++ [(system.deliver round column position).1])
          (system.deliver round column position).2 ∧ _ := h.deliver honce
      rw [hdeliver] at hinv hsame
      rw [hsame]
      exact ⟨hinv, Moves.refl _⟩

/-! ### Runs -/

/-- **The invariant gives the life cycle.** -/
theorem WithdrawalInv.lifeCycle (h : WithdrawalInv round replies system) :
    LifeCycle round replies system := by
  have hmap : ∀ approvals : List (String × WithdrawalEntity),
      (approvals.map fun approval => (approval.1, withdrawalDebit round approval.2)).map Prod.fst
        = approvals.map Prod.fst := fun approvals => by
    rw [List.map_map]
    rfl
  have hdebits : ((debitsIn replies).map Prod.fst).Nodup := by
    rw [h.debits, hmap]
    exact effects_nodup h.distinct h.nodup
  have hdebited : ∀ id debit, debit ∈ debitsOf id replies →
      ∃ approval ∈ approvalsOf id system.topic, debit.2 = withdrawalDebit round approval.2 := by
    intro id debit hmem
    obtain ⟨hmem, hkey⟩ := List.mem_filter.mp hmem
    rw [h.debits] at hmem
    obtain ⟨approval, happroval, rfl⟩ := List.mem_map.mp hmem
    obtain ⟨i, _, heffect⟩ := mem_effects happroval
    obtain ⟨event, hevent, happrove⟩ := Option.bind_eq_some_iff.mp heffect
    refine ⟨approval, List.mem_filter.mpr ⟨?_, hkey⟩, rfl⟩
    exact List.mem_filterMap.mpr ⟨event, List.mem_of_getElem? hevent, happrove⟩
  have hconfirmed : ∀ id approval, approval ∈ approvalsOf id system.topic →
      ∃ row, system.withdrawal.withdrawals.find id = some row ∧ row.status = .confirmed := by
    intro id approval hmem
    obtain ⟨hmem, hkey⟩ := List.mem_filter.mp hmem
    obtain ⟨event, hevent, happrove⟩ := List.mem_filterMap.mp hmem
    obtain ⟨i, hi⟩ := List.getElem?_of_mem hevent
    obtain rfl : approval.1 = id := of_decide_eq_true hkey
    have heffect : effectAt approvalOf system.topic i = some (approval.1, approval.2) := by
      rw [effectAt, hi]
      exact happrove
    exact (h.approvals i _ _ heffect).2.2
  have hnone : ∀ id withdrawal, system.withdrawal.withdrawals.find id = some withdrawal →
      withdrawal.status = .failed → approvalsOf id system.topic = [] := by
    intro id withdrawal hfind hfailed
    rw [List.eq_nil_iff_forall_not_mem]
    intro approval hmem
    obtain ⟨row, hrow, hstatus⟩ := hconfirmed id approval hmem
    cases hrow.symm.trans hfind
    cases hstatus.symm.trans hfailed
  constructor
  · exact fun id => filter_key_length_le_one (log_nodup h.distinct) id
  · intro id withdrawal hfind hfailed
    have happrovals := hnone id withdrawal hfind hfailed
    refine ⟨happrovals, ?_⟩
    rw [List.eq_nil_iff_forall_not_mem]
    intro debit hmem
    obtain ⟨approval, happroval, _⟩ := hdebited id debit hmem
    rw [happrovals] at happroval
    cases happroval
  · exact fun id => filter_key_length_le_one hdebits id
  · exact hdebited

end Inv

/-- No withdrawals and no messages yet. -/
def WithdrawalSystem.Fresh (system : WithdrawalSystem) : Prop :=
  system.withdrawal.withdrawals = .empty ∧ system.topic = [] ∧ system.debited = []

theorem WithdrawalSystem.Fresh.inv {system : WithdrawalSystem} (h : system.Fresh) :
    WithdrawalInv round [] system := by
  obtain ⟨hwithdrawals, htopic, hdebited⟩ := h
  constructor
  · intro id row hrow
    rw [hwithdrawals] at hrow
    cases hrow
  · intro i id payload heffect
    rw [htopic] at heffect
    exact absurd (effectAt_lt heffect) (Nat.not_lt_zero i)
  · rw [htopic]
    exact distinct_nil
  · rw [hdebited]
    exact List.nodup_nil
  · rw [hdebited]
    exact fun i hi => nomatch hi
  · rw [hdebited]
    rfl

/-- **The life cycle of withdrawals**, in every run in which decisions are made once and no message is
handled again: from any state of the run to its last the statuses have moved as they may, and in the last
each withdrawal has been approved and debited at most once. -/
theorem withdrawal_life_cycle (system₀ : WithdrawalSystem) (hfresh : system₀.Fresh)
    (before after : List WithdrawalCall)
    (hnew : Machine.Along (withdrawalStep config round column) NewWithdrawalId system₀
      (before ++ after))
    (honce : Machine.Along (withdrawalStep config round column) DecidedOnce system₀
      (before ++ after)) :
    ∃ replies middle replies' system,
      Machine.run (withdrawalStep config round column) system₀ before = .ok (replies, middle) ∧
      Machine.run (withdrawalStep config round column) middle after = .ok (replies', system) ∧
      Moves middle.withdrawal system.withdrawal ∧ LifeCycle round (replies ++ replies') system := by
  obtain ⟨hbefore, hafter⟩ := Machine.along_append.mp (Machine.along_and hnew honce)
  obtain ⟨replies, middle, hrun, hinv⟩ := Machine.run_safe_along
    (Q := fun _ replies system => WithdrawalInv round replies system) hfresh.inv
    (fun _ _ _ _ _ _ h hcall hstep => (h.step hcall.1 hcall.2 hstep).1) before hbefore
  obtain ⟨replies', system, hrun', hinv', hmoves⟩ := Machine.run_safe_along
    (Q := fun _ replies' system => WithdrawalInv round (replies ++ replies') system ∧
      Moves middle.withdrawal system.withdrawal)
    ⟨(List.append_nil replies).symm ▸ hinv, Moves.refl _⟩
    (fun _ rs s call reply s' h hcall hstep => by
      obtain ⟨hnext, hmove⟩ := h.1.step hcall.1 hcall.2 hstep
      rw [List.append_assoc] at hnext
      exact ⟨hnext, h.2.trans hmove⟩) after (hafter replies middle hrun)
  exact ⟨replies, middle, replies', system, hrun, hrun', hmoves, hinv'.lifeCycle⟩

/-- The services with a user, a whitelisted address and a wallet, and without withdrawals. -/
def freshWithdrawals : WithdrawalSystem where
  withdrawal :=
    { users := some (SortedMap.empty.insert "alice" .active)
      addresses := [⟨"alice", "USDT", "ethereum", "0xdead", 0⟩]
      withdrawals := .empty }
  topic := []
  debited := []
  wallet :=
    { dataSource := some
        { users := SortedMap.empty.insert "alice" .active
          wallets := SortedMap.empty.insert (Database.rowKey "alice" "USDT") ⟨.fin 50000, .zero⟩
          ledger := [] }
      memory := ⟨.empty, []⟩ }

/-- A request of an amount, two days after the address was whitelisted. -/
def requestOf (uuid : String) (amount : ℚ) : WithdrawalCall :=
  .request ⟨uuid, 172800000, .answered true, .answered (some (.fin 50000))⟩
    ⟨"alice", "USDT", "ethereum", "0xdead", .fin amount⟩

theorem withdrawal_life_cycle_requestAndDecide :
    ∃ replies middle replies' system,
      Machine.run (withdrawalStep .default .fin some) freshWithdrawals
        [requestOf "withdrawal-1" 100, requestOf "withdrawal-2" 10000, requestOf "withdrawal-3" 20000]
        = .ok (replies, middle) ∧
      Machine.run (withdrawalStep .default .fin some) middle
        [.approve "withdrawal-2" "operator", .reject "withdrawal-3" "operator", .deliver 1, .deliver 4,
          .deliver 0] = .ok (replies', system) ∧
      Moves middle.withdrawal system.withdrawal ∧ LifeCycle .fin (replies ++ replies') system :=
  withdrawal_life_cycle freshWithdrawals ⟨rfl, rfl, rfl⟩ _ _ (by decide +kernel) (by decide +kernel)

/-- **A withdrawal that was rejected is approved.**  Neither `approve` nor `reject` looks at the status that
it replaces. -/
theorem rejected_then_approved :
    freshWithdrawals.Fresh ∧ ¬ ∀ before after,
      Machine.Along (withdrawalStep .default .fin some) NewWithdrawalId freshWithdrawals
        (before ++ after) →
      ∃ replies middle replies' system,
        Machine.run (withdrawalStep .default .fin some) freshWithdrawals before
          = .ok (replies, middle) ∧
        Machine.run (withdrawalStep .default .fin some) middle after = .ok (replies', system) ∧
        Moves middle.withdrawal system.withdrawal ∧ LifeCycle .fin (replies ++ replies') system := by
  refine ⟨⟨rfl, rfl, rfl⟩, fun h => ?_⟩
  obtain ⟨replies, middle, replies', system, hrun, hrun', hmoves, _⟩ :=
    h [requestOf "withdrawal-1" 10000, .reject "withdrawal-1" "operator"]
      [.approve "withdrawal-1" "operator"] (by decide +kernel)
  have hfailed : (Machine.run (withdrawalStep .default .fin some) freshWithdrawals
      [requestOf "withdrawal-1" 10000, .reject "withdrawal-1" "operator"]).toOption.bind
        (fun r => (r.2.withdrawal.withdrawals.find "withdrawal-1").map WithdrawalEntity.status)
      = some .failed := by decide +kernel
  have hconfirmed : (Machine.run (withdrawalStep .default .fin some) freshWithdrawals
      ([requestOf "withdrawal-1" 10000, .reject "withdrawal-1" "operator"]
        ++ [.approve "withdrawal-1" "operator"])).toOption.bind
        (fun r => (r.2.withdrawal.withdrawals.find "withdrawal-1").map WithdrawalEntity.status)
      = some .confirmed := by decide +kernel
  obtain ⟨_, _, _, happrove, hend, _⟩ := Machine.run_cons_ok.mp hrun'
  cases hend
  rw [Machine.run_snoc.mpr ⟨replies, middle, _, hrun, happrove, rfl⟩] at hconfirmed
  rw [hrun] at hfailed
  obtain ⟨before, hbefore, hstatus⟩ := Option.map_eq_some_iff.mp hfailed
  obtain ⟨later, hlater, hstatus'⟩ := Option.map_eq_some_iff.mp hconfirmed
  obtain ⟨after, hafter, hmove⟩ := hmoves "withdrawal-1" before hbefore
  cases hlater.symm.trans hafter
  rw [hstatus, hstatus'] at hmove
  rcases hmove with hsame | ⟨hpending, _⟩
  · cases hsame
  · cases hpending

end NexusTrade
