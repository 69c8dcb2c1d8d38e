import NexusTrade.Shared.Places
import NexusTrade.Wallet.Balances
import NexusTrade.Withdrawal.LifeCycle

/-!
# What a withdrawal takes out

From the amount of a request to the debit that the consumer in the wallet service makes when the withdrawal
is approved, at once or by an operator, in every run that follows the request.

* **`TakesOut`**: the debit is the amount and a thousandth of it, positive, and lowers the balance;
* **`Charged`**: the amounts for which it does, the positive multiples of 10⁻¹⁵;
* **`withdrawal_takes_out`**: every approval of a requested withdrawal takes out what it should exactly if
  the amount is charged, and a larger amount gets no less strict a tier;
* **`negative_withdrawal_credits`**: a request of a negative amount, by which a balance grows.
-/

namespace NexusTrade

open Wallet Delivery

/-! ### What is claimed of a debit -/

/-- A balance that the service can hold: one that its column holds, or that is in the range of
`decimal.js`. -/
def Wallet.WalletService.CanHold (round : Rounding) (service : WalletService) (b : ℚ) : Prop :=
  match service.dataSource with
  | some _ => Fits 38 18 b
  | none => (round b).isFinite = true

/-- **The debit takes money out** of the user who made a request: it is the amount and the fee of a
thousandth, it is positive, and if it succeeds the balance is lower than before. -/
structure TakesOut (round : Rounding) (column : Column) (dto : WithdrawalDto)
    (debit : BalanceMutationDto) : Prop where
  value : ∃ a, dto.amount = .fin a ∧ 0 < a ∧ debit.amount = .fin (a + a / 1000)
  lowers : ∀ (service service' : WalletService) (reply : WalletReply) (b : ℚ),
    (service.getBalance dto.userId dto.asset).available = .fin b → service.CanHold round b →
    service.exec round column (.debit debit .withdrawal) = (.ok reply, service') →
    ∃ b', (service'.getBalance dto.userId dto.asset).available = .fin b' ∧ b' < b

/-- The amounts that are positive and have at most fifteen decimal places. -/
def Charged (amount : Amount) : Prop := ∃ units : ℤ, 0 < units ∧ amount = .fin (units / 10 ^ 15)

/-- How strict a tier is. -/
def ApprovalTier.rank : ApprovalTier → ℕ
  | .auto => 0
  | .operator => 1
  | .multiParty => 2
  | .coldCeremony => 3

/-! ### Tiers -/

/-- What is at least a bound is not below a smaller amount that is. -/
theorem Amount.gte_of_lt {amount amount' : Amount} (h : amount.lt amount' = true) (bound : ℚ)
    (hgte : amount.gte bound = true) : amount'.gte bound = true := by
  cases amount with
  | nan => cases h
  | inf negative =>
      cases amount' with
      | nan => cases h
      | inf negative' => cases negative <;> cases negative' <;> first | rfl | cases h
      | fin y =>
          cases negative with
          | false => cases h
          | true => cases hgte
  | fin x =>
      cases amount' with
      | nan => cases h
      | inf negative' =>
          cases negative' with
          | false => rfl
          | true => cases h
      | fin y =>
          simp only [gte, Extended.lt, Bool.and_eq_true, Bool.not_eq_true', decide_eq_false_iff_not,
            decide_eq_true_eq, bne_iff_ne, ne_eq, reduceCtorEq, not_false_eq_true, and_true,
            not_lt] at h hgte ⊢
          exact hgte.trans h.le

/-- **A larger amount gets no less strict a tier.** -/
theorem approvalTier_mono {amount amount' : Amount} (h : amount.lt amount' = true) :
    (approvalTier amount).rank ≤ (approvalTier amount').rank := by
  have hcold := Amount.gte_of_lt h 1000000
  have hmulti := Amount.gte_of_lt h 100000
  have hoperator := Amount.gte_of_lt h 10000
  simp only [approvalTier]
  split
  · rw [if_pos (hcold ‹_›)]
  · split
    · rw [if_pos (hmulti ‹_›)]
      split <;> decide
    · split
      · rw [if_pos (hoperator ‹_›)]
        split
        · decide
        · split <;> decide
      · exact Nat.zero_le _

/-! ### The debit -/

variable {config : WithdrawalConfig} {round : Rounding} {column : Column}

/-- **A debit of a positive number lowers the balance**, in both paths. -/
theorem debit_lowers (hround : Precise 40 18 round) (hcolumn : Numeric 38 18 column)
    {dto : BalanceMutationDto} {d : ℚ} (hdto : dto.amount = .fin d) (hd : 0 < d) (hfits : Fits 39 18 d)
    {service service' : WalletService} {reply : WalletReply} {b : ℚ}
    (hbalance : (service.getBalance dto.userId dto.asset).available = .fin b)
    (hhold : service.CanHold round b)
    (hexec : service.exec round column (.debit dto .withdrawal) = (.ok reply, service')) :
    ∃ b', (service'.getBalance dto.userId dto.asset).available = .fin b' ∧ b' < b := by
  obtain ⟨dataSource, memory⟩ := service
  cases dataSource with
  | none =>
      have hnext : Amount.subtract round (memory.current dto.userId dto.asset).available dto.amount
          = round (b + -d) := by
        rw [show (memory.current dto.userId dto.asset).available = .fin b from hbalance, hdto]
        rfl
      simp only [WalletService.exec, Memory.exec, Memory.debit, hnext] at hexec
      split at hexec
      · cases hexec
      · rename_i hassert
        cases hexec
        obtain ⟨b', hb', hlt⟩ := hround.lowers hhold hd (hfits.mono (by decide))
          (assertNonNegative_ok.mp hassert)
        refine ⟨b', ?_, hlt⟩
        simp only [WalletService.getBalance, Memory.record, Memory.set, Memory.current,
          SortedMap.find_insert, if_true, Option.getD_some]
        exact hb'
  | some db =>
      simp only [WalletService.exec, WalletService.withTransaction] at hexec
      split at hexec
      · cases hexec
      · rename_i reply' db' hdebit
        cases hexec
        obtain ⟨_, units, hrun⟩ := database_exec_writes hcolumn.toKeeps hdebit
        obtain ⟨_, wallets, _, happly, hend, _⟩ := Machine.run_cons_ok.mp hrun
        cases hend
        obtain ⟨hverify, stored, hstore, hwallets⟩ := applyWrite_eq_ok.mp happly
        have hget : (walletAt db.wallets (Database.rowKey dto.userId dto.asset)).get .available
            = .fin b := hbalance
        have hnext : (adjustWrite .available dto.userId dto.asset dto.amount.negated).next round
            db.wallets = .fin (b + -d) := by
          show Amount.add round ((walletAt db.wallets (Database.rowKey dto.userId dto.asset)).get
            .available) dto.amount.negated = _
          rw [hget, hdto]
          exact hround.exact _ ((Fits.mono hhold (by decide)).add hfits.neg)
        have hstored : stored = .fin (b + -d) := by
          rw [hnext] at hstore
          rw [storeChanged] at hstore
          split at hstore
          · rename_i hsame
            cases hstore
            exact hsame.symm
          · obtain ⟨k, hk, _⟩ := (Fits.mono hhold (by decide)).add hfits.neg
            rw [hk] at hstore ⊢
            exact hcolumn.exact k stored hstore
        refine ⟨b + -d, ?_, by linarith⟩
        simp only [WalletService.getBalance, hwallets]
        rw [hstored]
        simp only [adjustWrite, walletAt_insert, WalletEntity.set]

/-! ### The withdrawal of a request -/

/-- A withdrawal that was read back: its amount and its fee are what the columns stored. -/
structure Copies (round : Rounding) (column : Column) (dto : WithdrawalDto) (row : WithdrawalEntity) :
    Prop where
  userId : row.userId = dto.userId
  asset : row.asset = dto.asset
  amount : column dto.amount = some row.amount
  fee : column (withdrawalFee round dto.amount) = some row.fee

/-- **What `request` does** with an id that no withdrawal has, if it does not throw. -/
theorem WithdrawalService.request_new {service service' : WithdrawalService} {surroundings : Surroundings}
    {dto : WithdrawalDto} {events : List (KafkaEvent WithdrawalEntity)}
    (hnew : service.withdrawals.find surroundings.uuid = none)
    (h : service.request config round column surroundings dto = .ok (events, service')) :
    service.assertUserCanTransact dto.userId = .ok () ∧
      (∀ event ∈ events, event.aggregateId = surroundings.uuid ∧
        event.payload = created round surroundings.uuid dto) ∧
      ∃ row, row.id = surroundings.uuid ∧ Copies round column dto row ∧
        service' = { service with withdrawals := service.withdrawals.insert surroundings.uuid row } := by
  simp only [request, bind_eq_ok] at h
  obtain ⟨_, hcheck, saved, hsave, h⟩ := h
  refine ⟨?_, ?_, ?_⟩
  · simp only [checkRequest, bind_eq_ok] at hcheck
    obtain ⟨_, huser, _⟩ := hcheck
    exact huser
  · intro event hevent
    split at h <;> cases h
    · rcases List.mem_cons.mp hevent with rfl | hlast
      · exact ⟨rfl, rfl⟩
      · rw [List.mem_singleton.mp hlast]
        exact ⟨rfl, rfl⟩
    · rw [List.mem_singleton.mp hevent]
      exact ⟨rfl, rfl⟩
  · have hservice : service' = saved := by
      split at h <;> cases h <;> rfl
    subst hservice
    have hfind : service.withdrawals.find (created round surroundings.uuid dto).id = none := hnew
    simp only [save, hfind] at hsave
    split at hsave
    · rename_i amount fee hstored
      cases hsave
      obtain ⟨hamount, hfee⟩ := Prod.mk.inj hstored
      exact ⟨{ created round surroundings.uuid dto with amount := amount, fee := fee }, rfl,
        ⟨rfl, rfl, hamount, hfee⟩, rfl⟩
    · cases hsave

/-- The rows have their ids. -/
def WithdrawalService.Named (service : WithdrawalService) : Prop :=
  ∀ id row, service.withdrawals.find id = some row → row.id = id

theorem WithdrawalService.Named.insert {service service' : WithdrawalService} (h : service.Named)
    {id : String} {row : WithdrawalEntity} (hid : row.id = id)
    (hwrite : service'.withdrawals = service.withdrawals.insert id row) : service'.Named := by
  intro id' row' hfind
  rw [hwrite, SortedMap.find_insert] at hfind
  split at hfind
  · rename_i heq
    cases hfind
    rw [hid, heq]
  · exact h id' row' hfind

/-- **What one step does** to the rows and the topic: nothing, what `request` does, or it gives a row a new
status and may approve the withdrawal. -/
theorem withdrawalStep_ok {system system' : WithdrawalSystem} {call : WithdrawalCall}
    {reply : WithdrawalReply} (hnamed : system.withdrawal.Named)
    (h : withdrawalStep config round column system call = .ok (reply, system')) :
    (system'.withdrawal = system.withdrawal ∧ system'.topic = system.topic) ∨
    (∃ surroundings dto events service, call = .request surroundings dto ∧
      system.withdrawal.request config round column surroundings dto = .ok (events, service) ∧
      system' = system.produce events service) ∨
    ∃ id row status, system.withdrawal.withdrawals.find id = some row ∧
      system'.withdrawal.withdrawals
        = system.withdrawal.withdrawals.insert id { row with status := status } ∧
      (system'.topic = system.topic ∨
        system'.topic = system.topic ++ [⟨.withdrawalApproved, id, { row with status := status }⟩]) := by
  cases call with
  | request surroundings dto =>
      simp only [withdrawalStep] at h
      split at h
      · cases h
        exact Or.inl ⟨rfl, rfl⟩
      · rename_i events service hrequest
        cases h
        exact Or.inr (Or.inl ⟨surroundings, dto, events, service, rfl, hrequest, rfl⟩)
  | approve id approverId =>
      simp only [withdrawalStep] at h
      split at h
      · cases h
        exact Or.inl ⟨rfl, rfl⟩
      · cases h
        exact Or.inl ⟨rfl, rfl⟩
      · rename_i event service happrove
        cases h
        simp only [WithdrawalService.approve, bind_eq_ok] at happrove
        obtain ⟨⟨decided, service'⟩, hdecide, hevent⟩ := happrove
        cases hfind : system.withdrawal.withdrawals.find id with
        | none =>
            cases WithdrawalService.decide_none hfind hdecide
            cases hevent
        | some row =>
            obtain ⟨_, rfl, rfl⟩ := WithdrawalService.decide_ok hfind (hnamed id row hfind) hdecide
            cases hevent
            exact Or.inr (Or.inr ⟨id, row, .confirmed, hfind, rfl, Or.inr rfl⟩)
  | reject id approverId =>
      simp only [withdrawalStep] at h
      split at h
      · cases h
        exact Or.inl ⟨rfl, rfl⟩
      · cases h
        exact Or.inl ⟨rfl, rfl⟩
      · rename_i decided service hreject
        cases h
        cases hfind : system.withdrawal.withdrawals.find id with
        | none => cases WithdrawalService.decide_none hfind hreject
        | some row =>
            obtain ⟨_, _, rfl⟩ := WithdrawalService.decide_ok hfind (hnamed id row hfind) hreject
            exact Or.inr (Or.inr ⟨id, row, .failed, hfind, rfl, Or.inl (List.append_nil _)⟩)
  | deliver position =>
      have hdeliver := Except.ok.inj h
      rw [WithdrawalSystem.deliver] at hdeliver
      split at hdeliver
      · cases hdeliver
        exact Or.inl ⟨rfl, rfl⟩
      · split at hdeliver <;> cases hdeliver <;> exact Or.inl ⟨rfl, rfl⟩

/-! ### Runs before the request -/

/-- Only withdrawals that have a row have been approved. -/
structure Recorded (system : WithdrawalSystem) : Prop where
  named : system.withdrawal.Named
  approved : ∀ approval ∈ system.topic.filterMap approvalOf,
    ∃ row, system.withdrawal.withdrawals.find approval.1 = some row

/-- The events of one id are added to the topic, and a row under that id. -/
theorem Recorded.insert {system system' : WithdrawalSystem} (h : Recorded system) {id : String}
    {row : WithdrawalEntity} {events : List (KafkaEvent WithdrawalEntity)} (hid : row.id = id)
    (hwrite : system'.withdrawal.withdrawals = system.withdrawal.withdrawals.insert id row)
    (htopic : system'.topic = system.topic ++ events) (hevents : ∀ event ∈ events, event.aggregateId = id) :
    Recorded system' := by
  refine ⟨h.named.insert hid hwrite, ?_⟩
  intro approval hmem
  rw [htopic, List.filterMap_append] at hmem
  rw [hwrite, SortedMap.find_insert]
  split
  · exact ⟨row, rfl⟩
  · rename_i hne
    rcases List.mem_append.mp hmem with hold | hnew
    · exact h.approved approval hold
    · obtain ⟨event, hevent, happroval⟩ := List.mem_filterMap.mp hnew
      rw [approvalOf] at happroval
      split at happroval
      · cases happroval
        exact absurd (hevents event hevent) hne
      · cases happroval

theorem Recorded.step {system system' : WithdrawalSystem} {call : WithdrawalCall}
    {reply : WithdrawalReply} (h : Recorded system) (hnew : NewWithdrawalId system call)
    (hstep : withdrawalStep config round column system call = .ok (reply, system')) :
    Recorded system' := by
  rcases withdrawalStep_ok h.named hstep with ⟨hsame, htopic⟩ |
    ⟨surroundings, dto, events, service, rfl, hrequest, rfl⟩ |
    ⟨id, row, status, hfind, hwrite, htopic⟩
  · refine ⟨?_, ?_⟩
    · rw [hsame]
      exact h.named
    · rw [hsame, htopic]
      exact h.approved
  · obtain ⟨_, hevents, row, hid, _, rfl⟩ := WithdrawalService.request_new hnew hrequest
    exact h.insert hid rfl rfl fun event hevent => (hevents event hevent).1
  · have hid : ({ row with status := status } : WithdrawalEntity).id = id := h.named id row hfind
    rcases htopic with htopic | htopic
    · have hnothing : system'.topic = system.topic ++ [] := by rw [htopic, List.append_nil]
      exact h.insert hid hwrite hnothing fun _ hevent => nomatch hevent
    · refine h.insert hid hwrite htopic ?_
      intro event hevent
      rw [List.mem_singleton.mp hevent]

theorem WithdrawalSystem.Fresh.recorded {system : WithdrawalSystem} (h : system.Fresh) :
    Recorded system := by
  obtain ⟨hwithdrawals, htopic, _⟩ := h
  refine ⟨?_, ?_⟩
  · intro id row hrow
    rw [hwithdrawals] at hrow
    cases hrow
  · rw [htopic]
    exact fun _ hmem => nomatch hmem

theorem recorded_run {system₀ system : WithdrawalSystem} (hfresh : system₀.Fresh)
    {calls : List WithdrawalCall} {replies : List WithdrawalReply}
    (hrun : Machine.run (withdrawalStep config round column) system₀ calls = .ok (replies, system))
    (hnew : Machine.Along (withdrawalStep config round column) NewWithdrawalId system₀ calls) :
    Recorded system :=
  Machine.run_history_along (Q := fun _ _ system => Recorded system) hfresh.recorded
    (fun _ _ _ _ _ _ h hcall hstep => h.step hcall hstep) calls replies system hrun hnew

/-! ### Runs after the request -/

/-- The withdrawal of a request has a row, and what approves it is the withdrawal as `request` created it or
as it was read back. -/
structure Booked (round : Rounding) (column : Column) (uuid : String) (dto : WithdrawalDto)
    (system : WithdrawalSystem) : Prop where
  named : system.withdrawal.Named
  row : ∃ row, system.withdrawal.withdrawals.find uuid = some row ∧ Copies round column dto row
  approvals : ∀ approval ∈ approvalsOf uuid system.topic,
    approval.2 = WithdrawalService.created round uuid dto ∨ Copies round column dto approval.2

theorem mem_approvalsOf {id : String} {topic : List (KafkaEvent WithdrawalEntity)}
    {approval : String × WithdrawalEntity} :
    approval ∈ approvalsOf id topic ↔ ∃ event ∈ topic, event.eventType = .withdrawalApproved ∧
      event.aggregateId = id ∧ approval = (id, event.payload) := by
  simp only [approvalsOf, List.mem_filter, List.mem_filterMap, approvalOf, decide_eq_true_eq]
  constructor
  · rintro ⟨⟨event, hevent, happroval⟩, rfl⟩
    split at happroval
    · cases happroval
      exact ⟨event, hevent, ‹_›, rfl, rfl⟩
    · cases happroval
  · rintro ⟨event, hevent, htype, rfl, rfl⟩
    refine ⟨⟨event, hevent, ?_⟩, rfl⟩
    rw [if_pos htype]

theorem Copies.status {dto : WithdrawalDto} {row : WithdrawalEntity} (h : Copies round column dto row)
    (status : TransactionStatus) : Copies round column dto { row with status := status } :=
  ⟨h.userId, h.asset, h.amount, h.fee⟩

/-- **The request** books the withdrawal. -/
theorem Recorded.booked {system : WithdrawalSystem} (h : Recorded system) {surroundings : Surroundings}
    {dto : WithdrawalDto} {events : List (KafkaEvent WithdrawalEntity)} {service : WithdrawalService}
    (hnew : system.withdrawal.withdrawals.find surroundings.uuid = none)
    (hrequest : system.withdrawal.request config round column surroundings dto = .ok (events, service)) :
    Booked round column surroundings.uuid dto (system.produce events service) := by
  obtain ⟨_, hevents, row, hid, hcopies, rfl⟩ := WithdrawalService.request_new hnew hrequest
  refine ⟨h.named.insert hid rfl, ⟨row, ?_, hcopies⟩, ?_⟩
  · show (system.withdrawal.withdrawals.insert surroundings.uuid row).find surroundings.uuid = some row
    rw [SortedMap.find_insert, if_pos rfl]
  · intro approval hmem
    obtain ⟨event, hevent, htype, haggregate, rfl⟩ := mem_approvalsOf.mp hmem
    rcases List.mem_append.mp hevent with hold | hlast
    · -- no withdrawal of this id was approved before
      obtain ⟨old, hfind⟩ := h.approved (event.aggregateId, event.payload)
        (List.mem_filterMap.mpr ⟨event, hold, by rw [approvalOf, if_pos htype]⟩)
      rw [haggregate, hnew] at hfind
      cases hfind
    · exact Or.inl (hevents event hlast).2

theorem Booked.step {system system' : WithdrawalSystem} {uuid : String} {dto : WithdrawalDto}
    {call : WithdrawalCall} {reply : WithdrawalReply} (h : Booked round column uuid dto system)
    (hnew : NewWithdrawalId system call)
    (hstep : withdrawalStep config round column system call = .ok (reply, system')) :
    Booked round column uuid dto system' := by
  obtain ⟨row, hrow, hcopies⟩ := h.row
  rcases withdrawalStep_ok h.named hstep with ⟨hsame, htopic⟩ |
    ⟨surroundings, other, events, service, rfl, hrequest, rfl⟩ |
    ⟨id, old, status, hfind, hwrite, htopic⟩
  · refine ⟨?_, ?_, ?_⟩
    · rw [hsame]
      exact h.named
    · rw [hsame]
      exact h.row
    · rw [htopic]
      exact h.approvals
  · have hne : uuid ≠ surroundings.uuid := by
      rintro rfl
      exact nomatch hrow.symm.trans hnew
    obtain ⟨_, hevents, added, hid, _, rfl⟩ := WithdrawalService.request_new hnew hrequest
    refine ⟨h.named.insert hid rfl, ⟨row, ?_, hcopies⟩, ?_⟩
    · show (system.withdrawal.withdrawals.insert surroundings.uuid added).find uuid = some row
      rw [SortedMap.find_insert, if_neg hne]
      exact hrow
    · intro approval hmem
      obtain ⟨event, hevent, htype, haggregate, rfl⟩ := mem_approvalsOf.mp hmem
      rcases List.mem_append.mp hevent with hold | hlast
      · exact h.approvals _ (mem_approvalsOf.mpr ⟨event, hold, htype, haggregate, rfl⟩)
      · exact absurd (haggregate.symm.trans (hevents event hlast).1) hne
  · have hrow' : ∃ row, system'.withdrawal.withdrawals.find uuid = some row ∧
        Copies round column dto row := by
      rw [hwrite, SortedMap.find_insert]
      split
      · rename_i heq
        subst heq
        cases hrow.symm.trans hfind
        exact ⟨_, rfl, hcopies.status status⟩
      · exact ⟨row, hrow, hcopies⟩
    have hid : ({ old with status := status } : WithdrawalEntity).id = id := h.named id old hfind
    refine ⟨h.named.insert hid hwrite, hrow', ?_⟩
    intro approval hmem
    obtain ⟨event, hevent, htype, haggregate, rfl⟩ := mem_approvalsOf.mp hmem
    have hcases : event ∈ system.topic ∨
        event = ⟨.withdrawalApproved, id, { old with status := status }⟩ := by
      rcases htopic with htopic | htopic
      · exact Or.inl (htopic ▸ hevent)
      · rw [htopic] at hevent
        exact (List.mem_append.mp hevent).imp_right List.mem_singleton.mp
    rcases hcases with hold | rfl
    · exact h.approvals _ (mem_approvalsOf.mpr ⟨event, hold, htype, haggregate, rfl⟩)
    · have hid : id = uuid := haggregate
      subst hid
      cases hrow.symm.trans hfind
      exact Or.inr (hcopies.status status)

theorem Booked.run {system system' : WithdrawalSystem} {uuid : String} {dto : WithdrawalDto}
    (h : Booked round column uuid dto system) {calls : List WithdrawalCall}
    {replies : List WithdrawalReply}
    (hrun : Machine.run (withdrawalStep config round column) system calls = .ok (replies, system'))
    (hnew : Machine.Along (withdrawalStep config round column) NewWithdrawalId system calls) :
    Booked round column uuid dto system' :=
  Machine.run_history_along (Q := fun _ _ system => Booked round column uuid dto system) h
    (fun _ _ _ _ _ _ h hcall hstep => h.step hcall hstep) calls replies system' hrun hnew

/-- **An operator can approve** the withdrawal of a request: then it is debited as it was read back. -/
theorem Booked.approve {system : WithdrawalSystem} {uuid : String} {dto : WithdrawalDto}
    (h : Booked round column uuid dto system)
    (huser : system.withdrawal.assertUserCanTransact dto.userId = .ok ()) (approverId : String) :
    ∃ reply system' row, withdrawalStep config round column system (.approve uuid approverId)
        = .ok (reply, system') ∧ Copies round column dto row ∧
      (uuid, row) ∈ approvalsOf uuid system'.topic := by
  obtain ⟨row, hrow, hcopies⟩ := h.row
  have hid := h.named uuid row hrow
  have hsave : ∃ service, system.withdrawal.save column { row with status := .confirmed } = .ok service := by
    refine ⟨{ system.withdrawal with
      withdrawals := system.withdrawal.withdrawals.insert row.id { row with status := .confirmed } }, ?_⟩
    simp only [WithdrawalService.save, hid, hrow, storeChanged_self]
  obtain ⟨service, hsave⟩ := hsave
  have hrowUser : system.withdrawal.assertUserCanTransact row.userId = .ok () := by
    rw [hcopies.userId]
    exact huser
  have hdecide : system.withdrawal.decide column uuid .confirmed
      = .ok (some { row with status := .confirmed }, service) := by
    simp only [WithdrawalService.decide, hrow, hrowUser, ok_bind, hsave]
  let event : KafkaEvent WithdrawalEntity :=
    ⟨.withdrawalApproved, uuid, { row with status := .confirmed }⟩
  refine ⟨.approved approverId event, system.produce [event] service, event.payload, ?_,
    hcopies.status .confirmed, ?_⟩
  · simp only [withdrawalStep, WithdrawalService.approve, hdecide, ok_bind, Option.map_some]
    rfl
  · exact mem_approvalsOf.mpr ⟨event, List.mem_append_right _ (List.mem_singleton_self _), rfl, rfl, rfl⟩

/-! ### The amount of the debit -/

theorem withdrawalFee_fin (round : Rounding) (a : ℚ) : withdrawalFee round (.fin a) = round (a / 1000) := by
  rw [withdrawalFee, Amount.multiply, Extended.mul, mul_one_div]

/-- **A charged amount** and its fee are held exactly by forty digits and by the columns. -/
theorem charged_exact (hround : Precise 40 18 round) (hcolumn : Numeric 38 18 column) {units : ℤ}
    {stored : Amount} (hstored : column (.fin (units / 10 ^ 15)) = some stored) :
    stored = .fin (units / 10 ^ 15) ∧
      round (units / 10 ^ 15 / 1000) = .fin (units / 10 ^ 15 / 1000) ∧
      (∀ fee, column (.fin (units / 10 ^ 15 / 1000)) = some fee → fee = .fin (units / 10 ^ 15 / 1000)) ∧
      Fits 39 18 (units / 10 ^ 15 + units / 10 ^ 15 / 1000) := by
  have hamount : (units / 10 ^ 15 : ℚ) = (1000 * units : ℤ) / 10 ^ 18 := by
    push_cast
    ring
  have hfee : (units / 10 ^ 15 / 1000 : ℚ) = units / 10 ^ 18 := by ring
  have hsum : (units / 10 ^ 15 + units / 10 ^ 15 / 1000 : ℚ) = (1001 * units : ℤ) / 10 ^ 18 := by
    push_cast
    ring
  have hexact : stored = .fin (units / 10 ^ 15) := by
    rw [hamount] at hstored ⊢
    exact hcolumn.exact _ stored hstored
  have hbound : |1000 * units| < 10 ^ 38 := by
    obtain ⟨k, hk, hlt⟩ := hcolumn.stored _ _ (hexact ▸ hstored)
    rw [hamount, div_left_inj' (by norm_num)] at hk
    rw [Int.cast_injective hk]
    exact hlt
  rw [abs_mul, show |(1000 : ℤ)| = 1000 by rfl] at hbound
  refine ⟨hexact, ?_, ?_, ?_⟩
  · rw [hfee]
    exact hround.exact _ ⟨units, rfl, by omega⟩
  · intro fee hsome
    rw [hfee] at hsome ⊢
    exact hcolumn.exact units fee hsome
  · refine ⟨1001 * units, hsum, ?_⟩
    rw [abs_mul, show |(1001 : ℤ)| = 1001 by rfl]
    omega

/-- **A charged amount is taken out** by every approval. -/
theorem Booked.takesOut (hround : Precise 40 18 round) (hcolumn : Numeric 38 18 column)
    {system : WithdrawalSystem} {uuid : String} {dto : WithdrawalDto}
    (h : Booked round column uuid dto system) (hcharged : Charged dto.amount)
    {approval : String × WithdrawalEntity} (happroval : approval ∈ approvalsOf uuid system.topic) :
    TakesOut round column dto (withdrawalDebit round approval.2) := by
  obtain ⟨units, hpos, hamount⟩ := hcharged
  obtain ⟨row, _, hcopies⟩ := h.row
  have hstored := hcopies.amount
  rw [hamount] at hstored
  obtain ⟨_, hround', hfee, hfits⟩ := charged_exact hround hcolumn hstored
  have hcreated : withdrawalFee round dto.amount = .fin (units / 10 ^ 15 / 1000) := by
    rw [hamount, withdrawalFee_fin, hround']
  have hpositive : (0 : ℚ) < units / 10 ^ 15 := div_pos (Int.cast_pos.mpr hpos) (by norm_num)
  obtain ⟨hamount', hfee', huser, hasset⟩ : approval.2.amount = .fin (units / 10 ^ 15) ∧
      approval.2.fee = .fin (units / 10 ^ 15 / 1000) ∧ approval.2.userId = dto.userId ∧
      approval.2.asset = dto.asset := by
    rcases h.approvals approval happroval with hsame | hread
    · rw [hsame]
      exact ⟨hamount, hcreated, rfl, rfl⟩
    · have hamountRead := hread.amount
      have hfeeRead := hread.fee
      rw [hcreated] at hfeeRead
      rw [hamount] at hamountRead
      exact ⟨(charged_exact hround hcolumn hamountRead).1, hfee _ hfeeRead, hread.userId, hread.asset⟩
  have hdebit : (withdrawalDebit round approval.2).amount
      = .fin (units / 10 ^ 15 + units / 10 ^ 15 / 1000) := by
    show Amount.add round approval.2.amount approval.2.fee = _
    rw [hamount', hfee']
    exact hround.exact _ (hfits.mono (by decide))
  refine ⟨⟨_, hamount, hpositive, hdebit⟩, ?_⟩
  intro service service' reply b hbalance hhold hexec
  rw [← huser, ← hasset] at hbalance ⊢
  exact debit_lowers hround hcolumn hdebit (by positivity) hfits hbalance hhold hexec

/-- What is read back and adds up to the amount and a thousandth of it was a charged amount. -/
theorem charged_of_takesOut (hround : Precise 40 18 round) (hcolumn : Numeric 38 18 column)
    {dto : WithdrawalDto} {row : WithdrawalEntity} (hdecimal : ∀ a, dto.amount = .fin a → IsDecimal a)
    (hcopies : Copies round column dto row)
    (htakes : TakesOut round column dto (withdrawalDebit round row)) : Charged dto.amount := by
  obtain ⟨a, hamount, hpos, hdebit⟩ := htakes.value
  have hsum : Extended.add round row.amount row.fee = .fin (a + a / 1000) := hdebit
  obtain ⟨x, y, hx, hy⟩ : ∃ x y, row.amount = .fin x ∧ row.fee = .fin y := by
    cases hrow : row.amount with
    | nan => rw [hrow] at hsum; cases hsum
    | inf _ =>
        cases hfee : row.fee with
        | nan => rw [hrow, hfee] at hsum; cases hsum
        | inf _ =>
            rw [hrow, hfee, Extended.add] at hsum
            split at hsum <;> cases hsum
        | fin _ => rw [hrow, hfee] at hsum; cases hsum
    | fin x =>
        cases hfee : row.fee with
        | nan => rw [hrow, hfee] at hsum; cases hsum
        | inf _ => rw [hrow, hfee] at hsum; cases hsum
        | fin y => exact ⟨x, y, rfl, rfl⟩
  have hfits := (hcolumn.stored _ _ (hx ▸ hcopies.amount)).add (hcolumn.stored _ _ (hy ▸ hcopies.fee))
  rw [hx, hy, Extended.add, hround.exact _ (hfits.mono (by decide))] at hsum
  obtain ⟨k, hk, _⟩ := hfits
  obtain ⟨units, hunits⟩ := places_of_sum 15 (hdecimal a hamount)
    ((Extended.fin.inj hsum).symm.trans hk)
  refine ⟨units, ?_, hunits ▸ hamount⟩
  rw [hunits] at hpos
  exact_mod_cast (div_pos_iff_of_pos_right (by norm_num : (0 : ℚ) < 10 ^ 15)).mp hpos

/-- **What a withdrawal takes out.**  After a request that did not throw, in every run of the service every
approval of the withdrawal takes out the amount and a thousandth of it exactly if the amount is a positive
multiple of 10⁻¹⁵; and a larger amount gets no less strict a tier. -/
theorem withdrawal_takes_out (hround : Precise 40 18 round) (hcolumn : Numeric 38 18 column)
    (system₀ system : WithdrawalSystem) (hfresh : system₀.Fresh) (before : List WithdrawalCall)
    (replies : List WithdrawalReply)
    (hnew : Machine.Along (withdrawalStep config round column) NewWithdrawalId system₀ before)
    (hrun : Machine.run (withdrawalStep config round column) system₀ before = .ok (replies, system))
    (surroundings : Surroundings) (dto : WithdrawalDto) (hdecimal : ∀ a, dto.amount = .fin a → IsDecimal a)
    (huuid : system.withdrawal.withdrawals.find surroundings.uuid = none)
    (events : List (KafkaEvent WithdrawalEntity)) (service : WithdrawalService)
    (hrequest : system.withdrawal.request config round column surroundings dto = .ok (events, service)) :
    ((∀ after replies' system',
        Machine.Along (withdrawalStep config round column) NewWithdrawalId
          (system.produce events service) after →
        Machine.run (withdrawalStep config round column) (system.produce events service) after
          = .ok (replies', system') →
        ∀ approval ∈ approvalsOf surroundings.uuid system'.topic,
          TakesOut round column dto (withdrawalDebit round approval.2)) ↔ Charged dto.amount) ∧
      ∀ uuid dto', dto.amount.lt dto'.amount = true →
        (WithdrawalService.created round surroundings.uuid dto).approvalTier.rank
          ≤ (WithdrawalService.created round uuid dto').approvalTier.rank := by
  have hbooked := (recorded_run hfresh hrun hnew).booked huuid hrequest
  refine ⟨⟨?_, ?_⟩, fun _ _ hlt => approvalTier_mono hlt⟩
  · intro h
    obtain ⟨huser, _, _, _, _, hservice⟩ := WithdrawalService.request_new huuid hrequest
    have huser' : (system.produce events service).withdrawal.assertUserCanTransact dto.userId = .ok () := by
      rw [WithdrawalSystem.produce, hservice]
      exact huser
    obtain ⟨reply, system', row, hstep, hcopies, hmem⟩ := hbooked.approve huser' "operator"
    have htakes := h [.approve surroundings.uuid "operator"] [reply] system' ⟨trivial, fun _ _ _ => trivial⟩
      (Machine.run_cons_ok.mpr ⟨reply, system', [], hstep, rfl, rfl⟩) _ hmem
    exact charged_of_takesOut hround hcolumn hdecimal hcopies htakes
  · intro hcharged after replies' system' halong hafter approval happroval
    exact (hbooked.run hafter halong).takesOut hround hcolumn hcharged happroval

/-- What surrounds a request two days after the address was whitelisted. -/
def verifiedRequest (uuid : String) : Surroundings :=
  ⟨uuid, 172800000, .answered true, .answered (some (.fin 50000))⟩

/-- A request of alice. -/
def withdrawalOf (amount : ℚ) : WithdrawalDto := ⟨"alice", "USDT", "ethereum", "0xdead", .fin amount⟩

theorem withdrawal_takes_out_hundred :
    ∃ events service, freshWithdrawals.withdrawal.request .default .fin (numeric 38 18)
        (verifiedRequest "withdrawal-1") (withdrawalOf 100) = .ok (events, service) ∧
      ((∀ after replies' system',
        Machine.Along (withdrawalStep .default .fin (numeric 38 18)) NewWithdrawalId
          (freshWithdrawals.produce events service) after →
        Machine.run (withdrawalStep .default .fin (numeric 38 18))
          (freshWithdrawals.produce events service) after = .ok (replies', system') →
        ∀ approval ∈ approvalsOf "withdrawal-1" system'.topic,
          TakesOut .fin (numeric 38 18) (withdrawalOf 100) (withdrawalDebit .fin approval.2)) ↔
        Charged (.fin 100)) ∧
      ∀ uuid dto', (withdrawalOf 100).amount.lt dto'.amount = true →
        (WithdrawalService.created .fin "withdrawal-1" (withdrawalOf 100)).approvalTier.rank
          ≤ (WithdrawalService.created .fin uuid dto').approvalTier.rank := by
  have hok : (freshWithdrawals.withdrawal.request .default .fin (numeric 38 18)
      (verifiedRequest "withdrawal-1") (withdrawalOf 100)).toOption.isSome = true := by decide +kernel
  have hdecimal : ∀ a, (withdrawalOf 100).amount = .fin a → IsDecimal a := by
    intro a ha
    cases ha
    exact ⟨100, 0, by norm_num⟩
  cases hrequest : freshWithdrawals.withdrawal.request .default .fin (numeric 38 18)
      (verifiedRequest "withdrawal-1") (withdrawalOf 100) with
  | error e =>
      rw [hrequest] at hok
      cases hok
  | ok r =>
      exact ⟨r.1, r.2, rfl, withdrawal_takes_out (precise_fin 40 18) (numeric_numeric 38 18)
        freshWithdrawals freshWithdrawals ⟨rfl, rfl, rfl⟩ [] [] trivial rfl (verifiedRequest "withdrawal-1")
        (withdrawalOf 100) hdecimal rfl r.1 r.2 hrequest⟩

/-- **A withdrawal of -1000**: no check refuses it, it is approved at once, and the debit of -1001 raises the
balance from 50000 to 51001. -/
theorem negative_withdrawal_credits :
    (∃ events service, freshWithdrawals.withdrawal.request .default .fin (numeric 38 18)
        (verifiedRequest "withdrawal-1") (withdrawalOf (-1000)) = .ok (events, service) ∧
      ¬ ∀ after replies' system',
        Machine.Along (withdrawalStep .default .fin (numeric 38 18)) NewWithdrawalId
          (freshWithdrawals.produce events service) after →
        Machine.run (withdrawalStep .default .fin (numeric 38 18))
          (freshWithdrawals.produce events service) after = .ok (replies', system') →
        ∀ approval ∈ approvalsOf "withdrawal-1" system'.topic,
          TakesOut .fin (numeric 38 18) (withdrawalOf (-1000)) (withdrawalDebit .fin approval.2)) ∧
    (Machine.run (withdrawalStep .default .fin (numeric 38 18)) freshWithdrawals
      [.request (verifiedRequest "withdrawal-1") (withdrawalOf (-1000)), .deliver 1]).toOption.map
        (fun r => (r.2.wallet.getBalance "alice" "USDT").available) = some (.fin 51001) := by
  refine ⟨?_, by decide +kernel⟩
  have hone : (freshWithdrawals.withdrawal.request .default .fin (numeric 38 18)
      (verifiedRequest "withdrawal-1") (withdrawalOf (-1000))).toOption.map
        (fun r => (approvalsOf "withdrawal-1" r.1).length) = some 1 := by decide +kernel
  cases hrequest : freshWithdrawals.withdrawal.request .default .fin (numeric 38 18)
      (verifiedRequest "withdrawal-1") (withdrawalOf (-1000)) with
  | error e =>
      rw [hrequest] at hone
      cases hone
  | ok r =>
      rw [hrequest] at hone
      obtain ⟨approval, happroval⟩ := List.length_eq_one_iff.mp (Option.some.inj hone)
      refine ⟨r.1, r.2, rfl, fun h => ?_⟩
      have hmem : approval ∈ approvalsOf "withdrawal-1" (freshWithdrawals.produce r.1 r.2).topic := by
        show approval ∈ approvalsOf "withdrawal-1" r.1
        rw [happroval]
        exact List.mem_singleton_self approval
      obtain ⟨a, ha, hpos, _⟩ := (h [] [] _ trivial rfl approval hmem).value
      cases ha
      exact absurd hpos (by norm_num)

end NexusTrade
