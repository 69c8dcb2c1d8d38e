import NexusTrade.Deposit.Service
import NexusTrade.Lib.Delivery
import NexusTrade.Lib.Run

/-!
# What deposits are credited

A run of the deposit service, its topic and the consumer in the wallet service, and the credits made in
it.  The topic is a log of messages of which those that confirm a deposit have an effect, the credit, under
the id of the deposit.

* **`CreditInv`** relates the rows, the topic and the credits; a message confirms a deposit only once if
  `confirm` is called only while the deposit is not confirmed;
* **`credited_at_most_once`**: in a run of such calls in which no message is handled twice, what is credited
  because of a deposit is at most its amount;
* **`confirmed_twice_credited_twice`**: a run in which it is more.
-/

namespace NexusTrade

open Wallet Delivery
open Extended (AtMost total Balance)

/-! ### Credits -/

/-- The credit that a message asks for, under the id of its deposit. -/
def creditOf (event : KafkaEvent DepositEntity) : Option (String × BalanceMutationDto) :=
  if IsCredit event then some (event.payload.id, depositCredit event.payload) else none

/-- The credits made, under the ids they refer to. -/
def creditsIn (replies : List DepositReply) : List (String × BalanceMutationDto) :=
  replies.filterMap fun
    | .called (.credit dto _) (.ok _) => some (dto.referenceId, dto)
    | _ => none

/-- The credits made because of one deposit. -/
def creditsOf (id : String) (replies : List DepositReply) : List BalanceMutationDto :=
  ((creditsIn replies).filter fun credit => credit.1 = id).map Prod.snd

/-- **Credited at most once**: a credit goes to the user and the asset of its deposit, there is at most one
for each deposit, and the sum of the amounts is at most the amount of the deposit. -/
structure CreditedAtMostOnce (replies : List DepositReply) (system : DepositSystem) : Prop where
  own : ∀ id dto, dto ∈ creditsOf id replies → ∃ deposit,
    system.deposit.deposits.find id = some deposit ∧ dto = depositCredit deposit
  once : ∀ id, (creditsOf id replies).length ≤ 1
  total : ∀ id deposit, system.deposit.deposits.find id = some deposit →
    AtMost (total ((creditsOf id replies).map BalanceMutationDto.amount)) deposit.amount

/-! ### Conditions on a call -/

/-- `randomUUID` gives an id that no deposit has. -/
def NewId (system : DepositSystem) : DepositCall → Prop
  | .simulateDeposit uuid _ => system.deposit.deposits.find uuid = none
  | .confirm _ _ => True
  | .deliver _ => True

instance (system : DepositSystem) : DecidablePred (NewId system)
  | .simulateDeposit uuid _ =>
    inferInstanceAs (Decidable (system.deposit.deposits.find uuid = none))
  | .confirm _ _ => inferInstanceAs (Decidable True)
  | .deliver _ => inferInstanceAs (Decidable True)

/-- A deposit that is confirmed is not confirmed again, unless the call is refused. -/
def ConfirmOnce (service : DepositService) (id : String) (confirmations : ℤ) : Prop :=
  match service.deposits.find id with
  | none => True
  | some deposit =>
    deposit.status ≠ .confirmed ∨ ¬InInt confirmations ∨
      service.assertUserCanTransact deposit.userId ≠ .ok ()

instance (service : DepositService) (id : String) (confirmations : ℤ) :
    Decidable (ConfirmOnce service id confirmations) := by
  unfold ConfirmOnce
  cases service.deposits.find id <;> infer_instance

/-- Deposits are confirmed once, and a message for which a wallet was credited is not delivered again. -/
def OnceOnly (system : DepositSystem) : DepositCall → Prop
  | .simulateDeposit _ _ => True
  | .confirm id confirmations => ConfirmOnce system.deposit id confirmations
  | .deliver position => position ∉ system.credited

instance (system : DepositSystem) : DecidablePred (OnceOnly system)
  | .simulateDeposit _ _ => inferInstanceAs (Decidable True)
  | .confirm id confirmations => inferInstanceAs (Decidable (ConfirmOnce system.deposit id confirmations))
  | .deliver position => inferInstanceAs (Decidable (position ∉ system.credited))

/-! ### What the operations do -/

/-- What is relied on of the column of amounts: it stores nothing below zero of what is not. -/
def Column.KeepsSign (column : Column) : Prop :=
  ∀ x y, column x = some y → x.ltZero = false → y.ltZero = false

variable {minimum : Amount} {round : Rounding} {column : Column}

namespace DepositService

variable {service service' : DepositService}

theorem save_new {deposit : DepositEntity} (hnew : service.deposits.find deposit.id = none)
    (h : service.save column deposit = .ok service') :
    ∃ amount, column deposit.amount = some amount ∧
      service' = { service with
        deposits := service.deposits.insert deposit.id { deposit with amount := amount } } := by
  simp only [save, hnew] at h
  split at h
  · cases h
  · rename_i amount hamount
    split at h
    · cases h
      exact ⟨amount, hamount, rfl⟩
    · cases h

theorem save_again {row deposit : DepositEntity} (hrow : service.deposits.find deposit.id = some row)
    (hamount : deposit.amount = row.amount) (h : service.save column deposit = .ok service') :
    InInt deposit.confirmations ∧
      service' = { service with deposits := service.deposits.insert deposit.id deposit } := by
  simp only [save, hrow, storeChanged, if_pos hamount] at h
  split at h
  · rename_i hint
    cases h
    refine ⟨hint, ?_⟩
    rw [← hamount]
  · cases h

/-- **What `simulateDeposit` does** if it does not throw. -/
theorem simulateDeposit_ok {uuid : String} {dto : SimulateDepositDto}
    {event : KafkaEvent DepositEntity} (hnew : service.deposits.find uuid = none)
    (h : service.simulateDeposit minimum column uuid dto = .ok (event, service')) :
    ∃ deposit amount, deposit.id = uuid ∧ deposit.status = .pending ∧
      dto.amount.lt minimum = false ∧ column dto.amount = some amount ∧ deposit.amount = amount ∧
      event.eventType = .depositDetected ∧
      service' = { service with deposits := service.deposits.insert uuid deposit } := by
  simp only [simulateDeposit, bind_eq_ok] at h
  obtain ⟨_, _, h⟩ := h
  split at h
  · cases h
  · split at h
    · cases h
    · rename_i hminimum
      rw [bind_eq_ok] at h
      obtain ⟨saved, hsave, h⟩ := h
      cases h
      obtain ⟨amount, hamount, rfl⟩ := save_new hnew hsave
      exact ⟨_, amount, rfl, rfl, Bool.eq_false_iff.mpr hminimum, hamount, rfl, rfl, rfl⟩

/-- **What `confirm` does** to a deposit that it finds, if it does not throw. -/
theorem confirmFound_ok {deposit : DepositEntity} {confirmations : ℤ}
    {event : KafkaEvent DepositEntity} (hrow : service.deposits.find deposit.id = some deposit)
    (h : service.confirmFound column deposit confirmations = .ok (event, service')) :
    service.assertUserCanTransact deposit.userId = .ok () ∧ InInt confirmations ∧
      event.payload = confirmed deposit confirmations ∧
      (IsCredit event ↔ (confirmed deposit confirmations).status = .confirmed) ∧
      service' = { service with
        deposits := service.deposits.insert deposit.id (confirmed deposit confirmations) } := by
  simp only [confirmFound, bind_eq_ok] at h
  obtain ⟨_, huser, saved, hsave, h⟩ := h
  cases h
  obtain ⟨hint, rfl⟩ := save_again (by exact hrow) (by rfl) hsave
  refine ⟨huser, hint, rfl, ?_, rfl⟩
  rw [IsCredit]
  simp only
  split
  · rename_i hstatus
    exact ⟨fun _ => hstatus, fun _ => ⟨rfl, hstatus⟩⟩
  · rename_i hstatus
    exact ⟨fun hcredit => hcredit.2, fun hconfirmed => absurd hconfirmed hstatus⟩

end DepositService

/-! ### The invariant -/

/-- The rows have their ids and amounts that are not negative; a message that asks for a credit asks for
that of a confirmed deposit, and no two ask for one; the credits made are those of the messages in
`credited`, none of which is there twice. -/
structure CreditInv (replies : List DepositReply) (system : DepositSystem) : Prop where
  ids : ∀ id deposit, system.deposit.deposits.find id = some deposit → deposit.id = id
  sign : ∀ id deposit, system.deposit.deposits.find id = some deposit →
    deposit.amount.ltZero = false
  rows : ∀ i id dto, effectAt creditOf system.topic i = some (id, dto) → ∃ deposit,
    system.deposit.deposits.find id = some deposit ∧ deposit.status = .confirmed ∧
      dto = depositCredit deposit
  distinct : Distinct creditOf system.topic
  nodup : system.credited.Nodup
  taken : ∀ i ∈ system.credited, i < system.topic.length
  credits : creditsIn replies = effects creditOf system.topic system.credited

theorem creditsIn_append (replies more : List DepositReply) :
    creditsIn (replies ++ more) = creditsIn replies ++ creditsIn more :=
  List.filterMap_append

/-- A reply that is not a credit. -/
theorem CreditInv.reply {replies : List DepositReply} {system : DepositSystem}
    (h : CreditInv replies system) {reply : DepositReply} (hreply : creditsIn [reply] = []) :
    CreditInv (replies ++ [reply]) system := by
  refine { h with credits := ?_ }
  rw [creditsIn_append, hreply, List.append_nil]
  exact h.credits

/-- The state of the wallet service does not matter. -/
theorem CreditInv.wallet {replies : List DepositReply} {system : DepositSystem}
    (h : CreditInv replies system) (wallet : WalletService) :
    CreditInv replies { system with wallet := wallet } :=
  { h with }

/-- **A row that is not confirmed is written and a message produced**; if the message asks for a credit, it
is that of the row. -/
theorem CreditInv.produce {replies : List DepositReply} {system : DepositSystem}
    (h : CreditInv replies system) {event : KafkaEvent DepositEntity} {service : DepositService}
    (deposit : DepositEntity)
    (hbefore : ∀ row, system.deposit.deposits.find deposit.id = some row → row.status ≠ .confirmed)
    (hsign : deposit.amount.ltZero = false)
    (hevent : IsCredit event → event.payload = deposit ∧ deposit.status = .confirmed)
    (hdeposits : service.deposits = system.deposit.deposits.insert deposit.id deposit) :
    CreditInv (replies ++ [.produced event]) (system.produce event service) := by
  have hold : ∀ i dto, effectAt creditOf system.topic i ≠ some (deposit.id, dto) := by
    intro i dto heffect
    obtain ⟨row, hrow, hstatus, _⟩ := h.rows i deposit.id dto heffect
    exact hbefore row hrow hstatus
  have hcredit : ∀ id dto, creditOf event = some (id, dto) →
      id = deposit.id ∧ deposit.status = .confirmed ∧ dto = depositCredit deposit := by
    intro id dto hsome
    rw [creditOf] at hsome
    split at hsome
    · rename_i hask
      obtain ⟨hpayload, hstatus⟩ := hevent hask
      cases hsome
      rw [hpayload]
      exact ⟨rfl, hstatus, rfl⟩
    · cases hsome
  constructor
  · intro id row hrow
    simp only [DepositSystem.produce, hdeposits, SortedMap.find_insert] at hrow
    split at hrow
    · rename_i hid
      cases hrow
      exact hid.symm
    · exact h.ids id row hrow
  · intro id row hrow
    simp only [DepositSystem.produce, hdeposits, SortedMap.find_insert] at hrow
    split at hrow
    · cases hrow
      exact hsign
    · exact h.sign id row hrow
  · intro i id dto heffect
    simp only [DepositSystem.produce, hdeposits, SortedMap.find_insert]
    rw [DepositSystem.produce, effectAt_snoc] at heffect
    split at heffect
    · obtain ⟨rfl, hstatus, rfl⟩ := hcredit id dto heffect
      exact ⟨deposit, if_pos rfl, hstatus, rfl⟩
    · obtain ⟨row, hrow, hstatus, hdto⟩ := h.rows i id dto heffect
      refine ⟨row, ?_, hstatus, hdto⟩
      rw [if_neg]
      · exact hrow
      · rintro rfl
        exact hold i dto heffect
  · refine h.distinct.snoc ?_
    intro id dto hsome i dto'
    obtain ⟨rfl, _, _⟩ := hcredit id dto hsome
    exact hold i dto'
  · exact h.nodup
  · intro i hi
    rw [DepositSystem.produce, List.length_append]
    exact Nat.lt_add_right _ (h.taken i hi)
  · rw [creditsIn_append, h.credits]
    exact (List.append_nil _).trans (effects_append h.taken [event]).symm

/-! ### Steps -/

theorem CreditInv.simulateDeposit (hminimum : minimum.Balance) (hcolumn : column.KeepsSign)
    {replies : List DepositReply} {system : DepositSystem} (h : CreditInv replies system)
    {uuid : String} {dto : SimulateDepositDto} {event : KafkaEvent DepositEntity}
    {service : DepositService} (hnew : system.deposit.deposits.find uuid = none)
    (hstep : system.deposit.simulateDeposit minimum column uuid dto = .ok (event, service)) :
    CreditInv (replies ++ [.produced event]) (system.produce event service) := by
  obtain ⟨deposit, amount, rfl, _, hlt, hstored, rfl, htype, rfl⟩ :=
    DepositService.simulateDeposit_ok hnew hstep
  refine h.produce deposit ?_ ?_ ?_ rfl
  · intro row hrow
    rw [hnew] at hrow
    cases hrow
  · have hzero : minimum.ltZero = false := by
      obtain ⟨x, rfl, hx⟩ := Extended.balance_iff.mp hminimum
      exact decide_eq_false (not_lt.mpr hx)
    exact hcolumn _ _ hstored (Extended.ltZero_of_lt hminimum hlt)
  · intro hcredit
    rw [IsCredit, htype] at hcredit
    cases hcredit.1

theorem CreditInv.confirm {replies : List DepositReply} {system : DepositSystem}
    (h : CreditInv replies system) {id : String} {confirmations : ℤ}
    {event : KafkaEvent DepositEntity} {service : DepositService}
    (honce : ConfirmOnce system.deposit id confirmations)
    (hstep : system.deposit.confirm column id confirmations = .ok (some event, service)) :
    CreditInv (replies ++ [.produced event]) (system.produce event service) := by
  rw [DepositService.confirm] at hstep
  rw [ConfirmOnce] at honce
  cases hfind : system.deposit.deposits.find id with
  | none =>
      rw [hfind] at hstep
      cases hstep
  | some deposit =>
      simp only [hfind, bind_eq_ok] at hstep honce
      obtain ⟨⟨event', service'⟩, hfound, hstep⟩ := hstep
      cases hstep
      obtain rfl := h.ids id deposit hfind
      obtain ⟨huser, hint, hpayload, hcredit, rfl⟩ := DepositService.confirmFound_ok hfind hfound
      have hpending : deposit.status ≠ .confirmed := by
        rcases honce with hstatus | hrefused | hrefused
        · exact hstatus
        · exact absurd hint hrefused
        · exact absurd huser hrefused
      refine h.produce (DepositService.confirmed deposit confirmations) ?_ ?_ ?_ rfl
      · intro row hrow
        cases hrow.symm.trans hfind
        exact hpending
      · exact h.sign deposit.id deposit hfind
      · exact fun hask => ⟨hpayload, hcredit.mp hask⟩

theorem CreditInv.deliver {replies : List DepositReply} {system : DepositSystem}
    (h : CreditInv replies system) {position : ℕ} (honce : position ∉ system.credited) :
    CreditInv (replies ++ [(system.deliver round column position).1])
      (system.deliver round column position).2 := by
  rw [DepositSystem.deliver]
  cases hevent : system.topic[position]?.bind onDeposit with
  | none => exact h.reply rfl
  | some op =>
      obtain ⟨event, hmessage, hask⟩ := Option.bind_eq_some_iff.mp hevent
      rw [onDeposit] at hask
      split at hask
      · rename_i hcredit
        cases hask
        have heffect : effectAt creditOf system.topic position
            = some (event.payload.id, depositCredit event.payload) := by
          rw [effectAt, hmessage, Option.bind_some, creditOf, if_pos hcredit]
        simp only
        cases hexec : system.wallet.exec round column (.credit (depositCredit event.payload) .deposit)
          with
        | mk result wallet =>
            cases result with
            | error e => exact (h.wallet wallet).reply rfl
            | ok reply =>
                refine { h.wallet wallet with nodup := ?_, taken := ?_, credits := ?_ }
                · rw [List.nodup_append]
                  refine ⟨h.nodup, List.nodup_singleton position, ?_⟩
                  rintro i hi j hj rfl
                  exact honce (List.mem_singleton.mp hj ▸ hi)
                · intro i hi
                  rcases List.mem_append.mp hi with hold | hnew
                  · exact h.taken i hold
                  · rw [List.mem_singleton.mp hnew]
                    exact effectAt_lt heffect
                · rw [creditsIn_append, h.credits]
                  exact (effects_snoc system.credited heffect).symm
      · cases hask

/-- **One step** of a call that meets the conditions. -/
theorem CreditInv.step (hminimum : minimum.Balance) (hcolumn : column.KeepsSign)
    {replies : List DepositReply} {system system' : DepositSystem} {call : DepositCall}
    {reply : DepositReply} (h : CreditInv replies system) (hnew : NewId system call)
    (honce : OnceOnly system call)
    (hstep : depositStep minimum round column system call = .ok (reply, system')) :
    CreditInv (replies ++ [reply]) system' := by
  cases call with
  | simulateDeposit uuid dto =>
      rw [depositStep] at hstep
      split at hstep
      · cases hstep
        exact h.reply rfl
      · rename_i hcall
        cases hstep
        exact h.simulateDeposit hminimum hcolumn hnew hcall
  | confirm id confirmations =>
      rw [depositStep] at hstep
      split at hstep
      · cases hstep
        exact h.reply rfl
      · cases hstep
        exact h.reply rfl
      · rename_i hcall
        cases hstep
        exact h.confirm honce hcall
  | deliver position =>
      have hdeliver := Except.ok.inj hstep
      have hinv : CreditInv (replies ++ [(system.deliver round column position).1])
          (system.deliver round column position).2 := h.deliver honce
      rw [hdeliver] at hinv
      exact hinv

/-! ### Runs -/

/-- **The invariant bounds the credits.** -/
theorem CreditInv.atMostOnce {replies : List DepositReply} {system : DepositSystem}
    (h : CreditInv replies system) : CreditedAtMostOnce replies system := by
  have hnodup : ((creditsIn replies).map Prod.fst).Nodup := by
    rw [h.credits]
    exact effects_nodup h.distinct h.nodup
  have hcases : ∀ id, creditsOf id replies = [] ∨ ∃ deposit,
      system.deposit.deposits.find id = some deposit ∧
        creditsOf id replies = [depositCredit deposit] := by
    intro id
    rcases filter_key_of_nodup hnodup id with hnone | ⟨dto, hmem, hone⟩
    · refine Or.inl ?_
      rw [creditsOf, hnone]
      rfl
    · rw [h.credits] at hmem
      obtain ⟨i, _, heffect⟩ := mem_effects hmem
      obtain ⟨deposit, hfind, _, rfl⟩ := h.rows i id dto heffect
      refine Or.inr ⟨deposit, hfind, ?_⟩
      rw [creditsOf, hone]
      rfl
  constructor
  · intro id dto hmem
    rcases hcases id with hnone | ⟨deposit, hfind, hone⟩
    · rw [hnone] at hmem
      cases hmem
    · rw [hone] at hmem
      exact ⟨deposit, hfind, List.mem_singleton.mp hmem⟩
  · intro id
    rcases hcases id with hnone | ⟨deposit, _, hone⟩
    · rw [hnone]
      exact Nat.zero_le 1
    · rw [hone]
      exact Nat.le_refl 1
  · intro id deposit hfind
    rcases hcases id with hnone | ⟨deposit', hfind', hone⟩
    · rw [hnone]
      exact Extended.zero_atMost (h.sign id deposit hfind)
    · cases hfind.symm.trans hfind'
      rw [hone]
      exact (Extended.total_singleton deposit.amount).symm ▸ Extended.atMost_refl deposit.amount

/-- No deposits and no messages yet. -/
def DepositSystem.Fresh (system : DepositSystem) : Prop :=
  system.deposit.deposits = .empty ∧ system.topic = [] ∧ system.credited = []

theorem DepositSystem.Fresh.inv {system : DepositSystem} (h : system.Fresh) : CreditInv [] system := by
  obtain ⟨hdeposits, htopic, hcredited⟩ := h
  have hfind : ∀ id, system.deposit.deposits.find id = none := fun id => by rw [hdeposits]; rfl
  constructor
  · exact fun id _ hsome => nomatch (hfind id).symm.trans hsome
  · exact fun id _ hsome => nomatch (hfind id).symm.trans hsome
  · intro i id dto heffect
    rw [htopic] at heffect
    exact absurd (effectAt_lt heffect) (Nat.not_lt_zero i)
  · rw [htopic]
    exact distinct_nil
  · rw [hcredited]
    exact List.nodup_nil
  · rw [hcredited]
    exact fun i hi => nomatch hi
  · rw [hcredited]
    rfl

/-- **A deposit is credited at most once**, in every run in which deposits are confirmed once and no
message is handled again. -/
theorem credited_at_most_once (hminimum : minimum.Balance) (hcolumn : column.KeepsSign)
    (system₀ : DepositSystem) (hfresh : system₀.Fresh) (calls : List DepositCall)
    (hnew : Machine.Along (depositStep minimum round column) NewId system₀ calls)
    (honce : Machine.Along (depositStep minimum round column) OnceOnly system₀ calls) :
    ∃ replies system, Machine.run (depositStep minimum round column) system₀ calls
      = .ok (replies, system) ∧ CreditedAtMostOnce replies system := by
  obtain ⟨replies, system, hrun, hinv⟩ := Machine.run_safe_along
    (Q := fun _ replies system => CreditInv replies system) hfresh.inv
    (fun _ _ _ _ _ _ h hcall hstep => h.step hminimum hcolumn hcall.1 hcall.2 hstep) calls
    (Machine.along_and hnew honce)
  exact ⟨replies, system, hrun, hinv.atMostOnce⟩

/-- The services with a user in the database and without deposits. -/
def freshDeposits : DepositSystem where
  deposit := { users := some (SortedMap.empty.insert "alice" .active), deposits := .empty }
  topic := []
  credited := []
  wallet :=
    { dataSource := some
        { users := SortedMap.empty.insert "alice" .active, wallets := .empty, ledger := [] }
      memory := ⟨.empty, []⟩ }

/-- The default of `MIN_DEPOSIT_AMOUNT`. -/
def defaultMinimum : Amount := .fin (1 / 100000000)

/-- A deposit that is detected, not yet confirmed, and confirmed, and its messages. -/
def detectAndConfirm : List DepositCall :=
  [.simulateDeposit "deposit-1" ⟨"alice", "BTC", "tx-1", .fin 2⟩, .confirm "deposit-1" 2, .deliver 0,
    .simulateDeposit "deposit-2" ⟨"alice", "BTC", "tx-1", .fin 2⟩, .confirm "deposit-1" 3, .deliver 1,
    .deliver 2, .deliver 0]

theorem credited_at_most_once_detectAndConfirm :
    ∃ replies system, Machine.run (depositStep defaultMinimum .fin some) freshDeposits detectAndConfirm
      = .ok (replies, system) ∧ CreditedAtMostOnce replies system :=
  credited_at_most_once (by decide +kernel) (fun _ _ h hx => by cases h; exact hx) freshDeposits
    ⟨rfl, rfl, rfl⟩ detectAndConfirm (by decide +kernel) (by decide +kernel)

/-- **A deposit that is confirmed twice is credited twice.**  `confirm` produces `DepositConfirmed` again,
and the consumer credits the wallet for each message. -/
theorem confirmed_twice_credited_twice :
    freshDeposits.Fresh ∧ ¬ ∀ calls,
      Machine.Along (depositStep defaultMinimum .fin some) NewId freshDeposits calls →
      ∃ replies system, Machine.run (depositStep defaultMinimum .fin some) freshDeposits calls
        = .ok (replies, system) ∧ CreditedAtMostOnce replies system := by
  refine ⟨⟨rfl, rfl, rfl⟩, fun h => ?_⟩
  obtain ⟨replies, system, hrun, hcredited⟩ :=
    h [.simulateDeposit "deposit-1" ⟨"alice", "BTC", "tx-1", .fin 2⟩, .confirm "deposit-1" 3,
      .confirm "deposit-1" 3, .deliver 1, .deliver 2] (by decide +kernel)
  have hamounts : (Machine.run (depositStep defaultMinimum .fin some) freshDeposits
      [.simulateDeposit "deposit-1" ⟨"alice", "BTC", "tx-1", .fin 2⟩, .confirm "deposit-1" 3,
        .confirm "deposit-1" 3, .deliver 1, .deliver 2]).toOption.map
        (fun r => ((creditsOf "deposit-1" r.1).map BalanceMutationDto.amount,
          (r.2.deposit.deposits.find "deposit-1").map DepositEntity.amount))
      = some ([.fin 2, .fin 2], some (.fin 2)) := by decide +kernel
  rw [hrun] at hamounts
  obtain ⟨hcredits, hfind⟩ := Prod.mk.inj (Option.some.inj hamounts)
  obtain ⟨deposit, hdeposit, hamount⟩ := Option.map_eq_some_iff.mp hfind
  have htotal := hcredited.total "deposit-1" deposit hdeposit
  rw [hcredits, hamount] at htotal
  exact absurd (show (2 : ℚ) + (2 + 0) ≤ 2 from htotal) (by decide +kernel)

end NexusTrade
