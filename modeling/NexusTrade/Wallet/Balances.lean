import NexusTrade.Wallet.Writes

/-!
# Balances over whole runs

The calls of a service one after another, each of which returns or throws, and what they leave in the
wallets of the map and of the database.

* **`calls`** is the machine of a service, **`SoundCall`** the condition on a call: every write that it
  reaches is sound;
* **`balances_stay_sound`**: in a run of sound calls from empty wallets every balance is finite and not
  negative;
* **`lock_of_negative_amount`**: a run in which one is not.
-/

namespace NexusTrade.Wallet

open Extended (Balance TowardZero towardZero_fin)

variable (round : Rounding) (column : Column)

/-- The machine of the service: a call that throws is a step as well. -/
def calls (service : WalletService) (op : WalletOp) :
    Except Empty (Except WalletError WalletReply × WalletService) :=
  .ok (service.exec round column op)

/-- Every write that the call reaches is sound; in the TypeORM path a call for a user who may not
transact reaches none. -/
def SoundCall (service : WalletService) (op : WalletOp) : Prop :=
  match service.dataSource with
  | none =>
    Machine.Along (applyWrite round some) (SoundWrite round) service.memory.balances
      (op.memoryWrites round)
  | some db =>
    (∀ userId ∈ op.users, db.assertUserCanTransact userId = .ok ()) →
      Machine.Along (applyWrite round column) (SoundWrite round) db.wallets (op.typeOrmWrites round)

instance (service : WalletService) (op : WalletOp) : Decidable (SoundCall round column service op) := by
  unfold SoundCall
  cases service.dataSource <;> infer_instance

/-- The balances of the map and of the database are sound. -/
def WalletService.Sound (service : WalletService) : Prop :=
  Wallet.Sound service.memory.balances ∧ ∀ db, service.dataSource = some db → Wallet.Sound db.wallets

/-- There are no wallets yet. -/
def WalletService.NoWallets (service : WalletService) : Prop :=
  service.memory.balances = .empty ∧ ∀ db, service.dataSource = some db → db.wallets = .empty

variable {round} {column}

theorem sound_empty {κ : Type} [LinearOrder κ] : Wallet.Sound (.empty : SortedMap κ WalletEntity) :=
  fun _ _ h => nomatch h

theorem WalletService.NoWallets.sound {service : WalletService} (h : service.NoWallets) :
    service.Sound := by
  refine ⟨?_, fun db hdb => ?_⟩
  · rw [h.1]
    exact sound_empty
  · rw [h.2 db hdb]
    exact sound_empty

/-- **A sound call keeps balances sound**, whether it returns or throws. -/
theorem WalletService.Sound.exec (hround : TowardZero round) (hcolumn : column.Keeps)
    {service : WalletService} {op : WalletOp} (h : service.Sound)
    (hcall : SoundCall round column service op) : (service.exec round column op).2.Sound := by
  obtain ⟨dataSource, memory⟩ := service
  cases dataSource with
  | none =>
      refine ⟨?_, fun _ hdb => nomatch hdb⟩
      show Wallet.Sound (memory.exec round op).2.balances
      rw [memory_exec_writes]
      exact sound_writeUntil hround keeps_some _ _ h.1 hcall
  | some db =>
      simp only [WalletService.exec, WalletService.withTransaction]
      cases hexec : db.exec round column op with
      | error e => exact h
      | ok r =>
          obtain ⟨reply, db'⟩ := r
          obtain ⟨husers, units, hrun⟩ := database_exec_writes hcolumn hexec
          refine ⟨h.1, fun db'' hdb => ?_⟩
          cases hdb
          rw [← writeUntil_of_run _ _ _ units hrun]
          exact sound_writeUntil hround hcolumn _ _ (h.2 db rfl) (hcall husers)

/-- **Balances stay finite and not negative.**  Every run of calls that are sound where they are made
ends with sound balances; so does every part of it, which is a run of sound calls as well. -/
theorem balances_stay_sound (hround : TowardZero round) (hcolumn : column.Keeps)
    (service₀ : WalletService) (hempty : service₀.NoWallets) (ops : List WalletOp)
    (hsound : Machine.Along (calls round column) (SoundCall round column) service₀ ops) :
    ∃ replies service, Machine.run (calls round column) service₀ ops = .ok (replies, service) ∧
      service.Sound := by
  refine Machine.run_safe_along (Q := fun _ _ service => service.Sound) hempty.sound ?_ ops hsound
  intro _ _ service op reply service' h hcall hstep
  have hexec := h.exec hround hcolumn hcall
  rw [Except.ok.inj hstep] at hexec
  exact hexec

/-- A service with a database in which two users are registered. -/
def freshService : WalletService where
  dataSource := some
    { users := (SortedMap.empty.insert "alice" .active).insert "bob" .active
      wallets := .empty
      ledger := [] }
  memory := ⟨.empty, []⟩

/-- A service without a database. -/
def memoryService : WalletService where
  dataSource := none
  memory := ⟨.empty, []⟩

/-- A deposit, a lock of more than there is, a lock, a transfer and a settlement. -/
def depositLockSettle : List WalletOp :=
  [.credit ⟨"alice", "USDT", .fin 100, "deposit"⟩ .deposit,
    .credit ⟨"bob", "BTC", .fin 2, "deposit"⟩ .deposit,
    .lock ⟨"alice", "USDT", .fin 101, "order"⟩,
    .lock ⟨"alice", "USDT", .fin 90, "order"⟩,
    .lock ⟨"bob", "BTC", .fin 1, "order"⟩,
    .internalTransfer ⟨"bob", "BTC", .fin (1 / 2), "gift"⟩ "alice",
    .settleTrade ⟨"bob", "alice", "SELL", "BTC", "USDT", .fin 80, .fin 1, none, some (.fin 1), "trade"⟩,
    .unlock ⟨"alice", "USDT", .fin 9, "order"⟩]

theorem balances_stay_sound_depositLockSettle :
    freshService.NoWallets ∧
      Machine.Along (calls .fin some) (SoundCall .fin some) freshService depositLockSettle ∧
      ∃ replies service, Machine.run (calls .fin some) freshService depositLockSettle
        = .ok (replies, service) ∧ service.Sound := by
  have hempty : freshService.NoWallets := ⟨rfl, fun db hdb => by cases hdb; rfl⟩
  have hsound : Machine.Along (calls .fin some) (SoundCall .fin some) freshService
      depositLockSettle := by decide +kernel
  exact ⟨hempty, hsound,
    balances_stay_sound towardZero_fin keeps_some freshService hempty depositLockSettle hsound⟩

/-- **A lock of a negative amount**: `assertNonNegative` looks at `available`, which grows, and not at
`locked`, in both paths. -/
theorem lock_of_negative_amount :
    (memoryService.NoWallets ∧ ¬ ∀ ops, ∃ replies service,
      Machine.run (calls .fin some) memoryService ops = .ok (replies, service) ∧ service.Sound) ∧
    (freshService.NoWallets ∧ ¬ ∀ ops, ∃ replies service,
      Machine.run (calls .fin some) freshService ops = .ok (replies, service) ∧ service.Sound) := by
  have hnegative : ¬ Balance (.fin (-1) : Amount) := by decide
  refine ⟨⟨⟨rfl, fun _ hdb => nomatch hdb⟩, fun h => ?_⟩,
    ⟨⟨rfl, fun _ hdb => by cases hdb; rfl⟩, fun h => ?_⟩⟩
  · obtain ⟨replies, service, hrun, hmemory, _⟩ := h [.lock ⟨"alice", "USDT", .fin (-1), "order"⟩]
    have hlocked : (Machine.run (calls .fin some) memoryService
        [.lock ⟨"alice", "USDT", .fin (-1), "order"⟩]).toOption.map
          (fun r => (walletAt r.2.memory.balances "alice:USDT").get .locked)
        = some (.fin (-1)) := by decide +kernel
    rw [hrun] at hlocked
    have hget : (walletAt service.memory.balances "alice:USDT").get .locked = .fin (-1) :=
      Option.some.inj hlocked
    have hbalance := hmemory.walletAt "alice:USDT" .locked
    rw [hget] at hbalance
    exact hnegative hbalance
  · obtain ⟨replies, service, hrun, _, hdatabase⟩ :=
      h [.lock ⟨"alice", "USDT", .fin (-1), "order"⟩]
    have hlocked : (Machine.run (calls .fin some) freshService
        [.lock ⟨"alice", "USDT", .fin (-1), "order"⟩]).toOption.bind
          (fun r => r.2.dataSource.map fun db =>
            (walletAt db.wallets (Database.rowKey "alice" "USDT")).get .locked)
        = some (.fin (-1)) := by decide +kernel
    rw [hrun] at hlocked
    obtain ⟨db, hdb, hget⟩ := Option.map_eq_some_iff.mp hlocked
    have hbalance := (hdatabase db hdb).walletAt (Database.rowKey "alice" "USDT") .locked
    rw [hget] at hbalance
    exact hnegative hbalance

end NexusTrade.Wallet
