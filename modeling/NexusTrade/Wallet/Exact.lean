import Mathlib.Logic.Function.Basic
import NexusTrade.Wallet.Writes

/-!
# Exact arithmetic

The calls of the TypeORM path where nothing is rounded and every number fits its column: the wallets are a
function, a write changes it at one key, and a call succeeds exactly if its users may transact and its writes
pass their checks.

* **`Write.onto`** and **`Passes`**: what a write makes of the wallets, and that a list of them is accepted;
* **`exec_returns`**: when a call succeeds;
* **`exec_wallets`**: the wallets after a call that has succeeded;
* **`lock_wallets`** and **`unlock_wallets`**: the two calls that move an amount within a wallet.
-/

namespace NexusTrade.Wallet

section Writes

variable {κ : Type} [LinearOrder κ]

/-- What a write makes of the wallets. -/
def Write.onto (write : Write κ) (wallets : κ → WalletEntity) : κ → WalletEntity :=
  Function.update wallets write.key ((wallets write.key).set write.bucket
    (Amount.add .fin ((wallets write.key).get write.bucket) write.amount))

/-- A write with a check leaves no balance below zero. -/
def Write.Passes (write : Write κ) (wallets : κ → WalletEntity) : Prop :=
  write.check.isSome = true →
    (Amount.add .fin ((wallets write.key).get write.bucket) write.amount).ltZero = false

/-- Writes that are made one after another all pass. -/
def Passes : (κ → WalletEntity) → List (Write κ) → Prop
  | _, [] => True
  | wallets, write :: writes => write.Passes wallets ∧ Passes (write.onto wallets) writes

/-- The wallets after some writes. -/
def written (wallets : κ → WalletEntity) (writes : List (Write κ)) : κ → WalletEntity :=
  writes.foldl (fun wallets write => write.onto wallets) wallets

theorem walletAt_update (balances : SortedMap κ WalletEntity) (key : κ) (wallet : WalletEntity) :
    walletAt (balances.insert key wallet) = Function.update (walletAt balances) key wallet := by
  funext k
  rw [walletAt, SortedMap.find_insert, Function.update_apply]
  split <;> rfl

/-- **A write where nothing is rounded.** -/
theorem applyWrite_exact {balances balances' : SortedMap κ WalletEntity} {write : Write κ} {u : Unit} :
    applyWrite .fin some balances write = .ok (u, balances') ↔
      write.Passes (walletAt balances) ∧ balances' = balances.insert write.key
        ((walletAt balances write.key).set write.bucket (write.next .fin balances)) := by
  have hverify : write.verify .fin balances = .ok () ↔ write.Passes (walletAt balances) := by
    rw [Write.verify, Write.Passes]
    cases write.check with
    | none => exact iff_of_true rfl fun h => absurd h Bool.false_ne_true
    | some label =>
        show assertNonNegative (write.next .fin balances) label = .ok () ↔
          (true = true → (write.next .fin balances).ltZero = false)
        rw [assertNonNegative]
        cases (write.next .fin balances).ltZero with
        | true => exact iff_of_false (fun h => by cases h) fun h => absurd (h rfl).symm Bool.false_ne_true
        | false => exact iff_of_true rfl fun _ => rfl
  rw [applyWrite_eq_ok, hverify]
  simp only [storeChanged_some]
  constructor
  · rintro ⟨hpasses, stored, hstored, hbalances⟩
    obtain rfl := Option.some.inj hstored
    exact ⟨hpasses, hbalances⟩
  · rintro ⟨hpasses, hbalances⟩
    exact ⟨hpasses, _, rfl, hbalances⟩

/-- **The wallets after the writes of a run.** -/
theorem walletAt_run {writes : List (Write κ)} :
    ∀ {balances balances' : SortedMap κ WalletEntity} {units : List Unit},
      Machine.run (applyWrite .fin some) balances writes = .ok (units, balances') →
      walletAt balances' = written (walletAt balances) writes ∧ Passes (walletAt balances) writes := by
  induction writes with
  | nil =>
      intro balances balances' units hrun
      cases hrun
      exact ⟨rfl, trivial⟩
  | cons write writes ih =>
      intro balances balances' units hrun
      obtain ⟨_, middle, _, happly, hrest, _⟩ := Machine.run_cons_ok.mp hrun
      obtain ⟨hpasses, rfl⟩ := applyWrite_exact.mp happly
      obtain ⟨hwallets, hall⟩ := ih hrest
      rw [walletAt_update] at hwallets hall
      exact ⟨hwallets, hpasses, hall⟩

end Writes

/-! ### Calls -/

section Calls

variable {db db' : Database} {userId asset : String}

/-- Saving a wallet. -/
theorem save_returns (db : Database) (userId asset : String) (wallet : WalletEntity) :
    ∃ db', db.save some userId asset wallet = .ok db' ∧ db'.users = db.users := by
  rw [Database.save]
  cases db.wallets.find (Database.rowKey userId asset) with
  | none => exact ⟨_, rfl, rfl⟩
  | some row =>
      simp only [storeChanged_some]
      exact ⟨_, rfl, rfl⟩

theorem recordTypeOrm_returns (db : Database) (dto : BalanceMutationDto) (type : TransactionType)
    (balanceAfter : Amount) :
    ∃ db', db.recordTypeOrm some dto type balanceAfter = .ok db' ∧ db'.users = db.users ∧
      db'.wallets = db.wallets := ⟨_, rfl, rfl, rfl⟩

theorem findOrCreateWallet_returns (db : Database) (userId asset : String) :
    ∃ db', db.findOrCreateWallet some userId asset
        = .ok (walletAt db.wallets (Database.rowKey userId asset), db') ∧ db'.users = db.users := by
  rw [Database.findOrCreateWallet, walletAt]
  cases db.wallets.find (Database.rowKey userId asset) with
  | none =>
      obtain ⟨created, hcreate, husers⟩ := save_returns db userId asset .zero
      simp only [hcreate, ok_bind]
      exact ⟨created, rfl, husers⟩
  | some row => exact ⟨db, rfl, rfl⟩

/-- **A balance is adjusted**, if the sum is not below zero. -/
theorem adjust_returns {bucket : Bucket} {amount : Amount}
    (h : (adjustWrite bucket userId asset amount).Passes (walletAt db.wallets)) :
    ∃ wallet db', db.adjust .fin some bucket userId asset amount = .ok (wallet, db') ∧
      db'.users = db.users := by
  obtain ⟨found, hfind, husers⟩ := findOrCreateWallet_returns db userId asset
  have hnext : (Amount.add .fin ((walletAt db.wallets (Database.rowKey userId asset)).get bucket)
      amount).ltZero = false := h rfl
  have hverify : assertNonNegative (Amount.add .fin ((walletAt db.wallets
      (Database.rowKey userId asset)).get bucket) amount) (balanceLabel userId asset bucket) = .ok () := by
    rw [assertNonNegative, hnext]
    rfl
  obtain ⟨saved, hsave, husers'⟩ := save_returns found userId asset
    ((walletAt db.wallets (Database.rowKey userId asset)).set bucket (Amount.add .fin
      ((walletAt db.wallets (Database.rowKey userId asset)).get bucket) amount))
  refine ⟨(walletAt db.wallets (Database.rowKey userId asset)).set bucket (Amount.add .fin
    ((walletAt db.wallets (Database.rowKey userId asset)).get bucket) amount), saved, ?_,
    husers'.trans husers⟩
  rw [Database.adjust, hfind, ok_bind]
  simp only [hverify, ok_bind, hsave]

/-- The wallets once a balance is adjusted. -/
theorem walletAt_adjust {bucket : Bucket} {amount : Amount} {wallet : WalletEntity}
    (h : db.adjust .fin some bucket userId asset amount = .ok (wallet, db')) :
    walletAt db'.wallets = (adjustWrite bucket userId asset amount).onto (walletAt db.wallets) := by
  obtain ⟨_, _, _, happly, _⟩ := adjust_ok keeps_some h
  obtain ⟨_, hwallets⟩ := applyWrite_exact.mp happly
  rw [hwallets, walletAt_update]
  rfl

/-- The legs of a settlement. -/
theorem settleLegs_returns (referenceId : String) (legs : List BalanceLeg) :
    ∀ db : Database, Passes (walletAt db.wallets) (legWrites Database.rowKey legs) →
      ∃ db', db.settleLegs .fin some referenceId legs = .ok db' ∧ db'.users = db.users := by
  induction legs with
  | nil => exact fun db _ => ⟨db, rfl, rfl⟩
  | cons leg legs ih =>
      rintro db ⟨hpass, hrest⟩
      have hpass : (adjustWrite leg.bucket leg.userId leg.asset leg.amount).Passes (walletAt db.wallets) :=
        hpass
      obtain ⟨wallet, adjusted, hadjust, husers⟩ := adjust_returns hpass
      obtain ⟨recorded, hrecord, husers', hwallets⟩ := recordTypeOrm_returns adjusted
        ⟨leg.userId, leg.asset, leg.amount, referenceId⟩ .tradeSettlement wallet.available
      obtain ⟨settled, hsettle, husers''⟩ := ih recorded (by
        rw [hwallets, walletAt_adjust hadjust]
        exact hrest)
      refine ⟨settled, ?_, husers''.trans (husers'.trans husers)⟩
      rw [Database.settleLegs, Database.settleLeg, hadjust, ok_bind]
      simp only [hrecord, ok_bind, hsettle]

/-- **A call succeeds** if its users may transact and its writes pass. -/
theorem exec_returns {op : WalletOp} (husers : ∀ userId ∈ op.users, db.assertUserCanTransact userId = .ok ())
    (hpasses : Passes (walletAt db.wallets) (op.typeOrmWrites .fin)) :
    ∃ reply db', db.exec .fin some op = .ok (reply, db') ∧ db'.users = db.users := by
  cases op with
  | credit dto type =>
      obtain ⟨wallet, adjusted, hadjust, hsame⟩ := adjust_returns hpasses.1
      obtain ⟨recorded, hrecord, hsame', _⟩ := recordTypeOrm_returns adjusted dto type wallet.available
      refine ⟨.entry ⟨dto, type, wallet.available⟩, recorded, ?_, hsame'.trans hsame⟩
      simp only [Database.exec, Database.credit, Database.adjustAvailable, hadjust, ok_bind, hrecord,
        husers dto.userId (List.mem_singleton_self _)]
  | debit dto type =>
      obtain ⟨wallet, adjusted, hadjust, hsame⟩ := adjust_returns hpasses.1
      obtain ⟨recorded, hrecord, hsame', _⟩ := recordTypeOrm_returns adjusted
        { dto with amount := dto.amount.negated } type wallet.available
      refine ⟨.entry ⟨dto, type, wallet.available⟩, recorded, ?_, hsame'.trans hsame⟩
      simp only [Database.exec, Database.debit, Database.adjustAvailable, hadjust, ok_bind, hrecord,
        husers dto.userId (List.mem_singleton_self _)]
  | lock dto =>
      obtain ⟨wallet, adjusted, hadjust, hsame⟩ := adjust_returns hpasses.1
      obtain ⟨saved, hsave, hsame'⟩ := save_returns adjusted dto.userId dto.asset
        { wallet with locked := Amount.add .fin wallet.locked dto.amount }
      obtain ⟨recorded, hrecord, hsame'', _⟩ := recordTypeOrm_returns saved dto .tradeSettlement
        wallet.available
      refine ⟨.entry ⟨dto, .tradeSettlement, wallet.available⟩, recorded, ?_,
        hsame''.trans (hsame'.trans hsame)⟩
      simp only [Database.exec, Database.lock, Database.adjustAvailable, hadjust, ok_bind, hsave, hrecord,
        husers dto.userId (List.mem_singleton_self _)]
  | unlock dto =>
      obtain ⟨wallet, adjusted, hadjust, hsame⟩ := adjust_returns hpasses.1
      obtain ⟨saved, hsave, hsame'⟩ := save_returns adjusted dto.userId dto.asset
        { wallet with available := Amount.add .fin wallet.available dto.amount }
      obtain ⟨recorded, hrecord, hsame'', _⟩ := recordTypeOrm_returns saved dto .tradeSettlement
        (Amount.add .fin wallet.available dto.amount)
      refine ⟨.entry ⟨dto, .tradeSettlement, Amount.add .fin wallet.available dto.amount⟩, recorded, ?_,
        hsame''.trans (hsame'.trans hsame)⟩
      simp only [Database.exec, Database.unlock, Database.adjustLocked, hadjust, ok_bind, hsave, hrecord,
        husers dto.userId (List.mem_singleton_self _)]
  | internalTransfer dto toUserId =>
      obtain ⟨debited, adjusted, hadjust, hsame⟩ := adjust_returns hpasses.1
      have hnext := hpasses.2.1
      rw [← walletAt_adjust hadjust] at hnext
      obtain ⟨credited, adjusted', hadjust', hsame'⟩ := adjust_returns hnext
      obtain ⟨recorded, hrecord, hsame'', _⟩ := recordTypeOrm_returns adjusted' dto .internalTransfer
        debited.available
      obtain ⟨recorded', hrecord', hsame''', _⟩ := recordTypeOrm_returns recorded
        { dto with userId := toUserId } .internalTransfer credited.available
      refine ⟨.transferred ⟨dto, .internalTransfer, debited.available⟩
        ⟨{ dto with userId := toUserId }, .internalTransfer, credited.available⟩, recorded', ?_,
        hsame'''.trans (hsame''.trans (hsame'.trans hsame))⟩
      simp only [Database.exec, Database.internalTransfer, Database.adjustAvailable, hadjust, hadjust',
        ok_bind, hrecord, hrecord', husers dto.userId List.mem_cons_self,
        husers toUserId (List.mem_cons_of_mem _ (List.mem_singleton_self _))]
  | settleTrade dto =>
      obtain ⟨settled, hsettle, hsame⟩ := settleLegs_returns dto.referenceId _ db hpasses
      refine ⟨.settled "typeorm" dto.referenceId (quoteAmount .fin dto) (settlementLegs .fin dto), settled,
        ?_, hsame⟩
      simp only [Database.exec, Database.settleTrade, ok_bind, hsettle,
        husers dto.makerUserId List.mem_cons_self,
        husers dto.takerUserId (List.mem_cons_of_mem _ (List.mem_singleton_self _))]

/-- **What a call that succeeds has done.** -/
theorem exec_wallets {op : WalletOp} {reply : WalletReply} (h : db.exec .fin some op = .ok (reply, db')) :
    (∀ userId ∈ op.users, db.assertUserCanTransact userId = .ok ()) ∧
      Passes (walletAt db.wallets) (op.typeOrmWrites .fin) ∧
      walletAt db'.wallets = written (walletAt db.wallets) (op.typeOrmWrites .fin) ∧
      db'.users = db.users := by
  obtain ⟨husers, units, hrun⟩ := database_exec_writes keeps_some h
  obtain ⟨hwallets, hpasses⟩ := walletAt_run hrun
  refine ⟨husers, hpasses, hwallets, ?_⟩
  obtain ⟨_, _, hreturns, hsame⟩ := exec_returns husers hpasses
  rw [hreturns] at h
  cases h
  exact hsame

end Calls

/-! ### Locks -/

/-- What `lock` makes of a wallet. -/
def WalletEntity.lock (wallet : WalletEntity) (amount : Amount) : WalletEntity :=
  ⟨Amount.add .fin wallet.available amount.negated, Amount.add .fin wallet.locked amount⟩

/-- What `unlock` makes of a wallet. -/
def WalletEntity.unlock (wallet : WalletEntity) (amount : Amount) : WalletEntity :=
  ⟨Amount.add .fin wallet.available amount, Amount.add .fin wallet.locked amount.negated⟩

/-- A finite amount that is added and taken away again. -/
theorem add_negated_cancel (a : Amount) (x : ℚ) :
    Amount.add .fin (Amount.add .fin a (.fin x)) (.fin (-x)) = a := by
  cases a with
  | nan => rfl
  | inf _ => rfl
  | fin y => exact congrArg Extended.fin (add_neg_cancel_right y x)

/-- **An unlock gives back what a lock has taken.** -/
theorem WalletEntity.unlock_lock (wallet : WalletEntity) (x : ℚ) :
    (wallet.lock (.fin x)).unlock (.fin x) = wallet := by
  have hback := add_negated_cancel wallet.available (-x)
  rw [neg_neg] at hback
  show WalletEntity.mk (Amount.add .fin (Amount.add .fin wallet.available (.fin (-x))) (.fin x))
    (Amount.add .fin (Amount.add .fin wallet.locked (.fin x)) (.fin (-x))) = wallet
  rw [hback, add_negated_cancel]

section Locks

variable {db db' : Database} {dto : BalanceMutationDto} {reply : WalletReply}

theorem written_lock (wallets : String ×ₗ String → WalletEntity) (dto : BalanceMutationDto) :
    written wallets ((WalletOp.lock dto).typeOrmWrites .fin)
      = Function.update wallets (Database.rowKey dto.userId dto.asset)
        ((wallets (Database.rowKey dto.userId dto.asset)).lock dto.amount) := by
  simp only [written, WalletOp.typeOrmWrites, adjustWrite, List.foldl_cons, List.foldl_nil, Write.onto,
    Function.update_self, Function.update_idem]
  rfl

theorem written_unlock (wallets : String ×ₗ String → WalletEntity) (dto : BalanceMutationDto) :
    written wallets ((WalletOp.unlock dto).typeOrmWrites .fin)
      = Function.update wallets (Database.rowKey dto.userId dto.asset)
        ((wallets (Database.rowKey dto.userId dto.asset)).unlock dto.amount) := by
  simp only [written, WalletOp.typeOrmWrites, adjustWrite, List.foldl_cons, List.foldl_nil, Write.onto,
    Function.update_self, Function.update_idem]
  rfl

theorem passes_lock {wallets : String ×ₗ String → WalletEntity} :
    Passes wallets ((WalletOp.lock dto).typeOrmWrites .fin) ↔
      ((wallets (Database.rowKey dto.userId dto.asset)).lock dto.amount).available.ltZero = false :=
  ⟨fun h => h.1 rfl, fun h => ⟨fun _ => h, (fun hcheck => nomatch hcheck), trivial⟩⟩

theorem passes_unlock {wallets : String ×ₗ String → WalletEntity} :
    Passes wallets ((WalletOp.unlock dto).typeOrmWrites .fin) ↔
      ((wallets (Database.rowKey dto.userId dto.asset)).unlock dto.amount).locked.ltZero = false :=
  ⟨fun h => h.1 rfl, fun h => ⟨fun _ => h, (fun hcheck => nomatch hcheck), trivial⟩⟩

/-- **A lock that succeeds.** -/
theorem lock_wallets (h : db.exec .fin some (.lock dto) = .ok (reply, db')) :
    db.assertUserCanTransact dto.userId = .ok () ∧ db'.users = db.users ∧
      walletAt db'.wallets = Function.update (walletAt db.wallets) (Database.rowKey dto.userId dto.asset)
        ((walletAt db.wallets (Database.rowKey dto.userId dto.asset)).lock dto.amount) := by
  obtain ⟨husers, _, hwallets, hsame⟩ := exec_wallets h
  rw [written_lock] at hwallets
  exact ⟨husers dto.userId (List.mem_singleton_self _), hsame, hwallets⟩

/-- **An unlock that succeeds.** -/
theorem unlock_wallets (h : db.exec .fin some (.unlock dto) = .ok (reply, db')) :
    ((walletAt db.wallets (Database.rowKey dto.userId dto.asset)).unlock dto.amount).locked.ltZero = false ∧
      db'.users = db.users ∧
      walletAt db'.wallets = Function.update (walletAt db.wallets) (Database.rowKey dto.userId dto.asset)
        ((walletAt db.wallets (Database.rowKey dto.userId dto.asset)).unlock dto.amount) := by
  obtain ⟨_, hpasses, hwallets, hsame⟩ := exec_wallets h
  rw [written_unlock] at hwallets
  exact ⟨passes_unlock.mp hpasses, hsame, hwallets⟩

variable (dto) in
/-- **An unlock succeeds** if enough is locked. -/
theorem unlock_returns (huser : db.assertUserCanTransact dto.userId = .ok ())
    (henough : ((walletAt db.wallets (Database.rowKey dto.userId dto.asset)).unlock
      dto.amount).locked.ltZero = false) :
    ∃ reply db', db.exec .fin some (.unlock dto) = .ok (reply, db') := by
  have husers : ∀ userId ∈ (WalletOp.unlock dto).users, db.assertUserCanTransact userId = .ok () :=
    List.forall_mem_singleton.mpr huser
  obtain ⟨reply, db', hexec, _⟩ := exec_returns husers (passes_unlock.mpr henough)
  exact ⟨reply, db', hexec⟩

end Locks

end NexusTrade.Wallet
