import NexusTrade.Shared.Places
import NexusTrade.Wallet.Exact

/-!
# Locks on stored balances

The balances of a wallet are numbers of `numeric(38,18)`, and `decimal.js` keeps forty significant digits: a sum
of two such numbers has thirty-nine digits at most, so nothing is cut off, and what a lock has moved an unlock
moves back.

* **`add_fits`** and **`subtract_fits`**: sums and differences of numbers that fit are exact;
* **`walletAt_write`**: a write of such an amount adds exactly this amount, in memory and in a column;
* **`walletAt_moved`**: the two writes of `lock` and of `unlock`;
* **`stored_arithmetic_is_exact`**: an unlock after a lock of the same amount restores the wallet.
-/

namespace NexusTrade.Wallet

/-! ### Sums -/

section Sums

variable {round : Rounding}

/-- The sum of a number of 39 digits and one of 38 is exact. -/
theorem add_fits (hround : Precise 40 18 round) {a b : ℚ} (ha : Fits 39 18 a) (hb : Fits 38 18 b) :
    Amount.add round (.fin a) (.fin b) = .fin (a + b) :=
  hround.exact (a + b) (ha.add (hb.mono (by decide)))

/-- And so is their difference. -/
theorem subtract_fits (hround : Precise 40 18 round) {a b : ℚ} (ha : Fits 39 18 a) (hb : Fits 38 18 b) :
    Amount.subtract round (.fin a) (.fin b) = .fin (a - b) := by
  rw [sub_eq_add_neg]
  exact add_fits hround ha hb.neg

end Sums

/-! ### Writes -/

section Writes

variable {κ : Type} [LinearOrder κ] {round : Rounding} {column : Column}

/-- A column stores a number of 18 places as it is, if it accepts it. -/
def Column.Faithful (column : Column) : Prop :=
  ∀ (k : ℤ) y, column (.fin (k / 10 ^ 18)) = some y → y = .fin (k / 10 ^ 18)

theorem faithful_some : Column.Faithful some := fun _ _ h => (Option.some.inj h).symm

theorem storeChanged_fits (hcolumn : Column.Faithful column) {digits : ℕ} {old stored : Amount} {x : ℚ}
    (hx : Fits digits 18 x) (h : storeChanged column old (.fin x) = some stored) : stored = .fin x := by
  obtain ⟨k, rfl, -⟩ := hx
  rw [storeChanged] at h
  split at h
  · rename_i hsame
    rw [hsame]
    exact (Option.some.inj h).symm
  · exact hcolumn k stored h

/-- **A write of an amount that fits** adds exactly this amount, and its check looks at the exact sum. -/
theorem walletAt_write (hround : Precise 40 18 round) (hcolumn : Column.Faithful column)
    {balances balances' : SortedMap κ WalletEntity} {key : κ} {bucket : Bucket} {check : Option String}
    {b d : ℚ} {u : Unit} (hb : (walletAt balances key).get bucket = .fin b) (hfits : Fits 39 18 b)
    (hd : Fits 38 18 d)
    (happly : applyWrite round column balances ⟨key, bucket, .fin d, check⟩ = .ok (u, balances')) :
    storeChanged column (.fin b) (.fin (b + d)) = some (.fin (b + d)) ∧
      walletAt balances' = Function.update (walletAt balances) key
        ((walletAt balances key).set bucket (.fin (b + d))) := by
  obtain ⟨_, stored, hstore, rfl⟩ := applyWrite_eq_ok.mp happly
  have hnext : (Write.mk key bucket (.fin d) check).next round balances = .fin (b + d) := by
    rw [Write.next, hb]
    exact add_fits hround hfits hd
  rw [hb, hnext] at hstore
  have hstored := storeChanged_fits hcolumn (hfits.add (hd.mono (by decide))) hstore
  rw [hstored] at hstore ⊢
  exact ⟨hstore, walletAt_update balances key _⟩

/-- **The two writes of `lock` and of `unlock`**: an amount is taken from one balance and put to the other. -/
theorem walletAt_moved (hround : Precise 40 18 round) (hcolumn : Column.Faithful column)
    {balances balances' : SortedMap κ WalletEntity} {key : κ} {bucket other : Bucket} (hne : bucket ≠ other)
    {check : Option String} {b o x : ℚ} {units : List Unit}
    (hb : (walletAt balances key).get bucket = .fin b) (hfits : Fits 39 18 b)
    (ho : (walletAt balances key).get other = .fin o) (hfits' : Fits 39 18 o) (hx : Fits 38 18 x)
    (hrun : Machine.run (applyWrite round column) balances
      [⟨key, bucket, .fin (-x), check⟩, ⟨key, other, .fin x, none⟩] = .ok (units, balances')) :
    storeChanged column (.fin b) (.fin (b + -x)) = some (.fin (b + -x)) ∧
      storeChanged column (.fin o) (.fin (o + x)) = some (.fin (o + x)) ∧
      walletAt balances' = Function.update (walletAt balances) key
        (((walletAt balances key).set bucket (.fin (b + -x))).set other (.fin (o + x))) := by
  obtain ⟨_, middle, _, hfirst, hrest, _⟩ := Machine.run_cons_ok.mp hrun
  obtain ⟨_, _, _, hsecond, hnil, _⟩ := Machine.run_cons_ok.mp hrest
  cases hnil
  obtain ⟨hstore, hmiddle⟩ := walletAt_write hround hcolumn hb hfits hx.neg hfirst
  have hwallet : walletAt middle key = (walletAt balances key).set bucket (.fin (b + -x)) := by
    rw [hmiddle, Function.update_self]
  have hother : (walletAt middle key).get other = .fin o := by
    rw [hwallet, WalletEntity.get_set_ne _ hne, ho]
  obtain ⟨hstore', hafter⟩ := walletAt_write hround hcolumn hother hfits' hx hsecond
  refine ⟨hstore, hstore', ?_⟩
  rw [hafter, hwallet, hmiddle, Function.update_idem]

/-- **What a lock has moved, an unlock moves back.** -/
theorem walletAt_restored (hround : Precise 40 18 round) (hcolumn : Column.Faithful column)
    {balances middle after : SortedMap κ WalletEntity} {key : κ} {check check' : Option String} {a l x : ℚ}
    {units units' : List Unit} (hwallet : walletAt balances key = ⟨.fin a, .fin l⟩) (ha : Fits 38 18 a)
    (hl : Fits 38 18 l) (hx : Fits 38 18 x)
    (hlock : Machine.run (applyWrite round column) balances
      [⟨key, .available, .fin (-x), check⟩, ⟨key, .locked, .fin x, none⟩] = .ok (units, middle))
    (hunlock : Machine.run (applyWrite round column) middle
      [⟨key, .locked, .fin (-x), check'⟩, ⟨key, .available, .fin x, none⟩] = .ok (units', after)) :
    walletAt after = walletAt balances := by
  obtain ⟨_, _, hmiddle⟩ := walletAt_moved hround hcolumn Bucket.noConfusion
    (by rw [hwallet]; rfl) (ha.mono (by decide)) (by rw [hwallet]; rfl) (hl.mono (by decide)) hx hlock
  have hlocked : walletAt middle key = ⟨.fin (a + -x), .fin (l + x)⟩ := by
    rw [hmiddle, Function.update_self, hwallet]
    rfl
  obtain ⟨_, _, hafter⟩ := walletAt_moved hround hcolumn Bucket.noConfusion
    (by rw [hlocked]; rfl) (hl.add hx) (by rw [hlocked]; rfl) (ha.add hx.neg) hx hunlock
  have hback : ((walletAt middle key).set .locked (.fin (l + x + -x))).set .available (.fin (a + -x + x))
      = walletAt balances key := by
    rw [hlocked, hwallet, add_neg_cancel_right, neg_add_cancel_right]
    rfl
  rw [hafter, hback, hmiddle, Function.update_idem, Function.update_eq_self]

end Writes

/-! ### Calls -/

section Calls

variable {round : Rounding} {column : Column}

/-- **An unlock in memory returns** if enough is locked. -/
theorem unlock_memory_returns (hround : Precise 40 18 round) {memory : Memory} {dto : BalanceMutationDto}
    {m x : ℚ} (hlocked : (memory.current dto.userId dto.asset).locked = .fin m) (hm : Fits 39 18 m)
    (hdto : dto.amount = .fin x) (hx : Fits 38 18 x) (henough : 0 ≤ m - x) :
    ∃ reply memory', memory.exec round (.unlock dto) = (.ok reply, memory') := by
  have hnext : Amount.subtract round (memory.current dto.userId dto.asset).locked dto.amount = .fin (m - x) := by
    rw [hlocked, hdto]
    exact subtract_fits hround hm hx
  have hassert : assertNonNegative (.fin (m - x)) "locked" = .ok () :=
    assertNonNegative_ok.mpr (decide_eq_false (not_lt.mpr henough))
  rw [Memory.exec, Memory.unlock]
  simp only [hnext, hassert]
  exact ⟨_, _, rfl⟩

/-- A column accepts a number that fits, changed or not. -/
theorem storeChanged_accepts (hcolumn : Ordered 38 18 column) (old : Amount) {x : ℚ} (hx : Fits 38 18 x) :
    storeChanged column old (.fin x) = some (.fin x) := by
  rw [storeChanged]
  split
  · rename_i hsame
    rw [hsame]
  · exact hcolumn.holds x hx

/-- What a column has stored of a number fits. -/
theorem storeChanged_holds (hcolumn : Ordered 38 18 column) {b x : ℚ} (hb : Fits 38 18 b)
    (h : storeChanged column (.fin b) (.fin x) = some (.fin x)) : Fits 38 18 x := by
  rw [storeChanged] at h
  split at h
  · cases h
    exact hb
  · exact hcolumn.stored _ _ h

/-- A wallet of numbers that fit is saved. -/
theorem save_accepts (hcolumn : Ordered 38 18 column) (db : Database) (userId asset : String) {a l : ℚ}
    (ha : Fits 38 18 a) (hl : Fits 38 18 l) :
    db.save column userId asset ⟨.fin a, .fin l⟩ = .ok { db with
      wallets := db.wallets.insert (Database.rowKey userId asset) ⟨.fin a, .fin l⟩ } := by
  rw [Database.save]
  cases db.wallets.find (Database.rowKey userId asset) with
  | none => simp only [hcolumn.holds a ha, hcolumn.holds l hl]
  | some row => simp only [storeChanged_accepts hcolumn _ ha, storeChanged_accepts hcolumn _ hl]

/-- The row of a wallet is found, or is created. -/
theorem findOrCreateWallet_accepts (hcolumn : Ordered 38 18 column) (db : Database) (userId asset : String) :
    ∃ db', db.findOrCreateWallet column userId asset
      = .ok (walletAt db.wallets (Database.rowKey userId asset), db') := by
  rw [Database.findOrCreateWallet, walletAt]
  cases db.wallets.find (Database.rowKey userId asset) with
  | none =>
      have hzero := Fits.zero 38 18
      have hsave : db.save column userId asset .zero = _ := save_accepts hcolumn db userId asset hzero hzero
      simp only [hsave, ok_bind]
      exact ⟨_, rfl⟩
  | some row => exact ⟨db, rfl⟩

/-- **An unlock in the database returns** if enough is locked and the wallet it leaves can be stored. -/
theorem unlock_database_returns (hround : Precise 40 18 round) (hcolumn : Ordered 38 18 column) {db : Database}
    {dto : BalanceMutationDto} {a m x : ℚ} (huser : db.assertUserCanTransact dto.userId = .ok ())
    (hwallet : walletAt db.wallets (Database.rowKey dto.userId dto.asset) = ⟨.fin a, .fin m⟩)
    (ha : Fits 38 18 a) (hm : Fits 38 18 m) (hdto : dto.amount = .fin x) (hx : Fits 38 18 x)
    (henough : 0 ≤ m + -x) (hlocked : Fits 38 18 (m + -x)) (havailable : Fits 38 18 (a + x)) :
    ∃ reply db', db.exec round column (.unlock dto) = .ok (reply, db') := by
  obtain ⟨found, hfind⟩ := findOrCreateWallet_accepts hcolumn db dto.userId dto.asset
  rw [hwallet] at hfind
  have hnext : Amount.add round (.fin m) (.fin (-x)) = .fin (m + -x) :=
    add_fits hround (hm.mono (by decide)) hx.neg
  have hback : Amount.add round (.fin a) (.fin x) = .fin (a + x) := add_fits hround (ha.mono (by decide)) hx
  have hassert : assertNonNegative (.fin (m + -x)) (balanceLabel dto.userId dto.asset .locked) = .ok () :=
    assertNonNegative_ok.mpr (decide_eq_false (not_lt.mpr henough))
  obtain ⟨adjusted, hadjust⟩ : ∃ adjusted, db.adjustLocked round column dto.userId dto.asset dto.amount.negated
      = .ok (⟨.fin a, .fin (m + -x)⟩, adjusted) := by
    rw [Database.adjustLocked, Database.adjust, hfind, ok_bind, hdto]
    show ∃ adjusted, (do
      assertNonNegative (Amount.add round (.fin m) (.fin (-x))) (balanceLabel dto.userId dto.asset .locked)
      let db ← found.save column dto.userId dto.asset ⟨.fin a, Amount.add round (.fin m) (.fin (-x))⟩
      Except.ok ((⟨.fin a, Amount.add round (.fin m) (.fin (-x))⟩ : WalletEntity), db)) = _
    rw [hnext, hassert, ok_bind, save_accepts hcolumn found dto.userId dto.asset ha hlocked, ok_bind]
    exact ⟨_, rfl⟩
  rw [Database.exec, Database.unlock, huser]
  simp only [ok_bind, hadjust]
  simp only [ok_bind, hdto, hback, save_accepts hcolumn _ dto.userId dto.asset havailable hlocked,
    Database.recordTypeOrm, hcolumn.holds x hx, hcolumn.holds (a + x) havailable]
  exact ⟨_, _, rfl⟩

theorem save_users {db db' : Database} {userId asset : String} {wallet : WalletEntity}
    (h : db.save column userId asset wallet = .ok db') : db'.users = db.users := by
  rw [Database.save] at h
  split at h
  · cases h
    rfl
  · cases h

theorem recordTypeOrm_users {db db' : Database} {dto : BalanceMutationDto} {type : TransactionType}
    {balanceAfter : Amount} (h : db.recordTypeOrm column dto type balanceAfter = .ok db') :
    db'.users = db.users := by
  rw [Database.recordTypeOrm] at h
  split at h
  · cases h
    rfl
  · cases h

theorem adjust_users {db db' : Database} {bucket : Bucket} {userId asset : String} {amount : Amount}
    {wallet : WalletEntity} (h : db.adjust round column bucket userId asset amount = .ok (wallet, db')) :
    db'.users = db.users := by
  simp only [Database.adjust, bind_eq_ok] at h
  obtain ⟨⟨row, found⟩, hfind, _, _, saved, hsave, hreturn⟩ := h
  cases hreturn
  rw [save_users hsave]
  rw [Database.findOrCreateWallet] at hfind
  split at hfind
  · cases hfind
    rfl
  · rw [bind_eq_ok] at hfind
    obtain ⟨created, hcreate, hfind⟩ := hfind
    cases hfind
    exact save_users hcreate

/-- A lock that returns was made for a user who may transact, and still may. -/
theorem lock_users {db db' : Database} {dto : BalanceMutationDto} {reply : WalletReply}
    (h : db.exec round column (.lock dto) = .ok (reply, db')) :
    db'.assertUserCanTransact dto.userId = .ok () := by
  simp only [Database.exec, Database.lock, bind_eq_ok] at h
  obtain ⟨_, ⟨_, huser, ⟨wallet, adjusted⟩, hadjust, saved, hsave, recorded, hrecord, hentry⟩, h⟩ := h
  cases hentry
  cases h
  have husers : recorded.users = db.users :=
    (recordTypeOrm_users hrecord).trans ((save_users hsave).trans (adjust_users hadjust))
  rw [Database.assertUserCanTransact] at huser ⊢
  rw [husers]
  exact huser

end Calls

/-! ### An unlock after a lock -/

section Restored

variable {round : Rounding} {column : Column}

/-- **In memory.** -/
theorem unlock_after_lock_memory (hround : Precise 40 18 round) {memory : Memory} {dto : BalanceMutationDto}
    {reply : WalletReply} {a l x : ℚ} (hwallet : memory.current dto.userId dto.asset = ⟨.fin a, .fin l⟩)
    (ha : Fits 38 18 a) (hl : Fits 38 18 l) (hdto : dto.amount = .fin x) (hx : Fits 38 18 x)
    (hlock : (memory.exec round (.lock dto)).1 = .ok reply) :
    (∀ reply', ((memory.exec round (.lock dto)).2.exec round (.unlock dto)).1 = .ok reply' →
      walletAt ((memory.exec round (.lock dto)).2.exec round (.unlock dto)).2.balances
        = walletAt memory.balances) ∧
    (0 ≤ l → ∃ reply', ((memory.exec round (.lock dto)).2.exec round (.unlock dto)).1 = .ok reply') := by
  obtain ⟨units, hrun⟩ := memory_exec_run hlock
  simp only [WalletOp.memoryWrites, hdto] at hrun
  refine ⟨fun reply' hunlock => ?_, fun henough => ?_⟩
  · obtain ⟨units', hrun'⟩ := memory_exec_run hunlock
    simp only [WalletOp.memoryWrites, hdto] at hrun'
    exact walletAt_restored hround faithful_some hwallet ha hl hx hrun hrun'
  · have hbefore : walletAt memory.balances (balanceKey dto.userId dto.asset) = ⟨.fin a, .fin l⟩ := hwallet
    obtain ⟨_, _, hafter⟩ := walletAt_moved hround faithful_some Bucket.noConfusion
      (by rw [hbefore]; rfl) (ha.mono (by decide)) (by rw [hbefore]; rfl) (hl.mono (by decide)) hx hrun
    have hlocked : ((memory.exec round (.lock dto)).2.current dto.userId dto.asset).locked = .fin (l + x) := by
      show (walletAt (memory.exec round (.lock dto)).2.balances (balanceKey dto.userId dto.asset)).locked = _
      rw [hafter, Function.update_self]
      rfl
    obtain ⟨reply', memory', hunlock⟩ := unlock_memory_returns hround hlocked (hl.add hx) hdto hx
      (by rw [add_sub_cancel_right]; exact henough)
    exact ⟨reply', congrArg Prod.fst hunlock⟩

/-- **In the database.** -/
theorem unlock_after_lock_database (hround : Precise 40 18 round) (hcolumn : Ordered 38 18 column)
    {db db' : Database} {dto : BalanceMutationDto} {reply : WalletReply} {a l x : ℚ}
    (hwallet : walletAt db.wallets (Database.rowKey dto.userId dto.asset) = ⟨.fin a, .fin l⟩)
    (ha : Fits 38 18 a) (hl : Fits 38 18 l) (hdto : dto.amount = .fin x) (hx : Fits 38 18 x)
    (hlock : db.exec round column (.lock dto) = .ok (reply, db')) :
    (∀ reply' db'', db'.exec round column (.unlock dto) = .ok (reply', db'') →
      walletAt db''.wallets = walletAt db.wallets) ∧
    (0 ≤ l → ∃ reply' db'', db'.exec round column (.unlock dto) = .ok (reply', db'')) := by
  have hfaithful : Column.Faithful column := hcolumn.exact
  obtain ⟨_, units, hrun⟩ := database_exec_writes hcolumn.toKeeps hlock
  simp only [WalletOp.typeOrmWrites, adjustWrite, hdto] at hrun
  refine ⟨fun reply' db'' hunlock => ?_, fun henough => ?_⟩
  · obtain ⟨_, units', hrun'⟩ := database_exec_writes hcolumn.toKeeps hunlock
    simp only [WalletOp.typeOrmWrites, adjustWrite, hdto] at hrun'
    exact walletAt_restored hround hfaithful hwallet ha hl hx hrun hrun'
  · obtain ⟨hstore, hstore', hafter⟩ := walletAt_moved hround hfaithful Bucket.noConfusion
      (by rw [hwallet]; rfl) (ha.mono (by decide)) (by rw [hwallet]; rfl) (hl.mono (by decide)) hx hrun
    have hlocked : walletAt db'.wallets (Database.rowKey dto.userId dto.asset)
        = ⟨.fin (a + -x), .fin (l + x)⟩ := by
      rw [hafter, Function.update_self, hwallet]
      rfl
    refine unlock_database_returns hround hcolumn (lock_users hlock) hlocked
      (storeChanged_holds hcolumn ha hstore) (storeChanged_holds hcolumn hl hstore') hdto hx ?_ ?_ ?_
    · rw [add_neg_cancel_right]
      exact henough
    · rw [add_neg_cancel_right]
      exact hl
    · rw [neg_add_cancel_right]
      exact ha

/-- **Arithmetic on stored balances is exact**: sums and differences of numbers of `numeric(38,18)` are, and in
both paths an unlock that returns after a lock of the same amount has restored every wallet; it returns unless
the locked balance was negative before. -/
theorem stored_arithmetic_is_exact (hround : Precise 40 18 round) (hcolumn : Ordered 38 18 column) :
    (∀ a b, Fits 38 18 a → Fits 38 18 b →
      Amount.add round (.fin a) (.fin b) = .fin (a + b) ∧
      Amount.subtract round (.fin a) (.fin b) = .fin (a - b) ∧
      Amount.subtract round (Amount.add round (.fin a) (.fin b)) (.fin b) = .fin a) ∧
    ∀ (service locked : WalletService) (dto : BalanceMutationDto) (reply : WalletReply) (a l x : ℚ),
      service.getBalance dto.userId dto.asset = ⟨.fin a, .fin l⟩ → Fits 38 18 a → Fits 38 18 l →
      dto.amount = .fin x → Fits 38 18 x →
      service.exec round column (.lock dto) = (.ok reply, locked) →
      (∀ reply' unlocked, locked.exec round column (.unlock dto) = (.ok reply', unlocked) →
        ∀ userId asset, unlocked.getBalance userId asset = service.getBalance userId asset) ∧
      (0 ≤ l → ∃ reply' unlocked, locked.exec round column (.unlock dto) = (.ok reply', unlocked)) := by
  refine ⟨fun a b ha hb => ?_, fun service locked dto reply a l x hwallet ha hl hdto hx hlock => ?_⟩
  · have hadd := add_fits hround (ha.mono (by decide)) hb
    refine ⟨hadd, subtract_fits hround (ha.mono (by decide)) hb, ?_⟩
    rw [hadd, subtract_fits hround (ha.add hb) hb, add_sub_cancel_right]
  · obtain ⟨dataSource, memory⟩ := service
    cases dataSource with
    | none =>
        simp only [WalletService.exec, Prod.mk.injEq] at hlock
        obtain ⟨hlock, rfl⟩ := hlock
        obtain ⟨hrestored, hreturns⟩ := unlock_after_lock_memory hround hwallet ha hl hdto hx hlock
        refine ⟨fun reply' unlocked hunlock userId asset => ?_, fun henough => ?_⟩
        · simp only [WalletService.exec, Prod.mk.injEq] at hunlock
          obtain ⟨hunlock, rfl⟩ := hunlock
          exact congrFun (hrestored reply' hunlock) (balanceKey userId asset)
        · obtain ⟨reply', hunlock⟩ := hreturns henough
          exact ⟨reply', _, Prod.ext hunlock rfl⟩
    | some db =>
        simp only [WalletService.exec, WalletService.withTransaction] at hlock
        split at hlock
        · cases hlock
        · rename_i db' hexec
          cases hlock
          obtain ⟨hrestored, hreturns⟩ := unlock_after_lock_database hround hcolumn hwallet ha hl hdto hx hexec
          refine ⟨fun reply' unlocked hunlock userId asset => ?_, fun henough => ?_⟩
          · simp only [WalletService.exec, WalletService.withTransaction] at hunlock
            split at hunlock
            · cases hunlock
            · rename_i db'' hexec'
              cases hunlock
              exact congrFun (hrestored reply' db'' hexec') (Database.rowKey userId asset)
          · obtain ⟨reply', db'', hexec'⟩ := hreturns henough
            refine ⟨reply', ⟨some db'', memory⟩, ?_⟩
            simp only [WalletService.exec, WalletService.withTransaction, hexec']

end Restored

/-- The greatest number of `numeric(38,18)`. -/
def greatest : ℚ := (10 ^ 38 - 1) / 10 ^ 18

theorem fits_greatest : Fits 38 18 greatest := ⟨10 ^ 38 - 1, by norm_num [greatest], by decide⟩

/-- A database with a wallet that holds it. -/
def fullService : WalletService where
  dataSource := some
    { users := SortedMap.empty.insert "alice" .active
      wallets := SortedMap.empty.insert (Database.rowKey "alice" "USDT") ⟨.fin greatest, .zero⟩
      ledger := [] }
  memory := ⟨.empty, []⟩

theorem stored_arithmetic_is_exact_fullService :
    Amount.add (truncated 40) (.fin greatest) (.fin greatest) = .fin (greatest + greatest) ∧
      ∃ reply locked reply' unlocked,
        fullService.exec (truncated 40) (numeric 38 18) (.lock ⟨"alice", "USDT", .fin greatest, "order"⟩)
          = (.ok reply, locked) ∧
        locked.getBalance "alice" "USDT" = ⟨.zero, .fin greatest⟩ ∧
        locked.exec (truncated 40) (numeric 38 18) (.unlock ⟨"alice", "USDT", .fin greatest, "order"⟩)
          = (.ok reply', unlocked) ∧
        unlocked.getBalance "alice" "USDT" = ⟨.fin greatest, .zero⟩ := by
  obtain ⟨hsums, hlocks⟩ := stored_arithmetic_is_exact (precise_truncated (by decide) 18)
    (numeric_ordered 38 18)
  refine ⟨(hsums greatest greatest fits_greatest fits_greatest).1, ?_⟩
  have hmoves : (fullService.exec (truncated 40) (numeric 38 18)
        (.lock ⟨"alice", "USDT", .fin greatest, "order"⟩)).1.toOption.isSome = true ∧
      (fullService.exec (truncated 40) (numeric 38 18)
        (.lock ⟨"alice", "USDT", .fin greatest, "order"⟩)).2.getBalance "alice" "USDT"
        = ⟨.zero, .fin greatest⟩ := by decide +kernel
  cases hlock : fullService.exec (truncated 40) (numeric 38 18)
      (.lock ⟨"alice", "USDT", .fin greatest, "order"⟩) with
  | mk result locked =>
      rw [hlock] at hmoves
      cases result with
      | error e => exact absurd hmoves.1 Bool.false_ne_true
      | ok reply =>
          obtain ⟨hrestored, hreturns⟩ := hlocks fullService locked
            ⟨"alice", "USDT", .fin greatest, "order"⟩ reply greatest 0 greatest (by decide +kernel)
            fits_greatest (Fits.zero 38 18) rfl fits_greatest hlock
          obtain ⟨reply', unlocked, hunlock⟩ := hreturns le_rfl
          refine ⟨reply, locked, reply', unlocked, rfl, hmoves.2, hunlock, ?_⟩
          rw [hrestored reply' unlocked hunlock]
          decide +kernel

end NexusTrade.Wallet
