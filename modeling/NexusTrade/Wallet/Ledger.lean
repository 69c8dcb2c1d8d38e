import Mathlib.Algebra.Order.BigOperators.Group.List
import Mathlib.Tactic.NormNum
import NexusTrade.Wallet.Totals

/-!
# The ledger and the balances

What the calls write to the ledger, and how far it explains the balances, in exact arithmetic.

* **`WalletOp.recorded`**: the movements that a call records, and **`database_exec_ledger`**: its rows are
  these;
* **`ledgered`** is the machine of the calls that succeed; its replies are the rows of each call;
* **`explained`**: the sum of the rows of a user and an asset that say that something came or went;
* **`moved_explained`**: a call changes a wallet by what its rows say, but for a transfer, whose sender's row
  says that the amount came;
* **`ledger_explains_iff`** says so of whole runs.
-/

namespace NexusTrade.Wallet

open Extended (isFinite_iff)

/-! ### The rows of a call -/

/-- The movements that a call records. -/
def WalletOp.recorded (round : Rounding) : WalletOp → List BalanceMutationDto
  | .credit dto _ => [dto]
  | .debit dto _ => [{ dto with amount := dto.amount.negated }]
  | .lock dto => [dto]
  | .unlock dto => [dto]
  | .internalTransfer dto toUserId => [dto, { dto with userId := toUserId }]
  | .settleTrade dto => (settlementLegs round dto).map fun leg =>
      ⟨leg.userId, leg.asset, leg.amount, dto.referenceId⟩

section Rows

variable {round : Rounding} {column : Column} {db db' : Database} {userId asset : String}

theorem save_ledger {wallet : WalletEntity} (h : db.save column userId asset wallet = .ok db') :
    db'.ledger = db.ledger := by
  rw [Database.save] at h
  split at h
  · cases h
    rfl
  · cases h

theorem findOrCreateWallet_ledger {wallet : WalletEntity}
    (h : db.findOrCreateWallet column userId asset = .ok (wallet, db')) : db'.ledger = db.ledger := by
  rw [Database.findOrCreateWallet] at h
  split at h
  · cases h
    rfl
  · obtain ⟨_, hsave, hok⟩ := bind_eq_ok.mp h
    cases hok
    exact save_ledger hsave

theorem adjust_ledger {bucket : Bucket} {amount : Amount} {wallet : WalletEntity}
    (h : db.adjust round column bucket userId asset amount = .ok (wallet, db')) :
    db'.ledger = db.ledger := by
  simp only [Database.adjust, bind_eq_ok] at h
  obtain ⟨⟨row, found⟩, hfind, _, _, saved, hsave, hok⟩ := h
  cases hok
  rw [save_ledger hsave, findOrCreateWallet_ledger hfind]

theorem recordTypeOrm_ledger {dto : BalanceMutationDto} {type : TransactionType} {balanceAfter : Amount}
    (h : db.recordTypeOrm some dto type balanceAfter = .ok db') :
    db'.ledger = db.ledger ++ [⟨dto, type, balanceAfter⟩] := by
  cases h
  rfl

theorem settleLegs_ledger (referenceId : String) (legs : List BalanceLeg) :
    ∀ db : Database, db.settleLegs round some referenceId legs = .ok db' →
      ∃ rows, db'.ledger = db.ledger ++ rows ∧ rows.map LedgerEntry.dto
        = legs.map fun leg => ⟨leg.userId, leg.asset, leg.amount, referenceId⟩ := by
  induction legs with
  | nil =>
      intro db h
      cases h
      exact ⟨[], (List.append_nil _).symm, rfl⟩
  | cons leg legs ih =>
      intro db h
      rw [Database.settleLegs, bind_eq_ok] at h
      obtain ⟨recorded, hleg, hrest⟩ := h
      rw [Database.settleLeg, bind_eq_ok] at hleg
      obtain ⟨⟨wallet, adjusted⟩, hadjust, hrecord⟩ := hleg
      obtain ⟨rows, hledger, hrows⟩ := ih recorded hrest
      rw [recordTypeOrm_ledger hrecord, adjust_ledger hadjust, List.append_assoc] at hledger
      refine ⟨_, hledger, ?_⟩
      rw [List.singleton_append, List.map_cons, hrows, List.map_cons]

/-- **A call that succeeds appends the rows of its movements.** -/
theorem database_exec_ledger {op : WalletOp} {reply : WalletReply}
    (h : db.exec round some op = .ok (reply, db')) :
    ∃ rows, db'.ledger = db.ledger ++ rows ∧ rows.map LedgerEntry.dto = op.recorded round := by
  cases op with
  | credit dto type =>
      simp only [Database.exec, Database.credit, bind_eq_ok] at h
      obtain ⟨_, ⟨_, _, ⟨_, adjusted⟩, hadjust, _, hrecord, hentry⟩, h⟩ := h
      cases hentry
      cases h
      rw [recordTypeOrm_ledger hrecord, adjust_ledger hadjust]
      exact ⟨_, rfl, rfl⟩
  | debit dto type =>
      simp only [Database.exec, Database.debit, bind_eq_ok] at h
      obtain ⟨_, ⟨_, _, ⟨_, adjusted⟩, hadjust, _, hrecord, hentry⟩, h⟩ := h
      cases hentry
      cases h
      rw [recordTypeOrm_ledger hrecord, adjust_ledger hadjust]
      exact ⟨_, rfl, rfl⟩
  | lock dto =>
      simp only [Database.exec, Database.lock, bind_eq_ok] at h
      obtain ⟨_, ⟨_, _, ⟨_, adjusted⟩, hadjust, saved, hsave, _, hrecord, hentry⟩, h⟩ := h
      cases hentry
      cases h
      rw [recordTypeOrm_ledger hrecord, save_ledger hsave, adjust_ledger hadjust]
      exact ⟨_, rfl, rfl⟩
  | unlock dto =>
      simp only [Database.exec, Database.unlock, bind_eq_ok] at h
      obtain ⟨_, ⟨_, _, ⟨_, adjusted⟩, hadjust, saved, hsave, _, hrecord, hentry⟩, h⟩ := h
      cases hentry
      cases h
      rw [recordTypeOrm_ledger hrecord, save_ledger hsave, adjust_ledger hadjust]
      exact ⟨_, rfl, rfl⟩
  | internalTransfer dto toUserId =>
      simp only [Database.exec, Database.internalTransfer, bind_eq_ok] at h
      obtain ⟨_, ⟨_, _, _, _, ⟨_, debited⟩, hdebit, ⟨_, credited⟩, hcredit, _, hrecord, _, hrecord',
        hentries⟩, h⟩ := h
      cases hentries
      cases h
      rw [recordTypeOrm_ledger hrecord', recordTypeOrm_ledger hrecord, adjust_ledger hcredit,
        adjust_ledger hdebit, List.append_assoc]
      exact ⟨_, rfl, rfl⟩
  | settleTrade dto =>
      simp only [Database.exec, Database.settleTrade, bind_eq_ok] at h
      obtain ⟨_, _, _, _, _, hlegs, h⟩ := h
      cases h
      exact settleLegs_ledger dto.referenceId _ db hlegs

end Rows

/-! ### What the rows say -/

/-- A call that succeeds; its reply is the rows that it appends to the ledger. -/
def ledgered (db : Database) (op : WalletOp) : Except WalletError (List LedgerEntry × Database) :=
  match db.exec .fin some op with
  | .error e => .error e
  | .ok (_, db') => .ok (db'.ledger.drop db.ledger.length, db')

/-- The amount of a movement of a user and an asset. -/
def BalanceMutationDto.amountFor (userId asset : String) (dto : BalanceMutationDto) : ℚ :=
  if dto.userId = userId ∧ dto.asset = asset then dto.amount.value else 0

/-- The sum of the amounts of rows. -/
def rowSum (userId asset : String) (rows : List LedgerEntry) : ℚ :=
  (rows.map fun row => row.dto.amountFor userId asset).sum

/-- What the rows of a call say that came to a user in an asset, or went; the rows of `lock` and `unlock`
say nothing of the kind. -/
def explained (userId asset : String) : WalletOp → List LedgerEntry → ℚ
  | .credit _ _, rows => rowSum userId asset rows
  | .debit _ _, rows => rowSum userId asset rows
  | .lock _, _ => 0
  | .unlock _, _ => 0
  | .internalTransfer _ _, rows => rowSum userId asset rows
  | .settleTrade _, rows => rowSum userId asset rows

/-- What a user sends in an asset. -/
def WalletOp.sent (userId asset : String) : WalletOp → ℚ
  | .credit _ _ => 0
  | .debit _ _ => 0
  | .lock _ => 0
  | .unlock _ => 0
  | .internalTransfer dto _ => dto.amountFor userId asset
  | .settleTrade _ => 0

/-- The call is a transfer that the user sends in the asset. -/
def WalletOp.Sends (userId asset : String) : WalletOp → Prop
  | .internalTransfer dto _ => dto.userId = userId ∧ dto.asset = asset
  | _ => False

/-- The amounts of a call are positive and finite. -/
def WalletOp.Positive (op : WalletOp) : Prop :=
  op.Finite ∧ match op with
    | .credit dto _ => 0 < dto.amount.value
    | .debit dto _ => 0 < dto.amount.value
    | .lock dto => 0 < dto.amount.value
    | .unlock dto => 0 < dto.amount.value
    | .internalTransfer dto _ => 0 < dto.amount.value
    | .settleTrade dto => 0 < dto.price.value ∧ 0 < dto.quantity.value

theorem held_ofUser (userId asset : String) (wallets : SortedMap (String ×ₗ String) WalletEntity) :
    held (ofUser userId asset) wallets = (walletAt wallets (Database.rowKey userId asset)).held := by
  have hweight : ∀ (key : String ×ₗ String) (wallet : WalletEntity), key ≠ Database.rowKey userId asset →
      (if ofUser userId asset key then wallet.held else 0) = 0 := by
    intro key wallet hne
    rw [ofUser, if_neg]
    rw [decide_eq_true_eq]
    exact hne
  rw [held, SortedMap.sumOf_single hweight, SortedMap.weightAt, walletAt]
  cases wallets.find (Database.rowKey userId asset) with
  | none => exact (add_zero 0).symm
  | some wallet => exact if_pos (decide_eq_true rfl)

theorem moved_ofUser (userId asset : String) (dto : BalanceMutationDto) (bucket : Bucket)
    (check : Option String) :
    Write.moved (ofUser userId asset) ⟨Database.rowKey dto.userId dto.asset, bucket, dto.amount, check⟩
      = dto.amountFor userId asset := by
  have hkey : Database.rowKey dto.userId dto.asset = Database.rowKey userId asset
      ↔ dto.userId = userId ∧ dto.asset = asset := by
    rw [Database.rowKey, Database.rowKey, toLex.injective.eq_iff, Prod.mk.injEq]
  rw [Write.moved, BalanceMutationDto.amountFor, ofUser]
  simp only [decide_eq_true_eq, hkey]

theorem amountFor_negated (userId asset : String) (dto : BalanceMutationDto) :
    BalanceMutationDto.amountFor userId asset { dto with amount := dto.amount.negated }
      = -dto.amountFor userId asset := by
  rw [BalanceMutationDto.amountFor, BalanceMutationDto.amountFor]
  split
  · exact value_negated dto.amount
  · exact neg_zero.symm

/-- **A call changes a wallet by what its rows say**, but for a transfer that its user sends: there the row
says that the amount came and it went. -/
theorem moved_explained (userId asset : String) (op : WalletOp) {rows : List LedgerEntry}
    (hrows : rows.map LedgerEntry.dto = op.recorded .fin) :
    moved (ofUser userId asset) (op.typeOrmWrites .fin)
      = explained userId asset op rows - 2 * op.sent userId asset := by
  have hmoved := moved_ofUser userId asset
  have hsum : rowSum userId asset rows
      = ((op.recorded .fin).map (BalanceMutationDto.amountFor userId asset)).sum := by
    rw [← hrows, List.map_map]
    rfl
  cases op with
  | credit dto type =>
      rw [explained, hsum, WalletOp.sent, WalletOp.recorded, WalletOp.typeOrmWrites, moved, List.map_singleton,
        List.map_singleton, adjustWrite, hmoved dto]
      ring
  | debit dto type =>
      rw [explained, hsum, WalletOp.sent, WalletOp.recorded, WalletOp.typeOrmWrites, moved, List.map_singleton,
        List.map_singleton, adjustWrite, hmoved { dto with amount := dto.amount.negated }]
      ring
  | lock dto | unlock dto =>
      rw [explained, WalletOp.sent, WalletOp.typeOrmWrites, moved, List.map_cons, List.map_singleton,
        List.sum_cons, List.sum_singleton, adjustWrite, hmoved { dto with amount := dto.amount.negated },
        hmoved dto, amountFor_negated]
      ring
  | internalTransfer dto toUserId =>
      rw [explained, hsum, WalletOp.sent, WalletOp.recorded, WalletOp.typeOrmWrites, moved, List.map_cons,
        List.map_singleton, List.map_cons, List.map_singleton, List.sum_cons, List.sum_singleton,
        List.sum_cons, List.sum_singleton, adjustWrite, adjustWrite,
        hmoved { dto with amount := dto.amount.negated }, hmoved { dto with userId := toUserId },
        amountFor_negated]
      ring
  | settleTrade dto =>
      rw [explained, hsum, WalletOp.sent, WalletOp.recorded, WalletOp.typeOrmWrites, moved, legWrites,
        List.map_map, List.map_map, mul_zero, sub_zero]
      refine congrArg List.sum (List.map_congr_left fun leg _ => ?_)
      exact hmoved ⟨leg.userId, leg.asset, leg.amount, dto.referenceId⟩ leg.bucket _

/-! ### Runs -/

/-- The state of a run: the ledger is the rows of its calls, and every wallet is what they say, less twice
what its user has sent. -/
structure Ledgered (ops : List WalletOp) (rows : List (List LedgerEntry)) (db : Database) : Prop where
  length : ops.length = rows.length
  finite : AllFinite db.wallets
  ledger : db.ledger = rows.flatten
  wallet : ∀ userId asset, held (ofUser userId asset) db.wallets
    = (List.zipWith (explained userId asset) ops rows).sum
      - 2 * (ops.map (WalletOp.sent userId asset)).sum

/-- **One call that succeeds.** -/
theorem Ledgered.step {ops : List WalletOp} {rows : List (List LedgerEntry)} {db db' : Database}
    {op : WalletOp} {added : List LedgerEntry} (h : Ledgered ops rows db) (hop : op.Finite)
    (hstep : ledgered db op = .ok (added, db')) : Ledgered (ops ++ [op]) (rows ++ [added]) db' := by
  rw [ledgered] at hstep
  cases hexec : db.exec .fin some op with
  | error e => rw [hexec] at hstep; cases hstep
  | ok r =>
      obtain ⟨reply, after⟩ := r
      rw [hexec] at hstep
      obtain ⟨hadded, rfl⟩ := Prod.mk.inj (Except.ok.inj hstep)
      obtain ⟨new, hledger, hnew⟩ := database_exec_ledger hexec
      rw [hledger, List.drop_left] at hadded
      subst hadded
      obtain ⟨hfinite, hheld⟩ := h.finite.exec hop hexec
      refine ⟨?_, hfinite, ?_, fun userId asset => ?_⟩
      · rw [List.length_append, List.length_append, h.length]
        rfl
      · rw [hledger, h.ledger, List.flatten_append, List.flatten_singleton]
      · rw [hheld, h.wallet, moved_explained userId asset op hnew, List.zipWith_append h.length,
          List.sum_append, List.zipWith_cons_cons, List.zipWith_nil_left, List.sum_singleton,
          List.map_append, List.sum_append, List.map_singleton, List.sum_singleton]
        ring

theorem sent_nonneg {op : WalletOp} (h : op.Positive) (userId asset : String) :
    0 ≤ op.sent userId asset := by
  cases op with
  | internalTransfer dto toUserId =>
      rw [WalletOp.sent, BalanceMutationDto.amountFor]
      split
      · exact h.2.le
      · exact le_refl 0
  | credit dto type => exact le_refl 0
  | debit dto type => exact le_refl 0
  | lock dto => exact le_refl 0
  | unlock dto => exact le_refl 0
  | settleTrade dto => exact le_refl 0

theorem sent_eq_zero_iff {op : WalletOp} (h : op.Positive) (userId asset : String) :
    op.sent userId asset = 0 ↔ ¬ op.Sends userId asset := by
  cases op with
  | internalTransfer dto toUserId =>
      rw [WalletOp.sent, BalanceMutationDto.amountFor, WalletOp.Sends]
      split
      · rename_i hsends
        exact iff_of_false h.2.ne' (fun hnot => hnot hsends)
      · rename_i hnot
        exact iff_of_true rfl hnot
  | credit dto type => exact iff_of_true rfl id
  | debit dto type => exact iff_of_true rfl id
  | lock dto => exact iff_of_true rfl id
  | unlock dto => exact iff_of_true rfl id
  | settleTrade dto => exact iff_of_true rfl id

/-- Nothing has been sent exactly if no call sends. -/
theorem sum_sent_eq_zero_iff {ops : List WalletOp} (hops : ∀ op ∈ ops, op.Positive)
    (userId asset : String) :
    (ops.map (WalletOp.sent userId asset)).sum = 0 ↔ ∀ op ∈ ops, ¬ op.Sends userId asset := by
  induction ops with
  | nil => exact iff_of_true rfl fun _ h => nomatch h
  | cons op ops ih =>
      have hop := hops op List.mem_cons_self
      have hrest := fun op' h => hops op' (List.mem_cons_of_mem op h)
      have hsum : 0 ≤ (ops.map (WalletOp.sent userId asset)).sum := by
        refine List.sum_nonneg fun x hx => ?_
        obtain ⟨op', hop', rfl⟩ := List.mem_map.mp hx
        exact sent_nonneg (hrest op' hop') userId asset
      rw [List.map_cons, List.sum_cons, add_eq_zero_iff_of_nonneg (sent_nonneg hop userId asset) hsum,
        sent_eq_zero_iff hop, ih hrest, List.forall_mem_cons]

/-- **When the ledger explains a balance.**  After a run of calls with positive amounts that all succeed,
from empty wallets and an empty ledger, a wallet holds what the rows of its user and asset add up to exactly
if the user has made no transfer in the asset. -/
theorem ledger_explains_iff {db₀ : Database} (hwallets : db₀.wallets = .empty) (hledger : db₀.ledger = [])
    {ops : List WalletOp} (hops : ∀ op ∈ ops, op.Positive) {rows : List (List LedgerEntry)} {db : Database}
    (hrun : Machine.run ledgered db₀ ops = .ok (rows, db)) (userId asset : String) :
    ops.length = rows.length ∧ db.ledger = rows.flatten ∧
      ((walletAt db.wallets (Database.rowKey userId asset)).held
          = (List.zipWith (explained userId asset) ops rows).sum ↔
        ∀ op ∈ ops, ¬ op.Sends userId asset) := by
  have hinit : Ledgered [] [] db₀ := by
    refine ⟨rfl, ?_, hledger, fun userId asset => ?_⟩
    · rw [hwallets]
      exact allFinite_empty
    · rw [hwallets]
      show (0 : ℚ) = 0 - 2 * 0
      norm_num
  have hstate := Machine.run_history_along (P := fun _ op => op.Finite) hinit
    (fun _ _ _ _ _ _ h hop hstep => h.step hop hstep) ops rows db hrun
    (Machine.along_of_forall fun op hop _ => (hops op hop).1)
  refine ⟨hstate.length, hstate.ledger, ?_⟩
  rw [← sum_sent_eq_zero_iff hops, ← held_ofUser, hstate.wallet, sub_eq_self, mul_eq_zero]
  exact or_iff_right two_ne_zero

/-- The database of two users without wallets. -/
def freshDatabase : Database where
  users := (SortedMap.empty.insert "alice" .active).insert "bob" .active
  wallets := .empty
  ledger := []

/-- A deposit, a lock, and a withdrawal of another user. -/
def depositLockWithdraw : List WalletOp :=
  [.credit ⟨"alice", "USDT", .fin 10, "deposit"⟩ .deposit, .lock ⟨"alice", "USDT", .fin 4, "order"⟩,
    .credit ⟨"bob", "USDT", .fin 5, "deposit"⟩ .deposit, .debit ⟨"bob", "USDT", .fin 2, "withdrawal"⟩ .withdrawal]

theorem ledger_explains_iff_depositLockWithdraw :
    ∃ rows db, Machine.run ledgered freshDatabase depositLockWithdraw = .ok (rows, db) ∧
      depositLockWithdraw.length = rows.length ∧ db.ledger = rows.flatten ∧
      ((walletAt db.wallets (Database.rowKey "alice" "USDT")).held
          = (List.zipWith (explained "alice" "USDT") depositLockWithdraw rows).sum ↔
        ∀ op ∈ depositLockWithdraw, ¬ op.Sends "alice" "USDT") := by
  have hsome : (Machine.run ledgered freshDatabase depositLockWithdraw).isOk = true := by decide +kernel
  have hpositive : ∀ op ∈ depositLockWithdraw, op.Positive := by
    intro op hop
    simp only [depositLockWithdraw, List.mem_cons, List.not_mem_nil, or_false] at hop
    rcases hop with rfl | rfl | rfl | rfl <;> exact ⟨rfl, by decide +kernel⟩
  cases hrun : Machine.run ledgered freshDatabase depositLockWithdraw with
  | error e => rw [hrun] at hsome; cases hsome
  | ok r => exact ⟨r.1, r.2, rfl, ledger_explains_iff rfl rfl hpositive hrun "alice" "USDT"⟩

/-- A deposit and a transfer to another user. -/
def depositTransfer : List WalletOp :=
  [.credit ⟨"alice", "USDT", .fin 10, "deposit"⟩ .deposit,
    .internalTransfer ⟨"alice", "USDT", .fin 3, "gift"⟩ "bob"]

/-- **A transfer is recorded as received by its sender**, who has 7 left of 10 while the rows say 13. -/
theorem transfer_recorded_as_received :
    ∃ rows db, Machine.run ledgered freshDatabase depositTransfer = .ok (rows, db) ∧
      (walletAt db.wallets (Database.rowKey "alice" "USDT")).held = 7 ∧
      (List.zipWith (explained "alice" "USDT") depositTransfer rows).sum = 13 := by
  have hvalues : (Machine.run ledgered freshDatabase depositTransfer).toOption.map (fun r =>
      ((walletAt r.2.wallets (Database.rowKey "alice" "USDT")).held,
        (List.zipWith (explained "alice" "USDT") depositTransfer r.1).sum)) = some (7, 13) := by
    decide +kernel
  cases hrun : Machine.run ledgered freshDatabase depositTransfer with
  | error e => rw [hrun] at hvalues; cases hvalues
  | ok r =>
      rw [hrun] at hvalues
      obtain ⟨hheld, hsum⟩ := Prod.mk.inj (Option.some.inj hvalues)
      exact ⟨r.1, r.2, rfl, hheld, hsum⟩

end NexusTrade.Wallet
