import Mathlib.Data.List.Nodup
import NexusTrade.Wallet.Atomic
import NexusTrade.Wallet.Balances

/-!
# The two paths agree

The wallet service does its work on a map in memory or on a database, with two bodies for each call.  They check
different sums, write in a different order, and the keys of the map are texts put together from two others.

* **`Memory.listBalances`** and **`Database.listBalances`** are the two bodies of the query;
* **`Ordinary`** and **`Agreeable`** are the conditions under which the two bodies of a call do the same;
* **`Agrees`** is the relation of the two stores, **`exec_agrees`** the step that keeps it;
* **`paths_agree`**: in every run of such calls the two paths accept and refuse the same ones, and hold the same.
-/

namespace NexusTrade.Wallet

/-! ### Keys -/

/-- A text without the separator of the keys of `balances`. -/
def KeyPart (text : String) : Prop := ':' ∉ text.toList

instance : DecidablePred KeyPart := fun _ => inferInstanceAs (Decidable (¬ _))

theorem toList_balanceKey (userId asset : String) :
    (balanceKey userId asset).toList = userId.toList ++ ':' :: asset.toList := by
  rw [balanceKey, String.toList_append, String.toList_append, List.append_assoc]
  rfl

/-- The two parts of a key are found again. -/
theorem balanceKey_inj {userId asset userId' asset' : String} (huser : KeyPart userId) (hasset : KeyPart asset) :
    balanceKey userId asset = balanceKey userId' asset' ↔ userId = userId' ∧ asset = asset' := by
  rw [← String.toList_inj, toList_balanceKey, toList_balanceKey, List.append_cons_inj_of_notMem huser hasset,
    String.toList_inj, String.toList_inj]
  exact and_congr_right fun _ => and_iff_right rfl

/-! ### Queries -/

/-- `key.split(':')[1]`. -/
def assetOf (key : String) : String := String.ofList ((key.toList.splitOn ':').getD 1 [])

/-- `listBalances` of the memory path, but for the order of the entries. -/
def Memory.listBalances (memory : Memory) (userId : String) : List (String × WalletEntity) :=
  (memory.balances.entries.filter fun entry => (userId ++ ":").toList.isPrefixOf entry.1.toList).map fun entry =>
    (assetOf entry.1, entry.2)

/-- `listBalances` of the TypeORM path. -/
def Database.listBalances (db : Database) (userId : String) : List (String × WalletEntity) :=
  (db.wallets.entries.filter fun entry => (ofLex entry.1).1 = userId).map fun entry => ((ofLex entry.1).2, entry.2)

def WalletService.listBalances (service : WalletService) (userId : String) : List (String × WalletEntity) :=
  match service.dataSource with
  | some db => db.listBalances userId
  | none => service.memory.listBalances userId

def WalletService.ledger (service : WalletService) : List LedgerEntry :=
  match service.dataSource with
  | some db => db.ledger
  | none => service.memory.ledger

theorem assetOf_balanceKey {userId asset : String} (huser : KeyPart userId) (hasset : KeyPart asset) :
    assetOf (balanceKey userId asset) = asset := by
  have hsplit : (userId.toList ++ ':' :: asset.toList).splitOn ':' = [userId.toList, asset.toList] := by
    rw [List.splitOn_append_cons_self, List.splitOn_eq_singleton huser, List.splitOn_eq_singleton hasset]
    rfl
  rw [assetOf, toList_balanceKey, hsplit]
  show String.ofList asset.toList = asset
  exact String.ofList_toList

/-- A key starts with the name of its user only. -/
theorem isPrefixOf_balanceKey {userId userId' asset : String} (huser : KeyPart userId') (hasset : KeyPart asset) :
    (userId ++ ":").toList.isPrefixOf (balanceKey userId' asset).toList = true ↔ userId' = userId := by
  rw [List.isPrefixOf_iff_prefix, toList_balanceKey, String.toList_append]
  constructor
  · rintro ⟨rest, hrest⟩
    have hkey : userId'.toList ++ ':' :: asset.toList = userId.toList ++ ':' :: rest := by
      rw [← hrest, List.append_assoc]
      rfl
    exact String.toList_inj.mp ((List.append_cons_inj_of_notMem huser hasset).mp hkey).1
  · rintro rfl
    refine ⟨asset.toList, ?_⟩
    rw [List.append_assoc]
    rfl

theorem Database.mem_listBalances (db : Database) {userId asset : String} {wallet : WalletEntity} :
    (asset, wallet) ∈ db.listBalances userId ↔ db.wallets.find (Database.rowKey userId asset) = some wallet := by
  rw [Database.listBalances, List.mem_map]
  constructor
  · rintro ⟨⟨key, wallet'⟩, hentry, hsame⟩
    obtain ⟨rfl, rfl⟩ := Prod.mk_inj.mp hsame
    obtain ⟨hmem, huser⟩ := List.mem_filter.mp hentry
    obtain rfl := of_decide_eq_true huser
    exact (SortedMap.mem_entries_iff _ _ _).mp hmem
  · intro hfind
    refine ⟨(Database.rowKey userId asset, wallet), List.mem_filter.mpr ⟨?_, ?_⟩, rfl⟩
    · exact (SortedMap.mem_entries_iff _ _ _).mpr hfind
    · exact decide_eq_true rfl

theorem Database.nodup_listBalances (db : Database) (userId : String) : (db.listBalances userId).Nodup := by
  refine ((db.wallets.keys_nodup.of_map _).filter _).map_on ?_
  rintro ⟨key, wallet⟩ hentry ⟨key', wallet'⟩ hentry' hsame
  have huser := of_decide_eq_true (List.mem_filter.mp hentry).2
  have huser' := of_decide_eq_true (List.mem_filter.mp hentry').2
  obtain ⟨hasset, hwallet⟩ := Prod.mk_inj.mp hsame
  exact Prod.ext (Prod.ext (huser.trans huser'.symm) hasset) hwallet

/-! ### Calls on which the paths agree -/

/-- The users and assets whose balances a call is about. -/
def WalletOp.parts : WalletOp → List (String × String)
  | .credit dto _ | .debit dto _ | .lock dto | .unlock dto => [(dto.userId, dto.asset)]
  | .internalTransfer dto toUserId => [(dto.userId, dto.asset), (toUserId, dto.asset)]
  | .settleTrade dto =>
    [(dto.makerUserId, dto.baseAsset), (dto.makerUserId, dto.quoteAsset),
      (dto.takerUserId, dto.baseAsset), (dto.takerUserId, dto.quoteAsset)]

/-- A transfer of a user to himself. -/
def WalletOp.isSelfTransfer : WalletOp → Bool
  | .internalTransfer dto toUserId => dto.userId = toUserId
  | _ => false

def WalletOp.settlement : WalletOp → Option SettlementDto
  | .settleTrade dto => some dto
  | _ => none

variable (round : Rounding) (column : Column)

/-- A write of the memory path that leaves no balance below zero where it does not check this, and only numbers that
the columns keep. -/
structure Ordinary (balances : SortedMap String WalletEntity) (write : Write String) : Prop where
  unchecked : write.check = none → (write.next round balances).ltZero = false
  amount : column write.amount = some write.amount
  next : column (write.next round balances) = some (write.next round balances)

instance (balances : SortedMap String WalletEntity) (write : Write String) :
    Decidable (Ordinary round column balances write) :=
  decidable_of_iff
    ((write.check = none → (write.next round balances).ltZero = false) ∧
      column write.amount = some write.amount ∧
      column (write.next round balances) = some (write.next round balances))
    ⟨fun h => ⟨h.1, h.2.1, h.2.2⟩, fun h => ⟨h.unchecked, h.amount, h.next⟩⟩

instance (memory : Memory) (legs : List BalanceLeg) : Decidable (memory.CoversAll round legs) :=
  decidable_of_iff _ (settleLegs_ok_iff "" legs memory)

/-- The first leg alone decides whether a settlement that is not covered is refused as a whole. -/
theorem allOrNone_iff {memory : Memory} {legs : List BalanceLeg} :
    memory.AllOrNone round legs ↔
      memory.CoversAll round legs ∨ ∃ first ∈ legs.head?, ¬ memory.Covers round [] first := by
  refine or_congr_right ?_
  constructor
  · rintro ⟨first, rest, rfl, hfirst⟩
    exact ⟨first, rfl, hfirst⟩
  · rintro ⟨first, hhead, hfirst⟩
    obtain ⟨rest, rfl⟩ := List.head?_eq_some_iff.mp hhead
    exact ⟨first, rest, rfl, hfirst⟩

instance (memory : Memory) (written : List BalanceLeg) (leg : BalanceLeg) :
    Decidable (memory.Covers round written leg) := inferInstanceAs (Decidable (_ = _))

instance (memory : Memory) (legs : List BalanceLeg) : Decidable (memory.AllOrNone round legs) :=
  decidable_of_iff _ (allOrNone_iff round).symm

/-- **A call on which the paths agree**: its users may transact, its keys are unambiguous, its writes are ordinary, it
is no transfer of a user to himself, and no settlement that stops halfway. -/
structure Agreeable (users : SortedMap String UserStatus) (service : WalletService) (op : WalletOp) : Prop where
  active : ∀ userId ∈ op.users, ∃ status ∈ users.find userId, ¬(status = .frozen ∨ status = .closed)
  parts : ∀ part ∈ op.parts, KeyPart part.1 ∧ KeyPart part.2
  ordinary : Machine.Along (applyWrite round some) (Ordinary round column) service.memory.balances
    (op.memoryWrites round)
  apart : op.isSelfTransfer = false
  whole : ∀ dto ∈ op.settlement, service.memory.AllOrNone round (settlementLegs round dto)

instance (users : SortedMap String UserStatus) (service : WalletService) (op : WalletOp) :
    Decidable (Agreeable round column users service op) :=
  decidable_of_iff
    ((∀ userId ∈ op.users, ∃ status ∈ users.find userId, ¬(status = .frozen ∨ status = .closed)) ∧
      (∀ part ∈ op.parts, KeyPart part.1 ∧ KeyPart part.2) ∧
      Machine.Along (applyWrite round some) (Ordinary round column) service.memory.balances
        (op.memoryWrites round) ∧
      op.isSelfTransfer = false ∧
      ∀ dto ∈ op.settlement, service.memory.AllOrNone round (settlementLegs round dto))
    ⟨fun h => ⟨h.1, h.2.1, h.2.2.1, h.2.2.2.1, h.2.2.2.2⟩,
      fun h => ⟨h.active, h.parts, h.ordinary, h.apart, h.whole⟩⟩

/-- The answers of the two paths to one call.  Their errors have different texts, a settlement names its path, and the
entry of a debit has the negated amount in memory only. -/
inductive SameReply : Except WalletError WalletReply → Except WalletError WalletReply → Prop
  | threw (error error' : WalletError) : SameReply (.error error) (.error error')
  | entry (entry : LedgerEntry) : SameReply (.ok (.entry entry)) (.ok (.entry entry))
  | debited (dto : BalanceMutationDto) (type : TransactionType) (balanceAfter : Amount) :
      SameReply (.ok (.entry ⟨{ dto with amount := dto.amount.negated }, type, balanceAfter⟩))
        (.ok (.entry ⟨dto, type, balanceAfter⟩))
  | transferred (debit credit : LedgerEntry) :
      SameReply (.ok (.transferred debit credit)) (.ok (.transferred debit credit))
  | settled (mode mode' referenceId : String) (quoteAmount : Amount) (legs : List BalanceLeg) :
      SameReply (.ok (.settled mode referenceId quoteAmount legs)) (.ok (.settled mode' referenceId quoteAmount legs))

/-! ### Numbers that the columns keep -/

section Kept

variable {round column} {db : Database} {userId asset : String}

/-- The columns keep the balances of a wallet. -/
def WalletEntity.Kept (column : Column) (wallet : WalletEntity) : Prop :=
  ∀ bucket, column (wallet.get bucket) = some (wallet.get bucket)

theorem WalletEntity.Kept.set {wallet : WalletEntity} (h : wallet.Kept column) (bucket : Bucket) {amount : Amount}
    (hamount : column amount = some amount) : (wallet.set bucket amount).Kept column := by
  intro other
  by_cases hsame : bucket = other
  · subst hsame
    rw [WalletEntity.get_set_self]
    exact hamount
  · rw [WalletEntity.get_set_ne wallet hsame]
    exact h other

theorem kept_zero (hzero : column .zero = some .zero) : WalletEntity.zero.Kept column := by
  intro bucket
  cases bucket with
  | available => exact hzero
  | locked => exact hzero

theorem storeChanged_kept {old next : Amount} (h : column next = some next) :
    storeChanged column old next = some next := by
  rw [storeChanged]
  split
  · rename_i hsame
    rw [hsame]
  · exact h

/-- **A wallet is saved as it is.** -/
theorem save_kept {wallet : WalletEntity} (h : wallet.Kept column) :
    db.save column userId asset wallet
      = .ok { db with wallets := db.wallets.insert (Database.rowKey userId asset) wallet } := by
  have havailable : column wallet.available = some wallet.available := h .available
  have hlocked : column wallet.locked = some wallet.locked := h .locked
  rw [Database.save]
  cases db.wallets.find (Database.rowKey userId asset) with
  | none => simp only [havailable, hlocked]
  | some row => simp only [storeChanged_kept havailable, storeChanged_kept hlocked]

theorem recordTypeOrm_kept (db : Database) (dto : BalanceMutationDto) (type : TransactionType) {balanceAfter : Amount}
    (hamount : column dto.amount = some dto.amount) (hafter : column balanceAfter = some balanceAfter) :
    db.recordTypeOrm column dto type balanceAfter
      = .ok { db with ledger := db.ledger ++ [⟨dto, type, balanceAfter⟩] } := by
  rw [Database.recordTypeOrm, hamount, hafter]

/-- The row of a wallet is created if there is none; a save later on overwrites it. -/
theorem findOrCreateWallet_kept (db : Database) (userId asset : String) (hzero : column .zero = some .zero) :
    ∃ wallets, db.findOrCreateWallet column userId asset
        = .ok (walletAt db.wallets (Database.rowKey userId asset), { db with wallets := wallets }) ∧
      ∀ wallet, wallets.insert (Database.rowKey userId asset) wallet
        = db.wallets.insert (Database.rowKey userId asset) wallet := by
  rw [Database.findOrCreateWallet, walletAt]
  cases db.wallets.find (Database.rowKey userId asset) with
  | some row => exact ⟨db.wallets, rfl, fun wallet => rfl⟩
  | none =>
      simp only [save_kept (kept_zero hzero), ok_bind]
      exact ⟨_, rfl, fun wallet => SortedMap.insert_insert _ _ _ _⟩

variable {bucket : Bucket} {amount next : Amount}

/-- **A balance is adjusted.** -/
theorem adjust_kept (hzero : column .zero = some .zero)
    (hwallet : (walletAt db.wallets (Database.rowKey userId asset)).Kept column)
    (hnext : next = Amount.add round ((walletAt db.wallets (Database.rowKey userId asset)).get bucket) amount)
    (hpasses : next.ltZero = false) (hkept : column next = some next) :
    db.adjust round column bucket userId asset amount
      = .ok ((walletAt db.wallets (Database.rowKey userId asset)).set bucket next,
          { db with
            wallets := db.wallets.insert (Database.rowKey userId asset)
              ((walletAt db.wallets (Database.rowKey userId asset)).set bucket next) }) := by
  obtain ⟨wallets, hfind, hinsert⟩ := findOrCreateWallet_kept db userId asset hzero
  rw [Database.adjust, hfind, ok_bind]
  simp only [← hnext, assertNonNegative_ok.mpr hpasses, ok_bind, save_kept (hwallet.set bucket hkept), hinsert]

/-- A balance is not adjusted below zero. -/
theorem adjust_refused (hzero : column .zero = some .zero)
    (hnext : next = Amount.add round ((walletAt db.wallets (Database.rowKey userId asset)).get bucket) amount)
    (hrefused : next.ltZero = true) :
    ∃ error, db.adjust round column bucket userId asset amount = .error error := by
  obtain ⟨wallets, hfind, _⟩ := findOrCreateWallet_kept db userId asset hzero
  rw [Database.adjust, hfind, ok_bind]
  simp only [← hnext, assertNonNegative, if_pos hrefused]
  exact ⟨_, rfl⟩

end Kept

/-! ### The two stores -/

/-- **The two stores agree**: what is under a key of the map is in the row of its user and asset, and the ledgers have
the same entries. -/
structure Agrees (column : Column) (memory : Memory) (db : Database) : Prop where
  rows : ∀ userId asset, KeyPart userId → KeyPart asset →
    memory.balances.find (balanceKey userId asset) = db.wallets.find (Database.rowKey userId asset)
  keys : ∀ key wallet, memory.balances.find key = some wallet →
    ∃ userId asset, KeyPart userId ∧ KeyPart asset ∧ key = balanceKey userId asset
  rowKeys : ∀ userId asset wallet, db.wallets.find (Database.rowKey userId asset) = some wallet →
    KeyPart userId ∧ KeyPart asset
  kept : ∀ key wallet, memory.balances.find key = some wallet → wallet.Kept column
  ledger : memory.ledger.Perm db.ledger

namespace Agrees

variable {column : Column} {memory : Memory} {db : Database} {userId asset : String}

theorem current (h : Agrees column memory db) (huser : KeyPart userId) (hasset : KeyPart asset) :
    walletAt db.wallets (Database.rowKey userId asset) = memory.current userId asset := by
  rw [walletAt, Memory.current, h.rows userId asset huser hasset]

theorem current_kept (h : Agrees column memory db) (hzero : column .zero = some .zero) (userId asset : String) :
    (memory.current userId asset).Kept column := by
  rw [Memory.current]
  cases hfind : memory.balances.find (balanceKey userId asset) with
  | none => exact kept_zero hzero
  | some wallet => exact h.kept _ _ hfind

/-- A wallet is written to both. -/
theorem set (h : Agrees column memory db) (huser : KeyPart userId) (hasset : KeyPart asset) {wallet : WalletEntity}
    (hkept : wallet.Kept column) :
    Agrees column (memory.set userId asset wallet)
      { db with wallets := db.wallets.insert (Database.rowKey userId asset) wallet } where
  rows userId' asset' huser' hasset' := by
    rw [Memory.set, SortedMap.find_insert, SortedMap.find_insert, h.rows userId' asset' huser' hasset']
    refine if_congr ?_ rfl rfl
    rw [balanceKey_inj huser' hasset']
    exact Prod.mk_inj.symm
  keys key wallet' hfind := by
    rw [Memory.set, SortedMap.find_insert] at hfind
    split at hfind
    · rename_i hkey
      exact ⟨userId, asset, huser, hasset, hkey⟩
    · exact h.keys key wallet' hfind
  rowKeys userId' asset' wallet' hfind := by
    rw [SortedMap.find_insert] at hfind
    split at hfind
    · rename_i hkey
      obtain ⟨rfl, rfl⟩ := Prod.mk_inj.mp hkey
      exact ⟨huser, hasset⟩
    · exact h.rowKeys userId' asset' wallet' hfind
  kept key wallet' hfind := by
    rw [Memory.set, SortedMap.find_insert] at hfind
    split at hfind
    · cases hfind
      exact hkept
    · exact h.kept key wallet' hfind
  ledger := h.ledger

/-- An entry is written to both. -/
theorem record (h : Agrees column memory db) (entry : LedgerEntry) :
    Agrees column { memory with ledger := memory.ledger ++ [entry] } { db with ledger := db.ledger ++ [entry] } :=
  { h with ledger := h.ledger.append_right [entry] }

/-- Two entries are written to both, in a different order. -/
theorem record_pair (h : Agrees column memory db) (first second : LedgerEntry) :
    Agrees column { memory with ledger := memory.ledger ++ [first] ++ [second] }
      { db with ledger := db.ledger ++ [second] ++ [first] } := by
  refine { h with ledger := ?_ }
  rw [List.append_assoc, List.append_assoc]
  exact h.ledger.append (List.Perm.swap second first [])

theorem mem_listBalances (h : Agrees column memory db) (huser : KeyPart userId) {wallet : WalletEntity} :
    (asset, wallet) ∈ memory.listBalances userId ↔
      KeyPart asset ∧ memory.balances.find (balanceKey userId asset) = some wallet := by
  rw [Memory.listBalances, List.mem_map]
  constructor
  · rintro ⟨⟨key, wallet'⟩, hentry, hsame⟩
    obtain ⟨rfl, rfl⟩ := Prod.mk_inj.mp hsame
    obtain ⟨hmem, hprefix⟩ := List.mem_filter.mp hentry
    have hfind := (SortedMap.mem_entries_iff _ _ _).mp hmem
    obtain ⟨userId', asset, huser', hasset, rfl⟩ := h.keys key wallet' hfind
    obtain rfl := (isPrefixOf_balanceKey huser' hasset).mp hprefix
    rw [assetOf_balanceKey huser' hasset]
    exact ⟨hasset, hfind⟩
  · rintro ⟨hasset, hfind⟩
    refine ⟨(balanceKey userId asset, wallet), List.mem_filter.mpr ⟨?_, ?_⟩, ?_⟩
    · exact (SortedMap.mem_entries_iff _ _ _).mpr hfind
    · exact (isPrefixOf_balanceKey huser hasset).mpr rfl
    · rw [assetOf_balanceKey huser hasset]

theorem nodup_listBalances (h : Agrees column memory db) (userId : String) :
    (memory.listBalances userId).Nodup := by
  have hsplit : ∀ entry ∈ memory.balances.entries.filter fun entry =>
      (userId ++ ":").toList.isPrefixOf entry.1.toList,
      entry.1 = balanceKey userId (assetOf entry.1) := by
    rintro ⟨key, wallet⟩ hentry
    obtain ⟨hmem, hprefix⟩ := List.mem_filter.mp hentry
    obtain ⟨userId', asset, huser', hasset, rfl⟩ := h.keys key wallet ((SortedMap.mem_entries_iff _ _ _).mp hmem)
    obtain rfl := (isPrefixOf_balanceKey huser' hasset).mp hprefix
    rw [assetOf_balanceKey huser' hasset]
  refine ((memory.balances.keys_nodup.of_map _).filter _).map_on ?_
  intro entry hentry entry' hentry' hsame
  obtain ⟨hasset, hwallet⟩ := Prod.mk_inj.mp hsame
  refine Prod.ext ?_ hwallet
  rw [hsplit entry hentry, hsplit entry' hentry', hasset]

/-- **The two paths list the same balances.** -/
theorem listBalances (h : Agrees column memory db) (huser : KeyPart userId) :
    (memory.listBalances userId).Perm (db.listBalances userId) := by
  refine (List.perm_ext_iff_of_nodup (h.nodup_listBalances userId) (db.nodup_listBalances userId)).mpr ?_
  rintro ⟨asset, wallet⟩
  rw [h.mem_listBalances huser, db.mem_listBalances]
  constructor
  · rintro ⟨hasset, hfind⟩
    rw [← h.rows userId asset huser hasset]
    exact hfind
  · intro hfind
    have hasset := (h.rowKeys userId asset wallet hfind).2
    rw [h.rows userId asset huser hasset]
    exact ⟨hasset, hfind⟩

end Agrees

theorem Memory.set_set (memory : Memory) (userId asset : String) (wallet wallet' : WalletEntity) :
    (memory.set userId asset wallet).set userId asset wallet' = memory.set userId asset wallet' := by
  rw [Memory.set, Memory.set, Memory.set, SortedMap.insert_insert]

theorem Memory.current_set_self (memory : Memory) (userId asset : String) (wallet : WalletEntity) :
    (memory.set userId asset wallet).current userId asset = wallet := by
  rw [Memory.current, Memory.set, SortedMap.find_insert, if_pos rfl]
  rfl

theorem Memory.current_set_ne (memory : Memory) {userId asset userId' asset' : String}
    (hne : balanceKey userId' asset' ≠ balanceKey userId asset) (wallet : WalletEntity) :
    (memory.set userId asset wallet).current userId' asset' = memory.current userId' asset' := by
  rw [Memory.current, Memory.set, SortedMap.find_insert, if_neg hne]
  rfl

section Steps

variable {round : Rounding} {column : Column} {memory : Memory} {db : Database} {userId asset : String}
  {next : Amount}

/-- A balance is adjusted in both. -/
theorem Agrees.adjust (h : Agrees column memory db) (hzero : column .zero = some .zero) (huser : KeyPart userId)
    (hasset : KeyPart asset) (bucket : Bucket) (amount : Amount)
    (hnext : next = Amount.add round ((memory.current userId asset).get bucket) amount)
    (hpasses : next.ltZero = false) (hkept : column next = some next) :
    ∃ wallets, db.adjust round column bucket userId asset amount
        = .ok ((memory.current userId asset).set bucket next, { db with wallets := wallets }) ∧
      Agrees column (memory.set userId asset ((memory.current userId asset).set bucket next))
        { db with wallets := wallets } := by
  have hwallet := h.current_kept hzero userId asset
  rw [← h.current huser hasset] at hnext hwallet ⊢
  exact ⟨_, adjust_kept hzero hwallet hnext hpasses hkept, h.set huser hasset (hwallet.set bucket hkept)⟩

/-- A balance is adjusted in neither. -/
theorem Agrees.refused (h : Agrees column memory db) (hzero : column .zero = some .zero) (huser : KeyPart userId)
    (hasset : KeyPart asset) (bucket : Bucket) (amount : Amount)
    (hnext : next = Amount.add round ((memory.current userId asset).get bucket) amount)
    (hrefused : next.ltZero = true) :
    ∃ error, db.adjust round column bucket userId asset amount = .error error := by
  rw [← h.current huser hasset] at hnext
  exact adjust_refused hzero hnext hrefused

/-- A wallet that has been adjusted is saved once more. -/
theorem Agrees.save {wallet wallet' : WalletEntity} (h : Agrees column (memory.set userId asset wallet) db)
    (huser : KeyPart userId) (hasset : KeyPart asset) (hkept : wallet'.Kept column) :
    ∃ wallets, db.save column userId asset wallet' = .ok { db with wallets := wallets } ∧
      Agrees column (memory.set userId asset wallet') { db with wallets := wallets } := by
  refine ⟨_, save_kept hkept, ?_⟩
  have hset := h.set huser hasset hkept
  rw [Memory.set_set] at hset
  exact hset

/-- An amount is moved from one balance of a wallet to the other. -/
theorem Agrees.shift (h : Agrees column memory db) (hzero : column .zero = some .zero) (huser : KeyPart userId)
    (hasset : KeyPart asset) (bucket other : Bucket) (amount : Amount)
    (hnext : next = Amount.subtract round ((memory.current userId asset).get bucket) amount)
    (hpasses : next.ltZero = false) (hkept : column next = some next) {total : Amount}
    (htotal : column total = some total) :
    ∃ wallets wallets', db.adjust round column bucket userId asset amount.negated
        = .ok ((memory.current userId asset).set bucket next, { db with wallets := wallets }) ∧
      ({ db with wallets := wallets } : Database).save column userId asset
          (((memory.current userId asset).set bucket next).set other total)
        = .ok { db with wallets := wallets' } ∧
      Agrees column (memory.set userId asset (((memory.current userId asset).set bucket next).set other total))
        { db with wallets := wallets' } := by
  obtain ⟨wallets, hadjust, hagrees⟩ := h.adjust hzero huser hasset bucket amount.negated hnext hpasses hkept
  have hwallet := ((h.current_kept hzero userId asset).set bucket hkept).set other htotal
  obtain ⟨wallets', hsave, hagrees'⟩ := hagrees.save huser hasset hwallet
  exact ⟨wallets, wallets', hadjust, hsave, hagrees'⟩

theorem assertNonNegative_refused {value : Amount} (h : value.ltZero = true) (label : String) :
    assertNonNegative value label = .error (.error (label ++ " must be non-negative")) := if_pos h

theorem assertUserCanTransact_active (hactive : ∃ status ∈ db.users.find userId,
    ¬(status = .frozen ∨ status = .closed)) : db.assertUserCanTransact userId = .ok () := by
  obtain ⟨status, hfind, hactive⟩ := hactive
  rw [Database.assertUserCanTransact, hfind]
  exact if_neg hactive

/-- The second of two ordinary writes, once the first is made. -/
theorem ordinary_second {balances : SortedMap String WalletEntity} {first second : Write String}
    (h : Machine.Along (applyWrite round some) (Ordinary round column) balances [first, second])
    (hverify : first.verify round balances = .ok ()) :
    Ordinary round column (balances.insert first.key
      ((walletAt balances first.key).set first.bucket (first.next round balances))) second :=
  (h.2 _ _ (applyWrite_written hverify)).1

/-- Two ordinary writes to one wallet. -/
theorem ordinary_pair {bucket other : Bucket} (hne : bucket ≠ other) {amount : Amount} {label : String}
    (h : Machine.Along (applyWrite round some) (Ordinary round column) memory.balances
      [⟨balanceKey userId asset, bucket, amount.negated, some label⟩,
        ⟨balanceKey userId asset, other, amount, none⟩])
    (hnext : next = Amount.subtract round ((memory.current userId asset).get bucket) amount)
    (hpasses : next.ltZero = false) :
    column amount = some amount ∧
      column (Amount.add round ((memory.current userId asset).get other) amount)
        = some (Amount.add round ((memory.current userId asset).get other) amount) := by
  have hverify : assertNonNegative next label = .ok () := assertNonNegative_ok.mpr hpasses
  rw [hnext] at hverify
  have hsecond := ordinary_second h hverify
  have hkept := hsecond.next
  rw [Write.next, walletAt_insert, WalletEntity.get_set_ne _ hne] at hkept
  exact ⟨hsecond.amount, hkept⟩

/-- **What the two bodies of a call come to**: both throw, and the map is as before, or both answer and agree. -/
def Alike (column : Column) (memory : Memory) (db : Database) (inMemory : Except WalletError WalletReply × Memory)
    (inDatabase : Except WalletError (WalletReply × Database)) : Prop :=
  (∃ error error', inMemory = (.error error, memory) ∧ inDatabase = .error error') ∨
  ∃ reply memory' reply' db', inMemory = (.ok reply, memory') ∧ inDatabase = .ok (reply', db') ∧
    SameReply (.ok reply) (.ok reply') ∧ Agrees column memory' db' ∧ db'.users = db.users

/-! ### The calls -/

theorem credit_agrees (h : Agrees column memory db) (hzero : column .zero = some .zero) {dto : BalanceMutationDto}
    {type : TransactionType} (hop : Agreeable round column db.users ⟨none, memory⟩ (.credit dto type)) :
    Alike column memory db (memory.exec round (.credit dto type)) (db.exec round column (.credit dto type)) := by
  obtain ⟨huser, hasset⟩ := hop.parts _ (List.mem_singleton_self _)
  have hactive := assertUserCanTransact_active (hop.active dto.userId (List.mem_singleton_self _))
  obtain ⟨next, hnext⟩ : ∃ next, next = Amount.add round (memory.current dto.userId dto.asset).available dto.amount :=
    ⟨_, rfl⟩
  have hamount : column dto.amount = some dto.amount := hop.ordinary.1.amount
  have hpasses : next.ltZero = false := by
    rw [hnext]
    exact hop.ordinary.1.unchecked rfl
  have hkept : column next = some next := by
    rw [hnext]
    exact hop.ordinary.1.next
  obtain ⟨wallets, hadjust, hagrees⟩ := h.adjust hzero huser hasset .available dto.amount hnext hpasses hkept
  have hmemory : memory.exec round (.credit dto type) = (.ok (.entry ⟨dto, type, next⟩),
      { memory.set dto.userId dto.asset ((memory.current dto.userId dto.asset).set .available next) with
        ledger := memory.ledger ++ [⟨dto, type, next⟩] }) := by
    rw [hnext]
    rfl
  have hdatabase : db.exec round column (.credit dto type) = .ok (.entry ⟨dto, type, next⟩,
      { db with wallets := wallets, ledger := db.ledger ++ [⟨dto, type, next⟩] }) := by
    simp only [Database.exec, Database.credit, Database.adjustAvailable, hactive, hadjust, ok_bind, WalletEntity.set,
      recordTypeOrm_kept _ _ _ hamount hkept]
  exact .inr ⟨_, _, _, _, hmemory, hdatabase, .entry _, hagrees.record _, rfl⟩

theorem debit_agrees (h : Agrees column memory db) (hzero : column .zero = some .zero) {dto : BalanceMutationDto}
    {type : TransactionType} (hop : Agreeable round column db.users ⟨none, memory⟩ (.debit dto type)) :
    Alike column memory db (memory.exec round (.debit dto type)) (db.exec round column (.debit dto type)) := by
  obtain ⟨huser, hasset⟩ := hop.parts _ (List.mem_singleton_self _)
  have hactive := assertUserCanTransact_active (hop.active dto.userId (List.mem_singleton_self _))
  obtain ⟨next, hnext⟩ : ∃ next, next = Amount.subtract round (memory.current dto.userId dto.asset).available
    dto.amount := ⟨_, rfl⟩
  have hamount : column dto.amount.negated = some dto.amount.negated := hop.ordinary.1.amount
  have hkept : column next = some next := by
    rw [hnext]
    exact hop.ordinary.1.next
  cases hpasses : next.ltZero with
  | true =>
      obtain ⟨error, hrefused⟩ := h.refused hzero huser hasset .available dto.amount.negated hnext hpasses
      have hmemory : memory.exec round (.debit dto type)
          = (.error (.error ("available" ++ " must be non-negative")), memory) := by
        simp only [Memory.exec, Memory.debit, ← hnext, assertNonNegative_refused hpasses]
        rfl
      have hdatabase : db.exec round column (.debit dto type) = .error error := by
        simp only [Database.exec, Database.debit, Database.adjustAvailable, hactive, hrefused, ok_bind]
        rfl
      exact .inl ⟨_, _, hmemory, hdatabase⟩
  | false =>
      obtain ⟨wallets, hadjust, hagrees⟩ :=
        h.adjust hzero huser hasset .available dto.amount.negated hnext hpasses hkept
      have hmemory : memory.exec round (.debit dto type) = (.ok (.entry ⟨{ dto with amount := dto.amount.negated }, type, next⟩),
          { memory.set dto.userId dto.asset ((memory.current dto.userId dto.asset).set .available next) with
            ledger := memory.ledger ++ [⟨{ dto with amount := dto.amount.negated }, type, next⟩] }) := by
        simp only [Memory.exec, Memory.debit, ← hnext, assertNonNegative_ok.mpr hpasses]
        rfl
      have hdatabase : db.exec round column (.debit dto type) = .ok (.entry ⟨dto, type, next⟩,
          { db with
            wallets := wallets
            ledger := db.ledger ++ [⟨{ dto with amount := dto.amount.negated }, type, next⟩] }) := by
        have hrecord := recordTypeOrm_kept { db with wallets := wallets } { dto with amount := dto.amount.negated } type
          hamount hkept
        simp only [Database.exec, Database.debit, Database.adjustAvailable, hactive, hadjust, ok_bind,
          WalletEntity.set, hrecord]
      exact .inr ⟨_, _, _, _, hmemory, hdatabase, .debited dto type next, hagrees.record _, rfl⟩

theorem lock_agrees (h : Agrees column memory db) (hzero : column .zero = some .zero) {dto : BalanceMutationDto}
    (hop : Agreeable round column db.users ⟨none, memory⟩ (.lock dto)) :
    Alike column memory db (memory.exec round (.lock dto)) (db.exec round column (.lock dto)) := by
  obtain ⟨huser, hasset⟩ := hop.parts _ (List.mem_singleton_self _)
  have hactive := assertUserCanTransact_active (hop.active dto.userId (List.mem_singleton_self _))
  obtain ⟨next, hnext⟩ : ∃ next, next = Amount.subtract round (memory.current dto.userId dto.asset).available
    dto.amount := ⟨_, rfl⟩
  have hkept : column next = some next := by
    rw [hnext]
    exact hop.ordinary.1.next
  cases hpasses : next.ltZero with
  | true =>
      obtain ⟨error, hrefused⟩ := h.refused hzero huser hasset .available dto.amount.negated hnext hpasses
      have hmemory : memory.exec round (.lock dto)
          = (.error (.error ("available" ++ " must be non-negative")), memory) := by
        simp only [Memory.exec, Memory.lock, ← hnext, assertNonNegative_refused hpasses]
        rfl
      have hdatabase : db.exec round column (.lock dto) = .error error := by
        simp only [Database.exec, Database.lock, Database.adjustAvailable, hactive, hrefused, ok_bind]
        rfl
      exact .inl ⟨_, _, hmemory, hdatabase⟩
  | false =>
      obtain ⟨hamount, htotal⟩ := ordinary_pair Bucket.noConfusion hop.ordinary hnext hpasses
      obtain ⟨wallets, wallets', hadjust, hsave, hagrees⟩ :=
        h.shift hzero huser hasset .available .locked dto.amount hnext hpasses hkept htotal
      have hmemory : memory.exec round (.lock dto) = (.ok (.entry ⟨dto, .tradeSettlement, next⟩),
          { memory.set dto.userId dto.asset (((memory.current dto.userId dto.asset).set .available next).set .locked
              (Amount.add round (memory.current dto.userId dto.asset).locked dto.amount)) with
            ledger := memory.ledger ++ [⟨dto, .tradeSettlement, next⟩] }) := by
        simp only [Memory.exec, Memory.lock, ← hnext, assertNonNegative_ok.mpr hpasses]
        rfl
      have hdatabase : db.exec round column (.lock dto) = .ok (.entry ⟨dto, .tradeSettlement, next⟩,
          { db with wallets := wallets', ledger := db.ledger ++ [⟨dto, .tradeSettlement, next⟩] }) := by
        simp only [WalletEntity.set, WalletEntity.get] at hadjust hsave
        simp only [Database.exec, Database.lock, Database.adjustAvailable, hactive, hadjust, ok_bind, hsave,
          recordTypeOrm_kept _ _ _ hamount hkept]
      exact .inr ⟨_, _, _, _, hmemory, hdatabase, .entry _, hagrees.record _, rfl⟩

theorem unlock_agrees (h : Agrees column memory db) (hzero : column .zero = some .zero) {dto : BalanceMutationDto}
    (hop : Agreeable round column db.users ⟨none, memory⟩ (.unlock dto)) :
    Alike column memory db (memory.exec round (.unlock dto)) (db.exec round column (.unlock dto)) := by
  obtain ⟨huser, hasset⟩ := hop.parts _ (List.mem_singleton_self _)
  have hactive := assertUserCanTransact_active (hop.active dto.userId (List.mem_singleton_self _))
  obtain ⟨next, hnext⟩ : ∃ next, next = Amount.subtract round (memory.current dto.userId dto.asset).locked
    dto.amount := ⟨_, rfl⟩
  have hkept : column next = some next := by
    rw [hnext]
    exact hop.ordinary.1.next
  cases hpasses : next.ltZero with
  | true =>
      obtain ⟨error, hrefused⟩ := h.refused hzero huser hasset .locked dto.amount.negated hnext hpasses
      have hmemory : memory.exec round (.unlock dto)
          = (.error (.error ("locked" ++ " must be non-negative")), memory) := by
        simp only [Memory.exec, Memory.unlock, ← hnext, assertNonNegative_refused hpasses]
        rfl
      have hdatabase : db.exec round column (.unlock dto) = .error error := by
        simp only [Database.exec, Database.unlock, Database.adjustLocked, hactive, hrefused, ok_bind]
        rfl
      exact .inl ⟨_, _, hmemory, hdatabase⟩
  | false =>
      obtain ⟨hamount, htotal⟩ := ordinary_pair Bucket.noConfusion hop.ordinary hnext hpasses
      obtain ⟨wallets, wallets', hadjust, hsave, hagrees⟩ :=
        h.shift hzero huser hasset .locked .available dto.amount hnext hpasses hkept htotal
      have hmemory : memory.exec round (.unlock dto) = (.ok (.entry ⟨dto, .tradeSettlement,
            Amount.add round (memory.current dto.userId dto.asset).available dto.amount⟩),
          { memory.set dto.userId dto.asset (((memory.current dto.userId dto.asset).set .locked next).set .available
              (Amount.add round (memory.current dto.userId dto.asset).available dto.amount)) with
            ledger := memory.ledger ++ [⟨dto, .tradeSettlement,
              Amount.add round (memory.current dto.userId dto.asset).available dto.amount⟩] }) := by
        simp only [Memory.exec, Memory.unlock, ← hnext, assertNonNegative_ok.mpr hpasses]
        rfl
      have hdatabase : db.exec round column (.unlock dto) = .ok (.entry ⟨dto, .tradeSettlement,
            Amount.add round (memory.current dto.userId dto.asset).available dto.amount⟩,
          { db with
            wallets := wallets'
            ledger := db.ledger ++ [⟨dto, .tradeSettlement,
              Amount.add round (memory.current dto.userId dto.asset).available dto.amount⟩] }) := by
        simp only [WalletEntity.set, WalletEntity.get] at hadjust hsave
        simp only [WalletEntity.get] at htotal
        simp only [Database.exec, Database.unlock, Database.adjustLocked, hactive, hadjust, ok_bind, hsave,
          recordTypeOrm_kept _ _ _ hamount htotal]
      exact .inr ⟨_, _, _, _, hmemory, hdatabase, .entry _, hagrees.record _, rfl⟩

theorem internalTransfer_agrees (h : Agrees column memory db) (hzero : column .zero = some .zero)
    {dto : BalanceMutationDto} {toUserId : String}
    (hop : Agreeable round column db.users ⟨none, memory⟩ (.internalTransfer dto toUserId)) :
    Alike column memory db (memory.exec round (.internalTransfer dto toUserId))
      (db.exec round column (.internalTransfer dto toUserId)) := by
  obtain ⟨huser, hasset⟩ := hop.parts _ List.mem_cons_self
  obtain ⟨huser', _⟩ := hop.parts _ (List.mem_cons_of_mem _ (List.mem_singleton_self _))
  have hactive := assertUserCanTransact_active (hop.active dto.userId List.mem_cons_self)
  have hactive' := assertUserCanTransact_active (hop.active toUserId
    (List.mem_cons_of_mem _ (List.mem_singleton_self _)))
  have hne : balanceKey dto.userId dto.asset ≠ balanceKey toUserId dto.asset :=
    fun hkey => of_decide_eq_false hop.apart ((balanceKey_inj huser hasset).mp hkey).1
  obtain ⟨next, hnext⟩ : ∃ next, next = Amount.subtract round (memory.current dto.userId dto.asset).available
    dto.amount := ⟨_, rfl⟩
  have hkept : column next = some next := by
    rw [hnext]
    exact hop.ordinary.1.next
  cases hpasses : next.ltZero with
  | true =>
      obtain ⟨error, hrefused⟩ := h.refused hzero huser hasset .available dto.amount.negated hnext hpasses
      have hmemory : memory.exec round (.internalTransfer dto toUserId)
          = (.error (.error ("available" ++ " must be non-negative")), memory) := by
        simp only [Memory.exec, Memory.internalTransfer, ← hnext, assertNonNegative_refused hpasses]
        rfl
      have hdatabase : db.exec round column (.internalTransfer dto toUserId) = .error error := by
        simp only [Database.exec, Database.internalTransfer, Database.adjustAvailable, hactive, hactive', hrefused,
          ok_bind]
        rfl
      exact .inl ⟨_, _, hmemory, hdatabase⟩
  | false =>
      obtain ⟨wallets, hadjust, hagrees⟩ :=
        h.adjust hzero huser hasset .available dto.amount.negated hnext hpasses hkept
      obtain ⟨debited, hdebited⟩ : ∃ debited, debited = memory.set dto.userId dto.asset
        ((memory.current dto.userId dto.asset).set .available next) := ⟨_, rfl⟩
      have hverify : assertNonNegative next "available" = .ok () := assertNonNegative_ok.mpr hpasses
      rw [hnext] at hverify
      obtain ⟨hunchecked, hamount, htotal⟩ := ordinary_second hop.ordinary hverify
      obtain ⟨total, hsum⟩ : ∃ total, total = Amount.add round (debited.current toUserId dto.asset).available
        dto.amount := ⟨_, rfl⟩
      have hsame : total = Write.next round (memory.balances.insert (balanceKey dto.userId dto.asset)
          ((memory.current dto.userId dto.asset).set .available
            (Amount.subtract round (memory.current dto.userId dto.asset).available dto.amount)))
          ⟨balanceKey toUserId dto.asset, .available, dto.amount, none⟩ := by
        rw [hsum, hdebited, hnext]
        rfl
      have htotalPasses : total.ltZero = false := by
        rw [hsame]
        exact hunchecked rfl
      have htotalKept : column total = some total := by
        rw [hsame]
        exact htotal
      rw [← hdebited] at hagrees
      obtain ⟨wallets', hadjust', hagrees'⟩ :=
        hagrees.adjust hzero huser' hasset .available dto.amount hsum htotalPasses htotalKept
      have hdebit : ((debited.set toUserId dto.asset ((debited.current toUserId dto.asset).set .available
          total)).current dto.userId dto.asset).available = next := by
        rw [Memory.current_set_ne _ hne, hdebited, Memory.current_set_self]
        rfl
      have hmemory : memory.exec round (.internalTransfer dto toUserId)
          = (.ok (.transferred ⟨dto, .internalTransfer, next⟩
              ⟨{ dto with userId := toUserId }, .internalTransfer, total⟩),
            { debited.set toUserId dto.asset ((debited.current toUserId dto.asset).set .available total) with
              ledger := debited.ledger ++ [⟨{ dto with userId := toUserId }, .internalTransfer, total⟩] ++
                [⟨dto, .internalTransfer, next⟩] }) := by
        have hset : memory.set dto.userId dto.asset { memory.current dto.userId dto.asset with available := next }
            = debited := hdebited.symm
        have hcredit : debited.credit round { dto with userId := toUserId } .internalTransfer
            = (⟨{ dto with userId := toUserId }, .internalTransfer, total⟩,
              { debited.set toUserId dto.asset ((debited.current toUserId dto.asset).set .available total) with
                ledger := debited.ledger ++ [⟨{ dto with userId := toUserId }, .internalTransfer, total⟩] }) := by
          rw [hsum]
          rfl
        simp only [Memory.exec, Memory.internalTransfer, ← hnext, assertNonNegative_ok.mpr hpasses, hset, hcredit,
          Memory.record]
        rw [← hdebit]
        rfl
      have hdatabase : db.exec round column (.internalTransfer dto toUserId)
          = .ok (.transferred ⟨dto, .internalTransfer, next⟩
              ⟨{ dto with userId := toUserId }, .internalTransfer, total⟩,
            { db with
              wallets := wallets'
              ledger := db.ledger ++ [⟨dto, .internalTransfer, next⟩] ++
                [⟨{ dto with userId := toUserId }, .internalTransfer, total⟩] }) := by
        have hrecord := recordTypeOrm_kept { db with wallets := wallets' } dto .internalTransfer hamount hkept
        have hrecord' := recordTypeOrm_kept
          { db with wallets := wallets', ledger := db.ledger ++ [⟨dto, .internalTransfer, next⟩] }
          { dto with userId := toUserId } .internalTransfer hamount htotalKept
        simp only [Database.exec, Database.internalTransfer, Database.adjustAvailable, hactive, hactive', hadjust,
          hadjust', ok_bind, WalletEntity.set, hrecord, hrecord']
      exact .inr ⟨_, _, _, _, hmemory, hdatabase, .transferred _ _, hagrees'.record_pair _ _, rfl⟩

/-- A leg of a settlement is refused by both paths, or written by both. -/
theorem settleLeg_agrees (h : Agrees column memory db) (hzero : column .zero = some .zero) (referenceId : String)
    {leg : BalanceLeg} (huser : KeyPart leg.userId) (hasset : KeyPart leg.asset)
    (hamount : column leg.amount = some leg.amount)
    (hnext : next = Amount.add round ((memory.current leg.userId leg.asset).get leg.bucket) leg.amount)
    (hkept : column next = some next) :
    (next.ltZero = true ∧ (∃ error, memory.settleLeg round referenceId leg = (.error error, memory)) ∧
      ∃ error, db.settleLeg round column referenceId leg = .error error) ∨
    (next.ltZero = false ∧ ∃ memory' db', memory.settleLeg round referenceId leg = (.ok (), memory') ∧
      memory'.balances = memory.balances.insert (balanceKey leg.userId leg.asset)
        ((memory.current leg.userId leg.asset).set leg.bucket next) ∧
      db.settleLeg round column referenceId leg = .ok db' ∧ Agrees column memory' db' ∧ db'.users = db.users) := by
  cases hpasses : next.ltZero with
  | true =>
      obtain ⟨error, hrefused⟩ := h.refused hzero huser hasset leg.bucket leg.amount hnext hpasses
      have hmemory : memory.settleLeg round referenceId leg = (.error (.error
          (balanceLabel leg.userId leg.asset leg.bucket ++ " must be non-negative")), memory) := by
        simp only [Memory.settleLeg, ← hnext, assertNonNegative_refused hpasses]
      have hdatabase : db.settleLeg round column referenceId leg = .error error := by
        simp only [Database.settleLeg, hrefused]
        rfl
      exact .inl ⟨rfl, ⟨_, hmemory⟩, error, hdatabase⟩
  | false =>
      obtain ⟨wallets, hadjust, hagrees⟩ := h.adjust hzero huser hasset leg.bucket leg.amount hnext hpasses hkept
      have hafter := ((h.current_kept hzero leg.userId leg.asset).set leg.bucket hkept) .available
      have hrecord := recordTypeOrm_kept { db with wallets := wallets }
        ⟨leg.userId, leg.asset, leg.amount, referenceId⟩ .tradeSettlement hamount hafter
      refine .inr ⟨rfl, _, _, ?_, rfl, ?_, hagrees.record ⟨⟨leg.userId, leg.asset, leg.amount, referenceId⟩,
        .tradeSettlement, ((memory.current leg.userId leg.asset).set leg.bucket next).available⟩, rfl⟩
      · simp only [Memory.settleLeg, ← hnext, assertNonNegative_ok.mpr hpasses]
        rfl
      · simp only [Database.settleLeg, hadjust, ok_bind]
        exact hrecord

/-- **The loop of `settleTrade`** throws in both paths, or agrees. -/
theorem settleLegs_agrees (hzero : column .zero = some .zero) (referenceId : String) (legs : List BalanceLeg) :
    ∀ {memory : Memory} {db : Database}, Agrees column memory db →
      (∀ leg ∈ legs, KeyPart leg.userId ∧ KeyPart leg.asset) →
      Machine.Along (applyWrite round some) (Ordinary round column) memory.balances (legWrites balanceKey legs) →
      (∃ error error', (memory.settleLegs round referenceId legs).1 = .error error ∧
        db.settleLegs round column referenceId legs = .error error') ∨
      ∃ memory' db', memory.settleLegs round referenceId legs = (.ok (), memory') ∧
        db.settleLegs round column referenceId legs = .ok db' ∧ Agrees column memory' db' ∧ db'.users = db.users := by
  induction legs with
  | nil => exact fun h _ _ => .inr ⟨_, _, rfl, rfl, h, rfl⟩
  | cons leg legs ih =>
      intro memory db h hparts hordinary
      obtain ⟨huser, hasset⟩ := hparts leg List.mem_cons_self
      rcases settleLeg_agrees h hzero referenceId huser hasset hordinary.1.amount rfl hordinary.1.next with
        ⟨_, ⟨error, hmemory⟩, error', hdatabase⟩ | ⟨hpasses, memory', db', hmemory, hbalances, hdatabase, h', husers⟩
      · refine .inl ⟨error, error', ?_, ?_⟩
        · rw [Memory.settleLegs, hmemory]
        · rw [Database.settleLegs, hdatabase]
          rfl
      · have hrest := hordinary.2 _ _ (applyWrite_written (assertNonNegative_ok.mpr hpasses))
        rw [Memory.settleLegs, Database.settleLegs, hmemory, hdatabase, ok_bind]
        rcases ih h' (fun leg hleg => hparts leg (List.mem_cons_of_mem _ hleg)) (by rw [hbalances]; exact hrest) with
          hthrew | ⟨memory'', db'', hmemory', hdatabase', h'', husers'⟩
        · exact .inl hthrew
        · exact .inr ⟨memory'', db'', hmemory', hdatabase', h'', husers'.trans husers⟩

/-- The legs of a settlement are about the balances of its parts. -/
theorem mem_settlementLegs {dto : SettlementDto} {leg : BalanceLeg} (hleg : leg ∈ settlementLegs round dto) :
    (leg.userId, leg.asset) ∈ (WalletOp.settleTrade dto).parts := by
  rw [settlementLegs] at hleg
  split at hleg
  · simp only [List.mem_cons, List.not_mem_nil, or_false] at hleg
    rcases hleg with rfl | rfl | rfl | rfl <;> simp [WalletOp.parts]
  · simp only [List.mem_cons, List.not_mem_nil, or_false] at hleg
    rcases hleg with rfl | rfl | rfl | rfl <;> simp [WalletOp.parts]

theorem settleTrade_agrees (h : Agrees column memory db) (hzero : column .zero = some .zero) {dto : SettlementDto}
    (hop : Agreeable round column db.users ⟨none, memory⟩ (.settleTrade dto)) :
    Alike column memory db (memory.exec round (.settleTrade dto)) (db.exec round column (.settleTrade dto)) := by
  have hmaker := assertUserCanTransact_active (hop.active dto.makerUserId List.mem_cons_self)
  have htaker := assertUserCanTransact_active (hop.active dto.takerUserId
    (List.mem_cons_of_mem _ (List.mem_singleton_self _)))
  rcases settleLegs_agrees hzero dto.referenceId _ h (fun leg hleg => hop.parts _ (mem_settlementLegs hleg))
    hop.ordinary with ⟨error, error', hthrew, hdatabase⟩ | ⟨memory', db', hmemory, hdatabase, h', husers⟩
  · left
    refine ⟨error, error', ?_, ?_⟩
    · have hsame := (settleLegs_atomic_iff memory dto.referenceId _).mpr (hop.whole dto rfl) error hthrew
      rw [Memory.exec, Memory.settleTrade, ← Prod.eta (memory.settleLegs round dto.referenceId _), hthrew, hsame]
    · simp only [Database.exec, Database.settleTrade, hmaker, htaker, ok_bind, hdatabase]
      rfl
  · right
    refine ⟨_, memory', _, db', ?_, ?_, .settled "memory" "typeorm" dto.referenceId (quoteAmount round dto)
      (settlementLegs round dto), h', husers⟩
    · rw [Memory.exec, Memory.settleTrade, hmemory]
    · simp only [Database.exec, Database.settleTrade, hmaker, htaker, ok_bind, hdatabase]

/-- **The two bodies of a call agree.** -/
theorem exec_agrees (h : Agrees column memory db) (hzero : column .zero = some .zero) {op : WalletOp}
    (hop : Agreeable round column db.users ⟨none, memory⟩ op) :
    Alike column memory db (memory.exec round op) (db.exec round column op) := by
  cases op with
  | credit dto type => exact credit_agrees h hzero hop
  | debit dto type => exact debit_agrees h hzero hop
  | lock dto => exact lock_agrees h hzero hop
  | unlock dto => exact unlock_agrees h hzero hop
  | internalTransfer dto toUserId => exact internalTransfer_agrees h hzero hop
  | settleTrade dto => exact settleTrade_agrees h hzero hop

end Steps

/-! ### Runs -/

section Runs

variable {round : Rounding} {column : Column}

theorem runs_agree (hzero : column .zero = some .zero) (unused : Memory) (ops : List WalletOp) :
    ∀ {memory : Memory} {db : Database}, Agrees column memory db →
      Machine.Along (calls round column) (Agreeable round column db.users) ⟨none, memory⟩ ops →
      ∃ replies replies' memory' db',
        Machine.run (calls round column) ⟨none, memory⟩ ops = .ok (replies, ⟨none, memory'⟩) ∧
        Machine.run (calls round column) ⟨some db, unused⟩ ops = .ok (replies', ⟨some db', unused⟩) ∧
        List.Forall₂ SameReply replies replies' ∧ Agrees column memory' db' := by
  induction ops with
  | nil => exact fun h _ => ⟨[], [], _, _, rfl, rfl, .nil, h⟩
  | cons op ops ih =>
      intro memory db h hops
      rcases exec_agrees h hzero hops.1 with
        ⟨error, error', hmemory, hdatabase⟩ | ⟨reply, memory', reply', db', hmemory, hdatabase, hsame, h', husers⟩
      · have hstep : calls round column ⟨none, memory⟩ op = .ok (.error error, ⟨none, memory⟩) := by
          simp only [calls, WalletService.exec, hmemory]
        have hstep' : calls round column ⟨some db, unused⟩ op = .ok (.error error', ⟨some db, unused⟩) := by
          simp only [calls, WalletService.exec, WalletService.withTransaction, hdatabase]
        obtain ⟨replies, replies', memory', db', hrun, hrun', hall, h'⟩ := ih h (hops.2 _ _ hstep)
        exact ⟨_, _, memory', db', Machine.run_cons_ok.mpr ⟨_, _, replies, hstep, hrun, rfl⟩,
          Machine.run_cons_ok.mpr ⟨_, _, replies', hstep', hrun', rfl⟩, .cons (.threw error error') hall, h'⟩
      · have hstep : calls round column ⟨none, memory⟩ op = .ok (.ok reply, ⟨none, memory'⟩) := by
          simp only [calls, WalletService.exec, hmemory]
        have hstep' : calls round column ⟨some db, unused⟩ op = .ok (.ok reply', ⟨some db', unused⟩) := by
          simp only [calls, WalletService.exec, WalletService.withTransaction, hdatabase]
        have hrest := hops.2 _ _ hstep
        rw [← husers] at hrest
        obtain ⟨replies, replies', memory'', db'', hrun, hrun', hall, h''⟩ := ih h' hrest
        exact ⟨_, _, memory'', db'', Machine.run_cons_ok.mpr ⟨_, _, replies, hstep, hrun, rfl⟩,
          Machine.run_cons_ok.mpr ⟨_, _, replies', hstep', hrun', rfl⟩, .cons hsame hall, h''⟩

theorem agrees_empty (column : Column) (users : SortedMap String UserStatus) :
    Agrees column ⟨.empty, []⟩ ⟨users, .empty, []⟩ where
  rows _ _ _ _ := rfl
  keys _ _ hfind := by cases hfind
  rowKeys _ _ _ hfind := by cases hfind
  kept _ _ hfind := by cases hfind
  ledger := .refl []

/-- **The two paths agree.**  A service without a database and one with a database start without wallets, and the same
calls are made on both.  As long as each call is one on which the paths agree where it is made in memory, the services
accept and refuse the same calls, hold the same balances and the same ledger entries, and list the same. -/
theorem paths_agree (hzero : column .zero = some .zero) (users : SortedMap String UserStatus) (unused : Memory)
    {ops : List WalletOp}
    (hops : Machine.Along (calls round column) (Agreeable round column users) ⟨none, ⟨.empty, []⟩⟩ ops) :
    ∃ replies replies' service service',
      Machine.run (calls round column) ⟨none, ⟨.empty, []⟩⟩ ops = .ok (replies, service) ∧
      Machine.run (calls round column) ⟨some ⟨users, .empty, []⟩, unused⟩ ops = .ok (replies', service') ∧
      List.Forall₂ SameReply replies replies' ∧ service.ledger.Perm service'.ledger ∧
      ∀ userId, KeyPart userId → (service.listBalances userId).Perm (service'.listBalances userId) ∧
        ∀ asset, KeyPart asset → service.getBalance userId asset = service'.getBalance userId asset := by
  obtain ⟨replies, replies', memory, db, hrun, hrun', hall, h⟩ :=
    runs_agree hzero unused ops (agrees_empty column users) hops
  refine ⟨replies, replies', _, _, hrun, hrun', hall, h.ledger, fun userId huser => ?_⟩
  exact ⟨h.listBalances huser, fun asset hasset => (h.current huser hasset).symm⟩

/-- Deposits, a lock of too much, locks, a transfer, a settlement and an unlock, on both paths. -/
theorem paths_agree_depositLockSettle :
    ∃ users replies replies' service service',
      Machine.run (calls .fin some) memoryService depositLockSettle = .ok (replies, service) ∧
      Machine.run (calls .fin some) ⟨some ⟨users, .empty, []⟩, ⟨.empty, []⟩⟩ depositLockSettle
        = .ok (replies', service') ∧
      List.Forall₂ SameReply replies replies' ∧ service.getBalance "alice" "USDT" = service'.getBalance "alice" "USDT" ∧
      (service.getBalance "alice" "BTC").available = .fin (3 / 2) := by
  have hops : Machine.Along (calls .fin some)
      (Agreeable .fin some ((SortedMap.empty.insert "alice" .active).insert "bob" .active))
      ⟨none, ⟨.empty, []⟩⟩ depositLockSettle := by decide +kernel
  obtain ⟨replies, replies', service, service', hrun, hrun', hall, _, hqueries⟩ :=
    paths_agree rfl ((SortedMap.empty.insert "alice" .active).insert "bob" .active) ⟨.empty, []⟩ hops
  have hlast : ((Machine.run (calls .fin some) memoryService depositLockSettle).toOption.map fun r =>
      (r.2.getBalance "alice" "BTC").available) = some (.fin (3 / 2)) := by decide +kernel
  refine ⟨_, replies, replies', service, service', hrun, hrun', hall, ?_, ?_⟩
  · exact (hqueries "alice" (by decide)).2 "USDT" (by decide)
  · rw [show Machine.run (calls .fin some) memoryService depositLockSettle = .ok (replies, service) from hrun] at hlast
    exact Option.some.inj hlast

end Runs

end NexusTrade.Wallet
