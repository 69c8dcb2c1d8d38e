import Mathlib.Tactic.Ring
import NexusTrade.Lib.Totals
import NexusTrade.Wallet.Balances

/-!
# Totals

The sum of `available` and `locked` over some of the wallets, and what the calls do to it in exact
arithmetic.

* **`held`** is the sum over the wallets that are selected, **`Write.moved`** what a write adds to it;
* **`applyWrite_held`**: a write changes the sum by the difference of the stored balances, whatever the
  rounding, and **`AllFinite.run`** by its amount, where nothing is rounded;
* **`moved_typeOrmWrites`**: the writes of a call add up to `WalletOp.net`: its amount for a credit or a
  debit, less the two fees for a settlement, and nothing for the others;
* **`run_conserves_money`** says so of whole runs, whether their calls return or throw.
-/

namespace NexusTrade

/-- The number that a finite amount is. -/
def Amount.value : Amount → ℚ
  | .nan => 0
  | .inf _ => 0
  | .fin x => x

@[simp] theorem Amount.value_fin (x : ℚ) : Amount.value (.fin x) = x := rfl

namespace Wallet

open Extended (isFinite_iff)

/-! ### What wallets hold -/

def WalletEntity.held (wallet : WalletEntity) : ℚ := wallet.available.value + wallet.locked.value

section Held

variable {κ : Type} [LinearOrder κ]

/-- The sum of `available` and `locked` over the wallets that are selected. -/
def held (which : κ → Bool) (balances : SortedMap κ WalletEntity) : ℚ :=
  balances.sumOf fun key wallet => if which key then wallet.held else 0

theorem held_set (wallet : WalletEntity) (bucket : Bucket) (amount : Amount) :
    (wallet.set bucket amount).held = wallet.held + (amount.value - (wallet.get bucket).value) := by
  cases bucket with
  | available =>
      show amount.value + wallet.locked.value
        = wallet.available.value + wallet.locked.value + (amount.value - wallet.available.value)
      ring
  | locked =>
      show wallet.available.value + amount.value
        = wallet.available.value + wallet.locked.value + (amount.value - wallet.locked.value)
      ring

/-- Setting one balance of a wallet. -/
theorem held_insert (which : κ → Bool) (balances : SortedMap κ WalletEntity) (key : κ) (bucket : Bucket)
    (amount : Amount) :
    held which (balances.insert key ((walletAt balances key).set bucket amount))
      = held which balances
        + if which key then amount.value - ((walletAt balances key).get bucket).value else 0 := by
  have hweight : balances.weightAt (fun key wallet => if which key then WalletEntity.held wallet else 0) key
      = if which key then (walletAt balances key).held else 0 := by
    rw [SortedMap.weightAt, walletAt]
    cases balances.find key with
    | none =>
        have hzero : WalletEntity.zero.held = 0 := add_zero 0
        rw [Option.map_none, Option.getD_none, Option.getD_none, hzero, ite_self]
    | some wallet => rfl
  rw [held, SortedMap.sumOf_insert, hweight, held_set, held]
  split
  · ring
  · ring

/-- **A write changes the sum by the difference of the stored balances.** -/
theorem applyWrite_held (which : κ → Bool) {round : Rounding} {column : Column}
    {balances balances' : SortedMap κ WalletEntity} {write : Write κ} {u : Unit}
    (happly : applyWrite round column balances write = .ok (u, balances')) :
    ∃ stored, storeChanged column ((walletAt balances write.key).get write.bucket)
        (write.next round balances) = some stored ∧
      held which balances' = held which balances
        + if which write.key then stored.value - ((walletAt balances write.key).get write.bucket).value
          else 0 := by
  obtain ⟨_, stored, hstore, rfl⟩ := applyWrite_eq_ok.mp happly
  exact ⟨stored, hstore, held_insert which balances write.key write.bucket stored⟩

/-! ### Exact arithmetic -/

/-- Every balance is a finite number. -/
def AllFinite (balances : SortedMap κ WalletEntity) : Prop :=
  ∀ key wallet, balances.find key = some wallet → ∀ bucket, (wallet.get bucket).isFinite = true

theorem allFinite_empty : AllFinite (.empty : SortedMap κ WalletEntity) := fun _ _ h => nomatch h

theorem AllFinite.walletAt {balances : SortedMap κ WalletEntity} (h : AllFinite balances) (key : κ)
    (bucket : Bucket) : ((walletAt balances key).get bucket).isFinite = true := by
  rw [Wallet.walletAt]
  cases hf : balances.find key with
  | none => cases bucket <;> rfl
  | some wallet => exact h key wallet hf bucket

/-- What a write adds to the wallets that are selected. -/
def Write.moved (which : κ → Bool) (write : Write κ) : ℚ :=
  if which write.key then write.amount.value else 0

/-- What writes add to the wallets that are selected. -/
def moved (which : κ → Bool) (writes : List (Write κ)) : ℚ := (writes.map (Write.moved which)).sum

/-- **A write of a finite amount**, where nothing is rounded. -/
theorem AllFinite.applyWrite {balances balances' : SortedMap κ WalletEntity} {write : Write κ} {u : Unit}
    (h : AllFinite balances) (hamount : write.amount.isFinite = true)
    (happly : applyWrite .fin some balances write = .ok (u, balances')) :
    AllFinite balances' ∧
      ∀ which, held which balances' = held which balances + write.moved which := by
  obtain ⟨b, hb⟩ := isFinite_iff.mp (h.walletAt write.key write.bucket)
  obtain ⟨d, hd⟩ := isFinite_iff.mp hamount
  have hnext : write.next .fin balances = .fin (b + d) := by
    rw [Write.next, hb, hd]
    rfl
  constructor
  · obtain ⟨_, stored, hstore, rfl⟩ := applyWrite_eq_ok.mp happly
    rw [storeChanged_some, hnext] at hstore
    cases hstore
    intro key wallet hfind bucket
    rw [SortedMap.find_insert] at hfind
    split at hfind
    · cases hfind
      have hother := h.walletAt write.key bucket
      cases hbucket : write.bucket <;> cases bucket <;> first | rfl | exact hother
    · exact h key wallet hfind bucket
  · intro which
    obtain ⟨stored, hstore, hheld⟩ := applyWrite_held which happly
    rw [storeChanged_some, hnext] at hstore
    cases hstore
    rw [hheld, hb, Write.moved, hd]
    simp only [Amount.value, add_sub_cancel_left]

/-- **Writes of finite amounts**, where nothing is rounded. -/
theorem AllFinite.run {writes : List (Write κ)} :
    ∀ {balances balances' : SortedMap κ WalletEntity} {units : List Unit}, AllFinite balances →
      (∀ write ∈ writes, write.amount.isFinite = true) →
      Machine.run (Wallet.applyWrite .fin some) balances writes = .ok (units, balances') →
      AllFinite balances' ∧ ∀ which, held which balances' = held which balances + moved which writes := by
  induction writes with
  | nil =>
      intro balances balances' units h _ hrun
      cases hrun
      refine ⟨h, fun which => ?_⟩
      rw [moved, List.map_nil, List.sum_nil, add_zero]
  | cons write writes ih =>
      intro balances balances' units h hamounts hrun
      obtain ⟨_, middle, _, happly, hrest, _⟩ := Machine.run_cons_ok.mp hrun
      obtain ⟨hmiddle, hfirst⟩ := h.applyWrite (hamounts write List.mem_cons_self) happly
      obtain ⟨hfinite, hlater⟩ := ih hmiddle (fun w hw => hamounts w (List.mem_cons_of_mem write hw)) hrest
      refine ⟨hfinite, fun which => ?_⟩
      rw [hlater, hfirst, moved, moved, List.map_cons, List.sum_cons, add_assoc]

end Held

/-! ### What a call moves -/

/-- The amounts of a settlement are finite. -/
structure SettlementDto.Finite (dto : SettlementDto) : Prop where
  price : dto.price.isFinite = true
  quantity : dto.quantity.isFinite = true
  makerFee : (dto.makerFee.getD .zero).isFinite = true
  takerFee : (dto.takerFee.getD .zero).isFinite = true

/-- The amounts of a call are finite. -/
def WalletOp.Finite : WalletOp → Prop
  | .credit dto _ => dto.amount.isFinite = true
  | .debit dto _ => dto.amount.isFinite = true
  | .lock dto => dto.amount.isFinite = true
  | .unlock dto => dto.amount.isFinite = true
  | .internalTransfer dto _ => dto.amount.isFinite = true
  | .settleTrade dto => dto.Finite

/-- The fees of a settlement. -/
def SettlementDto.fees (dto : SettlementDto) : ℚ :=
  (dto.makerFee.getD .zero).value + (dto.takerFee.getD .zero).value

/-- What a call adds to the wallets of an asset if it succeeds. -/
def WalletOp.net (asset : String) : WalletOp → ℚ
  | .credit dto _ => if dto.asset = asset then dto.amount.value else 0
  | .debit dto _ => if dto.asset = asset then -dto.amount.value else 0
  | .lock _ => 0
  | .unlock _ => 0
  | .internalTransfer _ _ => 0
  | .settleTrade dto => if dto.quoteAsset = asset then -dto.fees else 0

/-- The wallets of an asset. -/
def ofAsset (asset : String) (key : String ×ₗ String) : Bool := decide ((ofLex key).2 = asset)

/-- The wallet of a user and an asset. -/
def ofUser (userId asset : String) (key : String ×ₗ String) : Bool :=
  decide (key = Database.rowKey userId asset)

/-- The sum of all balances of an asset. -/
def totalOf (asset : String) (wallets : SortedMap (String ×ₗ String) WalletEntity) : ℚ :=
  held (ofAsset asset) wallets

theorem value_negated (a : Amount) : a.negated.value = -a.value := by
  cases a with
  | nan => exact neg_zero.symm
  | inf _ => exact neg_zero.symm
  | fin x => rfl

theorem isFinite_negated {a : Amount} (h : a.isFinite = true) : a.negated.isFinite = true := by
  obtain ⟨x, rfl⟩ := isFinite_iff.mp h
  rfl

theorem ofAsset_rowKey (asset userId asset' : String) :
    ofAsset asset (Database.rowKey userId asset') = decide (asset' = asset) := rfl

/-- The amounts of the legs, where nothing is rounded. -/
theorem SettlementDto.Finite.legs {dto : SettlementDto} (h : dto.Finite) :
    ∃ quote makerFee takerFee quantity : ℚ,
      dto.fees = makerFee + takerFee ∧ dto.quantity = .fin quantity ∧
      settlementLegs .fin dto = if dto.makerSide = "SELL" then
        [⟨dto.makerUserId, dto.baseAsset, .fin (-quantity), .locked⟩,
          ⟨dto.makerUserId, dto.quoteAsset, .fin (quote - makerFee), .available⟩,
          ⟨dto.takerUserId, dto.quoteAsset, .fin (-(quote + takerFee)), .locked⟩,
          ⟨dto.takerUserId, dto.baseAsset, .fin quantity, .available⟩]
      else
        [⟨dto.makerUserId, dto.quoteAsset, .fin (-(quote + makerFee)), .locked⟩,
          ⟨dto.makerUserId, dto.baseAsset, .fin quantity, .available⟩,
          ⟨dto.takerUserId, dto.baseAsset, .fin (-quantity), .locked⟩,
          ⟨dto.takerUserId, dto.quoteAsset, .fin (quote - takerFee), .available⟩] := by
  obtain ⟨price, hprice⟩ := isFinite_iff.mp h.price
  obtain ⟨quantity, hquantity⟩ := isFinite_iff.mp h.quantity
  obtain ⟨makerFee, hmaker⟩ := isFinite_iff.mp h.makerFee
  obtain ⟨takerFee, htaker⟩ := isFinite_iff.mp h.takerFee
  refine ⟨price * quantity, makerFee, takerFee, quantity, ?_, hquantity, ?_⟩
  · rw [SettlementDto.fees, hmaker, htaker]
    rfl
  · simp only [settlementLegs, quoteAmount, hprice, hquantity, hmaker, htaker, sub_eq_add_neg]
    rfl

theorem WalletOp.Finite.writes {op : WalletOp} (h : op.Finite) :
    ∀ write ∈ op.typeOrmWrites .fin, write.amount.isFinite = true := by
  cases op with
  | credit dto type => exact List.forall_mem_singleton.mpr h
  | debit dto type => exact List.forall_mem_singleton.mpr (isFinite_negated h)
  | lock dto =>
      exact List.forall_mem_cons.mpr ⟨isFinite_negated h, List.forall_mem_singleton.mpr h⟩
  | unlock dto =>
      exact List.forall_mem_cons.mpr ⟨isFinite_negated h, List.forall_mem_singleton.mpr h⟩
  | internalTransfer dto toUserId =>
      exact List.forall_mem_cons.mpr ⟨isFinite_negated h, List.forall_mem_singleton.mpr h⟩
  | settleTrade dto =>
      obtain ⟨quote, makerFee, takerFee, quantity, _, _, hlegs⟩ := SettlementDto.Finite.legs h
      intro write hwrite
      rw [WalletOp.typeOrmWrites, hlegs] at hwrite
      obtain ⟨leg, hleg, rfl⟩ := List.mem_map.mp hwrite
      split at hleg
      · simp only [List.mem_cons, List.not_mem_nil, or_false] at hleg
        rcases hleg with rfl | rfl | rfl | rfl <;> rfl
      · simp only [List.mem_cons, List.not_mem_nil, or_false] at hleg
        rcases hleg with rfl | rfl | rfl | rfl <;> rfl

/-- An amount that goes from one wallet of an asset to another adds nothing to the asset. -/
theorem moved_pair (asset userId userId' asset' : String) (bucket bucket' : Bucket) (amount : Amount)
    (label label' : Option String) :
    moved (ofAsset asset) [⟨Database.rowKey userId asset', bucket, amount.negated, label⟩,
      ⟨Database.rowKey userId' asset', bucket', amount, label'⟩] = 0 := by
  simp only [moved, List.map_cons, List.map_nil, List.sum_cons, List.sum_nil, Write.moved, ofAsset_rowKey,
    decide_eq_true_eq, add_zero, value_negated]
  split
  · exact neg_add_cancel _
  · exact add_zero 0

/-- **What the writes of a call add to an asset.** -/
theorem moved_typeOrmWrites (asset : String) {op : WalletOp} (h : op.Finite) :
    moved (ofAsset asset) (op.typeOrmWrites .fin) = op.net asset := by
  cases op with
  | credit dto type =>
      simp only [WalletOp.typeOrmWrites, moved, List.map_cons, List.map_nil, List.sum_cons, List.sum_nil,
        Write.moved, adjustWrite, ofAsset_rowKey, decide_eq_true_eq, add_zero, WalletOp.net]
  | debit dto type =>
      simp only [WalletOp.typeOrmWrites, moved, List.map_cons, List.map_nil, List.sum_cons, List.sum_nil,
        Write.moved, adjustWrite, ofAsset_rowKey, decide_eq_true_eq, add_zero, WalletOp.net, value_negated]
  | lock dto => exact moved_pair asset _ _ _ _ _ _ _ _
  | unlock dto => exact moved_pair asset _ _ _ _ _ _ _ _
  | internalTransfer dto toUserId => exact moved_pair asset _ _ _ _ _ _ _ _
  | settleTrade dto =>
      obtain ⟨quote, makerFee, takerFee, quantity, hfees, _, hlegs⟩ := SettlementDto.Finite.legs h
      rw [WalletOp.typeOrmWrites, hlegs, WalletOp.net, hfees]
      split
      · simp only [legWrites, moved, List.map_cons, List.map_nil, List.sum_cons, List.sum_nil, Write.moved,
          ofAsset_rowKey, decide_eq_true_eq, Amount.value]
        by_cases hbase : dto.baseAsset = asset <;> by_cases hquote : dto.quoteAsset = asset <;>
          simp only [hbase, hquote, if_true, if_false] <;> ring
      · simp only [legWrites, moved, List.map_cons, List.map_nil, List.sum_cons, List.sum_nil, Write.moved,
          ofAsset_rowKey, decide_eq_true_eq, Amount.value]
        by_cases hbase : dto.baseAsset = asset <;> by_cases hquote : dto.quoteAsset = asset <;>
          simp only [hbase, hquote, if_true, if_false] <;> ring

/-- **A successful call in exact arithmetic.** -/
theorem AllFinite.exec {db db' : Database} {op : WalletOp} {reply : WalletReply}
    (h : AllFinite db.wallets) (hop : op.Finite)
    (hexec : db.exec .fin some op = .ok (reply, db')) :
    AllFinite db'.wallets ∧
      ∀ which, held which db'.wallets = held which db.wallets + moved which (op.typeOrmWrites .fin) := by
  obtain ⟨_, units, hrun⟩ := database_exec_writes keeps_some hexec
  exact h.run hop.writes hrun

/-! ### Runs -/

/-- What a call adds to an asset: nothing if it throws. -/
def gained (asset : String) (op : WalletOp) : Except WalletError WalletReply → ℚ
  | .ok _ => op.net asset
  | .error _ => 0

/-- The state of a run: one outcome for each call, finite balances, and totals that the calls explain. -/
structure Conserved (db₀ : Database) (ops : List WalletOp) (outcomes : List (Except WalletError WalletReply))
    (db : Database) : Prop where
  length : ops.length = outcomes.length
  finite : AllFinite db.wallets
  total : ∀ asset, totalOf asset db.wallets
    = totalOf asset db₀.wallets + (List.zipWith (gained asset) ops outcomes).sum

/-- **One call**, whether it returns or throws. -/
theorem Conserved.step {db₀ db : Database} (memory : Memory) {ops : List WalletOp}
    {outcomes : List (Except WalletError WalletReply)} (h : Conserved db₀ ops outcomes db) {op : WalletOp}
    (hop : op.Finite) :
    ∃ db', (WalletService.exec .fin some ⟨some db, memory⟩ op).2 = ⟨some db', memory⟩ ∧
      Conserved db₀ (ops ++ [op]) (outcomes ++ [(WalletService.exec .fin some ⟨some db, memory⟩ op).1])
        db' := by
  have hlength : ∀ outcome, (ops ++ [op]).length = (outcomes ++ [outcome]).length := by
    intro outcome
    rw [List.length_append, List.length_append, h.length]
    rfl
  have hsum : ∀ asset outcome, (List.zipWith (gained asset) (ops ++ [op]) (outcomes ++ [outcome])).sum
      = (List.zipWith (gained asset) ops outcomes).sum + gained asset op outcome := by
    intro asset outcome
    rw [List.zipWith_append h.length, List.sum_append, List.zipWith_cons_cons, List.zipWith_nil_left,
      List.sum_singleton]
  simp only [WalletService.exec, WalletService.withTransaction]
  cases hexec : db.exec .fin some op with
  | error e =>
      refine ⟨db, rfl, hlength _, h.finite, fun asset => ?_⟩
      rw [hsum, h.total, gained, add_zero]
  | ok r =>
      obtain ⟨reply, db'⟩ := r
      obtain ⟨hfinite, hheld⟩ := h.finite.exec hop hexec
      refine ⟨db', rfl, hlength _, hfinite, fun asset => ?_⟩
      have htotal := hheld (ofAsset asset)
      rw [moved_typeOrmWrites asset hop] at htotal
      rw [hsum, ← add_assoc, ← h.total]
      exact htotal

/-- **Money is conserved in the wallet.**  After every run of calls with finite amounts, each of which
returns or throws, the balances of an asset have grown by the credits less the debits that succeeded and
less the fees of the settlements that succeeded. -/
theorem run_conserves_money (db₀ : Database) (memory : Memory) (hfinite : AllFinite db₀.wallets)
    (ops : List WalletOp) (hops : ∀ op ∈ ops, op.Finite) :
    ∃ outcomes service db, Machine.run (calls .fin some) ⟨some db₀, memory⟩ ops = .ok (outcomes, service) ∧
      service.dataSource = some db ∧ ops.length = outcomes.length ∧
      ∀ asset, totalOf asset db.wallets
        = totalOf asset db₀.wallets + (List.zipWith (gained asset) ops outcomes).sum := by
  have hinit : ∃ db, (⟨some db₀, memory⟩ : WalletService) = ⟨some db, memory⟩ ∧ Conserved db₀ [] [] db :=
    ⟨db₀, rfl, rfl, hfinite, fun asset => (add_zero _).symm⟩
  have halong : Machine.Along (calls .fin some) (fun _ op => op.Finite) ⟨some db₀, memory⟩ ops :=
    Machine.along_of_forall fun op hop _ => hops op hop
  obtain ⟨outcomes, service, hrun, db, rfl, hconserved⟩ := Machine.run_safe_along
    (Q := fun ops outcomes service => ∃ db, service = ⟨some db, memory⟩ ∧ Conserved db₀ ops outcomes db)
    hinit (by
      rintro ops outcomes service op outcome service' ⟨db, rfl, hconserved⟩ hop hstep
      obtain ⟨db', hservice, hnext⟩ := hconserved.step memory hop
      obtain ⟨rfl, rfl⟩ := Prod.mk.inj (Except.ok.inj hstep)
      exact ⟨db', hservice, hnext⟩) ops halong
  exact ⟨outcomes, _, db, hrun, rfl, hconserved.length, hconserved.total⟩

theorem run_conserves_money_depositLockSettle :
    ∃ outcomes service db,
      Machine.run (calls .fin some) freshService depositLockSettle = .ok (outcomes, service) ∧
      service.dataSource = some db ∧ depositLockSettle.length = outcomes.length ∧
      ∀ asset, totalOf asset db.wallets
        = totalOf asset .empty + (List.zipWith (gained asset) depositLockSettle outcomes).sum := by
  refine run_conserves_money ⟨_, .empty, []⟩ ⟨.empty, []⟩ allFinite_empty depositLockSettle ?_
  intro op hop
  simp only [depositLockSettle, List.mem_cons, List.not_mem_nil, or_false] at hop
  rcases hop with rfl | rfl | rfl | rfl | rfl | rfl | rfl | rfl
  all_goals first | rfl | exact ⟨rfl, rfl, rfl, rfl⟩

end Wallet

end NexusTrade
