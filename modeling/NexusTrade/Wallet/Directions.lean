import NexusTrade.Shared.Places
import NexusTrade.Wallet.Balances
import NexusTrade.Wallet.Restored

/-!
# The direction of a movement

Which balances a call raises and which it lowers is decided by the sign of its amount, which nothing looks at.

* **`WalletOp.movements`**: the balances that a call should raise, and those that it should lower;
* **`WalletService.Kept`**: the balances are values that the service writes, **`Kept.exec`** in every state;
* **`exec_moves`**: each movement is a rounded sum of the balance before the call, in both paths;
* **`calls_move_forward_iff`**: no movement is reversed exactly if the amount is not negative, or is lost by
  rounding in every balance it should move.
-/

namespace NexusTrade.Wallet

open Extended (AtMost)

/-! ### Movements -/

/-- A balance that a call should raise, or lower. -/
structure Movement where
  userId : String
  asset : String
  bucket : Bucket
  raises : Bool
  deriving DecidableEq

/-- What should be raised and lowered by a call that moves an amount. -/
def WalletOp.movements : WalletOp → List Movement
  | .credit dto _ => [⟨dto.userId, dto.asset, .available, true⟩]
  | .debit dto _ => [⟨dto.userId, dto.asset, .available, false⟩]
  | .lock dto => [⟨dto.userId, dto.asset, .available, false⟩, ⟨dto.userId, dto.asset, .locked, true⟩]
  | .unlock dto => [⟨dto.userId, dto.asset, .locked, false⟩, ⟨dto.userId, dto.asset, .available, true⟩]
  | .internalTransfer dto toUserId =>
    [⟨dto.userId, dto.asset, .available, false⟩, ⟨toUserId, dto.asset, .available, true⟩]
  | .settleTrade _ => []

/-- The amount that a call moves. -/
def WalletOp.amount : WalletOp → Amount
  | .credit dto _ => dto.amount
  | .debit dto _ => dto.amount
  | .lock dto => dto.amount
  | .unlock dto => dto.amount
  | .internalTransfer dto _ => dto.amount
  | .settleTrade _ => .zero

/-- A transfer is to another user. -/
def WalletOp.BetweenUsers : WalletOp → Prop
  | .internalTransfer dto toUserId => dto.userId ≠ toUserId
  | _ => True

/-- The balance of a movement. -/
def Movement.balance (movement : Movement) (service : WalletService) : Amount :=
  (service.getBalance movement.userId movement.asset).get movement.bucket

/-- What is added to the balance of a movement. -/
def Movement.added (movement : Movement) (amount : Amount) : Amount :=
  if movement.raises then amount else amount.negated

/-- **A movement is not reversed**: what should be raised is not lower than before, and what should be lowered
is not higher. -/
def Movement.Forward (movement : Movement) (before after : WalletService) : Prop :=
  if movement.raises then (movement.balance after).lt (movement.balance before) = false
  else (movement.balance before).lt (movement.balance after) = false

/-- The column of the path that a service takes: a map holds everything. -/
def WalletService.path (column : Column) (service : WalletService) : Column :=
  match service.dataSource with
  | some _ => column
  | none => some

/-- An amount is lost in a balance: the rounded sum is the balance again, or there is no number to compare. -/
def Movement.Lost (round : Rounding) (column : Column) (service : WalletService) (amount : Amount)
    (movement : Movement) : Prop :=
  ∀ stored, storeChanged (service.path column) (movement.balance service)
      (Amount.add round (movement.balance service) (movement.added amount)) = some stored →
    stored = movement.balance service ∨ stored = .nan

/-! ### One balance -/

section Balance

/-- A column that keeps the order and stores no number for what is none. -/
structure Column.Orderly (column : Column) : Prop where
  mono : ∀ a b a' b', AtMost a b → column a = some a' → column b = some b' → AtMost a' b'
  nan : ∀ a, column .nan = some a → a = .nan

theorem orderly_some : Column.Orderly some where
  mono := by
    rintro a b a' b' h ha hb
    cases ha
    cases hb
    exact h
  nan := fun _ h => (Option.some.inj h).symm

/-- A numeric column that has room for `nan`, or refuses it. -/
theorem Column.Orderly.of_ordered {column : Column} (hcolumn : Ordered 38 18 column)
    (hnan : ∀ a, column .nan = some a → a = .nan) : Column.Orderly column where
  mono := by
    intro a b a' b' h ha hb
    cases b with
    | nan =>
        rw [hnan b' hb]
        trivial
    | inf negative =>
        rw [hcolumn.overflow negative] at hb
        cases hb
    | fin y =>
        cases a with
        | nan => exact h.elim
        | inf negative =>
            rw [hcolumn.overflow negative] at ha
            cases ha
        | fin x =>
            obtain ⟨p, rfl⟩ := hcolumn.finite x a' ha
            obtain ⟨q, rfl⟩ := hcolumn.finite y b' hb
            exact hcolumn.mono x y p q ha hb h
  nan := hnan

/-- A value that rounding and the column keep. -/
def KeptBy (round : Rounding) (column : Column) : Amount → Prop
  | .nan => True
  | .inf negative => column (.inf negative) = some (.inf negative)
  | .fin x => round x = .fin x ∧ column (.fin x) = some (.fin x)

variable {round : Rounding} {column : Column}

theorem KeptBy.rounded {a : Amount} (h : KeptBy round column a) : ∀ x, a = .fin x → round x = .fin x := by
  rintro x rfl
  exact h.1

theorem KeptBy.accepted {a : Amount} (h : KeptBy round column a) (ha : a ≠ .nan) : column a = some a := by
  cases a with
  | nan => exact absurd rfl ha
  | inf negative => exact h
  | fin x => exact h.2

/-- What is stored of a value that is at least the balance. -/
theorem Column.Orderly.stored_ge (hcolumn : Column.Orderly column) {old next stored : Amount}
    (hold : KeptBy round column old) (h : AtMost old next)
    (hstore : storeChanged column old next = some stored) : AtMost old stored := by
  rw [storeChanged] at hstore
  split at hstore
  · cases hstore
    exact Extended.atMost_refl old
  · cases old with
    | nan =>
        cases next with
        | nan => contradiction
        | inf _ => exact h.elim
        | fin _ => exact h.elim
    | inf negative => exact hcolumn.mono _ _ _ _ h hold hstore
    | fin x => exact hcolumn.mono _ _ _ _ h hold.2 hstore

/-- What is stored of a value that is at most the balance, or is no number. -/
theorem Column.Orderly.stored_le (hcolumn : Column.Orderly column) {old next stored : Amount}
    (hold : KeptBy round column old) (h : AtMost next old ∨ next = .nan)
    (hstore : storeChanged column old next = some stored) : AtMost stored old ∨ stored = .nan := by
  rw [storeChanged] at hstore
  split at hstore
  · cases hstore
    exact Or.inl (Extended.atMost_refl old)
  · rcases h with h | rfl
    · by_cases hnan : old = .nan
      · rw [hnan]
        exact Or.inl trivial
      · exact Or.inl (hcolumn.mono _ _ _ _ h hstore (hold.accepted hnan))
    · exact Or.inr (hcolumn.nan stored hstore)

/-- **A balance that a positive amount raises** is not lowered exactly if the amount is not negative, or is
lost. -/
theorem raised_iff (hround : Precise 40 18 round) (hcolumn : Column.Orderly column) {old stored amount : Amount}
    (hold : KeptBy round column old) (hstore : storeChanged column old (Amount.add round old amount) = some stored) :
    stored.lt old = false ↔ amount.ltZero = false ∨ stored = old ∨ stored = .nan := by
  cases hsign : amount.ltZero with
  | false =>
      refine iff_of_true ?_ (Or.inl rfl)
      exact Extended.lt_of_atMost
        (hcolumn.stored_ge hold (Extended.atMost_add hround.mono hold.rounded hsign) hstore)
  | true =>
      rw [or_iff_right (show ¬ true = false from Bool.noConfusion)]
      have hle := hcolumn.stored_le hold
        (Extended.add_atMost hround.mono hold.rounded (Extended.ltZero_neg hsign)) hstore
      constructor
      · intro hlt
        rcases hle with hle | hnan
        · by_cases hold' : old = .nan
          · right
            rw [hold', storeChanged] at hstore
            split at hstore
            · exact (Option.some.inj hstore).symm
            · exact hcolumn.nan stored hstore
          · exact Or.inl (Extended.eq_of_atMost hle hlt hold')
        · exact Or.inr hnan
      · rintro (rfl | rfl)
        · exact Extended.lt_of_atMost (Extended.atMost_refl _)
        · cases old <;> rfl

/-- **A balance that a positive amount lowers** is not raised exactly if the amount is not negative, or is
lost. -/
theorem lowered_iff (hround : Precise 40 18 round) (hcolumn : Column.Orderly column)
    {old stored amount : Amount} (hold : KeptBy round column old)
    (hstore : storeChanged column old (Amount.add round old amount.negated) = some stored) :
    old.lt stored = false ↔ amount.ltZero = false ∨ stored = old ∨ stored = .nan := by
  have hnan : ∀ a : Amount, a.lt .nan = false := fun a => by cases a <;> rfl
  cases hsign : amount.ltZero with
  | false =>
      refine iff_of_true ?_ (Or.inl rfl)
      have hsign' : Extended.ltZero (Extended.neg amount.negated) = false := by
        rw [Amount.negated, Extended.neg_neg_eq]
        exact hsign
      rcases hcolumn.stored_le hold (Extended.add_atMost hround.mono hold.rounded hsign') hstore with hle | rfl
      · exact Extended.lt_of_atMost hle
      · exact hnan old
  | true =>
      rw [or_iff_right (show ¬ true = false from Bool.noConfusion)]
      have hge := hcolumn.stored_ge hold
        (Extended.atMost_add hround.mono hold.rounded (Extended.ltZero_neg hsign)) hstore
      constructor
      · intro hlt
        by_cases hstored : stored = .nan
        · exact Or.inr hstored
        · exact Or.inl (Extended.eq_of_atMost hge hlt hstored).symm
      · rintro (rfl | rfl)
        · exact Extended.lt_of_atMost (Extended.atMost_refl _)
        · exact hnan old

end Balance

/-! ### Several balances -/

section Writes

variable {κ : Type} [LinearOrder κ] {round : Rounding} {column : Column}

/-- Two writes change different balances. -/
def Write.Apart (write other : Write κ) : Prop := write.key ≠ other.key ∨ write.bucket ≠ other.bucket

/-- What a write stores, and that it leaves the other balances. -/
theorem balance_write {balances balances' : SortedMap κ WalletEntity} {write : Write κ} {u : Unit}
    (happly : applyWrite round column balances write = .ok (u, balances')) :
    storeChanged column ((walletAt balances write.key).get write.bucket) (write.next round balances)
        = some ((walletAt balances' write.key).get write.bucket) ∧
      ∀ other : Write κ, write.Apart other →
        (walletAt balances' other.key).get other.bucket = (walletAt balances other.key).get other.bucket := by
  obtain ⟨_, stored, hstore, rfl⟩ := applyWrite_eq_ok.mp happly
  rw [walletAt_update]
  refine ⟨?_, fun other hapart => ?_⟩
  · rw [Function.update_self, WalletEntity.get_set_self]
    exact hstore
  · by_cases hkey : other.key = write.key
    · have hbucket : write.bucket ≠ other.bucket := hapart.resolve_left fun h => h hkey.symm
      rw [hkey, Function.update_self, WalletEntity.get_set_ne _ hbucket]
    · rw [Function.update_of_ne hkey]

/-- **Writes to different balances**: each is made on the balance before them all. -/
theorem balances_run {writes : List (Write κ)} :
    ∀ {balances balances' : SortedMap κ WalletEntity} {units : List Unit}, writes.Pairwise Write.Apart →
      Machine.run (applyWrite round column) balances writes = .ok (units, balances') →
      (∀ write ∈ writes, storeChanged column ((walletAt balances write.key).get write.bucket)
        (write.next round balances) = some ((walletAt balances' write.key).get write.bucket)) ∧
      ∀ other : Write κ, (∀ write ∈ writes, write.Apart other) →
        (walletAt balances' other.key).get other.bucket = (walletAt balances other.key).get other.bucket := by
  induction writes with
  | nil =>
      intro balances balances' units _ hrun
      cases hrun
      exact ⟨List.forall_mem_nil _, fun _ _ => rfl⟩
  | cons write writes ih =>
      intro balances balances' units hapart hrun
      obtain ⟨_, middle, _, happly, hrest, _⟩ := Machine.run_cons_ok.mp hrun
      obtain ⟨hhead, htail⟩ := List.pairwise_cons.mp hapart
      obtain ⟨hstored, hframe⟩ := balance_write happly
      obtain ⟨hlater, hothers⟩ := ih htail hrest
      refine ⟨List.forall_mem_cons.mpr ⟨?_, fun later hmem => ?_⟩, fun other hall => ?_⟩
      · rw [hothers write fun later hmem => ?_]
        · exact hstored
        · exact (hhead later hmem).imp Ne.symm Ne.symm
      · have hsame := hframe later (hhead later hmem)
        have hstore := hlater later hmem
        rw [Write.next, hsame] at hstore
        exact hstore
      · rw [hothers other fun later hmem => hall later (List.mem_cons_of_mem write hmem)]
        exact hframe other (hall write List.mem_cons_self)

end Writes

/-! ### Calls -/

section Calls

variable {round : Rounding} {column : Column}

/-- The movements of a call are of different buckets, or of different users in one asset. -/
theorem movements_apart {op : WalletOp} (hbetween : op.BetweenUsers) :
    op.movements.Pairwise fun movement other =>
      movement.bucket ≠ other.bucket ∨ movement.asset = other.asset ∧ movement.userId ≠ other.userId := by
  cases op with
  | credit dto type => exact List.pairwise_singleton _ _
  | debit dto type => exact List.pairwise_singleton _ _
  | lock dto => exact List.pairwise_pair.mpr (Or.inl Bucket.noConfusion)
  | unlock dto => exact List.pairwise_pair.mpr (Or.inl Bucket.noConfusion)
  | internalTransfer dto toUserId => exact List.pairwise_pair.mpr (Or.inr ⟨rfl, hbetween⟩)
  | settleTrade dto => exact List.Pairwise.nil

/-- The write of a movement, where the wallets have such keys. -/
def Movement.write {κ : Type} (key : String → String → κ) (amount : Amount) (check : Movement → Option String)
    (movement : Movement) : Write κ :=
  ⟨key movement.userId movement.asset, movement.bucket, movement.added amount, check movement⟩

/-- The writes of a call are its movements, in the memory path. -/
theorem memoryWrites_eq (round : Rounding) {op : WalletOp} (hmoves : op.movements ≠ []) :
    ∃ check, op.memoryWrites round = op.movements.map (Movement.write balanceKey op.amount check) := by
  cases op with
  | credit dto type => exact ⟨fun _ => none, rfl⟩
  | debit dto type => exact ⟨fun _ => some "available", rfl⟩
  | lock dto => exact ⟨fun movement => if movement.raises then none else some "available", rfl⟩
  | unlock dto => exact ⟨fun movement => if movement.raises then none else some "locked", rfl⟩
  | internalTransfer dto toUserId =>
      exact ⟨fun movement => if movement.raises then none else some "available", rfl⟩
  | settleTrade dto => exact absurd rfl hmoves

/-- And in the TypeORM path. -/
theorem typeOrmWrites_eq (round : Rounding) {op : WalletOp} (hmoves : op.movements ≠ []) :
    ∃ check, op.typeOrmWrites round = op.movements.map (Movement.write Database.rowKey op.amount check) := by
  cases op with
  | credit dto type => exact ⟨fun _ => some (balanceLabel dto.userId dto.asset .available), rfl⟩
  | debit dto type => exact ⟨fun _ => some (balanceLabel dto.userId dto.asset .available), rfl⟩
  | lock dto =>
      exact ⟨fun movement => if movement.raises then none else
        some (balanceLabel dto.userId dto.asset .available), rfl⟩
  | unlock dto =>
      exact ⟨fun movement => if movement.raises then none else
        some (balanceLabel dto.userId dto.asset .locked), rfl⟩
  | internalTransfer dto toUserId =>
      exact ⟨fun movement => some (balanceLabel movement.userId movement.asset movement.bucket), rfl⟩
  | settleTrade dto => exact absurd rfl hmoves

/-- **What a run of movements has stored** in each of its balances. -/
theorem movements_stored {κ : Type} [LinearOrder κ] {key : String → String → κ}
    (hkey : ∀ userId userId' asset, key userId asset = key userId' asset → userId = userId') {op : WalletOp}
    (hbetween : op.BetweenUsers) {check : Movement → Option String}
    {balances balances' : SortedMap κ WalletEntity} {units : List Unit}
    (hrun : Machine.run (applyWrite round column) balances
      (op.movements.map (Movement.write key op.amount check)) = .ok (units, balances')) {movement : Movement}
    (hmem : movement ∈ op.movements) :
    storeChanged column ((walletAt balances (key movement.userId movement.asset)).get movement.bucket)
        (Amount.add round ((walletAt balances (key movement.userId movement.asset)).get movement.bucket)
          (movement.added op.amount))
      = some ((walletAt balances' (key movement.userId movement.asset)).get movement.bucket) := by
  have hapart : (op.movements.map (Movement.write key op.amount check)).Pairwise Write.Apart := by
    refine List.pairwise_map.mpr ((movements_apart hbetween).imp ?_)
    rintro first second (hbucket | ⟨hasset, huser⟩)
    · exact Or.inr hbucket
    · refine Or.inl fun hsame => huser (hkey _ _ second.asset ?_)
      rw [Movement.write, Movement.write, hasset] at hsame
      exact hsame
  exact (balances_run hapart hrun).1 _ (List.mem_map_of_mem hmem)

theorem balanceKey_user (userId userId' asset : String) (h : balanceKey userId asset = balanceKey userId' asset) :
    userId = userId' := (String.append_left_inj _).mp ((String.append_left_inj _).mp h)

theorem rowKey_user (userId userId' asset : String)
    (h : Database.rowKey userId asset = Database.rowKey userId' asset) : userId = userId' :=
  (Prod.mk.inj (toLex.injective h)).1

/-- **What a call that returns has stored** in the balances it moves, in both paths. -/
theorem exec_moves (hcolumn : column.Keeps) {service service' : WalletService} {op : WalletOp}
    {reply : WalletReply} (hbetween : op.BetweenUsers)
    (hexec : service.exec round column op = (.ok reply, service')) {movement : Movement}
    (hmem : movement ∈ op.movements) :
    storeChanged (service.path column) (movement.balance service)
      (Amount.add round (movement.balance service) (movement.added op.amount))
      = some (movement.balance service') := by
  obtain ⟨dataSource, memory⟩ := service
  cases dataSource with
  | none =>
      simp only [WalletService.exec, Prod.mk.injEq] at hexec
      obtain ⟨hexec, rfl⟩ := hexec
      obtain ⟨units, hrun⟩ := memory_exec_run hexec
      obtain ⟨check, hwrites⟩ := memoryWrites_eq round (List.ne_nil_of_mem hmem)
      rw [hwrites] at hrun
      exact movements_stored balanceKey_user hbetween hrun hmem
  | some db =>
      simp only [WalletService.exec, WalletService.withTransaction] at hexec
      split at hexec
      · cases hexec
      · rename_i db' hdb
        cases hexec
        obtain ⟨_, units, hrun⟩ := database_exec_writes hcolumn hdb
        obtain ⟨check, hwrites⟩ := typeOrmWrites_eq round (List.ne_nil_of_mem hmem)
        rw [hwrites] at hrun
        exact movements_stored rowKey_user hbetween hrun hmem

end Calls

/-! ### Balances that the service writes -/

section Kept

variable (round : Rounding) (column : Column)

/-- Every balance is a value that rounding and the column keep. -/
def KeptBalances {κ : Type} [LinearOrder κ] (balances : SortedMap κ WalletEntity) : Prop :=
  ∀ key bucket, KeptBy round column ((walletAt balances key).get bucket)

/-- The balances of the path that the service takes are such values. -/
def WalletService.Kept (service : WalletService) : Prop :=
  match service.dataSource with
  | some db => KeptBalances round column db.wallets
  | none => KeptBalances round some service.memory.balances

variable {round} {column}

theorem WalletService.Kept.balance {service : WalletService} (h : service.Kept round column)
    (movement : Movement) : KeptBy round (service.path column) (movement.balance service) := by
  obtain ⟨dataSource, memory⟩ := service
  cases dataSource with
  | none => exact h (balanceKey movement.userId movement.asset) movement.bucket
  | some db => exact h (Database.rowKey movement.userId movement.asset) movement.bucket

/-- Whatever such a path stores of a rounded value is kept. -/
def Column.Keeping (round : Rounding) (column : Column) : Prop :=
  ∀ next stored, (∀ x, next = .fin x → round x = .fin x) → column next = some stored →
    KeptBy round column stored

theorem keeping_some : Column.Keeping round some := by
  rintro next stored hnext hstore
  cases hstore
  cases next with
  | nan => trivial
  | inf negative => rfl
  | fin x => exact ⟨hnext x rfl, rfl⟩

theorem keeping_ordered (hround : Precise 40 18 round) (hcolumn : Ordered 38 18 column)
    (hnan : ∀ a, column .nan = some a → a = .nan) : Column.Keeping round column := by
  intro next stored _ hstore
  cases next with
  | nan =>
      rw [hnan stored hstore]
      trivial
  | inf negative =>
      rw [hcolumn.overflow negative] at hstore
      cases hstore
  | fin x =>
      obtain ⟨b, rfl⟩ := hcolumn.finite x stored hstore
      have hfits := hcolumn.stored _ b hstore
      exact ⟨hround.exact b (hfits.mono (by decide)), hcolumn.holds b hfits⟩

/-- A rounded sum is rounded. -/
theorem add_rounded (hagain : ∀ x y, round x = .fin y → round y = .fin y) {a d : Amount}
    (ha : ∀ x, a = .fin x → round x = .fin x) : ∀ x, Amount.add round a d = .fin x → round x = .fin x := by
  intro x hx
  cases a with
  | nan => cases hx
  | inf _ =>
      cases d with
      | nan => cases hx
      | inf _ =>
          rw [Amount.add, Extended.add] at hx
          split at hx <;> cases hx
      | fin _ => cases hx
  | fin p =>
      cases d with
      | nan => cases hx
      | inf _ => cases hx
      | fin q => exact hagain (p + q) x hx

/-- **A write keeps the balances kept.** -/
theorem KeptBalances.write {κ : Type} [LinearOrder κ] (hagain : ∀ x y, round x = .fin y → round y = .fin y)
    (hkeeping : Column.Keeping round column) {balances balances' : SortedMap κ WalletEntity} {write : Write κ}
    {u : Unit} (h : KeptBalances round column balances)
    (happly : applyWrite round column balances write = .ok (u, balances')) :
    KeptBalances round column balances' := by
  obtain ⟨hstore, hframe⟩ := balance_write happly
  intro key bucket
  by_cases hapart : write.Apart ⟨key, bucket, .zero, none⟩
  · rw [hframe ⟨key, bucket, .zero, none⟩ hapart]
    exact h key bucket
  · obtain ⟨hkey, hbucket⟩ := not_or.mp hapart
    obtain rfl := not_not.mp hkey
    obtain rfl := not_not.mp hbucket
    rw [storeChanged] at hstore
    split at hstore
    · rw [← Option.some.inj hstore]
      exact h write.key write.bucket
    · exact hkeeping _ _ (add_rounded hagain (h write.key write.bucket).rounded) hstore

/-- **Writes keep the balances kept**, also where one of them is refused. -/
theorem KeptBalances.writeUntil {κ : Type} [LinearOrder κ]
    (hagain : ∀ x y, round x = .fin y → round y = .fin y) (hkeeping : Column.Keeping round column)
    (writes : List (Write κ)) : ∀ balances : SortedMap κ WalletEntity, KeptBalances round column balances →
      KeptBalances round column (writeUntil round column balances writes) := by
  induction writes with
  | nil => exact fun balances h => h
  | cons write writes ih =>
      intro balances h
      rw [Wallet.writeUntil]
      cases happly : applyWrite round column balances write with
      | error e => exact h
      | ok r => exact ih r.2 (h.write hagain hkeeping happly)

/-- **In every state that calls lead to** the balances are kept, if they are at first. -/
theorem WalletService.Kept.exec (hround : Precise 40 18 round)
    (hagain : ∀ x y, round x = .fin y → round y = .fin y) (hcolumn : Ordered 38 18 column)
    (hnan : ∀ a, column .nan = some a → a = .nan) {service : WalletService} (h : service.Kept round column)
    (op : WalletOp) : (service.exec round column op).2.Kept round column := by
  obtain ⟨dataSource, memory⟩ := service
  cases dataSource with
  | none =>
      show KeptBalances round some (memory.exec round op).2.balances
      rw [memory_exec_writes]
      exact KeptBalances.writeUntil hagain keeping_some _ memory.balances h
  | some db =>
      simp only [WalletService.exec, WalletService.withTransaction]
      split
      · exact h
      · rename_i reply db' hexec
        obtain ⟨_, units, hrun⟩ := database_exec_writes hcolumn.toKeeps hexec
        show KeptBalances round column db'.wallets
        rw [← writeUntil_of_run _ _ _ _ hrun]
        exact KeptBalances.writeUntil hagain (keeping_ordered hround hcolumn hnan) _ db.wallets h

/-- Where there are no wallets, every balance is zero. -/
theorem WalletService.NoWallets.kept (hround : Precise 40 18 round) (hcolumn : column.Keeps)
    {service : WalletService} (h : service.NoWallets) : service.Kept round column := by
  have hzero : round 0 = .fin 0 := hround.exact 0 (Fits.zero 40 18)
  obtain ⟨dataSource, memory⟩ := service
  cases dataSource with
  | none =>
      have hempty : memory.balances = .empty := h.1
      intro key bucket
      rw [hempty]
      cases bucket <;> exact ⟨hzero, rfl⟩
  | some db =>
      have hempty : db.wallets = .empty := h.2 db rfl
      intro key bucket
      rw [hempty]
      cases bucket <;> exact ⟨hzero, hcolumn.zero⟩

end Kept

/-! ### Reversed movements -/

section Reversed

variable {round : Rounding} {column : Column}

theorem WalletService.path_orderly (hcolumn : Ordered 38 18 column)
    (hnan : ∀ a, column .nan = some a → a = .nan) (service : WalletService) :
    Column.Orderly (service.path column) := by
  obtain ⟨dataSource, memory⟩ := service
  cases dataSource with
  | none => exact orderly_some
  | some db => exact .of_ordered hcolumn hnan

/-- **A movement goes forward** exactly if its amount is not negative, or is lost. -/
theorem movement_forward_iff (hround : Precise 40 18 round) (hcolumn : Ordered 38 18 column)
    (hnan : ∀ a, column .nan = some a → a = .nan) {service service' : WalletService}
    (hkept : service.Kept round column) {op : WalletOp} {reply : WalletReply} (hbetween : op.BetweenUsers)
    (hexec : service.exec round column op = (.ok reply, service')) {movement : Movement}
    (hmem : movement ∈ op.movements) :
    movement.Forward service service' ↔
      op.amount.ltZero = false ∨ movement.Lost round column service op.amount := by
  have hstore := exec_moves hcolumn.toKeeps hbetween hexec hmem
  have hlost : movement.Lost round column service op.amount ↔
      movement.balance service' = movement.balance service ∨ movement.balance service' = .nan := by
    constructor
    · exact fun h => h _ hstore
    · intro h stored hstored
      rw [hstore] at hstored
      cases hstored
      exact h
  have horderly := service.path_orderly hcolumn hnan
  rw [hlost, Movement.Forward]
  rw [Movement.added] at hstore
  split
  · rename_i hraises
    rw [if_pos hraises] at hstore
    exact raised_iff hround horderly (hkept.balance movement) hstore
  · rename_i hraises
    rw [if_neg hraises] at hstore
    exact lowered_iff hround horderly (hkept.balance movement) hstore

/-- **When a call takes nothing and frees nothing**: no balance moves against the call exactly if its amount is
not negative, or is lost in every balance that it should move. -/
theorem calls_move_forward_iff (hround : Precise 40 18 round) (hcolumn : Ordered 38 18 column)
    (hnan : ∀ a, column .nan = some a → a = .nan) (service service' : WalletService)
    (hkept : service.Kept round column) (op : WalletOp) (reply : WalletReply) (hbetween : op.BetweenUsers)
    (hexec : service.exec round column op = (.ok reply, service')) :
    (∀ movement ∈ op.movements, movement.Forward service service') ↔
      op.amount.ltZero = false ∨ ∀ movement ∈ op.movements, movement.Lost round column service op.amount := by
  have hiff := fun {movement} (hmem : movement ∈ op.movements) =>
    movement_forward_iff hround hcolumn hnan hkept hbetween hexec hmem
  constructor
  · intro h
    by_cases hsign : op.amount.ltZero = false
    · exact Or.inl hsign
    · exact Or.inr fun movement hmem => ((hiff hmem).mp (h movement hmem)).resolve_left hsign
  · rintro (h | h) movement hmem
    · exact (hiff hmem).mpr (Or.inl h)
    · exact (hiff hmem).mpr (Or.inr (h movement hmem))

/-- Alice has deposited ten dollars. -/
def aliceDeposited : WalletService :=
  (freshService.exec (truncated 40) (numeric 38 18) (.credit ⟨"alice", "USDT", .fin 10, "deposit"⟩ .deposit)).2

/-- She gives four of them to bob. -/
def giveFour : WalletOp := .internalTransfer ⟨"alice", "USDT", .fin 4, "gift"⟩ "bob"

theorem calls_move_forward_iff_giveFour :
    ∃ reply service', aliceDeposited.exec (truncated 40) (numeric 38 18) giveFour = (.ok reply, service') ∧
      (service'.getBalance "bob" "USDT").available = .fin 4 ∧
      ((∀ movement ∈ giveFour.movements, movement.Forward aliceDeposited service') ↔
        giveFour.amount.ltZero = false ∨ ∀ movement ∈ giveFour.movements,
          movement.Lost (truncated 40) (numeric 38 18) aliceDeposited giveFour.amount) := by
  have hround : Precise 40 18 (truncated 40) := precise_truncated (by decide) 18
  have hcolumn := numeric_ordered 38 18
  have hnan : ∀ a, numeric 38 18 .nan = some a → a = .nan := fun _ h => (Option.some.inj h).symm
  have hempty : freshService.NoWallets := ⟨rfl, fun db hdb => by cases hdb; rfl⟩
  have hkept : aliceDeposited.Kept (truncated 40) (numeric 38 18) :=
    (hempty.kept hround hcolumn.toKeeps).exec hround (fun _ _ => truncated_again (by decide)) hcolumn hnan _
  have hbetween : giveFour.BetweenUsers := (by decide : "alice" ≠ "bob")
  have hpaid : (aliceDeposited.exec (truncated 40) (numeric 38 18) giveFour).1.toOption.isSome = true ∧
      ((aliceDeposited.exec (truncated 40) (numeric 38 18) giveFour).2.getBalance "bob" "USDT").available
        = .fin 4 := by decide +kernel
  cases hexec : aliceDeposited.exec (truncated 40) (numeric 38 18) giveFour with
  | mk result service' =>
      rw [hexec] at hpaid
      cases result with
      | error e => exact absurd hpaid.1 Bool.false_ne_true
      | ok reply =>
          exact ⟨reply, service', rfl, hpaid.2, calls_move_forward_iff hround hcolumn hnan aliceDeposited
            service' hkept giveFour reply hbetween hexec⟩

/-- **An amount of `numeric(38,18)` is not lost** in a balance that is one as well, unless it is zero. -/
theorem not_lost (hround : Precise 40 18 round) (hcolumn : Ordered 38 18 column) {service : WalletService}
    {movement : Movement} {amount stored : Amount} {b x : ℚ} (hb : movement.balance service = .fin b)
    (hfits : Fits 38 18 b) (hamount : amount = .fin x) (hx : Fits 38 18 x) (hne : x ≠ 0)
    (hstore : storeChanged (service.path column) (movement.balance service)
      (Amount.add round (movement.balance service) (movement.added amount)) = some stored) :
    ¬ movement.Lost round column service amount := by
  intro hlost
  have hfaithful : Column.Faithful (service.path column) := by
    rw [WalletService.path]
    split
    · exact hcolumn.exact
    · exact faithful_some
  obtain ⟨d, hd, hd0, hdfits⟩ : ∃ d, movement.added amount = .fin d ∧ d ≠ 0 ∧ Fits 38 18 d := by
    rw [Movement.added, hamount]
    split
    · exact ⟨x, rfl, hne, hx⟩
    · exact ⟨-x, rfl, neg_ne_zero.mpr hne, hx.neg⟩
  rcases hlost stored hstore with hsame | hnan
  · rw [hb, hd, add_fits hround (hfits.mono (by decide)) hdfits] at hstore
    rw [storeChanged_fits hfaithful (hfits.add hdfits) hstore, hb] at hsame
    exact hd0 (add_eq_left.mp (Extended.fin.inj hsame))
  · rw [hb, hd, add_fits hround (hfits.mono (by decide)) hdfits] at hstore
    rw [storeChanged_fits hfaithful (hfits.add hdfits) hstore] at hnan
    cases hnan

/-- **On stored values the sign decides**: no balance moves against the call exactly if the amount is not below
zero. -/
theorem stored_calls_move_forward_iff (hround : Precise 40 18 round) (hcolumn : Ordered 38 18 column)
    (hnan : ∀ a, column .nan = some a → a = .nan) {service service' : WalletService}
    (hkept : service.Kept round column) {op : WalletOp} {reply : WalletReply} (hbetween : op.BetweenUsers)
    (hexec : service.exec round column op = (.ok reply, service')) (hmoves : op.movements ≠ [])
    (hfits : ∀ movement ∈ op.movements, ∃ b, movement.balance service = .fin b ∧ Fits 38 18 b) {x : ℚ}
    (hamount : op.amount = .fin x) (hx : Fits 38 18 x) :
    (∀ movement ∈ op.movements, movement.Forward service service') ↔ 0 ≤ x := by
  have hsign : op.amount.ltZero = false ↔ 0 ≤ x := by
    rw [hamount, Extended.ltZero, decide_eq_false_iff_not, not_lt]
  constructor
  · intro hforward
    by_contra hneg
    obtain ⟨movement, hmem⟩ := List.exists_mem_of_ne_nil _ hmoves
    obtain ⟨b, hb, hbfits⟩ := hfits movement hmem
    have hstore := exec_moves hcolumn.toKeeps hbetween hexec hmem
    have hiff := movement_forward_iff hround hcolumn hnan hkept hbetween hexec hmem
    have hlost := (hiff.mp (hforward movement hmem)).resolve_left (mt hsign.mp hneg)
    exact not_lost hround hcolumn hb hbfits hamount hx (fun h => hneg h.ge) hstore hlost
  · intro hpos movement hmem
    exact (movement_forward_iff hround hcolumn hnan hkept hbetween hexec hmem).mpr (Or.inl (hsign.mpr hpos))

end Reversed

/-! ### A transfer of a negative amount -/

/-- Alice has ten dollars, in the map and in the database, and mallory has nothing. -/
def aliceHasTen : Memory where
  balances := SortedMap.empty.insert (balanceKey "alice" "USDT") ⟨.fin 10, .zero⟩
  ledger := []

def aliceHasTenStored : Database where
  users := (SortedMap.empty.insert "alice" .active).insert "mallory" .active
  wallets := SortedMap.empty.insert (Database.rowKey "alice" "USDT") ⟨.fin 10, .zero⟩
  ledger := []

def minusFive : WalletOp := .internalTransfer ⟨"mallory", "USDT", .fin (-5), "gift"⟩ "alice"

/-- A call that returns and lowers a balance that it should raise. -/
theorem not_forward {round : Rounding} {column : Column} {service : WalletService} {op : WalletOp}
    {movement : Movement} (hbetween : op.BetweenUsers) (hmem : movement ∈ op.movements)
    (hraises : movement.raises = true)
    (hreturns : (service.exec round column op).1.toOption.isSome = true)
    (hlower : (movement.balance (service.exec round column op).2).lt (movement.balance service) = true) :
    ¬ ∀ (op : WalletOp) (reply : WalletReply) (service' : WalletService), op.BetweenUsers →
      service.exec round column op = (.ok reply, service') →
      ∀ movement ∈ op.movements, movement.Forward service service' := by
  intro h
  cases hexec : service.exec round column op with
  | mk result service' =>
      rw [hexec] at hreturns hlower
      cases result with
      | error e => cases hreturns
      | ok reply =>
          have hforward := h op reply service' hbetween hexec movement hmem
          rw [Movement.Forward, if_pos hraises, hlower] at hforward
          cases hforward

/-- **Mallory transfers minus five to alice**, in both paths: she is left with five, and he has five. -/
theorem negative_transfer_takes :
    (¬ ∀ (op : WalletOp) (reply : WalletReply) (service' : WalletService), op.BetweenUsers →
      (⟨none, aliceHasTen⟩ : WalletService).exec (truncated 40) (numeric 38 18) op = (.ok reply, service') →
      ∀ movement ∈ op.movements, movement.Forward ⟨none, aliceHasTen⟩ service') ∧
    ¬ ∀ (op : WalletOp) (reply : WalletReply) (service' : WalletService), op.BetweenUsers →
      (⟨some aliceHasTenStored, aliceHasTen⟩ : WalletService).exec (truncated 40) (numeric 38 18) op
        = (.ok reply, service') →
      ∀ movement ∈ op.movements, movement.Forward ⟨some aliceHasTenStored, aliceHasTen⟩ service' := by
  have hbetween : minusFive.BetweenUsers := (by decide : "mallory" ≠ "alice")
  have hmem : ⟨"alice", "USDT", .available, true⟩ ∈ minusFive.movements := by decide +kernel
  exact ⟨not_forward hbetween hmem rfl (by decide +kernel) (by decide +kernel),
    not_forward hbetween hmem rfl (by decide +kernel) (by decide +kernel)⟩

end NexusTrade.Wallet
