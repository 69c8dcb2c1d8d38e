import Mathlib.Algebra.Order.BigOperators.Group.List
import NexusTrade.Shared.Places
import NexusTrade.Wallet.Balances

/-!
# What a call leaves available

The available balances after the writes of a call, from below: the amounts that lower a balance are known from the call,
and rounding leaves what the columns hold.

* **`lowered`** are the amounts by which writes lower an available balance;
* **`Leaves`** says that the columns hold at least some amount of every available balance;
* **`run_leaves`** says what the writes of a call leave, and **`debit_not_short`** that a debit of what is available is
  not refused for lack of funds.
-/

namespace NexusTrade.Wallet

variable {κ : Type} [LinearOrder κ] {round : Rounding} {column : Column}

/-- The amount by which a write lowers the available balance at a key. -/
def lowering (key : κ) (write : Write κ) : Option ℚ :=
  match write.amount with
  | .fin x => if write.key = key ∧ write.bucket = .available ∧ x < 0 then some (-x) else none
  | _ => none

/-- The amounts by which writes lower it. -/
def lowered (writes : List (Write κ)) (key : κ) : List ℚ := writes.filterMap (lowering key)

/-- The amounts that are added to available balances are finite. -/
def FiniteWrites (writes : List (Write κ)) : Prop :=
  ∀ write ∈ writes, write.bucket = .available → write.amount.isFinite = true

instance (writes : List (Write κ)) : Decidable (FiniteWrites writes) :=
  inferInstanceAs (Decidable (∀ write ∈ writes, _ → _))

/-- **The columns hold** at least some amount of every available balance. -/
def Leaves (balances : SortedMap κ WalletEntity) (least : κ → ℚ) : Prop :=
  ∀ key, ∃ b, (walletAt balances key).available = .fin b ∧ Fits 38 18 b ∧ least key ≤ b

theorem lowered_cons (write : Write κ) (writes : List (Write κ)) (key : κ) :
    lowered (write :: writes) key = (lowering key write).toList ++ lowered writes key := by
  rw [lowered, lowered, List.filterMap_cons]
  cases lowering key write <;> rfl

theorem lowering_key {write : Write κ} {key : κ} {x : ℚ} (h : lowering key write = some x) : write.key = key := by
  rw [lowering] at h
  split at h
  · split at h
    · rename_i hlower
      exact hlower.1
    · cases h
  · cases h

theorem lowered_nonneg (writes : List (Write κ)) (key : κ) : 0 ≤ (lowered writes key).sum := by
  refine List.sum_nonneg fun x hx => ?_
  obtain ⟨write, -, hlowering⟩ := List.mem_filterMap.mp hx
  rw [lowering] at hlowering
  split at hlowering
  · split at hlowering
    · cases hlowering
      rename_i hneg
      linarith [hneg.2.2]
    · cases hlowering
  · cases hlowering

/-- A number between zero and one that fits. -/
theorem fits_of_le {digits places : ℕ} {k : ℕ} {b : ℚ} (hle : (k : ℚ) / 10 ^ places ≤ b)
    (h : Fits digits places b) : Fits digits places ((k : ℚ) / 10 ^ places) := by
  obtain ⟨l, rfl, hl⟩ := h
  refine ⟨(k : ℤ), by push_cast; rfl, ?_⟩
  have hpow : (0 : ℚ) < 10 ^ places := by positivity
  have hkl : (k : ℤ) ≤ l := by
    rw [div_le_div_iff_of_pos_right hpow] at hle
    exact_mod_cast hle
  rw [abs_of_nonneg (by omega)]
  exact hkl.trans_lt ((le_abs_self l).trans_lt hl)

/-- **What is stored of a sum** is at least any amount that fits and is at most the sum. -/
theorem stored_ge (hround : Precise 40 18 round) (hcolumn : Ordered 38 18 column) {b x least : ℚ} {stored : Amount}
    (hleast : Fits 38 18 least) (hnonneg : 0 ≤ least) (hle : least ≤ b + x) (hfits : Fits 38 18 b)
    (h : storeChanged column (.fin b) (Amount.add round (.fin b) (.fin x)) = some stored) :
    ∃ z, stored = .fin z ∧ Fits 38 18 z ∧ least ≤ z := by
  have hmono := hround.mono least (b + x) hle
  rw [hround.exact least (hleast.mono (by decide))] at hmono
  have hsum : Amount.add round (.fin b) (.fin x) = round (b + x) := rfl
  rw [hsum] at h
  rcases hround.towardZero.nonneg (b + x) (hnonneg.trans hle) with hinf | ⟨r, hr, -, -⟩
  · rw [hinf, storeChanged, if_neg (by simp), hcolumn.overflow] at h
    cases h
  · rw [hr] at h hmono
    have hler : least ≤ r := hmono
    rw [storeChanged] at h
    split at h
    · rename_i hsame
      cases h
      exact ⟨b, rfl, hfits, hler.trans_eq (Extended.fin.inj hsame)⟩
    · obtain ⟨z, rfl⟩ := hcolumn.finite r stored h
      exact ⟨z, rfl, hcolumn.stored _ _ h, hcolumn.mono least r least z (hcolumn.holds least hleast) h hler⟩

/-- A balance after a write: that of its bucket is the one that is stored. -/
theorem applyWrite_available {balances balances' : SortedMap κ WalletEntity} {write : Write κ} {u : Unit}
    (h : applyWrite round column balances write = .ok (u, balances')) (key : κ) :
    (walletAt balances' key).available = (walletAt balances key).available ∨
      key = write.key ∧ write.bucket = .available ∧
        storeChanged column (walletAt balances key).available
          (Amount.add round (walletAt balances key).available write.amount)
            = some (walletAt balances' key).available := by
  obtain ⟨-, stored, hstore, rfl⟩ := applyWrite_eq_ok.mp h
  by_cases hkey : key = write.key
  · subst hkey
    rw [walletAt_insert]
    cases hbucket : write.bucket with
    | locked => exact Or.inl rfl
    | available =>
        rw [Write.next, hbucket] at hstore
        exact Or.inr ⟨rfl, rfl, hstore⟩
  · left
    rw [walletAt, SortedMap.find_insert, if_neg hkey, walletAt]

/-- **What a write leaves**: what it needs is left where it was available before, with what it lowers. -/
theorem applyWrite_leaves (hround : Precise 40 18 round) (hcolumn : Ordered 38 18 column)
    {balances balances' : SortedMap κ WalletEntity} {write : Write κ} {u : Unit} {least : κ → ℚ}
    (hnonneg : ∀ key, 0 ≤ least key) (hleast : ∀ key x, lowering key write = some x → Fits 38 18 (least key))
    (hfinite : write.bucket = .available → write.amount.isFinite = true)
    (h : Leaves balances fun key => least key + (lowering key write).toList.sum)
    (hwrite : applyWrite round column balances write = .ok (u, balances')) : Leaves balances' least := by
  intro key
  obtain ⟨b, hb, hfits, hneed⟩ := h key
  have hle : least key + (lowering key write).toList.sum ≤ b := hneed
  rcases applyWrite_available hwrite key with hsame | ⟨rfl, hbucket, hstore⟩
  · refine ⟨b, hsame.trans hb, hfits, ?_⟩
    have hlowered := lowered_nonneg [write] key
    rw [lowered_cons, List.sum_append] at hlowered
    simp only [lowered, List.filterMap_nil, List.sum_nil, add_zero] at hlowered
    linarith
  · obtain ⟨x, hx⟩ := Extended.isFinite_iff.mp (hfinite hbucket)
    rw [hb, hx] at hstore
    by_cases hneg : x < 0
    · have hlowering : lowering write.key write = some (-x) := by
        rw [lowering, hx]
        exact if_pos ⟨rfl, hbucket, hneg⟩
      rw [hlowering] at hle
      simp only [Option.toList_some, List.sum_singleton] at hle
      exact stored_ge hround hcolumn (hleast _ _ hlowering) (hnonneg _) (by linarith) hfits hstore
    · have hlowering : lowering write.key write = none := by
        rw [lowering, hx]
        exact if_neg fun hlower => hneg hlower.2.2
      rw [hlowering] at hle
      simp only [Option.toList_none, List.sum_nil, add_zero] at hle
      obtain ⟨z, hz, hzfits, hbz⟩ := stored_ge hround hcolumn hfits ((hnonneg _).trans hle) (by linarith : b ≤ b + x)
        hfits hstore
      exact ⟨z, hz, hzfits, hle.trans hbz⟩

/-- **What some writes leave**, each of which lowers another balance. -/
theorem run_leaves (hround : Precise 40 18 round) (hcolumn : Ordered 38 18 column) (writes : List (Write κ)) :
    ∀ {balances balances' : SortedMap κ WalletEntity} {units : List Unit} {least : κ → ℚ},
    (∀ key, 0 ≤ least key ∧ Fits 38 18 (least key)) → (∀ key, (lowered writes key).length ≤ 1) → FiniteWrites writes →
    Leaves balances (fun key => least key + (lowered writes key).sum) →
    Machine.run (applyWrite round column) balances writes = .ok (units, balances') → Leaves balances' least := by
  induction writes with
  | nil =>
      intro balances balances' units least _ _ _ h hrun
      cases hrun
      simpa [lowered] using h
  | cons write writes ih =>
      intro balances balances' units least hleast honce hfinite h hrun
      obtain ⟨_, middle, rest, hwrite, hrest, _⟩ := Machine.run_cons_ok.mp hrun
      have honce' : ∀ key, (lowering key write).toList.length + (lowered writes key).length ≤ 1 := by
        intro key
        have hkey := honce key
        rwa [lowered_cons, List.length_append] at hkey
      refine ih hleast (fun key => by have := honce' key; omega)
        (fun w hw => hfinite w (List.mem_cons_of_mem _ hw)) ?_ hrest
      refine applyWrite_leaves hround hcolumn (fun key => ?_) (fun key x hlowering => ?_)
        (hfinite write List.mem_cons_self) ?_ hwrite
      · exact add_nonneg (hleast key).1 (lowered_nonneg writes key)
      · have hkey := honce' key
        rw [hlowering] at hkey
        have hnone : lowered writes key = [] := List.length_eq_zero_iff.mp (by simpa using hkey)
        rw [hnone, List.sum_nil, add_zero]
        exact (hleast key).2
      · intro key
        obtain ⟨b, hb, hfits, hneed⟩ := h key
        have hle : least key + (lowered (write :: writes) key).sum ≤ b := hneed
        refine ⟨b, hb, hfits, ?_⟩
        rw [lowered_cons, List.sum_append] at hle
        linarith

/-! ### A debit -/

/-- What is thrown besides the refusal of a negative balance. -/
def Unrelated (e : WalletError) : Prop := ∀ message, e ≠ .error message

theorem assertUserCanTransact_unrelated {db : Database} {userId : String} {e : WalletError}
    (h : db.assertUserCanTransact userId = .error e) : Unrelated e := by
  intro message
  rw [Database.assertUserCanTransact] at h
  split at h
  · cases h
    simp
  · split at h
    · cases h
      simp
    · cases h

theorem save_unrelated {db : Database} {userId asset : String} {wallet : WalletEntity} {e : WalletError}
    (h : db.save column userId asset wallet = .error e) : Unrelated e := by
  intro message
  rw [Database.save] at h
  split at h
  · cases h
  · cases h
    simp

theorem recordTypeOrm_unrelated {db : Database} {dto : BalanceMutationDto} {type : TransactionType}
    {balanceAfter : Amount} {e : WalletError} (h : db.recordTypeOrm column dto type balanceAfter = .error e) :
    Unrelated e := by
  intro message
  rw [Database.recordTypeOrm] at h
  split at h
  · cases h
  · cases h
    simp

/-- **A debit of what is available** is not refused for lack of funds. -/
theorem debit_not_short (hround : Precise 40 18 round) (hcolumn : column.Keeps) {db : Database}
    {dto : BalanceMutationDto} {type : TransactionType} {b d : ℚ}
    (hb : (walletAt db.wallets (Database.rowKey dto.userId dto.asset)).available = .fin b)
    (hd : dto.amount = .fin d) (hle : d ≤ b) {e : WalletError} (h : db.debit round column dto type = .error e) :
    Unrelated e := by
  rcases bind_eq_error h with huser | ⟨_, _, h⟩
  · exact assertUserCanTransact_unrelated huser
  · rcases bind_eq_error h with hadjust | ⟨_, _, h⟩
    · rcases bind_eq_error hadjust with hfind | ⟨⟨wallet, found⟩, hfind, hadjust⟩
      · rw [Database.findOrCreateWallet] at hfind
        split at hfind
        · cases hfind
        · rcases bind_eq_error hfind with hsave | ⟨_, _, hfind⟩
          · exact save_unrelated hsave
          · cases hfind
      · obtain ⟨rfl, -, -⟩ := findOrCreateWallet_ok hcolumn hfind
        rcases bind_eq_error hadjust with hassert | ⟨_, _, hadjust⟩
        · -- what would be left is not negative
          have hnext : (Amount.add round (.fin b) (.fin (-d))).ltZero = false := by
            have hmono := hround.mono 0 (b + -d) (by linarith)
            rw [hround.exact 0 (Fits.zero 40 18)] at hmono
            show (round (b + -d)).ltZero = false
            rcases hround.towardZero.nonneg (b + -d) (by linarith) with hinf | ⟨r, hr, hnonneg, -⟩
            · rw [hinf]
              rfl
            · rw [hr]
              exact decide_eq_false (not_lt.mpr hnonneg)
          have hnegated : dto.amount.negated = .fin (-d) := by
            rw [hd]
            rfl
          simp only [WalletEntity.get, hb, hnegated, assertNonNegative, hnext, Bool.false_eq_true, if_false] at hassert
          cases hassert
        · rcases bind_eq_error hadjust with hsave | ⟨_, _, hadjust⟩
          · exact save_unrelated hsave
          · cases hadjust
    · rcases bind_eq_error h with hrecord | ⟨_, _, h⟩
      · exact recordTypeOrm_unrelated hrecord
      · cases h

end NexusTrade.Wallet
