import NexusTrade.Wallet.Exact
import NexusTrade.Wallet.Totals

/-!
# Writes that settle

Writes of finite amounts that only take from locked balances and add to available ones, as those of a
settlement do.

* **`Write.Settles`** is such a write, **`lockedChange`** what a list of writes changes of a locked balance;
* **`settling_spec`**: they all pass if no locked balance ends below zero, and what they leave.
-/

namespace NexusTrade.Wallet

section Settling

variable {κ : Type} [LinearOrder κ]

/-- A write that takes from a locked balance, or adds to an available one. -/
def Write.Settles (write : Write κ) : Prop :=
  ∃ x : ℚ, write.amount = .fin x ∧
    match write.bucket with
    | .locked => x ≤ 0
    | .available => 0 ≤ x

/-- What some writes change of the locked balance of a wallet. -/
def lockedChange (writes : List (Write κ)) (key : κ) : ℚ :=
  (writes.map fun write => if write.key = key ∧ write.bucket = .locked then write.amount.value else 0).sum

theorem lockedChange_nil (key : κ) : lockedChange [] key = 0 := rfl

theorem lockedChange_cons (write : Write κ) (writes : List (Write κ)) (key : κ) :
    lockedChange (write :: writes) key
      = (if write.key = key ∧ write.bucket = .locked then write.amount.value else 0)
        + lockedChange writes key := List.sum_cons

theorem lockedChange_nonpos {writes : List (Write κ)} (h : ∀ write ∈ writes, write.Settles) (key : κ) :
    lockedChange writes key ≤ 0 := by
  induction writes with
  | nil => exact le_refl 0
  | cons write writes ih =>
      have hrest := ih fun later hlater => h later (List.mem_cons_of_mem write hlater)
      rw [lockedChange_cons]
      split
      · rename_i hlocked
        obtain ⟨x, hamount, hsign⟩ := h write List.mem_cons_self
        rw [hlocked.2] at hsign
        rw [hamount]
        exact add_nonpos hsign hrest
      · rw [zero_add]
        exact hrest

/-- A sum with a number that is not negative. -/
theorem ltZero_add {a : Amount} {x : ℚ} (h : a.ltZero = false) (hx : 0 ≤ x) :
    (Amount.add .fin a (.fin x)).ltZero = false := by
  cases a with
  | nan => rfl
  | inf negative => exact h
  | fin y =>
      have hy : 0 ≤ y := not_lt.mp (of_decide_eq_false h)
      exact decide_eq_false (not_lt.mpr (add_nonneg hy hx))

/-- **Writes that settle** all pass if no locked balance ends below zero.  The locked balances change by their
amounts, and no available one is below zero. -/
theorem settling_spec {writes : List (Write κ)} (h : ∀ write ∈ writes, write.Settles) :
    ∀ {wallets : κ → WalletEntity} {balance : κ → ℚ}, (∀ key, (wallets key).locked = .fin (balance key)) →
      (∀ key, 0 ≤ balance key + lockedChange writes key) → (∀ key, (wallets key).available.ltZero = false) →
      Passes wallets writes ∧
        (∀ key, (written wallets writes key).locked = .fin (balance key + lockedChange writes key)) ∧
        ∀ key, (written wallets writes key).available.ltZero = false := by
  induction writes with
  | nil =>
      intro wallets balance hlocked _ havailable
      refine ⟨trivial, fun key => ?_, havailable⟩
      rw [lockedChange_nil, add_zero]
      exact hlocked key
  | cons write writes ih =>
      intro wallets balance hlocked hfinal havailable
      have hrest : ∀ later ∈ writes, later.Settles := fun later hlater => h later (List.mem_cons_of_mem write hlater)
      obtain ⟨x, hamount, hsign⟩ := h write List.mem_cons_self
      have hwritten : written wallets (write :: writes) = written (write.onto wallets) writes := rfl
      rw [hwritten]
      cases hbucket : write.bucket with
      | locked =>
          have hchange : ∀ key, lockedChange (write :: writes) key
              = (if write.key = key then x else 0) + lockedChange writes key := by
            intro key
            rw [lockedChange_cons, hamount, hbucket]
            simp only [and_true, Amount.value_fin]
          have hnext : Amount.add .fin ((wallets write.key).get .locked) (.fin x)
              = .fin (balance write.key + x) := by
            show Amount.add .fin (wallets write.key).locked _ = _
            rw [hlocked]
            rfl
          have honto : write.onto wallets = Function.update wallets write.key
              { wallets write.key with locked := .fin (balance write.key + x) } := by
            rw [Write.onto, hbucket, hamount, hnext]
            rfl
          have hpasses : write.Passes wallets := by
            intro _
            rw [hbucket, hamount, hnext]
            have hkey := hfinal write.key
            rw [hchange, if_pos rfl] at hkey
            have hless := lockedChange_nonpos hrest write.key
            exact decide_eq_false (not_lt.mpr (by linarith))
          have hmiddle : ∀ key, (write.onto wallets key).locked
              = .fin (balance key + if write.key = key then x else 0) := by
            intro key
            rw [honto, Function.update_apply]
            by_cases heq : key = write.key
            · rw [if_pos heq, if_pos heq.symm, heq]
            · rw [if_neg heq, if_neg fun h => heq h.symm, add_zero]
              exact hlocked key
          obtain ⟨hall, hlocked', havailable'⟩ := ih hrest hmiddle (fun key => by
            have hkey := hfinal key
            rw [hchange] at hkey
            linarith) (fun key => by
            rw [honto, Function.update_apply]
            split
            · exact havailable write.key
            · exact havailable key)
          refine ⟨⟨hpasses, hall⟩, fun key => ?_, havailable'⟩
          rw [hlocked', hchange, add_assoc]
      | available =>
          rw [hbucket] at hsign
          have hchange : ∀ key, lockedChange (write :: writes) key = lockedChange writes key := by
            intro key
            have hother : ¬(write.key = key ∧ Bucket.available = .locked) := fun hlocked => by cases hlocked.2
            rw [lockedChange_cons, hbucket, if_neg hother, zero_add]
          have hnext : (Amount.add .fin (wallets write.key).available (.fin x)).ltZero = false :=
            ltZero_add (havailable write.key) hsign
          have honto : write.onto wallets = Function.update wallets write.key
              { wallets write.key with available := Amount.add .fin (wallets write.key).available (.fin x) } := by
            rw [Write.onto, hbucket, hamount]
            rfl
          have hpasses : write.Passes wallets := by
            intro _
            rw [hbucket, hamount]
            exact hnext
          obtain ⟨hall, hlocked', havailable'⟩ := ih hrest
            (fun key => show (write.onto wallets key).locked = .fin (balance key) by
              rw [honto, Function.update_apply]
              split
              · rename_i heq
                rw [heq]
                exact hlocked write.key
              · exact hlocked key)
            (fun key => hchange key ▸ hfinal key) (fun key => by
              rw [honto, Function.update_apply]
              split
              · exact hnext
              · exact havailable key)
          exact ⟨⟨hpasses, hall⟩, fun key => (hlocked' key).trans (by rw [hchange]), havailable'⟩

end Settling

end NexusTrade.Wallet
