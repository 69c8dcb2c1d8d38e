import NexusTrade.Wallet.Balances

/-!
# Calls of the memory path that throw

A body of the memory path has no transaction: what it has written before it throws stays.  Five of the bodies
look at everything before they write.  `settleTrade` checks and writes its legs one after another.

* **`WalletCall`** is a call as it arrives, and **`Memory.call`** reads its amounts and makes it;
* **`Memory.balanceAfter`**: a balance once some legs have been written, from the balance before the call;
* **`Memory.AllOrNone`**: every leg is covered, or the first is not;
* **`settleLegs_atomic_iff`**: the loop of `settleTrade` leaves nothing behind exactly then;
* **`memory_calls_are_atomic_iff`**: a call of the memory path is atomic exactly if it is no settlement that
  stops halfway.
-/

namespace NexusTrade.Wallet

/-! ### Calls with texts -/

/-- A `BalanceMutationDto` as it is sent. -/
structure MutationBody where
  userId : String
  asset : String
  amount : String
  referenceId : String

/-- A `SettlementDto` as it is sent. -/
structure SettlementBody where
  makerUserId : String
  takerUserId : String
  makerSide : String
  baseAsset : String
  quoteAsset : String
  price : String
  quantity : String
  makerFee : Option String
  takerFee : Option String
  referenceId : String

inductive WalletCall
  | credit (dto : MutationBody) (type : TransactionType)
  | debit (dto : MutationBody) (type : TransactionType)
  | lock (dto : MutationBody)
  | unlock (dto : MutationBody)
  | internalTransfer (dto : MutationBody) (toUserId : String)
  | settleTrade (dto : SettlementBody)

section Read

variable (money : String → Option Amount)

/-- `money`, which throws at a text that is not a number. -/
def readAmount (text : String) : Except WalletError Amount :=
  match money text with
  | none => .error (.error ("[DecimalError] Invalid argument: " ++ text))
  | some amount => .ok amount

/-- `dto.makerFee ?? '0'`, where it is read. -/
def readFee : Option String → Except WalletError (Option Amount)
  | none => .ok none
  | some text => (readAmount money text).map some

def MutationBody.read (body : MutationBody) : Except WalletError BalanceMutationDto := do
  let amount ← readAmount money body.amount
  .ok ⟨body.userId, body.asset, amount, body.referenceId⟩

def SettlementBody.read (body : SettlementBody) : Except WalletError SettlementDto := do
  let price ← readAmount money body.price
  let quantity ← readAmount money body.quantity
  let makerFee ← readFee money body.makerFee
  let takerFee ← readFee money body.takerFee
  .ok ⟨body.makerUserId, body.takerUserId, body.makerSide, body.baseAsset, body.quoteAsset, price, quantity,
    makerFee, takerFee, body.referenceId⟩

/-- The amounts of a call; every body reads them before it writes. -/
def WalletCall.read : WalletCall → Except WalletError WalletOp
  | .credit dto type => (dto.read money).map fun dto => .credit dto type
  | .debit dto type => (dto.read money).map fun dto => .debit dto type
  | .lock dto => (dto.read money).map .lock
  | .unlock dto => (dto.read money).map .unlock
  | .internalTransfer dto toUserId => (dto.read money).map fun dto => .internalTransfer dto toUserId
  | .settleTrade dto => (dto.read money).map .settleTrade

/-- A call of the memory path. -/
def Memory.call (round : Rounding) (memory : Memory) (call : WalletCall) :
    Except WalletError WalletReply × Memory :=
  match call.read money with
  | .error e => (.error e, memory)
  | .ok op => memory.exec round op

end Read

/-! ### Legs that are covered -/

/-- Two legs change the same balance. -/
def BalanceLeg.Meets (leg other : BalanceLeg) : Prop :=
  balanceKey leg.userId leg.asset = balanceKey other.userId other.asset ∧ leg.bucket = other.bucket

instance (leg other : BalanceLeg) : Decidable (leg.Meets other) := inferInstanceAs (Decidable (_ ∧ _))

variable (round : Rounding)

/-- The balance that a leg finds once some legs have been written. -/
def Memory.balanceAfter (memory : Memory) (written : List BalanceLeg) (leg : BalanceLeg) : Amount :=
  (written.filter (·.Meets leg)).foldl (fun balance earlier => Amount.add round balance earlier.amount)
    ((memory.current leg.userId leg.asset).get leg.bucket)

/-- The balance that a leg finds does not go below zero by it. -/
def Memory.Covers (memory : Memory) (written : List BalanceLeg) (leg : BalanceLeg) : Prop :=
  (Amount.add round (memory.balanceAfter round written leg) leg.amount).ltZero = false

/-- Every leg is covered after those before it. -/
def Memory.CoversAll (memory : Memory) (legs : List BalanceLeg) : Prop :=
  ∀ earlier leg later, legs = earlier ++ leg :: later → memory.Covers round earlier leg

/-- Every leg is covered, or already the first is not. -/
def Memory.AllOrNone (memory : Memory) (legs : List BalanceLeg) : Prop :=
  memory.CoversAll round legs ∨ ∃ first rest, legs = first :: rest ∧ ¬ memory.Covers round [] first

variable {round}

theorem coversAll_cons {memory : Memory} {leg : BalanceLeg} {legs : List BalanceLeg} :
    memory.CoversAll round (leg :: legs) ↔ memory.Covers round [] leg ∧
      ∀ earlier other later, legs = earlier ++ other :: later → memory.Covers round (leg :: earlier) other := by
  constructor
  · intro h
    refine ⟨h [] leg legs rfl, fun earlier other later hlegs => ?_⟩
    exact h (leg :: earlier) other later (congrArg (leg :: ·) hlegs)
  · rintro ⟨hfirst, hrest⟩ earlier other later hlegs
    cases earlier with
    | nil =>
        cases hlegs
        exact hfirst
    | cons leg' earlier =>
        obtain ⟨rfl, hrest'⟩ := List.cons.inj hlegs
        exact hrest earlier other later hrest'

/-- **A leg** is refused and leaves nothing, or it is written and is then one of the legs before every later
one. -/
theorem settleLeg_spec (round : Rounding) (memory : Memory) (referenceId : String) (leg : BalanceLeg) :
    (¬ memory.Covers round [] leg ∧ ∃ e, memory.settleLeg round referenceId leg = (.error e, memory)) ∨
    (memory.Covers round [] leg ∧ ∃ memory', memory.settleLeg round referenceId leg = (.ok (), memory') ∧
      memory'.ledger.length = memory.ledger.length + 1 ∧
      ∀ written other, memory'.balanceAfter round written other
        = memory.balanceAfter round (leg :: written) other) := by
  cases hcovers : (Amount.add round ((memory.current leg.userId leg.asset).get leg.bucket)
      leg.amount).ltZero with
  | true =>
      refine Or.inl ⟨fun h => ?_, ?_⟩
      · exact Bool.false_ne_true (Eq.trans (Eq.symm h) hcovers)
      · rw [Memory.settleLeg, assertNonNegative, if_pos hcovers]
        exact ⟨_, rfl⟩
  | false =>
      have hassert : assertNonNegative (Amount.add round ((memory.current leg.userId leg.asset).get leg.bucket)
          leg.amount) (balanceLabel leg.userId leg.asset leg.bucket) = .ok () :=
        assertNonNegative_ok.mpr hcovers
      refine Or.inr ⟨hcovers, ?_⟩
      rw [Memory.settleLeg]
      simp only [hassert, Memory.record, Memory.set]
      refine ⟨_, rfl, List.length_append, fun written other => ?_⟩
      simp only [Memory.balanceAfter, Memory.current, List.filter_cons, SortedMap.find_insert]
      by_cases hkey : balanceKey leg.userId leg.asset = balanceKey other.userId other.asset
      · by_cases hbucket : leg.bucket = other.bucket
        · simp only [BalanceLeg.Meets, hkey, hbucket, and_self, decide_true, if_true, List.foldl_cons,
            Option.getD_some, WalletEntity.get_set_self]
        · simp only [BalanceLeg.Meets, hkey, hbucket, and_false, decide_false, if_true, Bool.false_eq_true,
            if_false, Option.getD_some, WalletEntity.get_set_ne _ hbucket]
      · simp only [BalanceLeg.Meets, hkey, Ne.symm hkey, false_and, decide_false, Bool.false_eq_true, if_false]

/-! ### The loop of `settleTrade` -/

/-- **The loop returns** exactly if every leg is covered. -/
theorem settleLegs_ok_iff (referenceId : String) (legs : List BalanceLeg) :
    ∀ memory : Memory, (memory.settleLegs round referenceId legs).1 = .ok () ↔ memory.CoversAll round legs := by
  induction legs with
  | nil =>
      intro memory
      refine iff_of_true rfl fun earlier leg later hlegs => ?_
      exact absurd hlegs.symm (List.append_ne_nil_of_right_ne_nil earlier (List.cons_ne_nil leg later))
  | cons leg legs ih =>
      intro memory
      rw [coversAll_cons, Memory.settleLegs]
      rcases settleLeg_spec round memory referenceId leg with
        ⟨hrefused, e, hleg⟩ | ⟨hcovers, memory', hleg, _, hafter⟩
      · rw [hleg]
        exact iff_of_false (fun h => by cases h) fun h => hrefused h.1
      · rw [hleg, and_iff_right hcovers]
        simp only [ih, Memory.CoversAll, Memory.Covers, hafter]

/-- The ledger never gets shorter. -/
theorem settleLegs_ledger_length (round : Rounding) (referenceId : String) (legs : List BalanceLeg) :
    ∀ memory : Memory, memory.ledger.length ≤ (memory.settleLegs round referenceId legs).2.ledger.length := by
  induction legs with
  | nil => exact fun memory => le_rfl
  | cons leg legs ih =>
      intro memory
      rw [Memory.settleLegs]
      rcases settleLeg_spec round memory referenceId leg with ⟨_, e, hleg⟩ | ⟨_, memory', hleg, hledger, _⟩
      · rw [hleg]
      · rw [hleg]
        have hrest := ih memory'
        rw [hledger] at hrest
        exact Nat.le_of_succ_le hrest

/-- **The loop leaves nothing behind when it throws** exactly if every leg is covered or the first is not: a
leg that is written leaves its entry in the ledger. -/
theorem settleLegs_atomic_iff (memory : Memory) (referenceId : String) (legs : List BalanceLeg) :
    (∀ e, (memory.settleLegs round referenceId legs).1 = .error e →
      (memory.settleLegs round referenceId legs).2 = memory) ↔ memory.AllOrNone round legs := by
  cases legs with
  | nil =>
      refine iff_of_true (fun _ _ => rfl) (Or.inl ?_)
      exact (settleLegs_ok_iff referenceId [] memory).mp rfl
  | cons leg legs =>
      rcases settleLeg_spec round memory referenceId leg with
        ⟨hrefused, e, hleg⟩ | ⟨hcovers, memory', hleg, hledger, _⟩
      · refine iff_of_true (fun _ _ => ?_) (Or.inr ⟨leg, legs, rfl, hrefused⟩)
        rw [Memory.settleLegs, hleg]
      · have hlonger := settleLegs_ledger_length round referenceId legs memory'
        constructor
        · intro h
          left
          rw [← settleLegs_ok_iff referenceId]
          cases hresult : (memory.settleLegs round referenceId (leg :: legs)).1 with
          | ok _ => rfl
          | error e =>
              have hsame := congrArg (fun memory => memory.ledger.length) (h e hresult)
              simp only [Memory.settleLegs, hleg] at hsame
              omega
        · rintro (hall | ⟨_, _, hlegs, hrefused⟩) e herror
          · rw [(settleLegs_ok_iff referenceId _ memory).mpr hall] at herror
            cases herror
          · cases hlegs
            exact absurd hcovers hrefused

/-! ### Calls that throw -/

theorem settleTrade_atomic_iff (round : Rounding) (memory : Memory) (dto : SettlementDto) :
    (∀ e, (memory.exec round (.settleTrade dto)).1 = .error e →
      (memory.exec round (.settleTrade dto)).2 = memory) ↔
      memory.AllOrNone round (settlementLegs round dto) := by
  rw [← settleLegs_atomic_iff memory dto.referenceId, Memory.exec, Memory.settleTrade]
  cases memory.settleLegs round dto.referenceId (settlementLegs round dto) with
  | mk result memory' =>
      cases result with
      | error e' => exact ⟨fun h e he => h e (by cases he; rfl), fun h e he => h e (by cases he; rfl)⟩
      | ok _ => exact iff_of_true (fun e he => by cases he) fun e he => by cases he

/-- **The other bodies check before they write.** -/
theorem exec_error (round : Rounding) (memory : Memory) {op : WalletOp} (hop : ∀ dto, op ≠ .settleTrade dto)
    {e : WalletError} (h : (memory.exec round op).1 = .error e) : (memory.exec round op).2 = memory := by
  cases op with
  | credit dto type => cases h
  | debit dto type =>
      rw [Memory.exec, Memory.debit] at h ⊢
      cases hassert : assertNonNegative (Amount.subtract round (memory.current dto.userId dto.asset).available
          dto.amount) "available" with
      | error e => rfl
      | ok _ => simp only [hassert] at h; cases h
  | lock dto =>
      rw [Memory.exec, Memory.lock] at h ⊢
      cases hassert : assertNonNegative (Amount.subtract round (memory.current dto.userId dto.asset).available
          dto.amount) "available" with
      | error e => rfl
      | ok _ => simp only [hassert] at h; cases h
  | unlock dto =>
      rw [Memory.exec, Memory.unlock] at h ⊢
      cases hassert : assertNonNegative (Amount.subtract round (memory.current dto.userId dto.asset).locked
          dto.amount) "locked" with
      | error e => rfl
      | ok _ => simp only [hassert] at h; cases h
  | internalTransfer dto toUserId =>
      rw [Memory.exec, Memory.internalTransfer] at h ⊢
      cases hassert : assertNonNegative (Amount.subtract round (memory.current dto.userId dto.asset).available
          dto.amount) "available" with
      | error e => rfl
      | ok _ => simp only [hassert] at h; cases h
  | settleTrade dto => exact absurd rfl (hop dto)

/-- **When a call of the memory path is atomic**: if it throws, balances and ledger are as before, exactly if
it is not a settlement of which some legs are written and a later one is refused. -/
theorem memory_calls_are_atomic_iff (round : Rounding) (money : String → Option Amount) (memory : Memory)
    (call : WalletCall) :
    (∀ e, (memory.call money round call).1 = .error e → (memory.call money round call).2 = memory) ↔
      ∀ dto, call.read money = .ok (.settleTrade dto) → memory.AllOrNone round (settlementLegs round dto) := by
  rw [Memory.call]
  cases hread : call.read money with
  | error e => exact iff_of_true (fun _ _ => rfl) fun _ h => by cases h
  | ok op =>
      simp only
      constructor
      · rintro h dto hop
        cases hop
        exact (settleTrade_atomic_iff round memory dto).mp h
      · intro h e he
        by_cases hop : ∀ dto, op ≠ .settleTrade dto
        · exact exec_error round memory hop he
        · obtain ⟨dto, hdto⟩ := not_forall.mp hop
          obtain rfl := not_not.mp hdto
          exact (settleTrade_atomic_iff round memory dto).mpr (h dto rfl) e he

/-- The texts of the call below. -/
def readOneAndHundred (text : String) : Option Amount :=
  if text = "1" then some (.fin 1) else if text = "100" then some (.fin 100) else none

/-- A bitcoin of alice is locked, and nothing of bob. -/
def aliceLocked : Memory where
  balances := SortedMap.empty.insert "alice:BTC" ⟨.zero, .fin 1⟩
  ledger := []

/-- Alice sells her bitcoin to bob, who has not locked what it costs. -/
def sellToBob : WalletCall :=
  .settleTrade ⟨"alice", "bob", "SELL", "BTC", "USDT", "100", "1", none, none, "trade"⟩

/-- **A settlement that throws halfway**: alice's bitcoin is gone and she has her hundred, and bob has paid
nothing. -/
theorem sellToBob_not_atomic :
    ¬ ∀ (memory : Memory) (call : WalletCall) (e : WalletError),
      (memory.call readOneAndHundred .fin call).1 = .error e →
        (memory.call readOneAndHundred .fin call).2 = memory := by
  intro h
  have hthrows : (aliceLocked.call readOneAndHundred .fin sellToBob).1
      = .error (.error "bob:USDT:locked must be non-negative") := by decide +kernel
  have hpaid : ((aliceLocked.call readOneAndHundred .fin sellToBob).2.current "alice" "USDT").available
      = .fin 100 := by decide +kernel
  rw [h aliceLocked sellToBob _ hthrows] at hpaid
  exact absurd hpaid (by decide +kernel)

end NexusTrade.Wallet
