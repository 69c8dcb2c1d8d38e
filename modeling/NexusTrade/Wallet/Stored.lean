import NexusTrade.Shared.Halves
import NexusTrade.Wallet.Totals

/-!
# Stored balances

The balances of a wallet stand in columns of type `numeric(38,18)`, and `decimal.js` computes with forty
significant digits; each write of a call is rounded on its own.

* **`Stored.checked`** and **`Stored.unchecked`**: a write adds its amount, half-way numbers rounded up; a
  write that nothing looks at rounds them down if the sum is negative;
* **`pair_changes`**, **`settle_changes`**: what a call that succeeds adds to the total of an asset;
* **`stored_balances_conserve_iff`**: when it adds exactly what it should.
-/

namespace NexusTrade.Wallet

open Extended (isFinite_iff)

/-- `numeric(38,18)`. -/
def balanceColumn : Column := numeric 38 18

/-- One unit of the last place. -/
def unit : ℚ := 1 / 10 ^ 18

/-- A number that a column stores is stored again as it is. -/
theorem balanceColumn_of_fits {b : ℚ} (h : Fits 38 18 b) : balanceColumn (.fin b) = some (.fin b) := by
  obtain ⟨k, rfl, hk⟩ := h
  rw [balanceColumn, numeric, div_mul_cancel₀ _ (scale_ne_zero 18), roundHalfAway_intCast, if_pos hk]

section Writes

variable {κ : Type} [LinearOrder κ]

/-- Every balance is a number that the column holds. -/
def Stored (balances : SortedMap κ WalletEntity) : Prop :=
  ∀ key wallet, balances.find key = some wallet →
    ∀ bucket, ∃ b, wallet.get bucket = .fin b ∧ Fits 38 18 b

theorem Stored.walletAt {balances : SortedMap κ WalletEntity} (h : Stored balances) (key : κ)
    (bucket : Bucket) : ∃ b, (walletAt balances key).get bucket = .fin b ∧ Fits 38 18 b := by
  rw [Wallet.walletAt]
  cases hf : balances.find key with
  | none =>
      refine ⟨0, ?_, Fits.zero 38 18⟩
      cases bucket <;> rfl
  | some wallet => exact h key wallet hf bucket

theorem Stored.insert {balances : SortedMap κ WalletEntity} (h : Stored balances) (key : κ)
    (bucket : Bucket) {b : ℚ} (hb : Fits 38 18 b) :
    Stored (balances.insert key ((Wallet.walletAt balances key).set bucket (.fin b))) := by
  intro k wallet hfind other
  rw [SortedMap.find_insert] at hfind
  split at hfind
  · cases hfind
    have hbefore := h.walletAt key other
    cases bucket with
    | available =>
        cases other with
        | available => exact ⟨b, rfl, hb⟩
        | locked => exact hbefore
    | locked =>
        cases other with
        | available => exact hbefore
        | locked => exact ⟨b, rfl, hb⟩
  · exact h k wallet hfind other

variable {round : Rounding}

/-- An amount that is a number, perhaps an infinite one. -/
def IsNumber (a : Amount) : Prop := (∃ negative, a = .inf negative) ∨ ∃ d, a = .fin d

/-- What a write leaves in its column, of the sum of the balance and its amount. -/
theorem Stored.write {balances balances' : SortedMap κ WalletEntity} {write : Write κ} {u : Unit}
    (hround : Precise 40 19 round) (h : Stored balances) (hamount : IsNumber write.amount)
    (happly : applyWrite round balanceColumn balances write = .ok (u, balances')) :
    ∃ b d stored, (Wallet.walletAt balances write.key).get write.bucket = .fin b ∧ Fits 38 18 b ∧
      write.amount = .fin d ∧ |d * 10 ^ 18| < 5 * 10 ^ 38 ∧
      balanceColumn (round (b + d)) = some (.fin stored) ∧
      (write.check.isSome → (round (b + d)).ltZero = false) ∧
      balances' = balances.insert write.key
        ((Wallet.walletAt balances write.key).set write.bucket (.fin stored)) ∧
      Stored balances' := by
  obtain ⟨hverify, kept, hstore, rfl⟩ := applyWrite_eq_ok.mp happly
  obtain ⟨b, hb, hfits⟩ := h.walletAt write.key write.bucket
  have hcolumn : balanceColumn (write.next round balances) = some kept := by
    rw [hb, storeChanged] at hstore
    split at hstore
    · rename_i hsame
      rw [hsame, balanceColumn_of_fits hfits]
      exact hstore
    · exact hstore
  rw [Write.next, hb] at hcolumn
  rcases hamount with ⟨negative, hinf⟩ | ⟨d, hd⟩
  · rw [hinf] at hcolumn
    cases hcolumn
  · have hnext : write.next round balances = round (b + d) := by
      rw [Write.next, hb, hd]
      rfl
    rw [hd] at hcolumn
    have hcolumn : numeric 38 18 (round (b + d)) = some kept := hcolumn
    obtain ⟨_, hk, rfl⟩ := numeric_round hround hcolumn
    have hnew : Fits 38 18 ((roundHalfAway ((b + d) * 10 ^ 18) : ℚ) / 10 ^ 18) := ⟨_, rfl, hk⟩
    refine ⟨b, d, _, hb, hfits, hd, hfits.amount_lt hk, hcolumn, ?_, rfl,
      h.insert write.key write.bucket hnew⟩
    intro hcheck
    obtain ⟨label, hlabel⟩ := Option.isSome_iff_exists.mp hcheck
    rw [Write.verify, hlabel, hnext] at hverify
    rw [← Bool.not_eq_true]
    intro hneg
    have hrefused : assertNonNegative (round (b + d)) label
        = .error (.error (label ++ " must be non-negative")) := if_pos hneg
    simp only [hrefused] at hverify
    cases hverify

/-- **A write with a check** adds its amount, half-way numbers rounded up. -/
theorem Stored.checked {balances balances' : SortedMap κ WalletEntity} {write : Write κ} {u : Unit}
    (hround : Precise 40 19 round) (h : Stored balances) (hcheck : write.check.isSome)
    (hamount : IsNumber write.amount)
    (happly : applyWrite round balanceColumn balances write = .ok (u, balances')) :
    ∃ d, write.amount = .fin d ∧ |d * 10 ^ 18| < 5 * 10 ^ 38 ∧ Stored balances' ∧
      ∀ which, held which balances'
        = held which balances + if which write.key then halfUp 18 d else 0 := by
  obtain ⟨b, d, stored, hb, hfits, hd, hbound, hcolumn, hpass, rfl, hstored⟩ := h.write hround hamount happly
  have hvalue := stored_checked hround hfits.onGrid (hpass hcheck) hcolumn
  refine ⟨d, hd, hbound, hstored, fun which => ?_⟩
  rw [held_insert, hvalue, hb]
  simp only [Amount.value, add_sub_cancel_left]

/-- **A write without a check** adds its amount, half-way numbers rounded up if the sum is not negative, and
down if it is. -/
theorem Stored.unchecked {balances balances' : SortedMap κ WalletEntity} {key : κ} {bucket : Bucket}
    {d : ℚ} {u : Unit} (hround : Precise 40 19 round) (h : Stored balances)
    (happly : applyWrite round balanceColumn balances ⟨key, bucket, .fin d, none⟩ = .ok (u, balances')) :
    ∀ which, held which balances' = held which balances
      + if which key then
          (if 0 ≤ ((Wallet.walletAt balances key).get bucket).value + d then halfUp 18 d else halfDown 18 d)
        else 0 := by
  obtain ⟨b, d', stored, hb, hfits, hd, _, hcolumn, _, rfl, _⟩ := h.write hround (Or.inr ⟨d, rfl⟩) happly
  cases hd
  have hb : (Wallet.walletAt balances key).get bucket = .fin b := hb
  have hvalue := stored_unchecked hround hfits.onGrid hcolumn
  intro which
  rw [held_insert, hvalue, hb]
  simp only [Amount.value, add_sub_cancel_left]
  rfl

/-- **Writes with checks.** -/
theorem Stored.run {writes : List (Write κ)} (hround : Precise 40 19 round) :
    ∀ {balances balances' : SortedMap κ WalletEntity} {units : List Unit}, Stored balances →
      (∀ write ∈ writes, write.check.isSome ∧ IsNumber write.amount) →
      Machine.run (applyWrite round balanceColumn) balances writes = .ok (units, balances') →
      (∀ write ∈ writes, ∃ d, write.amount = .fin d ∧ |d * 10 ^ 18| < 5 * 10 ^ 38) ∧
        ∀ which, held which balances' = held which balances
          + (writes.map fun write => if which write.key then halfUp 18 write.amount.value else 0).sum := by
  induction writes with
  | nil =>
      intro balances balances' units h _ hrun
      cases hrun
      refine ⟨fun _ hw => (nomatch hw), fun which => ?_⟩
      rw [List.map_nil, List.sum_nil, add_zero]
  | cons write writes ih =>
      intro balances balances' units h hwrites hrun
      obtain ⟨_, middle, _, happly, hrest, _⟩ := Machine.run_cons_ok.mp hrun
      obtain ⟨hcheck, hamount⟩ := hwrites write List.mem_cons_self
      obtain ⟨d, hd, hbound, hmiddle, hfirst⟩ := h.checked hround hcheck hamount happly
      obtain ⟨hamounts, hlater⟩ := ih hmiddle (fun w hw => hwrites w (List.mem_cons_of_mem write hw)) hrest
      refine ⟨List.forall_mem_cons.mpr ⟨⟨d, hd, hbound⟩, hamounts⟩, fun which => ?_⟩
      rw [hlater, hfirst, List.map_cons, List.sum_cons, add_assoc, hd]
      rfl

end Writes

/-! ### Lock and unlock -/

/-- The amount is half-way, and what it is added to stays or becomes a balance that is not negative. -/
def RoundedApart (balance amount : Amount) : Prop :=
  Halfway 18 amount.value ∧ 0 ≤ balance.value + amount.value

instance (balance amount : Amount) : Decidable (RoundedApart balance amount) :=
  inferInstanceAs (Decidable (_ ∧ _))

/-- What the two writes of `lock` and `unlock` add up to. -/
theorem pair_changes {κ : Type} [LinearOrder κ] {round : Rounding} (hround : Precise 40 19 round)
    {balances balances' : SortedMap κ WalletEntity} (h : Stored balances) {key : κ} {bucket other : Bucket}
    (hne : bucket ≠ other) {amount : Amount} (hamount : amount.isFinite = true) {label : String}
    {units : List Unit}
    (hrun : Machine.run (applyWrite round balanceColumn) balances
      [⟨key, bucket, amount.negated, some label⟩, ⟨key, other, amount, none⟩] = .ok (units, balances')) :
    ∀ which, held which balances' = held which balances
      + if which key then (if RoundedApart ((walletAt balances key).get other) amount then unit else 0)
        else 0 := by
  obtain ⟨x, rfl⟩ := isFinite_iff.mp hamount
  obtain ⟨_, middle, _, hfirst, hrest, _⟩ := Machine.run_cons_ok.mp hrun
  obtain ⟨_, _, _, hsecond, hnil, _⟩ := Machine.run_cons_ok.mp hrest
  cases hnil
  obtain ⟨b, d, stored, _, _, _, _, _, _, hmiddle, hstored⟩ := h.write hround (Or.inr ⟨-x, rfl⟩) hfirst
  obtain ⟨d', hd', _, _, hheld⟩ := h.checked hround rfl (Or.inr ⟨-x, rfl⟩) hfirst
  cases hd'
  have hother : (walletAt middle key).get other = (walletAt balances key).get other := by
    rw [hmiddle, walletAt_insert, WalletEntity.get_set_ne _ hne]
  intro which
  rw [hstored.unchecked hround hsecond, hheld, hother, add_assoc]
  congr 1
  split
  · rw [halfUp_neg, halfUp_eq 18 x]
    simp only [RoundedApart, Amount.value_fin, unit]
    by_cases hsum : 0 ≤ ((walletAt balances key).get other).value + x
    · by_cases hhalf : Halfway 18 x
      · simp only [hsum, hhalf, and_self, if_true]
        ring
      · simp only [hsum, hhalf, false_and, if_true, if_false]
        ring
    · simp only [hsum, and_false, if_false]
      ring
  · exact add_zero 0

/-! ### Settlements -/

/-- The fee of the user who pays the quote asset: the taker where the maker sells. -/
def SettlementDto.payerFee (dto : SettlementDto) : Amount :=
  if dto.makerSide = "SELL" then dto.takerFee.getD .zero else dto.makerFee.getD .zero

/-- The fee of the user who receives it. -/
def SettlementDto.receiverFee (dto : SettlementDto) : Amount :=
  if dto.makerSide = "SELL" then dto.makerFee.getD .zero else dto.takerFee.getD .zero

/-- What is paid in the quote asset. -/
def SettlementDto.paid (round : Rounding) (dto : SettlementDto) : Amount :=
  Amount.add round (quoteAmount round dto) dto.payerFee

/-- What is received in the quote asset. -/
def SettlementDto.received (round : Rounding) (dto : SettlementDto) : Amount :=
  Amount.subtract round (quoteAmount round dto) dto.receiverFee

/-- A half-way number is paid: it is rounded down. -/
def SettlementDto.PaysHalf (round : Rounding) (dto : SettlementDto) : Prop :=
  Halfway 18 (dto.paid round).value ∧
    (dto.paid round).value ≤ (quoteAmount round dto).value + dto.payerFee.value

/-- A half-way number is received that was less before its digits were cut off: it is rounded up. -/
def SettlementDto.ReceivesHalf (round : Rounding) (dto : SettlementDto) : Prop :=
  Halfway 18 (dto.received round).value ∧
    (quoteAmount round dto).value - dto.receiverFee.value < (dto.received round).value

instance (round : Rounding) (dto : SettlementDto) : Decidable (dto.PaysHalf round) :=
  inferInstanceAs (Decidable (_ ∧ _))

instance (round : Rounding) (dto : SettlementDto) : Decidable (dto.ReceivesHalf round) :=
  inferInstanceAs (Decidable (_ ∧ _))

/-- An amount of at most 18 decimals. -/
def Placed (a : Amount) : Prop := ∃ x, a = .fin x ∧ OnGrid 18 x

/-- Price, quantity and fees have at most 18 decimals. -/
structure SettlementDto.Placed (dto : SettlementDto) : Prop where
  price : Wallet.Placed dto.price
  quantity : Wallet.Placed dto.quantity
  makerFee : Wallet.Placed (dto.makerFee.getD .zero)
  takerFee : Wallet.Placed (dto.takerFee.getD .zero)

/-- The legs of a settlement in terms of what is paid and received. -/
theorem settlementLegs_eq (round : Rounding) (dto : SettlementDto) :
    settlementLegs round dto = if dto.makerSide = "SELL" then
        [⟨dto.makerUserId, dto.baseAsset, dto.quantity.negated, .locked⟩,
          ⟨dto.makerUserId, dto.quoteAsset, dto.received round, .available⟩,
          ⟨dto.takerUserId, dto.quoteAsset, (dto.paid round).negated, .locked⟩,
          ⟨dto.takerUserId, dto.baseAsset, dto.quantity, .available⟩]
      else
        [⟨dto.makerUserId, dto.quoteAsset, (dto.paid round).negated, .locked⟩,
          ⟨dto.makerUserId, dto.baseAsset, dto.quantity, .available⟩,
          ⟨dto.takerUserId, dto.baseAsset, dto.quantity.negated, .locked⟩,
          ⟨dto.takerUserId, dto.quoteAsset, dto.received round, .available⟩] := by
  rw [settlementLegs, SettlementDto.paid, SettlementDto.received, SettlementDto.payerFee,
    SettlementDto.receiverFee]
  split <;> rfl

theorem SettlementDto.fees_eq (dto : SettlementDto) :
    dto.fees = dto.payerFee.value + dto.receiverFee.value := by
  rw [SettlementDto.fees, SettlementDto.payerFee, SettlementDto.receiverFee]
  split
  · exact add_comm _ _
  · rfl

theorem SettlementDto.Placed.payerFee {dto : SettlementDto} (h : dto.Placed) :
    Wallet.Placed dto.payerFee := by
  rw [SettlementDto.payerFee]
  split
  · exact h.takerFee
  · exact h.makerFee

theorem SettlementDto.Placed.receiverFee {dto : SettlementDto} (h : dto.Placed) :
    Wallet.Placed dto.receiverFee := by
  rw [SettlementDto.receiverFee]
  split
  · exact h.makerFee
  · exact h.takerFee

theorem SettlementDto.Placed.quote {round : Rounding} (hround : Precise 40 19 round)
    {dto : SettlementDto} (h : dto.Placed) : IsNumber (quoteAmount round dto) := by
  obtain ⟨p, hp, _⟩ := h.price
  obtain ⟨q, hq, _⟩ := h.quantity
  rw [quoteAmount, hp, hq]
  exact hround.towardZero.infinite_or_fin (p * q)

/-- A number plus a finite one. -/
theorem IsNumber.add {round : Rounding} (hround : Precise 40 19 round) {a : Amount} (h : IsNumber a) (f : ℚ) :
    IsNumber (Amount.add round a (.fin f)) ∧
      ∀ r, Amount.add round a (.fin f) = .fin r → ∃ v, a = .fin v ∧ round (v + f) = .fin r := by
  rcases h with ⟨negative, rfl⟩ | ⟨v, rfl⟩
  · exact ⟨Or.inl ⟨negative, rfl⟩, fun _ hr => nomatch hr⟩
  · exact ⟨hround.towardZero.infinite_or_fin (v + f), fun r hr => ⟨v, rfl, hr⟩⟩

/-- The payer's balance is lowered by the quote amount and his fee, by less if he pays a half-way number. -/
theorem halfDown_paid {round : Rounding} (hround : Precise 40 19 round) {dto : SettlementDto}
    (h : dto.Placed) {d : ℚ} (hd : dto.paid round = .fin d) (hbound : |d * 10 ^ 18| < 5 * 10 ^ 38) :
    halfDown 18 d = halfUp 18 (quoteAmount round dto).value + dto.payerFee.value
      - if dto.PaysHalf round then unit else 0 := by
  obtain ⟨f, hf, hgrid⟩ := h.payerFee
  have hsum := hd
  rw [SettlementDto.paid, hf] at hsum
  obtain ⟨v, hv, hr⟩ := ((h.quote hround).add hround f).2 d hsum
  rw [hround.halfDown_round hr hbound, add_comm v f, hgrid.halfUp_add, hv, hf]
  simp only [SettlementDto.PaysHalf, hd, hv, hf, Amount.value, unit, add_comm f]

/-- The receiver's balance is raised by the quote amount less his fee, by more if what he receives was
raised to a half-way number. -/
theorem halfUp_received {round : Rounding} (hround : Precise 40 19 round) {dto : SettlementDto}
    (h : dto.Placed) {d : ℚ} (hd : dto.received round = .fin d) (hbound : |d * 10 ^ 18| < 5 * 10 ^ 38) :
    halfUp 18 d = halfUp 18 (quoteAmount round dto).value - dto.receiverFee.value
      + if dto.ReceivesHalf round then unit else 0 := by
  obtain ⟨f, hf, hgrid⟩ := h.receiverFee
  have hsum : Amount.add round (quoteAmount round dto) (.fin (-f)) = .fin d := by
    rw [← hd, SettlementDto.received, hf]
    rfl
  obtain ⟨v, hv, hr⟩ := ((h.quote hround).add hround (-f)).2 d hsum
  rw [hround.halfUp_round hr hbound, add_comm v (-f), hgrid.neg.halfUp_add, hv, hf]
  simp only [SettlementDto.ReceivesHalf, hd, hv, hf, Amount.value, unit, neg_add_eq_sub]

/-- The legs of a settlement that are made. -/
theorem legs_change {round : Rounding} (hround : Precise 40 19 round)
    {balances balances' : SortedMap (String ×ₗ String) WalletEntity} (h : Stored balances)
    {legs : List BalanceLeg} (hlegs : ∀ leg ∈ legs, IsNumber leg.amount) {units : List Unit}
    (hrun : Machine.run (applyWrite round balanceColumn) balances (legWrites Database.rowKey legs)
      = .ok (units, balances')) :
    (∀ leg ∈ legs, ∃ d, leg.amount = .fin d ∧ |d * 10 ^ 18| < 5 * 10 ^ 38) ∧
      ∀ asset, totalOf asset balances' = totalOf asset balances
        + (legs.map fun leg => if leg.asset = asset then halfUp 18 leg.amount.value else 0).sum := by
  have hwrites : ∀ write ∈ legWrites Database.rowKey legs, write.check.isSome ∧ IsNumber write.amount := by
    intro write hwrite
    obtain ⟨leg, hleg, rfl⟩ := List.mem_map.mp hwrite
    exact ⟨rfl, hlegs leg hleg⟩
  obtain ⟨hamounts, hheld⟩ := h.run hround hwrites hrun
  refine ⟨fun leg hleg => hamounts _ (List.mem_map.mpr ⟨leg, hleg, rfl⟩), fun asset => ?_⟩
  rw [totalOf, hheld, legWrites, List.map_map, totalOf]
  simp only [Function.comp_def, ofAsset_rowKey, decide_eq_true_eq]

theorem IsNumber.negated {a : Amount} (h : IsNumber a) : IsNumber a.negated := by
  rcases h with ⟨negative, rfl⟩ | ⟨x, rfl⟩
  · exact Or.inl ⟨!negative, rfl⟩
  · exact Or.inr ⟨-x, rfl⟩

/-- What the quantity, what is paid and what is received add to an asset. -/
theorem settled_total {round : Rounding} (hround : Precise 40 19 round)
    {balances balances' : SortedMap (String ×ₗ String) WalletEntity} (h : Stored balances)
    {dto : SettlementDto} (hpaid : IsNumber (dto.paid round)) (hreceived : IsNumber (dto.received round))
    {q : ℚ} (hq : dto.quantity = .fin q) {units : List Unit}
    (hrun : Machine.run (applyWrite round balanceColumn) balances
      (legWrites Database.rowKey (settlementLegs round dto)) = .ok (units, balances')) :
    ∃ paid received, dto.paid round = .fin paid ∧ |paid * 10 ^ 18| < 5 * 10 ^ 38 ∧
      dto.received round = .fin received ∧ |received * 10 ^ 18| < 5 * 10 ^ 38 ∧
      ∀ asset, totalOf asset balances' = totalOf asset balances
        + (if dto.baseAsset = asset then halfUp 18 (-q) + halfUp 18 q else 0)
        + if dto.quoteAsset = asset then halfUp 18 received - halfDown 18 paid else 0 := by
  have hfinite : ∀ {a : Amount} {d : ℚ}, a.negated = .fin d → a = .fin (-d) := by
    intro a d ha
    cases a with
    | nan => cases ha
    | inf _ => cases ha
    | fin x =>
        cases ha
        rw [neg_neg]
  have hquantity : IsNumber dto.quantity := Or.inr ⟨q, hq⟩
  rw [settlementLegs_eq] at hrun
  split at hrun
  · obtain ⟨hamounts, htotal⟩ := legs_change hround h (by
      simp only [List.forall_mem_cons, List.not_mem_nil, false_imp_iff, implies_true, and_true]
      exact ⟨hquantity.negated, hreceived, hpaid.negated, hquantity⟩) hrun
    simp only [List.forall_mem_cons] at hamounts
    obtain ⟨_, ⟨received, hr, hrbound⟩, ⟨paid, hp, hpbound⟩, _⟩ := hamounts
    have hp := hfinite hp
    refine ⟨-paid, received, hp, ?_, hr, hrbound, fun asset => ?_⟩
    · rw [neg_mul, abs_neg]
      exact hpbound
    · rw [htotal, hq, hp, hr]
      simp only [List.map_cons, List.map_nil, List.sum_cons, List.sum_nil, Amount.negated, Extended.neg,
        Amount.value_fin, neg_neg, halfDown_neg]
      split
      · split
        · ring
        · ring
      · split
        · ring
        · ring
  · obtain ⟨hamounts, htotal⟩ := legs_change hround h (by
      simp only [List.forall_mem_cons, List.not_mem_nil, false_imp_iff, implies_true, and_true]
      exact ⟨hpaid.negated, hquantity, hquantity.negated, hreceived⟩) hrun
    simp only [List.forall_mem_cons] at hamounts
    obtain ⟨⟨paid, hp, hpbound⟩, _, _, ⟨received, hr, hrbound⟩, _⟩ := hamounts
    have hp := hfinite hp
    refine ⟨-paid, received, hp, ?_, hr, hrbound, fun asset => ?_⟩
    · rw [neg_mul, abs_neg]
      exact hpbound
    · rw [htotal, hq, hp, hr]
      simp only [List.map_cons, List.map_nil, List.sum_cons, List.sum_nil, Amount.negated, Extended.neg,
        Amount.value_fin, neg_neg, halfDown_neg]
      split
      · split
        · ring
        · ring
      · split
        · ring
        · ring

/-- **What a settlement adds to an asset**: less the two fees, and a unit more for each of the two amounts
that is rounded to the wrong side. -/
theorem settle_changes {round : Rounding} (hround : Precise 40 19 round) {db db' : Database}
    (h : Stored db.wallets) {dto : SettlementDto} (hdto : dto.Placed) {reply : WalletReply}
    (hexec : db.exec round balanceColumn (.settleTrade dto) = .ok (reply, db')) (asset : String) :
    totalOf asset db'.wallets = totalOf asset db.wallets + WalletOp.net asset (.settleTrade dto)
      + if dto.quoteAsset = asset then
          (if dto.PaysHalf round then unit else 0) + (if dto.ReceivesHalf round then unit else 0)
        else 0 := by
  obtain ⟨_, units, hrun⟩ := database_exec_writes (numeric_numeric 38 18).toKeeps hexec
  obtain ⟨q, hq, hgrid⟩ := hdto.quantity
  have hpaid : IsNumber (dto.paid round) := by
    obtain ⟨f, hf, _⟩ := hdto.payerFee
    rw [SettlementDto.paid, hf]
    exact ((hdto.quote hround).add hround f).1
  have hreceived : IsNumber (dto.received round) := by
    obtain ⟨f, hf, _⟩ := hdto.receiverFee
    rw [SettlementDto.received, hf]
    exact ((hdto.quote hround).add hround (-f)).1
  obtain ⟨paid, received, hp, hpbound, hr, hrbound, htotal⟩ := settled_total hround h hpaid hreceived hq hrun
  have hbase : halfUp 18 (-q) + halfUp 18 q = 0 := by
    rw [hgrid.neg.halfUp_self, hgrid.halfUp_self, neg_add_cancel]
  rw [htotal, hbase, ite_self, add_zero, WalletOp.net, dto.fees_eq, halfDown_paid hround hdto hp hpbound,
    halfUp_received hround hdto hr hrbound]
  split
  · ring
  · ring

/-- **What `lock` and `unlock` add to an asset**: nothing, or a unit where their two writes are rounded
apart. -/
theorem pair_changes_total {round : Rounding} (hround : Precise 40 19 round)
    {balances balances' : SortedMap (String ×ₗ String) WalletEntity} (h : Stored balances)
    {dto : BalanceMutationDto} {bucket other : Bucket} (hne : bucket ≠ other)
    (hamount : dto.amount.isFinite = true) {label : String} {units : List Unit}
    (hrun : Machine.run (applyWrite round balanceColumn) balances
      [⟨Database.rowKey dto.userId dto.asset, bucket, dto.amount.negated, some label⟩,
        ⟨Database.rowKey dto.userId dto.asset, other, dto.amount, none⟩] = .ok (units, balances'))
    (asset : String) :
    totalOf asset balances' = totalOf asset balances + if dto.asset = asset then
        (if RoundedApart ((walletAt balances (Database.rowKey dto.userId dto.asset)).get other) dto.amount
          then unit else 0) else 0 := by
  rw [totalOf, pair_changes hround h hne hamount hrun, totalOf]
  simp only [ofAsset_rowKey, decide_eq_true_eq]

/-! ### When money is conserved -/

/-- A lock or an unlock of a finite amount, or a settlement of numbers of at most 18 decimals. -/
def WalletOp.Covered : WalletOp → Prop
  | .credit _ _ => False
  | .debit _ _ => False
  | .lock dto => dto.amount.isFinite = true
  | .unlock dto => dto.amount.isFinite = true
  | .internalTransfer _ _ => False
  | .settleTrade dto => dto.Placed

/-- No amount of the call is rounded to the wrong side. -/
def WalletOp.RoundsEvenly (round : Rounding) (wallets : SortedMap (String ×ₗ String) WalletEntity) :
    WalletOp → Prop
  | .credit _ _ => True
  | .debit _ _ => True
  | .lock dto => ¬ RoundedApart (walletAt wallets (Database.rowKey dto.userId dto.asset)).locked dto.amount
  | .unlock dto =>
    ¬ RoundedApart (walletAt wallets (Database.rowKey dto.userId dto.asset)).available dto.amount
  | .internalTransfer _ _ => True
  | .settleTrade dto => ¬ dto.PaysHalf round ∧ ¬ dto.ReceivesHalf round

theorem unit_pos : 0 < unit := by
  rw [unit]
  positivity

/-- The units that are added: none, or a positive number of them. -/
theorem units_eq_zero_iff {p q : Prop} [Decidable p] [Decidable q] :
    (if p then unit else 0) + (if q then unit else 0) = 0 ↔ ¬ p ∧ ¬ q := by
  have hpos := unit_pos
  by_cases hp : p <;> by_cases hq : q <;> simp only [hp, hq, if_true, if_false, not_true_eq_false,
    not_false_eq_true, and_true, and_false, iff_false, add_zero, zero_add]
  · exact (add_pos hpos hpos).ne'
  · exact hpos.ne'
  · exact hpos.ne'

/-- **When stored balances conserve money.**  A lock, an unlock or a settlement that succeeds leaves the
totals as they were, less the fees of a settlement, exactly if it rounds no half-way number to the wrong
side. -/
theorem stored_balances_conserve_iff {round : Rounding} (hround : Precise 40 19 round) {db db' : Database}
    (hstored : Stored db.wallets) {op : WalletOp} (hop : op.Covered) {reply : WalletReply}
    (hexec : db.exec round balanceColumn op = .ok (reply, db')) :
    (∀ asset, totalOf asset db'.wallets = totalOf asset db.wallets + op.net asset) ↔
      op.RoundsEvenly round db.wallets := by
  -- the totals of all assets agree exactly if that of the one asset concerned does
  have hone : ∀ (asset' : String) {extra : ℚ},
      (∀ asset, totalOf asset db'.wallets
        = totalOf asset db.wallets + op.net asset + if asset' = asset then extra else 0) →
      ((∀ asset, totalOf asset db'.wallets = totalOf asset db.wallets + op.net asset) ↔ extra = 0) := by
    intro asset' extra hextra
    constructor
    · intro h
      have hself := hextra asset'
      rw [h asset', if_pos rfl] at hself
      linarith
    · rintro rfl asset
      rw [hextra, ite_self, add_zero]
  cases op with
  | credit dto type => exact hop.elim
  | debit dto type => exact hop.elim
  | internalTransfer dto toUserId => exact hop.elim
  | lock dto =>
      obtain ⟨_, units, hrun⟩ := database_exec_writes (numeric_numeric 38 18).toKeeps hexec
      rw [hone dto.asset fun asset => by
        rw [pair_changes_total hround hstored Bucket.noConfusion hop hrun, WalletOp.net, add_zero]]
      rw [WalletOp.RoundsEvenly, ite_eq_right_iff]
      exact ⟨fun h hapart => unit_pos.ne' (h hapart), fun h hapart => absurd hapart h⟩
  | unlock dto =>
      obtain ⟨_, units, hrun⟩ := database_exec_writes (numeric_numeric 38 18).toKeeps hexec
      rw [hone dto.asset fun asset => by
        rw [pair_changes_total hround hstored Bucket.noConfusion hop hrun, WalletOp.net, add_zero]]
      rw [WalletOp.RoundsEvenly, ite_eq_right_iff]
      exact ⟨fun h hapart => unit_pos.ne' (h hapart), fun h hapart => absurd hapart h⟩
  | settleTrade dto =>
      rw [hone dto.quoteAsset fun asset => settle_changes hround hstored hop hexec asset,
        WalletOp.RoundsEvenly, units_eq_zero_iff]

/-- Alice has 1 USDT and another locked, bob has a bitcoin locked. -/
def tradingDatabase : Database where
  users := (SortedMap.empty.insert "alice" .active).insert "bob" .active
  wallets := (SortedMap.empty.insert (Database.rowKey "alice" "USDT") ⟨.fin 1, .fin 1⟩).insert
    (Database.rowKey "bob" "BTC") ⟨.fin 0, .fin 1⟩
  ledger := []

theorem stored_tradingDatabase : Stored tradingDatabase.wallets := by
  have hone : Fits 38 18 1 := ⟨10 ^ 18, by norm_num, by norm_num⟩
  have hzero := Fits.zero 38 18
  intro key wallet hfind bucket
  simp only [tradingDatabase, SortedMap.find_insert, SortedMap.find_empty] at hfind
  split at hfind
  · cases hfind
    cases bucket
    · exact ⟨0, rfl, hzero⟩
    · exact ⟨1, rfl, hone⟩
  · split at hfind
    · cases hfind
      cases bucket
      · exact ⟨1, rfl, hone⟩
      · exact ⟨1, rfl, hone⟩
    · cases hfind

/-- Alice buys a tenth of a bitcoin for 8 USDT each; both pay a fee. -/
def tenthTrade : SettlementDto :=
  ⟨"bob", "alice", "SELL", "BTC", "USDT", .fin 8, .fin (1 / 10), some (.fin (1 / 1000)), some (.fin (1 / 500)),
    "trade"⟩

theorem stored_balances_conserve_iff_tenthTrade :
    Stored tradingDatabase.wallets ∧ (WalletOp.settleTrade tenthTrade).Covered ∧
      ∃ reply db', tradingDatabase.exec .fin balanceColumn (.settleTrade tenthTrade) = .ok (reply, db') ∧
        ((∀ asset, totalOf asset db'.wallets
            = totalOf asset tradingDatabase.wallets + WalletOp.net asset (.settleTrade tenthTrade)) ↔
          (WalletOp.settleTrade tenthTrade).RoundsEvenly .fin tradingDatabase.wallets) := by
  have hcovered : (WalletOp.settleTrade tenthTrade).Covered :=
    ⟨⟨8, rfl, 8 * 10 ^ 18, by norm_num⟩, ⟨1 / 10, rfl, 10 ^ 17, by norm_num⟩,
      ⟨1 / 1000, rfl, 10 ^ 15, by norm_num⟩, ⟨1 / 500, rfl, 2 * 10 ^ 15, by norm_num⟩⟩
  have hsome : (tradingDatabase.exec .fin balanceColumn (.settleTrade tenthTrade)).isOk = true := by
    decide +kernel
  refine ⟨stored_tradingDatabase, hcovered, ?_⟩
  cases hexec : tradingDatabase.exec .fin balanceColumn (.settleTrade tenthTrade) with
  | error e => rw [hexec] at hsome; cases hsome
  | ok r =>
      exact ⟨r.1, r.2, rfl,
        stored_balances_conserve_iff (precise_fin 40 19) stored_tradingDatabase hcovered hexec⟩

/-- Half a unit of the last place. -/
def halfUnit : ℚ := 5 / 10 ^ 19

/-- **Half a unit**: a lock of it adds a unit to `locked` and takes none from `available`; a trade in which
it is paid gives the seller a unit and takes none from the buyer. -/
theorem half_unit_is_rounded_up :
    ((tradingDatabase.exec .fin balanceColumn
          (.lock ⟨"alice", "USDT", .fin halfUnit, "order"⟩)).toOption.map fun r =>
        totalOf "USDT" r.2.wallets) = some (totalOf "USDT" tradingDatabase.wallets + unit) ∧
      ((tradingDatabase.exec .fin balanceColumn (.settleTrade ⟨"bob", "alice", "SELL", "BTC", "USDT",
          .fin (1 / 2), .fin unit, none, none, "trade"⟩)).toOption.map fun r =>
        totalOf "USDT" r.2.wallets) = some (totalOf "USDT" tradingDatabase.wallets + unit) := by
  decide +kernel

end NexusTrade.Wallet
