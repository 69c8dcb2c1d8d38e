import NexusTrade.Lib.Totals
import NexusTrade.Wallet.Available
import NexusTrade.Wallet.Totals
import NexusTrade.Withdrawal.Charges

/-!
# The funds of approved withdrawals

The withdrawal service, the consumer of its topic in the wallet service, and the other calls on the wallet service, in
any order.  A request is checked against a balance that it was once told, and nothing is set aside for it.

* **`fundsStep`** is one step of the system;
* **`WithdrawalSystem.owed`** are the amounts and fees of the confirmed withdrawals whose debit is still to come;
* **`Debitable`** says that what is owed is available, and that the debits to come are not refused for lack of funds;
* **`Reserves`** is the condition on a step: no step takes or promises what is already owed;
* **`approved_can_be_debited`** says that the first holds in every run under the second.
-/

namespace NexusTrade

open Wallet Delivery

/-! ### The system -/

/-- A call on the withdrawal service or the delivery of a message, or a call on the wallet service. -/
inductive FundsCall
  | withdrawal (call : WithdrawalCall)
  | wallet (op : WalletOp)
  deriving DecidableEq

inductive FundsReply
  | withdrawal (reply : WithdrawalReply)
  | wallet (result : Except WalletError WalletReply)
  deriving DecidableEq

/-- One step of the system. -/
def fundsStep (config : WithdrawalConfig) (round : Rounding) (column : Column) (system : WithdrawalSystem) :
    FundsCall → Except Empty (FundsReply × WithdrawalSystem)
  | .withdrawal call =>
    match withdrawalStep config round column system call with
    | .ok (reply, system) => .ok (.withdrawal reply, system)
  | .wallet op =>
    let (result, wallet) := system.wallet.exec round column op
    .ok (.wallet result, { system with wallet := wallet })

/-! ### What is owed -/

/-- What a withdrawal takes out. -/
def WithdrawalEntity.charge (row : WithdrawalEntity) : ℚ := row.amount.value + row.fee.value

/-- What a withdrawal still has to take out of a wallet, where some have been debited. -/
def outstanding (processed : List String) (key : String ×ₗ String) (id : String) (row : WithdrawalEntity) : ℚ :=
  if row.status = .confirmed ∧ Database.rowKey row.userId row.asset = key ∧ id ∉ processed then row.charge else 0

namespace WithdrawalSystem

/-- The withdrawals whose debit has been processed. -/
def processed (system : WithdrawalSystem) : List String :=
  (effects approvalOf system.topic system.debited).map Prod.fst

/-- **What is owed** to the confirmed withdrawals of a wallet whose debit has not been processed. -/
def owed (system : WithdrawalSystem) (key : String ×ₗ String) : ℚ :=
  SortedMap.sumOf (outstanding system.processed key) system.withdrawal.withdrawals

/-- What is available in a wallet. -/
def available (system : WithdrawalSystem) (key : String ×ₗ String) : Amount :=
  (system.wallet.getBalance (ofLex key).1 (ofLex key).2).available

/-- A withdrawal is confirmed, and its debit has not been processed. -/
def Awaits (system : WithdrawalSystem) (id : String) : Prop :=
  ∃ row ∈ system.withdrawal.withdrawals.find id, row.status = .confirmed ∧ id ∉ system.processed

/-- Besides what is owed, an amount is available in a wallet. -/
def Covers (system : WithdrawalSystem) (key : String ×ₗ String) (amount : ℚ) : Prop :=
  system.owed key + amount ≤ (system.available key).value

instance (system : WithdrawalSystem) (id : String) : Decidable (system.Awaits id) :=
  inferInstanceAs (Decidable (∃ row ∈ system.withdrawal.withdrawals.find id, _))

instance (system : WithdrawalSystem) (key : String ×ₗ String) (amount : ℚ) : Decidable (system.Covers key amount) :=
  inferInstanceAs (Decidable (_ ≤ _))

end WithdrawalSystem

/-- **Approved withdrawals can be debited**: what is owed is available, and no message of a withdrawal whose debit is
still to come fails for lack of funds. -/
structure Debitable (round : Rounding) (column : Column) (system : WithdrawalSystem) : Prop where
  covered : ∀ userId asset, ∃ b, (system.wallet.getBalance userId asset).available = .fin b ∧
    system.owed (Database.rowKey userId asset) ≤ b
  notShort : ∀ position id payload, effectAt approvalOf system.topic position = some (id, payload) → system.Awaits id →
    ∀ op message, (system.deliver round column position).1 ≠ .called op (.error (.error message))

/-! ### The condition -/

/-- The amount of a request: positive, and with at most fifteen decimal places if it is confirmed at once. -/
def Requestable (amount : Amount) : Prop :=
  0 < amount.value ∧ (approvalTier amount = .auto → (amount.value * 10 ^ 15).isInt = true)

instance (amount : Amount) : Decidable (Requestable amount) := inferInstanceAs (Decidable (_ ∧ (_ → _)))

/-- **The condition on a step**, unless it is a request or another call on the wallet service and is refused.  A
withdrawal is confirmed only if it is covered besides what is owed.  A message is delivered only while its withdrawal
awaits its debit, or if the debit is covered besides.  Another call on the wallet service lowers a balance at most once,
by what is covered besides. -/
def Reserves (config : WithdrawalConfig) (round : Rounding) (column : Column) (system : WithdrawalSystem) :
    FundsCall → Prop
  | .withdrawal (.request surroundings dto) =>
    (system.withdrawal.request config round column surroundings dto).isOk = true →
      system.withdrawal.withdrawals.find surroundings.uuid = none ∧ Requestable dto.amount ∧
        (approvalTier dto.amount = .auto →
          system.Covers (Database.rowKey dto.userId dto.asset) (dto.amount.value + dto.amount.value / 1000))
  | .withdrawal (.approve id _) =>
    ∀ row ∈ system.withdrawal.withdrawals.find id, row.status ≠ .confirmed → id ∉ system.processed →
      system.Covers (Database.rowKey row.userId row.asset) row.charge
  | .withdrawal (.reject _ _) => True
  | .withdrawal (.deliver position) =>
    ∀ approval ∈ effectAt approvalOf system.topic position, system.Awaits approval.1 ∨
      system.Covers (Database.rowKey approval.2.userId approval.2.asset) (approval.2.amount.add round approval.2.fee).value
  | .wallet op =>
    (system.wallet.exec round column op).1.isOk = true →
      FiniteWrites (op.typeOrmWrites round) ∧ ∀ write ∈ op.typeOrmWrites round,
        (lowered (op.typeOrmWrites round) write.key).length ≤ 1 ∧
          ∀ x ∈ lowered (op.typeOrmWrites round) write.key, system.Covers write.key x

instance (config : WithdrawalConfig) (round : Rounding) (column : Column) (system : WithdrawalSystem) :
    DecidablePred (Reserves config round column system)
  | .withdrawal (.request _ _) => inferInstanceAs (Decidable (_ → _ ∧ _ ∧ (_ → _)))
  | .withdrawal (.approve id _) =>
    inferInstanceAs (Decidable (∀ row ∈ system.withdrawal.withdrawals.find id, _ → _ → _))
  | .withdrawal (.reject _ _) => inferInstanceAs (Decidable True)
  | .withdrawal (.deliver position) =>
    inferInstanceAs (Decidable (∀ approval ∈ effectAt approvalOf system.topic position, _ ∨ _))
  | .wallet op =>
    inferInstanceAs (Decidable (_ → _ ∧ ∀ write ∈ op.typeOrmWrites round, _ ∧ ∀ x ∈ lowered _ write.key, _))

/-! ### The invariant -/

variable {config : WithdrawalConfig} {round : Rounding} {column : Column}

/-- The amounts of a row are what the columns hold, and not negative. -/
def WithdrawalEntity.Held (row : WithdrawalEntity) : Prop :=
  ∃ a f, row.amount = .fin a ∧ row.fee = .fin f ∧ 0 ≤ a ∧ 0 ≤ f ∧ Fits 38 18 a ∧ Fits 38 18 f

/-- A natural number of units of the last place. -/
def Units (x : ℚ) : Prop := ∃ k : ℕ, x = k / 10 ^ 18

theorem Units.zero : Units 0 := ⟨0, by norm_num⟩

theorem Units.add {x y : ℚ} (hx : Units x) (hy : Units y) : Units (x + y) := by
  obtain ⟨k, rfl⟩ := hx
  obtain ⟨l, rfl⟩ := hy
  refine ⟨k + l, ?_⟩
  rw [Nat.cast_add, add_div]

theorem Units.nonneg {x : ℚ} (h : Units x) : 0 ≤ x := by
  obtain ⟨k, rfl⟩ := h
  positivity

theorem Units.fits {x b : ℚ} (h : Units x) (hle : x ≤ b) (hb : Fits 38 18 b) : Fits 38 18 x := by
  obtain ⟨k, rfl⟩ := h
  exact fits_of_le hle hb

theorem Fits.units {x : ℚ} (h : Fits 38 18 x) (hnonneg : 0 ≤ x) : Units x := by
  obtain ⟨k, rfl, -⟩ := h
  have hk : (0 : ℚ) ≤ k := by
    rwa [le_div_iff₀ (by positivity), zero_mul] at hnonneg
  obtain ⟨n, rfl⟩ := Int.eq_ofNat_of_zero_le (show 0 ≤ k by exact_mod_cast hk)
  exact ⟨n, by rw [Int.cast_natCast]⟩

theorem WithdrawalEntity.Held.units {row : WithdrawalEntity} (h : row.Held) : Units row.charge := by
  obtain ⟨a, f, ha, hf, ha0, hf0, hafits, hffits⟩ := h
  rw [charge, ha, hf]
  exact (hafits.units ha0).add (hffits.units hf0)

/-- The consumer debits what the withdrawal takes out. -/
theorem WithdrawalEntity.Held.sum (hround : Precise 40 18 round) {row : WithdrawalEntity} (h : row.Held) :
    row.amount.add round row.fee = .fin row.charge := by
  obtain ⟨a, f, ha, hf, -, -, hafits, hffits⟩ := h
  rw [charge, ha, hf]
  exact hround.exact (a + f) ((hafits.add hffits).mono (by decide))

theorem outstanding_units {processed : List String} {key : String ×ₗ String} {id : String} {row : WithdrawalEntity}
    (h : row.Held) : Units (outstanding processed key id row) := by
  rw [outstanding]
  split
  · exact h.units
  · exact Units.zero

/-- **What runs keep**: the rows and the approvals hold what they will take out, and what is owed is available. -/
structure Reserved (round : Rounding) (system : WithdrawalSystem) : Prop where
  named : system.withdrawal.Named
  rows : ∀ id row, system.withdrawal.withdrawals.find id = some row → row.Held
  approvals : ∀ position id payload, effectAt approvalOf system.topic position = some (id, payload) →
    ∃ row, system.withdrawal.withdrawals.find id = some row ∧
      Database.rowKey payload.userId payload.asset = Database.rowKey row.userId row.asset ∧
      payload.amount.add round payload.fee = .fin row.charge
  taken : ∀ position ∈ system.debited, position < system.topic.length
  leaves : ∃ db, system.wallet.dataSource = some db ∧ Leaves db.wallets system.owed

namespace Reserved

variable {system : WithdrawalSystem}

theorem owed_units (hrows : ∀ id row, system.withdrawal.withdrawals.find id = some row → row.Held)
    (key : String ×ₗ String) : Units (system.owed key) :=
  SortedMap.sumOf_closed Units.zero (fun _ _ => Units.add) fun id row hfind => outstanding_units (hrows id row hfind)

/-- What one withdrawal awaits is part of what is owed. -/
theorem owed_ge (h : Reserved round system) {id : String} {row : WithdrawalEntity}
    (hfind : system.withdrawal.withdrawals.find id = some row) (key : String ×ₗ String) :
    outstanding system.processed key id row ≤ system.owed key := by
  have hrest : Units (SortedMap.sumOf (outstanding system.processed key) (system.withdrawal.withdrawals.erase id)) := by
    refine SortedMap.sumOf_closed Units.zero (fun _ _ => Units.add) fun other row' hother => outstanding_units ?_
    · rw [SortedMap.find_erase] at hother
      split at hother
      · cases hother
      · exact h.rows other row' hother
  rw [WithdrawalSystem.owed, SortedMap.sumOf_erase _ _ id, SortedMap.weightAt, hfind]
  exact le_add_of_nonneg_left hrest.nonneg

theorem available_eq {db : Database} (hdb : system.wallet.dataSource = some db) (key : String ×ₗ String) :
    system.available key = (walletAt db.wallets key).available := by
  rw [WithdrawalSystem.available, WalletService.getBalance, hdb]
  rfl

/-- What is covered besides what is owed, in the columns. -/
theorem covers {db : Database} (hdb : system.wallet.dataSource = some db) {key : String ×ₗ String} {amount b : ℚ}
    (hcovers : system.Covers key amount) (hb : (walletAt db.wallets key).available = .fin b) :
    system.owed key + amount ≤ b := by
  rw [WithdrawalSystem.Covers, available_eq hdb, hb] at hcovers
  exact hcovers

/-! ### Calls on the withdrawal service -/

/-- What is produced has not been taken yet. -/
theorem processed_produce (h : Reserved round system) (events : List (KafkaEvent WithdrawalEntity))
    (service : WithdrawalService) : (system.produce events service).processed = system.processed := by
  rw [WithdrawalSystem.processed, WithdrawalSystem.processed]
  exact congrArg (List.map Prod.fst) (effects_append h.taken events)

/-- A withdrawal that is written changes what is owed by what it awaits now and awaited before. -/
theorem owed_produce (h : Reserved round system) {id : String} {row : WithdrawalEntity} {service : WithdrawalService}
    (hservice : service.withdrawals = system.withdrawal.withdrawals.insert id row)
    (events : List (KafkaEvent WithdrawalEntity)) (key : String ×ₗ String) :
    (system.produce events service).owed key = system.owed key +
      (outstanding system.processed key id row
        - SortedMap.weightAt (outstanding system.processed key) system.withdrawal.withdrawals id) := by
  rw [WithdrawalSystem.owed, h.processed_produce]
  show SortedMap.sumOf _ service.withdrawals = _
  rw [hservice, SortedMap.sumOf_insert]
  rfl

/-- **What a withdrawal that is written adds to what is owed** is covered. -/
theorem added_le (h : Reserved round system) {id : String} {row : WithdrawalEntity} {db : Database}
    (hdb : system.wallet.dataSource = some db)
    (hkeeps : ∀ old, system.withdrawal.withdrawals.find id = some old → old.charge = row.charge ∧
      Database.rowKey old.userId old.asset = Database.rowKey row.userId row.asset)
    (hcovers : row.status = .confirmed →
      (∃ old, system.withdrawal.withdrawals.find id = some old ∧ old.status = .confirmed) ∨ id ∈ system.processed ∨
        system.Covers (Database.rowKey row.userId row.asset) row.charge) {key : String ×ₗ String} {b : ℚ}
    (hb : (walletAt db.wallets key).available = .fin b) (hle : system.owed key ≤ b) :
    system.owed key + (outstanding system.processed key id row
      - SortedMap.weightAt (outstanding system.processed key) system.withdrawal.withdrawals id) ≤ b := by
  have hold : 0 ≤ SortedMap.weightAt (outstanding system.processed key) system.withdrawal.withdrawals id := by
    rw [SortedMap.weightAt]
    cases hfind : system.withdrawal.withdrawals.find id with
    | none => exact le_refl _
    | some old => exact (outstanding_units (h.rows id old hfind)).nonneg
  by_cases hnew : row.status = .confirmed ∧ Database.rowKey row.userId row.asset = key ∧ id ∉ system.processed
  · obtain ⟨hstatus, rfl, hprocessed⟩ := hnew
    have hweight : outstanding system.processed (Database.rowKey row.userId row.asset) id row = row.charge :=
      if_pos ⟨hstatus, rfl, hprocessed⟩
    rw [hweight]
    rcases hcovers hstatus with ⟨old, hfind, hconfirmed⟩ | hin | hcovers
    · -- it was confirmed before
      obtain ⟨hcharge, hkey⟩ := hkeeps old hfind
      have hsame : SortedMap.weightAt (outstanding system.processed (Database.rowKey row.userId row.asset))
          system.withdrawal.withdrawals id = row.charge := by
        rw [SortedMap.weightAt, hfind, ← hcharge]
        exact if_pos ⟨hconfirmed, hkey, hprocessed⟩
      rw [hsame]
      linarith
    · exact absurd hin hprocessed
    · have hcovered := covers hdb hcovers hb
      linarith
  · have hweight : outstanding system.processed key id row = 0 := if_neg hnew
    rw [hweight]
    linarith

/-- **A withdrawal is written, and its approval produced**: what it adds to what is owed is covered. -/
theorem write (h : Reserved round system) {id : String} {row : WithdrawalEntity} {service : WithdrawalService}
    {events : List (KafkaEvent WithdrawalEntity)} (hid : row.id = id) (hheld : row.Held)
    (hservice : service.withdrawals = system.withdrawal.withdrawals.insert id row)
    (hkeeps : ∀ old, system.withdrawal.withdrawals.find id = some old → old.charge = row.charge ∧
      Database.rowKey old.userId old.asset = Database.rowKey row.userId row.asset)
    (hevents : ∀ event ∈ events, ∀ approval, approvalOf event = some approval → approval.1 = id ∧
      Database.rowKey approval.2.userId approval.2.asset = Database.rowKey row.userId row.asset ∧
      approval.2.amount.add round approval.2.fee = .fin row.charge)
    (hcovers : row.status = .confirmed →
      (∃ old, system.withdrawal.withdrawals.find id = some old ∧ old.status = .confirmed) ∨ id ∈ system.processed ∨
        system.Covers (Database.rowKey row.userId row.asset) row.charge) :
    Reserved round (system.produce events service) := by
  refine ⟨h.named.insert hid hservice, ?_, ?_, ?_, ?_⟩
  · intro id' row' hfind
    have hfind' : service.withdrawals.find id' = some row' := hfind
    rw [hservice, SortedMap.find_insert] at hfind'
    split at hfind'
    · cases hfind'
      exact hheld
    · exact h.rows id' row' hfind'
  · intro position id' payload heffect
    show ∃ row', service.withdrawals.find id' = some row' ∧ _
    rw [hservice]
    by_cases hold : position < system.topic.length
    · have hbefore : effectAt approvalOf system.topic position = some (id', payload) :=
        (effectAt_append hold events).symm.trans heffect
      obtain ⟨row', hfind, hkey, hsum⟩ := h.approvals position id' payload hbefore
      rw [SortedMap.find_insert]
      split
      · rename_i heq
        subst heq
        obtain ⟨hcharge, hkey'⟩ := hkeeps row' hfind
        exact ⟨row, rfl, hkey.trans hkey', hcharge ▸ hsum⟩
      · exact ⟨row', hfind, hkey, hsum⟩
    · obtain ⟨event, hevent, happroval⟩ := Option.bind_eq_some_iff.mp heffect
      have hmem : event ∈ events := by
        have hget : (system.topic ++ events)[position]? = some event := hevent
        rw [List.getElem?_append_right (by omega)] at hget
        exact List.mem_of_getElem? hget
      obtain ⟨rfl, hkey, hsum⟩ := hevents event hmem (id', payload) happroval
      rw [SortedMap.find_insert, if_pos rfl]
      exact ⟨row, rfl, hkey, hsum⟩
  · intro position hposition
    exact (h.taken position hposition).trans_le (List.length_append ▸ Nat.le_add_right _ _)
  · obtain ⟨db, hdb, hleaves⟩ := h.leaves
    refine ⟨db, hdb, fun key => ?_⟩
    obtain ⟨b, hb, hfits, hle⟩ := hleaves key
    refine ⟨b, hb, hfits, ?_⟩
    rw [h.owed_produce hservice]
    exact h.added_le hdb hkeeps hcovers hb hle

/-- A positive amount is finite. -/
theorem exists_fin_of_pos {amount : Amount} (h : 0 < amount.value) : ∃ a, amount = .fin a ∧ 0 < a := by
  cases amount with
  | nan => exact absurd h (lt_irrefl 0)
  | inf _ => exact absurd h (lt_irrefl 0)
  | fin a => exact ⟨a, rfl, h⟩

/-- The withdrawal that `request` reads back. -/
theorem held_of_copies (hround : Precise 40 18 round) (hcolumn : Ordered 38 18 column) {dto : WithdrawalDto}
    {row : WithdrawalEntity} (hcopies : Copies round column dto row) {a : ℚ} (hamount : dto.amount = .fin a)
    (hpos : 0 < a) : row.Held := by
  have hstored := hcopies.amount
  have hfee := hcopies.fee
  rw [hamount] at hstored hfee
  rw [withdrawalFee_fin] at hfee
  obtain ⟨x, hx⟩ := hcolumn.finite a _ hstored
  have hx0 := hcolumn.balance _ _ hstored hpos.le
  rcases hround.towardZero.nonneg (a / 1000) (by positivity) with hinf | ⟨r, hr, hr0, -⟩
  · rw [hinf, hcolumn.overflow] at hfee
    cases hfee
  · rw [hr] at hfee
    obtain ⟨f, hf⟩ := hcolumn.finite r _ hfee
    have hf0 := hcolumn.balance _ _ hfee hr0
    rw [hx] at hstored hx0
    rw [hf] at hfee hf0
    exact ⟨x, f, hx, hf, hx0, hf0, hcolumn.stored _ _ hstored, hcolumn.stored _ _ hfee⟩

/-- An amount that is confirmed at once is held as it is, with its fee. -/
theorem auto_exact (hround : Precise 40 18 round) (hcolumn : Ordered 38 18 column) {dto : WithdrawalDto}
    {row : WithdrawalEntity} (hcopies : Copies round column dto row) (hrequest : Requestable dto.amount)
    (hauto : approvalTier dto.amount = .auto) :
    row.charge = dto.amount.value + dto.amount.value / 1000 ∧
      dto.amount.add round (withdrawalFee round dto.amount) = .fin row.charge := by
  obtain ⟨a, hamount, -⟩ := exists_fin_of_pos hrequest.1
  obtain ⟨units, hunits⟩ : ∃ units : ℤ, a = units / 10 ^ 15 := by
    have hint := hrequest.2 hauto
    rw [hamount] at hint
    refine ⟨(a * 10 ^ 15).num, ?_⟩
    have hnum : ((a * 10 ^ 15).num : ℚ) = a * 10 ^ 15 := Rat.eq_num_of_isInt hint ▸ rfl
    rw [hnum, mul_div_cancel_right₀ a (by norm_num)]
  subst hunits
  have hstored := hcopies.amount
  have hfee := hcopies.fee
  rw [hamount] at hstored hfee
  obtain ⟨hexact, hround', hfeeExact, hfits⟩ := charged_exact hround hcolumn.toNumeric hstored
  rw [withdrawalFee_fin, hround'] at hfee
  have hcharge : row.charge = units / 10 ^ 15 + units / 10 ^ 15 / 1000 := by
    rw [WithdrawalEntity.charge, hexact, hfeeExact _ hfee]
    rfl
  rw [hcharge, hamount, withdrawalFee_fin, hround']
  exact ⟨rfl, hround.exact _ (hfits.mono (by decide))⟩

/-- **A request** that is confirmed at once is covered. -/
theorem request (hround : Precise 40 18 round) (hcolumn : Ordered 38 18 column) (h : Reserved round system)
    {surroundings : Surroundings} {dto : WithdrawalDto}
    (hreserves : Reserves config round column system (.withdrawal (.request surroundings dto)))
    {events : List (KafkaEvent WithdrawalEntity)} {service : WithdrawalService}
    (hrequest : system.withdrawal.request config round column surroundings dto = .ok (events, service)) :
    Reserved round (system.produce events service) := by
  obtain ⟨hnew, hrequestable, hcovers⟩ := hreserves (by rw [hrequest]; rfl)
  obtain ⟨-, hpayloads, row, hid, hcopies, hservice⟩ := WithdrawalService.request_new hnew hrequest
  obtain ⟨withdrawal, row', hwithdrawal, hrow', hstatus', hservice', hevents⟩ := WithdrawalService.request_ok hrequest
  have habsent : ∀ old, system.withdrawal.withdrawals.find surroundings.uuid ≠ some old := by
    intro old hold
    cases hnew.symm.trans hold
  -- the row has the status of the payloads
  have hpayload : withdrawal = WithdrawalService.created round surroundings.uuid dto := by
    rcases hevents with ⟨-, rfl⟩ | rfl
    · exact (hpayloads _ List.mem_cons_self).2
    · exact (hpayloads _ List.mem_cons_self).2
  have hrow : row' = row := by
    have hinsert := congrArg (fun service => service.withdrawals.find surroundings.uuid) (hservice'.symm.trans hservice)
    simp only [SortedMap.find_insert, hrow', if_true] at hinsert
    exact Option.some.inj hinsert
  subst hrow
  have hauto : row'.status = .confirmed ↔ approvalTier dto.amount = .auto := by
    rw [hstatus', hpayload, WithdrawalService.created]
    simp only
    split <;> simp_all
  obtain ⟨a, hamount, hpos⟩ := exists_fin_of_pos hrequestable.1
  have hkey : Database.rowKey row'.userId row'.asset = Database.rowKey dto.userId dto.asset := by
    rw [hcopies.userId, hcopies.asset]
  refine h.write hid (held_of_copies hround hcolumn hcopies hamount hpos) (by rw [hservice])
    (fun old hold => absurd hold (habsent old)) ?_ ?_
  · intro event hevent approval happroval
    obtain ⟨haggregate, hcreated⟩ := hpayloads event hevent
    rw [approvalOf] at happroval
    split at happroval
    · rename_i htype
      cases happroval
      have hconfirmed : row'.status = .confirmed := by
        rcases hevents with ⟨hconfirmed, -⟩ | rfl
        · exact hstatus'.trans hconfirmed
        · rw [List.mem_singleton.mp hevent] at htype
          cases htype
      refine ⟨haggregate, ?_, ?_⟩
      · rw [hcreated, hkey]
        rfl
      · rw [hcreated]
        exact (auto_exact hround hcolumn hcopies hrequestable (hauto.mp hconfirmed)).2
    · cases happroval
  · intro hconfirmed
    have htier := hauto.mp hconfirmed
    rw [hkey, (auto_exact hround hcolumn hcopies hrequestable htier).1]
    exact Or.inr (Or.inr (hcovers htier))

/-- **An approval or a rejection**: what becomes confirmed is covered. -/
theorem decided (hround : Precise 40 18 round) (h : Reserved round system) {id : String} {row : WithdrawalEntity}
    {status : TransactionStatus} {service : WithdrawalService} {events : List (KafkaEvent WithdrawalEntity)}
    (hfind : system.withdrawal.withdrawals.find id = some row)
    (hservice : service.withdrawals = system.withdrawal.withdrawals.insert id { row with status := status })
    (hevents : ∀ event ∈ events, event = ⟨.withdrawalApproved, id, { row with status := status }⟩)
    (hcovers : status = .confirmed → row.status ≠ .confirmed → id ∉ system.processed →
      system.Covers (Database.rowKey row.userId row.asset) row.charge) :
    Reserved round (system.produce events service) := by
  have hheld : ({ row with status := status } : WithdrawalEntity).Held := h.rows id row hfind
  have hid : ({ row with status := status } : WithdrawalEntity).id = id := h.named id row hfind
  refine h.write hid hheld hservice ?_ ?_ ?_
  · intro old hold
    cases hfind.symm.trans hold
    exact ⟨rfl, rfl⟩
  · intro event hevent approval happroval
    rw [hevents event hevent] at happroval
    cases happroval
    exact ⟨rfl, rfl, hheld.sum hround⟩
  · intro hstatus
    by_cases hconfirmed : row.status = .confirmed
    · exact Or.inl ⟨row, hfind, hconfirmed⟩
    · by_cases hprocessed : id ∈ system.processed
      · exact Or.inr (Or.inl hprocessed)
      · exact Or.inr (Or.inr (hcovers hstatus hconfirmed hprocessed))

/-! ### Debits and other calls on the wallet service -/

/-- **Writes to the wallets** that take nothing of what will still be owed. -/
theorem wallets (hround : Precise 40 18 round) (hcolumn : Ordered 38 18 column) (h : Reserved round system)
    {system' : WithdrawalSystem} {op : WalletOp} {reply : WalletReply}
    (hexec : system.wallet.exec round column op = (.ok reply, system'.wallet))
    (hwithdrawal : system'.withdrawal = system.withdrawal) (htopic : system'.topic = system.topic)
    (htaken : ∀ position ∈ system'.debited, position < system.topic.length)
    (honce : ∀ key, (lowered (op.typeOrmWrites round) key).length ≤ 1)
    (hfinite : FiniteWrites (op.typeOrmWrites round))
    (hleft : ∀ key b, system.available key = .fin b → system.owed key ≤ b →
      system'.owed key + (lowered (op.typeOrmWrites round) key).sum ≤ b) : Reserved round system' := by
  obtain ⟨db, hdb, hleaves⟩ := h.leaves
  have hrows : ∀ id row, system'.withdrawal.withdrawals.find id = some row → row.Held := by
    rw [hwithdrawal]
    exact h.rows
  simp only [WalletService.exec, hdb, WalletService.withTransaction] at hexec
  split at hexec
  · cases hexec
  · rename_i reply' db' hwork
    have hwallet := (Prod.mk.inj hexec).2
    obtain ⟨-, units, hrun⟩ := database_exec_writes hcolumn.toKeeps hwork
    have hneeds : ∀ key, ∃ b, (walletAt db.wallets key).available = .fin b ∧ Fits 38 18 b ∧
        system'.owed key + (lowered (op.typeOrmWrites round) key).sum ≤ b := by
      intro key
      obtain ⟨b, hb, hfits, hle⟩ := hleaves key
      exact ⟨b, hb, hfits, hleft key b ((available_eq hdb key).trans hb) hle⟩
    refine ⟨?_, hrows, ?_, ?_, db', by rw [← hwallet], ?_⟩
    · rw [hwithdrawal]
      exact h.named
    · rw [hwithdrawal, htopic]
      exact h.approvals
    · rw [htopic]
      exact htaken
    · refine run_leaves hround hcolumn _ (fun key => ?_) honce hfinite hneeds hrun
      obtain ⟨b, -, hfits, hle⟩ := hneeds key
      have hlowered := lowered_nonneg (op.typeOrmWrites round) key
      exact ⟨(owed_units hrows key).nonneg, (owed_units hrows key).fits (by linarith) hfits⟩

/-- A call on the wallet service that throws changes nothing. -/
theorem exec_threw (h : Reserved round system) {op : WalletOp} {e : WalletError} {wallet : WalletService}
    (hexec : system.wallet.exec round column op = (.error e, wallet)) : wallet = system.wallet := by
  obtain ⟨db, hdb, -⟩ := h.leaves
  simp only [WalletService.exec, hdb, WalletService.withTransaction] at hexec
  split at hexec
  · exact (Prod.mk.inj hexec).2.symm
  · cases hexec

/-- **A call** on the wallet service takes what is covered besides. -/
theorem call (hround : Precise 40 18 round) (hcolumn : Ordered 38 18 column) (h : Reserved round system)
    {op : WalletOp} (hreserves : Reserves config round column system (.wallet op)) :
    Reserved round { system with wallet := (system.wallet.exec round column op).2 } := by
  cases hexec : system.wallet.exec round column op with
  | mk result wallet =>
      cases result with
      | error e =>
          rw [h.exec_threw hexec]
          exact h
      | ok reply =>
          obtain ⟨hfinite, hcovers⟩ := hreserves (by rw [hexec]; rfl)
          have hat : ∀ key, lowered (op.typeOrmWrites round) key = [] ∨
              ∃ x, lowered (op.typeOrmWrites round) key = [x] ∧ system.Covers key x := by
            intro key
            cases hlowered : lowered (op.typeOrmWrites round) key with
            | nil => exact Or.inl rfl
            | cons x rest =>
                right
                have hmem : x ∈ lowered (op.typeOrmWrites round) key := hlowered ▸ List.mem_cons_self
                obtain ⟨write, hwrite, hlowering⟩ := List.mem_filterMap.mp hmem
                obtain rfl := lowering_key hlowering
                obtain ⟨hlength, hcovered⟩ := hcovers write hwrite
                rw [hlowered] at hlength
                have hnil : rest = [] := List.length_eq_zero_iff.mp (by simpa using hlength)
                exact ⟨x, by rw [hnil], hcovered x hmem⟩
          refine h.wallets hround hcolumn hexec rfl rfl h.taken ?_ hfinite ?_
          · intro key
            rcases hat key with hnil | ⟨x, hone, -⟩
            · rw [hnil]
              exact Nat.zero_le 1
            · rw [hone]
              exact le_refl 1
          · intro key b hb hle
            show system.owed key + _ ≤ b
            rcases hat key with hnil | ⟨x, hone, hcovered⟩
            · rw [hnil, List.sum_nil, add_zero]
              exact hle
            · rw [hone, List.sum_singleton]
              rw [WithdrawalSystem.Covers, hb] at hcovered
              exact hcovered

/-- The write of a debit, and what it lowers. -/
theorem debit_writes {payload : WithdrawalEntity} {charge : ℚ}
    (hsum : payload.amount.add round payload.fee = .fin charge) :
    (WalletOp.debit (withdrawalDebit round payload) .withdrawal).typeOrmWrites round
      = [⟨Database.rowKey payload.userId payload.asset, .available, .fin (-charge),
          some (balanceLabel payload.userId payload.asset .available)⟩] := by
  have hneg : (withdrawalDebit round payload).amount.negated = .fin (-charge) := by
    rw [withdrawalDebit, hsum]
    rfl
  rw [WalletOp.typeOrmWrites, adjustWrite, hneg]
  rfl

theorem debit_lowered {payload : WithdrawalEntity} {charge : ℚ}
    (hsum : payload.amount.add round payload.fee = .fin charge) (key : String ×ₗ String) :
    lowered ((WalletOp.debit (withdrawalDebit round payload) .withdrawal).typeOrmWrites round) key
      = if Database.rowKey payload.userId payload.asset = key ∧ 0 < charge then [charge] else [] := by
  rw [debit_writes hsum, lowered_cons, lowered, List.filterMap_nil, List.append_nil, lowering]
  simp only [neg_lt_zero, neg_neg, true_and]
  split <;> rfl

/-- **What is owed after a debit** was processed. -/
theorem owed_debited {position : ℕ} {id : String} {payload row : WithdrawalEntity} {wallet : WalletService}
    (heffect : effectAt approvalOf system.topic position = some (id, payload))
    (hfind : system.withdrawal.withdrawals.find id = some row) (key : String ×ₗ String) :
    ({ system with wallet := wallet, debited := system.debited ++ [position] } : WithdrawalSystem).owed key
      = system.owed key - outstanding system.processed key id row := by
  have hprocessed : (effects approvalOf system.topic (system.debited ++ [position])).map Prod.fst
      = system.processed ++ [id] := by
    rw [effects_snoc _ heffect, List.map_append]
    rfl
  have hdrop : SortedMap.sumOf (outstanding (system.processed ++ [id]) key) system.withdrawal.withdrawals
      = SortedMap.sumOf (outstanding system.processed key) system.withdrawal.withdrawals
        - SortedMap.weightAt (outstanding system.processed key) system.withdrawal.withdrawals id := by
    refine SortedMap.sumOf_drop id (fun other row' hother => ?_) fun row' => ?_
    · simp only [outstanding, List.mem_append, List.mem_singleton, hother, or_false]
    · refine if_neg fun hawaits => hawaits.2.2 ?_
      exact List.mem_append_right _ (List.mem_singleton_self _)
  rw [WithdrawalSystem.owed, WithdrawalSystem.processed, hprocessed, hdrop, SortedMap.weightAt, hfind]
  rfl

/-- The messages that the consumer handles are approvals. -/
theorem effectAt_of_handled {position : ℕ} {op : WalletOp}
    (h : system.topic[position]?.bind (onWithdrawal round) = some op) :
    ∃ id payload, effectAt approvalOf system.topic position = some (id, payload) ∧
      op = .debit (withdrawalDebit round payload) .withdrawal := by
  obtain ⟨event, hevent, hhandler⟩ := Option.bind_eq_some_iff.mp h
  rw [onWithdrawal] at hhandler
  split at hhandler
  · rename_i htype
    cases hhandler
    refine ⟨event.aggregateId, event.payload, ?_, rfl⟩
    rw [effectAt, hevent]
    exact if_pos htype.1
  · cases hhandler

/-- **A delivery** processes the debit of what it is owed, or of what is covered besides. -/
theorem deliver (hround : Precise 40 18 round) (hcolumn : Ordered 38 18 column) (h : Reserved round system)
    {position : ℕ} (hreserves : Reserves config round column system (.withdrawal (.deliver position))) :
    Reserved round (system.deliver round column position).2 := by
  rw [WithdrawalSystem.deliver]
  split
  · exact h
  · rename_i op hop
    obtain ⟨id, payload, heffect, rfl⟩ := effectAt_of_handled hop
    obtain ⟨row, hfind, hkey, hsum⟩ := h.approvals position id payload heffect
    have hheld := h.rows id row hfind
    split
    · rename_i e wallet hexec
      rw [h.exec_threw hexec]
      exact h
    · rename_i reply wallet hexec
      refine h.wallets hround hcolumn hexec rfl rfl ?_ ?_ ?_ ?_
      · intro i hi
        rcases List.mem_append.mp hi with hold | hlast
        · exact h.taken i hold
        · rw [List.mem_singleton.mp hlast]
          exact effectAt_lt heffect
      · intro key
        rw [debit_lowered hsum]
        split
        · exact le_refl 1
        · exact Nat.zero_le 1
      · rw [debit_writes hsum]
        intro write hwrite _
        rw [List.mem_singleton.mp hwrite]
        rfl
      · intro key b hb hle
        have hout : 0 ≤ outstanding system.processed key id row := (outstanding_units hheld).nonneg
        rw [owed_debited heffect hfind, debit_lowered hsum]
        split
        · rename_i hcond
          obtain ⟨rfl, hpos⟩ := hcond
          rw [List.sum_singleton]
          rcases hreserves _ heffect with ⟨row', hrow', hconfirmed, hnot⟩ | hcovers
          · -- the debit was owed
            cases hfind.symm.trans hrow'
            have hfull : outstanding system.processed (Database.rowKey payload.userId payload.asset) id row
                = row.charge := if_pos ⟨hconfirmed, hkey.symm, hnot⟩
            rw [hfull]
            linarith
          · rw [hsum, WithdrawalSystem.Covers, hb] at hcovers
            have hcovered : system.owed (Database.rowKey payload.userId payload.asset) + row.charge ≤ b := hcovers
            linarith
        · rw [List.sum_nil]
          linarith

/-! ### Runs -/

theorem step (hround : Precise 40 18 round) (hcolumn : Ordered 38 18 column) (h : Reserved round system)
    {call : FundsCall} (hreserves : Reserves config round column system call) {reply : FundsReply}
    {system' : WithdrawalSystem}
    (hstep : fundsStep config round column system call = .ok (reply, system')) : Reserved round system' := by
  cases call with
  | wallet op =>
      cases hstep
      exact h.call hround hcolumn hreserves
  | withdrawal call =>
      simp only [fundsStep] at hstep
      split at hstep
      · rename_i reply' system'' hcall
        cases hstep
        cases call with
        | request surroundings dto =>
            simp only [withdrawalStep] at hcall
            split at hcall
            · cases hcall
              exact h
            · rename_i events service hrequest
              cases hcall
              exact h.request hround hcolumn hreserves hrequest
        | approve id approverId =>
            simp only [withdrawalStep] at hcall
            split at hcall
            · cases hcall
              exact h
            · cases hcall
              exact h
            · rename_i event service happrove
              cases hcall
              simp only [WithdrawalService.approve, bind_eq_ok] at happrove
              obtain ⟨⟨decision, service'⟩, hdecide, hevent⟩ := happrove
              cases hfind : system.withdrawal.withdrawals.find id with
              | none =>
                  cases WithdrawalService.decide_none hfind hdecide
                  cases hevent
              | some row =>
                  obtain ⟨-, rfl, rfl⟩ := WithdrawalService.decide_ok hfind (h.named id row hfind) hdecide
                  cases hevent
                  exact h.decided hround hfind rfl (fun event hevent => List.mem_singleton.mp hevent)
                    fun _ => hreserves row hfind
        | reject id approverId =>
            simp only [withdrawalStep] at hcall
            split at hcall
            · cases hcall
              exact h
            · cases hcall
              exact h
            · rename_i rejected service hreject
              cases hcall
              cases hfind : system.withdrawal.withdrawals.find id with
              | none => cases WithdrawalService.decide_none hfind hreject
              | some row =>
                  obtain ⟨-, -, rfl⟩ := WithdrawalService.decide_ok hfind (h.named id row hfind) hreject
                  exact h.decided hround hfind rfl (by simp) (by simp)
        | deliver position =>
            have hdeliver := h.deliver hround hcolumn hreserves
            rw [withdrawalStep] at hcall
            rw [Except.ok.inj hcall] at hdeliver
            exact hdeliver

/-- **What is reserved can be debited.** -/
theorem debitable (hround : Precise 40 18 round) (hcolumn : Ordered 38 18 column) (h : Reserved round system) :
    Debitable round column system := by
  obtain ⟨db, hdb, hleaves⟩ := h.leaves
  constructor
  · intro userId asset
    obtain ⟨b, hb, -, hle⟩ := hleaves (Database.rowKey userId asset)
    exact ⟨b, (available_eq hdb (Database.rowKey userId asset)).trans hb, hle⟩
  · rintro position id payload heffect ⟨row, hfind, hconfirmed, hnot⟩ op message hcalled
    obtain ⟨row', hfind', hkey, hsum⟩ := h.approvals position id payload heffect
    cases hfind.symm.trans hfind'
    rw [WithdrawalSystem.deliver] at hcalled
    split at hcalled
    · cases hcalled
    · rename_i op' hop
      obtain ⟨id', payload', heffect', rfl⟩ := effectAt_of_handled hop
      cases heffect.symm.trans heffect'
      obtain ⟨b, hb, -, hle⟩ := hleaves (Database.rowKey payload.userId payload.asset)
      have howed := h.owed_ge hfind (Database.rowKey payload.userId payload.asset)
      have hfull : outstanding system.processed (Database.rowKey payload.userId payload.asset) id row = row.charge :=
        if_pos ⟨hconfirmed, hkey.symm, hnot⟩
      rw [hfull] at howed
      split at hcalled
      · rename_i e wallet hexec
        cases hcalled
        simp only [WalletService.exec, hdb, WalletService.withTransaction] at hexec
        split at hexec
        · rename_i e' hwork
          cases hexec
          rcases bind_eq_error hwork with hdebit | ⟨_, _, hreply⟩
          · exact debit_not_short hround hcolumn.toKeeps hb hsum (howed.trans hle) hdebit message rfl
          · cases hreply
        · cases hexec
      · cases hcalled

end Reserved

/-- **An approved withdrawal can be debited**, in every run whose steps neither take nor promise what is owed. -/
theorem approved_can_be_debited (hround : Precise 40 18 round) (hcolumn : Ordered 38 18 column)
    (system₀ : WithdrawalSystem) (hfresh : system₀.Fresh) (db : Database) (hdb : system₀.wallet.dataSource = some db)
    (hbalances : Leaves db.wallets fun _ => 0) (calls : List FundsCall)
    (hreserves : Machine.Along (fundsStep config round column) (Reserves config round column) system₀ calls) :
    ∃ replies system, Machine.run (fundsStep config round column) system₀ calls = .ok (replies, system) ∧
      Debitable round column system := by
  obtain ⟨hwithdrawals, htopic, hdebited⟩ := hfresh
  have hinit : Reserved round system₀ := by
    refine ⟨?_, ?_, ?_, ?_, db, hdb, ?_⟩
    · intro id row hfind
      rw [hwithdrawals] at hfind
      cases hfind
    · intro id row hfind
      rw [hwithdrawals] at hfind
      cases hfind
    · intro position id payload heffect
      have hlt := effectAt_lt heffect
      rw [htopic] at hlt
      cases hlt
    · intro position hposition
      rw [hdebited] at hposition
      cases hposition
    · intro key
      rw [WithdrawalSystem.owed, hwithdrawals]
      exact hbalances key
  obtain ⟨replies, system, hrun, hreserved⟩ := Machine.run_safe_along
    (Q := fun _ _ system => Reserved round system) hinit
    (fun _ _ _ _ _ _ h hcall hstep => h.step hround hcolumn hcall hstep) calls hreserves
  exact ⟨replies, system, hrun, hreserved.debitable hround hcolumn⟩

/-! ### Runs of a wallet of 50000 -/

theorem freshWithdrawals_leaves : ∃ db, freshWithdrawals.wallet.dataSource = some db ∧ Leaves db.wallets fun _ => 0 := by
  refine ⟨_, rfl, fun key => ?_⟩
  simp only [walletAt, SortedMap.find_insert]
  split
  · exact ⟨50000, rfl, ⟨50000 * 10 ^ 18, by norm_num, by decide⟩, by norm_num⟩
  · exact ⟨0, rfl, Fits.zero 38 18, le_refl 0⟩

/-- A withdrawal that is approved while another waits, a lock, and the debits. -/
def reservedCalls : List FundsCall :=
  [.withdrawal (requestOf "withdrawal-1" 30000), .withdrawal (requestOf "withdrawal-2" 100),
    .withdrawal (.approve "withdrawal-1" "operator"), .wallet (.lock ⟨"alice", "USDT", .fin 10000, "order"⟩),
    .withdrawal (.deliver 3), .withdrawal (.deliver 2)]

theorem approved_can_be_debited_reservedCalls :
    ∃ replies system, Machine.run (fundsStep .default .fin (numeric 38 18)) freshWithdrawals reservedCalls
        = .ok (replies, system) ∧ Debitable .fin (numeric 38 18) system := by
  obtain ⟨db, hdb, hbalances⟩ := freshWithdrawals_leaves
  exact approved_can_be_debited (precise_fin 40 18) (numeric_ordered 38 18) freshWithdrawals ⟨rfl, rfl, rfl⟩ db hdb
    hbalances reservedCalls (by decide +kernel)

/-- The amount of a request is finite and positive. -/
def PositiveRequest : WithdrawalCall → Prop
  | .request _ dto => 0 < dto.amount.value
  | _ => True

/-- Two withdrawals of 30000, each of which was checked against the same balance, and their approvals. -/
def overdrawnCalls : List WithdrawalCall :=
  [requestOf "withdrawal-1" 30000, requestOf "withdrawal-2" 30000, .approve "withdrawal-1" "operator",
    .approve "withdrawal-2" "operator"]

/-- **A balance that is promised twice**: 60060 are owed where 50000 are available, and the second debit is refused. -/
theorem balance_promised_twice :
    (¬ ∀ calls : List WithdrawalCall, (∀ call ∈ calls, PositiveRequest call) →
      Machine.Along (withdrawalStep .default .fin (numeric 38 18)) NewWithdrawalId freshWithdrawals calls →
      ∃ replies system, Machine.run (fundsStep .default .fin (numeric 38 18)) freshWithdrawals
          (calls.map FundsCall.withdrawal) = .ok (replies, system) ∧ Debitable .fin (numeric 38 18) system) ∧
    (Machine.run (withdrawalStep .default .fin (numeric 38 18)) freshWithdrawals
        (overdrawnCalls ++ [.deliver 2, .deliver 3])).toOption.bind (fun r => r.1.getLast?)
      = some (.called (.debit ⟨"alice", "USDT", .fin 30030, "withdrawal-2"⟩ .withdrawal)
          (.error (.error "alice:USDT:available must be non-negative"))) := by
  refine ⟨fun h => ?_, by decide +kernel⟩
  have hpositive : ∀ call ∈ overdrawnCalls, PositiveRequest call := by
    simp [overdrawnCalls, requestOf, PositiveRequest]
  obtain ⟨replies, system, hrun, hdebitable⟩ := h overdrawnCalls hpositive (by decide +kernel)
  have hend : (Machine.run (fundsStep .default .fin (numeric 38 18)) freshWithdrawals
      (overdrawnCalls.map FundsCall.withdrawal)).toOption.map (fun r =>
        ((r.2.wallet.getBalance "alice" "USDT").available, r.2.owed (Database.rowKey "alice" "USDT")))
      = some (.fin 50000, 60060) := by decide +kernel
  rw [hrun] at hend
  obtain ⟨havailable, howed⟩ := Prod.mk.inj (Option.some.inj hend)
  obtain ⟨b, hb, hle⟩ := hdebitable.covered "alice" "USDT"
  cases havailable.symm.trans hb
  rw [howed] at hle
  norm_num at hle

end NexusTrade
