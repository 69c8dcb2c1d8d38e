import NexusTrade.Trading.Alone
import NexusTrade.Wallet.Exact

/-!
# What a failed order leaves behind

`placeOrder` while no other call proceeds, where it throws and the engine has not accepted the order.  Each thing
that it awaits may fail, before or after it has had its effect, and the wallet service may refuse.

* **`LeavesNothing`**: the balances of the user, `orders` and the restored rows are those from before the call;
* **`Uninserted`** and **`Undone`**: the row is not inserted, or the engine refuses the order and what was done is
  taken back;
* **`placeOrder_leaves_nothing_iff`**: a call that throws leaves nothing exactly in these two cases.
-/

namespace NexusTrade.Trading

open MatchingEngine (Decimal Fill ExecutionReport Core CallFiles UuidSource DecimalCodec)
open Wallet (WalletEntity walletAt)

/-! ### Balances -/

/-- The balances of a user in an asset. -/
def balancesOf (remote : Remote) (userId asset : String) : WalletEntity :=
  walletAt remote.wallet.wallets (Wallet.Database.rowKey userId asset)

/-- Locking an amount changes neither balance. -/
def Unaffected (wallet : WalletEntity) (amount : Decimal) : Prop := wallet.lock (.fin amount) = wallet

/-- **A state in which the lock of an order is held**, and nothing else has changed of the balances of its user. -/
structure Holds (remote : Remote) (order : StoredOrder) (balances : String → WalletEntity) : Prop where
  user : remote.wallet.assertUserCanTransact order.userId = .ok ()
  balances : ∀ asset, balancesOf remote order.userId asset
    = if asset = order.lockedAsset then (balances asset).lock (.fin order.lockedAmount) else balances asset

section Balances

variable {remote remote' : Remote} {order : StoredOrder} {balances : String → WalletEntity}

theorem rowKey_inj {userId asset asset' : String} :
    Wallet.Database.rowKey userId asset = Wallet.Database.rowKey userId asset' ↔ asset = asset' := by
  rw [Wallet.Database.rowKey, Wallet.Database.rowKey, EmbeddingLike.apply_eq_iff_eq, Prod.mk.injEq]
  exact and_iff_right rfl

/-- One wallet of a user is changed. -/
theorem update_balances (f : WalletEntity → WalletEntity) (asset : String) :
    Function.update (walletAt remote.wallet.wallets) (Wallet.Database.rowKey order.userId order.lockedAsset)
        (f (walletAt remote.wallet.wallets (Wallet.Database.rowKey order.userId order.lockedAsset)))
        (Wallet.Database.rowKey order.userId asset)
      = if asset = order.lockedAsset then f (balancesOf remote order.userId asset)
        else balancesOf remote order.userId asset := by
  by_cases h : asset = order.lockedAsset
  · rw [if_pos h, h, Function.update_self]
    rfl
  · rw [if_neg h, Function.update_of_ne fun heq => h (rowKey_inj.mp heq)]
    rfl

/-- **The lock of an order is made.** -/
theorem walletPost_lock
    (h : remote.walletPost (.lock (TradingService.mutationOf order order.lockedAmount)) = .ok remote') :
    Holds remote' order (balancesOf remote order.userId) ∧ remote'.rows = remote.rows ∧
      remote'.engine = remote.engine ∧ remote'.handled = remote.handled := by
  obtain ⟨reply, wallet, hexec, rfl⟩ := walletPost_eq_ok.mp h
  obtain ⟨huser, hsame, hwallets⟩ := Wallet.lock_wallets hexec
  refine ⟨⟨?_, fun asset => ?_⟩, rfl, rfl, rfl⟩
  · show wallet.assertUserCanTransact order.userId = .ok ()
    rw [Wallet.Database.assertUserCanTransact, hsame]
    exact huser
  · show walletAt wallet.wallets _ = _
    rw [hwallets]
    exact update_balances (fun wallet => wallet.lock (.fin order.lockedAmount)) asset

/-- The balances are those from before the lock exactly if it did not affect them. -/
theorem Holds.same_iff (h : Holds remote order balances) :
    (∀ asset, balancesOf remote order.userId asset = balances asset) ↔
      Unaffected (balances order.lockedAsset) order.lockedAmount := by
  constructor
  · intro hsame
    have hlock := h.balances order.lockedAsset
    rw [hsame, if_pos rfl] at hlock
    exact hlock.symm
  · intro hsame asset
    rw [h.balances]
    split
    · rename_i heq
      rw [heq]
      exact hsame
    · rfl

theorem Holds.unlocked (h : Holds remote order balances) :
    (balancesOf remote order.userId order.lockedAsset).unlock (.fin order.lockedAmount)
      = balances order.lockedAsset := by
  rw [h.balances, if_pos rfl, WalletEntity.unlock_lock]

/-- **The lock of an order is released.** -/
theorem Holds.released (h : Holds remote order balances)
    (hpost : remote.walletPost (.unlock (TradingService.mutationOf order order.lockedAmount)) = .ok remote') :
    (∀ asset, balancesOf remote' order.userId asset = balances asset) ∧ remote'.rows = remote.rows ∧
      remote'.handled = remote.handled ∧ (balances order.lockedAsset).locked.ltZero = false := by
  obtain ⟨reply, wallet, hexec, rfl⟩ := walletPost_eq_ok.mp hpost
  obtain ⟨henough, _, hwallets⟩ := Wallet.unlock_wallets hexec
  refine ⟨fun asset => ?_, rfl, rfl, ?_⟩
  · show walletAt wallet.wallets _ = _
    rw [hwallets]
    refine (update_balances (fun wallet => wallet.unlock (.fin order.lockedAmount)) asset).trans ?_
    rw [h.balances]
    split
    · rw [WalletEntity.unlock_lock]
    · rfl
  · rw [← h.unlocked]
    exact henough

/-- The wallet service releases a lock if what is locked was not negative before. -/
theorem Holds.releases (h : Holds remote order balances)
    (hlocked : (balances order.lockedAsset).locked.ltZero = false) :
    ∃ remote', remote.walletPost (.unlock (TradingService.mutationOf order order.lockedAmount))
      = .ok remote' := by
  rw [← h.unlocked] at hlocked
  obtain ⟨reply, wallet, hexec⟩ := Wallet.unlock_returns
    (TradingService.mutationOf order order.lockedAmount) h.user hlocked
  exact ⟨_, walletPost_eq_ok.mpr ⟨reply, wallet, hexec, rfl⟩⟩

end Balances

/-! ### What is left -/

/-- The balances are those from before, and the order has no row that `onModuleInit` restores. -/
structure Cleared (order : StoredOrder) (balances : String → WalletEntity) (remote : Remote) : Prop where
  balances : ∀ asset, balancesOf remote order.userId asset = balances asset
  rows : ∀ row ∈ remote.rows, row.id = order.id → row.status.active = false

/-- The row of an order is restored. -/
def Live (order : StoredOrder) (remote : Remote) : Prop :=
  ∃ row ∈ remote.rows, row.id = order.id ∧ row.status.active = true

section Phases

variable {codec : DecimalCodec} {parse : DecimalParser} {service : TradingService} {maxRetries : ℕ}
  {remote remote' : Remote} {memory : Memory} {order : StoredOrder} {balances : String → WalletEntity}
  {inputs : List OrderAttempt} {s' : OrderState} {error : TradingError}

theorem Live.not_cleared (h : Live order remote) : ¬Cleared order balances remote := by
  obtain ⟨row, hrow, hid, hactive⟩ := h
  intro hcleared
  rw [hcleared.rows row hrow hid] at hactive
  cases hactive

theorem Live.of_rows (h : Live order remote) (hrows : remote'.rows = remote.rows) : Live order remote' := by
  rw [Live, hrows]
  exact h

/-- A row that is rejected is not restored. -/
theorem inactive_rejected (rows : List OrderEntity) (id : String) :
    ∀ row ∈ updateOrder rows id none .rejected, row.id = id → row.status.active = false := by
  intro row hrow hid
  obtain ⟨old, _, rfl⟩ := List.mem_map.mp hrow
  by_cases h : old.id = id
  · rw [if_pos h]
    rfl
  · rw [if_neg h] at hid
    exact absurd hid h

/-- What the attempts after the refusal of an order leave. -/
def TakenBack (unaffected released : Prop) : List OrderAttempt → Prop
  | [] | .unsent _ :: _ | [.answered _] => False
  | .lost _ _ :: _ | .answered _ :: .unsent _ :: _ | .answered _ :: .answered _ :: _ => unaffected
  | .answered _ :: .lost _ _ :: _ => unaffected ∨ released

/-- **An order that is refused**, where the call throws in the end. -/
theorem refused_left (hholds : Holds remote order balances) (hlive : Live order remote)
    {report : ExecutionReport} (hrun : (program codec parse service maxRetries).alone
      ⟨.await (.updateOrder order.id none .rejected)
        (.rejectedUpdated { order with status := .rejected } report), memory, remote⟩ inputs = s')
    (hend : s'.pause = .finish (.threw error)) :
    s'.memory = memory ∧ (Cleared order balances s'.remote ↔
      TakenBack (Unaffected (balances order.lockedAsset) order.lockedAmount)
        ((balances order.lockedAsset).locked.ltZero = false) inputs) := by
  obtain ⟨first, rest, rfl, hnext⟩ := Program.alone_awaits hrun hend
  have hrejected : Holds { remote with rows := updateOrder remote.rows order.id none .rejected } order
      balances := ⟨hholds.user, hholds.balances⟩
  have hcleared : ∀ remote' : Remote, remote'.rows = updateOrder remote.rows order.id none .rejected →
      Holds remote' order balances → (Cleared order balances remote' ↔
        Unaffected (balances order.lockedAsset) order.lockedAmount) := by
    intro remote' hrows h
    rw [← h.same_iff]
    exact ⟨fun hc => hc.balances, fun hsame => ⟨hsame, hrows ▸ inactive_rejected remote.rows order.id⟩⟩
  cases first with
  | unsent failure =>
      obtain rfl := alone_ended hnext
      exact ⟨rfl, iff_of_false hlive.not_cleared fun h => h⟩
  | lost failure input =>
      obtain rfl := alone_ended hnext
      exact ⟨rfl, hcleared _ rfl hrejected⟩
  | answered input =>
      have hopen : (program codec parse service maxRetries).alone
          ⟨unlocking { order with status := .rejected } order.lockedAmount
            (.rejectedUnlocked { order with status := .rejected } report), memory,
            { remote with rows := updateOrder remote.rows order.id none .rejected }⟩ rest = s' := hnext
      rw [unlocking] at hopen
      split at hopen
      · obtain ⟨second, rest, rfl, hlast⟩ := Program.alone_awaits hopen hend
        obtain rfl := alone_ended hlast
        cases hend
      · obtain ⟨second, rest, rfl, hlast⟩ := Program.alone_awaits hopen hend
        rw [advance_walletPost] at hlast
        cases hpost : Remote.walletPost
            { remote with rows := updateOrder remote.rows order.id none .rejected }
            (.unlock (TradingService.mutationOf { order with status := .rejected } order.lockedAmount)) with
        | error refusal =>
            have hnot : ¬(balances order.lockedAsset).locked.ltZero = false := by
              intro hlocked
              obtain ⟨remote', hok⟩ := hrejected.releases hlocked
              cases hpost.symm.trans hok
            simp only [hpost] at hlast
            cases second with
            | unsent failure =>
                obtain rfl := alone_ended hlast
                exact ⟨rfl, hcleared _ rfl hrejected⟩
            | lost failure input =>
                obtain rfl := alone_ended hlast
                exact ⟨rfl, (hcleared _ rfl hrejected).trans (or_iff_left hnot).symm⟩
            | answered input =>
                obtain rfl := alone_ended hlast
                exact ⟨rfl, hcleared _ rfl hrejected⟩
        | ok remote' =>
            obtain ⟨hbalances, hrows, _, hlocked⟩ := hrejected.released hpost
            simp only [hpost] at hlast
            cases second with
            | unsent failure =>
                obtain rfl := alone_ended hlast
                exact ⟨rfl, hcleared _ rfl hrejected⟩
            | lost failure input =>
                obtain rfl := alone_ended hlast
                refine ⟨rfl, iff_of_true ⟨hbalances, ?_⟩ (Or.inr hlocked)⟩
                rw [hrows]
                exact inactive_rejected remote.rows order.id
            | answered input =>
                obtain rfl := alone_ended hlast
                cases hend

/-- **An order whose row stays as it was inserted.** -/
theorem unreachable_left (hlive : Live order remote) {thrown : TradingError} {amount : Decimal}
    (hrun : (program codec parse service maxRetries).alone
      ⟨unlocking order amount (.unreachable thrown), memory, remote⟩ inputs = s')
    (hend : s'.pause = .finish (.threw error)) : s'.memory = memory ∧ Live order s'.remote := by
  rw [unlocking] at hrun
  split at hrun
  · obtain ⟨first, rest, rfl, hnext⟩ := Program.alone_awaits hrun hend
    obtain rfl := alone_ended hnext
    exact ⟨rfl, hlive⟩
  · obtain ⟨first, rest, rfl, hnext⟩ := Program.alone_awaits hrun hend
    rw [advance_walletPost] at hnext
    cases hpost : remote.walletPost (.unlock (TradingService.mutationOf order amount)) with
    | error refusal =>
        simp only [hpost] at hnext
        cases first <;>
        · obtain rfl := alone_ended hnext
          exact ⟨rfl, hlive⟩
    | ok remote' =>
        have hrows : remote'.rows = remote.rows := by
          obtain ⟨_, _, _, rfl⟩ := walletPost_eq_ok.mp hpost
          rfl
        simp only [hpost] at hnext
        cases first with
        | unsent failure =>
            obtain rfl := alone_ended hnext
            exact ⟨rfl, hlive⟩
        | lost failure input =>
            obtain rfl := alone_ended hnext
            exact ⟨rfl, hlive.of_rows hrows⟩
        | answered input =>
            obtain rfl := alone_ended hnext
            exact ⟨rfl, hlive.of_rows hrows⟩

/-- What the attempts to submit an order leave, with those that follow: it is refused, and what was done is taken
back. -/
def Undone (unaffected released : Prop) (maxRetries : ℕ) : ℕ → List OrderAttempt → Prop
  | _, [] => False
  | _, .answered _ :: rest => TakenBack unaffected released rest
  | attempt, .unsent failure :: rest | attempt, .lost failure _ :: rest =>
    failure.retryable = true ∧ attempt < maxRetries ∧ Undone unaffected released maxRetries (attempt + 1) rest

/-- The submissions of an order that have reached a book were refused. -/
def Unaccepted (id : String) (remote : Remote) : Prop :=
  ∀ handled ∈ remote.handled, handled.request.orderId = id → handled.accepted = false

/-- Operations only add to the record of submissions. -/
theorem handled_handle {operation : Operation} {input : CallFiles × UuidSource} {answer : Answer}
    (h : Remote.handle codec parse operation input remote = .ok (answer, remote')) :
    remote.handled ⊆ remote'.handled := by
  cases operation with
  | submitOrder order =>
      rw [Remote.handle] at h
      split at h
      · cases h
      · split at h
        · cases h
        · cases h
          dsimp only
          split
          · exact List.subset_append_left _ _
          · exact List.Subset.refl _
  | cancelOrder orderId symbol userId =>
      rw [Remote.handle] at h
      split at h
      · cases h
      · cases h
        exact List.Subset.refl _
  | walletPost request =>
      rw [Remote.handle] at h
      cases hpost : remote.walletPost request with
      | error failure =>
          rw [hpost] at h
          cases h
      | ok remote'' =>
          rw [hpost] at h
          cases h
          obtain ⟨_, _, _, rfl⟩ := walletPost_eq_ok.mp hpost
          exact List.Subset.refl _
  | findRows | saveOrder | updateOrder | saveTrade | produce | resolved =>
      cases h
      exact List.Subset.refl _

theorem handled_perform (operation : Operation) (attempt : OrderAttempt) (remote : Remote) :
    remote.handled ⊆ (perform codec parse operation attempt remote).2.handled := by
  by_cases hresolved : operation = .resolved
  · rw [hresolved]
    exact List.Subset.refl _
  · rw [perform_eq codec parse hresolved]
    cases attempt with
    | unsent failure => exact List.Subset.refl _
    | lost failure input =>
        rw [Attempt.run]
        cases hhandle : Remote.handle codec parse operation input remote with
        | error e => exact List.Subset.refl _
        | ok p => exact handled_handle hhandle
    | answered input =>
        rw [Attempt.run]
        cases hhandle : Remote.handle codec parse operation input remote with
        | error e => exact List.Subset.refl _
        | ok p => exact handled_handle hhandle

theorem handled_alone (s : OrderState) (inputs : List OrderAttempt) :
    s.remote.handled ⊆ ((program codec parse service maxRetries).alone s inputs).remote.handled := by
  refine Program.alone_keeps (P := fun t : OrderState => s.remote.handled ⊆ t.remote.handled) ?_
    (List.Subset.refl _) inputs
  rintro ⟨pause, memory, remote⟩ attempt hsub
  cases pause with
  | finish outcome => exact hsub
  | await operation point => exact List.Subset.trans hsub (handled_perform operation attempt remote)

/-- What handling a submission is answered, and what it leaves. -/
theorem handle_submitOrder (codec : DecimalCodec) {input : CallFiles × UuidSource}
    {request : MatchingEngine.Order} {report : ExecutionReport} {dropped : List ExecutionReport} {engine : Core}
    (hrequest : engineOrder parse order = some request)
    (hsubmit : remote.engine.submitOrder codec input.1 input.2 order.symbol request
      = .ok (report, dropped, engine)) :
    ∃ remote', Remote.handle codec parse (.submitOrder order) input remote = .ok (.report report, remote') ∧
      remote'.engine = engine ∧ remote'.wallet = remote.wallet ∧ remote'.rows = remote.rows ∧
      (logs remote.engine input.1 = true →
        ∃ handled ∈ remote'.handled, handled.request = request ∧ handled.accepted = report.accepted) := by
  refine ⟨{ remote with
      engine := engine
      handled := if logs remote.engine input.1 then
          remote.handled ++ [⟨order.symbol, request, report.accepted, report.fills,
            MatchingEngine.fillsOf dropped⟩]
        else remote.handled }, by simp only [Remote.handle, hrequest, hsubmit], rfl, rfl, rfl, fun hlogs => ?_⟩
  refine ⟨⟨order.symbol, request, report.accepted, report.fills, MatchingEngine.fillsOf dropped⟩, ?_, rfl, rfl⟩
  dsimp only
  rw [if_pos hlogs]
  exact List.mem_append_right _ (List.mem_singleton_self _)

theorem Holds.of_wallet (h : Holds remote order balances) (hwallet : remote'.wallet = remote.wallet) :
    Holds remote' order balances := by
  refine ⟨?_, fun asset => ?_⟩
  · rw [hwallet]
    exact h.user
  · rw [balancesOf, hwallet]
    exact h.balances asset

/-- **The submission of an order**, where the call throws in the end and the engine has not accepted it. -/
theorem submitted_left {request : MatchingEngine.Order} (hsymbol : isSymbol order.symbol = true)
    (hrequest : engineOrder parse order = some request) :
    ∀ {inputs : List OrderAttempt} {attempt : ℕ} {remote : Remote}, MatchingEngine.CoreInv remote.engine →
      Holds remote order balances → Live order remote →
      (program codec parse service maxRetries).alone
        ⟨.await (.submitOrder order) (.submitted order attempt), memory, remote⟩ inputs = s' →
      s'.pause = .finish (.threw error) → Unaccepted order.id s'.remote →
      s'.memory = memory ∧ (Cleared order balances s'.remote ↔
        Undone (Unaffected (balances order.lockedAsset) order.lockedAmount)
          ((balances order.lockedAsset).locked.ltZero = false) maxRetries attempt inputs) := by
  intro inputs
  induction inputs with
  | nil =>
      intro attempt remote _ _ _ hrun hend
      obtain ⟨first, rest, hnil, _⟩ := Program.alone_awaits hrun hend
      cases hnil
  | cons first rest ih =>
      intro attempt remote hinv hholds hlive hrun hend hunaccepted
      have hne : Operation.submitOrder order ≠ .resolved := fun h => nomatch h
      -- an attempt that fails is made again, or the call throws
      have hfailed : ∀ (failure : Failure) (remote' : Remote), MatchingEngine.CoreInv remote'.engine →
          Holds remote' order balances → Live order remote' →
          (program codec parse service maxRetries).alone
            ⟨resumeFailed maxRetries failure (.submitted order attempt), memory, remote'⟩ rest = s' →
          s'.memory = memory ∧ (Cleared order balances s'.remote ↔ failure.retryable = true ∧
            attempt < maxRetries ∧ Undone (Unaffected (balances order.lockedAsset) order.lockedAmount)
              ((balances order.lockedAsset).locked.ltZero = false) maxRetries (attempt + 1) rest) := by
        intro failure remote' hinv' hholds' hlive' hnext
        rw [resumeFailed] at hnext
        split at hnext
        · rename_i hretry
          obtain ⟨hmemory, hiff⟩ := ih hinv' hholds' hlive' hnext hend hunaccepted
          exact ⟨hmemory, hiff.trans ⟨fun h => ⟨hretry.1, hretry.2, h⟩, fun h => h.2.2⟩⟩
        · rename_i hretry
          obtain ⟨hmemory, hleft⟩ := unreachable_left hlive' hnext hend
          exact ⟨hmemory, iff_of_false hleft.not_cleared fun h => hretry ⟨h.1, h.2.1⟩⟩
      cases first with
      | unsent failure => exact hfailed failure remote hinv hholds hlive hrun
      | lost failure input =>
          obtain ⟨report, dropped, engine, hsubmit, hinv', _⟩ := submitOrder_traded codec input.1 input.2 request
            hinv (normalizeSymbol_of_isSymbol hsymbol)
          obtain ⟨remote', hhandle, rfl, hwallet, hrows, _⟩ := handle_submitOrder codec hrequest hsubmit
          rw [Program.alone, List.foldl_cons,
            Program.advance_await rfl _ (perform_lost failure hne hhandle) rfl] at hrun
          exact hfailed failure remote' hinv' (hholds.of_wallet hwallet) (hlive.of_rows hrows) hrun
      | answered input =>
          obtain ⟨report, dropped, engine, hsubmit, hinv', hcase⟩ := submitOrder_traded codec input.1 input.2
            request hinv (normalizeSymbol_of_isSymbol hsymbol)
          obtain ⟨remote', hhandle, rfl, hwallet, hrows, hrecord⟩ := handle_submitOrder codec hrequest hsubmit
          rw [Program.alone, List.foldl_cons,
            Program.advance_await rfl _ (perform_answered hne hhandle) rfl] at hrun
          have hnext : (program codec parse service maxRetries).alone
              ⟨afterReport service memory order report, memory, remote'⟩ rest = s' := hrun
          cases haccepted : report.accepted with
          | false =>
              rw [afterReport, if_pos haccepted] at hnext
              exact refused_left (hholds.of_wallet hwallet) (hlive.of_rows hrows) hnext hend
          | true =>
              -- the engine has accepted the order
              have hlogs : logs remote.engine input.1 = true := by
                rcases hcase with ⟨_, hrefused, _⟩ | ⟨_, hlogs, _⟩
                · rw [haccepted] at hrefused
                  cases hrefused
                · exact hlogs
              obtain ⟨handled, hhandled, hsame, htrue⟩ := hrecord hlogs
              obtain ⟨_, _, _, _, _, _, hid⟩ := engineOrder_fields hrequest
              have hlast : handled ∈ s'.remote.handled := by
                rw [← hnext]
                exact handled_alone _ rest hhandled
              have hfalse := hunaccepted handled hlast (by rw [hsame, hid]; rfl)
              rw [htrue, haccepted] at hfalse
              cases hfalse

/-- The submission of an order that the engine cannot read. -/
theorem unread_left (hrequest : engineOrder parse order = none) :
    ∀ {inputs : List OrderAttempt} {attempt : ℕ}, Live order remote →
      (program codec parse service maxRetries).alone
        ⟨.await (.submitOrder order) (.submitted order attempt), memory, remote⟩ inputs = s' →
      s'.pause = .finish (.threw error) → s'.memory = memory ∧ Live order s'.remote := by
  intro inputs
  induction inputs with
  | nil =>
      intro attempt _ hrun hend
      obtain ⟨first, rest, hnil, _⟩ := Program.alone_awaits hrun hend
      cases hnil
  | cons first rest ih =>
      intro attempt hlive hrun hend
      have hperform : ∃ failure, perform codec parse (.submitOrder order) first remote
          = (.failed failure, remote) := by
        have hhandle : ∀ input, Remote.handle codec parse (.submitOrder order) input remote
            = .error ⟨.error "invalid decimal", false⟩ := by
          intro input
          rw [Remote.handle, hrequest]
        have hne : Operation.submitOrder order ≠ .resolved := fun h => nomatch h
        rw [perform_eq codec parse hne]
        cases first with
        | unsent failure => exact ⟨failure, rfl⟩
        | lost failure input =>
            rw [Attempt.run, hhandle]
            exact ⟨failure, rfl⟩
        | answered input =>
            rw [Attempt.run, hhandle]
            exact ⟨_, rfl⟩
      obtain ⟨failure, hperform⟩ := hperform
      rw [Program.alone, List.foldl_cons, Program.advance_await rfl _ hperform rfl] at hrun
      have hnext : (program codec parse service maxRetries).alone
          ⟨resumeFailed maxRetries failure (.submitted order attempt), memory, remote⟩ rest = s' := hrun
      rw [resumeFailed] at hnext
      split at hnext
      · exact ih hlive hnext hend
      · exact unreachable_left hlive hnext hend

/-- What the attempts from the lock on leave: the lock is made, the engine reads the order, and what was done is
taken back. -/
def Refunded (parse : DecimalParser) (maxRetries : ℕ) (wallet : Wallet.Database) (order : StoredOrder) :
    List OrderAttempt → Prop
  | [] | .unsent _ :: _ | .lost _ _ :: _ => False
  | .answered _ :: rest =>
    (∃ reply db, wallet.exec .fin some (.lock (TradingService.mutationOf order order.lockedAmount))
        = .ok (reply, db)) ∧
      (engineOrder parse order).isSome = true ∧
      Undone (Unaffected (walletAt wallet.wallets (Wallet.Database.rowKey order.userId order.lockedAsset))
          order.lockedAmount)
        ((walletAt wallet.wallets (Wallet.Database.rowKey order.userId order.lockedAsset)).locked.ltZero = false)
        maxRetries 0 rest

/-- **The lock of an order**, where the call throws in the end and the engine has not accepted it. -/
theorem locked_left (order : StoredOrder) (hsymbol : isSymbol order.symbol = true)
    (hinv : MatchingEngine.CoreInv remote.engine)
    (hlive : Live order remote) (hrun : (program codec parse service maxRetries).alone
      ⟨.await (.walletPost (.lock (TradingService.mutationOf order order.lockedAmount))) (.locked order), memory,
        remote⟩ inputs = s')
    (hend : s'.pause = .finish (.threw error)) (hunaccepted : Unaccepted order.id s'.remote) :
    s'.memory = memory ∧ (Cleared order (balancesOf remote order.userId) s'.remote ↔
      Refunded parse maxRetries remote.wallet order inputs) := by
  obtain ⟨first, rest, rfl, hnext⟩ := Program.alone_awaits hrun hend
  rw [advance_walletPost] at hnext
  cases hpost : remote.walletPost (.lock (TradingService.mutationOf order order.lockedAmount)) with
  | error refusal =>
      simp only [hpost] at hnext
      have hnot : ¬∃ reply db, remote.wallet.exec .fin some
          (.lock (TradingService.mutationOf order order.lockedAmount)) = .ok (reply, db) := by
        rintro ⟨reply, db, hexec⟩
        cases hpost.symm.trans (walletPost_eq_ok.mpr ⟨reply, db, hexec, rfl⟩)
      cases first with
      | unsent failure =>
          obtain rfl := alone_ended hnext
          exact ⟨rfl, iff_of_false hlive.not_cleared fun h => h⟩
      | lost failure input =>
          obtain rfl := alone_ended hnext
          exact ⟨rfl, iff_of_false hlive.not_cleared fun h => h⟩
      | answered input =>
          obtain rfl := alone_ended hnext
          exact ⟨rfl, iff_of_false hlive.not_cleared fun h => hnot h.1⟩
  | ok remote' =>
      obtain ⟨hholds, hrows, hengine, _⟩ := walletPost_lock hpost
      obtain ⟨reply, db, hexec, _⟩ := walletPost_eq_ok.mp hpost
      simp only [hpost] at hnext
      cases first with
      | unsent failure =>
          obtain rfl := alone_ended hnext
          exact ⟨rfl, iff_of_false hlive.not_cleared fun h => h⟩
      | lost failure input =>
          obtain rfl := alone_ended hnext
          exact ⟨rfl, iff_of_false (hlive.of_rows hrows).not_cleared fun h => h⟩
      | answered input =>
          cases hrequest : engineOrder parse order with
          | none =>
              obtain ⟨hmemory, hleft⟩ := unread_left hrequest (hlive.of_rows hrows) hnext hend
              refine ⟨hmemory, iff_of_false hleft.not_cleared fun h => ?_⟩
              rw [Refunded, hrequest] at h
              cases h.2.1
          | some request =>
              obtain ⟨hmemory, hiff⟩ := submitted_left hsymbol hrequest (hengine ▸ hinv) hholds
                (hlive.of_rows hrows) hnext hend hunaccepted
              refine ⟨hmemory, hiff.trans ?_⟩
              rw [Refunded, hrequest]
              exact ⟨fun h => ⟨⟨reply, db, hexec⟩, rfl, h⟩, fun h => h.2.2⟩

end Phases

/-! ### A call that throws -/

/-- **Nothing is left behind**: the balances of the user and `orders` are as before, and no row of the order is
one that `onModuleInit` restores. -/
structure LeavesNothing (uuid userId : String) (memory : Memory) (remote : Remote) (s' : OrderState) : Prop where
  balances : ∀ asset, balancesOf s'.remote userId asset = balancesOf remote userId asset
  orders : s'.memory.orders = memory.orders
  rows : ∀ row ∈ s'.remote.rows, row.id = uuid → row.status.active = false

/-- **The row of the order is not inserted**: what comes before fails, or the insertion does. -/
def Uninserted (service : TradingService) (uuid : String) (dto : PlaceOrderDto) : List OrderAttempt → Prop
  | [] | .unsent _ :: _ | .lost _ _ :: _ | .answered _ :: .unsent _ :: _ => True
  | [.answered _] | .answered _ :: .lost _ _ :: _ | .answered _ :: .answered _ :: _ =>
    ∀ order, service.assertCanTrade dto.userId dto.accountId = .ok () → newOrder uuid dto ≠ .ok order

/-- **What was done is taken back**, after a refusal of the engine. -/
def TakesBack (service : TradingService) (parse : DecimalParser) (maxRetries : ℕ) (uuid : String)
    (dto : PlaceOrderDto) (wallet : Wallet.Database) : List OrderAttempt → Prop
  | [] | .unsent _ :: _ | .lost _ _ :: _ | .answered _ :: .unsent _ :: _ | [.answered _]
  | .answered _ :: .lost _ _ :: _ => False
  | .answered _ :: .answered _ :: rest => ∃ order amount, newOrder uuid dto = .ok order ∧
      estimateLockAmount order (splitSymbol order.symbol).2 service.takerFeeBps = .ok amount ∧
      Refunded parse maxRetries wallet { order with lockedAmount := amount } rest

section Failed

variable {codec : DecimalCodec} {parse : DecimalParser} {service : TradingService} {maxRetries : ℕ}
  {remote : Remote} {memory : Memory} {order : StoredOrder} {inputs : List OrderAttempt} {s' : OrderState}
  {error : TradingError}

/-- **An order whose row is inserted**, where the call throws in the end and the engine has not accepted it. -/
theorem saved_left (hsymbol : isSymbol order.symbol = true) (hlive : Live order remote)
    (hinv : MatchingEngine.CoreInv remote.engine) (hrun : (program codec parse service maxRetries).alone
      ⟨afterSave service order, memory, remote⟩ inputs = s')
    (hend : s'.pause = .finish (.threw error)) (hunaccepted : Unaccepted order.id s'.remote) :
    s'.memory = memory ∧ (Cleared order (balancesOf remote order.userId) s'.remote ↔ ∃ amount,
      estimateLockAmount order (splitSymbol order.symbol).2 service.takerFeeBps = .ok amount ∧
        Refunded parse maxRetries remote.wallet { order with lockedAmount := amount } inputs) := by
  rw [afterSave] at hrun
  cases hlock : estimateLockAmount order (splitSymbol order.symbol).2 service.takerFeeBps with
  | error e =>
      rw [hlock] at hrun
      obtain rfl := alone_ended hrun
      exact ⟨rfl, iff_of_false hlive.not_cleared fun ⟨_, h, _⟩ => nomatch h⟩
  | ok amount =>
      rw [hlock] at hrun
      have hleft := locked_left { order with lockedAmount := amount } hsymbol hinv hlive hrun hend hunaccepted
      refine ⟨hleft.1, ⟨fun h => ⟨amount, rfl, hleft.2.mp ⟨h.balances, h.rows⟩⟩, ?_⟩⟩
      rintro ⟨_, hsame, h⟩
      cases hsame
      exact ⟨(hleft.2.mpr h).balances, (hleft.2.mpr h).rows⟩

theorem newOrder_userId {uuid : String} {dto : PlaceOrderDto} (h : newOrder uuid dto = .ok order) :
    order.userId = dto.userId := by
  obtain ⟨symbol, _, h⟩ := bind_eq_ok.mp h
  obtain ⟨price, _, h⟩ := bind_eq_ok.mp h
  obtain ⟨quantity, _, h⟩ := bind_eq_ok.mp h
  obtain ⟨stopPrice, _, h⟩ := bind_eq_ok.mp h
  cases h
  rfl

/-- A call that ends before the row is inserted. -/
theorem leavesNothing_same {uuid userId : String} (hnew : ∀ row ∈ remote.rows, row.id ≠ uuid)
    {pause : OrderPause} : LeavesNothing uuid userId memory remote ⟨pause, memory, remote⟩ :=
  ⟨fun _ => rfl, rfl, fun row hrow hid => absurd hid (hnew row hrow)⟩

theorem uninserted_of_refused {uuid : String} {dto : PlaceOrderDto} {input : CallFiles × UuidSource}
    (h : ∀ order, service.assertCanTrade dto.userId dto.accountId = .ok () → newOrder uuid dto ≠ .ok order)
    (rest : List OrderAttempt) : Uninserted service uuid dto (.answered input :: rest) := by
  cases rest with
  | nil => exact h
  | cons second rest =>
      cases second with
      | unsent failure => trivial
      | lost failure input => exact h
      | answered input => exact h

end Failed

/-- **A call that throws leaves nothing behind exactly if** it has not inserted the row of its order, or has taken
back what it did.  The engine has not accepted the order, and the identifier that is drawn for it is new. -/
theorem placeOrder_leaves_nothing_iff (codec : DecimalCodec) (parse : DecimalParser) (service : TradingService)
    (maxRetries : ℕ) (uuid : String) (dto : PlaceOrderDto) (memory : Memory) (remote : Remote)
    (hinv : MatchingEngine.CoreInv remote.engine) (hnew : ∀ row ∈ remote.rows, row.id ≠ uuid)
    (attempts : List OrderAttempt) (s' : OrderState)
    (hrun : (program codec parse service maxRetries).alone
      ((program codec parse service maxRetries).made (.placeOrder uuid dto) memory remote) attempts = s')
    (error : TradingError) (hend : s'.pause = .finish (.threw error)) (hunaccepted : Unaccepted uuid s'.remote) :
    LeavesNothing uuid dto.userId memory remote s' ↔
      Uninserted service uuid dto attempts ∨
        TakesBack service parse maxRetries uuid dto remote.wallet attempts := by
  have hchecked : (program codec parse service maxRetries).alone
      ⟨.await .findRows (.checked uuid dto), memory, remote⟩ attempts = s' := hrun
  obtain ⟨first, rest, rfl, hnext⟩ := Program.alone_awaits hchecked hend
  cases first with
  | unsent failure =>
      obtain rfl := alone_ended hnext
      exact iff_of_true (leavesNothing_same hnew) (Or.inl trivial)
  | lost failure input =>
      obtain rfl := alone_ended hnext
      exact iff_of_true (leavesNothing_same hnew) (Or.inl trivial)
  | answered input =>
      have hafter : (program codec parse service maxRetries).alone
          ⟨afterCheck service uuid dto, memory, remote⟩ rest = s' := hnext
      rw [afterCheck] at hafter
      cases hcan : service.assertCanTrade dto.userId dto.accountId with
      | error e =>
          rw [hcan] at hafter
          obtain rfl := alone_ended hafter
          exact iff_of_true (leavesNothing_same hnew) (Or.inl (uninserted_of_refused (by
            intro order hok
            rw [hcan] at hok
            cases hok) rest))
      | ok _ =>
          rw [hcan] at hafter
          dsimp only at hafter
          cases horder : newOrder uuid dto with
          | error e =>
              rw [horder] at hafter
              obtain rfl := alone_ended hafter
              exact iff_of_true (leavesNothing_same hnew) (Or.inl (uninserted_of_refused (by
                intro order _ hok
                rw [horder] at hok
                cases hok) rest))
          | ok order =>
              rw [horder] at hafter
              dsimp only at hafter
              have hid := (newOrder_spec horder).id
              have huser := newOrder_userId horder
              have hinsert : saveOrder remote.rows (OrderEntity.create order)
                  = remote.rows ++ [OrderEntity.create order] :=
                saveOrder_new fun old hold => by
                  show old.id ≠ order.id
                  rw [hid]
                  exact hnew old hold
              have hlive : Live order { remote with rows := saveOrder remote.rows (OrderEntity.create order) } := by
                refine ⟨OrderEntity.create order, ?_, rfl, ?_⟩
                · dsimp only
                  rw [hinsert]
                  exact List.mem_append_right _ (List.mem_singleton_self _)
                · show order.status.active = true
                  rw [(newOrder_spec horder).status]
                  rfl
              have hleaves : ∀ t : OrderState, t.memory = memory →
                  (LeavesNothing uuid dto.userId memory remote t ↔
                    Cleared order (balancesOf remote order.userId) t.remote) := by
                intro t hmemory
                rw [← hid, ← huser]
                exact ⟨fun h => ⟨h.balances, h.rows⟩, fun h => ⟨h.balances, by rw [hmemory], h.rows⟩⟩
              have hnot : ¬∀ order, service.assertCanTrade dto.userId dto.accountId = .ok () →
                  newOrder uuid dto ≠ .ok order := fun h => h order hcan horder
              obtain ⟨second, rest, rfl, hlast⟩ := Program.alone_awaits hafter hend
              cases second with
              | unsent failure =>
                  obtain rfl := alone_ended hlast
                  exact iff_of_true (leavesNothing_same hnew) (Or.inl trivial)
              | lost failure input =>
                  obtain rfl := alone_ended hlast
                  refine iff_of_false ?_ fun h => h.elim hnot fun h => h
                  rw [hleaves _ rfl]
                  exact hlive.not_cleared
              | answered input =>
                  have hsaved : (program codec parse service maxRetries).alone ⟨afterSave service order, memory,
                      { remote with rows := saveOrder remote.rows (OrderEntity.create order) }⟩ rest = s' := hlast
                  obtain ⟨hmemory, hiff⟩ := saved_left (newOrder_spec horder).symbol hlive hinv hsaved hend
                    (hid ▸ hunaccepted)
                  rw [hleaves s' hmemory]
                  refine hiff.trans ⟨?_, ?_⟩
                  · rintro ⟨amount, hlock, h⟩
                    exact Or.inr ⟨order, amount, horder, hlock, h⟩
                  · rintro (h | ⟨order', amount, hsame, hlock, h⟩)
                    · exact absurd h hnot
                    · rw [horder] at hsame
                      cases hsame
                      exact ⟨amount, hlock, h⟩

/-! ### An order without a price -/

/-- A bid at the market, which names no price. -/
def unpricedOrder : PlaceOrderDto := { bitcoinOrder "alice" "account-1" .buy .market 0 none 1 with price := none }

/-- Two users without funds, and an engine without books. -/
def quietRemote : Remote :=
  (start { users := quietMarket.trading.users, wallets := .empty, ledger := [] } none).remote

/-- What is left of it: its row is inserted before its lock is computed. -/
def unpricedLeft (attempts : List OrderAttempt) : OrderState :=
  (program MatchingEngine.fractionCodec some quietMarket.trading 3).alone
    ((program MatchingEngine.fractionCodec some quietMarket.trading 3).made
      (.placeOrder "order-1" unpricedOrder) (start quietRemote.wallet none).memory quietRemote) attempts

/-- Both its read and its insertion are answered. -/
def unpricedAttempts : List OrderAttempt :=
  [.answered (MatchingEngine.filesOk, fun _ => "first"), .answered (MatchingEngine.filesOk, fun _ => "first")]

theorem placeOrder_leaves_nothing_iff_unpriced :
    (∃ error, (unpricedLeft unpricedAttempts).pause = .finish (.threw error)) ∧
    Unaccepted "order-1" (unpricedLeft unpricedAttempts).remote ∧
    (LeavesNothing "order-1" "alice" (start quietRemote.wallet none).memory quietRemote
        (unpricedLeft unpricedAttempts) ↔
      Uninserted quietMarket.trading "order-1" unpricedOrder unpricedAttempts ∨
        TakesBack quietMarket.trading some 3 "order-1" unpricedOrder quietRemote.wallet unpricedAttempts) := by
  have hend : (unpricedLeft unpricedAttempts).pause = .finish (.threw (.http 400
      "buy orders require price for pre-trade balance locking")) := by decide +kernel
  have hunaccepted : Unaccepted "order-1" (unpricedLeft unpricedAttempts).remote := by
    have hnone : (unpricedLeft unpricedAttempts).remote.handled = [] := by decide +kernel
    rw [Unaccepted, hnone]
    exact fun handled h => nomatch h
  exact ⟨⟨_, hend⟩, hunaccepted, placeOrder_leaves_nothing_iff MatchingEngine.fractionCodec some
    quietMarket.trading 3 "order-1" unpricedOrder _ quietRemote (MatchingEngine.coreInv_empty none)
    (fun row h => nomatch h) unpricedAttempts _ rfl _ hend hunaccepted⟩

/-- **A call that throws may leave a row that is restored**: an order to buy without a price. -/
theorem unpriced_row_is_left :
    ¬∀ attempts error, (unpricedLeft attempts).pause = .finish (.threw error) →
      Unaccepted "order-1" (unpricedLeft attempts).remote →
      LeavesNothing "order-1" "alice" (start quietRemote.wallet none).memory quietRemote
        (unpricedLeft attempts) := by
  intro h
  have hnone : (unpricedLeft unpricedAttempts).remote.handled = [] := by decide +kernel
  have hleft := h unpricedAttempts (.http 400 "buy orders require price for pre-trade balance locking")
    (by decide +kernel) (by
      rw [Unaccepted, hnone]
      exact fun handled h => nomatch h)
  have hrows : (unpricedLeft unpricedAttempts).remote.rows.map (fun row => (row.id, row.status.active))
      = [("order-1", true)] := by decide +kernel
  obtain ⟨row, hrow, heq⟩ := List.mem_map.mp (hrows.symm ▸ List.mem_singleton_self ("order-1", true))
  have hactive := hleft.rows row hrow (congrArg Prod.fst heq)
  cases hactive.symm.trans (congrArg Prod.snd heq)

end NexusTrade.Trading
