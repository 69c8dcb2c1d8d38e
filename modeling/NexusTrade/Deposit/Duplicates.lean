import NexusTrade.Deposit.Service
import NexusTrade.Lib.Interleaving
import NexusTrade.Lib.Run
import NexusTrade.Lib.Totals
import Mathlib.Data.List.Nodup

/-!
# One deposit for each transaction

`simulateDeposit` of `services/deposit-service/src/services/deposit.service.ts` as asynchronous code: any number of
calls proceed together, and each awaits the check of its user, the search for a deposit of its transaction, the
insertion and the event.  The table has an index on `tx_hash` that is not unique; its rows have different identifiers.

* **`DepositOperation`** and **`DepositPoint`**: what a call awaits, and where it goes on;
* **`resumeDeposit`** is the code of the service between two points, **`performDeposit`** the effect of an operation;
* **`OneEach`** says that no two rows have one transaction, **`SearchesAlone`** is the condition on a step;
* **`one_deposit_each`** says that the first holds in every run under the second.
-/

namespace NexusTrade

/-! ### The program -/

/-- A call of `simulateDeposit`, with the identifier that it draws. -/
structure DepositRequest where
  uuid : String
  dto : SimulateDepositDto
  deriving DecidableEq

/-- What a call awaits. -/
inductive DepositOperation
  | assertUserCanTransact (userId : String)
  | findOne (txHash : String)
  | save (deposit : DepositEntity)
  | produce (event : KafkaEvent DepositEntity)
  deriving DecidableEq

/-- What an operation answers; what fails is thrown. -/
inductive DepositAnswer
  | checked (result : Except ServiceError Unit)
  | found (duplicate : Option DepositEntity)
  | saved (result : Except ServiceError Unit)
  | produced (result : Except ServiceError Unit)
  deriving DecidableEq

/-- Where a call goes on, with its local variables. -/
inductive DepositPoint
  | checked (request : DepositRequest)
  | searched (request : DepositRequest)
  | saved (deposit : DepositEntity)
  | produced (deposit : DepositEntity) (event : KafkaEvent DepositEntity)
  deriving DecidableEq

/-- How a call ends. -/
inductive DepositOutcome
  | threw (error : ServiceError)
  | deposited (deposit : DepositEntity) (event : KafkaEvent DepositEntity)
  deriving DecidableEq

abbrev DepositProgress := Progress DepositOperation DepositAnswer DepositPoint DepositOutcome

abbrev DepositWorld :=
  World DepositRequest Unit DepositService DepositOperation DepositAnswer DepositPoint DepositOutcome

abbrev DepositTurn := Turn DepositRequest (Except ServiceError Unit)

/-- The transaction has a row. -/
def DepositService.findTx (service : DepositService) (txHash : String) : Option DepositEntity :=
  (service.deposits.values.find? fun deposit => deposit.txHash = txHash)

variable (minimum : Amount) (column : Column)

/-- The effect of an operation; whether the event is produced comes with the step. -/
def performDeposit (operation : DepositOperation) (produced : Except ServiceError Unit) (service : DepositService) :
    DepositAnswer × DepositService :=
  match operation with
  | .assertUserCanTransact userId => (.checked (service.assertUserCanTransact userId), service)
  | .findOne txHash => (.found (service.findTx txHash), service)
  | .save deposit =>
    match service.save column deposit with
    | .error e => (.saved (.error e), service)
    | .ok service => (.saved (.ok ()), service)
  | .produce _ => (.produced produced, service)

/-- The deposit that a call creates. -/
def DepositRequest.deposit (request : DepositRequest) : DepositEntity :=
  ⟨request.uuid, request.dto.userId, request.dto.asset, request.dto.txHash, request.dto.amount, 0,
    requiredConfirmations request.dto.asset, .pending⟩

/-- The code from one point to the next. -/
def resumeDeposit : DepositPoint → DepositAnswer → Pause DepositOperation DepositPoint DepositOutcome
  | .checked request, .checked result =>
    match result with
    | .error e => .finish (.threw e)
    | .ok () => .await (.findOne request.dto.txHash) (.searched request)
  | .searched request, .found duplicate =>
    match duplicate with
    | some _ => .finish (.threw (.http 409 "deposit txHash already processed"))
    | none =>
      if request.dto.amount.lt minimum then .finish (.threw (.http 400 "deposit below minimum amount"))
      else .await (.save request.deposit) (.saved request.deposit)
  | .saved deposit, .saved result =>
    match result with
    | .error e => .finish (.threw e)
    | .ok () =>
      .await (.produce ⟨.depositDetected, deposit.id, deposit⟩)
        (.produced deposit ⟨.depositDetected, deposit.id, deposit⟩)
  | .produced deposit event, .produced result =>
    match result with
    | .error e => .finish (.threw e)
    | .ok () => .finish (.deposited deposit event)
  -- every operation gives its own kind of answer
  | _, _ => .finish (.threw .database)

/-- **The program.** -/
def depositProgram : Program DepositRequest Unit DepositService DepositOperation DepositAnswer DepositPoint
    DepositOutcome (Except ServiceError Unit) where
  enter request memory := (.await (.assertUserCanTransact request.dto.userId) (.checked request), memory)
  resume point answer memory := (resumeDeposit minimum point answer, memory)
  perform := performDeposit column

/-! ### The law and its condition -/

/-- **No two rows have one transaction.** -/
def OneEach (service : DepositService) : Prop :=
  ∀ id id' deposit deposit', service.deposits.find id = some deposit → service.deposits.find id' = some deposit' →
    deposit.txHash = deposit'.txHash → id = id'

/-- The transaction of a call that has found no deposit of it and has not inserted its own. -/
def claims : DepositProgress → List String
  | .ready (.found none) (.searched request) => [request.dto.txHash]
  | .waiting (.save deposit) _ => [deposit.txHash]
  | _ => []

/-- The transaction that a call searches for. -/
def searching (thread : Thread DepositRequest DepositOperation DepositAnswer DepositPoint DepositOutcome) :
    Option String :=
  match thread.progress with
  | .waiting (.findOne txHash) _ => some txHash
  | _ => none

/-- **The condition on a step**: while a call searches for its transaction, no other call is between its own search for
it and its insertion. -/
def SearchesAlone (world : DepositWorld) : DepositTurn → Prop
  | .perform pos _ => ∀ txHash ∈ (world.threads[pos]?).bind searching, txHash ∉ gather claims world.threads
  | _ => True

instance (world : DepositWorld) : DecidablePred (SearchesAlone world)
  | .enter _ => inferInstanceAs (Decidable True)
  | .perform _ _ => inferInstanceAs (Decidable (∀ _ ∈ _, _))
  | .resume _ => inferInstanceAs (Decidable True)

/-! ### The rows -/

/-- The transactions of the rows. -/
def DepositService.hashes (service : DepositService) : List String := service.deposits.values.map DepositEntity.txHash

section Rows

variable {service service' : DepositService} {column}

theorem DepositService.findTx_eq_none {txHash : String} (h : service.findTx txHash = none) :
    txHash ∉ service.hashes := by
  intro hin
  obtain ⟨deposit, hdeposit, rfl⟩ := List.mem_map.mp hin
  have hnone := List.find?_eq_none.mp h deposit hdeposit
  simp at hnone

/-- **The rows have different transactions** exactly if the list of these has nothing twice. -/
theorem oneEach_iff : OneEach service ↔ service.hashes.Nodup := by
  have hkeys := service.deposits.keys_nodup
  rw [DepositService.hashes, SortedMap.values, List.map_map]
  constructor
  · intro h
    refine List.Nodup.map_on (fun e he e' he' hsame => ?_) (List.Nodup.of_map _ hkeys)
    have hid := h e.1 e'.1 e.2 e'.2 ((SortedMap.mem_entries_iff _ _ _).mp he) ((SortedMap.mem_entries_iff _ _ _).mp he')
      hsame
    exact List.inj_on_of_nodup_map hkeys he he' hid
  · intro h id id' deposit deposit' hfind hfind' hsame
    have he := (SortedMap.mem_entries_iff _ _ _).mpr hfind
    have he' := (SortedMap.mem_entries_iff _ _ _).mpr hfind'
    exact congrArg Prod.fst (List.inj_on_of_nodup_map h he he' hsame)

/-- What is inserted, and the other rows. -/
theorem insert_hashes (deposits : SortedMap String DepositEntity) (id : String) (deposit : DepositEntity) :
    ((deposits.insert id deposit).values.map DepositEntity.txHash).Perm
      (deposit.txHash :: (deposits.erase id).values.map DepositEntity.txHash) := by
  have hfind : (deposits.insert id deposit).find id = some deposit := by rw [SortedMap.find_insert, if_pos rfl]
  obtain ⟨pre, post, hsplit⟩ := List.append_of_mem ((SortedMap.mem_entries_iff _ _ _).mpr hfind)
  have herase := SortedMap.entries_erase hsplit
  rw [SortedMap.erase_insert] at herase
  rw [SortedMap.values, SortedMap.values, hsplit, herase]
  simp only [List.map_append, List.map_cons]
  exact List.perm_middle

/-- **Saving a deposit** adds its transaction to those of other rows. -/
theorem save_hashes {deposit : DepositEntity} (h : service.save column deposit = .ok service') :
    ∃ hashes, service'.hashes.Perm (deposit.txHash :: hashes) ∧ hashes.Sublist service.hashes := by
  rw [DepositService.save] at h
  split at h
  · cases h
  · rename_i amount _
    split at h
    · cases h
      refine ⟨(service.deposits.erase deposit.id).values.map DepositEntity.txHash, insert_hashes _ _ _, ?_⟩
      exact ((List.filter_sublist.map _).map _)
    · cases h

end Rows

/-! ### The invariant -/

/-- A call that goes on after its search has searched for its own transaction. -/
def Asks : DepositProgress → Prop
  | .waiting operation (.searched request) => operation = .findOne request.dto.txHash
  | _ => True

/-- **The invariant**: the rows and the calls that are about to insert have different transactions. -/
structure Apart (world : DepositWorld) : Prop where
  asks : ∀ thread ∈ world.threads, Asks thread.progress
  nodup : (world.remote.hashes ++ gather claims world.threads).Nodup

section Step

variable {minimum column}

/-- The code claims no transaction. -/
theorem resume_claims (minimum : Amount) (point : DepositPoint) (answer : DepositAnswer) :
    (claims (resumeDeposit minimum point answer).progress).Sublist (claims (.ready answer point)) ∧
      Asks (resumeDeposit minimum point answer).progress := by
  cases point with
  | checked request =>
      cases answer with
      | checked result => cases result <;> exact ⟨List.nil_sublist _, by trivial⟩
      | _ => exact ⟨List.nil_sublist _, trivial⟩
  | searched request =>
      cases answer with
      | found duplicate =>
          cases duplicate with
          | some _ => exact ⟨List.nil_sublist _, trivial⟩
          | none =>
              simp only [resumeDeposit]
              split
              · exact ⟨List.nil_sublist _, trivial⟩
              · exact ⟨List.Sublist.refl _, trivial⟩
      | _ => exact ⟨List.nil_sublist _, trivial⟩
  | saved deposit =>
      cases answer with
      | saved result => cases result <;> exact ⟨List.nil_sublist _, trivial⟩
      | _ => exact ⟨List.nil_sublist _, trivial⟩
  | produced deposit event =>
      cases answer with
      | produced result => cases result <;> exact ⟨List.nil_sublist _, trivial⟩
      | _ => exact ⟨List.nil_sublist _, trivial⟩

/-- One call and the others, with the rows. -/
theorem apart_perm (hashes : List String)
    (pre post : List (Thread DepositRequest DepositOperation DepositAnswer DepositPoint DepositOutcome))
    (request : DepositRequest) (progress : DepositProgress) :
    (hashes ++ gather claims (pre ++ ⟨request, progress⟩ :: post)).Perm
      (claims progress ++ (hashes ++ gather claims (pre ++ post))) := by
  refine ((gather_perm claims pre post request progress).append_left hashes).trans ?_
  rw [← List.append_assoc, ← List.append_assoc]
  exact List.perm_append_comm.append_right _

/-- **Every step keeps the invariant** under the condition. -/
theorem Apart.step {world world' : DepositWorld} {turn : DepositTurn} (h : Apart world)
    (hmeets : SearchesAlone world turn) (hstep : Stepped (depositProgram minimum column) world turn world') :
    Apart world' := by
  cases hstep with
  | idle => exact h
  | entered request block =>
      cases block
      refine ⟨fun thread hthread => ?_, ?_⟩
      · rcases List.mem_append.mp hthread with hthread | hthread
        · exact h.asks thread hthread
        · rw [List.mem_singleton.mp hthread]
          trivial
      · rw [gather_append, show gather claims [_] = [] from rfl, List.append_nil]
        exact h.nodup
  | resumed pre post request answer point hthreads block =>
      obtain ⟨memory, service, threads⟩ := world
      subst hthreads
      cases block
      obtain ⟨hclaims, hasks⟩ := resume_claims minimum point answer
      refine ⟨fun thread hthread => ?_, ?_⟩
      · rcases mem_around hthread ⟨request, .ready answer point⟩ with rfl | hthread
        · exact hasks
        · exact h.asks thread hthread
      · have hbefore := (apart_perm service.hashes pre post request (.ready answer point)).nodup_iff.mp h.nodup
        refine (apart_perm service.hashes pre post request _).nodup_iff.mpr (hbefore.sublist ?_)
        exact hclaims.append_right _
  | performed pre post request operation point produced hthreads effect =>
      obtain ⟨memory, service, threads⟩ := world
      subst hthreads
      have hown := h.asks ⟨request, .waiting operation point⟩ (by simp)
      have hbefore := (apart_perm service.hashes pre post request (.waiting operation point)).nodup_iff.mp h.nodup
      have hothers : (service.hashes ++ gather claims (pre ++ post)).Nodup :=
        hbefore.sublist (List.sublist_append_right _ _)
      have hasks : ∀ answer, ∀ thread ∈ pre ++ ⟨request, .ready answer point⟩ :: post, Asks thread.progress := by
        intro answer thread hthread
        rcases mem_around hthread ⟨request, .waiting operation point⟩ with rfl | hthread
        · trivial
        · exact h.asks thread hthread
      -- a call that claims nothing after the operation
      have hquiet : ∀ answer, claims (.ready answer point) = [] →
          Apart ⟨memory, service, pre ++ ⟨request, .ready answer point⟩ :: post⟩ := by
        intro answer hnone
        refine ⟨hasks answer, (apart_perm service.hashes pre post request _).nodup_iff.mpr ?_⟩
        rw [hnone]
        exact hothers
      cases operation with
      | assertUserCanTransact userId =>
          obtain ⟨rfl, rfl⟩ := Prod.mk.inj effect
          exact hquiet _ rfl
      | produce event =>
          obtain ⟨rfl, rfl⟩ := Prod.mk.inj effect
          exact hquiet _ rfl
      | findOne txHash =>
          obtain ⟨rfl, rfl⟩ := Prod.mk.inj effect
          have halone := hmeets txHash (by simp [searching])
          show Apart ⟨memory, service, pre ++ ⟨request, .ready (.found (service.findTx txHash)) point⟩ :: post⟩
          cases point with
          | searched asked =>
              obtain rfl : txHash = asked.dto.txHash := DepositOperation.findOne.inj hown
              cases hfound : service.findTx asked.dto.txHash with
              | some duplicate => exact hquiet _ rfl
              | none =>
                  refine ⟨hasks _, (apart_perm service.hashes pre post request _).nodup_iff.mpr ?_⟩
                  show (asked.dto.txHash :: (service.hashes ++ gather claims (pre ++ post))).Nodup
                  refine List.nodup_cons.mpr ⟨fun hin => ?_, hothers⟩
                  rcases List.mem_append.mp hin with hin | hin
                  · exact DepositService.findTx_eq_none hfound hin
                  · exact halone ((gather_perm claims pre post request _).mem_iff.mpr (List.mem_append_right _ hin))
          | _ => exact hquiet _ (by cases service.findTx txHash <;> rfl)
      | save deposit =>
          cases hsave : service.save column deposit with
          | error e =>
              have heffect : performDeposit column (.save deposit) produced service = (.saved (.error e), service) := by
                simp only [performDeposit, hsave]
              obtain ⟨rfl, rfl⟩ := Prod.mk.inj (heffect.symm.trans effect)
              exact hquiet _ rfl
          | ok service' =>
              have heffect : performDeposit column (.save deposit) produced service = (.saved (.ok ()), service') := by
                simp only [performDeposit, hsave]
              obtain ⟨rfl, rfl⟩ := Prod.mk.inj (heffect.symm.trans effect)
              obtain ⟨hashes, hperm, hsub⟩ := save_hashes hsave
              refine ⟨hasks _, (apart_perm service'.hashes pre post request _).nodup_iff.mpr ?_⟩
              show (service'.hashes ++ gather claims (pre ++ post)).Nodup
              refine (hperm.append_right _).nodup_iff.mpr (hbefore.sublist ?_)
              exact (hsub.append_right _).cons_cons deposit.txHash

end Step

/-! ### Runs -/

/-- **One deposit for each transaction**: in every run in which calls search alone, no two rows have one transaction. -/
theorem one_deposit_each {service : DepositService} (hrows : OneEach service) {turns : List DepositTurn}
    (h : Machine.Along (depositProgram minimum column).exec SearchesAlone ⟨(), service, []⟩ turns) :
    ∃ replies world, Machine.run (depositProgram minimum column).exec ⟨(), service, []⟩ turns = .ok (replies, world) ∧
      OneEach world.remote := by
  have hstart : Apart ⟨(), service, []⟩ := by
    refine ⟨by simp, ?_⟩
    rw [show gather claims [] = [] from rfl, List.append_nil]
    exact oneEach_iff.mp hrows
  obtain ⟨replies, world, hrun, hapart⟩ := Machine.run_safe_along (Q := fun _ _ world => Apart world) hstart
    (fun _ _ _ _ _ _ hinv hmeets hexec => hinv.step hmeets (Program.exec_spec hexec)) turns h
  exact ⟨replies, world, hrun, oneEach_iff.mpr (hapart.nodup.sublist (List.sublist_append_left _ _))⟩

/-- A service without deposits. -/
def noDeposits : DepositService := ⟨none, .empty⟩

/-- A deposit of a transaction. -/
def depositOf (uuid : String) : DepositRequest := ⟨uuid, ⟨"user-1", "BTC", "btc-tx-1", .fin (1 / 4)⟩⟩

/-- Two calls, one after the other. -/
def oneAfterTheOther : List DepositTurn :=
  [.enter (depositOf "deposit-1")] ++ (List.replicate 4 [.perform 0 (.ok ()), .resume 0]).flatten ++
    [.enter (depositOf "deposit-2")] ++ (List.replicate 2 [.perform 1 (.ok ()), .resume 1]).flatten

theorem one_deposit_each_sequential :
    ∃ replies world, Machine.run (depositProgram .zero some).exec ⟨(), noDeposits, []⟩ oneAfterTheOther
        = .ok (replies, world) ∧ OneEach world.remote ∧ world.remote.hashes = ["btc-tx-1"] := by
  have hmeets : Machine.Along (depositProgram .zero some).exec SearchesAlone ⟨(), noDeposits, []⟩ oneAfterTheOther := by
    decide +kernel
  obtain ⟨replies, world, hrun, hrows⟩ := one_deposit_each .zero some (oneEach_iff.mpr (by decide +kernel)) hmeets
  have hhashes : (Machine.run (depositProgram .zero some).exec ⟨(), noDeposits, []⟩ oneAfterTheOther).map
      (fun r => r.2.remote.hashes) = .ok ["btc-tx-1"] := by decide +kernel
  rw [hrun] at hhashes
  exact ⟨replies, world, hrun, hrows, Except.ok.inj hhashes⟩

/-- Two calls that search before either has inserted its deposit. -/
def bothSearchFirst : List DepositTurn :=
  [.enter (depositOf "deposit-1"), .enter (depositOf "deposit-2")] ++
    (List.replicate 4 [.perform 0 (.ok ()), .perform 1 (.ok ()), .resume 0, .resume 1]).flatten

/-- **One transaction is deposited twice** by two calls that proceed together. -/
theorem transaction_deposited_twice :
    ∃ replies world, Machine.run (depositProgram .zero some).exec ⟨(), noDeposits, []⟩ bothSearchFirst
        = .ok (replies, world) ∧ world.remote.hashes = ["btc-tx-1", "btc-tx-1"] ∧ ¬OneEach world.remote := by
  have hhashes : (Machine.run (depositProgram .zero some).exec ⟨(), noDeposits, []⟩ bothSearchFirst).map
      (fun r => r.2.remote.hashes) = .ok ["btc-tx-1", "btc-tx-1"] := by decide +kernel
  cases hrun : Machine.run (depositProgram .zero some).exec ⟨(), noDeposits, []⟩ bothSearchFirst with
  | error e => cases e
  | ok r =>
      rw [hrun] at hhashes
      have hrows : r.2.remote.hashes = ["btc-tx-1", "btc-tx-1"] := Except.ok.inj hhashes
      refine ⟨r.1, r.2, rfl, hrows, fun h => ?_⟩
      have hnodup := oneEach_iff.mp h
      rw [hrows] at hnodup
      exact absurd hnodup (by decide +kernel)

end NexusTrade
