import Mathlib.Data.List.Flatten
import Mathlib.Data.List.Nodup
import NexusTrade.Auth.Registration
import NexusTrade.Lib.Run

/-!
# One account for an email

Registrations and deliveries that proceed together, with operations that fail and answers that are lost, leave one
account for an email, and none that was not registered.

* **`Extends`**: no row is changed or removed, and no event;
* **`Stage`** says how far a call can be, and what it knows there: the consumer never comes to save a row, since it
  finds the user of every event;
* **`inserted`** is the row that a call has inserted, **`Enrolled`** the invariant and **`Enrolled.step`** the step lemma;
* **`registrations_are_unique`**: so every run leaves the rows of the start and of registrations, and of the
  registrations for one email at most one succeeds.
-/

namespace NexusTrade.Auth.Registration

/-! ### The table -/

/-- No two rows have emails that the column takes to be equal. -/
def Distinct (config : RegistrationConfig) (accounts : Accounts) : Prop :=
  ∀ id id' row row', accounts.users.find id = some row → accounts.users.find id' = some row' →
    config.foldCase row.email = config.foldCase row'.email → id = id'

/-- An event is about a row of the table. -/
def Names (accounts : Accounts) (event : RegisteredEvent) : Prop :=
  ∃ row, accounts.users.find event.userId = some row ∧ row.email = event.email

/-- Rows stay as they are, and events stay. -/
structure Extends (accounts accounts' : Accounts) : Prop where
  rows : ∀ id row, accounts.users.find id = some row → accounts'.users.find id = some row
  topic : ∀ event ∈ accounts.topic, event ∈ accounts'.topic

theorem Extends.refl (accounts : Accounts) : Extends accounts accounts := ⟨fun _ _ h => h, fun _ h => h⟩

section Table

variable {config : RegistrationConfig} {accounts accounts' : Accounts}

theorem Extends.trans {accounts'' : Accounts} (h : Extends accounts accounts') (h' : Extends accounts' accounts'') :
    Extends accounts accounts'' :=
  ⟨fun id row hrow => h'.rows id row (h.rows id row hrow), fun event hevent => h'.topic event (h.topic event hevent)⟩

theorem Names.mono (hext : Extends accounts accounts') {event : RegisteredEvent} (h : Names accounts event) :
    Names accounts' event := by
  obtain ⟨row, hfind, hemail⟩ := h
  exact ⟨row, hext.rows _ _ hfind, hemail⟩

/-- A row that is found by an email is in the table. -/
theorem findByEmail_some {email : String} {row : AccountRow} (h : accounts.findByEmail config email = some row) :
    ∃ id, accounts.users.find id = some row ∧ config.foldCase row.email = config.foldCase email := by
  obtain ⟨⟨id, row'⟩, hfound, hrow⟩ := Option.map_eq_some_iff.mp h
  cases hrow
  refine ⟨id, (SortedMap.mem_entries_iff _ _ _).mp (List.mem_of_find?_eq_some hfound), ?_⟩
  have hmatch := List.find?_some hfound
  exact of_decide_eq_true hmatch

theorem admits_ne {id id' : String} {row row' : AccountRow} (h : accounts.admits config id row = true)
    (hfind : accounts.users.find id' = some row') (hne : id' ≠ id) :
    config.foldCase row'.email ≠ config.foldCase row.email := by
  have hentry := List.all_eq_true.mp h (id', row') ((SortedMap.mem_entries_iff _ _ _).mpr hfind)
  rcases of_decide_eq_true hentry with hsame | hother
  · exact absurd hsame hne
  · exact hother.1

/-- **A row that the indices let in** leaves the emails distinct. -/
theorem Distinct.insert (h : Distinct config accounts) {uuid : String} {row : AccountRow}
    (hadmits : accounts.admits config uuid row = true) :
    Distinct config { accounts with users := accounts.users.insert uuid row } := by
  intro id id' found found' hfind hfind' hemail
  have hfind : (accounts.users.insert uuid row).find id = some found := hfind
  have hfind' : (accounts.users.insert uuid row).find id' = some found' := hfind'
  rw [SortedMap.find_insert] at hfind hfind'
  by_cases hid : id = uuid
  · by_cases hid' : id' = uuid
    · rw [hid, hid']
    · rw [if_pos hid] at hfind
      rw [if_neg hid'] at hfind'
      cases hfind
      exact absurd hemail.symm (admits_ne hadmits hfind' hid')
  · rw [if_neg hid] at hfind
    by_cases hid' : id' = uuid
    · rw [if_pos hid'] at hfind'
      cases hfind'
      exact absurd hemail (admits_ne hadmits hfind hid)
    · rw [if_neg hid'] at hfind'
      exact h id id' found found' hfind hfind' hemail

/-- A row that is inserted under a new identifier. -/
theorem Extends.insert {uuid : String} (hnew : accounts.users.contains uuid = false) (row : AccountRow) :
    Extends accounts { accounts with users := accounts.users.insert uuid row } := by
  refine ⟨fun id found hfind => ?_, fun event hevent => hevent⟩
  show (accounts.users.insert uuid row).find id = some found
  rw [SortedMap.find_insert]
  split
  · rename_i hid
    rw [hid, (SortedMap.contains_eq_false_iff _ _).mp hnew] at hfind
    cases hfind
  · exact hfind

end Table

/-! ### What a call knows -/

section Stages

variable (config : RegistrationConfig)

/-- The row of a registration is in the table. -/
def Holds (accounts : Accounts) (dto : RegisterDto) (uuid referralUuid : String) : Prop :=
  accounts.users.find uuid = some (dto.row config referralUuid ⟨dto.password⟩)

/-- The event of a registration. -/
def eventOf (dto : RegisterDto) (uuid : String) : RegisteredEvent := ⟨uuid, dto.lowered config, some .active⟩

/-- A row has the email of a registration. -/
def Taken (accounts : Accounts) (dto : RegisterDto) : Prop :=
  ∃ id row, accounts.users.find id = some row ∧ config.foldCase row.email = config.foldCase (dto.lowered config)

/-- **How far a call can be**, and what it knows there. -/
inductive Stage (accounts : Accounts) : AccountCall → AccountProgress → Prop
  | finding (dto : RegisterDto) (uuid referralUuid : String) :
      Stage accounts (.register dto uuid referralUuid)
        (.waiting (.findByEmail (dto.lowered config)) (.registerFound dto uuid referralUuid))
  | taken (dto : RegisterDto) (uuid referralUuid : String) (row : AccountRow) (htaken : Taken config accounts dto) :
      Stage accounts (.register dto uuid referralUuid)
        (.ready (.user (some row)) (.registerFound dto uuid referralUuid))
  | unknown (dto : RegisterDto) (uuid referralUuid : String) :
      Stage accounts (.register dto uuid referralUuid) (.ready (.user none) (.registerFound dto uuid referralUuid))
  | hashing (dto : RegisterDto) (uuid referralUuid : String) :
      Stage accounts (.register dto uuid referralUuid)
        (.waiting (.hash dto.password) (.registerHashed dto uuid referralUuid))
  | hashed (dto : RegisterDto) (uuid referralUuid : String) :
      Stage accounts (.register dto uuid referralUuid)
        (.ready (.hashed ⟨dto.password⟩) (.registerHashed dto uuid referralUuid))
  | saving (dto : RegisterDto) (uuid referralUuid : String) :
      Stage accounts (.register dto uuid referralUuid)
        (.waiting (.insert uuid (dto.row config referralUuid ⟨dto.password⟩))
          (.registerSaved uuid (dto.row config referralUuid ⟨dto.password⟩)))
  | saved (dto : RegisterDto) (uuid referralUuid : String) (hrow : Holds config accounts dto uuid referralUuid) :
      Stage accounts (.register dto uuid referralUuid)
        (.ready .stored (.registerSaved uuid (dto.row config referralUuid ⟨dto.password⟩)))
  | producing (dto : RegisterDto) (uuid referralUuid : String) (hrow : Holds config accounts dto uuid referralUuid) :
      Stage accounts (.register dto uuid referralUuid)
        (.waiting (.produce (eventOf config dto uuid))
          (.registerProduced uuid (dto.row config referralUuid ⟨dto.password⟩)))
  | produced (dto : RegisterDto) (uuid referralUuid : String) (hrow : Holds config accounts dto uuid referralUuid)
      (hevent : eventOf config dto uuid ∈ accounts.topic) :
      Stage accounts (.register dto uuid referralUuid)
        (.ready .produced (.registerProduced uuid (dto.row config referralUuid ⟨dto.password⟩)))
  | registered (dto : RegisterDto) (uuid referralUuid : String) (hrow : Holds config accounts dto uuid referralUuid)
      (hevent : eventOf config dto uuid ∈ accounts.topic) :
      Stage accounts (.register dto uuid referralUuid) (.finished (.registered uuid (dto.lowered config) .active))
  | refused (dto : RegisterDto) (uuid referralUuid : String) (htaken : Taken config accounts dto) :
      Stage accounts (.register dto uuid referralUuid) (.finished (.failed emailTaken))
  | polling (offset : ℕ) : Stage accounts (.consume offset) (.waiting (.poll offset) .consumePolled)
  | polled (offset : ℕ) (found : Option RegisteredEvent) (hevent : ∀ event ∈ found, Names accounts event) :
      Stage accounts (.consume offset) (.ready (.polled found) .consumePolled)
  | searching (offset : ℕ) (event : RegisteredEvent) (hevent : Names accounts event) :
      Stage accounts (.consume offset) (.waiting (.findById event.userId) (.consumeFound event))
  | present (offset : ℕ) (event : RegisteredEvent) (row : AccountRow) :
      Stage accounts (.consume offset) (.ready (.user (some row)) (.consumeFound event))
  | consumed (offset : ℕ) : Stage accounts (.consume offset) (.finished .consumed)
  | threw (call : AccountCall) (point : Point) : Stage accounts call (.ready .threw point)
  | failed (call : AccountCall) : Stage accounts call (.finished (.failed .database))

/-- The row that a call has inserted. -/
def inserted : AccountProgress → List String
  | .ready .stored (.registerSaved uuid _) => [uuid]
  | .waiting _ (.registerProduced uuid _) => [uuid]
  | .ready .produced (.registerProduced uuid _) => [uuid]
  | .finished (.registered userId _ _) => [userId]
  | _ => []

end Stages

section Calls

variable {config : RegistrationConfig} {accounts accounts' : Accounts} {call : AccountCall}

theorem Taken.mono (hext : Extends accounts accounts') {dto : RegisterDto} (h : Taken config accounts dto) :
    Taken config accounts' dto := by
  obtain ⟨id, row, hfind, hemail⟩ := h
  exact ⟨id, row, hext.rows id row hfind, hemail⟩

/-- **What a call knows stays true.** -/
theorem Stage.mono (hext : Extends accounts accounts') {progress : AccountProgress}
    (h : Stage config accounts call progress) : Stage config accounts' call progress := by
  cases h with
  | finding dto uuid referralUuid => exact .finding dto uuid referralUuid
  | taken dto uuid referralUuid row htaken => exact .taken dto uuid referralUuid row (htaken.mono hext)
  | unknown dto uuid referralUuid => exact .unknown dto uuid referralUuid
  | hashing dto uuid referralUuid => exact .hashing dto uuid referralUuid
  | hashed dto uuid referralUuid => exact .hashed dto uuid referralUuid
  | saving dto uuid referralUuid => exact .saving dto uuid referralUuid
  | saved dto uuid referralUuid hrow => exact .saved dto uuid referralUuid (hext.rows _ _ hrow)
  | producing dto uuid referralUuid hrow => exact .producing dto uuid referralUuid (hext.rows _ _ hrow)
  | produced dto uuid referralUuid hrow hevent =>
      exact .produced dto uuid referralUuid (hext.rows _ _ hrow) (hext.topic _ hevent)
  | registered dto uuid referralUuid hrow hevent =>
      exact .registered dto uuid referralUuid (hext.rows _ _ hrow) (hext.topic _ hevent)
  | refused dto uuid referralUuid htaken => exact .refused dto uuid referralUuid (htaken.mono hext)
  | polling offset => exact .polling offset
  | polled offset found hevent => exact .polled offset found fun event hfound => (hevent event hfound).mono hext
  | searching offset event hevent => exact .searching offset event (hevent.mono hext)
  | present offset event row => exact .present offset event row
  | consumed offset => exact .consumed offset
  | threw call point => exact .threw call point
  | failed call => exact .failed call

theorem enter_stage (accounts : Accounts) (call : AccountCall) :
    Stage config accounts call (enter config call).progress := by
  cases call with
  | register dto uuid referralUuid => exact .finding dto uuid referralUuid
  | consume offset => exact .polling offset

theorem resume_threw (point : Point) : resume config point .threw = .finish (.failed .database) := by
  cases point <;> rfl

/-- **The code goes on** to the next stage. -/
theorem resume_stage {answer : Answer} {point : Point} (h : Stage config accounts call (.ready answer point)) :
    Stage config accounts call (resume config point answer).progress := by
  cases h with
  | taken dto uuid referralUuid row htaken => exact .refused dto uuid referralUuid htaken
  | unknown dto uuid referralUuid => exact .hashing dto uuid referralUuid
  | hashed dto uuid referralUuid => exact .saving dto uuid referralUuid
  | saved dto uuid referralUuid hrow => exact .producing dto uuid referralUuid hrow
  | produced dto uuid referralUuid hrow hevent => exact .registered dto uuid referralUuid hrow hevent
  | polled offset found hevent =>
      cases found with
      | none => exact .consumed offset
      | some event => exact .searching offset event (hevent event rfl)
  | present offset event row => exact .consumed offset
  | threw call point =>
      rw [resume_threw]
      exact .failed call

theorem resume_inserted {answer : Answer} {point : Point} (h : Stage config accounts call (.ready answer point)) :
    (inserted (resume config point answer).progress).Sublist (inserted (.ready answer point)) := by
  cases h with
  | polled offset found hevent =>
      cases found with
      | none => exact List.Sublist.refl _
      | some event => exact List.Sublist.refl _
  | threw call point =>
      rw [resume_threw]
      exact List.nil_sublist _
  | _ => exact List.Sublist.refl _

/-- What a call has inserted is in the table. -/
theorem Stage.held {progress : AccountProgress} (h : Stage config accounts call progress) :
    ∀ id ∈ inserted progress, accounts.users.contains id = true := by
  have hcontains : ∀ {dto : RegisterDto} {uuid referralUuid : String}, Holds config accounts dto uuid referralUuid →
      ∀ id ∈ [uuid], accounts.users.contains id = true := by
    intro dto uuid referralUuid hrow id hid
    rw [List.mem_singleton.mp hid]
    exact (SortedMap.contains_iff _ _).mpr ⟨_, hrow⟩
  cases h with
  | saved dto uuid referralUuid hrow => exact hcontains hrow
  | producing dto uuid referralUuid hrow => exact hcontains hrow
  | produced dto uuid referralUuid hrow hevent => exact hcontains hrow
  | registered dto uuid referralUuid hrow hevent => exact hcontains hrow
  | _ => exact List.forall_mem_nil _

/-! ### Operations -/

/-- The row that a registration saves. -/
def AccountCall.Registers (config : RegistrationConfig) (call : AccountCall) (id : String) (row : AccountRow) : Prop :=
  ∃ dto referralUuid, call = .register dto id referralUuid ∧ row = dto.row config referralUuid ⟨dto.password⟩

/-- The table and the topic are in order. -/
structure Orderly (config : RegistrationConfig) (accounts : Accounts) : Prop where
  distinct : Distinct config accounts
  events : ∀ event ∈ accounts.topic, Names accounts event

/-- What an operation of a call does to the table and the topic. -/
structure Keeps (config : RegistrationConfig) (call : AccountCall) (accounts accounts' : Accounts) : Prop where
  orderly : Orderly config accounts'
  ext : Extends accounts accounts'
  origin : ∀ id row, accounts'.users.find id = some row →
    accounts.users.find id = some row ∨ call.Registers config id row

theorem Keeps.refl (h : Orderly config accounts) : Keeps config call accounts accounts :=
  ⟨h, .refl accounts, fun _ _ hfind => .inl hfind⟩

/-- A call has inserted no more than before, or a row under a new identifier. -/
def Adds (accounts : Accounts) (before after : AccountProgress) : Prop :=
  (inserted after).Sublist (inserted before) ∨ ∃ uuid, inserted after = [uuid] ∧ accounts.users.contains uuid = false

/-- **An operation that works** keeps the tables in order, and the call comes to the next stage. -/
theorem effect_spec (h : Orderly config accounts) {operation : Operation} {point : Point}
    (hstage : Stage config accounts call (.waiting operation point)) :
    Keeps config call accounts (effect config operation accounts).2 ∧
      Stage config (effect config operation accounts).2 call
        (.ready (effect config operation accounts).1 point) ∧
      Adds accounts (.waiting operation point) (.ready (effect config operation accounts).1 point) := by
  cases hstage with
  | finding dto uuid referralUuid =>
      refine ⟨.refl h, ?_, .inl (List.Sublist.refl _)⟩
      rw [effect]
      cases hfound : accounts.findByEmail config (dto.lowered config) with
      | none => exact .unknown dto uuid referralUuid
      | some row =>
          obtain ⟨id, hfind, hemail⟩ := findByEmail_some hfound
          exact .taken dto uuid referralUuid row ⟨id, row, hfind, hemail⟩
  | hashing dto uuid referralUuid => exact ⟨.refl h, .hashed dto uuid referralUuid, .inl (List.Sublist.refl _)⟩
  | saving dto uuid referralUuid =>
      rw [effect]
      split
      · rename_i hadmitted
        obtain ⟨hnew, hadmits⟩ := hadmitted
        have hext := Extends.insert hnew (dto.row config referralUuid ⟨dto.password⟩)
        have hself : (accounts.users.insert uuid (dto.row config referralUuid ⟨dto.password⟩)).find uuid
            = some (dto.row config referralUuid ⟨dto.password⟩) := by
          rw [SortedMap.find_insert, if_pos rfl]
        refine ⟨⟨⟨h.distinct.insert hadmits, fun event hevent => ?_⟩, hext, fun id row hfind => ?_⟩,
          .saved dto uuid referralUuid hself, .inr ⟨uuid, rfl, hnew⟩⟩
        · exact (h.events event hevent).mono hext
        · have hfind : (accounts.users.insert uuid (dto.row config referralUuid ⟨dto.password⟩)).find id
              = some row := hfind
          rw [SortedMap.find_insert] at hfind
          split at hfind
          · rename_i hid
            cases hfind
            subst hid
            exact .inr ⟨dto, referralUuid, rfl, rfl⟩
          · exact .inl hfind
      · exact ⟨.refl h, .threw _ _, .inl (List.Sublist.refl _)⟩
  | producing dto uuid referralUuid hrow =>
      have hext : Extends accounts { accounts with topic := accounts.topic ++ [eventOf config dto uuid] } :=
        ⟨fun _ _ hfind => hfind, fun _ hevent => List.mem_append_left _ hevent⟩
      refine ⟨⟨⟨h.distinct, fun event hevent => ?_⟩, hext, fun _ _ hfind => .inl hfind⟩,
        .produced dto uuid referralUuid hrow (List.mem_append_right _ (List.mem_singleton_self _)),
        .inl (List.Sublist.refl _)⟩
      rcases List.mem_append.mp hevent with hevent | hevent
      · exact h.events event hevent
      · rw [List.mem_singleton.mp hevent]
        exact ⟨_, hrow, rfl⟩
  | polling offset =>
      refine ⟨.refl h, .polled offset _ fun event hevent => ?_, .inl (List.Sublist.refl _)⟩
      exact h.events event (List.mem_of_getElem? hevent)
  | searching offset event hevent =>
      refine ⟨.refl h, ?_, .inl (List.Sublist.refl _)⟩
      -- the user of an event is found
      obtain ⟨row, hfind, _⟩ := hevent
      rw [effect, hfind]
      exact .present offset event row

/-- **An operation**, whether it works or not. -/
theorem perform_spec (h : Orderly config accounts) {operation : Operation} {point : Point}
    (hstage : Stage config accounts call (.waiting operation point)) (moment : Moment) :
    Keeps config call accounts (perform config operation moment accounts).2 ∧
      Stage config (perform config operation moment accounts).2 call
        (.ready (perform config operation moment accounts).1 point) ∧
      Adds accounts (.waiting operation point) (.ready (perform config operation moment accounts).1 point) := by
  have hworks := effect_spec h hstage
  have hthrew : inserted (.ready .threw point) = [] := by
    cases point <;> rfl
  have hnothing : Adds accounts (.waiting operation point) (.ready .threw point) := by
    rw [Adds, hthrew]
    exact .inl (List.nil_sublist _)
  cases moment with
  | fails => exact ⟨.refl h, .threw call point, hnothing⟩
  | works => exact hworks
  | lost => exact ⟨hworks.1, .threw call point, hnothing⟩

end Calls

/-! ### Steps -/

/-- **The invariant**: the tables are in order and only grow, each row is of the start or of a registration, each call is
at one of its stages, and no two calls have inserted the same row. -/
structure Enrolled (config : RegistrationConfig) (start : Accounts) (world : AccountWorld) : Prop where
  orderly : Orderly config world.remote
  ext : Extends start world.remote
  origin : ∀ id row, world.remote.users.find id = some row →
    start.users.find id = some row ∨ ∃ thread ∈ world.threads, thread.call.Registers config id row
  stages : ∀ thread ∈ world.threads, Stage config world.remote thread.call thread.progress
  once : (gather inserted world.threads).Nodup

section Steps

variable {config : RegistrationConfig} {start : Accounts}

/-- The calls stay, whatever they have come to. -/
theorem registers_around {pre post : List AccountThread} {call : AccountCall} {progress progress' : AccountProgress}
    {id : String} {row : AccountRow}
    (h : ∃ thread ∈ pre ++ ⟨call, progress⟩ :: post, thread.call.Registers config id row) :
    ∃ thread ∈ pre ++ ⟨call, progress'⟩ :: post, thread.call.Registers config id row := by
  obtain ⟨thread, hthread, hrow⟩ := h
  rcases mem_around hthread ⟨call, progress'⟩ with rfl | hthread
  · exact ⟨⟨call, progress'⟩, by simp, hrow⟩
  · exact ⟨thread, hthread, hrow⟩

/-- A call that has inserted no more than before. -/
theorem once_sublist {pre post : List AccountThread} {call : AccountCall} {progress progress' : AccountProgress}
    (h : (gather inserted (pre ++ ⟨call, progress⟩ :: post)).Nodup)
    (hsublist : (inserted progress').Sublist (inserted progress)) :
    (gather inserted (pre ++ ⟨call, progress'⟩ :: post)).Nodup := by
  rw [(gather_perm inserted pre post call _).nodup_iff] at h ⊢
  exact h.sublist (hsublist.append_right _)

/-- **Every step keeps the invariant.** -/
theorem Enrolled.step {world world' : AccountWorld} {turn : AccountTurn} (h : Enrolled config start world)
    (hstep : Stepped (program config) world turn world') : Enrolled config start world' := by
  cases hstep with
  | idle => exact h
  | entered call block =>
      cases block
      refine ⟨h.orderly, h.ext, fun id row hfind => ?_, fun thread hthread => ?_, ?_⟩
      · refine (h.origin id row hfind).imp_right ?_
        rintro ⟨thread, hthread, hrow⟩
        exact ⟨thread, List.mem_append_left _ hthread, hrow⟩
      · rcases List.mem_append.mp hthread with hthread | hthread
        · exact h.stages thread hthread
        · rw [List.mem_singleton.mp hthread]
          exact enter_stage _ call
      · have hnothing : gather inserted [⟨call, (enter config call).progress⟩] = [] := by
          cases call <;> rfl
        rw [gather_append, hnothing, List.append_nil]
        exact h.once
  | resumed pre post call answer point hthreads block =>
      obtain ⟨memory, accounts, threads⟩ := world
      subst hthreads
      cases block
      have hown : Stage config accounts call (.ready answer point) := h.stages ⟨call, .ready answer point⟩ (by simp)
      refine ⟨h.orderly, h.ext, fun id row hfind => ?_, fun thread hthread => ?_, ?_⟩
      · exact (h.origin id row hfind).imp_right registers_around
      · rcases mem_around hthread ⟨call, .ready answer point⟩ with rfl | hthread
        · exact resume_stage hown
        · exact h.stages thread hthread
      · exact once_sublist h.once (resume_inserted hown)
  | @performed pre post call operation point moment hthreads answer remote effect =>
      obtain ⟨memory, accounts, threads⟩ := world
      subst hthreads
      have hown : Stage config accounts call (.waiting operation point) :=
        h.stages ⟨call, .waiting operation point⟩ (by simp)
      have hperformed := perform_spec h.orderly hown moment
      have heffect : perform config operation moment accounts = (answer, remote) := effect
      rw [heffect] at hperformed
      obtain ⟨hkeeps, hstage, hadds⟩ := hperformed
      refine ⟨hkeeps.orderly, h.ext.trans hkeeps.ext, fun id row hfind => ?_, fun thread hthread => ?_, ?_⟩
      · rcases hkeeps.origin id row hfind with hold | hnew
        · exact (h.origin id row hold).imp_right registers_around
        · exact .inr ⟨⟨call, .ready answer point⟩, by simp, hnew⟩
      · rcases mem_around hthread ⟨call, .waiting operation point⟩ with rfl | hthread
        · exact hstage
        · exact (h.stages thread hthread).mono hkeeps.ext
      · rcases hadds with hsublist | ⟨uuid, hinserted, hnew⟩
        · exact once_sublist h.once hsublist
        · -- no other call has inserted the row, since the table did not have it
          have hothers : (gather inserted (pre ++ ⟨call, .finished .consumed⟩ :: post)).Nodup :=
            once_sublist h.once (List.nil_sublist _)
          rw [(gather_perm inserted pre post call _).nodup_iff] at hothers ⊢
          rw [hinserted]
          refine List.nodup_cons.mpr ⟨fun hin => ?_, hothers⟩
          obtain ⟨thread, hthread, hid⟩ := mem_gather.mp hin
          have hmem : thread ∈ pre ++ ⟨call, .waiting operation point⟩ :: post := by
            rcases List.mem_append.mp hthread with hthread | hthread
            · exact List.mem_append_left _ hthread
            · exact List.mem_append_right _ (List.mem_cons_of_mem _ hthread)
          have hheld := (h.stages thread hmem).held uuid hid
          have hnew : accounts.users.contains uuid = false := hnew
          exact absurd (hheld.symm.trans hnew) Bool.false_ne_true.symm

end Steps

/-! ### Runs -/

/-- The user and the email of a registration that has succeeded. -/
def succeeded : AccountProgress → List (String × String)
  | .finished (.registered userId email _) => [(userId, email)]
  | _ => []

section Runs

variable {config : RegistrationConfig} {start : Accounts}

theorem Stage.succeeded {accounts : Accounts} {call : AccountCall} {progress : AccountProgress}
    (h : Stage config accounts call progress) {user : String × String} (huser : user ∈ succeeded progress) :
    ∃ row, accounts.users.find user.1 = some row ∧ row.email = user.2 := by
  cases h with
  | registered dto uuid referralUuid hrow hevent =>
      rw [List.mem_singleton.mp huser]
      exact ⟨_, hrow, rfl⟩
  | _ => cases huser

/-- A registration that has succeeded has inserted its row. -/
theorem succeeded_inserted (progress : AccountProgress) :
    ((Registration.succeeded progress).map Prod.fst).Sublist (inserted progress) := by
  cases progress with
  | finished outcome =>
      cases outcome with
      | registered userId email status => exact List.Sublist.refl _
      | _ => exact List.nil_sublist _
  | _ => exact List.nil_sublist _

/-- **One account for an email**, once a run has come so far. -/
theorem Enrolled.unique {world : AccountWorld} (h : Enrolled config start world) :
    ((gather Registration.succeeded world.threads).map fun user => config.foldCase user.2).Nodup := by
  have hsublist : ((gather Registration.succeeded world.threads).map Prod.fst).Sublist
      (gather inserted world.threads) := by
    rw [gather, List.map_flatMap]
    exact List.Sublist.flatMap_right _ fun thread _ => succeeded_inserted thread.progress
  have hids := List.pairwise_map.mp (h.once.sublist hsublist)
  refine List.pairwise_map.mpr (hids.imp_of_mem ?_)
  intro user user' huser huser' hne hemail
  obtain ⟨thread, hthread, hin⟩ := mem_gather.mp huser
  obtain ⟨thread', hthread', hin'⟩ := mem_gather.mp huser'
  obtain ⟨row, hfind, hrow⟩ := (h.stages thread hthread).succeeded hin
  obtain ⟨row', hfind', hrow'⟩ := (h.stages thread' hthread').succeeded hin'
  rw [← hrow, ← hrow'] at hemail
  exact hne (h.orderly.distinct _ _ row row' hfind hfind' hemail)

/-- What an answer says is so. -/
def Truthful (config : RegistrationConfig) (accounts : Accounts) (call : AccountCall) : AccountProgress → Prop
  | .finished (.registered userId email status) =>
    ∃ dto referralUuid, call = .register dto userId referralUuid ∧ email = dto.lowered config ∧
      Holds config accounts dto userId referralUuid ∧ ⟨userId, email, some status⟩ ∈ accounts.topic
  | .finished (.failed (.http _ _)) => ∃ dto uuid referralUuid, call = .register dto uuid referralUuid ∧
      Taken config accounts dto
  | _ => True

theorem Stage.truthful {accounts : Accounts} {call : AccountCall} {progress : AccountProgress}
    (h : Stage config accounts call progress) : Truthful config accounts call progress := by
  cases h with
  | registered dto uuid referralUuid hrow hevent => exact ⟨dto, referralUuid, rfl, rfl, hrow, hevent⟩
  | refused dto uuid referralUuid htaken => exact ⟨dto, uuid, referralUuid, rfl, htaken⟩
  | _ => trivial

/-- What a run has come to is a start for the steps after it. -/
theorem Enrolled.rebase {world : AccountWorld} (h : Enrolled config start world) :
    Enrolled config world.remote world :=
  ⟨h.orderly, .refl _, fun _ _ hfind => .inl hfind, h.stages, h.once⟩

/-- **The steps that follow keep the invariant.** -/
theorem Enrolled.run {world : AccountWorld} (h : Enrolled config start world) (turns : List AccountTurn) :
    ∃ replies world', Machine.run (program config).exec world turns = .ok (replies, world') ∧
      Enrolled config start world' :=
  Machine.run_safe_along (Q := fun _ _ world => Enrolled config start world) h
    (fun _ _ _ _ _ _ hinv _ hexec => hinv.step (Program.exec_spec hexec)) turns
    (Machine.along_of_forall (P := fun _ _ => True) fun _ _ _ => trivial)

/-- **One account for an email.**  In every run of registrations and deliveries, from tables that are in order: no two
rows have the same email, and each that is new is that of a registration, with the hash of its password, never the one
that the consumer makes up.  A registration that succeeds has its row and its event, one that is refused has found its
email taken, and for one email at most one succeeds.  Between any two states of a run no row is lost or overwritten,
and no event is lost. -/
theorem registrations_are_unique (config : RegistrationConfig) {start : Accounts} (hstart : Orderly config start)
    (turns : List AccountTurn) :
    ∃ replies world, Machine.run (program config).exec ⟨(), start, []⟩ turns = .ok (replies, world) ∧
      Distinct config world.remote ∧
      (∀ id row, start.users.find id = some row → world.remote.users.find id = some row) ∧
      (∀ id row, world.remote.users.find id = some row →
        start.users.find id = some row ∨ ∃ thread ∈ world.threads, thread.call.Registers config id row) ∧
      (∀ thread ∈ world.threads, Truthful config world.remote thread.call thread.progress) ∧
      ((gather Registration.succeeded world.threads).map fun user => config.foldCase user.2).Nodup ∧
      ∀ later, ∃ replies' world', Machine.run (program config).exec world later = .ok (replies', world') ∧
        Extends world.remote world'.remote := by
  have hbefore : Enrolled config start ⟨(), start, []⟩ :=
    ⟨hstart, .refl start, fun _ _ hfind => .inl hfind, List.forall_mem_nil _, List.nodup_nil⟩
  obtain ⟨replies, world, hrun, h⟩ := hbefore.run turns
  refine ⟨replies, world, hrun, h.orderly.distinct, h.ext.rows, h.origin,
    fun thread hthread => (h.stages thread hthread).truthful, h.unique, fun later => ?_⟩
  obtain ⟨replies', world', hlater, hafter⟩ := h.rebase.run later
  exact ⟨replies', world', hlater, hafter.ext⟩

/-- Two registrations for one email that look for it before either has saved its row, and a delivery. -/
def bothAtOnce : List AccountTurn :=
  [.enter (.register ⟨"a@b.c", "first password"⟩ "user-1" "11111111-1111"),
    .enter (.register ⟨"a@b.c", "second password"⟩ "user-2" "22222222-2222"),
    .perform 0 .works, .perform 1 .works, .resume 0, .resume 1, .perform 0 .works, .perform 1 .works, .resume 0,
    .resume 1, .perform 0 .works, .perform 1 .works, .resume 0, .resume 1, .perform 0 .works, .resume 0,
    .enter (.consume 0), .perform 2 .works, .resume 2, .perform 2 .works, .resume 2]

/-- The index lets one of the two in. -/
theorem registrations_are_unique_bothAtOnce :
    ∃ replies world, Machine.run (program ⟨id, id⟩).exec ⟨(), ⟨.empty, []⟩, []⟩ bothAtOnce = .ok (replies, world) ∧
      world.threads.map Thread.progress = [.finished (.registered "user-1" "a@b.c" .active),
        .finished (.failed .database), .finished .consumed] ∧
      Distinct ⟨id, id⟩ world.remote := by
  have hstart : Orderly ⟨id, id⟩ ⟨.empty, []⟩ := by
    refine ⟨fun id id' row row' hfind => ?_, List.forall_mem_nil _⟩
    cases hfind
  obtain ⟨replies, world, hrun, hdistinct, _⟩ := registrations_are_unique ⟨id, id⟩ hstart bothAtOnce
  have hends : (Machine.run (program ⟨id, id⟩).exec ⟨(), ⟨.empty, []⟩, []⟩ bothAtOnce).map
      (fun r => r.2.threads.map Thread.progress) = .ok [.finished (.registered "user-1" "a@b.c" .active),
        .finished (.failed .database), .finished .consumed] := by
    decide +kernel
  rw [hrun] at hends
  exact ⟨replies, world, hrun, Except.ok.inj hends, hdistinct⟩

end Runs

end NexusTrade.Auth.Registration
