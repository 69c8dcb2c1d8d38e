import NexusTrade.Auth.Access
import NexusTrade.Lib.Run

/-!
# Where access tokens come from

In every run of logins, refreshes and logouts, whatever calls proceed together and whatever becomes of the users
meanwhile, an access token stems from a login.

* **`LoggedIn`**: a login of the run has named a user of the table, with the password and a valid code;
* **`Owned`**: such a login has drawn the identifier of a session; **`Issued`**: a token is of such a session, with the
  roles of a row of its user;
* **`Known`** says what a call knows, and **`Sourced`** is the invariant: so does every session of the table;
* **`Sourced.step`** is the step lemma, and **`tokens_stem_from_logins`** says it of runs.

The list of all steps of a run is fixed, so that what has been found once stays true.
-/

namespace NexusTrade.Auth.Provenance

/-! ### Origins -/

section Origins

variable (config : AccessConfig) (turns : List AccessTurn)

/-- A row that the table of users has held at a step. -/
def Found (row : Login.UserRow) : Prop := ∃ pos moment, Turn.perform pos moment ∈ turns ∧ row ∈ moment.users

/-- A time at which a step is made. -/
def At (now : ℤ) : Prop := ∃ pos moment, Turn.perform pos moment ∈ turns ∧ moment.now = now

/-- An account that is not frozen or closed. -/
def Active (status : UserStatus) : Prop := ¬(status = .frozen ∨ status = .closed)

/-- A login names an account. -/
structure Named (call : Login.LoginCall) (row : Login.UserRow) : Prop where
  called : Turn.enter (.login call) ∈ turns
  found : Found turns row
  email : config.foldCase row.email = config.foldCase (call.email config.login)

/-- **A login has shown that its caller is the user of an account.** -/
structure LoggedIn (call : Login.LoginCall) (row : Login.UserRow) : Prop where
  named : Named config turns call row
  password : row.passwordHash.compare call.dto.password = true
  active : Active row.status
  code : ∃ now, At turns now ∧ Login.totpFails config.login call row now = false

/-- A session that a user has logged in to. -/
def Owned (id userId : String) : Prop :=
  ∃ call row, LoggedIn config turns call row ∧ row.id = userId ∧ call.sessionId = id

/-- What the table of users has held of an account that was active. -/
def Current (userId : String) (user : UserEntity) : Prop :=
  ∃ row, Found turns row ∧ row.id = userId ∧ row.toUserEntity = user ∧ Active user.status

/-- **Where a token comes from.** -/
structure Issued (token : AccessToken) : Prop where
  owned : Owned config turns token.sid token.sub
  current : ∃ user, Current turns token.sub user ∧ token.roles = config.rolesForUser user

/-- A call has answered a token. -/
def Grants (outcome : AccessOutcome) (token : AccessToken) : Prop :=
  ∃ refreshToken sessionId, outcome = .login (.loggedIn token refreshToken sessionId) ∨
    outcome = .session (.refreshed token refreshToken sessionId)

/-! ### What calls know -/

/-- What the local variables of a login say. -/
def LoginPointKnown : Login.Point → Prop
  | .found call => Turn.enter (.login call) ∈ turns
  | .compared call user => Named config turns call user
  | .hashed call user => LoggedIn config turns call user
  | .saved call user => LoggedIn config turns call user

/-- What a login awaits. -/
structure LoginAwaits (operation : Login.Operation) (point : Login.Point) : Prop where
  finds : ∀ call, point = .found call → operation = .findUser (call.email config.login)
  compares : ∀ call user, point = .compared call user → operation = .compare call.dto.password user.passwordHash
  saves : ∀ id session, operation = .saveSession id session → Owned config turns id session.userId

/-- What an answer says to a login. -/
structure LoginAnswered (answer : Login.Answer) (point : Login.Point) : Prop where
  found : ∀ call row now, point = .found call → answer = .user (some row) now → Named config turns call row
  compared : ∀ call user now, point = .compared call user → answer = .compared true now →
    At turns now ∧ user.passwordHash.compare call.dto.password = true

/-- What the local variables of a refresh or a logout say. -/
def SessionPointKnown : Point → Prop
  | .refreshFound _ _ => True
  | .refreshCompared dto _ session => Owned config turns dto.sessionId session.userId
  | .refreshUser dto _ session => Owned config turns dto.sessionId session.userId
  | .refreshHashed dto _ session user =>
    Owned config turns dto.sessionId session.userId ∧ Current turns session.userId user
  | .refreshSaved dto _ session user =>
    Owned config turns dto.sessionId session.userId ∧ Current turns session.userId user
  | .logoutFound _ => True
  | .logoutCompared dto session => Owned config turns dto.sessionId session.userId
  | .logoutSaved _ => True

/-- What a refresh or a logout awaits. -/
structure SessionAwaits (operation : Operation) (point : Point) : Prop where
  refreshes : ∀ dto next, point = .refreshFound dto next → operation = .findSession dto.sessionId
  ends : ∀ dto, point = .logoutFound dto → operation = .findSession dto.sessionId
  reads : ∀ dto next session, point = .refreshUser dto next session → operation = .findUser session.userId
  saves : ∀ id session, operation = .saveSession id session → Owned config turns id session.userId

/-- What an answer says to a refresh or a logout. -/
structure SessionAnswered (answer : Answer) (point : Point) : Prop where
  refreshed : ∀ dto next session now, point = .refreshFound dto next → answer = .session (some session) now →
    Owned config turns dto.sessionId session.userId
  ended : ∀ dto session now, point = .logoutFound dto → answer = .session (some session) now →
    Owned config turns dto.sessionId session.userId
  read : ∀ dto next session user, point = .refreshUser dto next session → answer = .user (some user) →
    ∃ row, Found turns row ∧ row.id = session.userId ∧ row.toUserEntity = user

/-- **What a call knows.** -/
def Known : AccessProgress → Prop
  | .waiting (.login operation) (.login point) =>
    LoginPointKnown config turns point ∧ LoginAwaits config turns operation point
  | .waiting (.session operation) (.session point) =>
    SessionPointKnown config turns point ∧ SessionAwaits config turns operation point
  | .waiting (.login _) (.session _) => False
  | .waiting (.session _) (.login _) => False
  | .ready (.login answer) (.login point) =>
    LoginPointKnown config turns point ∧ LoginAnswered config turns answer point
  | .ready (.session answer) (.session point) =>
    SessionPointKnown config turns point ∧ SessionAnswered config turns answer point
  | .ready (.login _) (.session _) => False
  | .ready (.session _) (.login _) => False
  | .finished outcome => ∀ token, Grants outcome token → Issued config turns token

/-- **The invariant.** -/
structure Sourced (world : AccessWorld) : Prop where
  sessions : ∀ id session, world.remote.find id = some session → Owned config turns id session.userId
  known : ∀ thread ∈ world.threads, Known config turns thread.progress

end Origins

/-! ### The code -/

section Code

variable {config : AccessConfig} {turns : List AccessTurn}

/-- A call that ends without a token. -/
theorem known_finish {outcome : AccessOutcome} (h : ∀ token, ¬Grants outcome token) :
    Known config turns (Pause.finish outcome : AccessPause).progress :=
  fun token hgrants => absurd hgrants (h token)

theorem known_failed (error : ServiceError) :
    Known config turns (ofLogin (.finish (.failed error))).progress :=
  known_finish (by simp [Grants])

theorem known_refused (error : ServiceError) :
    Known config turns (ofSession (.finish (.failed error))).progress :=
  known_finish (by simp [Grants])

theorem login_entered {call : Login.LoginCall} (hcalled : Turn.enter (.login call) ∈ turns)
    (attempts : Login.LoginAttempts) :
    Known config turns (ofLogin (Login.enter config.login call attempts).1).progress := by
  simp only [Login.enter]
  split
  · exact known_failed _
  · split
    · exact known_failed _
    · refine ⟨hcalled, fun other heq => ?_, by simp, by simp⟩
      cases heq
      rfl

/-- **The code of a login keeps what it knows.** -/
theorem login_resumed {point : Login.Point} {answer : Login.Answer} (hpoint : LoginPointKnown config turns point)
    (hanswer : LoginAnswered config turns answer point) (attempts : Login.LoginAttempts) :
    Known config turns (ofLogin (Login.resume config.login point answer attempts).1).progress := by
  unfold Login.resume
  split
  case h_1 attempts call found now =>
    cases found with
    | none => exact known_failed _
    | some user =>
        refine ⟨hanswer.found call user now rfl rfl, by simp, fun _ _ heq => ?_, by simp⟩
        cases heq
        rfl
  case h_2 attempts call user same now =>
    cases same with
    | false => exact known_failed _
    | true =>
        obtain ⟨hnow, hpassword⟩ := hanswer.compared call user now rfl rfl
        simp only [Bool.true_eq_false, if_false]
        split
        · exact known_failed _
        · rename_i hactive
          split
          · exact known_failed _
          · rename_i hcode
            split
            · exact known_failed _
            · have hlogged : LoggedIn config turns call user :=
                ⟨hpoint, hpassword, hactive, now, hnow, by simpa using hcode⟩
              exact ⟨hlogged, by simp, by simp, by simp⟩
  case h_3 attempts call user hash now =>
    have hlogged : LoggedIn config turns call user := hpoint
    refine ⟨hlogged, by simp, by simp, fun id session heq => ?_⟩
    cases heq
    exact ⟨call, user, hlogged, rfl, rfl⟩
  case h_4 attempts call user =>
    have hlogged : LoggedIn config turns call user := hpoint
    rintro token ⟨refreshToken, sessionId, heq | heq⟩
    · cases heq
      exact ⟨⟨call, user, hlogged, rfl, rfl⟩, _, ⟨user, hlogged.named.found, rfl, rfl, hlogged.active⟩, rfl⟩
    · cases heq
  case h_5 => exact known_failed _

theorem session_entered (call : SessionCall) :
    Known config turns (ofSession (enter config.login.toAuthConfig call)).progress := by
  cases call with
  | refresh dto next =>
      simp only [enter]
      split
      · exact known_refused _
      · refine ⟨trivial, fun _ _ heq => ?_, by simp, by simp, by simp⟩
        cases heq
        rfl
  | logout dto =>
      refine ⟨trivial, by simp, fun _ heq => ?_, by simp, by simp⟩
      cases heq
      rfl

/-- **The code of a refresh or a logout keeps what it knows.** -/
theorem session_resumed {point : Point} {answer : Answer} (hpoint : SessionPointKnown config turns point)
    (hanswer : SessionAnswered config turns answer point) :
    Known config turns (ofSession (resume config.login.toAuthConfig point answer)).progress := by
  unfold resume
  split
  case h_1 dto next found now =>
    cases found with
    | none => exact known_refused _
    | some session =>
        simp only
        split
        · exact known_refused _
        · exact ⟨hanswer.refreshed dto next session now rfl rfl, by simp, by simp, by simp, by simp⟩
  case h_2 dto next session same now =>
    have howned : Owned config turns dto.sessionId session.userId := hpoint
    split
    · exact known_refused _
    · refine ⟨howned, by simp, by simp, fun _ _ _ heq => ?_, by simp⟩
      cases heq
      rfl
  case h_3 dto next session found =>
    have howned : Owned config turns dto.sessionId session.userId := hpoint
    cases found with
    | none => exact known_refused _
    | some user =>
        obtain ⟨row, hfound, hid, hrow⟩ := hanswer.read dto next session user rfl rfl
        simp only
        split
        · exact known_refused _
        · rename_i hactive
          exact ⟨⟨howned, row, hfound, hid, hrow, hactive⟩, by simp, by simp, by simp, by simp⟩
  case h_4 dto next session user hash now =>
    have hknown : Owned config turns dto.sessionId session.userId ∧ Current turns session.userId user := hpoint
    refine ⟨hknown, by simp, by simp, by simp, fun id saved heq => ?_⟩
    cases heq
    exact hknown.1
  case h_5 dto next session user =>
    have hknown : Owned config turns dto.sessionId session.userId ∧ Current turns session.userId user := hpoint
    rintro token ⟨refreshToken, sessionId, heq | heq⟩
    · cases heq
    · cases heq
      exact ⟨hknown.1, user, hknown.2, rfl⟩
  case h_6 dto found now =>
    cases found with
    | none => exact known_finish (by simp [Grants])
    | some session => exact ⟨hanswer.ended dto session now rfl rfl, by simp, by simp, by simp, by simp⟩
  case h_7 dto session same now =>
    have howned : Owned config turns dto.sessionId session.userId := hpoint
    split
    · refine ⟨trivial, by simp, by simp, by simp, fun id saved heq => ?_⟩
      cases heq
      exact howned
    · exact known_finish (by simp [Grants])
  case h_8 => exact known_finish (by simp [Grants])
  case h_9 => exact known_refused _

/-! ### The operations -/

theorem login_performed {pos : ℕ} {moment : AccessMoment} (hturn : Turn.perform pos moment ∈ turns)
    {operation : Login.Operation} {point : Login.Point} (hpoint : LoginPointKnown config turns point)
    (hawaits : LoginAwaits config turns operation point) (sessions : Login.Sessions) :
    LoginAnswered config turns (performLogin config operation moment sessions).1 point := by
  constructor
  · intro call row now heq hanswer
    subst heq
    have hcalled : Turn.enter (.login call) ∈ turns := hpoint
    rw [hawaits.finds call rfl, performLogin, Login.Answer.user.injEq] at hanswer
    refine ⟨hcalled, ⟨pos, moment, hturn, List.mem_of_find?_eq_some hanswer.1⟩, ?_⟩
    simpa using List.find?_some hanswer.1
  · intro call user now heq hanswer
    rw [hawaits.compares call user heq, performLogin, Login.Answer.compared.injEq] at hanswer
    exact ⟨⟨pos, moment, hturn, hanswer.2⟩, hanswer.1⟩

section Operations

variable {sessions : Login.Sessions}
  (hsessions : ∀ id session, sessions.find id = some session → Owned config turns id session.userId)

include hsessions

theorem session_performed {pos : ℕ} {moment : AccessMoment} (hturn : Turn.perform pos moment ∈ turns)
    {operation : Operation} {point : Point} (hawaits : SessionAwaits config turns operation point) :
    SessionAnswered config turns (performSession operation moment sessions).1 point := by
  constructor
  · intro dto next session now heq hanswer
    rw [hawaits.refreshes dto next heq, performSession, Answer.session.injEq] at hanswer
    exact hsessions dto.sessionId session hanswer.1
  · intro dto session now heq hanswer
    rw [hawaits.ends dto heq, performSession, Answer.session.injEq] at hanswer
    exact hsessions dto.sessionId session hanswer.1
  · intro dto next session user heq hanswer
    rw [hawaits.reads dto next session heq, performSession, Answer.user.injEq] at hanswer
    obtain ⟨row, hrow, huser⟩ := Option.map_eq_some_iff.mp hanswer
    exact ⟨row, ⟨pos, moment, hturn, List.mem_of_find?_eq_some hrow⟩, by simpa using List.find?_some hrow, huser⟩

/-- A session that is written. -/
theorem owned_insert {saved : String} {written : SessionEntity} (howned : Owned config turns saved written.userId)
    (id : String) (session : SessionEntity) (h : (sessions.insert saved written).find id = some session) :
    Owned config turns id session.userId := by
  rw [SortedMap.find_insert] at h
  split at h
  · rename_i hid
    cases h
    rw [hid]
    exact howned
  · exact hsessions id session h

/-- **An operation answers what stems from a login.** -/
theorem known_performed {pos : ℕ} {moment : AccessMoment} (hturn : Turn.perform pos moment ∈ turns)
    {operation : AccessOperation} {point : AccessPoint} (hknown : Known config turns (.waiting operation point)) :
    Known config turns (.ready (performAccess config operation moment sessions).1 point) := by
  cases operation with
  | login operation =>
      cases point with
      | login point => exact ⟨hknown.1, login_performed hturn hknown.1 hknown.2 sessions⟩
      | session point => exact hknown
  | session operation =>
      cases point with
      | login point => exact hknown
      | session point => exact ⟨hknown.1, session_performed hsessions hturn hknown.2⟩

/-- **An operation keeps the sessions of logins.** -/
theorem sessions_performed {operation : AccessOperation} {point : AccessPoint} (moment : AccessMoment)
    (hknown : Known config turns (.waiting operation point)) :
    ∀ id session, (performAccess config operation moment sessions).2.find id = some session →
      Owned config turns id session.userId := by
  cases operation with
  | login operation =>
      cases point with
      | session point => exact hknown.elim
      | login point =>
          cases operation with
          | saveSession id session => exact owned_insert hsessions (hknown.2.saves id session rfl)
          | findUser email => exact hsessions
          | compare password hash => exact hsessions
          | hash token => exact hsessions
  | session operation =>
      cases point with
      | login point => exact hknown.elim
      | session point =>
          cases operation with
          | saveSession id session => exact owned_insert hsessions (hknown.2.saves id session rfl)
          | findSession id => exact hsessions
          | compare token hash => exact hsessions
          | findUser id => exact hsessions
          | hash token => exact hsessions

end Operations

/-! ### Runs -/

/-- One call makes a step, and the others stay as they are. -/
theorem known_around {pre post : List AccessThread} {thread thread' : AccessThread}
    (hknown : ∀ other ∈ pre ++ thread :: post, Known config turns other.progress)
    (hthread : Known config turns thread'.progress) :
    ∀ other ∈ pre ++ thread' :: post, Known config turns other.progress := by
  intro other hother
  rcases mem_around hother thread with rfl | hother
  · exact hthread
  · exact hknown other hother

theorem known_resumed {point : AccessPoint} {answer : AccessAnswer} (hknown : Known config turns (.ready answer point))
    (attempts : Login.LoginAttempts) : Known config turns (resumeAccess config point answer attempts).1.progress := by
  cases point with
  | login point =>
      cases answer with
      | login answer => exact login_resumed hknown.1 hknown.2 attempts
      | session answer => exact hknown.elim
  | session point =>
      cases answer with
      | login answer => exact hknown.elim
      | session answer => exact session_resumed hknown.1 hknown.2

/-- **Every step keeps the invariant.** -/
theorem Sourced.step {world world' : AccessWorld} {turn : AccessTurn} (hsourced : Sourced config turns world)
    (hturn : turn ∈ turns) (hstep : Stepped (accessProgram config) world turn world') :
    Sourced config turns world' := by
  cases hstep with
  | @entered call pause memory hblock =>
      have hpause : (enterAccess config call world.memory).1 = pause := congrArg Prod.fst hblock
      refine ⟨hsourced.sessions, fun thread hthread => ?_⟩
      rcases List.mem_append.mp hthread with hthread | hthread
      · exact hsourced.known thread hthread
      · subst hpause
        rw [List.mem_singleton.mp hthread]
        cases call with
        | login call => exact login_entered hturn world.memory
        | session call => exact session_entered call
  | @performed pre post call operation point moment hthreads answer remote heffect =>
      have hanswer : (performAccess config operation moment world.remote).1 = answer := congrArg Prod.fst heffect
      have hremote : (performAccess config operation moment world.remote).2 = remote := congrArg Prod.snd heffect
      have hknown := hsourced.known
      rw [hthreads] at hknown
      have hwaiting := hknown _ (List.mem_append_right pre List.mem_cons_self)
      subst hanswer hremote
      exact ⟨sessions_performed hsourced.sessions moment hwaiting,
        known_around hknown (known_performed hsourced.sessions hturn hwaiting)⟩
  | @resumed pre post call answer point hthreads pause memory hblock =>
      have hpause : (resumeAccess config point answer world.memory).1 = pause := congrArg Prod.fst hblock
      have hknown := hsourced.known
      rw [hthreads] at hknown
      have hready := hknown _ (List.mem_append_right pre List.mem_cons_self)
      subst hpause
      exact ⟨hsourced.sessions, known_around hknown (known_resumed hready world.memory)⟩
  | idle turn => exact hsourced

/-- **Access tokens stem from logins.** -/
theorem tokens_stem_from_logins (config : AccessConfig) (turns : List AccessTurn) :
    ∃ replies world, Machine.run (accessProgram config).exec noSessions turns = .ok (replies, world) ∧
      Sourced config turns world := by
  refine Machine.run_safe_along (P := fun _ turn => turn ∈ turns) (Q := fun _ _ world => Sourced config turns world)
    ?_ ?_ turns (Machine.along_of_forall fun turn hturn _ => hturn)
  · exact ⟨fun id session h => by simp [noSessions] at h, fun thread hthread => by simp [noSessions] at hthread⟩
  · intro _ _ world turn _ world' hsourced hturn hstep
    exact hsourced.step hturn (Program.exec_spec hstep)

end Code

end NexusTrade.Auth.Provenance
