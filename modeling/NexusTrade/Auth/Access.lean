import NexusTrade.Auth.Login
import NexusTrade.Shared.Texts

/-!
# Access tokens

`login`, `refresh` and `logout` of `services/auth-service/src/services/auth.service.ts` together, as they share the
table of sessions, with `rolesForUser`.

The table of users is read as it is at each step: other services change it meanwhile.  Its column of emails compares
texts without regard to case.  An operation that fails is one that is not made, and its call goes no further.

* **`rolesForUser`**: the roles in an access token;
* **`AccessCall`** to **`AccessOutcome`**: the calls, what they await, and where they go on;
* **`performAccess`** is the effect of an operation, **`accessProgram`** the program.
-/

namespace NexusTrade.Auth

/-! ### Roles -/

/-- The environment of the service, with `toLowerCase`, the comparison of the column of emails, and which codes are
valid for a secret at a time. -/
structure AccessConfig where
  jwtSecret : Bool
  adminEmails : Option String
  operatorEmails : Option String
  toLowerCase : String → String
  foldCase : String → String
  validTotp : ℤ → String → String → Bool

namespace AccessConfig

variable (config : AccessConfig)

def parseEmailList (value : Option String) : List String :=
  ((trimmedEntries (value.getD "")).map config.toLowerCase).filter (· ≠ "")

def rolesForUser (user : UserEntity) : List String :=
  "user" ::
    ((if config.toLowerCase user.email ∈ config.parseEmailList config.adminEmails then ["admin"] else []) ++
      (if config.toLowerCase user.email ∈ config.parseEmailList config.operatorEmails then ["operator"] else []))

/-- What the code of a login reads of the environment. -/
def login : Login.LoginConfig := ⟨⟨config.jwtSecret, config.rolesForUser⟩, config.toLowerCase, config.validTotp⟩

end AccessConfig

/-! ### Calls -/

inductive AccessCall
  | login (call : Login.LoginCall)
  | session (call : SessionCall)
  deriving DecidableEq

inductive AccessOperation
  | login (operation : Login.Operation)
  | session (operation : Operation)
  deriving DecidableEq

inductive AccessAnswer
  | login (answer : Login.Answer)
  | session (answer : Answer)
  deriving DecidableEq

inductive AccessPoint
  | login (point : Login.Point)
  | session (point : Point)
  deriving DecidableEq

inductive AccessOutcome
  | login (outcome : Login.Outcome)
  | session (outcome : Outcome)
  deriving DecidableEq

abbrev AccessPause := Pause AccessOperation AccessPoint AccessOutcome

/-- Where a block of a login ends. -/
def ofLogin : Login.LoginPause → AccessPause
  | .await operation point => .await (.login operation) (.login point)
  | .finish outcome => .finish (.login outcome)

/-- Where a block of a refresh or a logout ends. -/
def ofSession : SessionPause → AccessPause
  | .await operation point => .await (.session operation) (.session point)
  | .finish outcome => .finish (.session outcome)

/-! ### Effects -/

/-- When a step is made, and the table of users at that time. -/
structure AccessMoment where
  now : ℤ
  users : List Login.UserRow
  deriving DecidableEq

section Effects

variable (config : AccessConfig)

/-- The effect of an operation of a login. -/
def performLogin (operation : Login.Operation) (moment : AccessMoment) (sessions : Login.Sessions) :
    Login.Answer × Login.Sessions :=
  match operation with
  | .findUser email =>
    (.user (moment.users.find? fun row => config.foldCase row.email = config.foldCase email) moment.now, sessions)
  | .compare password hash => (.compared (hash.compare password) moment.now, sessions)
  | .hash token => (.hashed ⟨token⟩ moment.now, sessions)
  | .saveSession id session => (.saved, sessions.insert id session)

/-- The effect of an operation of a refresh or a logout. -/
def performSession (operation : Operation) (moment : AccessMoment) (sessions : Login.Sessions) :
    Answer × Login.Sessions :=
  match operation with
  | .findSession id => (.session (sessions.find id) moment.now, sessions)
  | .compare token hash => (.compared (hash.compare token) moment.now, sessions)
  | .findUser id => (.user ((moment.users.find? fun row => row.id = id).map Login.UserRow.toUserEntity), sessions)
  | .hash token => (.hashed ⟨token⟩ moment.now, sessions)
  | .saveSession id session => (.saved, sessions.insert id session)

def performAccess (operation : AccessOperation) (moment : AccessMoment) (sessions : Login.Sessions) :
    AccessAnswer × Login.Sessions :=
  match operation with
  | .login operation =>
    let (answer, sessions) := performLogin config operation moment sessions
    (.login answer, sessions)
  | .session operation =>
    let (answer, sessions) := performSession operation moment sessions
    (.session answer, sessions)

/-! ### The code -/

def enterAccess (call : AccessCall) (attempts : Login.LoginAttempts) : AccessPause × Login.LoginAttempts :=
  match call with
  | .login call =>
    let (pause, attempts) := Login.enter config.login call attempts
    (ofLogin pause, attempts)
  | .session call => (ofSession (enter config.login.toAuthConfig call), attempts)

def resumeAccess (point : AccessPoint) (answer : AccessAnswer) (attempts : Login.LoginAttempts) :
    AccessPause × Login.LoginAttempts :=
  match point, answer with
  | .login point, .login answer =>
    let (pause, attempts) := Login.resume config.login point answer attempts
    (ofLogin pause, attempts)
  | .session point, .session answer => (ofSession (resume config.login.toAuthConfig point answer), attempts)
  -- every operation gives its own kind of answer
  | .login _, .session _ => (.finish (.login (.failed .database)), attempts)
  | .session _, .login _ => (.finish (.session (.failed .database)), attempts)

end Effects

/-! ### The program -/

abbrev AccessProgress := Progress AccessOperation AccessAnswer AccessPoint AccessOutcome

abbrev AccessThread := Thread AccessCall AccessOperation AccessAnswer AccessPoint AccessOutcome

abbrev AccessWorld :=
  World AccessCall Login.LoginAttempts Login.Sessions AccessOperation AccessAnswer AccessPoint AccessOutcome

abbrev AccessTurn := Turn AccessCall AccessMoment

/-- **The program.** -/
def accessProgram (config : AccessConfig) :
    Program AccessCall Login.LoginAttempts Login.Sessions AccessOperation AccessAnswer AccessPoint AccessOutcome
      AccessMoment where
  enter := enterAccess config
  resume := resumeAccess config
  perform := performAccess config

/-- The service before its first login. -/
def noSessions : AccessWorld := ⟨.empty, .empty, []⟩

end NexusTrade.Auth
