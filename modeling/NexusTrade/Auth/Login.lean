import NexusTrade.Auth.Sessions

/-!
# Logins

`login` of `services/auth-service/src/services/auth.service.ts` as asynchronous code, with `enforceRateLimit` and
`recordFailedLogin`: between one `await` and the next a call runs alone, and at each `await` other calls may proceed.

The time of its first block, the identifier of the session and the token that a login draws come with the call; the
time of a later block comes with the answer that it goes on with.  The users are read from the table as it is at the
moment of the query, which others write as well.  Lower case and the codes of a second factor are parameters.

* **`LoginAttempts`** is `loginAttempts`, **`enforceRateLimit`** and **`recordFailedLogin`** read and write it;
* **`enter`** and **`resume`** are the code of a login between two points, **`perform`** the effect of an operation;
* **`program`** is the program, **`start`** its first state.
-/

namespace NexusTrade.Auth.Login

/-! ### The attempts -/

/-- An entry of `loginAttempts`; times are in milliseconds. -/
structure Attempts where
  count : ℕ
  resetAt : ℤ
  deriving DecidableEq

abbrev LoginAttempts := SortedMap String Attempts

/-- Fifteen minutes. -/
def attemptWindow : ℤ := 15 * 60 * 1000

def ipKey (ipAddress : String) : String := "ip:" ++ ipAddress

def accountKey (email : String) : String := "account:" ++ email

/-- The check of `enforceRateLimit`. -/
def limited (attempts : LoginAttempts) (now : ℤ) (key : String) : Bool :=
  match attempts.find key with
  | none => false
  | some state => decide (5 ≤ state.count ∧ now < state.resetAt)

/-- `enforceRateLimit`. -/
def enforceRateLimit (attempts : LoginAttempts) (now : ℤ) (key : String) : Except ServiceError Unit :=
  if limited attempts now key then .error (.http 429 "too many login attempts") else .ok ()

/-- An entry with one failure more: the first of a window, or one of the window that is open. -/
def recorded (now : ℤ) : Option Attempts → Attempts
  | none => ⟨1, now + attemptWindow⟩
  | some current =>
    if current.resetAt ≤ now then ⟨1, now + attemptWindow⟩ else { current with count := current.count + 1 }

/-- `recordFailedLogin`. -/
def recordFailedLogin (attempts : LoginAttempts) (now : ℤ) (key : String) : LoginAttempts :=
  attempts.insert key (recorded now (attempts.find key))

/-! ### Operations -/

/-- A row of the users, as `login` reads it. -/
structure UserRow extends UserEntity where
  id : String
  passwordHash : TokenHash
  deriving DecidableEq

structure LoginDto where
  email : String
  password : String
  totpCode : Option String
  deriving DecidableEq

/-- A login, with the time at which it begins and what it draws. -/
structure LoginCall where
  dto : LoginDto
  ipAddress : String
  now : ℤ
  sessionId : String
  refreshToken : String
  deriving DecidableEq

/-- What a login awaits. -/
inductive Operation
  | findUser (email : String)
  | compare (password : String) (hash : TokenHash)
  | hash (token : String)
  | saveSession (id : String) (session : SessionEntity)
  deriving DecidableEq

/-- What an operation answers, with the time at which the login goes on where it looks at it. -/
inductive Answer
  | user (found : Option UserRow) (now : ℤ)
  | compared (same : Bool) (now : ℤ)
  | hashed (hash : TokenHash) (now : ℤ)
  | saved
  | threw
  deriving DecidableEq

/-- What an operation meets: it fails, or is made at a time on the users of that moment. -/
inductive Moment
  | fails
  | at (now : ℤ) (users : SortedMap String UserRow)

abbrev Sessions := SortedMap String SessionEntity

/-- The effect of an operation on the sessions. -/
def perform (operation : Operation) (moment : Moment) (sessions : Sessions) : Answer × Sessions :=
  match moment, operation with
  | .fails, _ => (.threw, sessions)
  | .at now users, .findUser email => (.user (users.find email) now, sessions)
  | .at now _, .compare password hash => (.compared (hash.compare password) now, sessions)
  | .at now _, .hash token => (.hashed ⟨token⟩ now, sessions)
  | .at _ _, .saveSession id session => (.saved, sessions.insert id session)

/-! ### The code between two points -/

/-- Where a login goes on, with its local variables. -/
inductive Point
  | found (call : LoginCall)
  | compared (call : LoginCall) (user : UserRow)
  | hashed (call : LoginCall) (user : UserRow)
  | saved (call : LoginCall) (user : UserRow)
  deriving DecidableEq

/-- How a login ends. -/
inductive Outcome
  | failed (error : ServiceError)
  | loggedIn (accessToken : AccessToken) (refreshToken sessionId : String)
  deriving DecidableEq

abbrev LoginPause := Pause Operation Point Outcome

/-- The settings of the service, `toLowerCase`, and which codes are valid for a secret at a time. -/
structure LoginConfig extends AuthConfig where
  toLowerCase : String → String
  validTotp : ℤ → String → String → Bool

variable (config : LoginConfig)

/-- The account that a login is for. -/
def LoginCall.email (call : LoginCall) : String := config.toLowerCase call.dto.email

/-- The beginning of a login. -/
def enter (call : LoginCall) (attempts : LoginAttempts) : LoginPause × LoginAttempts :=
  match enforceRateLimit attempts call.now (ipKey call.ipAddress) with
  | .error error => (.finish (.failed error), attempts)
  | .ok () =>
    match enforceRateLimit attempts call.now (accountKey (call.email config)) with
    | .error error => (.finish (.failed error), attempts)
    | .ok () => (.await (.findUser (call.email config)) (.found call), attempts)

/-- A login fails, and is recorded for its address and its account. -/
def reject (call : LoginCall) (now : ℤ) (message : String) (attempts : LoginAttempts) : LoginPause × LoginAttempts :=
  (.finish (.failed (.http 401 message)),
    recordFailedLogin (recordFailedLogin attempts now (ipKey call.ipAddress)) now (accountKey (call.email config)))

/-- `user.totpSecret && !this.verifyTotp(user.totpSecret, dto.totpCode ?? '')`. -/
def totpFails (call : LoginCall) (user : UserRow) (now : ℤ) : Bool :=
  (present user.totpSecret).any fun secret => !config.validTotp now secret (call.dto.totpCode.getD "")

/-- The code from one point to the next. -/
def resume : Point → Answer → LoginAttempts → LoginPause × LoginAttempts
  | .found call, .user found now, attempts =>
    match found with
    | none => reject config call now "invalid credentials" attempts
    | some user => (.await (.compare call.dto.password user.passwordHash) (.compared call user), attempts)
  | .compared call user, .compared same now, attempts =>
    if same = false then reject config call now "invalid credentials" attempts
    else if user.status = .frozen ∨ user.status = .closed then
      (.finish (.failed (.http 403 "account is not active")), attempts)
    else if totpFails config call user now then reject config call now "totp verification required" attempts
    else
      let attempts := (attempts.erase (ipKey call.ipAddress)).erase (accountKey (call.email config))
      if config.jwtSecret = false then
        (.finish (.failed (.http 500 "JWT_SECRET is not configured")), attempts)
      else (.await (.hash call.refreshToken) (.hashed call user), attempts)
  | .hashed call user, .hashed hash now, attempts =>
    (.await (.saveSession call.sessionId ⟨user.id, hash, now + sessionLifetime, none⟩) (.saved call user), attempts)
  | .saved call user, .saved, attempts =>
    (.finish (.loggedIn ⟨user.id, call.sessionId, config.rolesForUser user.toUserEntity⟩ call.refreshToken
      call.sessionId), attempts)
  -- an operation that has failed; every other gives its own kind of answer
  | _, _, attempts => (.finish (.failed .database), attempts)

/-! ### The program -/

abbrev LoginProgram := Program LoginCall LoginAttempts Sessions Operation Answer Point Outcome Moment

abbrev LoginWorld := World LoginCall LoginAttempts Sessions Operation Answer Point Outcome

abbrev LoginTurn := Turn LoginCall Moment

/-- **The program.** -/
def program : LoginProgram where
  enter := enter config
  resume := resume config
  perform := perform

/-- The service has just been started. -/
def start (sessions : Sessions) : LoginWorld := ⟨.empty, sessions, []⟩

end NexusTrade.Auth.Login
