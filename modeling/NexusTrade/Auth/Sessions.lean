import NexusTrade.Auth.Totp
import NexusTrade.Lib.Interleaving

/-!
# Sessions

`refresh` and `logout` of `services/auth-service/src/services/auth.service.ts` as asynchronous code: between one
`await` and the next a call runs alone, and at each `await` other calls may proceed.

The token that a refresh draws comes with the call, and the time with the answer after which it is read.  A hash
remembers the token that it was made of, so that `bcrypt.compare` is exact.  Of the access token there is what is
signed; the roles of a user are a parameter, and so is whether `JWT_SECRET` is set.

* **`Tables`**: what the calls share;
* **`Operation`** and **`Point`**: what a call awaits, and where it goes on;
* **`resume`** is the code of the service between two points, **`perform`** the effect of an operation;
* **`program`** is the program, **`start`** its first state.
-/

namespace NexusTrade.Auth

/-! ### The tables -/

/-- What `bcrypt.hash` makes of a token. -/
structure TokenHash where
  token : String
  deriving DecidableEq

/-- `bcrypt.compare`. -/
def TokenHash.compare (hash : TokenHash) (token : String) : Bool := decide (token = hash.token)

/-- A row of the sessions, without its identifier; times are in milliseconds. -/
structure SessionEntity where
  userId : String
  refreshTokenHash : TokenHash
  expiresAt : ℤ
  revokedAt : Option ℤ
  deriving DecidableEq

/-- The users and the sessions by identifier. -/
structure Tables where
  users : SortedMap String UserEntity
  sessions : SortedMap String SessionEntity
  deriving DecidableEq

/-! ### Operations -/

/-- `RefreshTokenDto`, and `LogoutDto`. -/
structure RefreshTokenDto where
  sessionId : String
  refreshToken : String
  deriving DecidableEq

/-- A call; a refresh comes with the token that it draws. -/
inductive SessionCall
  | refresh (dto : RefreshTokenDto) (nextRefreshToken : String)
  | logout (dto : RefreshTokenDto)
  deriving DecidableEq

/-- What a call awaits. -/
inductive Operation
  | findSession (id : String)
  | compare (token : String) (hash : TokenHash)
  | findUser (id : String)
  | hash (token : String)
  | saveSession (id : String) (session : SessionEntity)
  deriving DecidableEq

/-- What an operation answers, with the time at which the call goes on where it looks at it. -/
inductive Answer
  | session (found : Option SessionEntity) (now : ℤ)
  | compared (same : Bool) (now : ℤ)
  | user (found : Option UserEntity)
  | hashed (hash : TokenHash) (now : ℤ)
  | saved
  deriving DecidableEq

/-- The effect of an operation; `save` writes the whole entity. -/
def perform (operation : Operation) (now : ℤ) (tables : Tables) : Answer × Tables :=
  match operation with
  | .findSession id => (.session (tables.sessions.find id) now, tables)
  | .compare token hash => (.compared (hash.compare token) now, tables)
  | .findUser id => (.user (tables.users.find id), tables)
  | .hash token => (.hashed ⟨token⟩ now, tables)
  | .saveSession id session => (.saved, { tables with sessions := tables.sessions.insert id session })

/-! ### The code between two points -/

/-- Where a call goes on, with its local variables. -/
inductive Point
  | refreshFound (dto : RefreshTokenDto) (nextRefreshToken : String)
  | refreshCompared (dto : RefreshTokenDto) (nextRefreshToken : String) (session : SessionEntity)
  | refreshUser (dto : RefreshTokenDto) (nextRefreshToken : String) (session : SessionEntity)
  | refreshHashed (dto : RefreshTokenDto) (nextRefreshToken : String) (session : SessionEntity) (user : UserEntity)
  | refreshSaved (dto : RefreshTokenDto) (nextRefreshToken : String) (session : SessionEntity) (user : UserEntity)
  | logoutFound (dto : RefreshTokenDto)
  | logoutCompared (dto : RefreshTokenDto) (session : SessionEntity)
  | logoutSaved (dto : RefreshTokenDto)
  deriving DecidableEq

/-- What an access token signs. -/
structure AccessToken where
  sub : String
  sid : String
  roles : List String
  deriving DecidableEq

/-- How a call ends; a logout answers the same whether it has revoked the session or not. -/
inductive Outcome
  | failed (error : ServiceError)
  | refreshed (accessToken : AccessToken) (refreshToken sessionId : String)
  | loggedOut (revoked : Bool)
  deriving DecidableEq

abbrev SessionPause := Pause Operation Point Outcome

/-- `JWT_SECRET` is set, and the roles of a user. -/
structure AuthConfig where
  jwtSecret : Bool
  rolesForUser : UserEntity → List String

/-- Thirty days. -/
def sessionLifetime : ℤ := 30 * 24 * 60 * 60 * 1000

variable (config : AuthConfig)

/-- The beginning of a call. -/
def enter : SessionCall → SessionPause
  | .refresh dto nextRefreshToken =>
    if config.jwtSecret = false then .finish (.failed (.http 500 "JWT_SECRET is not configured"))
    else .await (.findSession dto.sessionId) (.refreshFound dto nextRefreshToken)
  | .logout dto => .await (.findSession dto.sessionId) (.logoutFound dto)

/-- The code from one point to the next. -/
def resume : Point → Answer → SessionPause
  | .refreshFound dto nextRefreshToken, .session found now =>
    match found with
    | none => .finish (.failed (.http 401 "invalid refresh session"))
    | some session =>
      if session.revokedAt.isSome ∨ session.expiresAt ≤ now then
        .finish (.failed (.http 401 "invalid refresh session"))
      else .await (.compare dto.refreshToken session.refreshTokenHash) (.refreshCompared dto nextRefreshToken session)
  | .refreshCompared dto nextRefreshToken session, .compared same _ =>
    if same = false then .finish (.failed (.http 401 "invalid refresh token"))
    else .await (.findUser session.userId) (.refreshUser dto nextRefreshToken session)
  | .refreshUser dto nextRefreshToken session, .user found =>
    match found with
    | none => .finish (.failed (.http 403 "account is not active"))
    | some user =>
      if user.status = .frozen ∨ user.status = .closed then .finish (.failed (.http 403 "account is not active"))
      else .await (.hash nextRefreshToken) (.refreshHashed dto nextRefreshToken session user)
  | .refreshHashed dto nextRefreshToken session user, .hashed hash now =>
    .await (.saveSession dto.sessionId { session with refreshTokenHash := hash, expiresAt := now + sessionLifetime })
      (.refreshSaved dto nextRefreshToken session user)
  | .refreshSaved dto nextRefreshToken session user, .saved =>
    .finish (.refreshed ⟨session.userId, dto.sessionId, config.rolesForUser user⟩ nextRefreshToken dto.sessionId)
  | .logoutFound dto, .session found _ =>
    match found with
    | none => .finish (.loggedOut false)
    | some session => .await (.compare dto.refreshToken session.refreshTokenHash) (.logoutCompared dto session)
  | .logoutCompared dto session, .compared same now =>
    if same then .await (.saveSession dto.sessionId { session with revokedAt := some now }) (.logoutSaved dto)
    else .finish (.loggedOut false)
  | .logoutSaved _, .saved => .finish (.loggedOut true)
  -- every operation gives its own kind of answer
  | _, _ => .finish (.failed .database)

/-! ### The program -/

abbrev SessionProgram := Program SessionCall Unit Tables Operation Answer Point Outcome ℤ

abbrev SessionWorld := World SessionCall Unit Tables Operation Answer Point Outcome

abbrev SessionThread := Thread SessionCall Operation Answer Point Outcome

abbrev SessionTurn := Turn SessionCall ℤ

/-- **The program.** -/
def program : SessionProgram where
  enter call memory := (enter config call, memory)
  resume point answer memory := (resume config point answer, memory)
  perform := perform

/-- No call has been made. -/
def start (tables : Tables) : SessionWorld := ⟨(), tables, []⟩

end NexusTrade.Auth
