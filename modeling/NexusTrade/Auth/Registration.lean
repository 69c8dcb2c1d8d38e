import NexusTrade.Auth.Sessions

/-!
# Registrations

`register` of `services/auth-service/src/services/auth.service.ts`, and the consumer of
`services/user-service/src/services/user.service.ts` that makes up an account for an event whose user it does not find:
asynchronous code on one table of users and one topic.

The identifier that the database draws for a new row and the text that the code of a referral is cut from come with the
call.  A delivery reads the topic at some offset, so that an event can be delivered again, late and out of order; events
of other types, which the consumer ignores, are left out.  The column of emails is case insensitive.

* **`Accounts`**: the table and the topic, **`Accounts.admits`** its unique indices;
* **`enter`** and **`resume`** are the code between two points, **`perform`** the effect of an operation;
* **`program`** is the program.
-/

namespace NexusTrade.Auth.Registration

/-! ### The table and the topic -/

/-- The column of the hash: what `bcrypt.hash` makes, or another text, which compares equal to no password. -/
inductive PasswordHash
  | bcrypt (hash : TokenHash)
  | text (value : String)
  deriving DecidableEq

/-- A row of the users, by its identifier. -/
structure AccountRow where
  email : String
  passwordHash : PasswordHash
  status : UserStatus
  referralCode : String
  deriving DecidableEq

/-- The payload of `UserRegistered`. -/
structure RegisteredEvent where
  userId : String
  email : String
  status : Option UserStatus
  deriving DecidableEq

structure Accounts where
  users : SortedMap String AccountRow
  topic : List RegisteredEvent
  deriving DecidableEq

/-- How the service writes an email, and what the column of emails takes to be equal. -/
structure RegistrationConfig where
  toLowerCase : String → String
  foldCase : String → String

/-- The code of a referral: the first twelve characters of an identifier without its hyphens. -/
def referralCode (uuid : String) : String := String.ofList ((uuid.toList.filter (· ≠ '-')).take 12)

variable (config : RegistrationConfig)

/-- The unique indices on the emails and on the codes let a row in. -/
def Accounts.admits (accounts : Accounts) (id : String) (row : AccountRow) : Bool :=
  accounts.users.entries.all fun entry =>
    entry.1 = id ∨ (config.foldCase entry.2.email ≠ config.foldCase row.email ∧
      entry.2.referralCode ≠ row.referralCode)

/-- `findOne({ where: { email } })`. -/
def Accounts.findByEmail (accounts : Accounts) (email : String) : Option AccountRow :=
  (accounts.users.entries.find? fun entry => config.foldCase entry.2.email = config.foldCase email).map Prod.snd

/-! ### Operations -/

structure RegisterDto where
  email : String
  password : String
  deriving DecidableEq

/-- A registration, with what is drawn for it, or a delivery of an event. -/
inductive AccountCall
  | register (dto : RegisterDto) (uuid referralUuid : String)
  | consume (offset : ℕ)
  deriving DecidableEq

/-- What a call awaits; `save` inserts an entity that has no identifier, and inserts or updates one that has. -/
inductive Operation
  | findByEmail (email : String)
  | hash (password : String)
  | insert (uuid : String) (row : AccountRow)
  | produce (event : RegisteredEvent)
  | poll (offset : ℕ)
  | findById (id : String)
  | save (id : String) (row : AccountRow)
  deriving DecidableEq

inductive Answer
  | user (found : Option AccountRow)
  | hashed (hash : TokenHash)
  | stored
  | produced
  | polled (event : Option RegisteredEvent)
  | threw
  deriving DecidableEq

/-- What an operation meets: it fails, or it works, and its answer may be lost all the same. -/
inductive Moment
  | fails
  | works
  | lost
  deriving DecidableEq

/-- The effect of an operation that works. -/
def effect (operation : Operation) (accounts : Accounts) : Answer × Accounts :=
  match operation with
  | .findByEmail email => (.user (accounts.findByEmail config email), accounts)
  | .hash password => (.hashed ⟨password⟩, accounts)
  | .insert uuid row =>
    if accounts.users.contains uuid = false ∧ accounts.admits config uuid row = true then
      (.stored, { accounts with users := accounts.users.insert uuid row })
    else (.threw, accounts)
  | .produce event => (.produced, { accounts with topic := accounts.topic ++ [event] })
  | .poll offset => (.polled accounts.topic[offset]?, accounts)
  | .findById id => (.user (accounts.users.find id), accounts)
  | .save id row =>
    if accounts.admits config id row = true then
      (.stored, { accounts with users := accounts.users.insert id row })
    else (.threw, accounts)

def perform (operation : Operation) (moment : Moment) (accounts : Accounts) : Answer × Accounts :=
  match moment with
  | .fails => (.threw, accounts)
  | .works => effect config operation accounts
  | .lost => (.threw, (effect config operation accounts).2)

/-! ### The code between two points -/

/-- Where a call goes on, with its local variables. -/
inductive Point
  | registerFound (dto : RegisterDto) (uuid referralUuid : String)
  | registerHashed (dto : RegisterDto) (uuid referralUuid : String)
  | registerSaved (uuid : String) (row : AccountRow)
  | registerProduced (uuid : String) (row : AccountRow)
  | consumePolled
  | consumeFound (event : RegisteredEvent)
  | consumeSaved
  deriving DecidableEq

inductive Outcome
  | failed (error : ServiceError)
  | registered (userId email : String) (status : UserStatus)
  | consumed
  deriving DecidableEq

abbrev AccountPause := Pause Operation Point Outcome

def RegisterDto.lowered (dto : RegisterDto) : String := config.toLowerCase dto.email

/-- The row that `register` saves. -/
def RegisterDto.row (dto : RegisterDto) (referralUuid : String) (hash : TokenHash) : AccountRow where
  email := dto.lowered config
  passwordHash := .bcrypt hash
  status := .active
  referralCode := Registration.referralCode referralUuid

/-- The row that the consumer saves. -/
def RegisteredEvent.placeholder (event : RegisteredEvent) : AccountRow where
  email := event.email
  passwordHash := .text "external-auth-service"
  status := event.status.getD .active
  referralCode := Registration.referralCode event.userId

def emailTaken : ServiceError := .http 409 "email already registered"

def enter : AccountCall → AccountPause
  | .register dto uuid referralUuid =>
    .await (.findByEmail (dto.lowered config)) (.registerFound dto uuid referralUuid)
  | .consume offset => .await (.poll offset) .consumePolled

def resume : Point → Answer → AccountPause
  | .registerFound _ _ _, .user (some _) => .finish (.failed emailTaken)
  | .registerFound dto uuid referralUuid, .user none =>
    .await (.hash dto.password) (.registerHashed dto uuid referralUuid)
  | .registerHashed dto uuid referralUuid, .hashed hash =>
    .await (.insert uuid (dto.row config referralUuid hash)) (.registerSaved uuid (dto.row config referralUuid hash))
  | .registerSaved uuid row, .stored => .await (.produce ⟨uuid, row.email, some row.status⟩) (.registerProduced uuid row)
  | .registerProduced uuid row, .produced => .finish (.registered uuid row.email row.status)
  | .consumePolled, .polled none => .finish .consumed
  | .consumePolled, .polled (some event) => .await (.findById event.userId) (.consumeFound event)
  | .consumeFound _, .user (some _) => .finish .consumed
  | .consumeFound event, .user none => .await (.save event.userId event.placeholder) .consumeSaved
  | .consumeSaved, .stored => .finish .consumed
  -- an operation that has failed; every other gives its own kind of answer
  | _, _ => .finish (.failed .database)

/-! ### The program -/

abbrev AccountProgram := Program AccountCall Unit Accounts Operation Answer Point Outcome Moment

abbrev AccountWorld := World AccountCall Unit Accounts Operation Answer Point Outcome

abbrev AccountThread := Thread AccountCall Operation Answer Point Outcome

abbrev AccountProgress := Progress Operation Answer Point Outcome

abbrev AccountTurn := Turn AccountCall Moment

/-- **The program.** -/
def program : AccountProgram where
  enter call memory := (enter config call, memory)
  resume point answer memory := (resume config point answer, memory)
  perform := perform config

end NexusTrade.Auth.Registration
