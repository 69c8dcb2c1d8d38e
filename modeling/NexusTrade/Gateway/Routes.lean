import NexusTrade.Gateway.Proxy
import NexusTrade.Lib.Percent

/-!
# The routes of the gateway

The guards and the handlers of `services/api-gateway/src/main.ts`, with `verifyJwtToken` of
`packages/shared/src/auth/jwt-auth.guard.ts`: what a request is answered by the gateway itself, and what it is
forwarded as.

* **`verifyJwtToken`**, **`canActivate`** and **`assertSelfOrPrivileged`**: who may do what;
* **`Route`** and **`handle`**: the handlers;
* **`receive`**: a request, through the guard and its handler.

The libraries that check a token and sign a text are parameters.  A body is what it is after `JSON.parse`, and what
`JSON.stringify` makes of it is left out, as are parameters of a query that are given twice.
-/

namespace NexusTrade.Gateway

/-! ### Bodies -/

/-- A value of a JSON body; a number is given by its text. -/
inductive Json
  | null
  | bool (value : Bool)
  | number (text : String)
  | string (value : String)
  | array (items : List Json)
  | object (fields : List (String × Json))

/-- `Record<string, unknown>`. -/
abbrev Body := List (String × Json)

/-- A field of a body, if it is not `undefined`. -/
def field (body : Body) (name : String) : Option Json := (body.find? fun entry => entry.1 = name).map Prod.snd

mutual

/-- `String(value)`. -/
def Json.text : Json → String
  | .null => "null"
  | .bool value => if value then "true" else "false"
  | .number text => text
  | .string value => value
  | .array items => ",".intercalate (itemTexts items)
  | .object _ => "[object Object]"

/-- The texts of the items of an array: an item that is `null` has none. -/
def itemTexts : List Json → List String
  | [] => []
  | .null :: items => "" :: itemTexts items
  | item :: items => item.text :: itemTexts items

end

/-- `value ?? fallback`. -/
def nullish (value : Option Json) (fallback : Json) : Json :=
  match value with
  | none => fallback
  | some .null => fallback
  | some value => value

/-- The text of a field that is a string. -/
def stringField (body : Body) (name : String) : Option String :=
  match field body name with
  | some (.string value) => some value
  | _ => none

/-- The fields of an object literal; those that are `undefined` are not sent. -/
def literal (fields : List (String × Option Json)) : Body :=
  fields.filterMap fun entry => entry.2.map fun value => (entry.1, value)

/-! ### Callers -/

/-- What the check of a token reads of it; a subject or a session that is no text is none, and the roles are those
that are texts. -/
structure JwtPayload where
  sub : Option String
  sid : Option String
  roles : List String
  deriving DecidableEq

/-- The caller that a token stands for. -/
structure Caller where
  userId : String
  sessionId : Option String
  roles : List String
  deriving DecidableEq

/-- The environment of the gateway, with `jwt.verify`, which fails or returns the payload of a token, and the
signature of `createHmac`. -/
structure AccessConfig where
  jwtSecret : Option String
  verify : String → String → Option JwtPayload
  apiKeySecret : Option String
  hmac : String → String → String
  serviceAuthToken : Option String

/-- A request: its headers, its method and its address, and the time. -/
structure Request where
  authorization : Option String
  apiKey : Option String
  signature : Option String
  requestId : Option String
  method : String
  url : String
  now : ℕ
  deriving DecidableEq

/-- `new UnauthorizedException`. -/
def unauthorized (message : String) : ServiceError := .http 401 message

/-- `new ForbiddenException`. -/
def forbidden (message : String) : ServiceError := .http 403 message

def extractBearerToken (authorization : Option String) : Option String :=
  match authorization with
  | none => none
  | some value =>
    if "Bearer ".toList.isPrefixOf value.toList then some (String.ofList (value.toList.drop 7)) else none

section Guards

variable (config : AccessConfig)

/-- `process.env.NAME`, if it is not empty. -/
def configured (value : Option String) : Option String := value.filter (· ≠ "")

def verifyJwtToken (token : String) : Except ServiceError Caller :=
  match configured config.jwtSecret with
  | none => .error (unauthorized "JWT_SECRET is not configured")
  | some secret =>
    match config.verify token secret with
    | none => .error (unauthorized "invalid or expired token")
    | some payload =>
      match payload.sub with
      | none => .error (unauthorized "token subject is required")
      | some sub => .ok ⟨sub, payload.sid, payload.roles⟩

def hasValidApiSignature (request : Request) : Bool :=
  match configured config.apiKeySecret, configured request.apiKey, configured request.signature with
  | some secret, some _, some signature =>
    decide (signature = config.hmac secret (request.method ++ ":" ++ request.url))
  | _, _, _ => false

/-- `canActivate` of `GatewayAuthGuard`. -/
def canActivate (isPublic : Bool) (request : Request) : Except ServiceError Unit :=
  if isPublic then .ok ()
  else
    match configured (extractBearerToken request.authorization) with
    | some bearer => (verifyJwtToken config bearer).map fun _ => ()
    | none =>
      if hasValidApiSignature config request then .ok ()
      else .error (unauthorized "valid JWT or API signature is required")

def hasPrivilegedRole (roles : List String) : Bool := roles.contains "admin" || roles.contains "operator"

def userIdFromAuthorization (authorization : Option String) : Except ServiceError (Option String) :=
  match configured (extractBearerToken authorization) with
  | none => .ok none
  | some token => (verifyJwtToken config token).map fun caller => some caller.userId

def currentUserFromAuthorization (authorization : Option String) : Except ServiceError Caller :=
  match configured (extractBearerToken authorization) with
  | none => .error (unauthorized "bearer token is required")
  | some token => verifyJwtToken config token

def requirePrivilegedRole (authorization : Option String) : Except ServiceError Unit := do
  let user ← currentUserFromAuthorization config authorization
  if hasPrivilegedRole user.roles then .ok () else .error (forbidden "admin or operator role is required")

def assertSelfOrPrivileged (authorization : Option String) (targetUserId : String) : Except ServiceError Unit := do
  if targetUserId = "" then .error (unauthorized "userId is required")
  let user ← currentUserFromAuthorization config authorization
  if user.userId ≠ targetUserId ∧ hasPrivilegedRole user.roles = false then
    .error (forbidden "cannot access another user account")
  .ok ()

end Guards

/-! ### Addresses -/

/-- The characters that `encodeURIComponent` keeps. -/
def unreserved (c : Char) : Bool :=
  c.isAlphanum || "-_.!~*()".toList.contains c || c.toNat = 39

def encodeURIComponent (value : String) : String := String.ofList (Percent.encode unreserved value.toList)

/-- `symbol.endsWith(quote)` and `symbol.slice(0, -quote.length)`. -/
def withoutSuffix (symbol quote : String) : Option String :=
  if quote.toList.isSuffixOf symbol.toList then
    some (String.ofList (symbol.toList.take (symbol.toList.length - quote.toList.length)))
  else none

def normalizePair (symbol : String) : String :=
  if symbol.toList.contains '-' then symbol
  else
    match ["USDT", "USDC", "BTC", "ETH"].findSome? fun quote =>
      (withoutSuffix symbol quote).map fun base => base ++ "-" ++ quote with
    | some pair => pair
    | none => symbol

/-! ### What is forwarded -/

/-- A request to an upstream. -/
structure Forwarded where
  base : Upstream
  method : String
  path : String
  headers : List (String × String)
  body : Option Body

/-- What a handler comes to: an answer of the gateway's own, or a request to an upstream. -/
inductive Handled
  | answer (body : Body)
  | forward (forward : Forwarded)

/-- The headers of a request to an upstream. -/
def forwardHeaders (config : AccessConfig) (authorization requestId : Option String) : List (String × String) :=
  ((configured authorization).elim [] fun value => [("authorization", value)]) ++
    ((configured requestId).elim [] fun value => [("x-request-id", value)]) ++
    (configured config.serviceAuthToken).elim [] fun value => [("x-service-token", value)]

/-- `proxy.post`. -/
def post (config : AccessConfig) (base : Upstream) (path : String) (body : Body)
    (authorization requestId : Option String) : Handled :=
  .forward ⟨base, "POST", path,
    ("content-type", "application/json") :: forwardHeaders config authorization requestId, some body⟩

/-- `proxy.patch`. -/
def patch (config : AccessConfig) (base : Upstream) (path : String) (body : Body)
    (authorization requestId : Option String) : Handled :=
  .forward ⟨base, "PATCH", path,
    ("content-type", "application/json") :: forwardHeaders config authorization requestId, some body⟩

/-- `proxy.get`. -/
def get (config : AccessConfig) (base : Upstream) (path : String) (authorization requestId : Option String) :
    Handled :=
  .forward ⟨base, "GET", path, forwardHeaders config authorization requestId, none⟩

/-! ### The handlers -/

/-- The handlers of `GatewayController`, each with what it takes from the address, the query and the body. -/
inductive Route
  | health
  | account (queryUserId : Option String)
  | exchangeInfo
  | ticker (symbol : Option String)
  | register (body : Body)
  | login (body : Body)
  | placeOrder (body : Body)
  | depth (symbol : Option String)
  | credit (body : Body)
  | getUserProfile (userId : String)
  | upsertUserProfile (userId : String) (body : Body)
  | submitKyc (userId : String) (body : Body)
  | reviewKyc (userId status : String)
  | setTier (userId tier : String)
  | addReferral (userId referredUserId : String)
  | addAddressBookEntry (userId : String) (body : Body)
  | depositAddress (body : Body)
  | simulateDeposit (body : Body)
  | confirmDeposit (id confirmations : String)
  | listDeposits (userId : Option String)
  | whitelistWithdrawalAddress (userId : String) (body : Body)
  | requestWithdrawal (body : Body)
  | approveWithdrawal (id : String) (body : Body)
  | rejectWithdrawal (id : String) (body : Body)
  | listWithdrawals (userId : Option String)
  | evaluateRisk (body : Body)
  | insuranceFund
  | screenCompliance (body : Body)
  | regulatoryMatrix
  | enqueueNotification (body : Body)
  | listNotifications

/-- The handlers with `@Public()`. -/
def Route.isPublic : Route → Bool
  | .health | .exchangeInfo | .ticker _ | .register _ | .login _ | .depth _ => true
  | _ => false

section Handlers

variable (config : AccessConfig) (request : Request)

def account (queryUserId : Option String) : Except ServiceError Handled := do
  let userId ← match queryUserId with
    | some userId => .ok (some userId)
    | none => userIdFromAuthorization config request.authorization
  match configured userId with
  | none => .error (unauthorized "userId is required for API key account requests")
  | some userId =>
    match configured queryUserId with
    | some target => assertSelfOrPrivileged config request.authorization target
    | none => .ok ()
    .ok (get config .wallet ("/wallets/" ++ encodeURIComponent userId) request.authorization request.requestId)

/-- The user that an order is for. -/
def orderUser (body : Body) : Except ServiceError (Option String) :=
  match stringField body "userId" with
  | some userId => .ok (some userId)
  | none => userIdFromAuthorization config request.authorization

/-- The symbol of an order. -/
def orderSymbol (body : Body) : String :=
  match stringField body "symbol" with
  | some symbol => symbol
  | none => normalizePair (nullish (field body "pair") (.string "BTCUSDT")).text

/-- The body of an order, as the trading service receives it. -/
def orderBody (userId : String) (body : Body) : Body :=
  literal
    [("userId", some (.string userId)),
      ("accountId", some (nullish (field body "accountId") (.string "spot-account"))),
      ("symbol", some (.string (orderSymbol body))),
      ("side", field body "side"),
      ("type", field body "type"),
      ("price", field body "price"),
      ("quantity", field body "quantity"),
      ("clientOrderId", field body "clientOrderId")]

def placeOrder (body : Body) : Except ServiceError Handled := do
  let userId ← orderUser config request body
  match configured userId with
  | none => .error (unauthorized "userId is required for API key order requests")
  | some userId =>
    assertSelfOrPrivileged config request.authorization userId
    .ok (post config .trading "/orders" (orderBody userId body) request.authorization request.requestId)

/-- A handler for the account that its address names. -/
def forUser (userId : String) (handled : Handled) : Except ServiceError Handled := do
  assertSelfOrPrivileged config request.authorization userId
  .ok handled

/-- A handler for the account that its body names. -/
def forBody (body : Body) (handled : Handled) : Except ServiceError Handled := do
  assertSelfOrPrivileged config request.authorization (nullish (field body "userId") (.string "")).text
  .ok handled

/-- A handler for administrators and operators. -/
def forStaff (handled : Handled) : Except ServiceError Handled := do
  requirePrivilegedRole config request.authorization
  .ok handled

/-- `listDeposits` and `listWithdrawals`. -/
def listFor (base : Upstream) (path : String) (userId : Option String) : Except ServiceError Handled := do
  match configured userId with
  | some userId =>
    assertSelfOrPrivileged config request.authorization userId
    .ok (get config base (path ++ "?userId=" ++ encodeURIComponent userId) request.authorization request.requestId)
  | none =>
    requirePrivilegedRole config request.authorization
    .ok (get config base path request.authorization request.requestId)

/-- The body of a credit. -/
def creditBody (body : Body) : Body :=
  literal
    [("userId", field body "userId"),
      ("asset", field body "asset"),
      ("amount", field body "amount"),
      ("referenceId", some (nullish (field body "referenceId") (.string ("manual-" ++ toString request.now))))]

/-- **The handlers.** -/
def handle : Route → Except ServiceError Handled
  | .health => .ok (.answer
      [("status", .string "ok"), ("service", .string "api-gateway"),
        ("upstreams", .array (["auth", "user", "trading", "wallet", "market-data", "risk", "compliance",
          "notification"].map .string))])
  | .account queryUserId => account config request queryUserId
  | .exchangeInfo => .ok (.answer
      [("timezone", .string "UTC"),
        ("symbols", .array (["BTC-USDT", "ETH-USDT", "SOL-USDT"].map .string)),
        ("rateLimits", .array [.object [("type", .string "REQUEST_WEIGHT"), ("interval", .string "MINUTE"),
          ("limit", .number "1200")]])])
  | .ticker symbol =>
    .ok (get config .marketData ("/ticker/" ++ normalizePair (symbol.getD "BTC-USDT")) none request.requestId)
  | .register body => .ok (post config .auth "/auth/register" body none request.requestId)
  | .login body => .ok (post config .auth "/auth/login" body none request.requestId)
  | .placeOrder body => placeOrder config request body
  | .depth symbol =>
    .ok (get config .marketData ("/depth/" ++ normalizePair (symbol.getD "BTCUSDT")) none request.requestId)
  | .credit body => forStaff config request
      (post config .wallet "/wallets/credit" (creditBody request body) request.authorization request.requestId)
  | .getUserProfile userId => forUser config request userId
      (get config .user ("/users/" ++ encodeURIComponent userId ++ "/profile") request.authorization request.requestId)
  | .upsertUserProfile userId body => forUser config request userId
      (post config .user ("/users/" ++ encodeURIComponent userId ++ "/profile") body
        request.authorization request.requestId)
  | .submitKyc userId body => forUser config request userId
      (post config .user ("/users/" ++ encodeURIComponent userId ++ "/kyc") body
        request.authorization request.requestId)
  | .reviewKyc userId status => forStaff config request
      (patch config .user ("/users/" ++ encodeURIComponent userId ++ "/kyc/" ++ encodeURIComponent status) []
        request.authorization request.requestId)
  | .setTier userId tier => forStaff config request
      (patch config .user ("/users/" ++ encodeURIComponent userId ++ "/tier/" ++ encodeURIComponent tier) []
        request.authorization request.requestId)
  | .addReferral userId referredUserId => forUser config request userId
      (post config .user
        ("/users/" ++ encodeURIComponent userId ++ "/referrals/" ++ encodeURIComponent referredUserId) []
        request.authorization request.requestId)
  | .addAddressBookEntry userId body => forUser config request userId
      (post config .user ("/users/" ++ encodeURIComponent userId ++ "/address-book") body
        request.authorization request.requestId)
  | .depositAddress body => forBody config request body
      (post config .deposit "/deposits/address" body request.authorization request.requestId)
  | .simulateDeposit body => forBody config request body
      (post config .deposit "/deposits/simulate" body request.authorization request.requestId)
  | .confirmDeposit id confirmations => forStaff config request
      (post config .deposit
        ("/deposits/" ++ encodeURIComponent id ++ "/confirm/" ++ encodeURIComponent confirmations) []
        request.authorization request.requestId)
  | .listDeposits userId => listFor config request .deposit "/deposits" userId
  | .whitelistWithdrawalAddress userId body => forUser config request userId
      (post config .withdrawal ("/withdrawals/whitelist/" ++ encodeURIComponent userId) body
        request.authorization request.requestId)
  | .requestWithdrawal body => forBody config request body
      (post config .withdrawal "/withdrawals" body request.authorization request.requestId)
  | .approveWithdrawal id body => forStaff config request
      (post config .withdrawal ("/withdrawals/" ++ encodeURIComponent id ++ "/approve") body
        request.authorization request.requestId)
  | .rejectWithdrawal id body => forStaff config request
      (post config .withdrawal ("/withdrawals/" ++ encodeURIComponent id ++ "/reject") body
        request.authorization request.requestId)
  | .listWithdrawals userId => listFor config request .withdrawal "/withdrawals" userId
  | .evaluateRisk body =>
    .ok (post config .risk "/risk/evaluate" body request.authorization request.requestId)
  | .insuranceFund => .ok (get config .risk "/risk/insurance-fund" request.authorization request.requestId)
  | .screenCompliance body =>
    .ok (post config .compliance "/compliance/screen" body request.authorization request.requestId)
  | .regulatoryMatrix =>
    .ok (get config .compliance "/compliance/regulatory-matrix" request.authorization request.requestId)
  | .enqueueNotification body =>
    .ok (post config .notification "/notifications" body request.authorization request.requestId)
  | .listNotifications => .ok (get config .notification "/notifications" request.authorization request.requestId)

/-- A request, through the guard and its handler. -/
def receive (route : Route) : Except ServiceError Handled := do
  canActivate config route.isPublic request
  handle config request route

end Handlers

end NexusTrade.Gateway
