import NexusTrade.Lib.Interleaving
import NexusTrade.Shared.Domain

/-!
# The gateway's proxy

`fetchWithCircuit` of `services/api-gateway/src/main.ts` as asynchronous code: a call runs alone until it awaits the
upstream, and again when that has answered; in between other calls may proceed.

The time at which a call reads the circuit comes with the call, and the time at which a failure is written with the
failure.  A fetch that is aborted after the timeout is one that fails.

* **`Upstream`** and **`Circuits`**: the upstreams and the state of their circuits;
* **`enter`** and **`resume`** are the code of a call before and after the fetch;
* **`program`** is the program, **`start`** its first state.
-/

namespace NexusTrade.Gateway

/-! ### Circuits -/

/-- The keys of `upstreams`. -/
inductive Upstream
  | auth
  | user
  | trading
  | wallet
  | marketData
  | risk
  | deposit
  | withdrawal
  | compliance
  | notification
  deriving DecidableEq

/-- `String(base)`. -/
def Upstream.name : Upstream → String
  | .auth => "auth"
  | .user => "user"
  | .trading => "trading"
  | .wallet => "wallet"
  | .marketData => "marketData"
  | .risk => "risk"
  | .deposit => "deposit"
  | .withdrawal => "withdrawal"
  | .compliance => "compliance"
  | .notification => "notification"

/-- An entry of `circuits`; times are in milliseconds. -/
structure Circuit where
  failures : ℕ
  openUntil : ℤ
  deriving DecidableEq

abbrev Circuits := Upstream → Option Circuit

/-- `circuits.set`. -/
def Circuits.set (circuits : Circuits) (base : Upstream) (circuit : Circuit) : Circuits :=
  fun other => if other = base then some circuit else circuits other

/-- `GATEWAY_CIRCUIT_FAILURES`, `GATEWAY_CIRCUIT_OPEN_MS` and the addresses of the upstreams. -/
structure GatewayConfig where
  upstreams : Upstream → String
  circuitFailures : ℕ
  circuitOpenMs : ℤ

/-! ### Calls -/

structure RequestInit where
  method : Option String
  headers : List (String × String)
  body : Option String
  deriving DecidableEq

/-- A call of `fetchWithCircuit`, with the time at which it begins. -/
structure FetchCall where
  base : Upstream
  path : String
  init : RequestInit
  now : ℤ
  deriving DecidableEq

/-- `fetch`. -/
structure Fetch where
  url : String
  init : RequestInit
  deriving DecidableEq

structure Response where
  status : ℕ
  payload : String
  deriving DecidableEq

/-- What a fetch comes to: a response, or an error at a time. -/
inductive Answer
  | response (response : Response)
  | error (message : String) (now : ℤ)
  deriving DecidableEq

/-- Where a call goes on, with the state of the circuit that it has read. -/
structure Point where
  call : FetchCall
  state : Option Circuit
  deriving DecidableEq

/-- How a call ends. -/
inductive Outcome
  | responded (response : Response)
  | failed (error : ServiceError)
  deriving DecidableEq

abbrev FetchPause := Pause Fetch Point Outcome

variable (config : GatewayConfig)

/-- `state && state.openUntil > Date.now()`. -/
def isOpen (state : Option Circuit) (now : ℤ) : Bool := state.any fun circuit => now < circuit.openUntil

/-- The error of a call that finds the circuit open. -/
def circuitOpen (base : Upstream) : ServiceError := .http 503 (base.name ++ " upstream circuit is open")

/-- A call until it awaits the upstream. -/
def enter (call : FetchCall) (circuits : Circuits) : FetchPause × Circuits :=
  let state := circuits call.base
  if isOpen state call.now then (.finish (.failed (circuitOpen call.base)), circuits)
  else (.await ⟨config.upstreams call.base ++ call.path, call.init⟩ ⟨call, state⟩, circuits)

/-- `(state?.failures ?? 0) + 1`. -/
def nextFailures (state : Option Circuit) : ℕ := (state.elim 0 Circuit.failures) + 1

/-- What a call that has failed writes. -/
def failedCircuit (state : Option Circuit) (now : ℤ) : Circuit where
  failures := nextFailures state
  openUntil := if config.circuitFailures ≤ nextFailures state then now + config.circuitOpenMs else 0

/-- A call after the upstream has answered. -/
def resume (point : Point) (answer : Answer) (circuits : Circuits) : FetchPause × Circuits :=
  match answer with
  | .response response => (.finish (.responded response), circuits.set point.call.base ⟨0, 0⟩)
  | .error message now =>
    (.finish (.failed (.http 503 ("upstream " ++ point.call.base.name ++ " unavailable: " ++ message))),
      circuits.set point.call.base (failedCircuit config point.state now))

/-! ### The program -/

abbrev GatewayProgram := Program FetchCall Circuits Unit Fetch Answer Point Outcome Answer

abbrev GatewayWorld := World FetchCall Circuits Unit Fetch Answer Point Outcome

abbrev GatewayTurn := Turn FetchCall Answer

/-- **The program.**  What an upstream answers comes from outside. -/
def program : GatewayProgram where
  enter := enter config
  resume := resume config
  perform := fun _ answer remote => (answer, remote)

/-- The gateway has just been started. -/
def start : GatewayWorld := ⟨fun _ => none, (), []⟩

end NexusTrade.Gateway
