import NexusTrade.Lib.FixedWindow
import NexusTrade.Lib.Run
import NexusTrade.Shared.Domain

/-!
# The rate guard

`GatewayRateGuard` of `services/api-gateway/src/main.ts`: each user, and each address without a user, has a bucket
that counts requests in windows of a minute.

* **`canActivate`**: the guard on one request;
* **`hitsOf`**: the requests of one client, and what came of them;
* **`rate_limit_holds`**: in every run a client gets no more than twice its limit through in any minute, and a client
  that keeps to its limit is never turned away, whatever the others do.
-/

namespace NexusTrade.Gateway.RateGuard

open FixedWindow (Window Hit granted made Tallied)

/-! ### The guard -/

/-- Who a request is counted for. -/
inductive Client
  | user (userId : String)
  | ip (address : String)
  deriving DecidableEq

/-- The key of a bucket. -/
def Client.key : Client → String
  | .user userId => "user:" ++ userId
  | .ip address => "ip:" ++ address

/-- What the guard reads of a request: `req.user`, `req.ip` and the address of the socket, and the time. -/
structure Request where
  userId : Option String
  ip : Option String
  remoteAddress : Option String
  now : ℤ
  deriving DecidableEq

def Request.client (request : Request) : Client :=
  match request.userId.filter (· ≠ "") with
  | some userId => .user userId
  | none => .ip ((request.ip.or request.remoteAddress).getD "unknown")

/-- `GATEWAY_AUTH_RATE_LIMIT_PER_MINUTE` and `GATEWAY_PUBLIC_RATE_LIMIT_PER_MINUTE`, 6000 and 1200 where they are not
set. -/
structure RateConfig where
  authLimit : ℕ
  publicLimit : ℕ
  deriving DecidableEq

def RateConfig.limit (config : RateConfig) : Client → ℕ
  | .user _ => config.authLimit
  | .ip _ => config.publicLimit

abbrev Buckets := SortedMap String Window

/-- The width of a window, in milliseconds. -/
def minute : ℤ := 60000

/-- **The guard.** -/
def canActivate (config : RateConfig) (buckets : Buckets) (request : Request) : Except ServiceError Unit × Buckets :=
  let key := request.client.key
  match buckets.find key with
  | none => (.ok (), buckets.insert key ⟨1, request.now + minute⟩)
  | some current =>
    if current.resetAt ≤ request.now then (.ok (), buckets.insert key ⟨1, request.now + minute⟩)
    else
      let buckets := buckets.insert key { current with count := current.count + 1 }
      if config.limit request.client < current.count + 1 then (.error (.http 429 "rate limit exceeded"), buckets)
      else (.ok (), buckets)

/-- The guard, one request after another. -/
def exec (config : RateConfig) (buckets : Buckets) (request : Request) :
    Except Empty (Except ServiceError Unit × Buckets) :=
  .ok (canActivate config buckets request)

/-- A request passes. -/
def passes : Except ServiceError Unit → Bool
  | .ok _ => true
  | .error _ => false

/-- The requests of a client, and what came of them. -/
def hitsOf (client : Client) (requests : List Request) (replies : List (Except ServiceError Unit)) : List Hit :=
  (requests.zip replies).filterMap fun call =>
    if call.1.client = client then some ⟨call.1.now, passes call.2⟩ else none

/-! ### Keys -/

theorem Client.key_injective {client client' : Client} (h : client.key = client'.key) : client = client' := by
  cases client with
  | user userId =>
      cases client' with
      | user other => exact congrArg Client.user (String.append_right_inj "user:" |>.mp h)
      | ip address =>
          have hhead := congrArg (fun s : String => s.toList.head?) h
          simp [Client.key] at hhead
  | ip address =>
      cases client' with
      | user userId =>
          have hhead := congrArg (fun s : String => s.toList.head?) h
          simp [Client.key] at hhead
      | ip other => exact congrArg Client.ip (String.append_right_inj "ip:" |>.mp h)

/-! ### One request -/

variable {config : RateConfig}

/-- The guard treats the bucket of the client as a window of its limit. -/
theorem canActivate_spec (config : RateConfig) (buckets : Buckets) (request : Request) :
    passes (canActivate config buckets request).1
        = (FixedWindow.request minute (config.limit request.client) (buckets.find request.client.key) request.now).1 ∧
      (canActivate config buckets request).2 = buckets.insert request.client.key
        (FixedWindow.request minute (config.limit request.client) (buckets.find request.client.key) request.now).2 := by
  cases hfound : buckets.find request.client.key with
  | none =>
      simp only [canActivate, FixedWindow.request, hfound]
      exact ⟨rfl, trivial⟩
  | some current =>
      simp only [canActivate, FixedWindow.request, hfound]
      by_cases hreset : current.resetAt ≤ request.now
      · rw [if_pos hreset, if_pos hreset]
        exact ⟨rfl, rfl⟩
      · rw [if_neg hreset, if_neg hreset]
        by_cases hfull : config.limit request.client < current.count + 1
        · rw [if_pos hfull]
          exact ⟨(decide_eq_false (Nat.not_le.mpr hfull)).symm, rfl⟩
        · rw [if_neg hfull]
          exact ⟨(decide_eq_true (Nat.not_lt.mp hfull)).symm, rfl⟩

theorem hitsOf_snoc (client : Client) {requests : List Request} {replies : List (Except ServiceError Unit)}
    (hlength : replies.length = requests.length) (request : Request) (reply : Except ServiceError Unit) :
    hitsOf client (requests ++ [request]) (replies ++ [reply])
      = hitsOf client requests replies ++ if request.client = client then [⟨request.now, passes reply⟩] else [] := by
  rw [hitsOf, List.zip_append hlength.symm, List.filterMap_append]
  show hitsOf client requests replies ++ _ = _
  congr 1
  simp only [List.zip_cons_cons, List.zip_nil_right, List.filterMap_cons, List.filterMap_nil]
  split_ifs <;> rfl

/-! ### Runs -/

/-- What holds after some requests: each bucket counts the requests of its client. -/
def Limits (config : RateConfig) (requests : List Request) (replies : List (Except ServiceError Unit))
    (buckets : Buckets) : Prop :=
  replies.length = requests.length ∧ (requests.Pairwise (fun r r' => r.now ≤ r'.now) →
    ∀ (client : Client) (now : ℤ), (∀ request ∈ requests, request.now ≤ now) →
      Tallied minute (config.limit client) (buckets.find client.key) (hitsOf client requests replies) now)

theorem Limits.snoc {requests : List Request} {replies : List (Except ServiceError Unit)} {buckets : Buckets}
    (h : Limits config requests replies buckets) (request : Request) :
    Limits config (requests ++ [request]) (replies ++ [(canActivate config buckets request).1])
      (canActivate config buckets request).2 := by
  obtain ⟨hlength, hcounted⟩ := h
  refine ⟨by simp [hlength], fun hclock client now hnow => ?_⟩
  obtain ⟨hearlier, _, hlast⟩ := List.pairwise_append.mp hclock
  have hthis := hcounted hearlier client request.now fun other ho => hlast other ho request List.mem_cons_self
  have hrequest : request.now ≤ now := hnow request (List.mem_append_right requests List.mem_cons_self)
  obtain ⟨hpasses, hbuckets⟩ := canActivate_spec config buckets request
  rw [hitsOf_snoc client hlength, hbuckets, SortedMap.find_insert]
  by_cases hclient : request.client = client
  · subst hclient
    rw [if_pos rfl, if_pos rfl, hpasses]
    exact (hthis.request (by decide) (le_refl _)).later hrequest
  · rw [if_neg hclient, if_neg fun hkey => hclient (Client.key_injective hkey).symm, List.append_nil]
    exact hthis.later hrequest

/-- **The rate limit holds.**  While the clock does not go back, whatever the other clients do: in every minute no
more than twice its limit of a client's requests pass, and a request is turned away only if its client has made more
requests than its limit in the minute that ends with it. -/
theorem rate_limit_holds (config : RateConfig) {requests : List Request} {replies : List (Except ServiceError Unit)}
    {buckets : Buckets} (hclock : requests.Pairwise fun r r' => r.now ≤ r'.now)
    (hrun : Machine.run (exec config) .empty requests = .ok (replies, buckets)) (client : Client) :
    (∀ start, granted (hitsOf client requests replies) start (start + minute) ≤ 2 * max 1 (config.limit client)) ∧
    ∀ (n : ℕ) (hit : Hit), (hitsOf client requests replies)[n]? = some hit → hit.granted = false →
      config.limit client
        < made ((hitsOf client requests replies).take (n + 1)) (hit.time - minute + 1) (hit.time + 1) := by
  have hlimits : Limits config requests replies buckets := by
    refine Machine.run_history ?_ ?_ requests replies buckets hrun
    · refine ⟨rfl, fun _ client now _ => ?_⟩
      rw [SortedMap.find_empty]
      exact Tallied.nil minute (config.limit client) now
    · intro requests replies buckets request reply buckets' h hexec
      have hsnoc := h.snoc request
      rw [show canActivate config buckets request = (reply, buckets') from Except.ok.inj hexec] at hsnoc
      exact hsnoc
  obtain ⟨now, hnow⟩ : ∃ now, ∀ request ∈ requests, request.now ≤ now := by
    induction requests using List.reverseRecOn with
    | nil => exact ⟨0, fun request h => nomatch h⟩
    | append_singleton requests last _ =>
        refine ⟨last.now, fun request hmem => ?_⟩
        rcases List.mem_append.mp hmem with hmem | hmem
        · exact (List.pairwise_append.mp hclock).2.2 request hmem last List.mem_cons_self
        · rw [List.mem_singleton.mp hmem]
  have hcounted := hlimits.2 hclock client now hnow
  exact ⟨hcounted.bound, hcounted.refused⟩

/-- A client with a limit of one, at the end of a minute and at the beginning of the next. -/
def burst : List Request :=
  [⟨some "user-1", none, none, 0⟩, ⟨some "user-1", none, none, 59999⟩, ⟨some "user-1", none, none, 60000⟩]

theorem rate_limit_holds_burst :
    ∃ replies buckets, Machine.run (exec ⟨1, 1⟩) .empty burst = .ok (replies, buckets) ∧
      granted (hitsOf (.user "user-1") burst replies) 0 minute ≤ 2 ∧
      hitsOf (.user "user-1") burst replies = [⟨0, true⟩, ⟨59999, false⟩, ⟨60000, true⟩] := by
  obtain ⟨replies, buckets, hrun⟩ := Machine.run_returns (exec ⟨1, 1⟩) (.empty : Buckets) burst
  obtain ⟨hbound, _⟩ := rate_limit_holds ⟨1, 1⟩ (by decide) hrun (.user "user-1")
  have hhits : (Machine.run (exec ⟨1, 1⟩) .empty burst).map
      (fun result => hitsOf (.user "user-1") burst result.1) = .ok [⟨0, true⟩, ⟨59999, false⟩, ⟨60000, true⟩] := by
    decide +kernel
  rw [hrun] at hhits
  exact ⟨replies, buckets, hrun, hbound 0, Except.ok.inj hhits⟩

end NexusTrade.Gateway.RateGuard
