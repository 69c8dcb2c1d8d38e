import NexusTrade.Auth.Provenance
import NexusTrade.Gateway.Access

/-!
# Logins behind the requests of the gateway

The gateway reads a caller and its roles from an access token, and the auth service issues these tokens.  Nothing else
signs with the secret that they share, and nothing can be found that `jwt.verify` takes for signed.

* **`SignedBy`** says so; **`Listed`**: an email is in the environment of the auth service;
* **`privileged_iff`**: the roles of the staff are those of the emails that are listed;
* **`Genuine`**: a caller who has logged in, and **`Entitled`**: one to whom a request is due;
* **`access_needs_login`**: what goes through the gateway about an account comes from such a caller.
-/

namespace NexusTrade.Gateway

open NexusTrade.Auth (AccessTurn AccessWorld AccessToken UserEntity)
open NexusTrade.Auth.Provenance (Grants Issued Found Current LoggedIn Sourced tokens_stem_from_logins)

/-! ### Tokens -/

/-- What an access token says to `jwt.verify`. -/
def payloadOf (token : AccessToken) : JwtPayload := ⟨some token.sub, some token.sid, token.roles⟩

/-- Under the secret of the gateway `jwt.verify` accepts no token but those that the auth service has issued. -/
def SignedBy (access : AccessConfig) (world : AccessWorld) : Prop :=
  ∀ secret text payload, access.jwtSecret = some secret → access.verify text secret = some payload →
    ∃ thread ∈ world.threads, ∃ outcome token, thread.progress = .finished outcome ∧ Grants outcome token ∧
      payload = payloadOf token

section Policy

variable (config : Auth.AccessConfig) (turns : List AccessTurn)

/-- The email of a member of the staff. -/
def Listed (email : String) : Prop :=
  config.toLowerCase email ∈ config.parseEmailList config.adminEmails ∨
    config.toLowerCase email ∈ config.parseEmailList config.operatorEmails

/-- **A caller who has logged in**: it bears a token of a session that a login of its user has opened. -/
def Genuine (caller : Caller) : Prop :=
  ∃ token, Issued config turns token ∧ caller.userId = token.sub ∧ caller.roles = token.roles

/-- A caller with the roles of the staff, whose email, as the table has held it, is that of a member of the staff. -/
def OfStaff (caller : Caller) : Prop :=
  hasPrivilegedRole caller.roles = true ∧ ∃ user, Current turns caller.userId user ∧ Listed config user.email

/-- **To whom a request is due**: to the user of the account that it is about, and to the staff. -/
def Entitled (caller : Caller) : Reach → Prop
  | .nothing => True
  | .account userId => caller.userId = userId ∨ OfStaff config turns caller
  | .staff => OfStaff config turns caller

end Policy

section Tokens

variable {config : Auth.AccessConfig} {turns : List AccessTurn}

/-- **The staff are those whose emails are listed.** -/
theorem privileged_iff {user : UserEntity} :
    hasPrivilegedRole (config.rolesForUser user) = true ↔ Listed config user.email := by
  simp only [hasPrivilegedRole, Auth.AccessConfig.rolesForUser, Listed]
  by_cases hadmin : config.toLowerCase user.email ∈ config.parseEmailList config.adminEmails
  · simp [hadmin]
  · by_cases hoperator : config.toLowerCase user.email ∈ config.parseEmailList config.operatorEmails
    · simp [hadmin, hoperator]
    · simp [hadmin, hoperator]

/-- **The roles of the staff are given to the staff.** -/
theorem Genuine.ofStaff {caller : Caller} (h : Genuine config turns caller)
    (hroles : hasPrivilegedRole caller.roles = true) : OfStaff config turns caller := by
  obtain ⟨token, hissued, hid, hof⟩ := h
  obtain ⟨user, hcurrent, hgiven⟩ := hissued.current
  have hlisted : hasPrivilegedRole (config.rolesForUser user) = true := by
    rw [← hgiven, ← hof]
    exact hroles
  refine ⟨hroles, user, ?_, privileged_iff.mp hlisted⟩
  rw [hid]
  exact hcurrent

/-- The caller of a token that the gateway accepts. -/
theorem verifyJwtToken_ok {access : AccessConfig} {text : String} {caller : Caller}
    (h : verifyJwtToken access text = .ok caller) :
    ∃ secret payload, access.jwtSecret = some secret ∧ access.verify text secret = some payload ∧
      payload.sub = some caller.userId ∧ caller.roles = payload.roles := by
  rw [verifyJwtToken] at h
  split at h
  · cases h
  · rename_i secret hsecret
    split at h
    · cases h
    · rename_i payload hpayload
      split at h
      · cases h
      · rename_i sub hsub
        cases h
        exact ⟨secret, payload, (Option.filter_eq_some_iff.mp hsecret).1, hpayload, hsub, rfl⟩

/-- **A caller has logged in.** -/
theorem genuine_of_callerOf {access : AccessConfig} {world : AccessWorld} (hsourced : Sourced config turns world)
    (hsigned : SignedBy access world) {authorization : Option String} {caller : Caller}
    (h : callerOf access authorization = some caller) : Genuine config turns caller := by
  have hcurrent := current_of_callerOf h
  rw [currentUserFromAuthorization] at hcurrent
  split at hcurrent
  · cases hcurrent
  · obtain ⟨secret, payload, hsecret, hpayload, hsub, hroles⟩ := verifyJwtToken_ok hcurrent
    obtain ⟨thread, hthread, outcome, token, hfinished, hgrants, rfl⟩ := hsigned secret _ payload hsecret hpayload
    have hknown := hsourced.known thread hthread
    rw [hfinished] at hknown
    exact ⟨token, hknown token hgrants, (Option.some.inj hsub).symm, hroles⟩

/-- What is about an account is reached by a caller to whom it is due. -/
theorem entitled_of_allowed {access : AccessConfig} {world : AccessWorld} (hsourced : Sourced config turns world)
    (hsigned : SignedBy access world) {authorization : Option String} {reached : Reach}
    (h : Allowed (callerOf access authorization) reached) (habout : reached ≠ .nothing) :
    ∃ caller, callerOf access authorization = some caller ∧ Genuine config turns caller ∧
      Entitled config turns caller reached := by
  cases reached with
  | nothing => exact absurd rfl habout
  | account userId =>
      obtain ⟨caller, hcaller, hallowed⟩ := h
      have hgenuine := genuine_of_callerOf hsourced hsigned hcaller
      exact ⟨caller, hcaller, hgenuine, hallowed.imp_right hgenuine.ofStaff⟩
  | staff =>
      obtain ⟨caller, hcaller, hprivileged⟩ := h
      have hgenuine := genuine_of_callerOf hsourced hsigned hcaller
      exact ⟨caller, hcaller, hgenuine, hgenuine.ofStaff hprivileged⟩

/-- The identifiers of callers are those of the table. -/
theorem Genuine.plain (hplain : ∀ row, Found turns row → Plain row.id) {caller : Caller}
    (h : Genuine config turns caller) : Plain caller.userId := by
  obtain ⟨token, hissued, hid, -⟩ := h
  obtain ⟨call, row, hlogged, hrow, -⟩ := hissued.owned
  rw [hid, ← hrow]
  exact hplain row hlogged.named.found

end Tokens

/-! ### Requests -/

/-- **Access needs a login.**  Whatever logins, refreshes and logouts have proceeded together, and whatever has become
of the users meanwhile: what the gateway forwards about an account, as the upstream reads it, comes from a caller for
whom a login has shown the password and a valid code, and the caller is the user of that account, or one of the staff
whose email is listed.  The four handlers that check nothing are left out. -/
theorem access_needs_login (config : Auth.AccessConfig) (turns : List AccessTurn)
    (hplain : ∀ row, Found turns row → Plain row.id) :
    ∃ replies world, Machine.run (Auth.accessProgram config).exec Auth.noSessions turns = .ok (replies, world) ∧
      ∀ access, SignedBy access world → ∀ request route forward, route.unchecked = false →
        receive access request route = .ok (.forward forward) → reach forward ≠ .nothing →
          ∃ caller, callerOf access request.authorization = some caller ∧ Genuine config turns caller ∧
            Entitled config turns caller (reach forward) := by
  obtain ⟨replies, world, hrun, hsourced⟩ := tokens_stem_from_logins config turns
  refine ⟨replies, world, hrun, fun access hsigned request route forward hroute h habout => ?_⟩
  have hcallers : ∀ caller, callerOf access request.authorization = some caller → Plain caller.userId :=
    fun caller hcaller => (genuine_of_callerOf hsourced hsigned hcaller).plain hplain
  have hallowed := handle_allowed hcallers hroute (receive_iff.mp h).2
  exact entitled_of_allowed hsourced hsigned hallowed habout

/-- An auth service with one email in its list of admins; a code is valid if it is the secret. -/
def oneAdmin : Auth.AccessConfig :=
  ⟨true, some "root@nexus, ada@nexus ", none, id, id, fun _ secret code => code = secret⟩

/-- The user with this email, who has a second factor. -/
def adaRow : Auth.Login.UserRow := ⟨⟨"ada@nexus", .active, some "123456"⟩, "user-1", ⟨"password"⟩⟩

/-- A login of this user while no other call proceeds. -/
def adaLogsIn : List AccessTurn :=
  .enter (.login ⟨⟨"ada@nexus", "password", some "123456"⟩, "127.0.0.1", 0, "session-1", "refresh-1"⟩) ::
    (List.replicate 4 [.perform 0 ⟨1000, [adaRow]⟩, .resume 0]).flatten

/-- A gateway that knows the token of this login. -/
def adaGateway : AccessConfig where
  jwtSecret := some "secret"
  verify := fun text secret =>
    if text = "ada-token" ∧ secret = "secret" then some ⟨some "user-1", some "session-1", ["user", "admin"]⟩ else none
  apiKeySecret := none
  hmac := fun _ text => text
  serviceAuthToken := none

/-- She changes the tier of somebody else. -/
def adaRequest : Request := ⟨some "Bearer ada-token", none, none, none, "PATCH", "/api/v3/users/user-2/tier/vip", 0⟩

theorem access_needs_login_ada :
    ∃ forward, receive adaGateway adaRequest (.setTier "user-2" "vip") = .ok (.forward forward) ∧
      reach forward = .staff ∧ ∃ caller, callerOf adaGateway adaRequest.authorization = some caller ∧
        Genuine oneAdmin adaLogsIn caller ∧ OfStaff oneAdmin adaLogsIn caller := by
  have hplain : ∀ row, Found adaLogsIn row → Plain row.id := by
    rintro row ⟨pos, moment, hturn, hrow⟩
    simp [adaLogsIn] at hturn
    obtain ⟨-, rfl⟩ := hturn
    rw [List.mem_singleton.mp hrow]
    exact ⟨by decide, by decide⟩
  obtain ⟨replies, world, hrun, hentitled⟩ := access_needs_login oneAdmin adaLogsIn hplain
  have hends : (Machine.run (Auth.accessProgram oneAdmin).exec Auth.noSessions adaLogsIn).map
      (fun r => r.2.threads.map Thread.progress)
        = .ok [.finished (.login (.loggedIn ⟨"user-1", "session-1", ["user", "admin"]⟩ "refresh-1" "session-1"))] := by
    decide +kernel
  rw [hrun] at hends
  have hthreads := Except.ok.inj hends
  have hsigned : SignedBy adaGateway world := by
    intro secret text payload hsecret hpayload
    obtain ⟨thread, hthread, hfinished⟩ := List.mem_map.mp (hthreads ▸ List.mem_singleton.mpr rfl)
    refine ⟨thread, hthread, _, _, hfinished, ⟨_, _, .inl rfl⟩, ?_⟩
    simp only [adaGateway] at hpayload
    split at hpayload
    · exact (Option.some.inj hpayload).symm
    · cases hpayload
  have hreceived : ∃ forward, receive adaGateway adaRequest (.setTier "user-2" "vip") = .ok (.forward forward) ∧
      reach forward = .staff := by
    refine ⟨_, rfl, ?_⟩
    decide +kernel
  obtain ⟨forward, hforward, hreach⟩ := hreceived
  obtain ⟨caller, hcaller, hgenuine, hstaff⟩ :=
    hentitled adaGateway hsigned adaRequest _ forward rfl hforward (by rw [hreach]; decide)
  rw [hreach] at hstaff
  exact ⟨forward, hforward, hreach, caller, hcaller, hgenuine, hstaff⟩

end NexusTrade.Gateway
