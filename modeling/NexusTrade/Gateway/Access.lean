import NexusTrade.Gateway.Upstreams
import NexusTrade.Lib.Run

/-!
# Access through the gateway

The services behind the gateway take its requests without a check of their own, so that what a caller may do is what
the gateway forwards.

* **`Allowed`**: what a caller may reach, and **`Admitted`**: what the caller of a request may ask for;
* **`Route.unchecked`**: the handlers that look at neither the caller nor the account;
* **`handle_allowed`**: a handler that checks forwards nothing that its caller may not reach;
* **`handle_iff`**: a handler refuses nothing else;
* **`gateway_enforces_policy`**: both, for requests that go through the guard.
-/

namespace NexusTrade.Gateway

/-! ### What a caller may reach -/

/-- The caller behind an `authorization` header, if its token is valid. -/
def callerOf (config : AccessConfig) (authorization : Option String) : Option Caller :=
  (currentUserFromAuthorization config authorization).toOption

/-- **The policy**: an account is its user's and the staff's, and everything else about accounts the staff's. -/
def Allowed (caller : Option Caller) : Reach → Prop
  | .nothing => True
  | .account userId => ∃ user, caller = some user ∧ (user.userId = userId ∨ hasPrivilegedRole user.roles = true)
  | .staff => ∃ user, caller = some user ∧ hasPrivilegedRole user.roles = true

theorem Allowed.of_privileged {caller : Option Caller} {user : Caller} (hcaller : caller = some user)
    (hrole : hasPrivilegedRole user.roles = true) (reach : Reach) : Allowed caller reach := by
  cases reach with
  | nothing => trivial
  | account userId => exact ⟨user, hcaller, .inr hrole⟩
  | staff => exact ⟨user, hcaller, hrole⟩

/-- The handlers that pass a request on for whoever it is, once the guard has let it through. -/
def Route.unchecked : Route → Bool
  | .evaluateRisk _ | .screenCompliance _ | .enqueueNotification _ | .listNotifications => true
  | _ => false

/-! ### The checks -/

section Checks

variable {config : AccessConfig} {authorization : Option String}

theorem callerOf_ok {user : Caller} (h : currentUserFromAuthorization config authorization = .ok user) :
    callerOf config authorization = some user := by
  rw [callerOf, h]
  rfl

theorem current_of_callerOf {user : Caller} (h : callerOf config authorization = some user) :
    currentUserFromAuthorization config authorization = .ok user := by
  rw [callerOf] at h
  cases hcurrent : currentUserFromAuthorization config authorization with
  | error e =>
      rw [hcurrent] at h
      cases h
  | ok found =>
      rw [hcurrent] at h
      exact congrArg Except.ok (Option.some.inj h)

/-- The check of a role lets the staff through. -/
theorem requirePrivilegedRole_iff :
    requirePrivilegedRole config authorization = .ok () ↔ Allowed (callerOf config authorization) .staff := by
  constructor
  · intro h
    obtain ⟨user, huser, hrole⟩ := bind_eq_ok.mp h
    cases hprivileged : hasPrivilegedRole user.roles with
    | true => exact ⟨user, callerOf_ok huser, hprivileged⟩
    | false =>
        rw [hprivileged] at hrole
        cases hrole
  · rintro ⟨user, huser, hrole⟩
    refine bind_eq_ok.mpr ⟨user, current_of_callerOf huser, ?_⟩
    rw [hrole]
    rfl

/-- The check of an account lets its user and the staff through. -/
theorem assertSelfOrPrivileged_iff {target : String} :
    assertSelfOrPrivileged config authorization target = .ok () ↔
      target ≠ "" ∧ Allowed (callerOf config authorization) (.account target) := by
  by_cases htarget : target = ""
  · rw [assertSelfOrPrivileged, if_pos htarget]
    refine iff_of_false ?_ fun h => h.1 htarget
    intro h
    cases h
  rw [assertSelfOrPrivileged, if_neg htarget]
  refine Iff.trans ?_ (and_iff_right htarget).symm
  constructor
  · intro h
    obtain ⟨user, huser, hself⟩ := bind_eq_ok.mp h
    refine ⟨user, callerOf_ok huser, ?_⟩
    by_cases hid : user.userId = target
    · exact .inl hid
    right
    cases hrole : hasPrivilegedRole user.roles with
    | true => rfl
    | false =>
        rw [if_pos ⟨hid, hrole⟩] at hself
        cases hself
  · rintro ⟨user, huser, hself⟩
    refine bind_eq_ok.mpr ⟨user, current_of_callerOf huser, ?_⟩
    have hneither : ¬(user.userId ≠ target ∧ hasPrivilegedRole user.roles = false) := by
      rintro ⟨hid, hrole⟩
      rcases hself with h | h
      · exact hid h
      · rw [hrole] at h
        cases h
    rw [if_neg hneither]

/-- What is about the account that has been checked is allowed. -/
theorem allowed_of_self (hplain : ∀ user, callerOf config authorization = some user → Plain user.userId)
    {target : String} (h : assertSelfOrPrivileged config authorization target = .ok ()) {reached : Reach}
    (hreached : Plain target → target ≠ "" → reached = .account target ∨ reached = .nothing) :
    Allowed (callerOf config authorization) reached := by
  obtain ⟨htarget, user, huser, hself⟩ := assertSelfOrPrivileged_iff.mp h
  rcases hself with hself | hrole
  · rcases hreached (hself ▸ hplain user huser) htarget with hr | hr
    · rw [hr]
      exact ⟨user, huser, .inl hself⟩
    · rw [hr]
      trivial
  · exact Allowed.of_privileged huser hrole reached

theorem allowed_of_staff (h : requirePrivilegedRole config authorization = .ok ()) (reached : Reach) :
    Allowed (callerOf config authorization) reached := by
  obtain ⟨user, huser, hrole⟩ := requirePrivilegedRole_iff.mp h
  exact Allowed.of_privileged huser hrole reached

/-- The account that a body names is the one that the gateway has checked. -/
theorem namedIn_checked (body : Body) :
    namedIn (some body) = .account (nullish (field body "userId") (.string "")).text ∨
      namedIn (some body) = .nothing := by
  rw [namedIn, Option.bind_some, stringField]
  cases field body "userId" with
  | none => exact .inr rfl
  | some value =>
      cases value with
      | string userId => exact .inl rfl
      | _ => exact .inr rfl

end Checks

/-! ### The handlers -/

section Handlers

variable {config : AccessConfig} {request : Request}

theorem forUser_ok {userId : String} {handled result : Handled}
    (h : forUser config request userId handled = .ok result) :
    assertSelfOrPrivileged config request.authorization userId = .ok () ∧ handled = result := by
  obtain ⟨_, hself, hresult⟩ := bind_eq_ok.mp h
  exact ⟨hself, Except.ok.inj hresult⟩

theorem forStaff_ok {handled result : Handled} (h : forStaff config request handled = .ok result) :
    requirePrivilegedRole config request.authorization = .ok () ∧ handled = result := by
  obtain ⟨_, hstaff, hresult⟩ := bind_eq_ok.mp h
  exact ⟨hstaff, Except.ok.inj hresult⟩

theorem forBody_ok {body : Body} {handled result : Handled}
    (h : forBody config request body handled = .ok result) :
    assertSelfOrPrivileged config request.authorization (nullish (field body "userId") (.string "")).text = .ok () ∧
      handled = result := by
  obtain ⟨_, hself, hresult⟩ := bind_eq_ok.mp h
  exact ⟨hself, Except.ok.inj hresult⟩

/-- A handler for the account in its address forwards nothing about another one. -/
theorem allowed_forUser (hplain : ∀ user, callerOf config request.authorization = some user → Plain user.userId)
    {userId : String} {sent forward : Forwarded}
    (h : forUser config request userId (.forward sent) = .ok (.forward forward))
    (hreach : Plain userId → userId ≠ "" → reach sent = .account userId ∨ reach sent = .nothing) :
    Allowed (callerOf config request.authorization) (reach forward) := by
  obtain ⟨hself, hsent⟩ := forUser_ok h
  rw [← Handled.forward.inj hsent]
  exact allowed_of_self hplain hself hreach

theorem allowed_forStaff {sent forward : Forwarded}
    (h : forStaff config request (.forward sent) = .ok (.forward forward)) :
    Allowed (callerOf config request.authorization) (reach forward) :=
  allowed_of_staff (forStaff_ok h).1 (reach forward)

/-- A handler for the account in its body forwards nothing about another one. -/
theorem allowed_forBody (hplain : ∀ user, callerOf config request.authorization = some user → Plain user.userId)
    {body : Body} {sent forward : Forwarded}
    (h : forBody config request body (.forward sent) = .ok (.forward forward))
    (hreach : reach sent = namedIn (some body)) :
    Allowed (callerOf config request.authorization) (reach forward) := by
  obtain ⟨hself, hsent⟩ := forBody_ok h
  rw [← Handled.forward.inj hsent, hreach]
  exact allowed_of_self hplain hself fun _ _ => namedIn_checked body

/-- A list of the entries of an account, or of all, is for its user or the staff. -/
theorem allowed_listFor (hplain : ∀ user, callerOf config request.authorization = some user → Plain user.userId)
    {base : Upstream} {path : String} {userId : Option String} {forward : Forwarded}
    (h : listFor config request base path userId = .ok (.forward forward)) (hpath : '?' ∉ path.toList)
    (hreach : ∀ target, ∀ headers, reach ⟨base, "GET", path ++ "?userId=" ++ encodeURIComponent target, headers, none⟩
      = listed (path ++ "?userId=" ++ encodeURIComponent target)) :
    Allowed (callerOf config request.authorization) (reach forward) := by
  rw [listFor] at h
  cases huser : configured userId with
  | none =>
      rw [huser] at h
      obtain ⟨_, hstaff, _⟩ := bind_eq_ok.mp h
      exact allowed_of_staff hstaff (reach forward)
  | some target =>
      rw [huser] at h
      obtain ⟨_, hself, hsent⟩ := bind_eq_ok.mp h
      rw [← Handled.forward.inj (Except.ok.inj hsent), hreach]
      refine allowed_of_self hplain hself fun _ htarget => .inl ?_
      exact listed_encode hpath htarget

/-- The user of a token is its caller. -/
theorem userId_iff {authorization : Option String} {userId : String} :
    userIdFromAuthorization config authorization = .ok (some userId) ↔
      ∃ user, callerOf config authorization = some user ∧ user.userId = userId := by
  rw [userIdFromAuthorization, callerOf, currentUserFromAuthorization]
  cases configured (extractBearerToken authorization) with
  | none => simp [Except.toOption]
  | some token => cases hverified : verifyJwtToken config token <;> simp [hverified, Except.toOption, Except.map]

/-- `account` forwards nothing about another account. -/
theorem allowed_account (hplain : ∀ user, callerOf config request.authorization = some user → Plain user.userId)
    {queryUserId : Option String} {forward : Forwarded}
    (h : account config request queryUserId = .ok (.forward forward)) :
    Allowed (callerOf config request.authorization) (reach forward) := by
  cases queryUserId with
  | some target =>
      by_cases htarget : target = ""
      · subst htarget
        cases h
      · have hconfigured : configured (some target) = some target := by simp [configured, htarget]
        simp only [account, ok_bind, hconfigured] at h
        obtain ⟨_, hself, hsent⟩ := bind_eq_ok.mp h
        refine allowed_of_self hplain hself fun hp hne => .inl ?_
        rw [← Handled.forward.inj (Except.ok.inj hsent)]
        exact reach_wallet _ hp hne
  | none =>
      obtain ⟨userId, huser, h⟩ := bind_eq_ok.mp h
      cases userId with
      | none => cases h
      | some target =>
          by_cases htarget : target = ""
          · subst htarget
            cases h
          · have hconfigured : configured (some target) = some target := by simp [configured, htarget]
            obtain ⟨user, hcaller, hid⟩ := userId_iff.mp huser
            simp only [hconfigured] at h
            rw [← Handled.forward.inj (Except.ok.inj h), reach_wallet _ (hid ▸ hplain user hcaller) htarget]
            exact ⟨user, hcaller, .inl hid⟩

/-- `placeOrder` forwards no order of another account. -/
theorem allowed_placeOrder (hplain : ∀ user, callerOf config request.authorization = some user → Plain user.userId)
    {body : Body} {forward : Forwarded} (h : placeOrder config request body = .ok (.forward forward)) :
    Allowed (callerOf config request.authorization) (reach forward) := by
  obtain ⟨found, _, h⟩ := bind_eq_ok.mp h
  cases hfound : configured found with
  | none =>
      rw [hfound] at h
      cases h
  | some userId =>
      rw [hfound] at h
      obtain ⟨_, hself, hsent⟩ := bind_eq_ok.mp h
      rw [← Handled.forward.inj (Except.ok.inj hsent)]
      exact allowed_of_self hplain hself fun _ _ => .inl (reach_order _ userId body)

/-- A handler that checks forwards nothing about another account. -/
theorem handle_allowed (hplain : ∀ user, callerOf config request.authorization = some user → Plain user.userId)
    {route : Route} (hchecked : route.unchecked = false) {forward : Forwarded}
    (h : handle config request route = .ok (.forward forward)) :
    Allowed (callerOf config request.authorization) (reach forward) := by
  cases route with
  | health => cases h
  | exchangeInfo => cases h
  | account queryUserId => exact allowed_account hplain h
  | placeOrder body => exact allowed_placeOrder hplain h
  | ticker symbol | depth symbol =>
      rw [← Handled.forward.inj (Except.ok.inj h)]
      trivial
  | evaluateRisk body | screenCompliance body | enqueueNotification body | listNotifications => cases hchecked
  | insuranceFund =>
      rw [← Handled.forward.inj (Except.ok.inj h), reach_open _ (by decide)]
      trivial
  | regulatoryMatrix =>
      rw [← Handled.forward.inj (Except.ok.inj h), reach_open _ (by decide)]
      trivial
  | register body =>
      rw [← Handled.forward.inj (Except.ok.inj h), reach_auth _ (by decide)]
      trivial
  | login body =>
      rw [← Handled.forward.inj (Except.ok.inj h), reach_auth _ (by decide)]
      trivial
  | credit body => exact allowed_forStaff h
  | reviewKyc userId status => exact allowed_forStaff h
  | setTier userId tier => exact allowed_forStaff h
  | confirmDeposit id confirmations => exact allowed_forStaff h
  | approveWithdrawal id body => exact allowed_forStaff h
  | rejectWithdrawal id body => exact allowed_forStaff h
  | getUserProfile userId =>
      refine allowed_forUser hplain h fun hp hne => .inl ?_
      exact reach_user _ "profile" (by decide) (by decide) _ _ hp hne
  | upsertUserProfile userId body =>
      refine allowed_forUser hplain h fun hp hne => .inl ?_
      exact reach_user _ "profile" (by decide) (by decide) _ _ hp hne
  | submitKyc userId body =>
      refine allowed_forUser hplain h fun hp hne => .inl ?_
      exact reach_user _ "kyc" (by decide) (by decide) _ _ hp hne
  | addAddressBookEntry userId body =>
      refine allowed_forUser hplain h fun hp hne => .inl ?_
      exact reach_user _ "address-book" (by decide) (by decide) _ _ hp hne
  | addReferral userId referredUserId =>
      exact allowed_forUser hplain h fun hp _ => reach_referral hp referredUserId
  | depositAddress body => exact allowed_forBody hplain h (reach_depositAddress _ body)
  | simulateDeposit body => exact allowed_forBody hplain h (reach_simulateDeposit _ body)
  | requestWithdrawal body => exact allowed_forBody hplain h (reach_requestWithdrawal _ body)
  | whitelistWithdrawalAddress userId body =>
      exact allowed_forUser hplain h fun hp hne => .inl (reach_whitelist _ _ hp hne)
  | listDeposits userId =>
      exact allowed_listFor hplain h (by decide) fun target headers => reach_listDeposits headers target
  | listWithdrawals userId =>
      exact allowed_listFor hplain h (by decide) fun target headers => reach_listWithdrawals headers target

/-! ### What a route asks for -/

/-- The account that an order or a look at the balances is for, if the request does not name one. -/
def ownAccount (config : AccessConfig) (request : Request) : String :=
  ((callerOf config request.authorization).map Caller.userId).getD ""

/-- Whose account a request asks for. -/
def asked (config : AccessConfig) (request : Request) : Route → Reach
  | .account queryUserId => .account (queryUserId.getD (ownAccount config request))
  | .placeOrder body => .account ((stringField body "userId").getD (ownAccount config request))
  | .getUserProfile userId => .account userId
  | .upsertUserProfile userId _ => .account userId
  | .submitKyc userId _ => .account userId
  | .addReferral userId _ => .account userId
  | .addAddressBookEntry userId _ => .account userId
  | .whitelistWithdrawalAddress userId _ => .account userId
  | .depositAddress body => .account (nullish (field body "userId") (.string "")).text
  | .simulateDeposit body => .account (nullish (field body "userId") (.string "")).text
  | .requestWithdrawal body => .account (nullish (field body "userId") (.string "")).text
  | .listDeposits userId => (configured userId).elim .staff .account
  | .listWithdrawals userId => (configured userId).elim .staff .account
  | .credit _ => .staff
  | .reviewKyc _ _ => .staff
  | .setTier _ _ => .staff
  | .confirmDeposit _ _ => .staff
  | .approveWithdrawal _ _ => .staff
  | .rejectWithdrawal _ _ => .staff
  | .evaluateRisk body => namedIn (some body)
  | .screenCompliance body => namedIn (some body)
  | .enqueueNotification _ => .staff
  | .listNotifications => .staff
  | _ => .nothing

/-- What the policy lets through; the empty text is no account. -/
def Admitted (config : AccessConfig) (request : Request) (route : Route) : Prop :=
  asked config request route ≠ .account "" ∧ Allowed (callerOf config request.authorization) (asked config request route)

theorem forUser_iff {userId : String} {handled : Handled} :
    (∃ result, forUser config request userId handled = .ok result) ↔
      Reach.account userId ≠ .account "" ∧ Allowed (callerOf config request.authorization) (.account userId) := by
  rw [Ne, Reach.account.injEq, ← Ne, ← assertSelfOrPrivileged_iff]
  constructor
  · rintro ⟨_, h⟩
    exact (forUser_ok h).1
  · intro h
    exact ⟨handled, bind_eq_ok.mpr ⟨(), h, rfl⟩⟩

theorem forBody_iff {body : Body} {handled : Handled} :
    (∃ result, forBody config request body handled = .ok result) ↔
      Reach.account (nullish (field body "userId") (.string "")).text ≠ .account "" ∧
        Allowed (callerOf config request.authorization)
          (.account (nullish (field body "userId") (.string "")).text) :=
  forUser_iff

theorem forStaff_iff {handled : Handled} :
    (∃ result, forStaff config request handled = .ok result) ↔
      Reach.staff ≠ .account "" ∧ Allowed (callerOf config request.authorization) .staff := by
  rw [← requirePrivilegedRole_iff, and_iff_right (by decide)]
  constructor
  · rintro ⟨_, h⟩
    exact (forStaff_ok h).1
  · intro h
    exact ⟨handled, bind_eq_ok.mpr ⟨(), h, rfl⟩⟩

theorem listFor_iff {base : Upstream} {path : String} {userId : Option String} :
    (∃ result, listFor config request base path userId = .ok result) ↔
      (configured userId).elim .staff Reach.account ≠ .account "" ∧
        Allowed (callerOf config request.authorization) ((configured userId).elim .staff .account) := by
  rw [listFor]
  cases huser : configured userId with
  | none => exact forStaff_iff
  | some target => exact forUser_iff

/-- The user of the token, if the request names none. -/
theorem ownAccount_cases :
    (∃ user, callerOf config request.authorization = some user ∧ ownAccount config request = user.userId ∧
      userIdFromAuthorization config request.authorization = .ok (some user.userId)) ∨
    (ownAccount config request = "" ∧
      ∀ userId, userIdFromAuthorization config request.authorization ≠ .ok (some userId)) := by
  cases hcaller : callerOf config request.authorization with
  | some user =>
      refine .inl ⟨user, rfl, ?_, userId_iff.mpr ⟨user, hcaller, rfl⟩⟩
      rw [ownAccount, hcaller]
      rfl
  | none =>
      right
      constructor
      · rw [ownAccount, hcaller]
        rfl
      · intro userId h
        obtain ⟨user, huser, _⟩ := userId_iff.mp h
        rw [hcaller] at huser
        cases huser

theorem configured_of_ne {value : String} (h : value ≠ "") : configured (some value) = some value := by
  simp [configured, h]

theorem account_iff {queryUserId : Option String} :
    (∃ result, account config request queryUserId = .ok result) ↔
      Reach.account (queryUserId.getD (ownAccount config request)) ≠ .account "" ∧
        Allowed (callerOf config request.authorization) (.account (queryUserId.getD (ownAccount config request))) := by
  cases queryUserId with
  | some target =>
      by_cases htarget : target = ""
      · subst htarget
        refine iff_of_false ?_ fun h => h.1 rfl
        rintro ⟨result, h⟩
        cases h
      · refine Iff.trans ?_ (@forUser_iff config request target
          (get config .wallet ("/wallets/" ++ encodeURIComponent target) request.authorization request.requestId))
        simp only [account, ok_bind, configured_of_ne htarget]
        rfl
  | none =>
      rw [Option.getD_none]
      rcases @ownAccount_cases config request with ⟨user, hcaller, hown, hread⟩ | ⟨hown, hnone⟩
      · rw [hown, account, hread]
        by_cases huser : user.userId = ""
        · rw [huser]
          refine iff_of_false ?_ fun h => h.1 rfl
          rintro ⟨result, h⟩
          cases h
        · refine iff_of_true ?_ ⟨fun h => huser (Reach.account.inj h), user, hcaller, .inl rfl⟩
          simp only [ok_bind, configured_of_ne huser]
          exact ⟨_, rfl⟩
      · rw [hown]
        refine iff_of_false ?_ fun h => h.1 rfl
        rintro ⟨result, h⟩
        obtain ⟨found, hfound, h⟩ := bind_eq_ok.mp h
        cases found with
        | none => cases h
        | some userId => exact hnone userId hfound

theorem placeOrder_of_user {body : Body} {userId : String}
    (h : orderUser config request body = .ok (some userId)) :
    (∃ result, placeOrder config request body = .ok result) ↔
      Reach.account userId ≠ .account "" ∧ Allowed (callerOf config request.authorization) (.account userId) := by
  by_cases huser : userId = ""
  · subst huser
    refine iff_of_false ?_ fun h => h.1 rfl
    rintro ⟨result, hplaced⟩
    rw [placeOrder, h] at hplaced
    cases hplaced
  · have hplace : placeOrder config request body = forUser config request userId
        (post config .trading "/orders" (orderBody userId body) request.authorization request.requestId) := by
      rw [placeOrder, h, ok_bind, configured_of_ne huser]
      rfl
    rw [hplace]
    exact forUser_iff

theorem placeOrder_iff {body : Body} :
    (∃ result, placeOrder config request body = .ok result) ↔
      Reach.account ((stringField body "userId").getD (ownAccount config request)) ≠ .account "" ∧
        Allowed (callerOf config request.authorization)
          (.account ((stringField body "userId").getD (ownAccount config request))) := by
  cases hnamed : stringField body "userId" with
  | some userId =>
      have huser : orderUser config request body = .ok (some userId) := by
        rw [orderUser, hnamed]
      rw [Option.getD_some]
      exact placeOrder_of_user huser
  | none =>
      rw [Option.getD_none]
      rcases @ownAccount_cases config request with ⟨user, hcaller, hown, hread⟩ | ⟨hown, hnone⟩
      · have huser : orderUser config request body = .ok (some user.userId) := by
          rw [orderUser, hnamed, hread]
        rw [hown]
        exact placeOrder_of_user huser
      · rw [hown, placeOrder, orderUser, hnamed]
        refine iff_of_false ?_ fun h => h.1 rfl
        rintro ⟨result, h⟩
        obtain ⟨found, hfound, h⟩ := bind_eq_ok.mp h
        cases found with
        | none => cases h
        | some userId => exact hnone userId hfound

/-- A handler that does not check forwards a request as it is, and the upstream reads it as it was asked. -/
theorem handle_unchecked {route : Route} (hroute : route.unchecked = true) :
    ∃ forward, handle config request route = .ok (.forward forward) ∧ reach forward = asked config request route := by
  cases route with
  | evaluateRisk body => exact ⟨_, rfl, reach_evaluateRisk _ body⟩
  | screenCompliance body => exact ⟨_, rfl, reach_screenCompliance _ body⟩
  | enqueueNotification body => exact ⟨_, rfl, reach_notifications _ "POST" (some body)⟩
  | listNotifications => exact ⟨_, rfl, reach_notifications _ "GET" none⟩
  | _ => cases hroute

/-- A handler that checks refuses what the policy refuses, and nothing else. -/
theorem handle_iff {route : Route} (hchecked : route.unchecked = false) :
    (∃ result, handle config request route = .ok result) ↔ Admitted config request route := by
  have hopen : ∀ result : Handled, (∃ found, (Except.ok result : Except ServiceError Handled) = .ok found) ↔
      Reach.nothing ≠ .account "" ∧ Allowed (callerOf config request.authorization) .nothing :=
    fun result => iff_of_true ⟨result, rfl⟩ ⟨by decide, trivial⟩
  cases route with
  | account queryUserId => exact account_iff
  | placeOrder body => exact placeOrder_iff
  | listDeposits userId => exact listFor_iff
  | listWithdrawals userId => exact listFor_iff
  | getUserProfile userId => exact forUser_iff
  | upsertUserProfile userId body => exact forUser_iff
  | submitKyc userId body => exact forUser_iff
  | addReferral userId referredUserId => exact forUser_iff
  | addAddressBookEntry userId body => exact forUser_iff
  | whitelistWithdrawalAddress userId body => exact forUser_iff
  | depositAddress body => exact forBody_iff
  | simulateDeposit body => exact forBody_iff
  | requestWithdrawal body => exact forBody_iff
  | credit body => exact forStaff_iff
  | reviewKyc userId status => exact forStaff_iff
  | setTier userId tier => exact forStaff_iff
  | confirmDeposit id confirmations => exact forStaff_iff
  | approveWithdrawal id body => exact forStaff_iff
  | rejectWithdrawal id body => exact forStaff_iff
  | evaluateRisk body | screenCompliance body | enqueueNotification body | listNotifications => cases hchecked
  | _ => exact hopen _

end Handlers

/-! ### Requests -/

theorem receive_iff {config : AccessConfig} {request : Request} {route : Route} {handled : Handled} :
    receive config request route = .ok handled ↔
      canActivate config route.isPublic request = .ok () ∧ handle config request route = .ok handled := by
  constructor
  · intro h
    obtain ⟨_, hguard, hhandled⟩ := bind_eq_ok.mp h
    exact ⟨hguard, hhandled⟩
  · intro h
    exact bind_eq_ok.mpr ⟨(), h.1, h.2⟩

/-- **The gateway enforces the policy.**  A request that passes the guard is answered exactly if the policy lets its
caller do what it asks for; and whatever it is, what is forwarded for it is, as the upstream reads it, about an
account that its caller may reach.  Four handlers are left out of the policy: with them whatever passes the guard is
forwarded, about the account that it asks for. -/
theorem gateway_enforces_policy (config : AccessConfig) (request : Request) (route : Route) :
    ((∃ handled, receive config request route = .ok handled) ↔
      canActivate config route.isPublic request = .ok () ∧
        (route.unchecked = true ∨ Admitted config request route)) ∧
    (route.unchecked = false → (∀ user, callerOf config request.authorization = some user → Plain user.userId) →
      ∀ forward, receive config request route = .ok (.forward forward) →
        Allowed (callerOf config request.authorization) (reach forward)) ∧
    (route.unchecked = true → ∀ forward, receive config request route = .ok (.forward forward) →
      reach forward = asked config request route) := by
  refine ⟨?_, ?_, ?_⟩
  · have hhandle : (∃ handled, handle config request route = .ok handled) ↔
        route.unchecked = true ∨ Admitted config request route := by
      cases hroute : route.unchecked with
      | true =>
          obtain ⟨sent, hsent, _⟩ := @handle_unchecked config request route hroute
          exact iff_of_true ⟨_, hsent⟩ (.inl rfl)
      | false =>
          rw [handle_iff hroute]
          exact ⟨.inr, fun h => h.resolve_left Bool.false_ne_true⟩
    rw [← hhandle]
    constructor
    · rintro ⟨handled, h⟩
      obtain ⟨hguard, hhandled⟩ := receive_iff.mp h
      exact ⟨hguard, handled, hhandled⟩
    · rintro ⟨hguard, handled, hhandled⟩
      exact ⟨handled, receive_iff.mpr ⟨hguard, hhandled⟩⟩
  · intro hroute hplain forward h
    exact handle_allowed hplain hroute (receive_iff.mp h).2
  · intro hroute forward h
    obtain ⟨sent, hsent, hreach⟩ := @handle_unchecked config request route hroute
    have hforward := (receive_iff.mp h).2
    rw [hsent] at hforward
    rw [← Handled.forward.inj (Except.ok.inj hforward)]
    exact hreach

/-- A gateway that knows one user. -/
def aliceConfig : AccessConfig where
  jwtSecret := some "secret"
  verify := fun token _ => if token = "alice-token" then some ⟨some "alice", none, ["user"]⟩ else none
  apiKeySecret := none
  hmac := fun _ text => text
  serviceAuthToken := none

/-- A request of this user. -/
def aliceRequest : Request := ⟨some "Bearer alice-token", none, none, none, "POST", "/api/v3/users", 0⟩

theorem callerOf_alice : callerOf aliceConfig aliceRequest.authorization = some ⟨"alice", none, ["user"]⟩ := by
  decide

/-- What the gateway forwards for a referral of the user above all users, which has no route. -/
def aliceForward : Forwarded where
  base := .user
  method := "POST"
  path := "/users/" ++ encodeURIComponent "alice" ++ "/referrals/" ++ encodeURIComponent ".."
  headers := ("content-type", "application/json") ::
    forwardHeaders aliceConfig aliceRequest.authorization aliceRequest.requestId
  body := some []

theorem gateway_enforces_policy_alice :
    receive aliceConfig aliceRequest (.addReferral "alice" "..") = .ok (.forward aliceForward) ∧
      Allowed (callerOf aliceConfig aliceRequest.authorization) (reach aliceForward) := by
  have hguard : canActivate aliceConfig false aliceRequest = .ok () := by rfl
  have hself : assertSelfOrPrivileged aliceConfig aliceRequest.authorization "alice" = .ok () :=
    assertSelfOrPrivileged_iff.mpr ⟨by decide, _, callerOf_alice, .inl rfl⟩
  have hreceived : receive aliceConfig aliceRequest (.addReferral "alice" "..") = .ok (.forward aliceForward) :=
    bind_eq_ok.mpr ⟨(), hguard, bind_eq_ok.mpr ⟨(), hself, rfl⟩⟩
  have hplain : ∀ user, callerOf aliceConfig aliceRequest.authorization = some user → Plain user.userId := by
    intro user huser
    rw [callerOf_alice] at huser
    obtain rfl := Option.some.inj huser
    exact ⟨by decide, by decide⟩
  have hpolicy := (gateway_enforces_policy aliceConfig aliceRequest (.addReferral "alice" "..")).2.1
  exact ⟨hreceived, hpolicy rfl hplain aliceForward hreceived⟩

end NexusTrade.Gateway
