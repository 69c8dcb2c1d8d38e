import NexusTrade.Lib.Run
import NexusTrade.Lib.SortedMap
import NexusTrade.Shared.Domain

/-!
# The second factor

`setupTotp` and `verifyTotpForUser` of `services/auth-service/src/services/auth.service.ts`.

The secret that a setup draws and the time come with the call.  Whether a code is valid for a secret is a parameter,
and so is the address that a secret is handed out with.

* **`AuthService.setupTotp`**, **`AuthService.verifyTotpForUser`**: the two operations;
* **`Watched`** remembers which users have shown a code of their secret since it last changed;
* **`HoldsOut`** says what a second factor is for, **`Unmixed`** is the condition on a call, and
  **`holdsOut_iff`** says that a run meets the first exactly where it meets the second.
-/

namespace NexusTrade.Auth

/-! ### The service -/

/-- A row of the users, without its identifier. -/
structure UserEntity where
  email : String
  status : UserStatus
  totpSecret : Option String
  deriving DecidableEq

/-- A setup that is not verified yet; the time is in milliseconds. -/
structure PendingTotp where
  secret : String
  expiresAt : ℤ
  deriving DecidableEq

/-- `AuthService`: the users by identifier, and `pendingTotpSecrets`. -/
structure AuthService where
  users : SortedMap String UserEntity
  pendingTotpSecrets : SortedMap String PendingTotp
  deriving DecidableEq

structure TotpVerifyDto where
  userId : Option String
  code : String
  deriving DecidableEq

/-- A string that is not empty, as `!value` of the source tells. -/
def present (value : Option String) : Option String := value.filter (· ≠ "")

/-- What an operation returns. -/
inductive TotpReply
  | setup (secret uri : String) (expiresInSeconds : ℕ)
  | verified (verified : Bool)
  deriving DecidableEq

variable (valid : String → String → Bool) (toUri : String → String → String)

namespace AuthService

/-- `setupTotp`. -/
def setupTotp (service : AuthService) (secret : String) (now : ℤ) (userId : String) :
    Except ServiceError TotpReply × AuthService :=
  match service.users.find userId with
  | none => (.error (.http 404 "user not found"), service)
  | some user =>
    (.ok (.setup secret (toUri user.email secret) 600),
      { service with
        pendingTotpSecrets := service.pendingTotpSecrets.insert userId ⟨secret, now + 10 * 60 * 1000⟩ })

/-- `verifyTotpForUser`. -/
def verifyTotpForUser (service : AuthService) (now : ℤ) (dto : TotpVerifyDto) :
    Except ServiceError TotpReply × AuthService :=
  match present dto.userId with
  | none => (.error (.http 401 "userId is required"), service)
  | some userId =>
    match service.users.find userId with
    | none => (.error (.http 404 "user not found"), service)
    | some user =>
      match service.pendingTotpSecrets.find userId with
      | some pending =>
        if pending.expiresAt ≤ now then
          (.error (.http 400 "pending totp setup expired"),
            { service with pendingTotpSecrets := service.pendingTotpSecrets.erase userId })
        else if valid pending.secret dto.code then
          (.ok (.verified true),
            { users := service.users.insert userId { user with totpSecret := some pending.secret }
              pendingTotpSecrets := service.pendingTotpSecrets.erase userId })
        else (.ok (.verified false), service)
      | none =>
        match present user.totpSecret with
        | none => (.error (.http 400 "totp not configured"), service)
        | some secret => (.ok (.verified (valid secret dto.code)), service)

end AuthService

/-- A call on the service. -/
inductive TotpCall
  | setupTotp (secret : String) (now : ℤ) (userId : String)
  | verifyTotpForUser (now : ℤ) (dto : TotpVerifyDto)
  deriving DecidableEq

/-- Make a call. -/
def AuthService.exec (service : AuthService) : TotpCall → Except ServiceError TotpReply × AuthService
  | .setupTotp secret now userId => service.setupTotp toUri secret now userId
  | .verifyTotpForUser now dto => service.verifyTotpForUser valid now dto

/-! ### What a second factor is for -/

/-- The secret of a user. -/
def AuthService.enrolled (service : AuthService) (userId : String) : Option String :=
  (service.users.find userId).bind fun user => present user.totpSecret

/-- The call shows a code of the secret of a user. -/
def AuthService.shows (service : AuthService) (userId : String) : TotpCall → Bool
  | .setupTotp _ _ _ => false
  | .verifyTotpForUser _ dto =>
    decide (present dto.userId = some userId) && (service.enrolled userId).any (valid · dto.code)

/-- The service, and whether a user has shown a code of the secret since it last changed. -/
structure Watched where
  service : AuthService
  shown : String → Bool

/-- Make a call and watch. -/
def Watched.exec (w : Watched) (call : TotpCall) : Except Empty (Except ServiceError TotpReply × Watched) :=
  let result := w.service.exec valid toUri call
  .ok (result.1, ⟨result.2, fun userId => decide (result.2.enrolled userId = w.service.enrolled userId) &&
    (w.shown userId || w.service.shows valid userId call)⟩)

/-- **What a second factor is for**: a request is verified for the codes of the secret of its user and for no others,
and a secret gives way only after one of its codes has been shown. -/
structure HoldsOut (w : Watched) (call : TotpCall) : Prop where
  verified : ∀ now dto userId secret, call = .verifyTotpForUser now dto → present dto.userId = some userId →
    w.service.enrolled userId = some secret →
    ((w.service.exec valid toUri call).1 = .ok (.verified true) ↔ valid secret dto.code = true)
  replaced : ∀ userId secret, w.service.enrolled userId = some secret →
    (w.service.exec valid toUri call).2.enrolled userId ≠ some secret →
    w.shown userId = true ∨ w.service.shows valid userId call = true

/-- **The condition on a call**: no setup is pending for a user with a secret who asks to be verified; or it has
expired, and the code is none of the secret; or the code is valid for both secrets or for neither. -/
def Unmixed (w : Watched) : TotpCall → Prop
  | .setupTotp _ _ _ => True
  | .verifyTotpForUser now dto => ∀ userId secret, present dto.userId = some userId →
    w.service.enrolled userId = some secret →
    match w.service.pendingTotpSecrets.find userId with
    | none => True
    | some pending =>
      if pending.expiresAt ≤ now then valid secret dto.code = false
      else valid pending.secret dto.code = valid secret dto.code

/-! ### One call -/

section Call

variable {w : Watched} {userId secret : String}

/-- The row of a user with a secret. -/
theorem AuthService.row_of_enrolled {service : AuthService} (h : service.enrolled userId = some secret) :
    ∃ user, service.users.find userId = some user ∧ present user.totpSecret = some secret := by
  rw [AuthService.enrolled, Option.bind_eq_some_iff] at h
  exact h

/-- What a user with a secret is answered. -/
theorem AuthService.verify_enrolled {service : AuthService} {now : ℤ} {dto : TotpVerifyDto}
    (huser : present dto.userId = some userId) (henrolled : service.enrolled userId = some secret) :
    (service.verifyTotpForUser valid now dto).1
      = match service.pendingTotpSecrets.find userId with
        | none => .ok (.verified (valid secret dto.code))
        | some pending =>
          if pending.expiresAt ≤ now then .error (.http 400 "pending totp setup expired")
          else .ok (.verified (valid pending.secret dto.code)) := by
  obtain ⟨user, hrow, hsecret⟩ := AuthService.row_of_enrolled henrolled
  rw [AuthService.verifyTotpForUser, huser]
  simp only [hrow]
  cases service.pendingTotpSecrets.find userId with
  | none => simp only [hsecret]
  | some pending =>
      by_cases hexpired : pending.expiresAt ≤ now
      · simp only [if_pos hexpired]
      · simp only [if_neg hexpired]
        cases hvalid : valid pending.secret dto.code <;> rfl

/-- **When a secret gives way**: its user is asked for a code while a setup is pending that has not expired, and the
code is one of the setup. -/
theorem AuthService.verify_replaces {service : AuthService} {now : ℤ} {dto : TotpVerifyDto}
    (henrolled : service.enrolled userId = some secret)
    (hchanged : (service.verifyTotpForUser valid now dto).2.enrolled userId ≠ some secret) :
    present dto.userId = some userId ∧ ∃ pending, service.pendingTotpSecrets.find userId = some pending ∧
      ¬pending.expiresAt ≤ now ∧ valid pending.secret dto.code = true := by
  rw [AuthService.verifyTotpForUser] at hchanged
  cases huser : present dto.userId with
  | none =>
      simp only [huser] at hchanged
      exact absurd henrolled hchanged
  | some asked =>
      simp only [huser] at hchanged
      cases hrow : service.users.find asked with
      | none =>
          simp only [hrow] at hchanged
          exact absurd henrolled hchanged
      | some user =>
          simp only [hrow] at hchanged
          cases hpending : service.pendingTotpSecrets.find asked with
          | none =>
              simp only [hpending] at hchanged
              cases hsecret : present user.totpSecret <;> simp only [hsecret] at hchanged <;>
                exact absurd henrolled hchanged
          | some pending =>
              simp only [hpending] at hchanged
              by_cases hexpired : pending.expiresAt ≤ now
              · rw [if_pos hexpired] at hchanged
                exact absurd henrolled hchanged
              · rw [if_neg hexpired] at hchanged
                cases hvalid : valid pending.secret dto.code with
                | false =>
                    rw [hvalid] at hchanged
                    exact absurd henrolled hchanged
                | true =>
                    rw [hvalid, if_pos rfl] at hchanged
                    -- only the row of the user who is asked for a code is written
                    obtain rfl : userId = asked := by
                      by_contra hne
                      refine hchanged ?_
                      rw [AuthService.enrolled, SortedMap.find_insert, if_neg hne]
                      exact henrolled
                    exact ⟨rfl, pending, hpending, hexpired, hvalid⟩

/-- **A call holds out exactly under the condition.** -/
theorem holdsOut_call (w : Watched) (call : TotpCall) : HoldsOut valid toUri w call ↔ Unmixed valid w call := by
  cases call with
  | setupTotp drawn now asked =>
      refine iff_of_true ⟨by simp, fun userId secret henrolled hchanged => ?_⟩ trivial
      refine absurd ?_ hchanged
      rw [AuthService.exec, AuthService.setupTotp]
      cases w.service.users.find asked <;> exact henrolled
  | verifyTotpForUser now dto =>
      constructor
      · intro h userId secret huser henrolled
        have hverified := h.verified now dto userId secret rfl huser henrolled
        rw [AuthService.exec, AuthService.verify_enrolled valid huser henrolled] at hverified
        cases hpending : w.service.pendingTotpSecrets.find userId with
        | none => trivial
        | some pending =>
            rw [hpending] at hverified
            by_cases hexpired : pending.expiresAt ≤ now
            · simp only [if_pos hexpired] at hverified ⊢
              exact Bool.eq_false_iff.mpr fun hvalid => by cases hverified.mpr hvalid
            · simp only [if_neg hexpired] at hverified ⊢
              rw [Bool.eq_iff_iff, ← hverified]
              constructor
              · intro hvalid
                rw [hvalid]
              · intro hreply
                injection hreply with hreply
                injection hreply
      · intro h
        refine ⟨?_, fun userId secret henrolled hchanged => Or.inr ?_⟩
        · intro now' dto' userId secret hcall huser henrolled
          cases hcall
          have hcondition := h userId secret huser henrolled
          rw [AuthService.exec, AuthService.verify_enrolled valid huser henrolled]
          cases hpending : w.service.pendingTotpSecrets.find userId with
          | none =>
              constructor
              · intro hreply
                injection hreply with hreply
                injection hreply
              · intro hvalid
                simp only [hvalid]
          | some pending =>
              rw [hpending] at hcondition
              by_cases hexpired : pending.expiresAt ≤ now
              · simp only [if_pos hexpired] at hcondition ⊢
                exact iff_of_false (by simp) (by rw [hcondition]; simp)
              · simp only [if_neg hexpired] at hcondition ⊢
                rw [hcondition]
                constructor
                · intro hreply
                  injection hreply with hreply
                  injection hreply
                · intro hvalid
                  rw [hvalid]
        · -- the code of the setup that takes over is a code of the secret that gives way
          obtain ⟨huser, pending, hpending, hexpired, hvalid⟩ :=
            AuthService.verify_replaces valid henrolled hchanged
          have hcondition := h userId secret huser henrolled
          rw [hpending] at hcondition
          simp only [if_neg hexpired] at hcondition
          rw [AuthService.shows, henrolled, decide_eq_true huser, Option.any_some, ← hcondition, hvalid]
          rfl

end Call

/-! ### Runs -/

/-- **A second factor holds out** in a run exactly if every call of the run meets the condition. -/
theorem holdsOut_iff (service : AuthService) (calls : List TotpCall) :
    Machine.Along (Watched.exec valid toUri) (HoldsOut valid toUri) ⟨service, fun _ => false⟩ calls ↔
      Machine.Along (Watched.exec valid toUri) (Unmixed valid) ⟨service, fun _ => false⟩ calls :=
  Machine.along_congr (holdsOut_call valid toUri)

/-- A user with a secret, whose session sets up another and shows a code of that one. -/
def enrolledUser : AuthService := ⟨.insert .empty "user-1" ⟨"user@example.com", .active, some "SECRET"⟩, .empty⟩

def takeOver : List TotpCall :=
  [.setupTotp "OTHER" 0 "user-1", .verifyTotpForUser 1000 ⟨some "user-1", "OTHER"⟩]

/-- A code that is the secret itself. -/
def sameCode (secret code : String) : Bool := decide (secret = code)

/-- **A second factor is replaced without itself**: the code of a setup is verified for a user with another secret,
and takes its place. -/
theorem secret_taken_over :
    (enrolledUser.exec sameCode (· ++ ·) (.setupTotp "OTHER" 0 "user-1")).2.verifyTotpForUser sameCode 1000
        ⟨some "user-1", "OTHER"⟩ = (.ok (.verified true),
          ⟨.insert .empty "user-1" ⟨"user@example.com", .active, some "OTHER"⟩, .empty⟩) ∧
      ¬Machine.Along (Watched.exec sameCode (· ++ ·)) (HoldsOut sameCode (· ++ ·)) ⟨enrolledUser, fun _ => false⟩
        takeOver := by
  refine ⟨by decide +kernel, fun h => ?_⟩
  have hsecond := ((h.2 _ _ rfl).1.verified 1000 ⟨some "user-1", "OTHER"⟩ "user-1" "SECRET" rfl (by decide +kernel)
    (by decide +kernel)).mp (by decide +kernel)
  exact absurd hsecond (by decide +kernel)

end NexusTrade.Auth
