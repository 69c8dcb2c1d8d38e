import NexusTrade.Auth.Login
import NexusTrade.Lib.Run

/-!
# The lockout of an account

Logins that proceed together.  A login is checked against the limit when it begins, and counted when its password or
its code has been found wrong; in between others may be.

* **`Watched`** remembers the failing checks at each account since its last successful login, from the moment at which
  they are evaluated;
* **`LockedOut`** says what the lockout is for, **`Timely`** and **`Enforced`** are the conditions on a step;
* **`Bounded`** is the invariant of an account, **`AllBounded.step`** the step lemma, and **`guesses_are_bounded`** says
  that in every run under the condition at most five checks fail in a window;
* **`six_guesses`**: six logins at once.
-/

namespace NexusTrade.Auth.Login

/-! ### The keys of the attempts -/

theorem accountKey_inj {email email' : String} (h : accountKey email = accountKey email') : email = email' :=
  (String.append_right_inj _).mp h

theorem accountKey_ne_ipKey (email ipAddress : String) : accountKey email ≠ ipKey ipAddress := by
  intro h
  have hlist := congrArg String.toList h
  rw [accountKey, ipKey, String.toList_append, String.toList_append] at hlist
  simp at hlist

theorem find_recordFailedLogin (attempts : LoginAttempts) (now : ℤ) (key key' : String) :
    (recordFailedLogin attempts now key).find key'
      = if key' = key then some (recorded now (attempts.find key)) else attempts.find key' := by
  rw [recordFailedLogin, SortedMap.find_insert]

/-- A failure is recorded for its account, and for no other. -/
theorem find_recorded (attempts : LoginAttempts) (now : ℤ) (ipAddress email email' : String) :
    (recordFailedLogin (recordFailedLogin attempts now (ipKey ipAddress)) now (accountKey email)).find
        (accountKey email')
      = if email' = email then some (recorded now (attempts.find (accountKey email)))
        else attempts.find (accountKey email') := by
  have hip : ∀ e, (recordFailedLogin attempts now (ipKey ipAddress)).find (accountKey e)
      = attempts.find (accountKey e) := fun e => by
    rw [find_recordFailedLogin, if_neg (accountKey_ne_ipKey e ipAddress)]
  rw [find_recordFailedLogin, hip, hip]
  by_cases he : email' = email
  · rw [if_pos he, if_pos (congrArg accountKey he)]
  · rw [if_neg he, if_neg fun hkey => he (accountKey_inj hkey)]

/-- A successful login forgets the failures of its account, and of no other. -/
theorem find_forgotten (attempts : LoginAttempts) (ipAddress email email' : String) :
    ((attempts.erase (ipKey ipAddress)).erase (accountKey email)).find (accountKey email')
      = if email' = email then none else attempts.find (accountKey email') := by
  rw [SortedMap.find_erase, SortedMap.find_erase, if_neg (accountKey_ne_ipKey email' ipAddress)]
  by_cases he : email' = email
  · rw [if_pos he, if_pos (congrArg accountKey he)]
  · rw [if_neg he, if_neg fun hkey => he (accountKey_inj hkey)]

/-! ### The logins that are underway -/

variable (config : LoginConfig)

abbrev LoginProgress := Progress Operation Answer Point Outcome

/-- The account of a login whose credentials have not been judged yet. -/
def Point.account : Point → List String
  | .found call | .compared call _ => [call.email config]
  | .hashed _ _ | .saved _ _ => []

/-- The failing password check of a login that has not gone on since, with the time at which it will. -/
def unrecorded : LoginProgress → List (String × ℤ)
  | .ready (.compared false now) (.compared call _) => [(call.email config, now)]
  | _ => []

/-- The account of a login that has begun, and that no check has failed yet. -/
def awaiting : LoginProgress → List String
  | .ready (.compared false _) (.compared _ _) => []
  | .ready _ point | .waiting _ point => point.account config
  | .finished _ => []

/-- The failing code check of a block. -/
def codeFails : Point → Answer → List (String × ℤ)
  | .compared call user, .compared true now =>
    if ¬(user.status = .frozen ∨ user.status = .closed) ∧ totpFails config call user now = true then
      [(call.email config, now)]
    else []
  | _, _ => []

/-- The account for which a block is the end of the checks: the password and the code are right. -/
def succeeds : Point → Answer → Option String
  | .compared call user, .compared true now =>
    if ¬(user.status = .frozen ∨ user.status = .closed) ∧ totpFails config call user now = false then
      some (call.email config)
    else none
  | _, _ => none

/-- The time of the block that goes on with an answer. -/
def Answer.time? : Answer → Option ℤ
  | .user _ now | .compared _ now | .hashed _ now => some now
  | .saved | .threw => none

/-- **What a block does** to the attempts, and to its login. -/
inductive Judged (attempts : LoginAttempts) (point : Point) (answer : Answer) : LoginPause → LoginAttempts → Prop
  | kept {pause : LoginPause}
      (stays : (awaiting config pause.progress).Sublist (awaiting config (.ready answer point)))
      (recorded : unrecorded config (.ready answer point) = []) (codes : codeFails config point answer = [])
      (right : succeeds config point answer = none) : Judged attempts point answer pause attempts
  | failed (ipAddress email : String) (now : ℤ) (outcome : Outcome) (time : answer.time? = some now)
      (account : point.account config = [email])
      (check : (unrecorded config (.ready answer point) = [] ∧ codeFails config point answer = []) ∨
        (unrecorded config (.ready answer point) = [(email, now)] ∧ codeFails config point answer = []) ∨
        (unrecorded config (.ready answer point) = [] ∧ codeFails config point answer = [(email, now)]))
      (right : succeeds config point answer = none) :
      Judged attempts point answer (.finish outcome)
        (recordFailedLogin (recordFailedLogin attempts now (ipKey ipAddress)) now (accountKey email))
  | right (ipAddress email : String) {pause : LoginPause} (account : awaiting config (.ready answer point) = [email])
      (gone : awaiting config pause.progress = [])
      (recorded : unrecorded config (.ready answer point) = []) (codes : codeFails config point answer = [])
      (right : succeeds config point answer = some email) :
      Judged attempts point answer pause ((attempts.erase (ipKey ipAddress)).erase (accountKey email))

theorem resume_judged (point : Point) (answer : Answer) (attempts : LoginAttempts) :
    Judged config attempts point answer (resume config point answer attempts).1
      (resume config point answer attempts).2 := by
  cases point with
  | found call =>
      cases answer with
      | user found now =>
          cases found with
          | none => exact .failed _ _ _ _ rfl rfl (Or.inl ⟨rfl, rfl⟩) rfl
          | some user => exact .kept (List.Sublist.refl _) rfl rfl rfl
      | compared same now => cases same <;> exact .kept (List.nil_sublist _) rfl rfl rfl
      | _ => exact .kept (List.nil_sublist _) rfl rfl rfl
  | compared call user =>
      cases answer with
      | compared same now =>
          cases same with
          | false => exact .failed _ _ _ _ rfl rfl (Or.inr (Or.inl ⟨rfl, rfl⟩)) rfl
          | true =>
              by_cases hactive : user.status = .frozen ∨ user.status = .closed
              · simp only [resume, Bool.true_eq_false, if_false, if_pos hactive]
                exact .kept (List.nil_sublist _) rfl (if_neg fun h => h.1 hactive) (if_neg fun h => h.1 hactive)
              · simp only [resume, Bool.true_eq_false, if_false, if_neg hactive]
                cases hcode : totpFails config call user now with
                | true =>
                    refine .failed _ _ _ _ rfl rfl (Or.inr (Or.inr ⟨rfl, if_pos ⟨hactive, hcode⟩⟩)) (if_neg ?_)
                    rw [hcode]
                    exact fun h => Bool.noConfusion h.2
                | false =>
                    have hcodes : codeFails config (.compared call user) (.compared true now) = [] := by
                      refine if_neg ?_
                      rw [hcode]
                      exact fun h => Bool.noConfusion h.2
                    have hright : succeeds config (.compared call user) (.compared true now)
                        = some (call.email config) := if_pos ⟨hactive, hcode⟩
                    simp only [Bool.false_eq_true, if_false]
                    split <;> exact .right _ _ rfl rfl rfl hcodes hright
      | _ => exact .kept (List.nil_sublist _) rfl rfl rfl
  | hashed call user | saved call user =>
      cases answer with
      | compared same now => cases same <;> exact .kept (List.nil_sublist _) rfl rfl rfl
      | _ => exact .kept (List.nil_sublist _) rfl rfl rfl

/-- A login that begins leaves the attempts as they are; it is refused, or looks up its user. -/
theorem enter_spec (call : LoginCall) (attempts : LoginAttempts) :
    ((limited attempts call.now (ipKey call.ipAddress) = true ∨
        limited attempts call.now (accountKey (call.email config)) = true) ∧
      enter config call attempts = (.finish (.failed (.http 429 "too many login attempts")), attempts)) ∨
    ((limited attempts call.now (ipKey call.ipAddress) = false ∧
        limited attempts call.now (accountKey (call.email config)) = false) ∧
      enter config call attempts = (.await (.findUser (call.email config)) (.found call), attempts)) := by
  simp only [enter, enforceRateLimit]
  cases limited attempts call.now (ipKey call.ipAddress) with
  | true => exact Or.inl ⟨Or.inl rfl, rfl⟩
  | false =>
      cases limited attempts call.now (accountKey (call.email config)) with
      | true => exact Or.inl ⟨Or.inr rfl, rfl⟩
      | false => exact Or.inr ⟨⟨rfl, rfl⟩, rfl⟩

/-! ### What the lockout is for -/

/-- The program, the time of the last block, and the failing checks at each account since its last successful login.
A check is remembered when it is evaluated, with the time at which its login goes on. -/
structure Watched where
  world : LoginWorld
  clock : ℤ
  checks : List (String × ℤ)

/-- The time that comes with a step. -/
def timeOf (world : LoginWorld) : LoginTurn → Option ℤ
  | .enter call => some call.now
  | .perform _ .fails => none
  | .perform _ (.at now _) => some now
  | .resume pos =>
    match world.threads[pos]? with
    | some ⟨_, .ready answer _⟩ => answer.time?
    | _ => none

/-- The time of the last block. -/
def clockAfter (w : Watched) : LoginTurn → ℤ
  | .perform _ _ => w.clock
  | turn => (timeOf w.world turn).getD w.clock

/-- **The failing checks** that a step evaluates: of a password where `bcrypt.compare` answers, of a code in the block
that goes on then. -/
def evaluated (world : LoginWorld) : LoginTurn → List (String × ℤ)
  | .enter _ => []
  | .perform pos moment =>
    match world.threads[pos]? with
    | some ⟨_, .waiting operation point⟩ => unrecorded config (.ready (perform operation moment world.remote).1 point)
    | _ => []
  | .resume pos =>
    match world.threads[pos]? with
    | some ⟨_, .ready answer point⟩ => codeFails config point answer
    | _ => []

/-- The account for which a step is a successful login. -/
def loggedIn (world : LoginWorld) : LoginTurn → Option String
  | .resume pos =>
    match world.threads[pos]? with
    | some ⟨_, .ready answer point⟩ => succeeds config point answer
    | _ => none
  | _ => none

/-- A successful login forgets the checks at its account. -/
def forget (checks : List (String × ℤ)) : Option String → List (String × ℤ)
  | none => checks
  | some email => checks.filter fun check => check.1 ≠ email

/-- Make a step and watch. -/
def Watched.exec (w : Watched) (turn : LoginTurn) : Except Empty (Unit × Watched) :=
  .ok ((), ⟨(program config).step w.world turn, clockAfter w turn,
    forget w.checks (loggedIn config w.world turn) ++ evaluated config w.world turn⟩)

/-- The service has just been started, at a time. -/
def Watched.start (sessions : Sessions) (now : ℤ) : Watched := ⟨Login.start sessions, now, []⟩

/-- The times of the checks at an account. -/
def timesAt (checks : List (String × ℤ)) (email : String) : List ℤ :=
  (checks.filter fun check => check.1 = email).map Prod.snd

/-- How many checks there are from a time on. -/
def since (times : List ℤ) (start : ℤ) : ℕ := times.countP fun time => start ≤ time

/-- The failing checks at an account since the window of its entry was opened. -/
def failingChecks (w : Watched) (email : String) (entry : Attempts) : ℕ :=
  since (timesAt w.checks email) (entry.resetAt - attemptWindow)

/-- The logins of an account that have begun and are not checked yet. -/
def unchecked (world : LoginWorld) (email : String) : ℕ := (gather (awaiting config) world.threads).count email

/-- **The logins of an account that are underway**: they are not checked yet, or their check has failed and they have
not recorded it. -/
def underway (world : LoginWorld) (email : String) : ℕ :=
  unchecked config world email + (timesAt (gather (unrecorded config) world.threads) email).length

/-- The failures that are recorded in the window that is open at a time. -/
def failures (found : Option Attempts) (now : ℤ) : ℕ :=
  match found with
  | none => 0
  | some entry => if now < entry.resetAt then entry.count else 0

/-- **The time does not go back.** -/
def Timely (w : Watched) (turn : LoginTurn) : Prop := ∀ now ∈ timeOf w.world turn, w.clock ≤ now

instance (w : Watched) : DecidablePred (Timely w) := fun _ => inferInstanceAs (Decidable (∀ _ ∈ _, _))

/-- **The condition on a step**: a login that the limit lets begin finds fewer than five failures that are recorded in
the window of its account, or underway. -/
def Enforced (w : Watched) : LoginTurn → Prop
  | .enter call => limited w.world.memory call.now (ipKey call.ipAddress) = false →
      limited w.world.memory call.now (accountKey (call.email config)) = false →
      failures (w.world.memory.find (accountKey (call.email config))) call.now
        + underway config w.world (call.email config) < 5
  | .perform _ _ | .resume _ => True

instance (w : Watched) : DecidablePred (Enforced config w)
  | .enter _ => inferInstanceAs (Decidable (_ → _ → _))
  | .perform _ _ => inferInstanceAs (Decidable True)
  | .resume _ => inferInstanceAs (Decidable True)

/-- **What the lockout is for**: while the window is open that the first failure at an account has opened, no more than
five checks fail at it, those included that are still to come of logins that have begun; and after five a login is
refused before its credentials are looked at. -/
structure LockedOut (w : Watched) : Prop where
  bounded : ∀ email entry, w.world.memory.find (accountKey email) = some entry → w.clock < entry.resetAt →
    failingChecks w email entry + unchecked config w.world email ≤ 5
  refused : ∀ call entry, w.world.memory.find (accountKey (call.email config)) = some entry →
    w.clock ≤ call.now → call.now < entry.resetAt → Enforced config w (.enter call) →
    5 ≤ failingChecks w (call.email config) entry →
    enter config call w.world.memory = (.finish (.failed (.http 429 "too many login attempts")), w.world.memory)

/-! ### One account -/

/-- **The invariant of an account**: failures and logins that are underway are no more than five; and each check that
has failed since the window was opened is recorded, or about to be. -/
structure Bounded (found : Option Attempts) (clock : ℤ) (waiting : ℕ) (checks pending : List ℤ) : Prop where
  room : failures found clock + (waiting + pending.length) ≤ 5
  accounted : ∃ written : List ℤ, (found = none → written = []) ∧
    (∀ entry ∈ found, (∀ time ∈ written, time < entry.resetAt) ∧
      since written (entry.resetAt - attemptWindow) ≤ entry.count) ∧
    ∀ start, since checks start ≤ since written start + since pending start

section Account

variable {found : Option Attempts} {clock now : ℤ} {waiting waiting' : ℕ} {checks checks' pending pending' : List ℤ}

theorem attemptWindow_pos : 0 < attemptWindow := by decide

theorem since_append (times times' : List ℤ) (start : ℤ) :
    since (times ++ times') start = since times start + since times' start := List.countP_append

theorem since_perm {times times' : List ℤ} (h : times.Perm times') (start : ℤ) :
    since times start = since times' start := h.countP_eq _

theorem since_le_length (times : List ℤ) (start : ℤ) : since times start ≤ times.length := List.countP_le_length

/-- No check from before a time is counted from it on. -/
theorem since_eq_zero {times : List ℤ} {start : ℤ} (h : ∀ time ∈ times, time < start) : since times start = 0 := by
  refine List.countP_eq_zero.mpr fun time htime hle => ?_
  exact absurd (of_decide_eq_true hle) (not_le.mpr (h time htime))

theorem failures_mono {clock' : ℤ} (h : clock ≤ clock') : failures found clock' ≤ failures found clock := by
  cases found with
  | none => exact le_refl 0
  | some entry =>
      simp only [failures]
      split
      · rename_i hopen
        rw [if_pos (h.trans_lt hopen)]
      · exact Nat.zero_le _

/-- A failure that is recorded is one more. -/
theorem failures_recorded (found : Option Attempts) (now : ℤ) :
    failures (some (recorded now found)) now = failures found now + 1 := by
  have hwindow := attemptWindow_pos
  cases found with
  | none => exact if_pos (show now < now + attemptWindow by omega)
  | some entry =>
      by_cases hreset : entry.resetAt ≤ now
      · rw [recorded, if_pos hreset, failures, failures, if_pos (show now < now + attemptWindow by omega),
          if_neg (not_lt.mpr hreset)]
      · rw [recorded, if_neg hreset, failures, failures, if_pos (not_le.mp hreset), if_pos (not_le.mp hreset)]

theorem Bounded.none (clock : ℤ) : Bounded none clock 0 [] [] :=
  ⟨Nat.zero_le 5, [], fun _ => rfl, fun _ h => (Option.not_mem_none _ h).elim, fun _ => Nat.zero_le _⟩

/-- Time passes, and some logins end. -/
theorem Bounded.later (h : Bounded found clock waiting checks pending) (hclock : clock ≤ now)
    (hwaiting : waiting' ≤ waiting) : Bounded found now waiting' checks pending := by
  have hroom := h.room
  have hfewer : failures found now ≤ failures found clock := failures_mono hclock
  exact ⟨by omega, h.accounted⟩

/-- A login begins that the limit and those underway leave room for. -/
theorem Bounded.begins (h : Bounded found clock waiting checks pending)
    (hroom : failures found now + (waiting + pending.length) < 5) : Bounded found now (waiting + 1) checks pending :=
  ⟨by omega, h.accounted⟩

/-- **A check fails**, and its login has not gone on yet. -/
theorem Bounded.checked (h : Bounded found clock (waiting + 1) checks pending) (time : ℤ) :
    Bounded found clock waiting (checks ++ [time]) (time :: pending) := by
  obtain ⟨written, hnone, hwritten, hlists⟩ := h.accounted
  have hroom := h.room
  refine ⟨by rw [List.length_cons]; omega, written, hnone, hwritten, fun start => ?_⟩
  have hcons : since (time :: pending) start = since [time] start + since pending start :=
    since_append [time] pending start
  have hbefore := hlists start
  rw [since_append, hcons]
  omega

/-- **A failure is recorded.** -/
theorem Bounded.fails (h : Bounded found clock waiting checks pending) (hclock : clock ≤ now)
    (hgone : waiting' + pending'.length + 1 ≤ waiting + pending.length)
    (hlists : ∀ start, since checks' start + since pending start
      ≤ since checks start + since pending' start + since [now] start) :
    Bounded (some (recorded now found)) now waiting' checks' pending' := by
  obtain ⟨written, hnone, hwritten, hbefore⟩ := h.accounted
  have hwindow := attemptWindow_pos
  have hroom := h.room
  have hfewer : failures found now ≤ failures found clock := failures_mono hclock
  refine ⟨by rw [failures_recorded]; omega, written ++ [now], by simp, ?_, fun start => ?_⟩
  · rintro _ ⟨⟩
    have hone : ∀ start, since [now] start ≤ 1 := fun start => since_le_length [now] start
    -- the failure opens a window after all that were recorded before, or it is one more in the window
    have hfresh : (∀ time ∈ written, time < now) →
        (∀ time ∈ written ++ [now], time < now + attemptWindow) ∧
          since (written ++ [now]) (now + attemptWindow - attemptWindow) ≤ 1 := by
      intro hover
      refine ⟨fun time htime => ?_, ?_⟩
      · rcases List.mem_append.mp htime with hold | hlast
        · have := hover time hold
          omega
        · rw [List.mem_singleton.mp hlast]
          omega
      · rw [add_sub_cancel_right, since_append, since_eq_zero hover, zero_add]
        exact hone now
    cases found with
    | none =>
        rw [hnone rfl] at hfresh ⊢
        exact hfresh fun time htime => absurd htime List.not_mem_nil
    | some entry =>
        obtain ⟨hover, hcount⟩ := hwritten entry rfl
        by_cases hreset : entry.resetAt ≤ now
        · rw [recorded, if_pos hreset]
          exact hfresh fun time htime => (hover time htime).trans_le hreset
        · rw [recorded, if_neg hreset]
          refine ⟨fun time htime => ?_, ?_⟩
          · rcases List.mem_append.mp htime with hold | hlast
            · exact hover time hold
            · rw [List.mem_singleton.mp hlast]
              exact not_le.mp hreset
          · rw [since_append]
            exact Nat.add_le_add hcount (hone _)
  · have hold := hbefore start
    have hnew := hlists start
    rw [since_append]
    omega

/-- **A successful login** forgets the failures and the checks. -/
theorem Bounded.right (h : Bounded found clock waiting checks pending) (hwaiting : waiting' ≤ waiting) :
    Bounded Option.none now waiting' [] pending := by
  have hroom := h.room
  refine ⟨?_, [], fun _ => rfl, fun _ hin => (Option.not_mem_none _ hin).elim, fun _ => Nat.zero_le _⟩
  show 0 + _ ≤ 5
  omega

theorem Bounded.perm (h : Bounded found clock waiting checks pending) (hpending : pending.Perm pending') :
    Bounded found clock waiting checks pending' := by
  obtain ⟨written, hnone, hwritten, hlists⟩ := h.accounted
  have hroom := h.room
  rw [hpending.length_eq] at hroom
  exact ⟨hroom, written, hnone, hwritten, fun start => since_perm hpending start ▸ hlists start⟩

/-- **At most five checks fail** in the window, with those that are still to come. -/
theorem Bounded.since_le {entry : Attempts} (h : Bounded (some entry) clock waiting checks pending)
    (hopen : clock < entry.resetAt) : since checks (entry.resetAt - attemptWindow) + waiting ≤ 5 ∧
      since checks (entry.resetAt - attemptWindow) ≤ entry.count + pending.length := by
  obtain ⟨written, -, hwritten, hlists⟩ := h.accounted
  have hcount := (hwritten entry rfl).2
  have hchecks := hlists (entry.resetAt - attemptWindow)
  have hpending := since_le_length pending (entry.resetAt - attemptWindow)
  have hroom := h.room
  rw [failures, if_pos hopen] at hroom
  omega

end Account

/-! ### All accounts -/

theorem timesAt_append (checks checks' : List (String × ℤ)) (email : String) :
    timesAt (checks ++ checks') email = timesAt checks email ++ timesAt checks' email := by
  rw [timesAt, timesAt, timesAt, List.filter_append, List.map_append]

theorem timesAt_single (email email' : String) (now : ℤ) :
    timesAt [(email, now)] email' = if email' = email then [now] else [] := by
  by_cases he : email' = email
  · subst he
    simp [timesAt]
  · simp [timesAt, he, Ne.symm he]

theorem timesAt_perm {checks checks' : List (String × ℤ)} (h : checks.Perm checks') (email : String) :
    (timesAt checks email).Perm (timesAt checks' email) := (h.filter _).map _

theorem timesAt_forget (checks : List (String × ℤ)) (email email' : String) :
    timesAt (forget checks (some email)) email' = if email' = email then [] else timesAt checks email' := by
  rw [forget, timesAt, List.filter_filter]
  by_cases he : email' = email
  · rw [if_pos he, List.map_eq_nil_iff, List.filter_eq_nil_iff]
    simp [he]
  · rw [if_neg he, timesAt]
    refine congrArg _ (List.filter_congr fun check _ => ?_)
    by_cases hc : check.1 = email'
    · simp [hc, he]
    · simp [hc]

/-- **The invariant.** -/
def AllBounded (w : Watched) : Prop :=
  ∀ email, Bounded (w.world.memory.find (accountKey email)) w.clock (unchecked config w.world email)
    (timesAt w.checks email) (timesAt (gather (unrecorded config) w.world.threads) email)

section Steps

variable {memory memory' : LoginAttempts} {sessions sessions' : Sessions}
  {pre post : List (Thread LoginCall Operation Answer Point Outcome)} {call : LoginCall}
  {progress progress' : LoginProgress} {clock clock' : ℤ} {checks checks' : List (String × ℤ)}

/-- **The invariant, by one login and the others.** -/
theorem allBounded_around : AllBounded config ⟨⟨memory, sessions, pre ++ ⟨call, progress⟩ :: post⟩, clock, checks⟩ ↔
    ∀ email, Bounded (memory.find (accountKey email)) clock
      ((awaiting config progress).count email + (gather (awaiting config) (pre ++ post)).count email)
      (timesAt checks email)
      (timesAt (unrecorded config progress) email ++ timesAt (gather (unrecorded config) (pre ++ post)) email) := by
  refine forall_congr' fun email => ?_
  have hwaiting : unchecked config ⟨memory, sessions, pre ++ ⟨call, progress⟩ :: post⟩ email
      = (awaiting config progress).count email + (gather (awaiting config) (pre ++ post)).count email := by
    rw [unchecked, (gather_perm (awaiting config) pre post call progress).count_eq, List.count_append]
  have hpending : (timesAt (gather (unrecorded config) (pre ++ ⟨call, progress⟩ :: post)) email).Perm
      (timesAt (unrecorded config progress) email ++ timesAt (gather (unrecorded config) (pre ++ post)) email) := by
    rw [← timesAt_append]
    exact timesAt_perm (gather_perm (unrecorded config) pre post call progress) email
  show Bounded _ _ (unchecked config ⟨memory, sessions, pre ++ ⟨call, progress⟩ :: post⟩ email) _
    (timesAt (gather (unrecorded config) (pre ++ ⟨call, progress⟩ :: post)) email) ↔ _
  rw [hwaiting]
  exact ⟨fun h => h.perm hpending, fun h => h.perm hpending.symm⟩

/-- What is known of a login whose operation has been answered: it still waits for its check, or the check has failed. -/
theorem answered_cases (answer : Answer) (point : Point) :
    (unrecorded config (.ready answer point) = [] ∧ awaiting config (.ready answer point) = point.account config) ∨
      ∃ email now, unrecorded config (.ready answer point) = [(email, now)] ∧
        awaiting config (.ready answer point) = [] ∧ point.account config = [email] := by
  cases answer with
  | compared same now =>
      cases same with
      | true => exact Or.inl ⟨rfl, rfl⟩
      | false =>
          cases point with
          | compared call user => exact Or.inr ⟨_, _, rfl, rfl, rfl⟩
          | _ => exact Or.inl ⟨rfl, rfl⟩
  | _ => exact Or.inl ⟨rfl, rfl⟩

/-- **A login begins.** -/
theorem AllBounded.entered {w : Watched} (h : AllBounded config w) {call : LoginCall} (hnow : w.clock ≤ call.now)
    (henforced : Enforced config w (.enter call)) :
    AllBounded config ⟨(program config).step w.world (.enter call), call.now, w.checks⟩ := by
  have hsnoc : ∀ {β : Type} (f : LoginProgress → List β) (progress : LoginProgress),
      gather f (w.world.threads ++ [⟨call, progress⟩]) = gather f w.world.threads ++ f progress := by
    intro β f progress
    rw [gather_append]
    exact congrArg _ (List.append_nil _)
  have hstep : (program config).step w.world (.enter call) = ⟨(enter config call w.world.memory).2, w.world.remote,
      w.world.threads ++ [⟨call, (enter config call w.world.memory).1.progress⟩]⟩ := rfl
  intro email
  rw [hstep]
  rcases enter_spec config call w.world.memory with ⟨-, hrefused⟩ | ⟨⟨hip, haccount⟩, hbegins⟩
  · simp only [hrefused, unchecked, hsnoc]
    show Bounded _ _ (List.count email (_ ++ [])) _ (timesAt (_ ++ []) email)
    rw [List.append_nil, List.append_nil]
    exact (h email).later hnow (le_refl _)
  · have hroom := henforced hip haccount
    simp only [hbegins, unchecked, hsnoc]
    show Bounded _ _ (List.count email (_ ++ [call.email config])) _ (timesAt (_ ++ []) email)
    rw [List.append_nil, List.count_append, List.count_singleton']
    by_cases he : call.email config = email
    · subst he
      rw [if_pos rfl]
      exact (h _).begins hroom
    · rw [if_neg he]
      exact (h email).later hnow (le_refl _)

/-- **An operation is answered.** -/
theorem AllBounded.performed {operation : Operation} {point : Point} {answer : Answer}
    (h : AllBounded config ⟨⟨memory, sessions, pre ++ ⟨call, .waiting operation point⟩ :: post⟩, clock, checks⟩) :
    AllBounded config ⟨⟨memory, sessions', pre ++ ⟨call, .ready answer point⟩ :: post⟩, clock,
      checks ++ unrecorded config (.ready answer point)⟩ := by
  rw [allBounded_around] at h ⊢
  intro email
  have hbefore := h email
  have hwaits : awaiting config (.waiting operation point) = point.account config := rfl
  have hnothing : unrecorded config (.waiting operation point) = [] := rfl
  rw [hwaits, hnothing] at hbefore
  rcases answered_cases config answer point with ⟨hnone, hsame⟩ | ⟨email', now, hcheck, hgone, haccount⟩
  · rw [hnone, hsame, List.append_nil]
    exact hbefore
  · rw [hcheck, hgone, timesAt_append, timesAt_single]
    rw [haccount, List.count_singleton'] at hbefore
    by_cases he : email = email'
    · rw [if_pos he.symm, add_comm 1] at hbefore
      rw [if_pos he, List.count_nil, zero_add]
      exact hbefore.checked now
    · rw [if_neg (Ne.symm he)] at hbefore
      rw [if_neg he, List.append_nil, List.count_nil]
      exact hbefore

/-- **The login of a failure** was underway until then, and at most one check of it has failed. -/
theorem failed_own {answer : Answer} {point : Point} {email : String} {now : ℤ}
    (account : point.account config = [email])
    (check : (unrecorded config (.ready answer point) = [] ∧ codeFails config point answer = []) ∨
      (unrecorded config (.ready answer point) = [(email, now)] ∧ codeFails config point answer = []) ∨
      (unrecorded config (.ready answer point) = [] ∧ codeFails config point answer = [(email, now)])) :
    (awaiting config (.ready answer point)).count email
        + (timesAt (unrecorded config (.ready answer point)) email).length = 1 ∧
      ∀ start, since (timesAt (codeFails config point answer) email) start
        + since (timesAt (unrecorded config (.ready answer point)) email) start ≤ since [now] start := by
  have htime : timesAt [(email, now)] email = [now] := by rw [timesAt_single, if_pos rfl]
  have hnone : ∀ start, since (timesAt [] email) start = 0 := fun _ => rfl
  rcases answered_cases config answer point with ⟨hnothing, hwaits⟩ | ⟨email', now', hchecked, hgone, -⟩
  · -- it still waited for a check: none has failed, or that of its code
    rw [hnothing] at check ⊢
    rw [hwaits, account, List.count_singleton_self]
    refine ⟨rfl, fun start => ?_⟩
    rcases check with ⟨-, hcodes⟩ | ⟨hone, -⟩ | ⟨-, hcodes⟩
    · rw [hcodes, hnone]
      exact Nat.zero_le _
    · cases hone
    · rw [hcodes, hnone, htime]
      exact le_refl _
  · -- its password had been found wrong
    rw [hchecked] at check ⊢
    rw [hgone]
    rcases check with ⟨hnone', -⟩ | ⟨hone, hcodes⟩ | ⟨hnone', -⟩
    · cases hnone'
    · rw [hone, hcodes, htime]
      refine ⟨rfl, fun start => ?_⟩
      rw [hnone, zero_add]
    · cases hnone'

/-- It is no matter of the other accounts. -/
theorem failed_others {answer : Answer} {point : Point} {email email' : String} {now : ℤ} (he : email ≠ email')
    (check : (unrecorded config (.ready answer point) = [] ∧ codeFails config point answer = []) ∨
      (unrecorded config (.ready answer point) = [(email', now)] ∧ codeFails config point answer = []) ∨
      (unrecorded config (.ready answer point) = [] ∧ codeFails config point answer = [(email', now)])) :
    timesAt (unrecorded config (.ready answer point)) email = [] ∧
      timesAt (codeFails config point answer) email = [] := by
  have htime : timesAt [(email', now)] email = [] := by rw [timesAt_single, if_neg he]
  rcases check with ⟨hnone, hcodes⟩ | ⟨hone, hcodes⟩ | ⟨hnone, hcodes⟩
  · rw [hnone, hcodes]
    exact ⟨rfl, rfl⟩
  · rw [hone, hcodes]
    exact ⟨htime, rfl⟩
  · rw [hnone, hcodes]
    exact ⟨rfl, htime⟩

/-- **A login goes on.** -/
theorem AllBounded.resumed {answer : Answer} {point : Point} {pause : LoginPause}
    (h : AllBounded config ⟨⟨memory, sessions, pre ++ ⟨call, .ready answer point⟩ :: post⟩, clock, checks⟩)
    (hj : Judged config memory point answer pause memory') (htime : ∀ now ∈ answer.time?, clock ≤ now) :
    AllBounded config ⟨⟨memory', sessions, pre ++ ⟨call, pause.progress⟩ :: post⟩, answer.time?.getD clock,
      forget checks (succeeds config point answer) ++ codeFails config point answer⟩ := by
  have hclock : clock ≤ answer.time?.getD clock := by
    cases hanswer : answer.time? with
    | none => exact le_refl clock
    | some now => exact htime now hanswer
  have hnothing : ∀ pause : LoginPause, unrecorded config pause.progress = [] := by
    intro pause
    cases pause <;> rfl
  rw [allBounded_around] at h ⊢
  intro email
  have hbefore := h email
  cases hj with
  | kept stays recorded codes right =>
      rw [recorded] at hbefore
      rw [hnothing, codes, right, List.append_nil]
      exact hbefore.later hclock (Nat.add_le_add_right (stays.count_le email) _)
  | failed ipAddress email' now outcome time account check right =>
      rw [hnothing, right, find_recorded, time]
      have hnow : clock ≤ now := htime now time
      show Bounded (if email = email' then some (Login.recorded now (memory.find (accountKey email')))
        else memory.find (accountKey email)) now (List.count email [] + _) (timesAt (checks ++ _) email) ([] ++ _)
      rw [List.count_nil, timesAt_append, zero_add, List.nil_append]
      by_cases he : email = email'
      · subst he
        rw [if_pos rfl]
        obtain ⟨hone, hchecks⟩ := failed_own config account check
        refine hbefore.fails hnow (by rw [List.length_append]; omega) fun start => ?_
        have hstart := hchecks start
        rw [since_append, since_append]
        omega
      · rw [if_neg he]
        obtain ⟨hunrecorded, hcodes⟩ := failed_others config he check
        rw [hunrecorded, List.nil_append] at hbefore
        rw [hcodes, List.append_nil]
        exact hbefore.later hnow (Nat.le_add_left _ _)
  | right ipAddress email' account gone recorded codes right =>
      rw [recorded] at hbefore
      rw [hnothing, codes, right, gone, List.append_nil, find_forgotten, timesAt_forget]
      by_cases he : email = email'
      · rw [if_pos he, if_pos he]
        exact hbefore.right (by rw [List.count_nil]; omega)
      · rw [if_neg he, if_neg he]
        exact hbefore.later hclock (by rw [List.count_nil]; omega)

/-- **The step lemma.** -/
theorem AllBounded.step {w w' : Watched} (h : AllBounded config w) {turn : LoginTurn} (htimely : Timely w turn)
    (henforced : Enforced config w turn) (hexec : w.exec config turn = .ok ((), w')) : AllBounded config w' := by
  cases hexec
  obtain ⟨⟨memory, sessions, threads⟩, clock, checks⟩ := w
  cases turn with
  | enter call =>
      show AllBounded config ⟨(program config).step ⟨memory, sessions, threads⟩ (.enter call), call.now, checks ++ []⟩
      rw [List.append_nil]
      exact h.entered config (htimely _ rfl) henforced
  | perform pos moment =>
      cases hget : threads[pos]? with
      | none =>
          simp only [Program.step, evaluated, loggedIn, clockAfter, forget, hget, List.append_nil]
          exact h
      | some thread =>
          obtain ⟨call, progress⟩ := thread
          cases progress with
          | waiting operation point =>
              obtain ⟨pre, post, hthreads, rfl, hset⟩ := split_of_getElem? hget
              simp only [Program.step, evaluated, loggedIn, clockAfter, forget, hget, hset]
              exact AllBounded.performed config (hthreads ▸ h)
          | _ =>
              simp only [Program.step, evaluated, loggedIn, clockAfter, forget, hget, List.append_nil]
              exact h
  | resume pos =>
      cases hget : threads[pos]? with
      | none =>
          simp only [Program.step, evaluated, loggedIn, clockAfter, timeOf, forget, hget, List.append_nil,
            Option.getD_none]
          exact h
      | some thread =>
          obtain ⟨call, progress⟩ := thread
          cases progress with
          | ready answer point =>
              obtain ⟨pre, post, hthreads, rfl, hset⟩ := split_of_getElem? hget
              simp only [Timely, timeOf, hget] at htimely
              simp only [Program.step, evaluated, loggedIn, clockAfter, timeOf, hget, hset]
              exact AllBounded.resumed config (hthreads ▸ h) (resume_judged config point answer memory) htimely
          | _ =>
              simp only [Program.step, evaluated, loggedIn, clockAfter, timeOf, forget, hget, List.append_nil,
                Option.getD_none]
              exact h

end Steps

/-- The invariant gives what the lockout is for. -/
theorem AllBounded.lockedOut {w : Watched} (h : AllBounded config w) : LockedOut config w where
  bounded := fun email entry hentry hopen => by
    have hbounded := h email
    rw [hentry] at hbounded
    exact (hbounded.since_le hopen).1
  refused := fun call entry hentry hclock hopen henforced hfive => by
    have hbounded := h (call.email config)
    rw [hentry] at hbounded
    have hchecks := (hbounded.since_le (hclock.trans_lt hopen)).2
    rcases enter_spec config call w.world.memory with ⟨-, hrefused⟩ | ⟨⟨hip, haccount⟩, -⟩
    · exact hrefused
    · -- a login that the limit lets begin has room, and five failing checks leave none
      have hroom := henforced hip haccount
      rw [hentry, failures, if_pos hopen, underway] at hroom
      rw [failingChecks] at hfive
      omega

/-- **Failing checks are bounded**: in every run of logins in which the time does not go back, and in which each login
that the limit lets begin finds fewer than five failures recorded or underway, every account is locked out after five. -/
theorem guesses_are_bounded (sessions : Sessions) (now : ℤ) {turns : List LoginTurn} {replies : List Unit} {w : Watched}
    (hrun : Machine.run (Watched.exec config) (Watched.start sessions now) turns = .ok (replies, w))
    (htimely : Machine.Along (Watched.exec config) Timely (Watched.start sessions now) turns)
    (hmeets : Machine.Along (Watched.exec config) (Enforced config) (Watched.start sessions now) turns) :
    LockedOut config w := by
  refine AllBounded.lockedOut config (Machine.run_history_along
    (Q := fun _ _ w => AllBounded config w) ?_ ?_ turns replies w hrun (Machine.along_and htimely hmeets))
  · exact fun _ => .none now
  · intro _ _ w turn _ w' hall hboth hexec
    exact hall.step config hboth.1 hboth.2 hexec

/-! ### Six logins at once -/

/-- The user whose account is guessed at. -/
def victims : SortedMap String UserRow :=
  .insert .empty "user@example.com" ⟨⟨"user@example.com", .active, none⟩, "user-1", ⟨"Correct-Horse-1"⟩⟩

/-- A login with a wrong password, at time 0. -/
def guess (password : String) : LoginCall := ⟨⟨"user@example.com", password, none⟩, "unknown", 0, "session", "token"⟩

/-- Some logins begin together, and one after the other they look up the user and compare the password. -/
def atOnce (passwords : List String) : List LoginTurn :=
  passwords.map (fun password => .enter (guess password)) ++
    (List.range passwords.length).flatMap fun pos =>
      [.perform pos (.at 0 victims), .resume pos, .perform pos (.at 0 victims), .resume pos]

/-- Settings under which an address is written in lower case, and no code is valid. -/
def plainConfig : LoginConfig := ⟨⟨true, fun _ => ["user"]⟩, id, fun _ _ _ => false⟩

theorem guesses_are_bounded_two :
    ∃ replies w, Machine.run (Watched.exec plainConfig) (Watched.start .empty 0)
        (atOnce ["Guess-Number-1", "Guess-Number-2"]) = .ok (replies, w) ∧ LockedOut plainConfig w := by
  obtain ⟨replies, w, hrun⟩ := Machine.run_returns (Watched.exec plainConfig) (Watched.start .empty 0)
    (atOnce ["Guess-Number-1", "Guess-Number-2"])
  exact ⟨replies, w, hrun, guesses_are_bounded plainConfig .empty 0 hrun (by decide +kernel) (by decide +kernel)⟩

def sixPasswords : List String :=
  ["Guess-Number-1", "Guess-Number-2", "Guess-Number-3", "Guess-Number-4", "Guess-Number-5", "Guess-Number-6"]

/-- **Six logins at once** are let in, and six checks fail in the window that the first of them opens. -/
theorem six_guesses :
    ¬∀ (config : LoginConfig) (sessions : Sessions) (now : ℤ) (turns : List LoginTurn) (replies : List Unit)
      (w : Watched), Machine.Along (Watched.exec config) Timely (Watched.start sessions now) turns →
      Machine.run (Watched.exec config) (Watched.start sessions now) turns = .ok (replies, w) → LockedOut config w := by
  intro hall
  obtain ⟨replies, w, hrun⟩ := Machine.run_returns (Watched.exec plainConfig) (Watched.start .empty 0) (atOnce sixPasswords)
  have hsix : (Machine.run (Watched.exec plainConfig) (Watched.start .empty 0) (atOnce sixPasswords)).map
      (fun r => (r.2.world.memory.find (accountKey "user@example.com"), r.2.clock,
        failingChecks r.2 "user@example.com" ⟨6, attemptWindow⟩)) = .ok (some ⟨6, attemptWindow⟩, 0, 6) := by
    decide +kernel
  rw [hrun] at hsix
  obtain ⟨hentry, hrest⟩ := Prod.mk.inj (Except.ok.inj hsix)
  obtain ⟨hclock, hfailing⟩ := Prod.mk.inj hrest
  have hopen : w.clock < attemptWindow := hclock.trans_lt attemptWindow_pos
  have hbounded := (hall plainConfig .empty 0 _ replies w (by decide +kernel) hrun).bounded _ _ hentry hopen
  have hfailing : failingChecks w "user@example.com" ⟨6, attemptWindow⟩ = 6 := hfailing
  rw [hfailing] at hbounded
  omega

end NexusTrade.Auth.Login
