import Mathlib.Data.List.Nodup
import NexusTrade.Auth.Sessions

/-!
# Rotation of refresh tokens

Refreshes and logouts of a session that proceed together.

* **`Stage`** lists how far a call can be, **`stage_enter`** and **`stage_resume`** say that the code keeps to it;
* **`Rotates`** is the condition on a step: a refresh writes the session only while it still has the token that the
  call has compared and is not revoked; a token that is drawn is new;
* **`Rotating`** is the invariant, **`Rotating.step`** the step lemma;
* **`tokens_rotate`** says that in every run under the condition a token is accepted once and a logout is final.
-/

namespace NexusTrade.Auth

/-! ### How far a call is -/

/-- **How far a call can be.** -/
inductive Stage : SessionCall → Progress Operation Answer Point Outcome → Prop
  | refreshFind (dto : RefreshTokenDto) (next : String) :
      Stage (.refresh dto next) (.waiting (.findSession dto.sessionId) (.refreshFound dto next))
  | refreshFound (dto : RefreshTokenDto) (next : String) (found : Option SessionEntity) (now : ℤ) :
      Stage (.refresh dto next) (.ready (.session found now) (.refreshFound dto next))
  | refreshCompare (dto : RefreshTokenDto) (next : String) (session : SessionEntity) (live : session.revokedAt = none) :
      Stage (.refresh dto next)
        (.waiting (.compare dto.refreshToken session.refreshTokenHash) (.refreshCompared dto next session))
  | refreshCompared (dto : RefreshTokenDto) (next : String) (session : SessionEntity) (live : session.revokedAt = none)
      (now : ℤ) : Stage (.refresh dto next)
        (.ready (.compared (session.refreshTokenHash.compare dto.refreshToken) now) (.refreshCompared dto next session))
  | refreshFindUser (dto : RefreshTokenDto) (next : String) (session : SessionEntity) (live : session.revokedAt = none)
      (own : dto.refreshToken = session.refreshTokenHash.token) :
      Stage (.refresh dto next) (.waiting (.findUser session.userId) (.refreshUser dto next session))
  | refreshUser (dto : RefreshTokenDto) (next : String) (session : SessionEntity) (live : session.revokedAt = none)
      (own : dto.refreshToken = session.refreshTokenHash.token) (found : Option UserEntity) :
      Stage (.refresh dto next) (.ready (.user found) (.refreshUser dto next session))
  | refreshHash (dto : RefreshTokenDto) (next : String) (session : SessionEntity) (live : session.revokedAt = none)
      (own : dto.refreshToken = session.refreshTokenHash.token) (user : UserEntity) :
      Stage (.refresh dto next) (.waiting (.hash next) (.refreshHashed dto next session user))
  | refreshHashed (dto : RefreshTokenDto) (next : String) (session : SessionEntity) (live : session.revokedAt = none)
      (own : dto.refreshToken = session.refreshTokenHash.token) (user : UserEntity) (now : ℤ) :
      Stage (.refresh dto next) (.ready (.hashed ⟨next⟩ now) (.refreshHashed dto next session user))
  | refreshSave (dto : RefreshTokenDto) (next : String) (session : SessionEntity) (live : session.revokedAt = none)
      (own : dto.refreshToken = session.refreshTokenHash.token) (user : UserEntity) (expiresAt : ℤ) :
      Stage (.refresh dto next)
        (.waiting (.saveSession dto.sessionId { session with refreshTokenHash := ⟨next⟩, expiresAt := expiresAt })
          (.refreshSaved dto next session user))
  | refreshSaved (dto : RefreshTokenDto) (next : String) (session : SessionEntity) (user : UserEntity) :
      Stage (.refresh dto next) (.ready .saved (.refreshSaved dto next session user))
  | refreshed (dto : RefreshTokenDto) (next : String) (accessToken : AccessToken) :
      Stage (.refresh dto next) (.finished (.refreshed accessToken next dto.sessionId))
  | failed (dto : RefreshTokenDto) (next : String) (error : ServiceError) :
      Stage (.refresh dto next) (.finished (.failed error))
  | logoutFind (dto : RefreshTokenDto) : Stage (.logout dto) (.waiting (.findSession dto.sessionId) (.logoutFound dto))
  | logoutFound (dto : RefreshTokenDto) (found : Option SessionEntity) (now : ℤ) :
      Stage (.logout dto) (.ready (.session found now) (.logoutFound dto))
  | logoutCompare (dto : RefreshTokenDto) (session : SessionEntity) :
      Stage (.logout dto) (.waiting (.compare dto.refreshToken session.refreshTokenHash) (.logoutCompared dto session))
  | logoutCompared (dto : RefreshTokenDto) (session : SessionEntity) (same : Bool) (now : ℤ) :
      Stage (.logout dto) (.ready (.compared same now) (.logoutCompared dto session))
  | logoutSave (dto : RefreshTokenDto) (session : SessionEntity) (now : ℤ) :
      Stage (.logout dto)
        (.waiting (.saveSession dto.sessionId { session with revokedAt := some now }) (.logoutSaved dto))
  | logoutSaved (dto : RefreshTokenDto) : Stage (.logout dto) (.ready .saved (.logoutSaved dto))
  | loggedOut (dto : RefreshTokenDto) (revoked : Bool) : Stage (.logout dto) (.finished (.loggedOut revoked))

/-- The session and the token of a refresh that has written the session. -/
def consumed (thread : SessionThread) : Option (String × String) :=
  match thread.call, thread.progress with
  | .refresh dto _, .ready _ (.refreshSaved _ _ _ _) => some (dto.sessionId, dto.refreshToken)
  | .refresh dto _, .finished (.refreshed _ _ _) => some (dto.sessionId, dto.refreshToken)
  | _, _ => none

/-- The session and the token of a refresh that has succeeded. -/
def accepted (thread : SessionThread) : Option (String × String) :=
  match thread.call, thread.progress with
  | .refresh dto _, .finished (.refreshed _ _ _) => some (dto.sessionId, dto.refreshToken)
  | _, _ => none

/-- The session that a logout has revoked. -/
def revoked (thread : SessionThread) : Option String :=
  match thread.call, thread.progress with
  | .logout dto, .ready _ (.logoutSaved _) => some dto.sessionId
  | .logout dto, .finished (.loggedOut true) => some dto.sessionId
  | _, _ => none

/-- The session of a logout that has completed after it has revoked it. -/
def loggedOut (thread : SessionThread) : Option String :=
  match thread.call, thread.progress with
  | .logout dto, .finished (.loggedOut true) => some dto.sessionId
  | _, _ => none

/-- The token that a call draws. -/
def SessionCall.drawn : SessionCall → Option String
  | .refresh _ next => some next
  | .logout _ => none

section Stages

variable {config : AuthConfig} {call : SessionCall}

/-- **A call begins** at a stage at which it has written nothing. -/
theorem stage_enter (config : AuthConfig) (call : SessionCall) :
    Stage call (enter config call).progress ∧ consumed ⟨call, (enter config call).progress⟩ = none ∧
      revoked ⟨call, (enter config call).progress⟩ = none := by
  cases call with
  | refresh dto next =>
      rw [enter]
      split
      · exact ⟨.failed dto next _, rfl, rfl⟩
      · exact ⟨.refreshFind dto next, rfl, rfl⟩
  | logout dto => exact ⟨.logoutFind dto, rfl, rfl⟩

/-- **A call goes on** to the next stage, and writes nothing. -/
theorem stage_resume (config : AuthConfig) {answer : Answer} {point : Point} (h : Stage call (.ready answer point)) :
    Stage call (resume config point answer).progress ∧
      consumed ⟨call, (resume config point answer).progress⟩ = consumed ⟨call, .ready answer point⟩ ∧
      revoked ⟨call, (resume config point answer).progress⟩ = revoked ⟨call, .ready answer point⟩ := by
  cases h with
  | refreshFound dto next found now =>
      cases found with
      | none => exact ⟨.failed dto next _, rfl, rfl⟩
      | some session =>
          simp only [resume]
          split
          · exact ⟨.failed dto next _, rfl, rfl⟩
          · rename_i hlive
            have hnone : session.revokedAt = none := by
              cases hr : session.revokedAt with
              | none => rfl
              | some at' => exact absurd (Or.inl (by rw [hr]; rfl)) hlive
            exact ⟨.refreshCompare dto next session hnone, rfl, rfl⟩
  | refreshCompared dto next session live now =>
      simp only [resume]
      split
      · exact ⟨.failed dto next _, rfl, rfl⟩
      · rename_i hsame
        have hown : dto.refreshToken = session.refreshTokenHash.token := by
          rw [TokenHash.compare, Bool.not_eq_false, decide_eq_true_eq] at hsame
          exact hsame
        exact ⟨.refreshFindUser dto next session live hown, rfl, rfl⟩
  | refreshUser dto next session live own found =>
      cases found with
      | none => exact ⟨.failed dto next _, rfl, rfl⟩
      | some user =>
          simp only [resume]
          split
          · exact ⟨.failed dto next _, rfl, rfl⟩
          · exact ⟨.refreshHash dto next session live own user, rfl, rfl⟩
  | refreshHashed dto next session live own user now =>
      exact ⟨.refreshSave dto next session live own user _, rfl, rfl⟩
  | refreshSaved dto next session user => exact ⟨.refreshed dto next _, rfl, rfl⟩
  | logoutFound dto found now =>
      cases found with
      | none => exact ⟨.loggedOut dto false, rfl, rfl⟩
      | some session => exact ⟨.logoutCompare dto session, rfl, rfl⟩
  | logoutCompared dto session same now =>
      cases same with
      | false => exact ⟨.loggedOut dto false, rfl, rfl⟩
      | true => exact ⟨.logoutSave dto session now, rfl, rfl⟩
  | logoutSaved dto => exact ⟨.loggedOut dto true, rfl, rfl⟩

/-- **An operation takes effect**: it reads, or a refresh writes the session, or a logout does. -/
inductive Effect (tables : Tables) : SessionCall → Operation → Point → Answer → Tables → Prop
  | read {call : SessionCall} {operation : Operation} {point : Point} {answer : Answer}
      (stage : Stage call (.ready answer point)) (fresh : consumed ⟨call, .ready answer point⟩ = none)
      (left : revoked ⟨call, .ready answer point⟩ = none) : Effect tables call operation point answer tables
  | rotate (dto : RefreshTokenDto) (next : String) (session : SessionEntity) (live : session.revokedAt = none)
      (own : dto.refreshToken = session.refreshTokenHash.token) (user : UserEntity) (expiresAt : ℤ) :
      Effect tables (.refresh dto next)
        (.saveSession dto.sessionId { session with refreshTokenHash := ⟨next⟩, expiresAt := expiresAt })
        (.refreshSaved dto next session user) .saved
        { tables with
          sessions := tables.sessions.insert dto.sessionId
            { session with refreshTokenHash := ⟨next⟩, expiresAt := expiresAt } }
  | revoke (dto : RefreshTokenDto) (session : SessionEntity) (now : ℤ) :
      Effect tables (.logout dto) (.saveSession dto.sessionId { session with revokedAt := some now }) (.logoutSaved dto)
        .saved
        { tables with
          sessions := tables.sessions.insert dto.sessionId { session with revokedAt := some now } }

/-- What a call awaits has one of these effects. -/
theorem stage_perform {operation : Operation} {point : Point} (h : Stage call (.waiting operation point)) (now : ℤ)
    (tables : Tables) :
    Effect tables call operation point (perform operation now tables).1 (perform operation now tables).2 := by
  cases h with
  | refreshFind dto next => exact .read (.refreshFound dto next _ now) rfl rfl
  | refreshCompare dto next session live => exact .read (.refreshCompared dto next session live now) rfl rfl
  | refreshFindUser dto next session live own => exact .read (.refreshUser dto next session live own _) rfl rfl
  | refreshHash dto next session live own user => exact .read (.refreshHashed dto next session live own user now) rfl rfl
  | refreshSave dto next session live own user expiresAt => exact .rotate dto next session live own user expiresAt
  | logoutFind dto => exact .read (.logoutFound dto _ now) rfl rfl
  | logoutCompare dto session => exact .read (.logoutCompared dto session _ now) rfl rfl
  | logoutSave dto session now' => exact .revoke dto session now'

/-- Nothing is consumed or revoked by a call that waits. -/
theorem consumed_waiting (call : SessionCall) (operation : Operation) (point : Point) :
    consumed ⟨call, .waiting operation point⟩ = none ∧ revoked ⟨call, .waiting operation point⟩ = none := by
  cases call <;> exact ⟨rfl, rfl⟩

end Stages

/-! ### The condition and the invariant -/

/-- The session that a refresh is about to write, as it has read it. -/
def rotation (thread : SessionThread) : Option (String × SessionEntity) :=
  match thread.progress with
  | .waiting (.saveSession id _) (.refreshSaved _ _ session _) => some (id, session)
  | _ => none

/-- **The condition on a step**: a token that is drawn is none of those before; a refresh writes the session while it
still has the token that the call has compared and is not revoked. -/
def Rotates (tables : Tables) (world : SessionWorld) : SessionTurn → Prop
  | .enter call => ∀ next ∈ call.drawn, (∀ e ∈ tables.sessions.entries, e.2.refreshTokenHash.token ≠ next) ∧
      ∀ thread ∈ world.threads, thread.call.drawn ≠ some next
  | .perform pos _ => ∀ write ∈ (world.threads[pos]?).bind rotation, ∃ row ∈ world.remote.sessions.find write.1,
      row.refreshTokenHash = write.2.refreshTokenHash ∧ row.revokedAt = none
  | .resume _ => True

instance (tables : Tables) (world : SessionWorld) : DecidablePred (Rotates tables world)
  | .enter _ => inferInstanceAs (Decidable (∀ _ ∈ _, _ ∧ _))
  | .perform _ _ => inferInstanceAs (Decidable (∀ _ ∈ _, ∃ _ ∈ _, _ ∧ _))
  | .resume _ => inferInstanceAs (Decidable True)

/-- A token that a session has had. -/
def Known (tables : Tables) (threads : List SessionThread) (token : String) : Prop :=
  (∃ id row, tables.sessions.find id = some row ∧ row.refreshTokenHash.token = token) ∨
    ∃ thread ∈ threads, consumed thread ≠ none ∧ thread.call.drawn = some token

/-- **The invariant.** -/
structure Rotating (tables : Tables) (world : SessionWorld) : Prop where
  stages : ∀ thread ∈ world.threads, Stage thread.call thread.progress
  once : (world.threads.filterMap consumed).Nodup
  drawn : (world.threads.filterMap fun thread => thread.call.drawn).Nodup
  fresh : ∀ thread ∈ world.threads, ∀ next, thread.call.drawn = some next →
    ∀ id row, tables.sessions.find id = some row → row.refreshTokenHash.token ≠ next
  held : ∀ id row, world.remote.sessions.find id = some row → row.revokedAt = none →
    Known tables world.threads row.refreshTokenHash.token
  used : ∀ p ∈ world.threads.filterMap consumed, Known tables world.threads p.2
  current : ∀ id row, world.remote.sessions.find id = some row → row.revokedAt = none →
    (id, row.refreshTokenHash.token) ∉ world.threads.filterMap consumed
  revoked : ∀ thread ∈ world.threads, ∀ id, revoked thread = some id →
    ∃ row, world.remote.sessions.find id = some row ∧ row.revokedAt ≠ none

section Step

variable {tables remote : Tables} {memory : Unit} {pre post : List SessionThread} {call : SessionCall}
  {progress progress' : Progress Operation Answer Point Outcome}

theorem Rotating.start (tables : Tables) : Rotating tables (start tables) where
  stages := fun thread h => by cases h
  once := List.nodup_nil
  drawn := List.nodup_nil
  fresh := fun thread h => by cases h
  held := fun id row hrow _ => Or.inl ⟨id, row, hrow, rfl⟩
  used := fun p h => by cases h
  current := fun id row _ _ h => by cases h
  revoked := fun thread h => by cases h

/-- What the calls have consumed, around one of them. -/
theorem consumed_around (pre post : List SessionThread) (thread : SessionThread) :
    (pre ++ thread :: post).filterMap consumed
      = pre.filterMap consumed ++ (consumed thread).toList ++ post.filterMap consumed := by
  rw [List.filterMap_append, List.filterMap_cons]
  cases consumed thread <;> simp

/-- What the calls draw does not depend on how far they are. -/
theorem drawn_around (pre post : List SessionThread) (call : SessionCall)
    (progress progress' : Progress Operation Answer Point Outcome) :
    (pre ++ ⟨call, progress'⟩ :: post).filterMap (fun thread => thread.call.drawn)
      = (pre ++ ⟨call, progress⟩ :: post).filterMap fun thread => thread.call.drawn := by
  rw [List.filterMap_append, List.filterMap_append, List.filterMap_cons, List.filterMap_cons]

/-- A token that is known stays known, when a call goes on. -/
theorem Known.around {token : String} (h : Known tables (pre ++ ⟨call, progress⟩ :: post) token)
    (hconsumed : consumed ⟨call, progress⟩ ≠ none → consumed ⟨call, progress'⟩ ≠ none) :
    Known tables (pre ++ ⟨call, progress'⟩ :: post) token := by
  rcases h with h | ⟨thread, hthread, hthen, hdrawn⟩
  · exact Or.inl h
  · rcases mem_around hthread ⟨call, progress'⟩ with rfl | hthread
    · exact Or.inr ⟨⟨call, progress'⟩, by simp, hconsumed hthen, hdrawn⟩
    · exact Or.inr ⟨thread, hthread, hthen, hdrawn⟩

/-- A call that goes on is at a stage of its own, the others at theirs. -/
theorem Rotating.stages_around (h : Rotating tables ⟨memory, remote, pre ++ ⟨call, progress⟩ :: post⟩)
    (hstage : Stage call progress') :
    ∀ thread ∈ pre ++ ⟨call, progress'⟩ :: post, Stage thread.call thread.progress := by
  intro thread hthread
  rcases mem_around hthread ⟨call, progress⟩ with rfl | hthread
  · exact hstage
  · exact h.stages thread hthread

/-- What is drawn is no token of the start, however far the calls are. -/
theorem Rotating.fresh_around (h : Rotating tables ⟨memory, remote, pre ++ ⟨call, progress⟩ :: post⟩) :
    ∀ thread ∈ pre ++ ⟨call, progress'⟩ :: post, ∀ next, thread.call.drawn = some next →
      ∀ id row, tables.sessions.find id = some row → row.refreshTokenHash.token ≠ next := by
  intro thread hthread
  rcases mem_around hthread ⟨call, progress⟩ with rfl | hthread
  · exact h.fresh ⟨call, progress⟩ (by simp)
  · exact h.fresh thread hthread

/-- **The token that a refresh has drawn** is none that a session has had, before the refresh has written it. -/
theorem Rotating.unknown {next : String} (h : Rotating tables ⟨memory, remote, pre ++ ⟨call, progress⟩ :: post⟩)
    (hdrawn : call.drawn = some next) (hconsumed : consumed ⟨call, progress⟩ = none) :
    ¬Known tables (pre ++ ⟨call, progress⟩ :: post) next := by
  rintro (⟨id, row, hrow, htoken⟩ | ⟨thread, hthread, hthen, hsame⟩)
  · exact h.fresh _ (List.mem_append_right _ List.mem_cons_self) next hdrawn id row hrow htoken
  · have hdistinct := h.drawn
    rw [List.filterMap_append, List.filterMap_cons, hdrawn] at hdistinct
    have hnot := (List.nodup_cons.mp (List.nodup_middle.mp hdistinct)).1
    rw [← List.filterMap_append] at hnot
    refine hnot (List.mem_filterMap.mpr ⟨thread, ?_, hsame⟩)
    rcases List.mem_append.mp hthread with hin | hin
    · exact List.mem_append_left _ hin
    · rcases List.mem_cons.mp hin with rfl | hin
      · exact absurd hconsumed hthen
      · exact List.mem_append_right _ hin

/-- **A call that goes on** and writes nothing keeps the invariant. -/
theorem Rotating.quiet {memory' : Unit} (h : Rotating tables ⟨memory, remote, pre ++ ⟨call, progress⟩ :: post⟩)
    (hstage : Stage call progress') (hconsumed : consumed ⟨call, progress'⟩ = consumed ⟨call, progress⟩)
    (hrevoked : Auth.revoked ⟨call, progress'⟩ = Auth.revoked ⟨call, progress⟩) :
    Rotating tables ⟨memory', remote, pre ++ ⟨call, progress'⟩ :: post⟩ := by
  have hall : (pre ++ ⟨call, progress'⟩ :: post).filterMap consumed
      = (pre ++ ⟨call, progress⟩ :: post).filterMap consumed := by
    rw [consumed_around, consumed_around, hconsumed]
  have hknown : ∀ token, Known tables (pre ++ ⟨call, progress⟩ :: post) token →
      Known tables (pre ++ ⟨call, progress'⟩ :: post) token := fun token ht => ht.around (by rw [hconsumed]; exact id)
  refine ⟨h.stages_around hstage, hall ▸ h.once, drawn_around pre post call progress progress' ▸ h.drawn,
    h.fresh_around, fun id row hrow hlive => hknown _ (h.held id row hrow hlive),
    fun p hp => hknown _ (h.used p (hall ▸ hp)), fun id row hrow hlive => hall ▸ h.current id row hrow hlive,
    fun thread hthread id hid => ?_⟩
  · rcases mem_around hthread ⟨call, progress⟩ with rfl | hthread
    · exact h.revoked ⟨call, progress⟩ (by simp) id (hrevoked ▸ hid)
    · exact h.revoked thread hthread id hid

/-- **A refresh that writes the session** keeps the invariant under the condition. -/
theorem Rotating.rotate {dto : RefreshTokenDto} {next : String} {session : SessionEntity} {user : UserEntity}
    {expiresAt : ℤ} {operation : Operation} {point : Point}
    (h : Rotating tables ⟨memory, remote, pre ++ ⟨.refresh dto next, .waiting operation point⟩ :: post⟩)
    (own : dto.refreshToken = session.refreshTokenHash.token) {row : SessionEntity}
    (hrow : remote.sessions.find dto.sessionId = some row)
    (hsame : row.refreshTokenHash = session.refreshTokenHash) (hlive : row.revokedAt = none) :
    Rotating tables ⟨memory, { remote with
        sessions := remote.sessions.insert dto.sessionId
          { session with refreshTokenHash := ⟨next⟩, expiresAt := expiresAt } },
      pre ++ ⟨.refresh dto next, .ready .saved (.refreshSaved dto next session user)⟩ :: post⟩ := by
  have htoken : row.refreshTokenHash.token = dto.refreshToken := by rw [hsame, own]
  have hold : (pre ++ ⟨.refresh dto next, .waiting operation point⟩ :: post).filterMap consumed
      = pre.filterMap consumed ++ post.filterMap consumed := by
    rw [consumed_around, (consumed_waiting _ _ _).1]
    simp
  have hnew : (pre ++ ⟨.refresh dto next, .ready .saved (.refreshSaved dto next session user)⟩ :: post).filterMap
      consumed = pre.filterMap consumed ++ (dto.sessionId, dto.refreshToken) :: post.filterMap consumed := by
    rw [consumed_around]
    simp [consumed]
  have hmem : ∀ p, p ∈ (pre ++ ⟨.refresh dto next, .ready .saved (.refreshSaved dto next session user)⟩
      :: post).filterMap consumed → p = (dto.sessionId, dto.refreshToken) ∨
        p ∈ (pre ++ ⟨.refresh dto next, .waiting operation point⟩ :: post).filterMap consumed := by
    intro p hp
    rw [hnew] at hp
    rw [hold]
    exact List.mem_cons.mp (List.perm_middle.mem_iff.mp hp)
  have hknown : ∀ token, Known tables (pre ++ ⟨.refresh dto next, .waiting operation point⟩ :: post) token →
      Known tables (pre ++ ⟨.refresh dto next, .ready .saved (.refreshSaved dto next session user)⟩ :: post) token :=
    fun token ht => ht.around fun hthen => absurd (consumed_waiting _ _ _).1 hthen
  have hpresented := h.current dto.sessionId row hrow hlive
  rw [htoken] at hpresented
  have hheld := h.held dto.sessionId row hrow hlive
  rw [htoken] at hheld
  -- the token that takes its place is none that a session has had
  have hfresh : ¬Known tables (pre ++ ⟨.refresh dto next, .waiting operation point⟩ :: post) next :=
    h.unknown rfl (consumed_waiting _ _ _).1
  refine ⟨h.stages_around (.refreshSaved dto next session user), ?_, drawn_around pre post _ _ _ ▸ h.drawn,
    h.fresh_around, fun id row' hrow' hlive' => ?_, fun p hp => ?_, fun id row' hrow' hlive' hin => ?_,
    fun thread hthread id hid => ?_⟩
  · rw [hnew, List.nodup_middle, List.nodup_cons, ← hold]
    exact ⟨hpresented, h.once⟩
  · rw [SortedMap.find_insert] at hrow'
    split at hrow'
    · rw [← Option.some.inj hrow']
      exact Or.inr ⟨⟨.refresh dto next, .ready .saved (.refreshSaved dto next session user)⟩, by simp,
        by simp [consumed], rfl⟩
    · exact hknown _ (h.held id row' hrow' hlive')
  · rcases hmem p hp with rfl | hp
    · exact hknown _ hheld
    · exact hknown _ (h.used p hp)
  · rw [SortedMap.find_insert] at hrow'
    split at hrow'
    · rw [← Option.some.inj hrow'] at hin
      rcases hmem _ hin with heq | hin
      · have hsame' : next = dto.refreshToken := (Prod.mk.inj heq).2
        exact hfresh (Eq.mpr (congrArg (Known tables _) hsame') hheld)
      · exact hfresh (h.used _ hin)
    · rename_i hne
      rcases hmem _ hin with heq | hin
      · exact hne (Prod.mk.inj heq).1
      · exact h.current id row' hrow' hlive' hin
  · rcases mem_around hthread ⟨.refresh dto next, .waiting operation point⟩ with rfl | hthread
    · cases hid
    · obtain ⟨row', hrow', hrevoked'⟩ := h.revoked thread hthread id hid
      have hne : id ≠ dto.sessionId := by
        rintro rfl
        rw [hrow] at hrow'
        rw [← Option.some.inj hrow'] at hrevoked'
        exact hrevoked' hlive
      exact ⟨row', by rw [SortedMap.find_insert, if_neg hne]; exact hrow', hrevoked'⟩

/-- **A logout that writes the session** keeps the invariant. -/
theorem Rotating.revoke {dto : RefreshTokenDto} {session : SessionEntity} {now : ℤ} {operation : Operation}
    {point : Point} (h : Rotating tables ⟨memory, remote, pre ++ ⟨.logout dto, .waiting operation point⟩ :: post⟩) :
    Rotating tables ⟨memory, { remote with
        sessions := remote.sessions.insert dto.sessionId { session with revokedAt := some now } },
      pre ++ ⟨.logout dto, .ready .saved (.logoutSaved dto)⟩ :: post⟩ := by
  have hall : (pre ++ ⟨.logout dto, .ready .saved (.logoutSaved dto)⟩ :: post).filterMap consumed
      = (pre ++ ⟨.logout dto, .waiting operation point⟩ :: post).filterMap consumed := by
    rw [consumed_around, consumed_around, (consumed_waiting _ _ _).1]
    rfl
  have hknown : ∀ token, Known tables (pre ++ ⟨.logout dto, .waiting operation point⟩ :: post) token →
      Known tables (pre ++ ⟨.logout dto, .ready .saved (.logoutSaved dto)⟩ :: post) token :=
    fun token ht => ht.around fun hthen => absurd (consumed_waiting _ _ _).1 hthen
  -- a row that is not revoked is of another session
  have hother : ∀ id row, (remote.sessions.insert dto.sessionId { session with revokedAt := some now }).find id
      = some row → row.revokedAt = none → remote.sessions.find id = some row := by
    intro id row hrow hlive
    rw [SortedMap.find_insert] at hrow
    split at hrow
    · rw [← Option.some.inj hrow] at hlive
      cases hlive
    · exact hrow
  refine ⟨h.stages_around (.logoutSaved dto), hall ▸ h.once, drawn_around pre post _ _ _ ▸ h.drawn, h.fresh_around,
    fun id row hrow hlive => hknown _ (h.held id row (hother id row hrow hlive) hlive),
    fun p hp => hknown _ (h.used p (hall ▸ hp)),
    fun id row hrow hlive => hall ▸ h.current id row (hother id row hrow hlive) hlive, fun thread hthread id hid => ?_⟩
  · rw [SortedMap.find_insert]
    by_cases hsession : id = dto.sessionId
    · rw [if_pos hsession]
      exact ⟨_, rfl, by simp⟩
    · rw [if_neg hsession]
      rcases mem_around hthread ⟨.logout dto, .waiting operation point⟩ with rfl | hthread
      · exact absurd (Option.some.inj hid).symm hsession
      · exact h.revoked thread hthread id hid

/-- **Every step keeps the invariant** under the condition. -/
theorem Rotating.step {config : AuthConfig} {world world' : SessionWorld} {turn : SessionTurn}
    (h : Rotating tables world) (hmeets : Rotates tables world turn)
    (hstep : Stepped (program config) world turn world') :
    Rotating tables world' := by
  cases hstep with
  | idle => exact h
  | entered call block =>
      cases block
      obtain ⟨hstage, hconsumed, hrevoked⟩ := stage_enter config call
      have hall : (world.threads ++ ([⟨call, (enter config call).progress⟩] : List SessionThread)).filterMap consumed
          = world.threads.filterMap consumed := by
        rw [List.filterMap_append, List.filterMap_cons, hconsumed]
        simp
      have hknown : ∀ token, Known tables world.threads token →
          Known tables (world.threads ++ ([⟨call, (enter config call).progress⟩] : List SessionThread)) token := by
        rintro token (ht | ⟨thread, hthread, hrest⟩)
        · exact Or.inl ht
        · exact Or.inr ⟨thread, List.mem_append_left _ hthread, hrest⟩
      have hnext : ∀ next, call.drawn = some next →
          (∀ id row, tables.sessions.find id = some row → row.refreshTokenHash.token ≠ next) ∧
            ∀ thread ∈ world.threads, thread.call.drawn ≠ some next := by
        intro next hdrawn
        obtain ⟨hstored, hothers⟩ := hmeets next hdrawn
        exact ⟨fun id row hrow => hstored (id, row) ((SortedMap.mem_entries_iff _ _ _).mpr hrow), hothers⟩
      refine ⟨fun thread hthread => ?_, hall.symm ▸ h.once, ?_, fun thread hthread => ?_,
        fun id row hrow hlive => hknown _ (h.held id row hrow hlive), fun p hp => hknown _ (h.used p (hall ▸ hp)),
        fun id row hrow hlive => hall.symm ▸ h.current id row hrow hlive, fun thread hthread id hid => ?_⟩
      · rcases List.mem_append.mp hthread with hthread | hthread
        · exact h.stages thread hthread
        · rw [List.mem_singleton.mp hthread]
          exact hstage
      · rw [List.filterMap_append]
        cases hdrawn : call.drawn with
        | none =>
            rw [List.filterMap_cons, hdrawn]
            simpa using h.drawn
        | some next =>
            rw [List.filterMap_cons, hdrawn, List.filterMap_nil, ← List.concat_eq_append]
            refine h.drawn.concat fun hin => ?_
            obtain ⟨thread, hthread, hsame⟩ := List.mem_filterMap.mp hin
            exact (hnext next hdrawn).2 thread hthread hsame
      · rcases List.mem_append.mp hthread with hthread | hthread
        · exact h.fresh thread hthread
        · rw [List.mem_singleton.mp hthread]
          exact fun next hdrawn => (hnext next hdrawn).1
      · rcases List.mem_append.mp hthread with hthread | hthread
        · exact h.revoked thread hthread id hid
        · rw [List.mem_singleton.mp hthread, hrevoked] at hid
          cases hid
  | performed pre post call operation point now hthreads effect =>
      obtain ⟨memory, remote, threads⟩ := world
      subst hthreads
      have hstage := h.stages ⟨call, .waiting operation point⟩ (by simp)
      have hwaiting := consumed_waiting call operation point
      have heffect := stage_perform hstage now remote
      rw [show perform operation now remote = _ from effect] at heffect
      cases heffect with
      | read stage fresh left => exact h.quiet stage (fresh.trans hwaiting.1.symm) (left.trans hwaiting.2.symm)
      | rotate dto next session live own user expiresAt =>
          obtain ⟨row, hrow, hsame, hlive⟩ := hmeets (dto.sessionId, session) (by simp [rotation])
          exact h.rotate own hrow hsame hlive
      | revoke dto session now' => exact h.revoke
  | resumed pre post call answer point hthreads block =>
      obtain ⟨memory, remote, threads⟩ := world
      subst hthreads
      cases block
      obtain ⟨hstage, hconsumed, hrevoked⟩ :=
        stage_resume config (h.stages ⟨call, .ready answer point⟩ (by simp))
      exact h.quiet hstage hconsumed hrevoked

end Step

/-! ### After a logout -/

/-- How far a refresh of a revoked session can be. -/
def TurnedAway : Progress Operation Answer Point Outcome → Prop
  | .waiting (.findSession _) (.refreshFound _ _) => True
  | .ready (.session found _) (.refreshFound _ _) => ∀ row, found = some row → row.revokedAt ≠ none
  | .finished (.failed _) => True
  | _ => False

/-- **A session is closed** to the refreshes from a position on: it is revoked, and they are turned away. -/
structure Closed (id : String) (first : ℕ) (world : SessionWorld) : Prop where
  revoked : ∃ row, world.remote.sessions.find id = some row ∧ row.revokedAt ≠ none
  later : ∀ pos thread, first ≤ pos → world.threads[pos]? = some thread → ∀ dto next,
    thread.call = .refresh dto next → dto.sessionId = id → TurnedAway thread.progress

/-- **A closed session stays closed** under the condition. -/
theorem Closed.step {config : AuthConfig} {tables : Tables} {id : String} {first : ℕ} {world world' : SessionWorld}
    {turn : SessionTurn} (h : Closed id first world)
    (hstages : ∀ thread ∈ world.threads, Stage thread.call thread.progress) (hmeets : Rotates tables world turn)
    (hstep : Stepped (program config) world turn world') : Closed id first world' := by
  obtain ⟨row, hrow, hrevoked⟩ := h.revoked
  cases hstep with
  | idle => exact h
  | entered call block =>
      cases block
      refine ⟨h.revoked, fun pos thread hpos hthread dto next hcall hid => ?_⟩
      rcases Nat.lt_or_ge pos world.threads.length with hlt | hge
      · rw [List.getElem?_append_left hlt] at hthread
        exact h.later pos thread hpos hthread dto next hcall hid
      · rw [List.getElem?_append_right hge] at hthread
        obtain rfl := List.mem_singleton.mp (List.mem_of_getElem? hthread)
        obtain rfl : call = .refresh dto next := hcall
        show TurnedAway (enter config (.refresh dto next)).progress
        rw [enter]
        split <;> trivial
  | performed pre post call operation point now hthreads effect =>
      obtain ⟨memory, remote, threads⟩ := world
      subst hthreads
      have hstage := hstages ⟨call, .waiting operation point⟩ (by simp)
      have heffect := stage_perform hstage now remote
      rw [show perform operation now remote = _ from effect] at heffect
      refine ⟨?_, fun pos thread hpos hthread dto next hcall hid => ?_⟩
      · cases heffect with
        | read _ _ _ => exact h.revoked
        | rotate dto next session live own user expiresAt =>
            obtain ⟨row', hrow', _, hlive⟩ := hmeets (dto.sessionId, session) (by simp [rotation])
            have hne : id ≠ dto.sessionId := by
              rintro rfl
              rw [show remote.sessions.find dto.sessionId = some row from hrow] at hrow'
              rw [← Option.some.inj hrow'] at hlive
              exact hrevoked hlive
            exact ⟨row, by rw [SortedMap.find_insert, if_neg hne]; exact hrow, hrevoked⟩
        | revoke dto session now' =>
            rw [SortedMap.find_insert]
            split
            · exact ⟨_, rfl, by simp⟩
            · exact ⟨row, hrow, hrevoked⟩
      · rcases getElem?_around hthread ⟨call, .waiting operation point⟩ with ⟨rfl, rfl⟩ | hthread
        · obtain rfl : call = .refresh dto next := hcall
          have haway := h.later pre.length ⟨.refresh dto next, .waiting operation point⟩ hpos
            (getElem?_between pre post _) dto next rfl hid
          cases hstage with
          | refreshFind _ _ =>
              obtain ⟨rfl, rfl⟩ := Prod.mk.inj effect
              intro row' hrow'
              rw [hid] at hrow'
              rw [← Option.some.inj (hrow.symm.trans hrow')]
              exact hrevoked
          | _ => exact haway.elim
        · exact h.later pos thread hpos hthread dto next hcall hid
  | resumed pre post call answer point hthreads block =>
      obtain ⟨memory, remote, threads⟩ := world
      subst hthreads
      cases block
      have hstage := hstages ⟨call, .ready answer point⟩ (by simp)
      refine ⟨h.revoked, fun pos thread hpos hthread dto next hcall hid => ?_⟩
      rcases getElem?_around hthread ⟨call, .ready answer point⟩ with ⟨rfl, rfl⟩ | hthread
      · obtain rfl : call = .refresh dto next := hcall
        have haway := h.later pre.length ⟨.refresh dto next, .ready answer point⟩ hpos
          (getElem?_between pre post _) dto next rfl hid
        cases hstage with
        | refreshFound _ _ found now =>
            show TurnedAway (resume config (.refreshFound dto next) (.session found now)).progress
            cases found with
            | none => trivial
            | some session =>
                have hgone : session.revokedAt.isSome = true := Option.isSome_iff_ne_none.mpr (haway session rfl)
                simp only [resume]
                rw [if_pos (Or.inl hgone)]
                trivial
        | _ => exact haway.elim
      · exact h.later pos thread hpos hthread dto next hcall hid

/-! ### Runs -/

theorem consumed_of_accepted {thread : SessionThread} {p : String × String} (h : accepted thread = some p) :
    consumed thread = some p := by
  obtain ⟨call, progress⟩ := thread
  cases call with
  | refresh dto next =>
      cases progress with
      | finished outcome => cases outcome <;> exact h
      | _ => cases h
  | logout dto => cases h

/-- What has been accepted is among what has been consumed. -/
theorem accepted_sublist (threads : List SessionThread) :
    (threads.filterMap accepted).Sublist (threads.filterMap consumed) := by
  induction threads with
  | nil => exact List.Sublist.refl _
  | cons thread threads ih =>
      rw [List.filterMap_cons, List.filterMap_cons]
      cases haccepted : accepted thread with
      | none =>
          cases consumed thread with
          | none => exact ih
          | some p => exact ih.cons p
      | some p =>
          rw [consumed_of_accepted haccepted]
          exact ih.cons_cons p

theorem revoked_of_loggedOut {thread : SessionThread} {id : String} (h : loggedOut thread = some id) :
    revoked thread = some id := by
  obtain ⟨call, progress⟩ := thread
  cases call with
  | refresh dto next => cases h
  | logout dto =>
      cases progress with
      | finished outcome =>
          cases outcome with
          | loggedOut done => cases done <;> exact h
          | _ => cases h
      | _ => cases h

/-- **A token is accepted once.** -/
def AcceptedOnce (world : SessionWorld) : Prop := (world.threads.filterMap accepted).Nodup

/-- **A logout is final**: after it has completed, no refresh of its session that is made later succeeds. -/
def LogoutFinal (middle world : SessionWorld) : Prop :=
  ∀ thread ∈ middle.threads, ∀ id, loggedOut thread = some id →
    ∀ later ∈ world.threads.drop middle.threads.length, ∀ token, accepted later ≠ some (id, token)

/-- **Tokens rotate**: in every run whose steps meet the condition a token is accepted once, and a logout is final. -/
theorem tokens_rotate (config : AuthConfig) (tables : Tables) {turns : List SessionTurn}
    (h : Machine.Along (program config).exec (Rotates tables) (start tables) turns) :
    ∃ replies world, Machine.run (program config).exec (start tables) turns = .ok (replies, world) ∧
      AcceptedOnce world ∧ ∀ before after, turns = before ++ after → ∃ replies middle,
        Machine.run (program config).exec (start tables) before = .ok (replies, middle) ∧ LogoutFinal middle world := by
  have hstep : ∀ world turn reply world', Rotating tables world → Rotates tables world turn →
      (program config).exec world turn = .ok (reply, world') → Rotating tables world' :=
    fun world turn reply world' hinv hmeets hexec => hinv.step hmeets (Program.exec_spec hexec)
  have hsafe := fun turns halong => Machine.run_safe_along (Q := fun _ _ world => Rotating tables world)
    (Rotating.start tables) (fun _ _ world turn reply world' hinv hmeets hexec =>
      hstep world turn reply world' hinv hmeets hexec) turns halong
  obtain ⟨replies, world, hrun, hinv⟩ := hsafe turns h
  refine ⟨replies, world, hrun, hinv.once.sublist (accepted_sublist _), ?_⟩
  rintro before after rfl
  obtain ⟨hbefore, hafter⟩ := Machine.along_append.mp h
  obtain ⟨replies', middle, hmiddle, hinv'⟩ := hsafe before hbefore
  refine ⟨replies', middle, hmiddle, fun thread hthread id hlogout => ?_⟩
  have hclosed : Closed id middle.threads.length middle := by
    refine ⟨hinv'.revoked thread hthread id (revoked_of_loggedOut hlogout), fun pos later hpos hlater => ?_⟩
    rw [List.getElem?_eq_none hpos] at hlater
    cases hlater
  -- from the end of the logout on, the session stays closed
  have hlast : Closed id middle.threads.length world := by
    obtain ⟨_, middle', replies'', hfirst, hsecond, _⟩ := Machine.run_append.mp hrun
    rw [hmiddle] at hfirst
    cases hfirst
    refine (Machine.run_history_along (Q := fun _ _ world => Rotating tables world ∧
      Closed id middle.threads.length world) ⟨hinv', hclosed⟩ ?_ after _ world hsecond (hafter _ _ hmiddle)).2
    intro _ _ world turn reply world' hboth hmeets hexec
    exact ⟨hstep world turn reply world' hboth.1 hmeets hexec,
      hboth.2.step hboth.1.stages hmeets (Program.exec_spec hexec)⟩
  intro later hlater token haccepted
  obtain ⟨offset, hoffset⟩ := List.mem_iff_getElem?.mp hlater
  rw [List.getElem?_drop] at hoffset
  obtain ⟨call, progress⟩ := later
  cases call with
  | logout dto => cases haccepted
  | refresh dto next =>
      cases progress with
      | finished outcome =>
          cases outcome with
          | refreshed accessToken refreshToken sessionId =>
              have hid : dto.sessionId = id := (Prod.mk.inj (Option.some.inj haccepted)).1
              exact hlast.later _ _ (Nat.le_add_right _ _) hoffset dto next rfl hid
          | _ => cases haccepted
      | _ => cases haccepted

/-- A session of an active user. -/
def oneSession : Tables where
  users := .insert .empty "user-1" ⟨"user@example.com", .active, none⟩
  sessions := .insert .empty "session-1" ⟨"user-1", ⟨"token-1"⟩, 1000, none⟩

def userConfig : AuthConfig := ⟨true, fun _ => ["user"]⟩

/-- A refresh, and then a logout with the next token and a refresh after it. -/
def refreshThenLogout : List SessionTurn :=
  [.enter (.refresh ⟨"session-1", "token-1"⟩ "token-2")] ++
    (List.replicate 5 [.perform 0 10, .resume 0]).flatten ++ [.enter (.logout ⟨"session-1", "token-2"⟩)] ++
    (List.replicate 3 [.perform 1 20, .resume 1]).flatten ++
    [.enter (.refresh ⟨"session-1", "token-2"⟩ "token-3"), .perform 2 30, .resume 2]

theorem tokens_rotate_logout :
    ∃ replies world, Machine.run (program userConfig).exec (start oneSession) refreshThenLogout = .ok (replies, world) ∧
      AcceptedOnce world ∧ world.threads.filterMap accepted = [("session-1", "token-1")] := by
  have hmeets : Machine.Along (program userConfig).exec (Rotates oneSession) (start oneSession) refreshThenLogout := by
    decide +kernel
  obtain ⟨replies, world, hrun, honce, _⟩ := tokens_rotate userConfig oneSession hmeets
  have haccepted : (Machine.run (program userConfig).exec (start oneSession) refreshThenLogout).map
      (fun r => r.2.threads.filterMap accepted) = .ok [("session-1", "token-1")] := by decide +kernel
  rw [hrun] at haccepted
  exact ⟨replies, world, hrun, honce, Except.ok.inj haccepted⟩

/-- Two refreshes with one token that read the session before either has written it. -/
def twoRefreshes : List SessionTurn :=
  [.enter (.refresh ⟨"session-1", "token-1"⟩ "token-2"), .enter (.refresh ⟨"session-1", "token-1"⟩ "token-3")] ++
    (List.replicate 5 [.perform 0 10, .perform 1 10, .resume 0, .resume 1]).flatten

/-- **A refresh token is accepted twice** by two refreshes that proceed together. -/
theorem token_accepted_twice :
    ∃ replies world, Machine.run (program userConfig).exec (start oneSession) twoRefreshes = .ok (replies, world) ∧
      world.threads.filterMap accepted = [("session-1", "token-1"), ("session-1", "token-1")] ∧
      ¬AcceptedOnce world := by
  have haccepted : (Machine.run (program userConfig).exec (start oneSession) twoRefreshes).map
      (fun r => r.2.threads.filterMap accepted) = .ok [("session-1", "token-1"), ("session-1", "token-1")] := by
    decide +kernel
  cases hrun : Machine.run (program userConfig).exec (start oneSession) twoRefreshes with
  | error e => cases e
  | ok r =>
      rw [hrun] at haccepted
      have hthreads : r.2.threads.filterMap accepted = [("session-1", "token-1"), ("session-1", "token-1")] :=
        Except.ok.inj haccepted
      refine ⟨r.1, r.2, rfl, hthreads, ?_⟩
      rw [AcceptedOnce, hthreads]
      decide +kernel

end NexusTrade.Auth
