/-
Histories of requests, and what they may do to tokens.

A history keeps a log: which token was issued to whom, which refresh token was
exchanged for a new one, and when a password was set or a user deactivated.  The
routes never see it.  Whatever route is served, database and log change by a few
kinds of `Effect` only, so what holds of every history is proved once for each kind,
not once for each route.

Refresh tokens are drawn at random: a drawn token has not been issued before, and no
two of the tokens that occur have the same hash.
-/
import Mathlib.Data.Set.Function
import Mathlib.Logic.Relation
import GovCrawler.Auth.Routes
import GovCrawler.Lib.Transition

namespace GovCrawler

open Relational Transition

/-! ### The log -/

inductive Entry
  | access (token : String) (userId : Nat)
  | refresh (token : String) (sessionId userId : Nat)
  /-- The refresh token was exchanged for a new one. -/
  | rotated (token : String) (userId : Nat)
  /-- The password of the user was set, or the user was deactivated. -/
  | voided (userId : Nat)
  deriving DecidableEq, Repr

/-- The newest entry comes first. -/
abbrev Log := List Entry

/-- The refresh token has been issued. -/
def issued (log : Log) (token : String) : Bool :=
  log.any fun
    | .refresh t _ _ => t == token
    | _ => false

theorem issued_of_mem {log : Log} {token : String} {sessionId userId : Nat}
    (h : Entry.refresh token sessionId userId ∈ log) : issued log token = true :=
  List.any_eq_true.mpr ⟨_, h, by simp⟩

/-- Nothing was voided for the user since the entry, however often it was made. -/
def SinceVoided (log : Log) (entry : Entry) (userId : Nat) : Prop :=
  ∀ newer older, log = newer ++ entry :: older → Entry.voided userId ∉ newer

theorem SinceVoided.cons {log : Log} {entry e : Entry} {userId : Nat}
    (h : SinceVoided log entry userId) (he : e ≠ .voided userId) :
    SinceVoided (e :: log) entry userId := by
  intro newer older hsplit
  rcases List.cons_eq_append_iff.mp hsplit with ⟨rfl, -⟩ | ⟨newer', rfl, hold⟩
  · simp
  · intro hmem
    rcases List.mem_cons.mp hmem with heq | hmem
    · exact he heq.symm
    · exact h newer' older hold hmem

theorem SinceVoided.new {log : Log} {entry : Entry} {userId : Nat} (h : entry ∉ log) :
    SinceVoided (entry :: log) entry userId := by
  intro newer older hsplit
  rcases List.cons_eq_append_iff.mp hsplit with ⟨rfl, -⟩ | ⟨newer', rfl, hold⟩
  · simp
  · exact absurd (hold ▸ List.mem_append_right _ (List.mem_cons_self ..)) h

/-! ### Histories -/

structure AuthWorld where
  state : AuthState
  log : Log

inductive AuthAction
  | login (req : LoginRequest) (ctx : RequestContext) (clock : Clock) (fresh : String)
  | refresh (refreshToken : Option String) (ctx : RequestContext) (now : Time) (fresh : String)
  | logout (refreshToken : Option String) (ctx : RequestContext) (now : Time)
  | revokeSession (sessionId : Nat) (ctx : RequestContext) (now : Time)
  | revokeOthers (ctx : RequestContext) (now : Time)
  /-- `POST /api/admin/users/{user_id}/reset-password`, past its checks. -/
  | setPassword (userId : Nat) (password : String) (now : Time)
  /-- `PATCH /api/admin/users/{user_id}`, past its checks. -/
  | setUserActive (userId : Nat) (isActive : Bool) (now : Time)
  /-- `POST /api/admin/users`, past its checks. -/
  | createUser (email password : String) (fullName : Option String) (isAdmin : Bool)
      (roleName : Option String)

/-- The refresh tokens a request draws or exchanges. -/
def AuthAction.tokens : AuthAction → List String
  | .login _ _ _ fresh => [fresh]
  | .refresh refreshToken ctx _ fresh => fresh :: (presentedToken refreshToken ctx).toList
  | _ => []

/-- What a login adds to the log: the new session gets the next key. -/
def loginEntries (sessionId : Nat) : Except HttpError TokenResponse → Log
  | .error _ => []
  | .ok response =>
      [.refresh response.refreshToken sessionId response.user.id,
        .access response.accessToken response.user.id]

/-- What an exchange of `token` adds to it. -/
def refreshEntries (session : Option UserSession) (token : Option String) :
    Except HttpError TokenResponse → Log
  | .error _ => []
  | .ok response =>
      match session, token with
      | some session, some token =>
          [.access response.accessToken response.user.id,
            .refresh response.refreshToken session.id session.userId,
            .rotated token session.userId]
      | _, _ => []

/-- The session of a presented token. -/
def sessionOf (settings : AuthSettings) (db : AuthDb) (token : Option String) :
    Option UserSession :=
  token.bind fun t => db.getSessionByHash (settings.lib.hashRefreshToken t)

/-- What setting a password or deactivating adds to it, where there is such a user. -/
def voidedEntries (userId : Nat) (done : Bool) : Log := if done then [.voided userId] else []

/-- Serve a request; `none` where the token it draws is one that was drawn before. -/
def AuthWorld.step (settings : AuthSettings) (w : AuthWorld) : AuthAction → Option AuthWorld
  | .login req ctx clock fresh =>
      if issued w.log fresh then none
      else
        let r := login settings w.state req ctx clock fresh
        some ⟨r.2, loginEntries w.state.db.userSessions.nextKey r.1 ++ w.log⟩
  | .refresh refreshToken ctx now fresh =>
      if issued w.log fresh then none
      else
        let r := refresh settings w.state refreshToken ctx now fresh
        let token := presentedToken refreshToken ctx
        some ⟨r.2, refreshEntries (sessionOf settings w.state.db token) token r.1 ++ w.log⟩
  | .logout refreshToken ctx now => some ⟨logout settings w.state refreshToken ctx now, w.log⟩
  | .revokeSession sessionId ctx now =>
      some ⟨(revokeSessionRoute settings w.state sessionId ctx now).2, w.log⟩
  | .revokeOthers ctx now => some ⟨(revokeOtherSessions settings w.state ctx now).2, w.log⟩
  | .setPassword userId password now =>
      let r := w.state.db.setPassword settings.lib userId password now
      some ⟨{ w.state with db := r.2 }, voidedEntries userId r.1 ++ w.log⟩
  | .setUserActive userId isActive now =>
      let r := w.state.db.setUserActive userId isActive now
      some ⟨{ w.state with db := r.2 }, voidedEntries userId (r.1 && !isActive) ++ w.log⟩
  | .createUser email password fullName isAdmin roleName =>
      some
        { w with
          state := { w.state with
            db := w.state.db.createUser settings.lib email password fullName isAdmin roleName } }

/-- Users there are, but nobody has logged in yet. -/
def AuthWorld.init (db : AuthDb) : AuthWorld where
  state := { db := { db with userSessions := Table.empty }, failedLoginAttempts := fun _ => [] }
  log := []

/-! ### Effects -/

def AuthWorld.setDb (w : AuthWorld) (db : AuthDb) : AuthWorld :=
  { w with state := { w.state with db } }

/-- What a request may do to the tokens, in small.  All tokens are from `tokens`. -/
inductive Effect (settings : AuthSettings) (tokens : Set String) : AuthWorld → AuthWorld → Prop
  /-- The rate limit is nobody's business here. -/
  | attempts (w : AuthWorld) (s : AuthState) (hs : s.db = w.state.db) :
      Effect settings tokens w ⟨s, w.log⟩
  /-- Something about an account other than its token version. -/
  | account (w : AuthWorld) (userId : Nat) (f : User → User) (hid : ∀ u, (f u).id = u.id)
      (hversion : ∀ u, (f u).tokenVersion = u.tokenVersion) :
      Effect settings tokens w (w.setDb (w.state.db.updateUser userId f hid))
  | enrol (w : AuthWorld) (email password : String) (fullName : Option String) (isAdmin : Bool)
      (roleName : Option String) :
      Effect settings tokens w
        (w.setDb (w.state.db.createUser settings.lib email password fullName isAdmin roleName))
  /-- An access token for the version the user is at. -/
  | grant (w : AuthWorld) (user row : User) (now : Time)
      (hrow : w.state.db.getUserById user.id = some row)
      (hversion : user.tokenVersion = row.tokenVersion) :
      Effect settings tokens w
        { w with log := .access (createAccessToken settings user now) user.id :: w.log }
  /-- A new session and its first refresh token. -/
  | opening (w : AuthWorld) (userId : Nat) (fresh : String) (expires : Time)
      (userAgent ip : Option String) (hfresh : issued w.log fresh = false) (hin : fresh ∈ tokens) :
      Effect settings tokens w
        { w.setDb (w.state.db.createSession userId (settings.lib.hashRefreshToken fresh) expires
            userAgent ip) with
          log := .refresh fresh w.state.db.userSessions.nextKey userId :: w.log }
  /-- The refresh token of a live session is exchanged for a new one. -/
  | exchange (w : AuthWorld) (session : UserSession) (token fresh : String) (expires now : Time)
      (hrow : w.state.db.session? session.id = some session)
      (hlive : session.revokedAt = none)
      (htoken : session.refreshTokenHash = settings.lib.hashRefreshToken token)
      (hknown : token ∈ tokens) (hfresh : issued w.log fresh = false) (hin : fresh ∈ tokens) :
      Effect settings tokens w
        { w.setDb (w.state.db.rotateSession session.id (settings.lib.hashRefreshToken fresh)
            expires now) with
          log := .refresh fresh session.id session.userId :: .rotated token session.userId :: w.log }
  | revoke (w : AuthWorld) (p : UserSession → Bool) (now : Time) :
      Effect settings tokens w (w.setDb (w.state.db.revokeWhere p now))
  /-- The token version goes up and every session of the user is revoked, together. -/
  | void (w : AuthWorld) (userId : Nat) (f : User → User) (hid : ∀ u, (f u).id = u.id)
      (hversion : ∀ u, (f u).tokenVersion = u.tokenVersion + 1) (now : Time) :
      Effect settings tokens w
        { w.setDb ((w.state.db.updateUser userId f hid).revokeSessionFamily userId now) with
          log := .voided userId :: w.log }

/-! ### Every request is made of effects -/

theorem db_checkLoginRateLimit (config : AuthConfig) (s : AuthState) (ip : Option String)
    (now : Time) : (checkLoginRateLimit config s ip now).2.db = s.db := by
  unfold checkLoginRateLimit
  cases given ip with
  | none => rfl
  | some ip =>
      dsimp only
      split <;> rfl

theorem db_recordLoginFailureForRateLimit (s : AuthState) (ip : Option String) (now : Time) :
    (recordLoginFailureForRateLimit s ip now).db = s.db := by
  unfold recordLoginFailureForRateLimit
  cases given ip <;> rfl

section Refinement

variable {settings : AuthSettings} {tokens : Set String}

theorem effect_recordLoginFailure (w : AuthWorld) (userId threshold lockoutMinutes : Nat)
    (now : Time) :
    Effect settings tokens w
      (w.setDb (w.state.db.recordLoginFailure userId threshold lockoutMinutes now)) :=
  .account w userId _ (by intro _; rfl) (by intro _; rfl)

theorem effect_recordLoginSuccess (w : AuthWorld) (userId : Nat) (now : Time) :
    Effect settings tokens w (w.setDb (w.state.db.recordLoginSuccess userId now)) :=
  .account w userId _ (by intro _; rfl) (by intro _; rfl)

theorem effects_loginUser (w : AuthWorld) {user : User}
    (huser : w.state.db.getUserById user.id = some user) (password : String)
    (ctx : RequestContext) (clock : Clock) {fresh : String} (hfresh : issued w.log fresh = false)
    (hin : fresh ∈ tokens) :
    Relation.ReflTransGen (Effect settings tokens) w
      ⟨(loginUser settings w.state user password ctx clock fresh).2,
        loginEntries w.state.db.userSessions.nextKey
          (loginUser settings w.state user password ctx clock fresh).1 ++ w.log⟩ := by
  unfold loginUser
  by_cases hlocked : user.lockedUntil.any (fun t => decide (clock.utcnow < t)) = true
  · rw [if_pos hlocked]
    exact .refl
  rw [if_neg hlocked]
  by_cases hactive : user.isActive = false
  · rw [if_pos hactive]
    exact .refl
  rw [if_neg hactive]
  by_cases hpassword : settings.lib.verifyPassword user.passwordHash password = false
  · rw [if_pos hpassword]
    refine .tail (.single (effect_recordLoginFailure w user.id settings.config.lockoutThreshold
      settings.config.lockoutMinutes clock.utcnow)) (.attempts _ _ ?_)
    exact db_recordLoginFailureForRateLimit _ ctx.ip clock.monotonic
  · rw [if_neg hpassword]
    have hrow : (w.state.db.recordLoginSuccess user.id clock.utcnow).getUserById user.id =
        some
          { user with
            failedLogins := 0
            lockedUntil := none
            lastLoginAt := some clock.utcnow } := by
      unfold AuthDb.recordLoginSuccess
      rw [AuthDb.getUserById_updateUser, huser, Option.map_some, if_pos (beq_self_eq_true _)]
    refine .head (effect_recordLoginSuccess w user.id clock.utcnow) ?_
    refine .head (.grant _ user _ clock.utcnow hrow rfl) ?_
    exact .single (.opening _ user.id fresh _ ctx.userAgent ctx.ip hfresh hin)

theorem effects_login (w : AuthWorld) (req : LoginRequest) (ctx : RequestContext) (clock : Clock)
    {fresh : String} (hfresh : issued w.log fresh = false) (hin : fresh ∈ tokens) :
    Relation.ReflTransGen (Effect settings tokens) w
      ⟨(login settings w.state req ctx clock fresh).2,
        loginEntries w.state.db.userSessions.nextKey
          (login settings w.state req ctx clock fresh).1 ++ w.log⟩ := by
  have hdb := db_checkLoginRateLimit settings.config w.state ctx.ip clock.monotonic
  unfold login
  generalize checkLoginRateLimit settings.config w.state ctx.ip clock.monotonic = r at hdb
  obtain ⟨checked, s⟩ := r
  have hlimit : Effect settings tokens w ⟨s, w.log⟩ := .attempts w s hdb
  cases checked with
  | error e => exact .single hlimit
  | ok x =>
      dsimp only
      rw [← show s.db = w.state.db from hdb]
      cases hemail : s.db.getUserByEmail settings.lib req.email with
      | none =>
          exact .tail (.single hlimit)
            (.attempts _ _ (db_recordLoginFailureForRateLimit s ctx.ip clock.monotonic))
      | some user =>
          exact .head hlimit (effects_loginUser ⟨s, w.log⟩ (Table.first?_spec hemail).2
            req.password ctx clock hfresh hin)

theorem effects_refresh (w : AuthWorld) (refreshToken : Option String) (ctx : RequestContext)
    (now : Time) {fresh : String} (hfresh : issued w.log fresh = false) (hin : fresh ∈ tokens)
    (hknown : ∀ token ∈ presentedToken refreshToken ctx, token ∈ tokens) :
    Relation.ReflTransGen (Effect settings tokens) w
      ⟨(refresh settings w.state refreshToken ctx now fresh).2,
        refreshEntries (sessionOf settings w.state.db (presentedToken refreshToken ctx))
          (presentedToken refreshToken ctx)
          (refresh settings w.state refreshToken ctx now fresh).1 ++ w.log⟩ := by
  unfold refresh sessionOf
  cases hpresented : presentedToken refreshToken ctx with
  | none => exact .refl
  | some token =>
      rw [Option.bind_some]
      dsimp only
      cases hsession : w.state.db.getSessionByHash (settings.lib.hashRefreshToken token) with
      | none => exact .refl
      | some session =>
          obtain ⟨hhash, hrow⟩ := AuthDb.getSessionByHash_spec hsession
          dsimp only
          unfold refreshSession
          by_cases hrevoked : session.revokedAt.isSome = true
          · rw [if_pos hrevoked]
            exact .single (.revoke w _ now)
          rw [if_neg hrevoked]
          by_cases hexpired : session.expiresAt < now
          · rw [if_pos hexpired]
            exact .refl
          rw [if_neg hexpired]
          cases huser : w.state.db.getUserById session.userId with
          | none => exact .refl
          | some user =>
              dsimp only
              by_cases hactive : user.isActive = false
              · rw [if_pos hactive]
                exact .refl
              rw [if_neg hactive]
              have hid : user.id = session.userId := Table.get?_key huser
              have hlive : session.revokedAt = none := by simpa using hrevoked
              refine .head (.exchange w session token fresh
                (now + days settings.config.refreshTtlDays) now hrow hlive hhash
                (hknown token hpresented) hfresh hin) ?_
              exact .single (.grant _ user user now (hid ▸ huser) rfl)

theorem effects_setPassword (w : AuthWorld) (userId : Nat) (password : String) (now : Time) :
    Relation.ReflTransGen (Effect settings tokens) w
      ⟨{ w.state with db := (w.state.db.setPassword settings.lib userId password now).2 },
        voidedEntries userId (w.state.db.setPassword settings.lib userId password now).1 ++
          w.log⟩ := by
  unfold AuthDb.setPassword
  cases w.state.db.users.get? userId with
  | none => exact .refl
  | some user => exact .single (.void w userId _ (by intro _; rfl) (by intro _; rfl) now)

theorem effects_setUserActive (w : AuthWorld) (userId : Nat) (isActive : Bool) (now : Time) :
    Relation.ReflTransGen (Effect settings tokens) w
      ⟨{ w.state with db := (w.state.db.setUserActive userId isActive now).2 },
        voidedEntries userId
          ((w.state.db.setUserActive userId isActive now).1 && !isActive) ++ w.log⟩ := by
  unfold AuthDb.setUserActive
  cases w.state.db.users.get? userId with
  | none => exact .refl
  | some user =>
      cases isActive with
      | true => exact .single (.account w userId _ (by intro _; rfl) (by intro _; rfl))
      | false => exact .single (.void w userId _ (by intro _; rfl) (by intro _; rfl) now)

/-- **Every request is made of effects.** -/
theorem step_effects {w w' : AuthWorld} {a : AuthAction} (hin : ∀ t ∈ a.tokens, t ∈ tokens)
    (hs : w.step settings a = some w') : Relation.ReflTransGen (Effect settings tokens) w w' := by
  cases a with
  | login req ctx clock fresh =>
      simp only [AuthWorld.step] at hs
      split at hs
      · cases hs
      · next hfresh =>
          obtain rfl := Option.some.inj hs
          exact effects_login w req ctx clock (by simpa using hfresh)
            (hin fresh (by simp [AuthAction.tokens]))
  | refresh refreshToken ctx now fresh =>
      simp only [AuthWorld.step] at hs
      split at hs
      · cases hs
      · next hfresh =>
          obtain rfl := Option.some.inj hs
          refine effects_refresh w refreshToken ctx now (by simpa using hfresh)
            (hin fresh (by simp [AuthAction.tokens])) fun token htoken => hin token ?_
          exact List.mem_cons_of_mem _ (Option.mem_toList.mpr htoken)
  | logout refreshToken ctx now =>
      obtain rfl := Option.some.inj hs
      unfold logout
      cases presentedToken refreshToken ctx with
      | none => exact .refl
      | some token =>
          dsimp only
          cases w.state.db.getSessionByHash (settings.lib.hashRefreshToken token) with
          | none => exact .refl
          | some session => exact .single (.revoke w _ now)
  | revokeSession sessionId ctx now =>
      obtain rfl := Option.some.inj hs
      unfold revokeSessionRoute
      split
      · exact .refl
      · exact .refl
      · split
        · exact .refl
        · split
          · exact .refl
          · exact .single (.revoke w _ now)
  | revokeOthers ctx now =>
      obtain rfl := Option.some.inj hs
      unfold revokeOtherSessions
      split
      · exact .refl
      · exact .refl
      · exact .single (.revoke w _ now)
  | setPassword userId password now =>
      obtain rfl := Option.some.inj hs
      exact effects_setPassword w userId password now
  | setUserActive userId isActive now =>
      obtain rfl := Option.some.inj hs
      exact effects_setUserActive w userId isActive now
  | createUser email password fullName isAdmin roleName =>
      obtain rfl := Option.some.inj hs
      exact .single (.enrol w email password fullName isAdmin roleName)

end Refinement

end GovCrawler
