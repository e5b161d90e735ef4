/-
The agent's session with the cloud: who refreshes it, and what a race leaves of it.

`identity.refresh` and the launcher's `_try_refresh_sync` present the refresh token in the
keyring, which is good for one refresh, and put the new one in its place.  The calls of
`identity` are under a lock of their own; the launcher's run in threads beside them.  So a
call is cut where a thread can come between: at the keyring, at the request, and at the
state of `identity`.  The cloud is the route of `Auth/Routes`.

`session_survives_iff`: once all calls are through, the keyring holds the token the cloud
accepts and `identity` still has its session if and only if every call of `identity`
presented the token the cloud accepted at that moment.  A call of the launcher that loses
the race leaves everything as it was; one of `identity` forgets the session, and takes the
winner's token out of the keyring: `loser_forgets_session`.
-/
import GovCrawler.Lib.ThreadPool
import GovCrawler.Lib.Transition
import GovCrawler.Auth.Reuse

namespace GovCrawler

open Relational Transition

/-! ### The state of `identity` -/

/-- `_state` of `agent/identity.py`. -/
structure IdentityState where
  email : Option String
  accessToken : Option String
  baseUrl : Option String
  permissions : List String
  isAdmin : Bool
  deriving DecidableEq, Repr

/-- `clear_session`. -/
def clearSession : IdentityState where
  email := none
  accessToken := none
  baseUrl := none
  permissions := []
  isAdmin := false

/-- `has_session`. -/
def IdentityState.hasSession (state : IdentityState) : Bool := state.accessToken.isSome

/-- What a refresh says of the operator. -/
def IdentityState.refreshed (state : IdentityState) (data : TokenResponse) : IdentityState :=
  { state with
    accessToken := some data.accessToken
    permissions := data.user.permissions
    isAdmin := data.user.isAdmin }

/-- `update_access_token`, as the launcher calls it. -/
def IdentityState.updateAccessToken (state : IdentityState) (data : TokenResponse) :
    IdentityState :=
  if state.hasSession then state.refreshed data else state

/-! ### Calls -/

inductive Refresher
  /-- `identity.refresh`. -/
  | identity
  /-- `_try_refresh_sync` of the launcher. -/
  | launcher
  deriving DecidableEq, Repr

/-- What a call does next. -/
inductive RefreshPc
  | read
  | post (refreshToken : String)
  /-- Handle the response. -/
  | receive (response : Except HttpError TokenResponse)
  | deletePassword
  | setPassword (data : TokenResponse)
  /-- `identity.update_access_token`, by the launcher. -/
  | update (data : TokenResponse)
  | done
  deriving DecidableEq

structure RefreshCall where
  caller : Refresher
  pc : RefreshPc
  deriving DecidableEq

/-- The token a call has read and will present. -/
def RefreshPc.presents? : RefreshPc → Option String
  | .post refreshToken => some refreshToken
  | _ => none

/-- The token a call has been given and has not put into the keyring yet. -/
def RefreshPc.holds? : RefreshPc → Option String
  | .receive (.ok data) => some data.refreshToken
  | .setPassword data => some data.refreshToken
  | _ => none

/-- `identity._lock` is held from the first look at the keyring to the end of the call. -/
def RefreshCall.locks (call : RefreshCall) : Bool :=
  call.caller == .identity && call.pc != .read && call.pc != .done

/-- The operator's keyring entry, both refreshers, and the cloud.  `issued` are the refresh
tokens this session has had. -/
structure AgentSession where
  cloud : AuthState
  keyring : Option String
  identity : IdentityState
  /-- `_login_email` of the launcher. -/
  loginEmail : Option String
  /-- `_access_token` of the launcher. -/
  accessToken : Option String
  calls : List RefreshCall
  issued : List String

namespace AgentSession

/-- Call `i` goes on. -/
def goto (s : AgentSession) (i : Nat) (call : RefreshCall) (pc : RefreshPc) : AgentSession :=
  { s with calls := s.calls.set i { call with pc } }

/-- The next step of `identity.refresh`, the request apart. -/
def runIdentity (s : AgentSession) (i : Nat) (call : RefreshCall) : Option AgentSession :=
  match call.pc with
  | .read =>
      if s.calls.any RefreshCall.locks then none
      else if truthy s.identity.email && truthy s.identity.baseUrl then
        match given s.keyring with
        | none => some { s.goto i call .done with identity := clearSession }
        | some refreshToken => some (s.goto i call (.post refreshToken))
      else some (s.goto i call .done)
  | .receive (.error e) =>
      if e.statusCode = 401 then some { s.goto i call .deletePassword with identity := clearSession }
      else some (s.goto i call .done)
  | .receive (.ok data) =>
      some { s.goto i call (.setPassword data) with identity := s.identity.refreshed data }
  | .deletePassword => some { s.goto i call .done with keyring := none }
  | .setPassword data => some { s.goto i call .done with keyring := some data.refreshToken }
  | .post _ | .update _ | .done => none

/-- The next step of `_try_refresh_sync`, the request apart. -/
def runLauncher (s : AgentSession) (i : Nat) (call : RefreshCall) : Option AgentSession :=
  match call.pc with
  | .read =>
      if truthy s.loginEmail then
        match given s.keyring with
        | none => some (s.goto i call .done)
        | some refreshToken => some (s.goto i call (.post refreshToken))
      else some (s.goto i call .done)
  | .receive (.error _) => some (s.goto i call .done)
  | .receive (.ok data) =>
      some { s.goto i call (.setPassword data) with accessToken := some data.accessToken }
  | .setPassword data => some { s.goto i call (.update data) with keyring := some data.refreshToken }
  | .update data => some { s.goto i call .done with identity := s.identity.updateAccessToken data }
  | .post _ | .deletePassword | .done => none

end AgentSession

inductive SessionAction
  /-- One more call. -/
  | begin (caller : Refresher)
  /-- A call takes its next step. -/
  | run (i : Nat)
  /-- The cloud serves the request of a call, where it draws `fresh` for a new token. -/
  | post (i : Nat) (fresh : String) (now : Time)
  deriving DecidableEq, Repr

/-- The session is neither revoked nor expired. -/
def AuthDb.sessionLive (db : AuthDb) (sessionId : Nat) (now : Time) : Bool :=
  (db.session? sessionId).any fun session =>
    session.revokedAt.isNone && decide (now ≤ session.expiresAt) &&
      (db.getUserById session.userId).any User.isActive

namespace AgentSession

variable (settings : AuthSettings) (sessionId : Nat)

/-- A token that nobody has had. -/
def New (s : AgentSession) (fresh : String) : Prop :=
  fresh ≠ "" ∧
    (∀ t ∈ s.issued, settings.lib.hashRefreshToken t ≠ settings.lib.hashRefreshToken fresh) ∧
    ∀ row ∈ s.cloud.db.userSessions.rows,
      row.refreshTokenHash ≠ settings.lib.hashRefreshToken fresh

instance (s : AgentSession) (fresh : String) : Decidable (s.New settings fresh) :=
  inferInstanceAs (Decidable (_ ∧ _ ∧ _))

/-- No response is lost, the session stays live, and tokens do not repeat. -/
def step (s : AgentSession) : SessionAction → Option AgentSession
  | .begin caller => some { s with calls := s.calls ++ [⟨caller, .read⟩] }
  | .run i =>
      match s.calls[i]? with
      | none => none
      | some call =>
          match call.caller with
          | .identity => s.runIdentity i call
          | .launcher => s.runLauncher i call
  | .post i fresh now =>
      match s.calls[i]? with
      | some ⟨caller, .post refreshToken⟩ =>
          if s.cloud.db.sessionLive sessionId now = true ∧ s.New settings fresh then
            let r := refresh settings s.cloud (some refreshToken) {} now fresh
            some { s.goto i ⟨caller, .post refreshToken⟩ (.receive r.1) with
              cloud := r.2
              issued := fresh :: s.issued }
          else none
      | _ => none

/-- The hash of the token that the cloud accepts. -/
def acceptedHash (s : AgentSession) : Option String :=
  (s.cloud.db.session? sessionId).map UserSession.refreshTokenHash

/-- The keyring holds the token the cloud accepts, and `identity` has its session. -/
def Survives (s : AgentSession) : Prop :=
  s.identity.hasSession = true ∧ ∃ refreshToken, s.keyring = some refreshToken ∧
    s.acceptedHash sessionId = some (settings.lib.hashRefreshToken refreshToken)

/-- A call of `identity` presents the token that the cloud accepts. -/
def PresentsAccepted (s : AgentSession) : SessionAction → Prop
  | .post i _ _ => ∀ call ∈ s.calls[i]?, call.caller = .identity →
      ∀ refreshToken ∈ call.pc.presents?,
        s.acceptedHash sessionId = some (settings.lib.hashRefreshToken refreshToken)
  | _ => True

instance (s : AgentSession) : DecidablePred (s.PresentsAccepted settings sessionId)
  | .post _ _ _ => by
      unfold PresentsAccepted
      infer_instance
  | .begin _ | .run _ => .isTrue trivial

/-! ### What a step does -/

/-- The calls that come to nothing: there is nobody to refresh for, the launcher finds no
token, or the cloud says no to a caller that leaves it at that. -/
def Fruitless (s : AgentSession) : Refresher → RefreshPc → Prop
  | .identity, .read => (truthy s.identity.email && truthy s.identity.baseUrl) = false
  | .identity, .receive (.error e) => e.statusCode ≠ 401
  | .launcher, .read => True
  | .launcher, .receive (.error _) => True
  | _, _ => False

/-- Every step is one of these. -/
inductive Refreshes (s : AgentSession) : SessionAction → AgentSession → Prop
  | begin (caller : Refresher) :
      Refreshes s (.begin caller) { s with calls := s.calls ++ [⟨caller, .read⟩] }
  | fruitless {i : Nat} {call : RefreshCall} (hget : s.calls[i]? = some call)
      (hpc : s.Fruitless call.caller call.pc) : Refreshes s (.run i) (s.goto i call .done)
  | missing {i : Nat} (hget : s.calls[i]? = some ⟨.identity, .read⟩)
      (hfree : s.calls.any RefreshCall.locks = false) (hnone : given s.keyring = none) :
      Refreshes s (.run i) { s.goto i ⟨.identity, .read⟩ .done with identity := clearSession }
  | readKeyring {i : Nat} {caller : Refresher} {refreshToken : String}
      (hget : s.calls[i]? = some ⟨caller, .read⟩)
      (hfree : caller = .identity → s.calls.any RefreshCall.locks = false ∧
        truthy s.identity.email = true)
      (hsome : given s.keyring = some refreshToken) :
      Refreshes s (.run i) (s.goto i ⟨caller, .read⟩ (.post refreshToken))
  | rejected {i : Nat} {e : HttpError} (hget : s.calls[i]? = some ⟨.identity, .receive (.error e)⟩)
      (hcode : e.statusCode = 401) :
      Refreshes s (.run i)
        { s.goto i ⟨.identity, .receive (.error e)⟩ .deletePassword with identity := clearSession }
  | cached {i : Nat} {data : TokenResponse}
      (hget : s.calls[i]? = some ⟨.identity, .receive (.ok data)⟩) :
      Refreshes s (.run i)
        { s.goto i ⟨.identity, .receive (.ok data)⟩ (.setPassword data) with
          identity := s.identity.refreshed data }
  | kept {i : Nat} {data : TokenResponse}
      (hget : s.calls[i]? = some ⟨.launcher, .receive (.ok data)⟩) :
      Refreshes s (.run i)
        { s.goto i ⟨.launcher, .receive (.ok data)⟩ (.setPassword data) with
          accessToken := some data.accessToken }
  | deleted {i : Nat} (hget : s.calls[i]? = some ⟨.identity, .deletePassword⟩) :
      Refreshes s (.run i) { s.goto i ⟨.identity, .deletePassword⟩ .done with keyring := none }
  | written {i : Nat} {caller : Refresher} {data : TokenResponse}
      (hget : s.calls[i]? = some ⟨caller, .setPassword data⟩) (pc : RefreshPc)
      (hpc : pc = .done ∨ pc = .update data) :
      Refreshes s (.run i)
        { s.goto i ⟨caller, .setPassword data⟩ pc with keyring := some data.refreshToken }
  | told {i : Nat} {data : TokenResponse} (hget : s.calls[i]? = some ⟨.launcher, .update data⟩) :
      Refreshes s (.run i)
        { s.goto i ⟨.launcher, .update data⟩ .done with
          identity := s.identity.updateAccessToken data }
  | served {i : Nat} {caller : Refresher} {refreshToken fresh : String} {now : Time}
      (hget : s.calls[i]? = some ⟨caller, .post refreshToken⟩)
      (hlive : s.cloud.db.sessionLive sessionId now = true) (hnew : s.New settings fresh) :
      Refreshes s (.post i fresh now)
        { s.goto i ⟨caller, .post refreshToken⟩
            (.receive (refresh settings s.cloud (some refreshToken) {} now fresh).1) with
          cloud := (refresh settings s.cloud (some refreshToken) {} now fresh).2
          issued := fresh :: s.issued }

variable {settings sessionId}

theorem refreshes_of_runIdentity {s s' : AgentSession} {i : Nat} {pc : RefreshPc}
    (hget : s.calls[i]? = some ⟨.identity, pc⟩) (h : s.runIdentity i ⟨.identity, pc⟩ = some s') :
    s.Refreshes settings sessionId (.run i) s' := by
  unfold runIdentity at h
  cases pc with
  | read =>
      dsimp only at h
      split at h
      · cases h
      · rename_i hlock
        have hfree : s.calls.any RefreshCall.locks = false := by simpa using hlock
        split at h
        · rename_i hthere
          split at h
          · rename_i hnone
            obtain rfl := Option.some.inj h
            exact .missing hget hfree hnone
          · rename_i hsome
            obtain rfl := Option.some.inj h
            exact .readKeyring hget (fun _ => ⟨hfree, by simp at hthere; exact hthere.1⟩) hsome
        · rename_i hnobody
          obtain rfl := Option.some.inj h
          exact .fruitless hget (by simpa [Fruitless] using hnobody)
  | post refreshToken => cases h
  | receive response =>
      cases response with
      | error e =>
          dsimp only at h
          split at h
          · rename_i hcode
            obtain rfl := Option.some.inj h
            exact .rejected hget hcode
          · rename_i hother
            obtain rfl := Option.some.inj h
            exact .fruitless hget hother
      | ok data =>
          obtain rfl := Option.some.inj h
          exact .cached hget
  | deletePassword =>
      obtain rfl := Option.some.inj h
      exact .deleted hget
  | setPassword data =>
      obtain rfl := Option.some.inj h
      exact .written hget .done (Or.inl rfl)
  | update data => cases h
  | done => cases h

theorem refreshes_of_runLauncher {s s' : AgentSession} {i : Nat} {pc : RefreshPc}
    (hget : s.calls[i]? = some ⟨.launcher, pc⟩) (h : s.runLauncher i ⟨.launcher, pc⟩ = some s') :
    s.Refreshes settings sessionId (.run i) s' := by
  unfold runLauncher at h
  cases pc with
  | read =>
      dsimp only at h
      split at h
      · split at h
        · obtain rfl := Option.some.inj h
          exact .fruitless hget trivial
        · rename_i hsome
          obtain rfl := Option.some.inj h
          exact .readKeyring hget (fun hc => by cases hc) hsome
      · obtain rfl := Option.some.inj h
        exact .fruitless hget trivial
  | post refreshToken => cases h
  | receive response =>
      cases response with
      | error e =>
          obtain rfl := Option.some.inj h
          exact .fruitless hget trivial
      | ok data =>
          obtain rfl := Option.some.inj h
          exact .kept hget
  | deletePassword => cases h
  | setPassword data =>
      obtain rfl := Option.some.inj h
      exact .written hget (.update data) (Or.inr rfl)
  | update data =>
      obtain rfl := Option.some.inj h
      exact .told hget
  | done => cases h

theorem refreshes_of_step {s s' : AgentSession} {a : SessionAction}
    (h : s.step settings sessionId a = some s') : s.Refreshes settings sessionId a s' := by
  cases a with
  | begin caller =>
      obtain rfl := Option.some.inj h
      exact .begin caller
  | run i =>
      dsimp only [step] at h
      split at h
      · cases h
      · rename_i call hget
        obtain ⟨caller, pc⟩ := call
        cases caller with
        | identity => exact refreshes_of_runIdentity hget h
        | launcher => exact refreshes_of_runLauncher hget h
  | post i fresh now =>
      dsimp only [step] at h
      split at h
      · rename_i caller refreshToken hget
        split at h
        · rename_i hguard
          obtain rfl := Option.some.inj h
          exact .served hget hguard.1 hguard.2
        · cases h
      · cases h

/-! ### What the cloud makes of a token -/

/-- A string that is not empty is presented as it is. -/
theorem presentedToken_of_ne {refreshToken : String} (h : refreshToken ≠ "") :
    presentedToken (some refreshToken) {} = some refreshToken := by
  have hgiven : given (some refreshToken) = some refreshToken := by simp [given, h]
  unfold presentedToken
  rw [hgiven]

variable (settings sessionId) in
/-- The cloud after the session has got the token `fresh`. -/
def rotated (cloud : AuthState) (fresh : String) (now : Time) : AuthState :=
  { cloud with
    db := cloud.db.rotateSession sessionId (settings.lib.hashRefreshToken fresh)
      (now + days settings.config.refreshTtlDays) now }

/-- The token of a live session is exchanged. -/
theorem refresh_accepted {cloud : AuthState} {refreshToken fresh : String} {now : Time}
    {row : UserSession} (hne : refreshToken ≠ "")
    (hlive : cloud.db.sessionLive sessionId now = true)
    (hrow : cloud.db.session? sessionId = some row)
    (hhash : row.refreshTokenHash = settings.lib.hashRefreshToken refreshToken)
    (hunique : ∀ k r, cloud.db.session? k = some r →
      r.refreshTokenHash = settings.lib.hashRefreshToken refreshToken → k = sessionId) :
    ∃ data : TokenResponse, data.refreshToken = fresh ∧
      refresh settings cloud (some refreshToken) {} now fresh =
        (.ok data, rotated settings sessionId cloud fresh now) := by
  have hfound : cloud.db.getSessionByHash (settings.lib.hashRefreshToken refreshToken) = some row := by
    cases hget : cloud.db.getSessionByHash (settings.lib.hashRefreshToken refreshToken) with
    | none =>
        have hnone := Table.first?_eq_none_iff.mp hget row (Table.get?_mem hrow)
        simp [hhash] at hnone
    | some found =>
        obtain ⟨hsame, hthere⟩ := AuthDb.getSessionByHash_spec hget
        rw [hunique found.id found hthere hsame] at hthere
        rw [hthere] at hrow
        exact hrow
  have hid : row.id = sessionId := AuthDb.session?_id hrow
  unfold AuthDb.sessionLive at hlive
  rw [hrow] at hlive
  simp only [Option.any_some, Bool.and_eq_true, decide_eq_true_eq] at hlive
  obtain ⟨⟨hrevoked, hexpires⟩, huser⟩ := hlive
  cases hget : cloud.db.getUserById row.userId with
  | none =>
      rw [hget] at huser
      cases huser
  | some user =>
      rw [hget] at huser
      have hactive : user.isActive = true := huser
      refine ⟨⟨createAccessToken settings user now, fresh,
        userOut (rotated settings sessionId cloud fresh now).db user⟩, rfl, ?_⟩
      unfold refresh
      rw [presentedToken_of_ne hne]
      dsimp only
      rw [hfound]
      dsimp only [refreshSession]
      rw [if_neg (by simpa using hrevoked), if_neg (Nat.not_lt.mpr hexpires), hget]
      dsimp only
      rw [if_neg (by simp [hactive]), hid]
      rfl

/-- A token that no session has is turned away. -/
theorem refresh_unknown {cloud : AuthState} {refreshToken : String} (hne : refreshToken ≠ "")
    (hnone : ∀ k r, cloud.db.session? k = some r →
      r.refreshTokenHash ≠ settings.lib.hashRefreshToken refreshToken) (now : Time)
    (fresh : String) :
    refresh settings cloud (some refreshToken) {} now fresh = (.error invalidRefreshToken, cloud) := by
  unfold refresh
  rw [presentedToken_of_ne hne]
  dsimp only
  rw [AuthDb.getSessionByHash_eq_none hnone]

/-! ### What always holds -/

/-- Only the session has the hash of a token it has had. -/
def OwnTokens (settings : AuthSettings) (sessionId : Nat) (db : AuthDb) (issued : List String) :
    Prop :=
  ∀ t ∈ issued, ∀ k row, db.session? k = some row →
    row.refreshTokenHash = settings.lib.hashRefreshToken t → k = sessionId

/-- A token that the session has had. -/
def Known (issued : List String) (token : Option String) : Prop :=
  ∀ t ∈ token, t ≠ "" ∧ t ∈ issued

/-- The calls have no other tokens. -/
def KnownToCalls (issued : List String) (calls : List RefreshCall) : Prop :=
  ∀ call ∈ calls, Known issued call.pc.presents? ∧ Known issued call.pc.holds?

/-- At most one call has the lock. -/
def OneLocks (calls : List RefreshCall) : Prop :=
  ∀ (i j : Nat) (ci cj : RefreshCall), calls[i]? = some ci → calls[j]? = some cj →
    ci.locks = true → cj.locks = true → i = j

/-- Where the session is forgotten, no call of `identity` is about to bring it back. -/
def StaysCleared (identity : IdentityState) (calls : List RefreshCall) : Prop :=
  identity.hasSession = false → truthy identity.email = false ∧
    ∀ call ∈ calls, call.caller = .identity → call.pc.presents? = none ∧ call.pc.holds? = none

variable (settings sessionId) in
structure SessionInv (s : AgentSession) : Prop where
  own : OwnTokens settings sessionId s.cloud.db s.issued
  keyring : Known s.issued s.keyring
  calls : KnownToCalls s.issued s.calls
  lock : OneLocks s.calls
  cleared : StaysCleared s.identity s.calls

theorem Known.cons {issued : List String} {token : Option String} (h : Known issued token)
    (fresh : String) : Known (fresh :: issued) token :=
  fun t ht => ⟨(h t ht).1, List.mem_cons_of_mem fresh (h t ht).2⟩

theorem Known.none (issued : List String) : Known issued none := fun _ ht => nomatch ht

theorem KnownToCalls.set {issued : List String} {calls : List RefreshCall}
    (h : KnownToCalls issued calls) (i : Nat) (caller : Refresher) (pc : RefreshPc)
    (hnew : Known issued pc.presents? ∧ Known issued pc.holds?) :
    KnownToCalls issued (calls.set i ⟨caller, pc⟩) := by
  intro c hc
  rcases List.mem_or_eq_of_mem_set hc with hold | rfl
  · exact h c hold
  · exact hnew

theorem KnownToCalls.cons {issued : List String} {calls : List RefreshCall}
    (h : KnownToCalls issued calls) (fresh : String) : KnownToCalls (fresh :: issued) calls :=
  fun call hcall => ⟨(h call hcall).1.cons fresh, (h call hcall).2.cons fresh⟩

/-- An entry of the calls after one has moved on. -/
theorem getElem?_moved {calls : List RefreshCall} {call c : RefreshCall} {i j : Nat}
    (h : (calls.set i call)[j]? = some c) : (j = i ∧ c = call) ∨ (j ≠ i ∧ calls[j]? = some c) := by
  rw [List.getElem?_set] at h
  split at h
  · rename_i hij
    split at h
    · exact Or.inl ⟨hij.symm, (Option.some.inj h).symm⟩
    · cases h
  · rename_i hij
    exact Or.inr ⟨fun hji => hij hji.symm, h⟩

/-- A call that moves on has the lock only if it had it, or nobody did. -/
theorem OneLocks.set {calls : List RefreshCall} {old call : RefreshCall} {i : Nat}
    (h : OneLocks calls) (hget : calls[i]? = some old)
    (hlock : call.locks = true → old.locks = true ∨ calls.any RefreshCall.locks = false) :
    OneLocks (calls.set i call) := by
  -- another call with the lock is the one that has moved on
  have hother : ∀ j c, calls[j]? = some c → c.locks = true → call.locks = true → j = i := by
    intro j c hj hc hcall
    rcases hlock hcall with hold | hfree
    · exact h j i c old hj hget hc hold
    · have := List.any_eq_false.mp hfree c (List.mem_of_getElem? hj)
      exact absurd hc this
  intro a b ca cb ha hb hla hlb
  rcases getElem?_moved ha with ⟨rfl, rfl⟩ | ⟨-, ha'⟩
  · rcases getElem?_moved hb with ⟨rfl, -⟩ | ⟨-, hb'⟩
    · rfl
    · exact (hother b cb hb' hlb hla).symm
  · rcases getElem?_moved hb with ⟨rfl, rfl⟩ | ⟨-, hb'⟩
    · exact hother a ca ha' hla hlb
    · exact h a b ca cb ha' hb' hla hlb

theorem StaysCleared.set {identity : IdentityState} {calls : List RefreshCall} {call : RefreshCall}
    (h : StaysCleared identity calls)
    (hnew : identity.hasSession = false → call.caller = .identity →
      call.pc.presents? = none ∧ call.pc.holds? = none) (i : Nat) :
    StaysCleared identity (calls.set i call) := by
  intro hsession
  obtain ⟨hemail, hcalls⟩ := h hsession
  refine ⟨hemail, fun c hc hcaller => ?_⟩
  rcases List.mem_or_eq_of_mem_set hc with hold | rfl
  · exact hcalls c hold hcaller
  · exact hnew hsession hcaller

/-- Outside the lock a call of `identity` has no token in hand. -/
theorem idle_of_not_locks {call : RefreshCall} (hcaller : call.caller = .identity)
    (h : call.locks = false) : call.pc.presents? = none ∧ call.pc.holds? = none := by
  obtain ⟨caller, pc⟩ := call
  obtain rfl : caller = .identity := hcaller
  cases pc with
  | read => exact ⟨rfl, rfl⟩
  | done => exact ⟨rfl, rfl⟩
  | _ => cases h

/-- The session is forgotten by the one call that has the lock. -/
theorem StaysCleared.clear {calls : List RefreshCall} {i : Nat}
    (hlocks : ∀ j c, calls[j]? = some c → j ≠ i → c.locks = false) {call : RefreshCall}
    (hcall : call.pc.presents? = none ∧ call.pc.holds? = none) :
    StaysCleared clearSession (calls.set i call) := by
  intro _
  refine ⟨rfl, fun c hc hcaller => ?_⟩
  obtain ⟨j, hj⟩ := List.mem_iff_getElem?.mp hc
  rcases getElem?_moved hj with ⟨-, rfl⟩ | ⟨hne, hj'⟩
  · exact hcall
  · exact idle_of_not_locks hcaller (hlocks j c hj' hne)

/-- A step of the cloud, if it took the token or not. -/
theorem refresh_known {s : AgentSession} {refreshToken : String} {now : Time}
    (hown : OwnTokens settings sessionId s.cloud.db s.issued) (hne : refreshToken ≠ "")
    (hmem : refreshToken ∈ s.issued) (hlive : s.cloud.db.sessionLive sessionId now = true)
    (fresh : String) :
    (s.acceptedHash sessionId = some (settings.lib.hashRefreshToken refreshToken) ∧
      ∃ data : TokenResponse, data.refreshToken = fresh ∧
        refresh settings s.cloud (some refreshToken) {} now fresh =
          (.ok data, rotated settings sessionId s.cloud fresh now)) ∨
    (s.acceptedHash sessionId ≠ some (settings.lib.hashRefreshToken refreshToken) ∧
      refresh settings s.cloud (some refreshToken) {} now fresh =
        (.error invalidRefreshToken, s.cloud)) := by
  by_cases hhash : s.acceptedHash sessionId = some (settings.lib.hashRefreshToken refreshToken)
  · left
    obtain ⟨row, hrow, hsame⟩ := Option.map_eq_some_iff.mp hhash
    exact ⟨hhash, refresh_accepted hne hlive hrow hsame (hown refreshToken hmem)⟩
  · right
    refine ⟨hhash, refresh_unknown hne (fun k row hrow hsame => ?_) now fresh⟩
    -- no other session has the hash of this token
    obtain rfl := hown refreshToken hmem k row hrow hsame
    exact hhash (by rw [acceptedHash, hrow, Option.map_some, hsame])

/-- After an exchange the session has the hash of the new token. -/
theorem session?_rotated {cloud : AuthState} {fresh : String} {now : Time} {k : Nat}
    {row : UserSession} (h : (rotated settings sessionId cloud fresh now).db.session? k = some row) :
    ∃ old, cloud.db.session? k = some old ∧
      row.refreshTokenHash =
        if k = sessionId then settings.lib.hashRefreshToken fresh else old.refreshTokenHash := by
  unfold rotated at h
  rw [AuthDb.session?_rotateSession] at h
  obtain ⟨old, hold, rfl⟩ := Option.map_eq_some_iff.mp h
  refine ⟨old, hold, ?_⟩
  rw [AuthDb.session?_id hold]
  by_cases hk : k = sessionId <;> simp [hk]

theorem OwnTokens.rotated {s : AgentSession} {fresh : String} {now : Time}
    (hown : OwnTokens settings sessionId s.cloud.db s.issued) (hnew : s.New settings fresh) :
    OwnTokens settings sessionId (rotated settings sessionId s.cloud fresh now).db
      (fresh :: s.issued) := by
  intro t ht k row hrow hhash
  obtain ⟨old, hold, hrowhash⟩ := session?_rotated hrow
  by_contra hk
  rw [if_neg hk] at hrowhash
  rcases List.mem_cons.mp ht with rfl | ht
  · exact hnew.2.2 old (Table.get?_mem hold) (hrowhash.symm.trans hhash)
  · exact hk (hown t ht k old hold (hrowhash.symm.trans hhash))

theorem OwnTokens.cons {s : AgentSession} {fresh : String}
    (hown : OwnTokens settings sessionId s.cloud.db s.issued) (hnew : s.New settings fresh) :
    OwnTokens settings sessionId s.cloud.db (fresh :: s.issued) := by
  intro t ht k row hrow hhash
  rcases List.mem_cons.mp ht with rfl | ht
  · exact absurd hhash (hnew.2.2 row (Table.get?_mem hrow))
  · exact hown t ht k row hrow hhash

/-- A call that goes on with tokens it may have. -/
theorem SessionInv.goto {s : AgentSession} (h : SessionInv settings sessionId s) {i : Nat}
    {call : RefreshCall} (hget : s.calls[i]? = some call) (pc : RefreshPc)
    (hknown : Known s.issued pc.presents? ∧ Known s.issued pc.holds?)
    (hlock : RefreshCall.locks ⟨call.caller, pc⟩ = true → call.locks = true)
    (hcleared : s.identity.hasSession = false → call.caller = .identity →
      pc.presents? = none ∧ pc.holds? = none) :
    SessionInv settings sessionId (s.goto i call pc) where
  own := h.own
  keyring := h.keyring
  calls := h.calls.set i call.caller pc hknown
  lock := h.lock.set hget fun hl => Or.inl (hlock hl)
  cleared := h.cleared.set hcleared i

/-- Where one call has the lock, the others do not. -/
theorem OneLocks.others {calls : List RefreshCall} {i : Nat} {call : RefreshCall}
    (h : OneLocks calls) (hget : calls[i]? = some call) (hlock : call.locks = true) (j : Nat)
    (c : RefreshCall) (hj : calls[j]? = some c) (hne : j ≠ i) : c.locks = false :=
  Bool.eq_false_iff.mpr fun hc => hne (h j i c call hj hget hc hlock)

theorem Refreshes.keeps {s s' : AgentSession} {a : SessionAction}
    (hinv : SessionInv settings sessionId s) (h : s.Refreshes settings sessionId a s') :
    SessionInv settings sessionId s' := by
  have hnone : Known s.issued none ∧ Known s.issued none := ⟨.none _, .none _⟩
  cases h with
  | begin caller =>
      refine ⟨hinv.own, hinv.keyring, ?_, ?_, ?_⟩
      · intro c hc
        rcases List.mem_append.mp hc with hold | hnew
        · exact hinv.calls c hold
        · obtain rfl := List.mem_singleton.mp hnew
          exact hnone
      · -- the new call has no lock, so both entries are old ones
        have hold : ∀ (j : Nat) (c : RefreshCall), (s.calls ++ [⟨caller, .read⟩])[j]? = some c →
            c.locks = true → s.calls[j]? = some c := by
          intro j c hj hc
          rw [List.getElem?_append] at hj
          split at hj
          · exact hj
          · obtain rfl := List.mem_singleton.mp (List.mem_of_getElem? hj)
            simp [RefreshCall.locks] at hc
        intro i j ci cj hi hj hci hcj
        exact hinv.lock i j ci cj (hold i ci hi hci) (hold j cj hj hcj) hci hcj
      · intro hsession
        obtain ⟨hemail, hcalls⟩ := hinv.cleared hsession
        refine ⟨hemail, fun c hc hcaller => ?_⟩
        rcases List.mem_append.mp hc with hold | hnew
        · exact hcalls c hold hcaller
        · obtain rfl := List.mem_singleton.mp hnew
          exact ⟨rfl, rfl⟩
  | fruitless hget hpc =>
      exact hinv.goto hget .done hnone (fun h => by simp [RefreshCall.locks] at h)
        fun _ _ => ⟨rfl, rfl⟩
  | @missing i hget hfree hmissing =>
      have hidle : ∀ (j : Nat) (c : RefreshCall), s.calls[j]? = some c → j ≠ i →
          c.locks = false := fun j c hj _ => by
        simpa using List.any_eq_false.mp hfree c (List.mem_of_getElem? hj)
      refine ⟨hinv.own, hinv.keyring, hinv.calls.set i .identity .done hnone,
        hinv.lock.set hget ?_, ?_⟩
      · intro h
        simp [RefreshCall.locks] at h
      · exact .clear hidle ⟨rfl, rfl⟩
  | @readKeyring i caller refreshToken hget hfree hsome =>
      have hkeyring : s.keyring = some refreshToken := (Option.filter_eq_some_iff.mp hsome).1
      refine ⟨hinv.own, hinv.keyring, hinv.calls.set i caller (.post refreshToken) ⟨?_, .none _⟩,
        hinv.lock.set hget ?_, hinv.cleared.set ?_ _⟩
      · intro t ht
        obtain rfl : refreshToken = t := Option.some.inj ht
        exact hinv.keyring refreshToken hkeyring
      · intro hlock
        cases caller with
        | identity => exact Or.inr (hfree rfl).1
        | launcher => simp [RefreshCall.locks] at hlock
      · intro hsession hcaller
        rw [(hinv.cleared hsession).1] at hfree
        cases (hfree hcaller).2
  | @rejected i e hget _ =>
      refine ⟨hinv.own, hinv.keyring, hinv.calls.set i .identity .deletePassword hnone,
        hinv.lock.set hget ?_, ?_⟩
      · intro _
        exact Or.inl rfl
      · exact .clear (hinv.lock.others hget rfl) ⟨rfl, rfl⟩
  | @cached i data hget =>
      have hknown := hinv.calls _ (List.mem_of_getElem? hget)
      refine ⟨hinv.own, hinv.keyring, hinv.calls.set i .identity (.setPassword data) hknown,
        hinv.lock.set hget ?_, ?_⟩
      · intro _
        exact Or.inl rfl
      · intro hsession
        cases hsession
  | @kept i data hget =>
      have hknown := hinv.calls _ (List.mem_of_getElem? hget)
      exact ⟨hinv.own, hinv.keyring, hinv.calls.set i .launcher (.setPassword data) hknown,
        hinv.lock.set hget (fun h => Or.inl h), hinv.cleared.set (fun _ h => by cases h) _⟩
  | @deleted i hget =>
      exact ⟨hinv.own, .none _, hinv.calls.set i .identity .done hnone,
        hinv.lock.set hget (fun h => by simp [RefreshCall.locks] at h),
        hinv.cleared.set (fun _ _ => ⟨rfl, rfl⟩) _⟩
  | @written i caller data hget pc hpc =>
      have hknown : Known s.issued (some data.refreshToken) :=
        (hinv.calls _ (List.mem_of_getElem? hget)).2
      have hidle : pc.presents? = none ∧ pc.holds? = none := by
        rcases hpc with rfl | rfl <;> exact ⟨rfl, rfl⟩
      refine ⟨hinv.own, hknown, hinv.calls.set i caller pc ?_, hinv.lock.set hget ?_,
        hinv.cleared.set (fun _ _ => hidle) _⟩
      · rw [hidle.1, hidle.2]
        exact hnone
      · intro hlock
        left
        cases caller with
        | identity => rfl
        | launcher => cases hlock
  | @told i data hget =>
      refine ⟨hinv.own, hinv.keyring, hinv.calls.set i .launcher .done hnone,
        hinv.lock.set hget ?_, ?_⟩
      · intro h
        simp [RefreshCall.locks] at h
      · unfold IdentityState.updateAccessToken
        dsimp only
        split
        · intro hsession
          cases hsession
        · exact hinv.cleared.set (fun _ _ => ⟨rfl, rfl⟩) _
  | @served i caller refreshToken fresh now hget hlive hnew =>
      obtain ⟨hne, hmem⟩ := (hinv.calls _ (List.mem_of_getElem? hget)).1 refreshToken rfl
      have hlock : ∀ pc, RefreshCall.locks ⟨caller, pc⟩ = true →
          RefreshCall.locks ⟨caller, .post refreshToken⟩ = true := by
        intro pc hpc
        cases caller with
        | identity => rfl
        | launcher => cases hpc
      have hcleared : ∀ pc : RefreshPc, s.identity.hasSession = false → caller = .identity →
          pc.presents? = none ∧ pc.holds? = none := by
        intro pc hsession hcaller
        cases ((hinv.cleared hsession).2 _ (List.mem_of_getElem? hget) hcaller).1
      rcases refresh_known hinv.own hne hmem hlive fresh with
        ⟨-, data, rfl, hok⟩ | ⟨-, herror⟩
      · rw [hok]
        refine ⟨hinv.own.rotated hnew, hinv.keyring.cons _,
          (hinv.calls.cons _).set i caller (.receive (.ok data)) ⟨.none _, ?_⟩,
          hinv.lock.set hget (fun h => Or.inl (hlock _ h)), hinv.cleared.set (hcleared _) _⟩
        intro t ht
        obtain rfl : data.refreshToken = t := Option.some.inj ht
        exact ⟨hnew.1, List.mem_cons_self ..⟩
      · rw [herror]
        exact ⟨hinv.own.cons hnew, hinv.keyring.cons _,
          (hinv.calls.cons _).set i caller (.receive (.error invalidRefreshToken))
            ⟨.none _, .none _⟩,
          hinv.lock.set hget (fun h => Or.inl (hlock _ h)), hinv.cleared.set (hcleared _) _⟩

/-! ### Where the token is -/

/-- The token that the cloud accepts is in the keyring, or one call has it, and then
nobody else can present it. -/
inductive TokenAt (lib : AuthLib) (accepted : Option String) (keyring : Option String)
    (calls : List RefreshCall) : Prop
  | keyring {refreshToken : String} (hkeyring : keyring = some refreshToken)
      (haccepted : accepted = some (lib.hashRefreshToken refreshToken))
      (hnone : ∀ call ∈ calls, call.pc.holds? = none) : TokenAt lib accepted keyring calls
  | call {i : Nat} {call : RefreshCall} {refreshToken : String} (hget : calls[i]? = some call)
      (hholds : call.pc.holds? = some refreshToken)
      (haccepted : accepted = some (lib.hashRefreshToken refreshToken))
      (hothers : ∀ (j : Nat) (c : RefreshCall), calls[j]? = some c → j ≠ i → c.pc.holds? = none)
      (hkeyring : ∃ t, keyring = some t ∧
        lib.hashRefreshToken t ≠ lib.hashRefreshToken refreshToken)
      (hpresents : ∀ c ∈ calls, ∀ t ∈ c.pc.presents?,
        lib.hashRefreshToken t ≠ lib.hashRefreshToken refreshToken) :
      TokenAt lib accepted keyring calls

namespace TokenAt

variable {lib : AuthLib} {accepted keyring : Option String} {calls : List RefreshCall}

theorem keyring_isSome (h : TokenAt lib accepted keyring calls) : ∃ t, keyring = some t := by
  cases h with
  | keyring hkeyring => exact ⟨_, hkeyring⟩
  | call _ _ _ _ hkeyring =>
      obtain ⟨t, ht, -⟩ := hkeyring
      exact ⟨t, ht⟩

/-- A call goes on, and the token it has or has not been given stays with it. -/
theorem set (h : TokenAt lib accepted keyring calls) {i : Nat} {old : RefreshCall}
    (hget : calls[i]? = some old) (caller : Refresher) (pc : RefreshPc)
    (hholds : pc.holds? = old.pc.holds?)
    (hpresents : ∀ t ∈ pc.presents?, keyring = some t) :
    TokenAt lib accepted keyring (calls.set i ⟨caller, pc⟩) := by
  have hlt : i < calls.length := (List.getElem?_eq_some_iff.mp hget).1
  cases h with
  | keyring hkeyring haccepted hnone =>
      refine .keyring hkeyring haccepted fun c hc => ?_
      rcases List.mem_or_eq_of_mem_set hc with hold | rfl
      · exact hnone c hold
      · exact hholds.trans (hnone old (List.mem_of_getElem? hget))
  | @call k holder refreshToken hholder hhas haccepted hothers hkeyring hnot =>
      obtain ⟨t, ht, hne⟩ := hkeyring
      have hpresented : ∀ c ∈ calls.set i ⟨caller, pc⟩, ∀ t ∈ c.pc.presents?,
          lib.hashRefreshToken t ≠ lib.hashRefreshToken refreshToken := by
        intro c hc t' ht'
        rcases List.mem_or_eq_of_mem_set hc with hold | rfl
        · exact hnot c hold t' ht'
        · obtain rfl : t = t' := Option.some.inj (ht.symm.trans (hpresents t' ht'))
          exact hne
      by_cases hik : k = i
      · subst hik
        obtain rfl : old = holder := Option.some.inj (hget.symm.trans hholder)
        have hthere : (calls.set k ⟨caller, pc⟩)[k]? = some ⟨caller, pc⟩ := by simp [hlt]
        refine .call hthere (hholds.trans hhas) haccepted (fun j c hj hjk => ?_) ⟨t, ht, hne⟩
          hpresented
        rcases getElem?_moved hj with ⟨rfl, -⟩ | ⟨-, hj'⟩
        · exact absurd rfl hjk
        · exact hothers j c hj' hjk
      · have hthere : (calls.set i ⟨caller, pc⟩)[k]? = some holder := by
          rw [List.getElem?_set_ne (Ne.symm hik)]
          exact hholder
        refine .call hthere hhas haccepted (fun j c hj hjk => ?_) ⟨t, ht, hne⟩ hpresented
        rcases getElem?_moved hj with ⟨rfl, rfl⟩ | ⟨-, hj'⟩
        · exact hholds.trans (hothers _ _ hget hjk)
        · exact hothers j c hj' hjk

/-- One more call that has no token yet. -/
theorem append (h : TokenAt lib accepted keyring calls) (caller : Refresher) :
    TokenAt lib accepted keyring (calls ++ [⟨caller, .read⟩]) := by
  cases h with
  | keyring hkeyring haccepted hnone =>
      refine .keyring hkeyring haccepted fun c hc => ?_
      rcases List.mem_append.mp hc with hold | hnew
      · exact hnone c hold
      · obtain rfl := List.mem_singleton.mp hnew
        rfl
  | @call k holder refreshToken hholder hhas haccepted hothers hkeyring hnot =>
      have hlt : k < calls.length := (List.getElem?_eq_some_iff.mp hholder).1
      have hthere : (calls ++ [⟨caller, .read⟩])[k]? = some holder :=
        (List.getElem?_append_left hlt).trans hholder
      refine .call hthere hhas haccepted (fun j c hj hjk => ?_) hkeyring fun c hc t ht => ?_
      · rw [List.getElem?_append] at hj
        split at hj
        · exact hothers j c hj hjk
        · obtain rfl := List.mem_singleton.mp (List.mem_of_getElem? hj)
          rfl
      · rcases List.mem_append.mp hc with hold | hnew
        · exact hnot c hold t ht
        · obtain rfl := List.mem_singleton.mp hnew
          cases ht

/-- The call that has the token puts it into the keyring. -/
theorem put (h : TokenAt lib accepted keyring calls) {i : Nat} {old : RefreshCall}
    (hget : calls[i]? = some old) {refreshToken : String}
    (hhas : old.pc.holds? = some refreshToken) (caller : Refresher) {pc : RefreshPc}
    (hpc : pc.holds? = none) :
    TokenAt lib accepted (some refreshToken) (calls.set i ⟨caller, pc⟩) := by
  cases h with
  | keyring _ _ hnone =>
      rw [hnone old (List.mem_of_getElem? hget)] at hhas
      cases hhas
  | @call k holder r hholder hr haccepted hothers hkeyring hnot =>
      have hik : i = k := by
        by_contra hne
        rw [hothers i old hget hne] at hhas
        cases hhas
      subst hik
      obtain rfl : old = holder := Option.some.inj (hget.symm.trans hholder)
      obtain rfl : refreshToken = r := Option.some.inj (hhas.symm.trans hr)
      refine .keyring rfl haccepted fun c hc => ?_
      obtain ⟨j, hj⟩ := List.mem_iff_getElem?.mp hc
      rcases getElem?_moved hj with ⟨-, rfl⟩ | ⟨hne, hj'⟩
      · exact hpc
      · exact hothers j c hj' hne

/-- The token that the cloud accepts is exchanged for one that is new to everybody. -/
theorem exchange (h : TokenAt lib accepted keyring calls) {i : Nat} {caller : Refresher}
    {refreshToken fresh : String} (hget : calls[i]? = some ⟨caller, .post refreshToken⟩)
    (haccepted : accepted = some (lib.hashRefreshToken refreshToken)) {data : TokenResponse}
    (hdata : data.refreshToken = fresh) {issued : List String} (hkeyring : Known issued keyring)
    (hcalls : KnownToCalls issued calls)
    (hnew : ∀ t ∈ issued, lib.hashRefreshToken t ≠ lib.hashRefreshToken fresh) :
    TokenAt lib (some (lib.hashRefreshToken fresh)) keyring
      (calls.set i ⟨caller, .receive (.ok data)⟩) := by
  have hlt : i < calls.length := (List.getElem?_eq_some_iff.mp hget).1
  cases h with
  | @keyring t ht _ hnone =>
      have hthere : (calls.set i ⟨caller, .receive (.ok data)⟩)[i]? =
          some ⟨caller, .receive (.ok data)⟩ := by simp [hlt]
      refine .call hthere (congrArg some hdata) rfl (fun j c hj hji => ?_)
        ⟨t, ht, hnew t (hkeyring t ht).2⟩ fun c hc t' ht' => ?_
      · rcases getElem?_moved hj with ⟨rfl, -⟩ | ⟨-, hj'⟩
        · exact absurd rfl hji
        · exact hnone c (List.mem_of_getElem? hj')
      · rcases List.mem_or_eq_of_mem_set hc with hold | rfl
        · exact hnew t' ((hcalls c hold).1 t' ht').2
        · cases ht'
  | @call k holder r _ _ hr _ _ hnot =>
      -- another call has it, so this one cannot present it
      have hsame := Option.some.inj (haccepted.symm.trans hr)
      exact absurd hsame (hnot _ (List.mem_of_getElem? hget) refreshToken rfl)

end TokenAt

/-! ### While every call of `identity` presents the accepted token -/

/-- A call that is not about to end the session. -/
def Mild (call : RefreshCall) : Prop :=
  call.pc ≠ .deletePassword ∧
    (call.caller = .identity → ∀ e, call.pc = .receive (.error e) → e.statusCode ≠ 401)

variable (settings sessionId) in
/-- The session is there, and no call is about to end it. -/
structure Undisturbed (s : AgentSession) : Prop extends SessionInv settings sessionId s where
  token : TokenAt settings.lib (s.acceptedHash sessionId) s.keyring s.calls
  session : s.identity.hasSession = true
  mild : ∀ call ∈ s.calls, Mild call

theorem acceptedHash_rotated {s : AgentSession} {fresh : String} {now : Time} {accepted : String}
    (h : s.acceptedHash sessionId = some accepted) :
    ((rotated settings sessionId s.cloud fresh now).db.session? sessionId).map
      UserSession.refreshTokenHash = some (settings.lib.hashRefreshToken fresh) := by
  obtain ⟨row, hrow, -⟩ := Option.map_eq_some_iff.mp h
  unfold rotated
  rw [AuthDb.session?_rotateSession, hrow, Option.map_some, Option.map_some]
  simp [AuthDb.session?_id hrow]

theorem Refreshes.undisturbed {s s' : AgentSession} {a : SessionAction}
    (h0 : Undisturbed settings sessionId s) (hok : PresentsAccepted settings sessionId s a)
    (h : s.Refreshes settings sessionId a s') : Undisturbed settings sessionId s' := by
  refine ⟨h.keeps h0.toSessionInv, ?_, ?_, ?_⟩
  · cases h with
    | begin caller => exact h0.token.append caller
    | @fruitless i call hget hpc =>
        refine h0.token.set hget call.caller .done ?_ (fun _ ht => nomatch ht)
        obtain ⟨caller, pc⟩ := call
        cases caller <;> cases pc with
        | receive response =>
            cases response with
            | error e => rfl
            | ok data => cases hpc
        | setPassword data => cases hpc
        | _ => rfl
    | missing hget _ hmissing =>
        obtain ⟨t, ht⟩ := h0.token.keyring_isSome
        have hne := (h0.keyring t ht).1
        simp [given, ht, hne] at hmissing
    | @readKeyring i caller refreshToken hget _ hsome =>
        have hkeyring : s.keyring = some refreshToken := (Option.filter_eq_some_iff.mp hsome).1
        exact h0.token.set hget caller (.post refreshToken) rfl
          (fun t ht => hkeyring.trans ht)
    | rejected hget _ =>
        exact h0.token.set hget .identity .deletePassword rfl (fun _ ht => nomatch ht)
    | @cached i data hget =>
        exact h0.token.set hget .identity (.setPassword data) rfl (fun _ ht => nomatch ht)
    | @kept i data hget =>
        exact h0.token.set hget .launcher (.setPassword data) rfl (fun _ ht => nomatch ht)
    | deleted hget => exact absurd rfl (h0.mild _ (List.mem_of_getElem? hget)).1
    | @written i caller data hget pc hpc =>
        refine h0.token.put hget rfl caller ?_
        rcases hpc with rfl | rfl <;> rfl
    | told hget => exact h0.token.set hget .launcher .done rfl (fun _ ht => nomatch ht)
    | @served i caller refreshToken fresh now hget hlive hnew =>
        obtain ⟨hne, hmem⟩ := (h0.calls _ (List.mem_of_getElem? hget)).1 refreshToken rfl
        rcases refresh_known h0.own hne hmem hlive fresh with
          ⟨haccepted, data, hdata, hok⟩ | ⟨-, herror⟩
        · rw [hok]
          dsimp only [acceptedHash]
          rw [acceptedHash_rotated haccepted]
          exact h0.token.exchange hget haccepted hdata h0.keyring h0.calls hnew.2.1
        · rw [herror]
          exact h0.token.set hget caller (.receive (.error invalidRefreshToken)) rfl
            (fun _ ht => nomatch ht)
  · cases h with
    | missing _ _ hmissing =>
        obtain ⟨t, ht⟩ := h0.token.keyring_isSome
        have hne := (h0.keyring t ht).1
        simp [given, ht, hne] at hmissing
    | rejected hget hcode => exact absurd hcode ((h0.mild _ (List.mem_of_getElem? hget)).2 rfl _ rfl)
    | cached => rfl
    | told =>
        unfold IdentityState.updateAccessToken
        rw [if_pos h0.session]
        rfl
    | _ => exact h0.session
  · cases h with
    | begin caller =>
        intro c hc
        rcases List.mem_append.mp hc with hold | hnew
        · exact h0.mild c hold
        · obtain rfl := List.mem_singleton.mp hnew
          exact ⟨nofun, fun _ _ => nofun⟩
    | @served i caller refreshToken fresh now hget hlive hnew =>
        refine ThreadPool.forall_mem_set h0.mild i ⟨nofun, fun hcaller e he => ?_⟩
        obtain ⟨hne, hmem⟩ := (h0.calls _ (List.mem_of_getElem? hget)).1 refreshToken rfl
        have haccepted := hok _ hget hcaller refreshToken rfl
        rcases refresh_known h0.own hne hmem hlive fresh with ⟨-, data, -, hres⟩ | ⟨hnot, -⟩
        · rw [hres] at he
          cases he
        · exact absurd haccepted hnot
    | rejected hget hcode => exact absurd hcode ((h0.mild _ (List.mem_of_getElem? hget)).2 rfl _ rfl)
    | written _ _ hpc =>
        refine ThreadPool.forall_mem_set h0.mild _ ?_
        rcases hpc with rfl | rfl <;> exact ⟨nofun, fun _ _ => nofun⟩
    | _ => exact ThreadPool.forall_mem_set h0.mild _ ⟨nofun, fun _ _ => nofun⟩

/-! ### A call of `identity` that is turned away -/

/-- The session is forgotten, or a call of `identity` will forget it. -/
def Doomed (s : AgentSession) : Prop :=
  s.identity.hasSession = false ∨
    ∃ (j : Nat) (e : HttpError), s.calls[j]? = some ⟨.identity, .receive (.error e)⟩ ∧
      e.statusCode = 401

theorem doomed_of_step {s s' : AgentSession} {a : SessionAction}
    (hinv : SessionInv settings sessionId s) (hnot : ¬ PresentsAccepted settings sessionId s a)
    (h : s.step settings sessionId a = some s') : s'.Doomed := by
  cases refreshes_of_step h with
  | @served i caller refreshToken fresh now hget hlive hnew =>
      have hlt : i < s.calls.length := (List.getElem?_eq_some_iff.mp hget).1
      -- the call is one of `identity`, and its token is not the accepted one
      have hwrong : caller = .identity ∧
          s.acceptedHash sessionId ≠ some (settings.lib.hashRefreshToken refreshToken) := by
        constructor
        · by_contra hcaller
          exact hnot fun call hcall hc => absurd (by rw [hget] at hcall; cases hcall; exact hc) hcaller
        · intro haccepted
          refine hnot fun call hcall _ t ht => ?_
          obtain rfl := Option.some.inj (hget.symm.trans hcall)
          obtain rfl : refreshToken = t := Option.some.inj ht
          exact haccepted
      obtain ⟨rfl, hwrong⟩ := hwrong
      obtain ⟨hne, hmem⟩ := (hinv.calls _ (List.mem_of_getElem? hget)).1 refreshToken rfl
      rcases refresh_known hinv.own hne hmem hlive fresh with ⟨haccepted, -⟩ | ⟨-, herror⟩
      · exact absurd haccepted hwrong
      · rw [herror]
        exact Or.inr ⟨i, invalidRefreshToken, by simp [goto, hlt], rfl⟩
  | _ => exact absurd trivial hnot

theorem Refreshes.doomed {s s' : AgentSession} {a : SessionAction}
    (hinv : SessionInv settings sessionId s) (hdoomed : s.Doomed)
    (h : s.Refreshes settings sessionId a s') : s'.Doomed := by
  rcases hdoomed with hsession | ⟨j, e, hj, he⟩
  · left
    cases h with
    | cached hget =>
        cases ((hinv.cleared hsession).2 _ (List.mem_of_getElem? hget) rfl).2
    | told =>
        unfold IdentityState.updateAccessToken
        rw [if_neg (by simp [hsession])]
        exact hsession
    | missing | rejected => rfl
    | _ => exact hsession
  · -- the call waits until it is its own turn
    have hwaits : ∀ {i : Nat} {old new : RefreshCall}, s.calls[i]? = some old →
        old ≠ ⟨.identity, .receive (.error e)⟩ →
        (s.calls.set i new)[j]? = some ⟨.identity, .receive (.error e)⟩ := by
      intro i old new hget hne
      have hij : i ≠ j := by
        rintro rfl
        exact hne (Option.some.inj (hget.symm.trans hj))
      rw [List.getElem?_set_ne hij]
      exact hj
    cases h with
    | begin caller =>
        have hlt : j < s.calls.length := (List.getElem?_eq_some_iff.mp hj).1
        exact Or.inr ⟨j, e, (List.getElem?_append_left hlt).trans hj, he⟩
    | fruitless hget hpc =>
        refine Or.inr ⟨j, e, hwaits hget ?_, he⟩
        rintro rfl
        exact hpc he
    | missing | rejected => exact Or.inl rfl
    | readKeyring hget | cached hget | kept hget | deleted hget | written hget | told hget
    | served hget =>
        exact Or.inr ⟨j, e, hwaits hget (fun h => by cases h), he⟩

variable (settings sessionId) in
/-- An operator is logged in, and nobody refreshes. -/
structure LoggedIn (s : AgentSession) : Prop where
  session : s.identity.hasSession = true
  idle : s.calls = []
  keyring : ∃ refreshToken, refreshToken ≠ "" ∧ s.keyring = some refreshToken ∧
    s.issued = [refreshToken] ∧
    s.acceptedHash sessionId = some (settings.lib.hashRefreshToken refreshToken) ∧
    OwnTokens settings sessionId s.cloud.db [refreshToken]

theorem LoggedIn.undisturbed {s : AgentSession} (h : LoggedIn settings sessionId s) :
    Undisturbed settings sessionId s := by
  obtain ⟨refreshToken, hne, hkeyring, hissued, haccepted, hown⟩ := h.keyring
  have hnobody : ∀ call, call ∉ s.calls := fun call hc => by simp [h.idle] at hc
  refine ⟨⟨?_, ?_, fun c hc => absurd hc (hnobody c), ?_, ?_⟩, ?_, h.session,
    fun c hc => absurd hc (hnobody c)⟩
  · rw [hissued]
    exact hown
  · intro t ht
    obtain rfl : refreshToken = t := Option.some.inj (hkeyring.symm.trans ht)
    exact ⟨hne, by simp [hissued]⟩
  · intro i j ci _ hi
    exact absurd (List.mem_of_getElem? hi) (hnobody ci)
  · intro hsession
    rw [h.session] at hsession
    cases hsession
  · exact .keyring hkeyring haccepted fun c hc => absurd hc (hnobody c)

end AgentSession

open AgentSession

/--
**When the session survives.**  However the calls interleave, once all are through the
keyring holds the token the cloud accepts and `identity` has its session, exactly if each
call of `identity` presented the token that was accepted when its request was served.
-/
theorem session_survives_iff (settings : AuthSettings) (sessionId : Nat) (s : AgentSession)
    (hstart : s.LoggedIn settings sessionId) (as : List SessionAction) (t : AgentSession)
    (hrun : run (AgentSession.step settings sessionId) s as = some t)
    (hdone : ∀ call ∈ t.calls, call.pc = .done) :
    t.Survives settings sessionId ↔
      Meets (AgentSession.step settings sessionId) (PresentsAccepted settings sessionId) s as := by
  have h0 := hstart.undisturbed
  constructor
  · intro hsurvives
    have hset : ∀ s a s', SessionInv settings sessionId s →
        ¬ PresentsAccepted settings sessionId s a →
        AgentSession.step settings sessionId s a = some s' →
        SessionInv settings sessionId s' ∧ s'.Doomed :=
      fun _ _ _ hi hnot hs => ⟨(refreshes_of_step hs).keeps hi, doomed_of_step hi hnot hs⟩
    refine Meets.of_latch_of_inv (fun _ _ _ hi hs => (refreshes_of_step hs).keeps hi) hset
      (fun _ _ _ hi hs => ?_) h0.toSessionInv hrun ?_
    · exact ⟨(refreshes_of_step hs).keeps hi.1, (refreshes_of_step hs).doomed hi.1 hi.2⟩
    · rintro ⟨-, hsession | ⟨j, e, hj, -⟩⟩
      · rw [hsurvives.1] at hsession
        cases hsession
      · cases hdone _ (List.mem_of_getElem? hj)
  · intro hmeets
    have hend : Undisturbed settings sessionId t :=
      run_invariant (fun _ _ _ hi hok hs => (refreshes_of_step hs).undisturbed hi hok) h0 hmeets
        hrun
    refine ⟨hend.session, ?_⟩
    cases hend.token with
    | keyring hkeyring haccepted => exact ⟨_, hkeyring, haccepted⟩
    | call hget hholds =>
        rw [hdone _ (List.mem_of_getElem? hget)] at hholds
        cases hholds

/-! ### One refresher after the other, and at once -/

/-- The operator has logged in with the token `r0`, as session 1. -/
def clerkLoggedIn : AgentSession where
  cloud :=
    { db := oneUser.createSession 1 (plainLib.hashRefreshToken "r0") (days 14) none none
      failedLoginAttempts := fun _ => [] }
  keyring := some "r0"
  identity :=
    { email := some "clerk@x.org", accessToken := some "eyJ", baseUrl := some "https://portal",
      permissions := [], isAdmin := false }
  loginEmail := some "clerk@x.org"
  accessToken := some "eyJ"
  calls := []
  issued := ["r0"]

theorem clerkLoggedIn_loggedIn : clerkLoggedIn.LoggedIn plainAuth 1 := by
  refine ⟨rfl, rfl, "r0", by decide, rfl, rfl, rfl, fun t _ k row hrow _ => ?_⟩
  rw [← AuthDb.session?_id hrow, List.mem_singleton.mp (Table.get?_mem hrow)]
  rfl

/-- `identity.refresh` to its end, and then the launcher. -/
def inTurn : List SessionAction :=
  [.begin .identity, .run 0, .post 0 "r1" 0, .run 0, .run 0,
    .begin .launcher, .run 1, .post 1 "r2" 0, .run 1, .run 1, .run 1]

theorem survives_inTurn :
    ∃ t, run (AgentSession.step plainAuth 1) clerkLoggedIn inTurn = some t ∧
      (∀ call ∈ t.calls, call.pc = .done) ∧ t.Survives plainAuth 1 := by
  refine ⟨_, rfl, by decide +kernel, ?_⟩
  exact (session_survives_iff plainAuth 1 clerkLoggedIn clerkLoggedIn_loggedIn inTurn _ rfl
    (by decide +kernel)).mpr (by decide +kernel)

/-- Both read `r0`; the launcher exchanges it for `r1`, and `identity.refresh` is turned
away while the launcher puts `r1` into the keyring. -/
def atOnce : List SessionAction :=
  [.begin .launcher, .begin .identity, .run 0, .run 1, .post 0 "r1" 0, .post 1 "r2" 0,
    .run 0, .run 0, .run 0, .run 1, .run 1]

/-- The loser takes `r1`, which the cloud accepts, out of the keyring. -/
theorem loser_forgets_session :
    clerkLoggedIn.LoggedIn plainAuth 1 ∧
      ∃ t, run (AgentSession.step plainAuth 1) clerkLoggedIn atOnce = some t ∧
        (∀ call ∈ t.calls, call.pc = .done) ∧
        t.acceptedHash 1 = some (plainAuth.lib.hashRefreshToken "r1") ∧
        t.keyring = none ∧ t.identity = clearSession ∧ ¬ t.Survives plainAuth 1 := by
  refine ⟨clerkLoggedIn_loggedIn, _, rfl, by decide +kernel, by decide +kernel, rfl, rfl, ?_⟩
  rintro ⟨hsession, -⟩
  cases hsession

end GovCrawler
