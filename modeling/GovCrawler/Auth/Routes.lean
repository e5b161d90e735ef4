/-
The routes of `cloud/api/auth.py`, and the dependencies of `cloud/api/deps.py` that
find out who is asking.

An access token is a signed statement, "user `sub` at token version `tv`", that
nothing is stored about; a refresh token is a random string whose hash is stored with
its session.  What the signature library makes of a token is a parameter, and so is
the random string a route draws.

A route runs without interruption.  Cookies it sets are left out: they repeat what the
response says.
-/
import GovCrawler.Auth.Mixin
import GovCrawler.Deps

namespace GovCrawler

open Relational

/-! ### Configuration and libraries -/

/-- `config["auth"]`. -/
structure AuthConfig where
  jwtSecret : String
  jwtSecretPrev : Option String := none
  accessTtlMinutes : Nat
  refreshTtlDays : Nat
  lockoutThreshold : Nat
  lockoutMinutes : Nat
  loginRateLimitAttempts : Nat := 20
  loginRateLimitWindowMinutes : Nat := 15
  deriving DecidableEq, Repr

/-- The payload of an access token.  `iat` and `exp` count seconds. -/
structure JwtPayload where
  sub : Nat
  tv : Nat
  type : String
  iat : Nat
  exp : Nat
  deriving DecidableEq, Repr

/-- The signature library; `none` for every exception it raises. -/
structure Jwt where
  encode : JwtPayload → String → String
  decode : String → String → Time → Option JwtPayload

/-- A token that decodes, decodes to what was encoded. -/
def Jwt.Faithful (jwt : Jwt) : Prop :=
  ∀ payload key key' now q, jwt.decode (jwt.encode payload key) key' now = some q → q = payload

structure AuthSettings where
  config : AuthConfig
  lib : AuthLib
  jwt : Jwt

/-- The readings of `datetime.utcnow()` and `time.monotonic()`. -/
structure Clock where
  utcnow : Time
  monotonic : Time
  deriving DecidableEq, Repr

/-- The database, and the failed login attempts each address is remembered for. -/
structure AuthState where
  db : AuthDb
  failedLoginAttempts : String → List Time

/-- What the routes read of a request besides its body.  A missing `Authorization`
header is the empty one. -/
structure RequestContext where
  authorization : String := ""
  accessCookie : Option String := none
  refreshCookie : Option String := none
  csrfCookie : Option String := none
  csrfHeader : Option String := none
  ip : Option String := none
  userAgent : Option String := none
  deriving DecidableEq, Repr

/-- A string that is there and not empty. -/
def given (s : Option String) : Option String := s.filter (· ≠ "")

/-! ### Who is asking -/

def bearerPrefix : List Char := "Bearer ".toList

/-- `_extract_token`. -/
def extractToken (ctx : RequestContext) : Option String :=
  if bearerPrefix.isPrefixOf ctx.authorization.toList then
    some (String.ofList (ctx.authorization.toList.drop bearerPrefix.length))
  else ctx.accessCookie

/-- `decode_token_with_rotation`. -/
def decodeTokenWithRotation (settings : AuthSettings) (token : String) (now : Time) :
    Option JwtPayload :=
  match settings.jwt.decode token settings.config.jwtSecret now with
  | some payload => some payload
  | none => (given settings.config.jwtSecretPrev).bind fun prev =>
      settings.jwt.decode token prev now

/-- `get_current_user`, once a token has been found. -/
def userOfToken (settings : AuthSettings) (db : AuthDb) (token : String) (now : Time) :
    Except HttpError CurrentUser :=
  match decodeTokenWithRotation settings token now with
  | none => .error ⟨401, "Invalid or expired token"⟩
  | some payload =>
      if payload.type ≠ "access" then .error ⟨401, "Invalid token type"⟩
      else
        match db.getUserById payload.sub with
        | none => .error ⟨401, "User not found or inactive"⟩
        | some user =>
            if user.isActive = false then .error ⟨401, "User not found or inactive"⟩
            else if payload.tv ≠ user.tokenVersion then .error ⟨401, "Token has been revoked"⟩
            else
              .ok
                { id := user.id, email := user.email, isAdmin := user.isAdmin,
                  permissions := db.resolveEffectivePermissions user.id }

/-- `get_current_user`. -/
def getCurrentUser (settings : AuthSettings) (db : AuthDb) (ctx : RequestContext) (now : Time) :
    Except HttpError CurrentUser :=
  match given (extractToken ctx) with
  | none => .error ⟨401, "Not authenticated"⟩
  | some token => userOfToken settings db token now

/-- `verify_csrf`, for a method that is not safe. -/
def verifyCsrf (ctx : RequestContext) : Except HttpError Unit :=
  if ctx.authorization ≠ "" then .ok ()
  else if (given ctx.csrfCookie).isSome ∧ given ctx.csrfCookie = given ctx.csrfHeader then .ok ()
  else .error ⟨403, "Missing or invalid CSRF token"⟩

/-! ### Login -/

/-- `_check_login_rate_limit`: forget what has left the window, and count the rest. -/
def checkLoginRateLimit (config : AuthConfig) (s : AuthState) (ip : Option String) (now : Time) :
    Except HttpError Unit × AuthState :=
  match given ip with
  | none => (.ok (), s)
  | some ip =>
      let attempts := (s.failedLoginAttempts ip).filter fun t =>
        decide (now < t + minutes config.loginRateLimitWindowMinutes)
      let s := { s with
        failedLoginAttempts := fun k => if k = ip then attempts else s.failedLoginAttempts k }
      if config.loginRateLimitAttempts ≤ attempts.length then
        (.error ⟨429, "Too many login attempts from this network. Try again later."⟩, s)
      else (.ok (), s)

/-- `_record_login_failure_for_rate_limit`. -/
def recordLoginFailureForRateLimit (s : AuthState) (ip : Option String) (now : Time) : AuthState :=
  match given ip with
  | none => s
  | some ip =>
      { s with
        failedLoginAttempts := fun k =>
          if k = ip then s.failedLoginAttempts k ++ [now] else s.failedLoginAttempts k }

structure UserOut where
  id : Nat
  email : String
  fullName : Option String
  isAdmin : Bool
  role : Option String
  permissions : List String
  deriving DecidableEq, Repr

structure TokenResponse where
  accessToken : String
  refreshToken : String
  user : UserOut
  deriving DecidableEq, Repr

/-- `_user_out`. -/
def userOut (db : AuthDb) (user : User) : UserOut where
  id := user.id
  email := user.email
  fullName := user.fullName
  isAdmin := user.isAdmin
  role := db.getRoleName user.roleId
  permissions := (db.resolveEffectivePermissions user.id).insertionSort (· ≤ ·)

/-- The payload `create_access_token` signs. -/
def accessPayload (config : AuthConfig) (user : User) (now : Time) : JwtPayload where
  sub := user.id
  tv := user.tokenVersion
  type := "access"
  iat := now / seconds 1
  exp := now / seconds 1 + config.accessTtlMinutes * 60

/-- `create_access_token`, for this user now. -/
def createAccessToken (settings : AuthSettings) (user : User) (now : Time) : String :=
  settings.jwt.encode (accessPayload settings.config user now) settings.config.jwtSecret

structure LoginRequest where
  email : String
  password : String
  deriving DecidableEq, Repr

def invalidLogin : HttpError := ⟨401, "Invalid email or password"⟩

/-- `_issue_tokens` and the response, with `fresh` for the refresh token that is drawn. -/
def issueTokens (settings : AuthSettings) (s : AuthState) (user : User) (ctx : RequestContext)
    (now : Time) (fresh : String) : TokenResponse × AuthState :=
  let db := s.db.createSession user.id (settings.lib.hashRefreshToken fresh)
    (now + days settings.config.refreshTtlDays) ctx.userAgent ctx.ip
  (⟨createAccessToken settings user now, fresh, userOut db user⟩, { s with db })

/-- What `login` does with an account that is there, once the address has passed. -/
def loginUser (settings : AuthSettings) (s : AuthState) (user : User) (password : String)
    (ctx : RequestContext) (clock : Clock) (fresh : String) :
    Except HttpError TokenResponse × AuthState :=
  if user.lockedUntil.any (fun t => clock.utcnow < t) then
    (.error ⟨423, "Account temporarily locked. Try again later."⟩, s)
  else if user.isActive = false then (.error ⟨403, "Account is disabled"⟩, s)
  else if settings.lib.verifyPassword user.passwordHash password = false then
    (.error invalidLogin,
      recordLoginFailureForRateLimit
        { s with
          db := s.db.recordLoginFailure user.id settings.config.lockoutThreshold
            settings.config.lockoutMinutes clock.utcnow } ctx.ip clock.monotonic)
  else
    let r := issueTokens settings
      { s with db := s.db.recordLoginSuccess user.id clock.utcnow } user ctx clock.utcnow fresh
    (.ok r.1, r.2)

/-- `POST /auth/login`. -/
def login (settings : AuthSettings) (s : AuthState) (req : LoginRequest) (ctx : RequestContext)
    (clock : Clock) (fresh : String) : Except HttpError TokenResponse × AuthState :=
  match checkLoginRateLimit settings.config s ctx.ip clock.monotonic with
  | (.error e, s) => (.error e, s)
  | (.ok _, s) =>
      match s.db.getUserByEmail settings.lib req.email with
      | none =>
          (.error invalidLogin, recordLoginFailureForRateLimit s ctx.ip clock.monotonic)
      | some user => loginUser settings s user req.password ctx clock fresh

/-! ### Refresh and logout -/

/-- `req.refresh_token or request.cookies.get("refresh")`. -/
def presentedToken (refreshToken : Option String) (ctx : RequestContext) : Option String :=
  match given refreshToken with
  | some token => some token
  | none => given ctx.refreshCookie

def invalidRefreshToken : HttpError := ⟨401, "Invalid or expired refresh token"⟩

/-- What `refresh` does with the session it has found for the token. -/
def refreshSession (settings : AuthSettings) (s : AuthState) (session : UserSession)
    (now : Time) (fresh : String) : Except HttpError TokenResponse × AuthState :=
  if session.revokedAt.isSome then
    (.error invalidRefreshToken, { s with db := s.db.revokeSessionFamily session.userId now })
  else if session.expiresAt < now then (.error invalidRefreshToken, s)
  else
    match s.db.getUserById session.userId with
    | none => (.error ⟨401, "User not found or inactive"⟩, s)
    | some user =>
        if user.isActive = false then (.error ⟨401, "User not found or inactive"⟩, s)
        else
          let db := s.db.rotateSession session.id (settings.lib.hashRefreshToken fresh)
            (now + days settings.config.refreshTtlDays) now
          (.ok ⟨createAccessToken settings user now, fresh, userOut db user⟩, { s with db })

/-- `POST /auth/refresh`. -/
def refresh (settings : AuthSettings) (s : AuthState) (refreshToken : Option String)
    (ctx : RequestContext) (now : Time) (fresh : String) :
    Except HttpError TokenResponse × AuthState :=
  match presentedToken refreshToken ctx with
  | none => (.error ⟨401, "No refresh token provided"⟩, s)
  | some presented =>
      match s.db.getSessionByHash (settings.lib.hashRefreshToken presented) with
      | none => (.error invalidRefreshToken, s)
      | some session => refreshSession settings s session now fresh

/-- `POST /auth/logout`. -/
def logout (settings : AuthSettings) (s : AuthState) (refreshToken : Option String)
    (ctx : RequestContext) (now : Time) : AuthState :=
  match presentedToken refreshToken ctx with
  | none => s
  | some presented =>
      match s.db.getSessionByHash (settings.lib.hashRefreshToken presented) with
      | none => s
      | some session => { s with db := s.db.revokeSession session.id now }

/-! ### The session list -/

/-- `_current_session_id`. -/
def currentSessionId (settings : AuthSettings) (db : AuthDb) (ctx : RequestContext) : Option Nat :=
  (given ctx.refreshCookie).bind fun presented =>
    (db.getSessionByHash (settings.lib.hashRefreshToken presented)).map UserSession.id

/-- `DELETE /auth/sessions/{session_id}`. -/
def revokeSessionRoute (settings : AuthSettings) (s : AuthState) (sessionId : Nat)
    (ctx : RequestContext) (now : Time) : Except HttpError String × AuthState :=
  match verifyCsrf ctx, getCurrentUser settings s.db ctx now with
  | .error e, _ => (.error e, s)
  | .ok _, .error e => (.error e, s)
  | .ok _, .ok user =>
      match s.db.getSessionById sessionId with
      | none => (.error ⟨404, "Session not found"⟩, s)
      | some session =>
          if session.userId ≠ user.id then (.error ⟨404, "Session not found"⟩, s)
          else (.ok "Session revoked", { s with db := s.db.revokeSession sessionId now })

/-- `POST /auth/sessions/revoke-others`. -/
def revokeOtherSessions (settings : AuthSettings) (s : AuthState) (ctx : RequestContext)
    (now : Time) : Except HttpError String × AuthState :=
  match verifyCsrf ctx, getCurrentUser settings s.db ctx now with
  | .error e, _ => (.error e, s)
  | .ok _, .error e => (.error e, s)
  | .ok _, .ok user =>
      let r := s.db.revokeSessionsExcept user.id (currentSessionId settings s.db ctx) now
      (.ok s!"Revoked {r.1} other session(s)", { s with db := r.2 })

end GovCrawler
