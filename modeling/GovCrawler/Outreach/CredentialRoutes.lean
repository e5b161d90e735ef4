/-
`cloud/api/credentials.py` and `cloud/api/oauth.py`: the credentials of mail servers, and how one
is connected to an account at Microsoft or Google.

A connect starts at a route of the manager of credentials, which leaves a row in
`oauth_pending_flows` and returns the address at which the owner of the account consents.  The
provider sends the browser to the callback, which is open to everybody.  It consumes the row and
waits for the token endpoint; it is cut there.  `secrets.token_urlsafe` and `generate_token` are
what a start draws, and the library makes the code challenge of the verifier.
-/
import GovCrawler.Auth.AdminRoutes
import GovCrawler.Outreach.Dispatch

namespace GovCrawler

open Relational

/-! ### Tables -/

structure OAuthPendingFlow where
  id : Nat
  state : String
  credentialId : Nat
  provider : String
  codeVerifier : String
  createdAt : Time
  deriving DecidableEq, Repr

instance : Keyed OAuthPendingFlow := ⟨OAuthPendingFlow.id⟩

structure CredentialDb where
  outreach : OutreachDb
  oauthPendingFlows : Table OAuthPendingFlow := Table.empty
  auditLog : Table AuditLog := Table.empty

structure CredentialCreate where
  host : String
  port : Nat
  username : String
  provider : String := "basic"
  password : Option String := none
  dailySendLimit : Option Int := none
  deriving DecidableEq, Repr

/-- What `_password_required_for_basic` lets through. -/
abbrev ValidCredentialCreate : Type :=
  { req : CredentialCreate // req.provider = "basic" → (given req.password).isSome }

structure CredentialUpdate where
  host : Option String := none
  port : Option Nat := none
  username : Option String := none
  provider : Option String := none
  password : Option String := none
  isActive : Option Bool := none
  dailySendLimit : Option Int := none
  deriving DecidableEq, Repr

/-- `list(req.model_dump(exclude_none=True))`. -/
def CredentialUpdate.fields (req : CredentialUpdate) : List String :=
  (req.host.map fun _ => "host").toList ++ (req.port.map fun _ => "port").toList ++
    (req.username.map fun _ => "username").toList ++
    (req.provider.map fun _ => "provider").toList ++
    (req.password.map fun _ => "password").toList ++
    (req.isActive.map fun _ => "is_active").toList ++
    (req.dailySendLimit.map fun _ => "daily_send_limit").toList

namespace CredentialDb

variable (keys : EncKeys) (db : CredentialDb)

/-- `create_credential`, with the id of the new one. -/
def createCredential (req : CredentialCreate) : Nat × CredentialDb :=
  (db.outreach.smtpCredentials.nextKey,
    { db with
      outreach := { db.outreach with
        smtpCredentials := db.outreach.smtpCredentials.insertNew fun id =>
          { id, host := req.host, port := req.port, username := req.username,
            provider := req.provider
            passwordEncrypted := (given req.password).map (encryptPassword · keys)
            isActive := true, cooldownUntil := none, dailySendLimit := req.dailySendLimit
            refreshTokenEncrypted := none, accessTokenEncrypted := none
            tokenExpiresAt := none } } })

/-- `get_credential`, with `is_active`. -/
def getCredential (credentialId : Nat) : Except Exc (Option (Credential × Bool)) :=
  match db.outreach.credential? credentialId with
  | none => .ok none
  | some c => (credentialSendDict keys c).map fun d => some (d, c.isActive)

/-- What the fields of an update make of a row. -/
def applyUpdate (req : CredentialUpdate) (c : SMTPCredential) : SMTPCredential :=
  { c with
    host := req.host.getD c.host, port := req.port.getD c.port
    username := req.username.getD c.username, provider := req.provider.getD c.provider
    passwordEncrypted := (req.password.map (encryptPassword · keys)).or c.passwordEncrypted
    isActive := req.isActive.getD c.isActive
    dailySendLimit := req.dailySendLimit.or c.dailySendLimit }

/-- `update_credential`. -/
def updateCredential (credentialId : Nat) (req : CredentialUpdate) : Bool × CredentialDb :=
  ((db.outreach.credential? credentialId).isSome,
    { db with
      outreach := db.outreach.updateCredentialWhere credentialId (applyUpdate keys req) })

/-- A campaign or an email refers to the credential. -/
def inUse (credentialId : Nat) : Bool :=
  db.outreach.campaigns.rows.any (fun c => c.testCredentialId == some credentialId) ||
    db.outreach.campaignCredentials.rows.any (fun c => c.credentialId == credentialId) ||
    db.outreach.campaignEmails.rows.any fun e => e.credentialId == some credentialId

/-- `delete_credential`, one transaction. -/
def deleteCredential (credentialId : Nat) : Except DbError (Bool × CredentialDb) :=
  let swept := { db with
    oauthPendingFlows := db.oauthPendingFlows.deleteWhere fun f => f.credentialId == credentialId }
  match db.outreach.credential? credentialId with
  | none => .ok (false, swept)
  | some _ =>
      if db.inUse credentialId then .error .integrityError
      else
        .ok (true,
          { swept with
            outreach := { db.outreach with
              smtpCredentials :=
                db.outreach.smtpCredentials.deleteWhere fun c => c.id == credentialId } })

/-- The sweep of `create_oauth_flow`. -/
def sweepFlows (now : Time) : Table OAuthPendingFlow :=
  db.oauthPendingFlows.deleteWhere fun f => decide (f.createdAt + hours 1 < now)

/-- `create_oauth_flow`, one transaction. -/
def createOauthFlow (state : String) (credentialId : Nat) (provider codeVerifier : String)
    (now : Time) : Except DbError CredentialDb :=
  if ((db.sweepFlows now).first? fun f => f.state == state).isSome ||
      (db.outreach.credential? credentialId).isNone then .error .integrityError
  else
    .ok { db with
      oauthPendingFlows := (db.sweepFlows now).insertNew fun id =>
        { id, state, credentialId, provider, codeVerifier, createdAt := now } }

/-- `consume_oauth_flow`: what has been found is gone. -/
def consumeOauthFlow (state : String) : Option OAuthPendingFlow × CredentialDb :=
  match db.oauthPendingFlows.first? fun f => f.state == state with
  | none => (none, db)
  | some flow =>
      (some flow,
        { db with oauthPendingFlows := db.oauthPendingFlows.deleteWhere fun f => f.id == flow.id })

/-- `write_audit`, about a credential. -/
def audit (userId : Option Nat) (action : String) (credentialId : Nat) (detail : Json.Dict)
    (ip : Option String) (now : Time) : CredentialDb :=
  { db with
    auditLog := db.auditLog.insertNew fun id =>
      { id, userId, action, targetType := some "credential"
        targetId := some (toString credentialId)
        detail := if detail.isEmpty then none else some detail, ip, createdAt := now } }

end CredentialDb

/-! ### `cloud/security/oauth.py` -/

/-- An entry of `_PROVIDERS`. -/
structure ProviderConfig where
  authorizeEndpoint : String
  tokenEndpoint : String
  scope : String
  tokenEndpointAuthMethod : String
  extraAuthorizeParams : List (String × String)
  deriving DecidableEq, Repr

/-- `_PROVIDERS`. -/
def oauthProviders : List (String × ProviderConfig) :=
  [("microsoft",
      { authorizeEndpoint := "https://login.microsoftonline.com/common/oauth2/v2.0/authorize"
        tokenEndpoint := "https://login.microsoftonline.com/common/oauth2/v2.0/token"
        scope := "https://outlook.office365.com/SMTP.Send offline_access User.Read"
        tokenEndpointAuthMethod := "none"
        extraAuthorizeParams := [] }),
    ("google",
      { authorizeEndpoint := "https://accounts.google.com/o/oauth2/v2/auth"
        tokenEndpoint := "https://oauth2.googleapis.com/token"
        scope := "https://mail.google.com/"
        tokenEndpointAuthMethod := "client_secret_post"
        extraAuthorizeParams := [("access_type", "offline"), ("prompt", "consent")] })]

/-- The `oauth` section of the configuration. -/
structure ConnectConfig extends OAuthConfig where
  redirectBaseUrl : Option String := none
  clientSecrets : List (String × String) := []
  deriving DecidableEq, Repr

/-- `codeChallenge` is `S256`, and `title` is `str.title`. -/
structure ConnectLib where
  codeChallenge : String → String
  title : String → String

structure ConnectSettings where
  keys : EncKeys
  oauth : ConnectConfig
  lib : ConnectLib

/-- The client of `_build_client`, as far as it goes into a request. -/
structure OAuthClient where
  provider : ProviderConfig
  clientId : String
  clientSecret : Option String
  redirectUri : String
  deriving DecidableEq, Repr

/-- What `create_authorization_url` puts into the address. -/
structure AuthorizeUrl where
  client : OAuthClient
  state : String
  codeChallenge : String
  deriving DecidableEq, Repr

/-- The request of `fetch_token` with `grant_type="authorization_code"`. -/
structure TokenRequest where
  client : OAuthClient
  code : String
  codeVerifier : String
  deriving DecidableEq, Repr

/-- `_build_client`, with what it has read. -/
def oauthClient (provider : String) (config : ConnectConfig) (redirectUri : String) :
    Except Exc OAuthClient :=
  match buildClient provider config.toOAuthConfig, oauthProviders.lookup provider with
  | .error e, _ => .error e
  | .ok _, none => .error (.valueError s!"Unknown OAuth provider: '{provider}'")
  | .ok _, some cfg =>
      .ok
        { provider := cfg, clientId := (config.clientIds.lookup provider).getD ""
          clientSecret := config.clientSecrets.lookup provider, redirectUri }

/-- `build_authorize_url`, which draws the state and the verifier. -/
def buildAuthorizeUrl (lib : ConnectLib) (provider : String) (config : ConnectConfig)
    (redirectUri state codeVerifier : String) : Except Exc AuthorizeUrl :=
  (oauthClient provider config redirectUri).map fun client =>
    { client, state, codeChallenge := lib.codeChallenge codeVerifier }

/-- The request of `exchange_code`. -/
def exchangeRequest (provider : String) (config : ConnectConfig)
    (redirectUri code codeVerifier : String) : Except Exc TokenRequest :=
  (oauthClient provider config redirectUri).map fun client => { client, code, codeVerifier }

/-- The address the provider sends the browser back to. -/
def callbackUri (redirectBase provider : String) : String :=
  rstrip '/' redirectBase ++ "/oauth/callback/" ++ provider

/-! ### `cloud/api/credentials.py` -/

/-- Who asks for a route behind `require("credentials.manage")`. -/
structure Manager where
  user : CurrentUser
  allowed : user.hasAll ["credentials.manage"] = true
  ip : Option String := none

inductive CredentialResponse
  | message (text : String) (id : Option Nat)
  | authorizeUrl (url : AuthorizeUrl)
  | test (error : Option String)
  deriving DecidableEq, Repr

/-- A response, and the database after it. -/
abbrev CredentialAnswer : Type := Except HttpError CredentialResponse × CredentialDb

section Routes

variable (settings : ConnectSettings) (db : CredentialDb) (caller : Manager) (now : Time)

/-- `create_credential`. -/
def serveCreateCredential (req : ValidCredentialCreate) : CredentialAnswer :=
  let r := db.createCredential settings.keys req.val
  (.ok (.message "Credential created" (some r.1)),
    r.2.audit (some caller.user.id) "credential.create" r.1
      [("host", .str req.val.host), ("username", .str req.val.username)] caller.ip now)

/-- `update_credential`.  The audit row has the names of the fields. -/
def serveUpdateCredential (credentialId : Nat) (req : CredentialUpdate) : CredentialAnswer :=
  if req.fields = [] then (.error ⟨400, "No fields to update"⟩, db)
  else
    let r := db.updateCredential settings.keys credentialId req
    if r.1 = false then (.error ⟨404, "Credential not found"⟩, r.2)
    else
      (.ok (.message "Credential updated" none),
        r.2.audit (some caller.user.id) "credential.update" credentialId
          [("fields", stringsJson req.fields)] caller.ip now)

/-- `delete_credential`. -/
def serveDeleteCredential (credentialId : Nat) : CredentialAnswer :=
  match db.deleteCredential credentialId with
  | .error _ =>
      (.error ⟨409, "Credential is assigned to one or more campaigns and can't be deleted."⟩, db)
  | .ok (false, db) => (.error ⟨404, "Credential not found"⟩, db)
  | .ok (true, db) =>
      (.ok (.message "Credential deleted" none),
        db.audit (some caller.user.id) "credential.delete" credentialId [] caller.ip now)

/-- The status of an exception that `start_credential_oauth` lets through or catches. -/
def startError : Exc → HttpError
  | .oauthTokenError text => ⟨400, text⟩
  | _ => internalError

/-- `start_credential_oauth`. -/
def serveStartOauth (credentialId : Nat) (provider state codeVerifier : String) :
    CredentialAnswer :=
  if provider ≠ "microsoft" ∧ provider ≠ "google" then
    (.error ⟨400, s!"Unknown provider: {provider}"⟩, db)
  else
    match db.getCredential settings.keys credentialId with
    | .error _ => (.error internalError, db)
    | .ok none => (.error ⟨404, "Credential not found"⟩, db)
    | .ok (some _) =>
        match given settings.oauth.redirectBaseUrl with
        | none => (.error ⟨400, "oauth.redirect_base_url is not configured"⟩, db)
        | some redirectBase =>
            match buildAuthorizeUrl settings.lib provider settings.oauth
                (callbackUri redirectBase provider) state codeVerifier with
            | .error e => (.error (startError e), db)
            | .ok url =>
                match db.createOauthFlow state credentialId provider codeVerifier now with
                | .error _ => (.error internalError, db)
                | .ok db =>
                    (.ok (.authorizeUrl url),
                      db.audit (some caller.user.id) "credential.oauth_start" credentialId
                        [("provider", .str provider)] caller.ip now)

/-- What `test_credential` tells apart. -/
def testFailure : Exc → String × String
  | .smtpAuthenticationError _ message =>
      ("authentication_failed", "Authentication failed: " ++ message)
  | .oauthTokenError text => ("authentication_failed", "Authentication failed: " ++ text)
  | e => ("connection_failed", "Connection failed: " ++ e.str)

/-- How `test_credential` ends, once it has talked to the mail server. -/
def finishTest (credentialId : Nat) (wasActive : Bool) : Except Exc Unit → CredentialAnswer
  | .ok _ =>
      let db := if wasActive then db
        else (db.updateCredential settings.keys credentialId { isActive := some true }).2
      (.ok (.test none),
        db.audit (some caller.user.id) "credential.test" credentialId [("success", .bool true)]
          caller.ip now)
  | .error e =>
      let db := (db.updateCredential settings.keys credentialId { isActive := some false }).2
      (.ok (.test (some (testFailure e).2)),
        db.audit (some caller.user.id) "credential.test" credentialId
          [("success", .bool false), ("error", .str (testFailure e).1)] caller.ip now)

end Routes

/-! ### `cloud/api/oauth.py` -/

structure CallbackQuery where
  code : Option String := none
  state : Option String := none
  errorDescription : Option String := none
  error : Option String := none
  deriving DecidableEq, Repr

structure Page where
  title : String
  body : String
  statusCode : Nat := 200
  deriving DecidableEq, Repr

def connectionFailed (body : String) : Page := ⟨"Connection failed", body, 400⟩

def expiredLink : Page :=
  connectionFailed ("This sign-in link has expired or was already used — go back to Settings and " ++
    "click Connect again.")

inductive CallbackStart
  | page (p : Page)
  /-- A flow has been consumed, and the token endpoint is asked. -/
  | exchange (flow : OAuthPendingFlow) (request : TokenRequest)
  deriving DecidableEq, Repr

/-- The page of an exception, where one catches it. -/
def exchangeFailed : Exc → Page
  | .oauthTokenError text => connectionFailed text
  | _ => ⟨"", "Something went wrong on the server.", 500⟩

/-- `oauth_callback`, up to the exchange. -/
def oauthCallback (settings : ConnectSettings) (db : CredentialDb) (provider : String)
    (query : CallbackQuery) : CallbackStart × CredentialDb :=
  match (given query.errorDescription).or (given query.error) with
  | some error =>
      (.page (connectionFailed s!"{settings.lib.title provider} declined the request: {error}"), db)
  | none =>
      match given query.code, given query.state with
      | some code, some state =>
          match db.consumeOauthFlow state with
          | (none, db) => (.page expiredLink, db)
          | (some flow, db) =>
              if flow.provider ≠ provider then (.page expiredLink, db)
              else
                match exchangeRequest provider settings.oauth
                    (callbackUri (settings.oauth.redirectBaseUrl.getD "") provider) code
                    flow.codeVerifier with
                | .error e => (.page (exchangeFailed e), db)
                | .ok request => (.exchange flow request, db)
      | _, _ => (.page (connectionFailed "Missing authorization code or state."), db)

/-- `oauth_callback`, when the token endpoint has answered. -/
def finishCallback (settings : ConnectSettings) (db : CredentialDb) (flow : OAuthPendingFlow)
    (ip : Option String) (now : Time) : TokenReply → Page × CredentialDb
  | .rejected text | .networkError text =>
      (connectionFailed s!"{flow.provider} token exchange failed: {text}", db)
  | .tokens accessToken refreshToken expiresAt =>
      match given refreshToken with
      | none =>
          (connectionFailed (settings.lib.title flow.provider ++
            " didn't return a long-lived refresh token — try disconnecting this app's access in " ++
            "your account settings, then Connect again."), db)
      | some refreshToken =>
          let stored := { db with
            outreach := db.outreach.updateCredentialTokens settings.keys flow.credentialId
              accessToken refreshToken expiresAt }
          (⟨"Connected", "You can close this tab and return to Settings.", 200⟩,
            (stored.updateCredential settings.keys flow.credentialId
              { isActive := some true }).2.audit none "credential.oauth_connected"
              flow.credentialId [("provider", .str flow.provider)] ip now)

end GovCrawler
