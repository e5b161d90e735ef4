/-
SMTP credentials on their way from the table to a mail server: decryption, the
dictionary a send works with, and the pool a campaign may send through.

The dictionary is a copy.  What the dispatcher does with it happens after waits of
any length, so nothing in it is known to agree with the table by then.
-/
import GovCrawler.Lib.StoreProgram
import GovCrawler.Outreach.Mixin

namespace GovCrawler

open Relational StoreProgram

/-! ### The exceptions of a send -/

/-- One refused recipient, as `aiosmtplib` reports it. -/
structure SMTPRecipientRefused where
  code : Int
  message : String
  recipient : String
  deriving DecidableEq, Repr

/-- `SMTPRecipientsRefused.recipients`: the library makes it a list; the handler
reads it as a mapping from recipient to code and message. -/
inductive Recipients
  | list (refused : List SMTPRecipientRefused)
  | dict (entries : List (String × Int × String))
  deriving DecidableEq, Repr

/-- The exceptions the dispatcher tells apart, `database` for one a database call
raises, and `other` for the rest. -/
inductive Exc
  | smtpAuthenticationError (code : Int) (message : String)
  | oauthTokenError (text : String)
  | smtpResponseException (code : Int) (message : String)
  | smtpRecipientsRefused (recipients : Recipients)
  | smtpConnectError (text : String)
  | osError (text : String)
  | timeoutError (text : String)
  | attributeError (text : String)
  | valueError (text : String)
  | database (text : String)
  | other (text : String)
  deriving DecidableEq, Repr

/-! ### Encryption at rest -/

/-- The key chain: the current primary, and the previous key during a rotation. -/
structure EncKeys where
  primary : String
  prev : Option String := none
  deriving DecidableEq, Repr

def EncKeys.chain (keys : EncKeys) : List String := keys.primary :: keys.prev.toList

/-- `encrypt_password`: always under the primary. -/
def encryptPassword (plain : String) (keys : EncKeys) : Encrypted := ⟨keys.primary, plain⟩

/-- `decrypt_password`: under any key of the chain. -/
def decryptPassword (blob : Encrypted) (keys : EncKeys) : Except Exc String :=
  if keys.chain.contains blob.key then .ok blob.plain
  else .error (.valueError "Could not decrypt credential — CREDENTIAL_ENC_KEY may have changed")

@[simp] theorem decrypt_encrypt (plain : String) (keys : EncKeys) :
    decryptPassword (encryptPassword plain keys) keys = .ok plain := by
  simp [decryptPassword, encryptPassword, EncKeys.chain]

theorem decryptPassword_eq_ok {blob : Encrypted} {keys : EncKeys} {plain : String}
    (h : decryptPassword blob keys = .ok plain) : plain = blob.plain := by
  unfold decryptPassword at h
  by_cases hk : keys.chain.contains blob.key
  · rw [if_pos hk] at h
    exact (Except.ok.inj h).symm
  · rw [if_neg hk] at h
    cases h

theorem decryptPassword_eq_ok_iff {keys : EncKeys} {blob : Encrypted} {plain : String} :
    decryptPassword blob keys = .ok plain ↔
      keys.chain.contains blob.key = true ∧ plain = blob.plain := by
  constructor
  · intro h
    refine ⟨?_, decryptPassword_eq_ok h⟩
    by_contra hkey
    rw [decryptPassword, if_neg hkey] at h
    cases h
  · rintro ⟨hkey, rfl⟩
    rw [decryptPassword, if_pos hkey]

/-- The OAuth tokens of a row. -/
def SMTPCredential.tokens (c : SMTPCredential) : List Encrypted :=
  c.refreshTokenEncrypted.toList ++ c.accessTokenEncrypted.toList

/-- All secrets of a row. -/
def SMTPCredential.stored (c : SMTPCredential) : List Encrypted :=
  c.passwordEncrypted.toList ++ c.tokens

/-- `decrypt_password(column, keys) if column else None`. -/
def decryptColumn (keys : EncKeys) : Option Encrypted → Except Exc (Option String)
  | none => .ok none
  | some blob => (decryptPassword blob keys).map some

theorem decryptColumn_eq_ok {keys : EncKeys} {column : Option Encrypted} {v : Option String}
    (h : decryptColumn keys column = .ok v) : v = column.map Encrypted.plain := by
  cases column with
  | none => exact (Except.ok.inj h).symm
  | some blob =>
      simp only [decryptColumn] at h
      cases hd : decryptPassword blob keys with
      | error e =>
          rw [hd] at h
          cases h
      | ok plain =>
          rw [hd] at h
          rw [← Except.ok.inj h, decryptPassword_eq_ok hd]
          rfl

/-! ### What a send works with -/

/-- The dictionary `_credential_send_dict` builds. -/
structure Credential where
  id : Nat
  host : String
  port : Nat
  username : String
  provider : String
  password : Option String
  refreshToken : Option String
  accessToken : Option String
  tokenExpiresAt : Option Time
  dailySendLimit : Option Int
  deriving DecidableEq, Repr

/-- `_credential_send_dict`. -/
def credentialSendDict (keys : EncKeys) (c : SMTPCredential) : Except Exc Credential :=
  match decryptColumn keys c.passwordEncrypted, decryptColumn keys c.refreshTokenEncrypted,
      decryptColumn keys c.accessTokenEncrypted with
  | .ok password, .ok refreshToken, .ok accessToken =>
      .ok
        { id := c.id, host := c.host, port := c.port, username := c.username,
          provider := c.provider, password, refreshToken, accessToken,
          tokenExpiresAt := c.tokenExpiresAt, dailySendLimit := c.dailySendLimit }
  | .error e, _, _ => .error e
  | _, .error e, _ => .error e
  | _, _, .error e => .error e

theorem credentialSendDict_eq_ok {keys : EncKeys} {c : SMTPCredential} {d : Credential}
    (h : credentialSendDict keys c = .ok d) :
    d = { id := c.id, host := c.host, port := c.port, username := c.username,
          provider := c.provider, password := c.passwordEncrypted.map Encrypted.plain,
          refreshToken := c.refreshTokenEncrypted.map Encrypted.plain,
          accessToken := c.accessTokenEncrypted.map Encrypted.plain,
          tokenExpiresAt := c.tokenExpiresAt, dailySendLimit := c.dailySendLimit } := by
  unfold credentialSendDict at h
  cases hp : decryptColumn keys c.passwordEncrypted with
  | error e => simp [hp] at h
  | ok p =>
      cases hr : decryptColumn keys c.refreshTokenEncrypted with
      | error e => simp [hp, hr] at h
      | ok r =>
          cases ha : decryptColumn keys c.accessTokenEncrypted with
          | error e => simp [hp, hr, ha] at h
          | ok a =>
              simp only [hp, hr, ha, Except.ok.injEq] at h
              rw [← h, decryptColumn_eq_ok hp, decryptColumn_eq_ok hr, decryptColumn_eq_ok ha]

/-- The filter of `get_credentials_by_ids` and `get_active_credentials`.
`SMTPCredential.cooldown_until is None` is an identity test Python decides, and is
`False`; what is left is the comparison, and `NULL < now` is not true. -/
def usable (now : Time) (c : SMTPCredential) : Bool :=
  c.isActive && c.cooldownUntil.any fun t => t < now

/-- Build the dictionary of every row, in order; the first that does not decrypt raises. -/
def sendDicts (keys : EncKeys) : List SMTPCredential → Except Exc (List Credential)
  | [] => .ok []
  | c :: cs =>
      match credentialSendDict keys c with
      | .error e => .error e
      | .ok d =>
          match sendDicts keys cs with
          | .error e => .error e
          | .ok ds => .ok (d :: ds)

/-- A dictionary in the pool is the copy of a selected row. -/
theorem mem_sendDicts {keys : EncKeys} {cs : List SMTPCredential} {ds : List Credential}
    (h : sendDicts keys cs = .ok ds) {d : Credential} (hd : d ∈ ds) :
    ∃ c ∈ cs, credentialSendDict keys c = .ok d := by
  induction cs generalizing ds with
  | nil =>
      obtain rfl : [] = ds := by simpa [sendDicts] using h
      cases hd
  | cons c cs ih =>
      unfold sendDicts at h
      cases hc : credentialSendDict keys c with
      | error e => simp [hc] at h
      | ok d' =>
          cases hcs : sendDicts keys cs with
          | error e => simp [hc, hcs] at h
          | ok ds' =>
              obtain rfl : d' :: ds' = ds := by simpa [hc, hcs] using h
              rcases List.mem_cons.mp hd with rfl | hd
              · exact ⟨c, by simp, hc⟩
              · obtain ⟨c', hc', hd'⟩ := ih hcs hd
                exact ⟨c', by simp [hc'], hd'⟩

namespace OutreachDb

/-- `get_credentials_by_ids`. -/
def getCredentialsByIds (keys : EncKeys) (db : OutreachDb) (ids : List Nat) (now : Time) :
    Except Exc (List Credential) :=
  if ids.isEmpty then .ok []
  else sendDicts keys (db.smtpCredentials.select fun c => ids.contains c.id && usable now c)

/-- `get_active_credentials`. -/
def getActiveCredentials (keys : EncKeys) (db : OutreachDb) (now : Time) :
    Except Exc (List Credential) :=
  sendDicts keys (db.smtpCredentials.select (usable now))

/-- The assigned credentials, or every active one where nothing is assigned. -/
def poolCandidates (keys : EncKeys) (db : OutreachDb) (assignedIds : List Nat) (now : Time) :
    Except Exc (List Credential) :=
  if assignedIds.isEmpty then db.getActiveCredentials keys now
  else db.getCredentialsByIds keys assignedIds now

theorem mem_poolCandidates {keys : EncKeys} {db : OutreachDb} {ids : List Nat} {now : Time}
    {ds : List Credential} (h : db.poolCandidates keys ids now = .ok ds) {d : Credential}
    (hd : d ∈ ds) : ∃ c, db.smtpCredentials.get? c.id = some c ∧ usable now c = true ∧
      credentialSendDict keys c = .ok d := by
  unfold poolCandidates getActiveCredentials getCredentialsByIds at h
  by_cases hids : ids.isEmpty
  · rw [if_pos hids] at h
    obtain ⟨c, hc, hcd⟩ := mem_sendDicts h hd
    obtain ⟨hmem, hu⟩ := List.mem_filter.mp hc
    exact ⟨c, Table.get?_of_mem hmem, hu, hcd⟩
  · rw [if_neg hids, if_neg hids] at h
    obtain ⟨c, hc, hcd⟩ := mem_sendDicts h hd
    obtain ⟨hmem, hu⟩ := List.mem_filter.mp hc
    simp only [Bool.and_eq_true] at hu
    exact ⟨c, Table.get?_of_mem hmem, hu.2, hcd⟩

end OutreachDb

/-! ### OAuth tokens -/

/-- What the OAuth configuration decides before a token request leaves: an unknown
provider and a missing client id raise, differently. -/
structure OAuthConfig where
  /-- The providers of `_PROVIDERS` that have a `client_id` configured. -/
  clientIds : List (String × String)
  deriving DecidableEq, Repr

/-- `_build_client`. -/
def buildClient (provider : String) (config : OAuthConfig) : Except Exc Unit :=
  if provider = "microsoft" ∨ provider = "google" then
    match config.clientIds.lookup provider with
    | none | some "" => .error (.oauthTokenError s!"oauth.{provider}.client_id is not configured")
    | some _ => .ok ()
  else .error (.valueError s!"Unknown OAuth provider: '{provider}'")

/-- The seconds before expiry in which an access token no longer counts as live. -/
def refreshLeeway : Time := seconds 60

/-- How `get_valid_access_token` begins. -/
inductive AccessToken
  /-- The dictionary's own token is live. -/
  | live (accessToken : String)
  /-- A refresh with this refresh token has to be requested. -/
  | refresh (refreshToken : String)
  /-- It raises. -/
  | raises (e : Exc)
  deriving DecidableEq, Repr

/-- `get_valid_access_token`, up to the request. -/
def getValidAccessToken (credential : Credential) (config : OAuthConfig) (now : Time) :
    AccessToken :=
  match credential.accessToken.filter (· ≠ ""),
      credential.tokenExpiresAt.filter (now + refreshLeeway < ·) with
  | some accessToken, some _ => .live accessToken
  | _, _ =>
      match credential.refreshToken.filter (· ≠ "") with
      | none =>
          .raises (.oauthTokenError "Credential has no refresh token — connect it via OAuth first")
      | some refreshToken =>
          match buildClient credential.provider config with
          | .error e => .raises e
          | .ok _ => .refresh refreshToken

/-- What the token endpoint gives back: tokens, or an exception of the client. -/
inductive TokenReply
  | tokens (accessToken : String) (refreshToken : Option String) (expiresAt : Option Time)
  | rejected (text : String)
  | networkError (text : String)
  deriving DecidableEq, Repr

/-- How `refresh_access_token` ends: every exception of the request, whatever it was,
becomes an `OAuthTokenError`. -/
def refreshOutcome (provider : String) :
    TokenReply → Except Exc (String × Option String × Option Time)
  | .tokens accessToken refreshToken expiresAt => .ok (accessToken, refreshToken, expiresAt)
  | .rejected text => .error (.oauthTokenError s!"{provider} token refresh failed: {text}")
  | .networkError text => .error (.oauthTokenError s!"{provider} token refresh failed: {text}")

namespace OutreachDb

/-- `update_credential_tokens`. -/
def updateCredentialTokens (keys : EncKeys) (db : OutreachDb) (credentialId : Nat)
    (accessToken refreshToken : String) (expiresAt : Option Time) : OutreachDb :=
  db.updateCredentialWhere credentialId fun c =>
    { c with
      accessTokenEncrypted := some (encryptPassword accessToken keys)
      refreshTokenEncrypted := some (encryptPassword refreshToken keys)
      tokenExpiresAt := expiresAt }

end OutreachDb

end GovCrawler
