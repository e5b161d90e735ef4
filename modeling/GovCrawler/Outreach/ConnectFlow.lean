/-
Connecting credentials to accounts, with any number of connects, callbacks, tests and sends at once.

The callback is open to everybody, and so is the provider: whoever has an account there can consent
at an address with any code challenge.  What protects a credential is that a flow is consumed by the
first callback that names it, that the provider gives tokens for a code only against the verifier of
its challenge, and that a refresh is stored where the token that it presented came from.
`ConnectWorld` has the server, what waits for an answer, and what the providers have issued.
-/
import GovCrawler.Lib.Constraints
import GovCrawler.Lib.Transition
import GovCrawler.Outreach.CredentialRoutes

namespace GovCrawler

open Relational Transition

/-! ### The state -/

/-- A connect that has been started. -/
structure ConnectStart where
  manager : Manager
  flowId : Nat
  credentialId : Nat
  provider : String
  codeChallenge : String

/-- A code the provider has issued to who consented at an address with this challenge. -/
structure IssuedCode where
  provider : String
  code : String
  codeChallenge : String
  deriving DecidableEq, Repr

/-- A refresh token, with the challenge of the consent it goes back to. -/
structure IssuedToken where
  provider : String
  refreshToken : String
  codeChallenge : String
  deriving DecidableEq, Repr

/-- What waits for an answer from outside. -/
inductive CredentialTask
  /-- A callback waits for the token endpoint. -/
  | callback (flow : OAuthPendingFlow) (request : TokenRequest) (ip : Option String)
  /-- A copy of a credential is about to be used, for a send or for a test of it. -/
  | holding (cred : Credential) (test : Option (Manager × Bool))
  /-- A refresh waits for the token endpoint. -/
  | refreshing (cred : Credential) (refreshToken : String) (test : Option (Manager × Bool))
  /-- A test waits for the mail server. -/
  | probing (credentialId : Nat) (caller : Manager) (wasActive : Bool)

/-- `exchanged` are the flows whose code has been presented. -/
structure ConnectWorld where
  now : Time
  db : CredentialDb
  tasks : List CredentialTask := []
  starts : List ConnectStart := []
  exchanged : List Nat := []
  codes : List IssuedCode := []
  issued : List IssuedToken := []

inductive ConnectAction
  | tick (d : Nat)
  | create (caller : Manager) (req : ValidCredentialCreate)
  | update (caller : Manager) (credentialId : Nat) (req : CredentialUpdate)
  | delete (caller : Manager) (credentialId : Nat)
  | start (caller : Manager) (credentialId : Nat) (provider state codeVerifier : String)
  /-- Somebody consents, and is sent to the callback with the code. -/
  | consent (code : IssuedCode)
  | callback (provider : String) (query : CallbackQuery) (ip : Option String)
  | test (caller : Manager) (credentialId : Nat)
  /-- A dispatch task copies a credential. -/
  | load (credentialId : Nat)
  /-- What holds a copy finds an access token. -/
  | go (i : Nat)
  | answer (i : Nat) (reply : TokenReply)
  | probed (i : Nat) (outcome : Except Exc Unit)
  /-- What campaigns, emails and the handlers of a send do, who store no tokens. -/
  | elsewhere (outreach : OutreachDb)

namespace ConnectWorld

variable (settings : ConnectSettings) (w : ConnectWorld)

/-- The token columns. -/
def tokenColumns (outreach : OutreachDb) : List (Nat × Option Encrypted) :=
  outreach.smtpCredentials.rows.map fun c => (c.id, c.refreshTokenEncrypted)

/-- The provider has not issued this token before. -/
def isNew (refreshToken : String) : Bool := w.issued.all fun t => t.refreshToken != refreshToken

/-- An access token has been found: a test goes on to the mail server. -/
def found (i : Nat) (credentialId : Nat) : Option (Manager × Bool) → ConnectWorld
  | none => { w with tasks := w.tasks.eraseIdx i }
  | some (caller, wasActive) =>
      { w with tasks := w.tasks.set i (.probing credentialId caller wasActive) }

/-- None has been found: a test ends. -/
def notFound (i : Nat) (credentialId : Nat) (e : Exc) : Option (Manager × Bool) → ConnectWorld
  | none => { w with tasks := w.tasks.eraseIdx i }
  | some (caller, wasActive) =>
      { w with
        tasks := w.tasks.eraseIdx i
        db := (finishTest settings w.db caller w.now credentialId wasActive (.error e)).2 }

/-- What holds a copy looks for an access token. -/
def proceed (i : Nat) (cred : Credential) (test : Option (Manager × Bool)) : ConnectWorld :=
  if cred.provider = "basic" then w.found i cred.id test
  else
    match getValidAccessToken cred settings.oauth.toOAuthConfig w.now with
    | .live _ => w.found i cred.id test
    | .refresh refreshToken =>
        { w with tasks := w.tasks.set i (.refreshing cred refreshToken test) }
    | .raises e => w.notFound settings i cred.id e test

/-- The answer to a callback.  Tokens are given for the code of a consent, against the verifier of
its challenge. -/
def answerCallback (i : Nat) (flow : OAuthPendingFlow) (request : TokenRequest)
    (ip : Option String) (reply : TokenReply) : Option ConnectWorld :=
  let challenge := settings.lib.codeChallenge request.codeVerifier
  let after := { w with
    tasks := w.tasks.eraseIdx i
    db := (finishCallback settings w.db flow ip w.now reply).2 }
  match reply with
  | .tokens _ refreshToken _ =>
      if IssuedCode.mk flow.provider request.code challenge ∈ w.codes ∧
          (given refreshToken).all (w.isNew ·) = true then
        some { after with
          issued := w.issued ++ (given refreshToken).toList.map fun r =>
            IssuedToken.mk flow.provider r challenge }
      else none
  | .rejected _ | .networkError _ => some after

/-- The answer to a refresh.  The token must be one that the provider has issued; a new one goes
back to the same consent. -/
def answerRefresh (i : Nat) (cred : Credential) (refreshToken : String)
    (test : Option (Manager × Bool)) (reply : TokenReply) : Option ConnectWorld :=
  match reply with
  | .tokens accessToken fresh expiresAt =>
      match w.issued.find? fun t =>
          t.provider == cred.provider && t.refreshToken == refreshToken with
      | none => none
      | some t =>
          let kept := (given fresh).getD refreshToken
          let stored := { w with
            db := { w.db with
              outreach := w.db.outreach.updateCredentialTokens settings.keys cred.id accessToken
                kept expiresAt } }
          if kept = refreshToken then some (stored.found i cred.id test)
          else if w.isNew kept = true then
            some ({ stored with
              issued := w.issued ++ [⟨cred.provider, kept, t.codeChallenge⟩] : ConnectWorld }.found
                i cred.id test)
          else none
  | .rejected text | .networkError text =>
      some (w.notFound settings i cred.id
        (.oauthTokenError s!"{cred.provider} token refresh failed: {text}") test)

/-- `none` where the action does not fit. -/
def step : ConnectAction → Option ConnectWorld
  | .tick d => some { w with now := w.now + d }
  | .create caller req =>
      some { w with db := (serveCreateCredential settings w.db caller w.now req).2 }
  | .update caller credentialId req =>
      some { w with db := (serveUpdateCredential settings w.db caller w.now credentialId req).2 }
  | .delete caller credentialId =>
      some { w with db := (serveDeleteCredential w.db caller w.now credentialId).2 }
  | .start caller credentialId provider state codeVerifier =>
      match serveStartOauth settings w.db caller w.now credentialId provider state codeVerifier with
      | (.error _, db) => some { w with db }
      | (.ok _, db) =>
          some { w with
            db
            starts := w.starts ++
              [⟨caller, w.db.oauthPendingFlows.nextKey, credentialId, provider,
                settings.lib.codeChallenge codeVerifier⟩] }
  | .consent code => some { w with codes := w.codes ++ [code] }
  | .callback provider query ip =>
      match oauthCallback settings w.db provider query with
      | (.page _, db) => some { w with db }
      | (.exchange flow request, db) =>
          some { w with
            db
            tasks := w.tasks ++ [.callback flow request ip]
            exchanged := w.exchanged ++ [flow.id] }
  | .test caller credentialId =>
      match w.db.getCredential settings.keys credentialId with
      | .ok (some (cred, isActive)) =>
          if cred.provider ≠ "basic" ∧ (given cred.refreshToken).isNone then some w
          else some { w with tasks := w.tasks ++ [.holding cred (some (caller, isActive))] }
      | _ => some w
  | .load credentialId =>
      match w.db.getCredential settings.keys credentialId with
      | .ok (some (cred, _)) => some { w with tasks := w.tasks ++ [.holding cred none] }
      | _ => some w
  | .go i =>
      match w.tasks[i]? with
      | some (.holding cred test) => some (w.proceed settings i cred test)
      | _ => none
  | .answer i reply =>
      match w.tasks[i]? with
      | some (.callback flow request ip) => w.answerCallback settings i flow request ip reply
      | some (.refreshing cred refreshToken test) =>
          w.answerRefresh settings i cred refreshToken test reply
      | _ => none
  | .probed i outcome =>
      match w.tasks[i]? with
      | some (.probing credentialId caller wasActive) =>
          some { w with
            tasks := w.tasks.eraseIdx i
            db := (finishTest settings w.db caller w.now credentialId wasActive outcome).2 }
      | _ => none
  | .elsewhere outreach =>
      if tokenColumns outreach = tokenColumns w.db.outreach ∧
          outreach.smtpCredentials.nextKey = w.db.outreach.smtpCredentials.nextKey then
        some { w with db := { w.db with outreach } }
      else none

end ConnectWorld

/-! ### What the methods leave alone -/

section Methods

variable {settings : ConnectSettings} {db : CredentialDb} {caller : Manager} {now : Time}

theorem tokenColumns_updateWhere (outreach : OutreachDb) (credentialId : Nat)
    {f : SMTPCredential → SMTPCredential} (hf : ∀ c, (f c).id = c.id)
    (hsame : ∀ c, (f c).refreshTokenEncrypted = c.refreshTokenEncrypted) :
    ConnectWorld.tokenColumns (outreach.updateCredentialWhere credentialId f hf) =
      ConnectWorld.tokenColumns outreach := by
  show List.map _ (List.map _ _) = _
  rw [List.map_map]
  refine List.map_congr_left fun c _ => ?_
  show (fun c : SMTPCredential => (c.id, c.refreshTokenEncrypted)) (if _ then f c else c) = _
  split
  · exact Prod.ext (hf c) (hsame c)
  · rfl

theorem tokenColumns_updateCredential {credentialId : Nat} {req : CredentialUpdate} :
    ConnectWorld.tokenColumns (db.updateCredential settings.keys credentialId req).2.outreach =
      ConnectWorld.tokenColumns db.outreach :=
  tokenColumns_updateWhere _ _ (by intro _; rfl) fun _ => rfl

/-- A test changes no token and no flow. -/
theorem finishTest_keeps (settings : ConnectSettings) (db : CredentialDb) (caller : Manager)
    (now : Time) (credentialId : Nat) (wasActive : Bool) (outcome : Except Exc Unit) :
    ConnectWorld.tokenColumns
        (finishTest settings db caller now credentialId wasActive outcome).2.outreach =
      ConnectWorld.tokenColumns db.outreach ∧
      (finishTest settings db caller now credentialId wasActive outcome).2.oauthPendingFlows =
        db.oauthPendingFlows := by
  cases outcome with
  | ok _ =>
      cases wasActive with
      | true => exact ⟨rfl, rfl⟩
      | false => exact ⟨tokenColumns_updateCredential, rfl⟩
  | error e => exact ⟨tokenColumns_updateCredential, rfl⟩

theorem serveUpdate_keeps {credentialId : Nat} {req : CredentialUpdate} :
    ConnectWorld.tokenColumns
        (serveUpdateCredential settings db caller now credentialId req).2.outreach =
      ConnectWorld.tokenColumns db.outreach ∧
      (serveUpdateCredential settings db caller now credentialId req).2.oauthPendingFlows =
        db.oauthPendingFlows := by
  unfold serveUpdateCredential
  split
  · exact ⟨rfl, rfl⟩
  · dsimp only
    split
    · exact ⟨tokenColumns_updateCredential, rfl⟩
    · exact ⟨tokenColumns_updateCredential, rfl⟩

/-- What a delete does: nothing, or flows go, and perhaps the credential. -/
theorem serveDelete_cases (db : CredentialDb) (caller : Manager) (now : Time) (credentialId : Nat) :
    (serveDeleteCredential db caller now credentialId).2 = db ∨
      ((serveDeleteCredential db caller now credentialId).2.oauthPendingFlows =
          db.oauthPendingFlows.deleteWhere (fun f => f.credentialId == credentialId) ∧
        (ConnectWorld.tokenColumns (serveDeleteCredential db caller now credentialId).2.outreach
          ⊆ ConnectWorld.tokenColumns db.outreach)) := by
  unfold serveDeleteCredential CredentialDb.deleteCredential
  cases db.outreach.credential? credentialId with
  | none => exact Or.inr ⟨rfl, List.Subset.refl _⟩
  | some c =>
      cases db.inUse credentialId with
      | true => exact Or.inl rfl
      | false => exact Or.inr ⟨rfl, List.map_subset _ (List.filter_subset_self _)⟩

/-- What a start does: nothing, or there is a flow. -/
theorem serveStart_cases {credentialId : Nat} {provider state codeVerifier : String}
    {r : Except HttpError CredentialResponse} {db' : CredentialDb}
    (h : serveStartOauth settings db caller now credentialId provider state codeVerifier =
      (r, db')) :
    (∃ e, r = .error e ∧ db' = db) ∨
      ∃ url, r = .ok (.authorizeUrl url) ∧
        buildAuthorizeUrl settings.lib provider settings.oauth
          (callbackUri (settings.oauth.redirectBaseUrl.getD "") provider) state codeVerifier =
            .ok url ∧
        ((db.sweepFlows now).first? fun f => f.state == state) = none ∧
        (db.outreach.credential? credentialId).isSome ∧
        db'.outreach = db.outreach ∧
        db'.oauthPendingFlows = (db.sweepFlows now).insertNew fun id =>
          { id, state, credentialId, provider, codeVerifier, createdAt := now } := by
  unfold serveStartOauth at h
  split at h
  · exact Or.inl ⟨_, (Prod.mk.inj h).1.symm, (Prod.mk.inj h).2.symm⟩
  · split at h
    · exact Or.inl ⟨_, (Prod.mk.inj h).1.symm, (Prod.mk.inj h).2.symm⟩
    · exact Or.inl ⟨_, (Prod.mk.inj h).1.symm, (Prod.mk.inj h).2.symm⟩
    · split at h
      · exact Or.inl ⟨_, (Prod.mk.inj h).1.symm, (Prod.mk.inj h).2.symm⟩
      · rename_i redirectBase hbase
        have hbase : settings.oauth.redirectBaseUrl = some redirectBase :=
          (Option.filter_eq_some_iff.mp hbase).1
        split at h
        · exact Or.inl ⟨_, (Prod.mk.inj h).1.symm, (Prod.mk.inj h).2.symm⟩
        · rename_i url hurl
          split at h
          · exact Or.inl ⟨_, (Prod.mk.inj h).1.symm, (Prod.mk.inj h).2.symm⟩
          · rename_i db₁ hflow
            obtain ⟨rfl, rfl⟩ := Prod.mk.inj h
            unfold CredentialDb.createOauthFlow at hflow
            split at hflow
            · cases hflow
            · rename_i hfree
              obtain rfl := Except.ok.inj hflow
              rw [Bool.or_eq_true, not_or] at hfree
              refine Or.inr ⟨url, rfl, by rwa [hbase], ?_, ?_, rfl, rfl⟩
              · simpa using hfree.1
              · simpa [Option.isSome_iff_ne_none] using hfree.2

/-- What a callback does: nothing, or a flow is consumed, and perhaps its code presented. -/
theorem oauthCallback_cases {provider : String} {query : CallbackQuery} {r : CallbackStart}
    {db' : CredentialDb} (h : oauthCallback settings db provider query = (r, db')) :
    (db' = db ∧ ∃ p, r = .page p) ∨
      ∃ flow ∈ db.oauthPendingFlows.rows, query.state = some flow.state ∧
        db' = { db with
          oauthPendingFlows := db.oauthPendingFlows.deleteWhere fun f => f.id == flow.id } ∧
        ((∃ p, r = .page p) ∨
          ∃ request, r = .exchange flow request ∧ request.codeVerifier = flow.codeVerifier) := by
  unfold oauthCallback at h
  split at h
  · exact Or.inl ⟨(Prod.mk.inj h).2.symm, _, (Prod.mk.inj h).1.symm⟩
  · split at h
    · rename_i code state _ hstate
      have hstate : query.state = some state := (Option.filter_eq_some_iff.mp hstate).1
      unfold CredentialDb.consumeOauthFlow at h
      cases hfound : db.oauthPendingFlows.first? fun f => f.state == state with
      | none =>
          rw [hfound] at h
          exact Or.inl ⟨(Prod.mk.inj h).2.symm, _, (Prod.mk.inj h).1.symm⟩
      | some flow =>
          rw [hfound] at h
          dsimp only at h
          obtain ⟨hsame, hget⟩ := Table.first?_spec hfound
          refine Or.inr ⟨flow, Table.get?_mem hget, by rw [hstate, beq_iff_eq.mp hsame], ?_⟩
          split at h
          · exact ⟨(Prod.mk.inj h).2.symm, Or.inl ⟨_, (Prod.mk.inj h).1.symm⟩⟩
          · split at h
            · exact ⟨(Prod.mk.inj h).2.symm, Or.inl ⟨_, (Prod.mk.inj h).1.symm⟩⟩
            · rename_i request hrequest
              refine ⟨(Prod.mk.inj h).2.symm, Or.inr ⟨request, (Prod.mk.inj h).1.symm, ?_⟩⟩
              unfold exchangeRequest at hrequest
              cases hclient : oauthClient provider settings.oauth
                  (callbackUri (settings.oauth.redirectBaseUrl.getD "") provider) with
              | error e =>
                  rw [hclient] at hrequest
                  cases hrequest
              | ok client =>
                  rw [hclient] at hrequest
                  rw [← Except.ok.inj hrequest]
    · exact Or.inl ⟨(Prod.mk.inj h).2.symm, _, (Prod.mk.inj h).1.symm⟩

/-- The token that is presented is that of the copy. -/
theorem refreshToken_of_refresh {cred : Credential} {config : OAuthConfig} {now : Time}
    {refreshToken : String} (h : getValidAccessToken cred config now = .refresh refreshToken) :
    cred.refreshToken = some refreshToken := by
  unfold getValidAccessToken at h
  split at h
  · cases h
  · split at h
    · cases h
    · rename_i token htoken
      split at h
      · cases h
      · rw [(Option.filter_eq_some_iff.mp htoken).1, AccessToken.refresh.inj h]

end Methods

/-! ### What a step does -/

section Moves

variable {settings : ConnectSettings} {w w' : ConnectWorld}

/-- A task that comes from what there was: a copy of a row, or what a copy goes on to. -/
inductive CredentialTask.Follows (settings : ConnectSettings) (w : ConnectWorld) :
    CredentialTask → Prop
  | probing (credentialId : Nat) (caller : Manager) (wasActive : Bool) :
      Follows settings w (.probing credentialId caller wasActive)
  | holding (cred : Credential) (isActive : Bool) (credentialId : Nat)
      (test : Option (Manager × Bool))
      (h : w.db.getCredential settings.keys credentialId = .ok (some (cred, isActive))) :
      Follows settings w (.holding cred test)
  | refreshing (cred : Credential) (refreshToken : String) (test : Option (Manager × Bool))
      (hholding : .holding cred test ∈ w.tasks) (htoken : cred.refreshToken = some refreshToken) :
      Follows settings w (.refreshing cred refreshToken test)

/-- No token is new, and no task but such ones. -/
structure ConnectWorld.Quiet (settings : ConnectSettings) (w w' : ConnectWorld) : Prop where
  columns : ∀ p ∈ tokenColumns w'.db.outreach, p ∈ tokenColumns w.db.outreach ∨ p.2 = none
  tasks : ∀ t ∈ w'.tasks, t ∈ w.tasks ∨ t.Follows settings w
  starts : w'.starts = w.starts
  codes : w.codes ⊆ w'.codes
  issued : w'.issued = w.issued

/-- A token is stored for a credential, and no task comes but such ones. -/
structure ConnectWorld.Stores (settings : ConnectSettings) (w w' : ConnectWorld)
    (credentialId : Nat) (refreshToken : String) : Prop where
  columns : ∀ p ∈ tokenColumns w'.db.outreach, p ∈ tokenColumns w.db.outreach ∨
    (p.1 = credentialId ∧ p.2.map Encrypted.plain = some refreshToken)
  tasks : ∀ t ∈ w'.tasks, t ∈ w.tasks ∨ t.Follows settings w
  starts : w'.starts = w.starts
  codes : w'.codes = w.codes

/-- The flows and what has become of them are what they were. -/
structure ConnectWorld.SameFlows (w w' : ConnectWorld) : Prop where
  flows : w'.db.oauthPendingFlows = w.db.oauthPendingFlows
  starts : w'.starts = w.starts
  exchanged : w'.exchanged = w.exchanged

/-- The action is about the flow: its credential is deleted, or the callback names its state. -/
def ConnectAction.Names (w : ConnectWorld) (f : OAuthPendingFlow) : ConnectAction → Prop
  | .delete _ credentialId => f.credentialId = credentialId
  | .callback _ query _ =>
      ∃ g ∈ w.db.oauthPendingFlows.rows, query.state = some g.state ∧ f.id = g.id
  | _ => False

/-- What a step does. -/
inductive ConnectMove (settings : ConnectSettings) (w w' : ConnectWorld) (a : ConnectAction) : Prop
  | quiet (hquiet : w.Quiet settings w') (hflows : w.SameFlows w')
  /-- Flows go: those of a credential that is deleted, or one whose callback fails at once. -/
  | drop (hquiet : w.Quiet settings w') (p : OAuthPendingFlow → Bool)
      (hflows : w'.db.oauthPendingFlows = w.db.oauthPendingFlows.deleteWhere p)
      (hexchanged : w'.exchanged = w.exchanged) (hnamed : ∀ f, p f = true → a.Names w f)
  | start (manager : Manager) (credentialId : Nat) (provider state codeVerifier : String)
      (ha : a = .start manager credentialId provider state codeVerifier)
      (hfree : ((w.db.sweepFlows w.now).first? fun f => f.state == state) = none)
      (hflows : w'.db.oauthPendingFlows = (w.db.sweepFlows w.now).insertNew fun id =>
        { id, state, credentialId, provider, codeVerifier, createdAt := w.now })
      (hstarts : w'.starts = w.starts ++
        [⟨manager, w.db.oauthPendingFlows.nextKey, credentialId, provider,
          settings.lib.codeChallenge codeVerifier⟩])
      (houtreach : w'.db.outreach = w.db.outreach) (htasks : w'.tasks = w.tasks)
      (hexchanged : w'.exchanged = w.exchanged) (hcodes : w'.codes = w.codes)
      (hissued : w'.issued = w.issued)
  | exchange (flow : OAuthPendingFlow) (request : TokenRequest) (ip : Option String)
      (hflow : flow ∈ w.db.oauthPendingFlows.rows) (hnamed : a.Names w flow)
      (hverifier : request.codeVerifier = flow.codeVerifier)
      (hflows : w'.db.oauthPendingFlows =
        w.db.oauthPendingFlows.deleteWhere fun f => f.id == flow.id)
      (hexchanged : w'.exchanged = w.exchanged ++ [flow.id])
      (htasks : w'.tasks = w.tasks ++ [.callback flow request ip])
      (houtreach : w'.db.outreach = w.db.outreach) (hstarts : w'.starts = w.starts)
      (hcodes : w'.codes = w.codes) (hissued : w'.issued = w.issued)
  | grant (flow : OAuthPendingFlow) (request : TokenRequest) (ip : Option String)
      (refreshToken : String) (htask : .callback flow request ip ∈ w.tasks)
      (hcode : ⟨flow.provider, request.code, settings.lib.codeChallenge request.codeVerifier⟩ ∈
        w.codes)
      (hnew : w.isNew refreshToken = true)
      (hstores : w.Stores settings w' flow.credentialId refreshToken)
      (hissued : w'.issued = w.issued ++ [⟨flow.provider, refreshToken,
        settings.lib.codeChallenge request.codeVerifier⟩])
      (hflows : w.SameFlows w')
  | refresh (cred : Credential) (presented kept : String) (test : Option (Manager × Bool))
      (t : IssuedToken) (htask : .refreshing cred presented test ∈ w.tasks) (ht : t ∈ w.issued)
      (hprovider : t.provider = cred.provider) (htoken : t.refreshToken = presented)
      (hstores : w.Stores settings w' cred.id kept)
      (hissued : (kept = presented ∧ w'.issued = w.issued) ∨
        (w.isNew kept = true ∧
          w'.issued = w.issued ++ [⟨cred.provider, kept, t.codeChallenge⟩]))
      (hflows : w.SameFlows w')

theorem ConnectWorld.SameFlows.refl (w : ConnectWorld) : w.SameFlows w := ⟨rfl, rfl, rfl⟩

/-- The credentials have the same tokens. -/
theorem ConnectWorld.Quiet.of_columns
    (hcolumns : tokenColumns w'.db.outreach = tokenColumns w.db.outreach)
    (htasks : ∀ t ∈ w'.tasks, t ∈ w.tasks ∨ t.Follows settings w) (hstarts : w'.starts = w.starts)
    (hcodes : w.codes ⊆ w'.codes) (hissued : w'.issued = w.issued) : w.Quiet settings w' :=
  ⟨fun _ hp => Or.inl (hcolumns ▸ hp), htasks, hstarts, hcodes, hissued⟩

/-- Nothing but the clock and the rest of the tables. -/
theorem ConnectMove.of_same {a : ConnectAction}
    (hdb : ConnectWorld.tokenColumns w'.db.outreach =
      ConnectWorld.tokenColumns w.db.outreach)
    (hflows : w'.db.oauthPendingFlows = w.db.oauthPendingFlows)
    (htasks : ∀ t ∈ w'.tasks, t ∈ w.tasks ∨ t.Follows settings w) (hstarts : w'.starts = w.starts)
    (hexchanged : w'.exchanged = w.exchanged) (hcodes : w'.codes = w.codes)
    (hissued : w'.issued = w.issued) : ConnectMove settings w w' a :=
  .quiet (.of_columns hdb htasks hstarts (hcodes ▸ List.Subset.refl _) hissued)
    ⟨hflows, hstarts, hexchanged⟩

theorem ConnectWorld.mem_found {i credentialId : Nat} {test : Option (Manager × Bool)}
    {t : CredentialTask} (ht : t ∈ (w.found i credentialId test).tasks) {w₀ : ConnectWorld} :
    t ∈ w.tasks ∨ t.Follows settings w₀ := by
  cases test with
  | none => exact Or.inl (List.mem_of_mem_eraseIdx ht)
  | some test =>
      obtain ⟨caller, wasActive⟩ := test
      rcases List.mem_or_eq_of_mem_set ht with hold | rfl
      · exact Or.inl hold
      · exact Or.inr (.probing _ _ _)

theorem ConnectWorld.found_same (i credentialId : Nat) (test : Option (Manager × Bool)) :
    (w.found i credentialId test).db = w.db ∧ (w.found i credentialId test).starts = w.starts ∧
      (w.found i credentialId test).exchanged = w.exchanged ∧
      (w.found i credentialId test).codes = w.codes ∧
      (w.found i credentialId test).issued = w.issued := by
  cases test <;> exact ⟨rfl, rfl, rfl, rfl, rfl⟩

theorem connectMove_found (i credentialId : Nat) (test : Option (Manager × Bool))
    {a : ConnectAction} : ConnectMove settings w (w.found i credentialId test) a := by
  obtain ⟨hdb, hstarts, hexchanged, hcodes, hissued⟩ :=
    ConnectWorld.found_same (w := w) i credentialId test
  exact .of_same (by rw [hdb]) (by rw [hdb]) (fun _ ht => ConnectWorld.mem_found ht) hstarts
    hexchanged hcodes hissued

theorem connectMove_notFound (i credentialId : Nat) (e : Exc) (test : Option (Manager × Bool))
    {a : ConnectAction} : ConnectMove settings w (w.notFound settings i credentialId e test) a := by
  have herased : ∀ t ∈ w.tasks.eraseIdx i, t ∈ w.tasks ∨ t.Follows settings w :=
    fun t ht => Or.inl (List.mem_of_mem_eraseIdx ht)
  cases test with
  | none => exact .of_same rfl rfl herased rfl rfl rfl rfl
  | some test =>
      obtain ⟨hcolumns, hflows⟩ :=
        finishTest_keeps settings w.db test.1 w.now credentialId test.2 (.error e)
      exact .of_same hcolumns hflows herased rfl rfl rfl rfl

/-- The columns after tokens have been stored. -/
theorem mem_tokenColumns_updateCredentialTokens {keys : EncKeys} {outreach : OutreachDb}
    {credentialId : Nat} {access refresh : String} {expires : Option Time}
    {p : Nat × Option Encrypted}
    (hp : p ∈ ConnectWorld.tokenColumns
      (outreach.updateCredentialTokens keys credentialId access refresh expires)) :
    p ∈ ConnectWorld.tokenColumns outreach ∨
      (p.1 = credentialId ∧ p.2.map Encrypted.plain = some refresh) := by
  obtain ⟨c', hc', rfl⟩ := List.mem_map.mp hp
  obtain ⟨c, hc, rfl⟩ := List.mem_map.mp hc'
  by_cases hid : c.id = credentialId
  · rw [if_pos (beq_iff_eq.mpr hid)]
    exact Or.inr ⟨hid, rfl⟩
  · rw [if_neg fun h => hid (beq_iff_eq.mp h)]
    exact Or.inl (List.mem_map_of_mem hc)

/-- A credential that is created has no token. -/
theorem mem_tokenColumns_create {caller : Manager} {req : ValidCredentialCreate}
    {p : Nat × Option Encrypted}
    (hp : p ∈ ConnectWorld.tokenColumns
      (serveCreateCredential settings w.db caller w.now req).2.outreach) :
    p ∈ ConnectWorld.tokenColumns w.db.outreach ∨ p.2 = none := by
  obtain ⟨c, hc, rfl⟩ := List.mem_map.mp hp
  rcases (Table.mem_insertNew _).mp hc with hc | rfl
  · exact Or.inl (List.mem_map_of_mem hc)
  · exact Or.inr rfl

/-- An answer without a refresh token stores nothing. -/
theorem finishCallback_of_none {db : CredentialDb} {flow : OAuthPendingFlow} {ip : Option String}
    {now : Time} {accessToken : String} {refreshToken : Option String} {expiresAt : Option Time}
    (h : given refreshToken = none) :
    (finishCallback settings db flow ip now (.tokens accessToken refreshToken expiresAt)).2 = db := by
  unfold finishCallback
  dsimp only
  rw [h]

/-- The tokens of an answer are stored for the credential of the flow, which becomes active. -/
theorem finishCallback_of_some {db : CredentialDb} {flow : OAuthPendingFlow} {ip : Option String}
    {now : Time} {accessToken token : String} {refreshToken : Option String}
    {expiresAt : Option Time} (h : given refreshToken = some token) :
    finishCallback settings db flow ip now (.tokens accessToken refreshToken expiresAt) =
      (⟨"Connected", "You can close this tab and return to Settings.", 200⟩,
        ({ db with
          outreach := (db.outreach.updateCredentialTokens settings.keys flow.credentialId
            accessToken token expiresAt).updateCredentialWhere flow.credentialId
              (CredentialDb.applyUpdate settings.keys { isActive := some true }) } :
          CredentialDb).audit none "credential.oauth_connected" flow.credentialId
            [("provider", .str flow.provider)] ip now) := by
  unfold finishCallback
  dsimp only
  rw [h]
  rfl

/-- The answer to a callback. -/
theorem connectMove_answerCallback {i : Nat} {flow : OAuthPendingFlow} {request : TokenRequest}
    {ip : Option String} {reply : TokenReply} {a : ConnectAction}
    (htask : .callback flow request ip ∈ w.tasks)
    (hs : w.answerCallback settings i flow request ip reply = some w') :
    ConnectMove settings w w' a := by
  have herased : ∀ t ∈ w.tasks.eraseIdx i, t ∈ w.tasks ∨ t.Follows settings w :=
    fun t ht => Or.inl (List.mem_of_mem_eraseIdx ht)
  unfold ConnectWorld.answerCallback at hs
  cases reply with
  | rejected text =>
      obtain rfl := Option.some.inj hs
      exact .of_same rfl rfl herased rfl rfl rfl rfl
  | networkError text =>
      obtain rfl := Option.some.inj hs
      exact .of_same rfl rfl herased rfl rfl rfl rfl
  | tokens accessToken refreshToken expiresAt =>
      dsimp only at hs
      split at hs
      · rename_i hok
        obtain ⟨hcode, hnew⟩ := hok
        obtain rfl := Option.some.inj hs
        cases hgiven : given refreshToken with
        | none =>
            rw [finishCallback_of_none hgiven]
            exact .of_same rfl rfl herased rfl rfl rfl (List.append_nil _)
        | some token =>
            rw [hgiven] at hnew
            rw [finishCallback_of_some hgiven]
            refine .grant flow request ip token htask hcode hnew
              ⟨fun p hp => ?_, herased, rfl, rfl⟩ rfl ⟨rfl, rfl, rfl⟩
            have hactive := tokenColumns_updateWhere
              (w.db.outreach.updateCredentialTokens settings.keys flow.credentialId accessToken token
                expiresAt) flow.credentialId
              (f := CredentialDb.applyUpdate settings.keys { isActive := some true })
              (by intro _; rfl) fun _ => rfl
            exact mem_tokenColumns_updateCredentialTokens (hactive ▸ hp)
      · cases hs

/-- The answer to a refresh. -/
theorem connectMove_answerRefresh {i : Nat} {cred : Credential} {presented : String}
    {test : Option (Manager × Bool)} {reply : TokenReply} {a : ConnectAction}
    (htask : .refreshing cred presented test ∈ w.tasks)
    (hs : w.answerRefresh settings i cred presented test reply = some w') :
    ConnectMove settings w w' a := by
  unfold ConnectWorld.answerRefresh at hs
  cases reply with
  | rejected text =>
      obtain rfl := Option.some.inj hs
      exact connectMove_notFound i _ _ test
  | networkError text =>
      obtain rfl := Option.some.inj hs
      exact connectMove_notFound i _ _ test
  | tokens accessToken fresh expiresAt =>
      dsimp only at hs
      split at hs
      · cases hs
      · rename_i t hfound
        have ht := List.mem_of_find?_eq_some hfound
        have hboth := List.find?_some hfound
        rw [Bool.and_eq_true] at hboth
        obtain ⟨hprovider, htoken⟩ := hboth
        split at hs
        · rename_i hkept
          obtain rfl := Option.some.inj hs
          refine .refresh cred presented _ test t htask ht (beq_iff_eq.mp hprovider)
            (beq_iff_eq.mp htoken) ⟨fun p hp => ?_, fun u hu => ConnectWorld.mem_found hu, ?_, ?_⟩
            (Or.inl ⟨hkept, ?_⟩) ⟨?_, ?_, ?_⟩
          · cases test <;> exact mem_tokenColumns_updateCredentialTokens hp
          all_goals cases test <;> rfl
        · split at hs
          · rename_i hnew
            obtain rfl := Option.some.inj hs
            refine .refresh cred presented _ test t htask ht (beq_iff_eq.mp hprovider)
              (beq_iff_eq.mp htoken) ⟨fun p hp => ?_, fun u hu => ConnectWorld.mem_found hu, ?_, ?_⟩
              (Or.inr ⟨hnew, ?_⟩) ⟨?_, ?_, ?_⟩
            · cases test <;> exact mem_tokenColumns_updateCredentialTokens hp
            all_goals cases test <;> rfl
          · cases hs

/-- **What a step does** is one of six things. -/
theorem connectMove_of_step {a : ConnectAction} (hs : w.step settings a = some w') :
    ConnectMove settings w w' a := by
  have hsame : ∀ t ∈ w.tasks, t ∈ w.tasks ∨ t.Follows settings w := fun _ => Or.inl
  cases a with
  | tick d =>
      obtain rfl := Option.some.inj hs
      exact .of_same rfl rfl hsame rfl rfl rfl rfl
  | create caller req =>
      obtain rfl := Option.some.inj hs
      exact .quiet ⟨fun _ => mem_tokenColumns_create, hsame, rfl, List.Subset.refl _, rfl⟩
        ⟨rfl, rfl, rfl⟩
  | update caller credentialId req =>
      obtain rfl := Option.some.inj hs
      exact .of_same serveUpdate_keeps.1 serveUpdate_keeps.2 hsame rfl rfl rfl rfl
  | delete caller credentialId =>
      obtain rfl := Option.some.inj hs
      rcases serveDelete_cases w.db caller w.now credentialId with
        heq | ⟨hflows, hcolumns⟩
      · exact .of_same (by rw [heq]) (by rw [heq]) hsame rfl rfl rfl rfl
      · exact .drop ⟨fun _ hp => Or.inl (hcolumns hp), hsame, rfl, List.Subset.refl _, rfl⟩ _ hflows
          rfl fun f hf => beq_iff_eq.mp hf
  | start caller credentialId provider state codeVerifier =>
      rw [ConnectWorld.step] at hs
      cases hserve : serveStartOauth settings w.db caller w.now credentialId provider state
          codeVerifier with
      | mk r db =>
          rw [hserve] at hs
          rcases serveStart_cases hserve with
            ⟨e, rfl, rfl⟩ | ⟨url, rfl, -, hfree, -, houtreach, hflows⟩
          · obtain rfl := Option.some.inj hs
            exact .of_same rfl rfl hsame rfl rfl rfl rfl
          · obtain rfl := Option.some.inj hs
            exact .start caller credentialId provider state codeVerifier rfl hfree hflows rfl houtreach
              rfl rfl rfl rfl
  | consent code =>
      obtain rfl := Option.some.inj hs
      exact .quiet (.of_columns rfl hsame rfl (List.subset_append_left _ _) rfl) ⟨rfl, rfl, rfl⟩
  | callback provider query ip =>
      rw [ConnectWorld.step] at hs
      cases hserve : oauthCallback settings w.db provider query with
      | mk r db =>
          rw [hserve] at hs
          rcases oauthCallback_cases hserve with
            ⟨rfl, p, rfl⟩ | ⟨flow, hflow, hstate, rfl, ⟨p, rfl⟩ | ⟨request, rfl, hverifier⟩⟩
          · obtain rfl := Option.some.inj hs
            exact .of_same rfl rfl hsame rfl rfl rfl rfl
          · obtain rfl := Option.some.inj hs
            exact .drop (.of_columns rfl hsame rfl (List.Subset.refl _) rfl) _ rfl rfl
              fun f hf => ⟨flow, hflow, hstate, beq_iff_eq.mp hf⟩
          · obtain rfl := Option.some.inj hs
            exact .exchange flow request ip hflow ⟨flow, hflow, hstate, rfl⟩ hverifier rfl rfl rfl rfl
              rfl rfl rfl
  | test caller credentialId =>
      rw [ConnectWorld.step] at hs
      split at hs
      · rename_i cred isActive hget
        split at hs
        · obtain rfl := Option.some.inj hs
          exact .of_same rfl rfl hsame rfl rfl rfl rfl
        · obtain rfl := Option.some.inj hs
          refine .of_same rfl rfl (fun t ht => ?_) rfl rfl rfl rfl
          rcases List.mem_append.mp ht with ht | ht
          · exact Or.inl ht
          · rw [List.mem_singleton.mp ht]
            exact Or.inr (.holding cred isActive credentialId _ hget)
      · obtain rfl := Option.some.inj hs
        exact .of_same rfl rfl hsame rfl rfl rfl rfl
  | load credentialId =>
      rw [ConnectWorld.step] at hs
      split at hs
      · rename_i cred isActive hget
        obtain rfl := Option.some.inj hs
        refine .of_same rfl rfl (fun t ht => ?_) rfl rfl rfl rfl
        rcases List.mem_append.mp ht with ht | ht
        · exact Or.inl ht
        · rw [List.mem_singleton.mp ht]
          exact Or.inr (.holding cred isActive credentialId _ hget)
      · obtain rfl := Option.some.inj hs
        exact .of_same rfl rfl hsame rfl rfl rfl rfl
  | go i =>
      rw [ConnectWorld.step] at hs
      split at hs
      · rename_i cred test htask
        obtain rfl := Option.some.inj hs
        unfold ConnectWorld.proceed
        split
        · exact connectMove_found i _ test
        · split
          · exact connectMove_found i _ test
          · rename_i refreshToken haccess
            refine .of_same rfl rfl (fun t ht => ?_) rfl rfl rfl rfl
            rcases List.mem_or_eq_of_mem_set ht with ht | rfl
            · exact Or.inl ht
            · exact Or.inr (.refreshing cred refreshToken test (List.mem_of_getElem? htask)
                (refreshToken_of_refresh haccess))
          · exact connectMove_notFound i _ _ test
      · cases hs
  | answer i reply =>
      rw [ConnectWorld.step] at hs
      split at hs
      · exact connectMove_answerCallback (List.mem_of_getElem? ‹_›) hs
      · exact connectMove_answerRefresh (List.mem_of_getElem? ‹_›) hs
      · cases hs
  | probed i outcome =>
      rw [ConnectWorld.step] at hs
      split at hs
      · obtain rfl := Option.some.inj hs
        obtain ⟨hcolumns, hflows⟩ := finishTest_keeps settings w.db _ w.now _ _ outcome
        exact .of_same hcolumns hflows (fun t ht => Or.inl (List.mem_of_mem_eraseIdx ht)) rfl rfl
          rfl rfl
      · cases hs
  | elsewhere outreach =>
      rw [ConnectWorld.step] at hs
      split at hs
      · rename_i hok
        obtain rfl := Option.some.inj hs
        exact .of_same hok.1 rfl hsame rfl rfl rfl rfl
      · cases hs

end Moves

end GovCrawler
