/-
The code of one dispatch task, `cloud/api/dispatcher.py`.

`run_campaign_dispatch` runs without interruption between its awaits, so it is cut
there: `dispatchPrologue` up to the loop, `loopHead` from the top of an iteration to
the credential it will send through, and `trySend` for what the iteration does once
the send has ended, one way or another.  What happens while it waits is the business
of the modules that put several tasks side by side.

Each of these is a program over the database whose calls may raise.  Next to the
database the store carries a journal, in which a task notes the writes it makes to
an email or a credential; nothing reads it but the theorems.
-/
import GovCrawler.Outreach.Credentials

namespace GovCrawler

open Relational StoreProgram Prog

/-- A write of a dispatch task to the status of an email or to a credential. -/
inductive Write
  | email (emailId : Nat) (status : EmailStatus)
  | disable (credentialId : Nat)
  | cooldown (credentialId : Nat) (until_ : Time)
  deriving DecidableEq, Repr

/-- The database, and what this task has written to it. -/
structure Store where
  db : OutreachDb
  journal : List Write

/-- A program of a dispatch task. -/
abbrev DispatchM (α : Type) := Prog Exc Store α

/-- What a dispatch task is configured with.  `lower` is `str.lower`. -/
structure DispatchSettings where
  keys : EncKeys
  oauth : OAuthConfig
  lower : String → String

/-- The dictionary `claim_next_queued_email` returns. -/
structure ClaimedEmail where
  id : Nat
  campaignId : Nat
  recipientEmail : String
  subject : String
  body : String
  deriving DecidableEq, Repr

/-- What an iteration has settled on when it starts to send. -/
structure Job where
  email : ClaimedEmail
  cred : Credential
  nextIndex : Nat
  deriving DecidableEq, Repr

def noUsableCredentialsReason : String :=
  "Paused: no usable SMTP credentials — every assigned credential is disabled, " ++
  "cooling down, or has hit its daily send limit."

namespace DispatchM

/-! ### Database calls -/

/-- A call that only reads the database. -/
def query {α : Type} (f : OutreachDb → α) : DispatchM α := Prog.read fun s => f s.db

/-- A call that writes the database and is noted in the journal. -/
def update (f : OutreachDb → OutreachDb) (notes : List Write := []) : DispatchM Unit :=
  Prog.write fun s => ⟨f s.db, s.journal ++ notes⟩

def queueCampaignEmails (campaignId : Nat) : DispatchM Nat :=
  Prog.call fun s => ((s.db.queueCampaignEmails campaignId).1,
    ⟨(s.db.queueCampaignEmails campaignId).2, s.journal⟩)

def updateCampaignStatus (campaignId : Nat) (status : CampaignStatus) (reason : Option String) :
    DispatchM Unit :=
  update fun db => (db.updateCampaignStatus campaignId status reason).2

def cancelRemainingQueued (campaignId : Nat) : DispatchM Unit :=
  update fun db => (db.cancelRemainingQueued campaignId).2

/-- The select and the guarded update of `claim_next_queued_email`. -/
def claimRow (campaignId : Nat) (now : Time) : DispatchM (Option Nat) :=
  Prog.call fun s =>
    match OutreachDb.claimRounds campaignId now 5 s.db with
    | (none, db) => (none, ⟨db, s.journal⟩)
    | (some emailId, db) => (some emailId, ⟨db, s.journal ++ [.email emailId .sending]⟩)

/-- The dictionary of a claimed email.  The commit has expired the row, so reading its
fields selects it again: a call of its own, made when the claim is already in place. -/
def readClaimed (emailId : Nat) : DispatchM ClaimedEmail := do
  let row ← query fun db => db.email? emailId
  match row with
  | none => Prog.raise (.other "Instance has been deleted, or its row is otherwise not present.")
  | some e => pure ⟨e.id, e.campaignId, e.recipientEmail, e.subject, e.body⟩

/-- `claim_next_queued_email`. -/
def claimNextQueuedEmail (campaignId : Nat) (now : Time) : DispatchM (Option ClaimedEmail) := do
  let claimed ← claimRow campaignId now
  match claimed with
  | none => pure none
  | some emailId => do
      let email ← readClaimed emailId
      pure (some email)

def markEmailSent (emailId credentialId : Nat) (now : Time) : DispatchM Unit :=
  update (fun db => db.markEmailSent emailId (some credentialId) now) [.email emailId .sent]

def markEmailFailed (emailId : Nat) (message : String) (credentialId : Nat) : DispatchM Unit :=
  update (fun db => db.markEmailFailed emailId message (some credentialId)) [.email emailId .failed]

def requeueEmail (emailId : Nat) : DispatchM Unit :=
  update (fun db => db.requeueEmail emailId) [.email emailId .queued]

def disableCredential (credentialId : Nat) : DispatchM Unit :=
  update (fun db => db.disableCredential credentialId) [.disable credentialId]

def setCredentialCooldown (credentialId : Nat) (until_ : Time) : DispatchM Unit :=
  update (fun db => db.setCredentialCooldown credentialId until_) [.cooldown credentialId until_]

def addToBlacklist (settings : DispatchSettings) (email domain : String) (reason : String) :
    DispatchM Unit :=
  update fun db => (db.addToBlacklist settings.lower email domain (some reason)).2

end DispatchM

open DispatchM

/-! ### Choosing a credential -/

/-- Whether a credential has hit its daily limit.  A limit of `None` or 0 is none. -/
def isCapped (now : Time) (c : Credential) : DispatchM Bool :=
  match c.dailySendLimit with
  | none => pure false
  | some limit =>
      if limit = 0 then pure false
      else do
        let sent ← query fun db => db.getCredentialSentCountToday c.id now
        pure (decide (limit ≤ (sent : Int)))

/-- Drop the credentials that have hit their limit. -/
def dropCapped (now : Time) : List Credential → DispatchM (List Credential)
  | [] => pure []
  | c :: cs => do
      let capped ← isCapped now c
      let rest ← dropCapped now cs
      pure (if capped then rest else c :: rest)

/-- `resolve_credential_pool(db, db.get_campaign_credential_ids(campaign_id))`. -/
def resolveCredentialPool (settings : DispatchSettings) (campaignId : Nat) (now : Time) :
    DispatchM (List Credential) := do
  let assignedIds ← query fun db => db.getCampaignCredentialIds campaignId
  let creds ← query fun db => db.poolCandidates settings.keys assignedIds now
  let creds ← Prog.ofExcept creds
  dropCapped now creds

/-- `_get_next_credential`: round robin, with the index of the next call. -/
def getNextCredential (activeCreds : List Credential) (index : Nat) : Option (Credential × Nat) :=
  match activeCreds[index % activeCreds.length]? with
  | none => none
  | some cred => some (cred, (index + 1) % activeCreds.length)

theorem getNextCredential_eq_none_iff {creds : List Credential} {index : Nat} :
    getNextCredential creds index = none ↔ creds = [] := by
  unfold getNextCredential
  cases creds with
  | nil => simp
  | cons c cs =>
      have hlt : index % (c :: cs).length < (c :: cs).length :=
        Nat.mod_lt _ (by simp)
      rw [List.getElem?_eq_getElem hlt]
      simp

theorem mem_of_getNextCredential {creds : List Credential} {index nextIndex : Nat}
    {cred : Credential} (h : getNextCredential creds index = some (cred, nextIndex)) :
    cred ∈ creds := by
  unfold getNextCredential at h
  split at h
  · cases h
  · rename_i d hd
    obtain rfl := (Prod.mk.inj (Option.some.inj h)).1
    exact List.mem_of_getElem? hd

/-! ### The pool when the database answers -/

/-- The credential has hit its daily limit. -/
def OutreachDb.capped (db : OutreachDb) (now : Time) (c : Credential) : Bool :=
  match c.dailySendLimit with
  | none => false
  | some limit => limit ≠ 0 && decide (limit ≤ (db.getCredentialSentCountToday c.id now : Int))

/-- What `resolve_credential_pool` returns on this database. -/
def OutreachDb.pool (settings : DispatchSettings) (db : OutreachDb) (campaignId : Nat)
    (now : Time) : Except Exc (List Credential) :=
  match db.poolCandidates settings.keys (db.getCampaignCredentialIds campaignId) now with
  | .error e => .error e
  | .ok creds => .ok (creds.filter fun c => !db.capped now c)

theorem isCapped_run (now : Time) (c : Credential) (s : Store) :
    isCapped now c s [] = (.ok (s.db.capped now c), s, []) := by
  unfold isCapped OutreachDb.capped
  cases c.dailySendLimit with
  | none => rfl
  | some limit =>
      by_cases h : limit = 0
      · simp [h]
      · simp only [h, if_false]
        simp [bind_apply, query, Prog.read, Prog.call, h]

theorem dropCapped_run (now : Time) (cs : List Credential) (s : Store) :
    dropCapped now cs s [] = (.ok (cs.filter fun c => !s.db.capped now c), s, []) := by
  induction cs with
  | nil => rfl
  | cons c cs ih =>
      rw [dropCapped, bind_apply, isCapped_run]
      dsimp only
      rw [bind_apply, ih, List.filter_cons]
      cases s.db.capped now c <;> rfl

theorem resolveCredentialPool_run (settings : DispatchSettings) (campaignId : Nat) (now : Time)
    (s : Store) :
    resolveCredentialPool settings campaignId now s [] =
      (s.db.pool settings campaignId now, s, []) := by
  unfold OutreachDb.pool
  show (Prog.ofExcept (s.db.poolCandidates settings.keys _ now) >>= _) s [] = _
  cases s.db.poolCandidates settings.keys (s.db.getCampaignCredentialIds campaignId) now with
  | error e => rfl
  | ok creds => exact dropCapped_run now creds s

/-! ### The segments of a task -/

/-- Whether there is anything to send: newly queued, or left over from a paused run. -/
def anythingQueued (campaignId queuedCount : Nat) : DispatchM Bool :=
  if queuedCount = 0 then query fun db => db.hasQueuedEmail campaignId else pure true

/-- Step 2: a campaign with nothing to send through is paused. -/
def requireCredentials (settings : DispatchSettings) (campaignId : Nat) (now : Time) :
    DispatchM Bool := do
  let activeCreds ← resolveCredentialPool settings campaignId now
  if activeCreds.isEmpty then do
    updateCampaignStatus campaignId .paused (some noUsableCredentialsReason)
    pure false
  else pure true

/-- Steps 1 and 2: queue the selected drafts and see whether there is anything to
send and anything to send it through.  `true` enters the loop. -/
def dispatchPrologue (settings : DispatchSettings) (campaignId : Nat) (now : Time) :
    DispatchM Bool := do
  let queuedCount ← queueCampaignEmails campaignId
  let queued ← anythingQueued campaignId queuedCount
  if queued then requireCredentials settings campaignId now
  else do
    updateCampaignStatus campaignId .completed none
    pure false

/-- Where the top of an iteration leads. -/
inductive Head
  | stop
  | send (job : Job)
  deriving DecidableEq, Repr

/-- Step d, with an email claimed: the assignment is read afresh and the next
credential taken. -/
def chooseCredential (settings : DispatchSettings) (campaignId credIndex : Nat) (now : Time)
    (email : ClaimedEmail) : DispatchM Head := do
  let activeCreds ← resolveCredentialPool settings campaignId now
  match getNextCredential activeCreds credIndex with
  | none => do
      -- the claimed email is not given back
      updateCampaignStatus campaignId .paused (some noUsableCredentialsReason)
      pure .stop
  | some (cred, nextIndex) => pure (.send ⟨email, cred, nextIndex⟩)

/-- Step c, with nothing left to claim. -/
def finishCampaign (campaignId : Nat) : DispatchM Head := do
  let drafts ← query fun db => db.hasRemainingDrafts campaignId
  updateCampaignStatus campaignId (if drafts then .paused else .completed) none
  pure .stop

/-- Steps b to d. -/
def claimAndChoose (settings : DispatchSettings) (campaignId credIndex : Nat) (now : Time) :
    DispatchM Head := do
  let email ← claimNextQueuedEmail campaignId now
  match email with
  | none => finishCampaign campaignId
  | some email => chooseCredential settings campaignId credIndex now email

/-- Steps a to d of an iteration.  `get_campaign` is called without an owner, so it
finds only campaigns that have none. -/
def loopHead (settings : DispatchSettings) (campaignId credIndex : Nat) (now : Time) :
    DispatchM Head := do
  let campaign ← query fun db => db.getCampaign campaignId none false
  match campaign.map Campaign.status with
  | none => pure .stop
  | some .paused => pure .stop
  | some .cancelled => do
      cancelRemainingQueued campaignId
      pure .stop
  | some .running => claimAndChoose settings campaignId credIndex now
  | some .completed => claimAndChoose settings campaignId credIndex now

/-! ### What an exception of the send leads to -/

/-- `str(e)`. -/
def Exc.str : Exc → String
  | .smtpAuthenticationError _ message => message
  | .oauthTokenError text => text
  | .smtpResponseException _ message => message
  | .smtpRecipientsRefused _ => "All recipients were refused"
  | .smtpConnectError text => text
  | .osError text => text
  | .timeoutError text => text
  | .attributeError text => text
  | .valueError text => text
  | .database text => text
  | .other text => text

/-- The codes of a hard bounce. -/
def isHardBounce (code : Int) : Bool := code == 550 || code == 553

/-- The codes of a rate limit or another temporary refusal. -/
def isTemporary (code : Int) : Bool := code == 421 || code == 450 || code == 451

/-- Blacklist the recipient and fail the email. -/
def hardBounce (settings : DispatchSettings) (job : Job) (reason : String) : DispatchM Unit := do
  addToBlacklist settings job.email.recipientEmail (domainPart job.email.recipientEmail) reason
  markEmailFailed job.email.id reason job.cred.id

/-- Cool the credential down and give the email back. -/
def coolDown (job : Job) (until_ : Time) : DispatchM Unit := do
  setCredentialCooldown job.cred.id until_
  requeueEmail job.email.id

/-- The `except` chain around a send.  Every handler ends in the next iteration,
unless it raises itself. -/
def handleException (settings : DispatchSettings) (job : Job) (now : Time) : Exc → DispatchM Unit
  | .smtpAuthenticationError _ _ | .oauthTokenError _ => do
      disableCredential job.cred.id
      requeueEmail job.email.id
  | .smtpResponseException code message =>
      if isHardBounce code then hardBounce settings job s!"{code}: {message}"
      else if isTemporary code then coolDown job (now + hours 1)
      else markEmailFailed job.email.id s!"{code}: {message}" job.cred.id
  | .smtpRecipientsRefused (.list _) =>
      Prog.raise (.attributeError "'list' object has no attribute 'items'")
  | .smtpRecipientsRefused (.dict []) => markEmailFailed job.email.id ": " job.cred.id
  | .smtpRecipientsRefused (.dict ((_, code, message) :: _)) =>
      if isHardBounce code then hardBounce settings job s!"{code}: {message}"
      else markEmailFailed job.email.id s!"{code}: {message}" job.cred.id
  | .smtpConnectError _ | .osError _ | .timeoutError _ => coolDown job (now + minutes 15)
  | e => markEmailFailed job.email.id e.str job.cred.id

/-- Step e once the wait and the send are over: mark the email sent, or handle what
was raised, `mark_email_sent` included. -/
def trySend (settings : DispatchSettings) (job : Job) (now : Time) (sent : Except Exc Unit) :
    DispatchM Unit :=
  Prog.tryExcept
    (do
      Prog.ofExcept sent
      markEmailSent job.email.id job.cred.id now)
    (handleException settings job now)

/-! ### What the top of an iteration does to the emails -/

section Preserves

variable {I : Store → Prop} {c : Nat}

theorem preserves_isCapped (now : Time) (cred : Credential) : Preserves I (isCapped now cred) := by
  unfold isCapped
  cases cred.dailySendLimit with
  | none => exact preserves_pure _
  | some limit =>
      by_cases h : limit = 0
      · simp only [h, if_true]
        exact preserves_pure _
      · simp only [h, if_false]
        exact preserves_bind (preserves_read _) fun _ => preserves_pure _

theorem preserves_dropCapped (now : Time) (creds : List Credential) :
    Preserves I (dropCapped now creds) := by
  induction creds with
  | nil => exact preserves_pure _
  | cons cred creds ih =>
      exact preserves_bind (preserves_isCapped now cred) fun _ =>
        preserves_bind ih fun _ => preserves_pure _

/-- The pool is only read. -/
theorem preserves_resolveCredentialPool (settings : DispatchSettings) (now : Time) :
    Preserves I (resolveCredentialPool settings c now) :=
  preserves_bind (preserves_read _) fun _ => preserves_bind (preserves_read _) fun _ =>
    preserves_bind (preserves_ofExcept _) fun _ => preserves_dropCapped now _

variable (hstatus : ∀ status reason, Preserves I (updateCampaignStatus c status reason))
include hstatus

theorem preserves_chooseCredential (settings : DispatchSettings) (index : Nat) (now : Time)
    (email : ClaimedEmail) : Preserves I (chooseCredential settings c index now email) := by
  refine preserves_bind (preserves_resolveCredentialPool settings now) fun creds => ?_
  cases getNextCredential creds index with
  | none => exact preserves_bind (hstatus _ _) fun _ => preserves_pure _
  | some p => exact preserves_pure _

theorem preserves_finishCampaign : Preserves I (finishCampaign c) :=
  preserves_bind (preserves_read _) fun _ => preserves_bind (hstatus _ _) fun _ => preserves_pure _

/-- The prologue, once the drafts are queued. -/
theorem preserves_afterQueueing (settings : DispatchSettings) (now : Time) (queuedCount : Nat) :
    Preserves I (anythingQueued c queuedCount >>= fun queued =>
      if queued then requireCredentials settings c now
      else updateCampaignStatus c .completed none >>= fun _ => pure false) := by
  refine preserves_bind ?_ fun queued => ?_
  · unfold anythingQueued
    by_cases hcount : queuedCount = 0
    · rw [if_pos hcount]
      exact preserves_read _
    · rw [if_neg hcount]
      exact preserves_pure _
  · cases queued with
    | false => exact preserves_bind (hstatus _ _) fun _ => preserves_pure _
    | true =>
        refine preserves_bind (preserves_resolveCredentialPool settings now) fun creds => ?_
        cases creds.isEmpty with
        | true => exact preserves_bind (hstatus _ _) fun _ => preserves_pure _
        | false => exact preserves_pure _

end Preserves

/-- Nothing happened to any email's status, and nothing was noted. -/
def SameEmails (s t : Store) : Prop :=
  t.journal = s.journal ∧ ∀ k, t.db.emailStatus k = s.db.emailStatus k

theorem SameEmails.refl (s : Store) : SameEmails s s := ⟨rfl, fun _ => rfl⟩

theorem keeps_updateCampaignStatus (s : Store) (c : Nat) (st : CampaignStatus)
    (r : Option String) : Preserves (SameEmails s) (updateCampaignStatus c st r) := by
  refine preserves_write fun t h => ⟨?_, h.2⟩
  rw [List.append_nil]
  exact h.1

theorem keeps_chooseCredential (s : Store) (settings : DispatchSettings) (c index : Nat)
    (now : Time) (email : ClaimedEmail) :
    Preserves (SameEmails s) (chooseCredential settings c index now email) :=
  preserves_chooseCredential (keeps_updateCampaignStatus s c) settings index now email

theorem keeps_finishCampaign (s : Store) (c : Nat) : Preserves (SameEmails s) (finishCampaign c) :=
  preserves_finishCampaign (keeps_updateCampaignStatus s c)

/-- The prologue notes nothing, and moves emails from `DRAFT` to `QUEUED` only. -/
theorem dispatchPrologue_rows (settings : DispatchSettings) (c : Nat) (now : Time) (s : Store)
    (fs : List (Option Exc)) :
    (dispatchPrologue settings c now s fs).2.1.journal = s.journal ∧
      ∀ k, (dispatchPrologue settings c now s fs).2.1.db.emailStatus k = s.db.emailStatus k ∨
        s.db.emailStatus k = some .draft ∧
          (dispatchPrologue settings c now s fs).2.1.db.emailStatus k = some .queued := by
  unfold dispatchPrologue
  rw [bind_apply]
  unfold DispatchM.queueCampaignEmails
  rcases call_cases (fun s : Store => ((s.db.queueCampaignEmails c).1,
    (⟨(s.db.queueCampaignEmails c).2, s.journal⟩ : Store))) s fs with ⟨-, hcall⟩ | ⟨e, -, hcall⟩
  · rw [hcall]
    obtain ⟨hj, hrows⟩ := preserves_afterQueueing (keeps_updateCampaignStatus _ c) settings now
      (s.db.queueCampaignEmails c).1 ⟨(s.db.queueCampaignEmails c).2, s.journal⟩ fs.tail
      (SameEmails.refl _)
    refine ⟨hj, fun k => ?_⟩
    dsimp only
    rw [hrows k]
    exact s.db.emailStatus_queueCampaignEmails c k
  · rw [hcall]
    exact ⟨rfl, fun _ => Or.inl rfl⟩

theorem steady_isCapped (now : Time) (c : Credential) : Steady (isCapped now c) := by
  unfold isCapped
  cases c.dailySendLimit with
  | none => exact steady_pure _
  | some limit =>
      by_cases h : limit = 0
      · simp only [h, if_true]
        exact steady_pure _
      · simp only [h, if_false]
        exact steady_bind (steady_read _) fun _ => steady_pure _

theorem steady_dropCapped (now : Time) (cs : List Credential) : Steady (dropCapped now cs) := by
  induction cs with
  | nil => exact steady_pure _
  | cons c cs ih =>
      exact steady_bind (steady_isCapped now c) fun _ => steady_bind ih fun _ => steady_pure _

theorem steady_chooseCredential (settings : DispatchSettings) (c index : Nat) (now : Time)
    (email : ClaimedEmail) : Steady (chooseCredential settings c index now email) := by
  have hpool : Steady (resolveCredentialPool settings c now) :=
    steady_bind (steady_read _) fun _ => steady_bind (steady_read _) fun _ =>
      steady_bind (steady_ofExcept _) fun _ => steady_dropCapped now _
  refine steady_bind hpool fun creds => ?_
  cases getNextCredential creds index with
  | none => exact steady_bind (steady_write _) fun _ => steady_pure _
  | some p => exact steady_pure _

/-- A credential chosen is chosen for the email that was claimed. -/
theorem chooseCredential_email (settings : DispatchSettings) (c index : Nat) (now : Time)
    (email : ClaimedEmail) :
    Returns (fun h => ∀ job, h = .send job → job.email = email)
      (chooseCredential settings c index now email) := by
  refine returns_bind fun creds => ?_
  cases getNextCredential creds index with
  | none => exact returns_bind fun _ => returns_pure fun _ h => by cases h
  | some p => exact returns_pure fun _ h => by cases h; rfl

/-- With credentials to choose from and a database that answers, one is chosen. -/
theorem chooseCredential_sends {settings : DispatchSettings} {c : Nat} {now : Time} {s : Store}
    {creds : List Credential} (hpool : s.db.pool settings c now = .ok creds) (hne : creds ≠ [])
    (index : Nat) (email : ClaimedEmail) {fs : List (Option Exc)} (hq : Quiet fs) :
    ∃ job, (chooseCredential settings c index now email s fs).1 = .ok (.send job) := by
  obtain ⟨-, fs', -, hrun⟩ := steady_chooseCredential settings c index now email s fs hq
  rw [hrun]
  dsimp only
  rw [chooseCredential, bind_apply, resolveCredentialPool_run, hpool]
  dsimp only
  cases hn : getNextCredential creds index with
  | none => exact absurd (getNextCredential_eq_none_iff.mp hn) hne
  | some p => exact ⟨_, rfl⟩

/-- The pool does not depend on the emails being sent. -/
theorem pool_claimOnce (settings : DispatchSettings) (db : OutreachDb) (c : Nat) (now : Time) :
    (db.claimOnce c now).2.pool settings c now = db.pool settings c now := by
  have htables : (db.claimOnce c now).2.campaigns = db.campaigns ∧
      (db.claimOnce c now).2.smtpCredentials = db.smtpCredentials ∧
      (db.claimOnce c now).2.campaignCredentials = db.campaignCredentials := by
    unfold OutreachDb.claimOnce
    cases db.campaignEmails.first? (OutreachDb.hasStatus c .queued) <;> exact ⟨rfl, rfl, rfl⟩
  obtain ⟨h1, h2, h3⟩ := htables
  have hcap : ∀ d, (db.claimOnce c now).2.capped now d = db.capped now d := by
    intro d
    unfold OutreachDb.capped
    rw [OutreachDb.sentCount_claimOnce]
  unfold OutreachDb.pool OutreachDb.poolCandidates OutreachDb.getActiveCredentials
    OutreachDb.getCredentialsByIds OutreachDb.getCampaignCredentialIds
  rw [h1, h2, h3]
  simp only [hcap]

theorem pool_claimRounds (settings : DispatchSettings) (db : OutreachDb) (c : Nat) (now : Time)
    (n : Nat) : (OutreachDb.claimRounds c now (n + 1) db).2.pool settings c now =
      db.pool settings c now := by
  rcases db.claimRounds_cases c now n with ⟨-, hnone⟩ | ⟨e, -, -, hclaim, -⟩
  · rw [hnone]
  · rw [hclaim]
    exact pool_claimOnce settings db c now

/-- An iteration that claims nothing. -/
structure HeadIdle (s : Store) (r : Except Exc Head × Store × List (Option Exc)) : Prop where
  stops : ∀ job, r.1 ≠ .ok (.send job)
  journal : r.2.1.journal = s.journal
  rows : ∀ k, r.2.1.db.emailStatus k = s.db.emailStatus k ∨
    s.db.emailStatus k = some .queued ∧ r.2.1.db.emailStatus k = some .failed

/-- An iteration that claims `emailId`, whether or not it gets to send it. -/
structure HeadClaim (settings : DispatchSettings) (campaignId : Nat) (now : Time)
    (fs : List (Option Exc)) (emailId : Nat) (s : Store)
    (r : Except Exc Head × Store × List (Option Exc)) : Prop where
  was : s.db.emailStatus emailId = some .queued
  journal : r.2.1.journal = s.journal ++ [.email emailId .sending]
  rows : ∀ k, r.2.1.db.emailStatus k =
    if k = emailId then some .sending else s.db.emailStatus k
  job : ∀ job, r.1 = .ok (.send job) → job.email.id = emailId
  /-- It does where the calls after the claim succeed and there is a credential. -/
  sends : Quiet (fs.drop 1) → ∀ creds, s.db.pool settings campaignId now = .ok creds →
    creds ≠ [] → ∃ job, r.1 = .ok (.send job)

theorem HeadIdle.of_same {s t : Store} {v : Except Exc Head} {fs : List (Option Exc)}
    (h : SameEmails s t) (hv : ∀ job, v ≠ .ok (.send job)) : HeadIdle s (v, t, fs) :=
  ⟨hv, h.1, fun k => Or.inl (h.2 k)⟩

theorem finishCampaign_idle (c : Nat) (s : Store) (fs : List (Option Exc)) :
    HeadIdle s (finishCampaign c s fs) := by
  have hsame := keeps_finishCampaign s c s fs (SameEmails.refl s)
  have hret : Returns (fun h => ∀ job, h ≠ Head.send job) (finishCampaign c) :=
    returns_bind fun _ => returns_bind fun _ => returns_pure fun _ => by simp
  refine ⟨fun job hjob => hret s fs _ hjob job rfl, hsame.1, fun k => Or.inl (hsame.2 k)⟩

/-- Steps b to d claim nothing, or claim one queued email. -/
theorem claimAndChoose_cases (settings : DispatchSettings) (c index : Nat) (now : Time)
    (s : Store) (fs : List (Option Exc)) :
    HeadIdle s (claimAndChoose settings c index now s fs) ∨
      ∃ e, HeadClaim settings c now fs e s (claimAndChoose settings c index now s fs) ∧
        s.db.hasQueuedEmail c = true ∧ Quiet (fs.take 1) := by
  unfold claimAndChoose claimNextQueuedEmail
  rw [bind_apply, bind_apply]
  rcases call_cases _ s fs with ⟨hq1, hcall⟩ | ⟨e, -, hcall⟩
  · unfold claimRow
    rw [hcall]
    dsimp only
    rcases s.db.claimRounds_cases c now 4 with ⟨-, hnone⟩ | ⟨e, hget, hq, hclaim, hrows⟩
    · -- nothing is queued
      rw [hnone]
      exact Or.inl (finishCampaign_idle c _ _)
    · -- the claim is in place; everything after it only reads
      rw [hclaim]
      dsimp only
      have hwas : s.db.emailStatus e.id = some .queued := by
        rw [OutreachDb.emailStatus_eq, hget]
        exact congrArg some (OutreachDb.hasStatus_status hq)
      have hclaimed : ∀ k, (s.db.claimOnce c now).2.emailStatus k =
          if k = e.id then some .sending else s.db.emailStatus k := by
        intro k
        rw [OutreachDb.emailStatus_eq, hrows]
        by_cases hk : k = e.id
        · rw [if_pos hk, if_pos hk]
          rfl
        · rw [if_neg hk, if_neg hk]
          rfl
      have hqueued : s.db.hasQueuedEmail c = true := by
        unfold OutreachDb.hasQueuedEmail Table.first?
        rw [List.find?_isSome]
        exact ⟨e, Table.get?_mem hget, hq⟩
      refine Or.inr ⟨e.id, ?_, hqueued, hq1⟩
      unfold readClaimed
      rw [bind_apply, bind_apply]
      rcases call_cases (fun s : Store => (s.db.email? e.id, s))
        ⟨(s.db.claimOnce c now).2, s.journal ++ [.email e.id .sending]⟩ fs.tail with
        ⟨-, hread⟩ | ⟨x, hx, hread⟩
      · unfold query Prog.read
        rw [hread]
        dsimp only
        rw [hrows, if_pos rfl]
        have hsame := keeps_chooseCredential
          ⟨(s.db.claimOnce c now).2, s.journal ++ [.email e.id .sending]⟩ settings c index now
          ⟨e.id, e.campaignId, e.recipientEmail, e.subject, e.body⟩ _ fs.tail.tail
          (SameEmails.refl _)
        refine ⟨hwas, hsame.1, fun k => (hsame.2 k).trans (hclaimed k), fun job hjob => ?_,
          fun hquiet creds hpool hne => ?_⟩
        · have := chooseCredential_email settings c index now _ _ _ _ hjob job rfl
          rw [this]
        · have hquiet' : Quiet fs.tail.tail := by
            have h1 : Quiet fs.tail := by simpa using hquiet
            exact h1.tail
          refine chooseCredential_sends ?_ hne index _ hquiet'
          exact (pool_claimOnce settings s.db c now).trans hpool
      · unfold query Prog.read
        rw [hread]
        refine ⟨hwas, rfl, hclaimed, fun job hjob => (nomatch hjob), fun hquiet _ _ _ => ?_⟩
        -- the read was told to raise, so the schedule was not quiet
        have h1 : Quiet fs.tail := by simpa using hquiet
        have := h1 (some x) (List.mem_of_head? hx)
        cases this
  · unfold claimRow
    rw [hcall]
    exact Or.inl (HeadIdle.of_same (SameEmails.refl s) fun job h => by cases h)

/-- The top of an iteration gets to claim an email: the campaign is nobody's and live,
something is queued in it, and neither of the first two calls raises. -/
def Claims (campaignId : Nat) (db : OutreachDb) (fs : List (Option Exc)) : Prop :=
  ((db.getCampaign campaignId none false).any fun c =>
      c.status == .running || c.status == .completed) = true ∧
    db.hasQueuedEmail campaignId = true ∧ Quiet (fs.take 2)

/-- **The top of an iteration claims nothing, or one queued email.** -/
theorem loopHead_cases (settings : DispatchSettings) (c index : Nat) (now : Time) (s : Store)
    (fs : List (Option Exc)) :
    HeadIdle s (loopHead settings c index now s fs) ∨
      ∃ e, HeadClaim settings c now fs.tail e s (loopHead settings c index now s fs) ∧
        Claims c s.db fs := by
  unfold loopHead
  rw [bind_apply]
  rcases call_cases (fun s : Store => (s.db.getCampaign c none false, s)) s fs with
    ⟨hq1, hread⟩ | ⟨e, -, hread⟩
  · have hclaims : ∀ status, (s.db.getCampaign c none false).map Campaign.status = some status →
        (status = .running ∨ status = .completed) → s.db.hasQueuedEmail c = true →
        Quiet (fs.tail.take 1) → Claims c s.db fs := by
      intro status hst hlive hqueued hq2
      refine ⟨?_, hqueued, hq1.take_succ hq2⟩
      obtain ⟨campaign, hcampaign, rfl⟩ := Option.map_eq_some_iff.mp hst
      simpa [hcampaign] using hlive
    unfold query Prog.read
    rw [hread]
    dsimp only
    cases hst : (s.db.getCampaign c none false).map Campaign.status with
    | none => exact Or.inl (HeadIdle.of_same (SameEmails.refl s) fun _ h => nomatch h)
    | some status =>
        cases status with
        | running =>
            refine (claimAndChoose_cases settings c index now s fs.tail).imp_right ?_
            rintro ⟨e, hclaim, hqueued, hq2⟩
            exact ⟨e, hclaim, hclaims _ hst (Or.inl rfl) hqueued hq2⟩
        | completed =>
            refine (claimAndChoose_cases settings c index now s fs.tail).imp_right ?_
            rintro ⟨e, hclaim, hqueued, hq2⟩
            exact ⟨e, hclaim, hclaims _ hst (Or.inr rfl) hqueued hq2⟩
        | paused => exact Or.inl (HeadIdle.of_same (SameEmails.refl s) fun _ h => nomatch h)
        | cancelled =>
            refine Or.inl ?_
            show HeadIdle s ((DispatchM.cancelRemainingQueued c >>= fun _ => pure Head.stop) s fs.tail)
            rw [bind_apply]
            unfold DispatchM.cancelRemainingQueued update Prog.write
            rcases call_cases (fun s : Store => ((),
              (⟨(s.db.cancelRemainingQueued c).2, s.journal ++ []⟩ : Store))) s fs.tail with
              ⟨-, hcall⟩ | ⟨e, -, hcall⟩
            · rw [hcall]
              exact ⟨fun _ h => (nomatch h), List.append_nil _,
                s.db.emailStatus_cancelRemainingQueued c⟩
            · rw [hcall]
              exact HeadIdle.of_same (SameEmails.refl s) fun _ h => nomatch h
  · unfold query Prog.read
    rw [hread]
    exact Or.inl (HeadIdle.of_same (SameEmails.refl s) fun _ h => nomatch h)

end GovCrawler
