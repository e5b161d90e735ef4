/-
What a credential's row keeps for authentication, and what a dispatch task does to it.

A task works with a copy of the credential: the dictionary it took from the table at
the top of the iteration.  None of its writes but the one that stores refreshed
tokens touches the provider, the password or the refresh token of a row, and no
handler but the one of a rejection disables.
-/
import GovCrawler.Outreach.SendOutcome

namespace GovCrawler

open Relational StoreProgram Prog DispatchM

/-! ### What a credential's row keeps secret -/

/-- What a row stores for authentication, in plain text. -/
structure Secrets where
  provider : String
  password : Option String
  refreshToken : Option String
  deriving DecidableEq, Repr

def SMTPCredential.secrets (c : SMTPCredential) : Secrets where
  provider := c.provider
  password := c.passwordEncrypted.map Encrypted.plain
  refreshToken := c.refreshTokenEncrypted.map Encrypted.plain

def OutreachDb.secrets (db : OutreachDb) (credentialId : Nat) : Option Secrets :=
  (db.credential? credentialId).map SMTPCredential.secrets

/-! ### A view of the rows that the handlers do not change -/

section View

variable {β : Type} (g : SMTPCredential → β)

/-- What the row of a credential shows of itself. -/
def OutreachDb.viewed (db : OutreachDb) (credentialId : Nat) : Option β :=
  (db.credential? credentialId).map g

theorem viewed_congr {db db' : OutreachDb} (h : db'.smtpCredentials = db.smtpCredentials)
    (k : Nat) : db'.viewed g k = db.viewed g k := by
  unfold OutreachDb.viewed OutreachDb.credential?
  rw [h]

theorem viewed_updateCredentialWhere (db : OutreachDb) (i : Nat)
    (f : SMTPCredential → SMTPCredential) (hf : ∀ c, (f c).id = c.id) (hg : ∀ c, g (f c) = g c)
    (k : Nat) : (db.updateCredentialWhere i f hf).viewed g k = db.viewed g k := by
  unfold OutreachDb.viewed
  rw [OutreachDb.credential?_updateCredentialWhere]
  by_cases hk : k = i
  · rw [if_pos hk, Option.map_map]
    congr 1
    funext c
    exact hg c
  · rw [if_neg hk]

theorem viewed_addToBlacklist (lower : String → String) (db : OutreachDb)
    (email domain : String) (reason : Option String) (k : Nat) :
    (db.addToBlacklist lower email domain reason).2.viewed g k = db.viewed g k := by
  unfold OutreachDb.addToBlacklist
  by_cases h : (db.blacklist.first? fun b => b.email == lower email).isSome
  · rw [if_pos h]
  · rw [if_neg h]
    rfl

/-- The view of every credential is as in `db`. -/
def SameView (db : OutreachDb) (s : Store) : Prop := ∀ k, s.db.viewed g k = db.viewed g k

theorem sameView_update {db : OutreachDb} {f : OutreachDb → OutreachDb} {notes : List Write}
    (hf : ∀ d k, (f d).viewed g k = d.viewed g k) : Preserves (SameView g db) (update f notes) :=
  preserves_write fun s h k => (hf s.db k).trans (h k)

variable (hactive : ∀ c, g { c with isActive := false } = g c)
  (hcooldown : ∀ c u, g { c with cooldownUntil := some u } = g c)

include hactive hcooldown

theorem Handler.sameView {settings : DispatchSettings} {job : Job} {rejects : Bool}
    {status : Option EmailStatus} {m : DispatchM Unit} (h : Handler settings job rejects status m)
    (db : OutreachDb) : Preserves (SameView g db) m := by
  have hback : Preserves (SameView g db) (DispatchM.requeueEmail job.email.id) :=
    sameView_update g fun _ _ => rfl
  have hfail : ∀ message, Preserves (SameView g db)
      (DispatchM.markEmailFailed job.email.id message job.cred.id) :=
    fun _ => sameView_update g fun _ _ => rfl
  cases h with
  | disables =>
      refine preserves_bind (sameView_update g fun d k => ?_) fun _ => hback
      exact viewed_updateCredentialWhere g d _ _ _ hactive k
  | coolsDown until_ =>
      refine preserves_bind (sameView_update g fun d k => ?_) fun _ => hback
      exact viewed_updateCredentialWhere g d _ _ _ (fun c => hcooldown c until_) k
  | bounces reason =>
      exact preserves_bind (sameView_update g fun d k => viewed_addToBlacklist g _ d _ _ _ k)
        fun _ => hfail _
  | fails message => exact hfail message
  | raises e => exact preserves_raise e

theorem viewed_trySend (settings : DispatchSettings) (job : Job) (now : Time)
    (sent : Except Exc Unit) (db : OutreachDb) (k : Nat) :
    (trySend settings job now sent ⟨db, []⟩ []).2.1.db.viewed g k = db.viewed g k := by
  have h : Preserves (SameView g db) (trySend settings job now sent) := by
    refine preserves_tryExcept ?_ fun e =>
      (handler_handleException settings job now e).sameView g hactive hcooldown db
    exact preserves_bind (preserves_ofExcept _) fun _ => sameView_update g fun _ _ => rfl
  exact h ⟨db, []⟩ [] (fun _ => rfl) k

end View

/-! ### The secrets -/

theorem secrets_congr {db db' : OutreachDb} (h : db'.smtpCredentials = db.smtpCredentials)
    (k : Nat) : db'.secrets k = db.secrets k :=
  viewed_congr SMTPCredential.secrets h k

/-- The new tokens of one credential; every other row stays. -/
theorem secrets_updateCredentialTokens (keys : EncKeys) (db : OutreachDb) (i : Nat)
    (access fresh : String) (expires : Option Time) (k : Nat) :
    (db.updateCredentialTokens keys i access fresh expires).secrets k =
      if k = i then (db.secrets k).map fun s => { s with refreshToken := some fresh }
      else db.secrets k := by
  unfold OutreachDb.updateCredentialTokens OutreachDb.secrets
  rw [OutreachDb.credential?_updateCredentialWhere]
  by_cases hk : k = i
  · rw [if_pos hk, if_pos hk, Option.map_map, Option.map_map]
    rfl
  · rw [if_neg hk, if_neg hk]

/-! ### What the segments do to credentials -/

theorem secrets_trySend (settings : DispatchSettings) (job : Job) (now : Time)
    (sent : Except Exc Unit) (db : OutreachDb) (k : Nat) :
    (trySend settings job now sent ⟨db, []⟩ []).2.1.db.secrets k = db.secrets k :=
  viewed_trySend SMTPCredential.secrets (fun _ => rfl) (fun _ _ => rfl) settings job now sent db k

/-- Only the handler of a rejection disables, and only the credential of the send. -/
theorem Handler.disable {settings : DispatchSettings} {job : Job} {rejects : Bool}
    {status : Option EmailStatus} {m : DispatchM Unit} (h : Handler settings job rejects status m)
    {db : OutreachDb} {c : Nat} (hmem : Write.disable c ∈ (m ⟨db, []⟩ []).2.1.journal) :
    c = job.cred.id ∧ rejects = true := by
  cases h with
  | disables =>
      simp [bind_apply, DispatchM.disableCredential, DispatchM.requeueEmail] at hmem
      exact ⟨hmem, rfl⟩
  | coolsDown until_ => simp [coolDown_run] at hmem
  | bounces reason =>
      simp [hardBounce, bind_apply, DispatchM.addToBlacklist, DispatchM.markEmailFailed] at hmem
  | fails message => simp [DispatchM.markEmailFailed] at hmem
  | raises e => simp at hmem

theorem disable_of_trySend {settings : DispatchSettings} {job : Job} {now : Time}
    {sent : Except Exc Unit} {db : OutreachDb} {c : Nat}
    (h : Write.disable c ∈ (trySend settings job now sent ⟨db, []⟩ []).2.1.journal) :
    c = job.cred.id ∧ ∃ e, sent = .error e ∧ Rejects e := by
  cases sent with
  | ok x =>
      rw [trySend_ok] at h
      simp at h
  | error e =>
      rw [trySend_error] at h
      obtain ⟨hc, hrejects⟩ := (handler_handleException settings job now e).disable h
      exact ⟨hc, e, rfl, of_decide_eq_true hrejects⟩

/-- The credential table is the one of `db`. -/
def SameCredentials (db : OutreachDb) (s : Store) : Prop :=
  s.db.smtpCredentials = db.smtpCredentials

section Segments

variable (settings : DispatchSettings) (db : OutreachDb) (c : Nat) (now : Time)

theorem sameCredentials_updateCampaignStatus (status : CampaignStatus) (reason : Option String) :
    Preserves (SameCredentials db) (updateCampaignStatus c status reason) :=
  preserves_write fun _ h => h

theorem sameCredentials_prologue :
    Preserves (SameCredentials db) (dispatchPrologue settings c now) :=
  preserves_bind (preserves_call fun _ h => h) fun queuedCount =>
    preserves_afterQueueing (sameCredentials_updateCampaignStatus db c) settings now queuedCount

theorem smtpCredentials_claimRounds (n : Nat) :
    ∀ db : OutreachDb, (OutreachDb.claimRounds c now n db).2.smtpCredentials =
      db.smtpCredentials := by
  induction n with
  | zero => exact fun _ => rfl
  | succ n ih =>
      intro db
      have honce : (db.claimOnce c now).2.smtpCredentials = db.smtpCredentials := by
        unfold OutreachDb.claimOnce
        cases db.campaignEmails.first? (OutreachDb.hasStatus c .queued) <;> rfl
      rw [OutreachDb.claimRounds]
      split
      · next h => rw [h] at honce; exact honce
      · next h => rw [h] at honce; exact honce
      · next h => rw [h] at honce; exact (ih _).trans honce

theorem sameCredentials_claim :
    Preserves (SameCredentials db) (claimNextQueuedEmail c now) := by
  refine preserves_bind (preserves_call fun s h => ?_) fun claimed => ?_
  · have hrounds := smtpCredentials_claimRounds c now 5 s.db
    split
    · next heq => rw [heq] at hrounds; exact hrounds.trans h
    · next heq => rw [heq] at hrounds; exact hrounds.trans h
  · cases claimed with
    | none => exact preserves_pure _
    | some emailId =>
        refine preserves_bind ?_ fun _ => preserves_pure _
        refine preserves_bind (preserves_read _) fun row => ?_
        cases row with
        | none => exact preserves_raise _
        | some e => exact preserves_pure _

theorem steady_claim : Steady (claimNextQueuedEmail c now) := by
  refine steady_bind (steady_call _) fun claimed => ?_
  cases claimed with
  | none => exact steady_pure _
  | some emailId =>
      refine steady_bind (steady_bind (steady_read _) fun row => ?_) fun _ => steady_pure _
      cases row with
      | none => exact steady_raise _
      | some e => exact steady_pure _

theorem sameCredentials_chooseCredential (index : Nat) (email : ClaimedEmail) :
    Preserves (SameCredentials db) (chooseCredential settings c index now email) :=
  preserves_chooseCredential (sameCredentials_updateCampaignStatus db c) settings index now email

theorem sameCredentials_loopHead (index : Nat) :
    Preserves (SameCredentials db) (loopHead settings c index now) := by
  have hclaim : Preserves (SameCredentials db) (claimAndChoose settings c index now) := by
    refine preserves_bind (sameCredentials_claim db c now) fun email => ?_
    cases email with
    | none => exact preserves_finishCampaign (sameCredentials_updateCampaignStatus db c)
    | some email => exact sameCredentials_chooseCredential settings db c now index email
  refine preserves_bind (preserves_read _) fun campaign => ?_
  cases campaign.map Campaign.status with
  | none => exact preserves_pure _
  | some status =>
      cases status with
      | running => exact hclaim
      | completed => exact hclaim
      | paused => exact preserves_pure _
      | cancelled => exact preserves_bind (preserves_write fun _ h => h) fun _ => preserves_pure _

/-- The copy a task sends with was taken from a row of this database. -/
def CopiedFrom (db : OutreachDb) (d : Credential) : Prop :=
  ∃ s, db.secrets d.id = some s ∧ s.provider = d.provider ∧ s.password = d.password

theorem CopiedFrom.congr {db db' : OutreachDb} (h : ∀ k, db'.secrets k = db.secrets k)
    {d : Credential} (hd : CopiedFrom db d) : CopiedFrom db' d := by
  obtain ⟨s, hs, hprovider, hpassword⟩ := hd
  exact ⟨s, (h d.id).trans hs, hprovider, hpassword⟩

theorem copiedFrom_of_pool {creds : List Credential} (h : db.pool settings c now = .ok creds)
    {d : Credential} (hd : d ∈ creds) : CopiedFrom db d := by
  unfold OutreachDb.pool at h
  cases hp : db.poolCandidates settings.keys (db.getCampaignCredentialIds c) now with
  | error e =>
      rw [hp] at h
      cases h
  | ok all =>
      rw [hp] at h
      obtain rfl := Except.ok.inj h
      obtain ⟨row, hrow, -, hdict⟩ := OutreachDb.mem_poolCandidates hp (List.mem_filter.mp hd).1
      have hrow' : db.credential? row.id = some row := hrow
      rw [credentialSendDict_eq_ok hdict]
      exact ⟨row.secrets, by rw [OutreachDb.secrets, hrow']; rfl, rfl, rfl⟩

/-- The round robin has come to the credential of the job. -/
def Chosen (db : OutreachDb) (index : Nat) (job : Job) : Prop :=
  ∃ creds, db.pool settings c now = .ok creds ∧
    getNextCredential creds index = some (job.cred, job.nextIndex)

theorem chooseCredential_chosen (index : Nat) (email : ClaimedEmail) (s : Store) {job : Job}
    (h : (chooseCredential settings c index now email s []).1 = .ok (.send job)) :
    Chosen settings c now s.db index job := by
  rw [chooseCredential, bind_apply, resolveCredentialPool_run] at h
  cases hp : s.db.pool settings c now with
  | error e =>
      rw [hp] at h
      cases h
  | ok creds =>
      rw [hp] at h
      dsimp only at h
      cases hn : getNextCredential creds index with
      | none =>
          rw [hn] at h
          cases h
      | some p =>
          rw [hn] at h
          obtain rfl : Job.mk email p.1 p.2 = job := by
            injection h with h
            injection h
          exact ⟨creds, hp, hn⟩

/-- The claim leaves the pool as it is. -/
theorem pool_claimNextQueuedEmail (s : Store) :
    (claimNextQueuedEmail c now s []).2.1.db.pool settings c now = s.db.pool settings c now := by
  have hrounds := pool_claimRounds settings s.db c now 4
  unfold claimNextQueuedEmail claimRow readClaimed
  rw [bind_apply, call_quiet quiet_nil]
  cases hclaim : OutreachDb.claimRounds c now 5 s.db with
  | mk claimed db =>
      rw [hclaim] at hrounds
      cases claimed with
      | none => exact hrounds
      | some emailId =>
          dsimp only [List.tail_nil]
          rw [bind_apply, bind_apply, query_run]
          dsimp only
          cases db.email? emailId with
          | none => exact hrounds
          | some e => exact hrounds

/-- What the top of an iteration sends with is what the round robin has come to in the pool. -/
theorem loopHead_chosen (index : Nat) (s : Store) {job : Job}
    (h : (loopHead settings c index now s []).1 = .ok (.send job)) :
    Chosen settings c now s.db index job := by
  have hclaim : (claimAndChoose settings c index now s []).1 = .ok (.send job) →
      Chosen settings c now s.db index job := by
    intro h
    rw [claimAndChoose, bind_apply] at h
    have hpool := pool_claimNextQueuedEmail settings c now s
    have hnil : (claimNextQueuedEmail c now s []).2.2 = [] := (steady_claim c now s [] quiet_nil).1
    generalize claimNextQueuedEmail c now s [] = r at h hpool hnil
    obtain ⟨v, s', fs⟩ := r
    obtain rfl : fs = [] := hnil
    cases v with
    | error e => cases h
    | ok email =>
        cases email with
        | none => exact absurd h ((finishCampaign_idle c s' []).stops job)
        | some email =>
            obtain ⟨creds, hp, hn⟩ := chooseCredential_chosen settings c now index email s' h
            exact ⟨creds, hpool.symm.trans hp, hn⟩
  rw [loopHead, bind_apply, query_run] at h
  dsimp only at h
  cases hst : (s.db.getCampaign c none false).map Campaign.status with
  | none =>
      rw [hst] at h
      cases h
  | some status =>
      rw [hst] at h
      cases status with
      | running => exact hclaim h
      | completed => exact hclaim h
      | paused => cases h
      | cancelled => cases h

/-- It is a copy of a row of the table as it is now. -/
theorem loopHead_copied (index : Nat) (s : Store) {job : Job}
    (h : (loopHead settings c index now s []).1 = .ok (.send job)) :
    CopiedFrom s.db job.cred := by
  obtain ⟨creds, hp, hn⟩ := loopHead_chosen settings c now index s h
  exact copiedFrom_of_pool settings s.db c now hp (mem_of_getNextCredential hn)

end Segments

end GovCrawler
