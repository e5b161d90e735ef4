/-
The statements the outreach code sends to the database, one definition for each
method of `cloud/db/mixins/outreach_mixin.py` that a campaign request or a
dispatch loop calls.

A method that returns something next to its write returns the pair of both.  The
wall clock a method reads is an argument.  What each of them does to the email of
a given id is said once here, by its `email?` lemma; everything above reads the
email table through `email?`.
-/
import GovCrawler.Outreach.Tables

namespace GovCrawler

open Relational

/-! ### Campaigns -/

namespace OutreachDb

/-- `get_campaign`.  Without `view_all` the row must have exactly this owner, and
`owner_id=None` asks for a campaign nobody owns. -/
def getCampaign (db : OutreachDb) (campaignId : Nat) (ownerId : Option Nat) (viewAll : Bool) :
    Option Campaign :=
  (db.campaigns.get? campaignId).filter fun c => viewAll || c.ownerId == ownerId

/-- With `view_all` the owner does not matter. -/
@[simp] theorem getCampaign_viewAll (db : OutreachDb) (k : Nat) (o : Option Nat) :
    db.getCampaign k o true = db.campaigns.get? k := by
  unfold getCampaign
  cases db.campaigns.get? k <;> rfl

/-- `update_campaign_status`: a change without a reason clears the stored one. -/
def updateCampaignStatus (db : OutreachDb) (campaignId : Nat) (newStatus : CampaignStatus)
    (reason : Option String) : Bool × OutreachDb :=
  ((db.campaigns.get? campaignId).isSome,
    { db with
      campaigns := db.campaigns.updateWhere (fun c => c.id == campaignId)
        (fun c => { c with status := newStatus, pauseReason := reason }) })

/-- `get_campaign_credential_ids`: the pool of a production campaign, the single
credential of a test one. -/
def getCampaignCredentialIds (db : OutreachDb) (campaignId : Nat) : List Nat :=
  match db.campaigns.get? campaignId with
  | none => []
  | some c =>
      match c.kind with
      | .test =>
          match c.testCredentialId with
          | none => []
          | some 0 => []
          | some k => [k]
      | .production =>
          (db.campaignCredentials.select fun r => r.campaignId == campaignId).map
            CampaignCredential.credentialId

/-! ### Emails -/

/-- The email of an id. -/
def email? (db : OutreachDb) (emailId : Nat) : Option CampaignEmail :=
  db.campaignEmails.get? emailId

theorem emailStatus_eq (db : OutreachDb) (k : Nat) :
    db.emailStatus k = (db.email? k).map CampaignEmail.status := rfl

/-- An `UPDATE campaign_emails`. -/
def updateEmails (db : OutreachDb) (p : CampaignEmail → Bool) (f : CampaignEmail → CampaignEmail)
    (hf : ∀ e, (f e).id = e.id := by intro _; rfl) : OutreachDb :=
  { db with campaignEmails := db.campaignEmails.updateWhere p f hf }

/-- A draft that `render_draft_emails` has rendered. -/
structure StagedEmail where
  leadId : Option Nat
  recipientEmail : String
  subject : String
  body : String
  isSelected : Bool
  missingFields : Option String
  deriving DecidableEq, Repr

/-- `bulk_create_campaign_emails`, with how many it inserts. -/
def bulkCreateCampaignEmails (db : OutreachDb) (campaignId : Nat) (emails : List StagedEmail) :
    Nat × OutreachDb :=
  (emails.length,
    { db with
      campaignEmails := emails.foldl (fun t e => t.insertNew fun id =>
        { id, campaignId, leadId := e.leadId, recipientEmail := e.recipientEmail,
          subject := e.subject, body := e.body, status := .draft, isSelected := e.isSelected,
          missingFields := e.missingFields }) db.campaignEmails })

/-- `update_email`. -/
def updateEmail (db : OutreachDb) (emailId : Nat) (newSubject newBody : String) :
    Bool × OutreachDb :=
  ((db.email? emailId).isSome,
    db.updateEmails (fun e => e.id == emailId)
      (fun e => { e with subject := newSubject, body := newBody }))

/-- `set_email_selection`: a deselected `QUEUED` email goes back to `DRAFT`. -/
def setEmailSelection (db : OutreachDb) (emailId : Nat) (isSelected : Bool) :
    Bool × OutreachDb :=
  match db.email? emailId with
  | none => (false, db)
  | some email =>
      match email.status with
      | .draft =>
          (true, db.updateEmails (fun e => e.id == emailId) fun e => { e with isSelected })
      | .queued =>
          (true, db.updateEmails (fun e => e.id == emailId) fun e =>
            { e with isSelected, status := if isSelected then e.status else .draft })
      | _ => (false, db)

/-- `set_all_email_selection`.  The second statement runs only when deselecting. -/
def setAllEmailSelection (db : OutreachDb) (campaignId : Nat) (isSelected : Bool) :
    Nat × OutreachDb :=
  let drafts := fun e : CampaignEmail => e.campaignId == campaignId && e.status == .draft
  let queued := fun e : CampaignEmail => e.campaignId == campaignId && e.status == .queued
  let db' := db.updateEmails drafts fun e => { e with isSelected }
  if isSelected then (db.campaignEmails.count drafts, db')
  else
    (db.campaignEmails.count drafts + db'.campaignEmails.count queued,
      db'.updateEmails queued fun e => { e with status := .draft, isSelected := false })

/-- `delete_campaign_email`: only a `DRAFT` row goes. -/
def deleteCampaignEmail (db : OutreachDb) (emailId : Nat) : Bool × OutreachDb :=
  let p := fun e : CampaignEmail => e.id == emailId && e.status == .draft
  (db.campaignEmails.count p > 0,
    { db with campaignEmails := db.campaignEmails.deleteWhere p })

/-! ### What the dispatcher does to emails -/

/-- `queue_campaign_emails`. -/
def queueCampaignEmails (db : OutreachDb) (campaignId : Nat) : Nat × OutreachDb :=
  let p := fun e : CampaignEmail =>
    e.campaignId == campaignId && e.status == .draft && e.isSelected
  (db.campaignEmails.count p, db.updateEmails p fun e => { e with status := .queued })

/-- The emails of a campaign that are in a status. -/
def hasStatus (campaignId : Nat) (status : EmailStatus) (e : CampaignEmail) : Bool :=
  e.campaignId == campaignId && e.status == status

/-- `has_remaining_drafts`. -/
def hasRemainingDrafts (db : OutreachDb) (campaignId : Nat) : Bool :=
  (db.campaignEmails.first? (hasStatus campaignId .draft)).isSome

/-- `has_queued_email`. -/
def hasQueuedEmail (db : OutreachDb) (campaignId : Nat) : Bool :=
  (db.campaignEmails.first? (hasStatus campaignId .queued)).isSome

/-- One round of the loop in `claim_next_queued_email`: select the oldest `QUEUED`
email, then flip it to `SENDING` if it still is `QUEUED`.  The second component
says whether the update matched a row. -/
def claimOnce (db : OutreachDb) (campaignId : Nat) (now : Time) :
    Option (Nat × Bool) × OutreachDb :=
  match db.campaignEmails.first? (hasStatus campaignId .queued) with
  | none => (none, db)
  | some e =>
      let p := fun r : CampaignEmail => r.id == e.id && r.status == .queued
      (some (e.id, db.campaignEmails.count p > 0),
        db.updateEmails p fun r => { r with status := .sending, sendingSince := some now })

/-- The rounds of `claim_next_queued_email`, as many as are left. -/
def claimRounds (campaignId : Nat) (now : Time) : Nat → OutreachDb → Option Nat × OutreachDb
  | 0, db => (none, db)
  | n + 1, db =>
      match db.claimOnce campaignId now with
      | (none, db') => (none, db')
      | (some (emailId, true), db') => (some emailId, db')
      | (some (_, false), db') => claimRounds campaignId now n db'

/-- `recover_stuck_sending`, with the ids it put back. -/
def recoverStuckSending (db : OutreachDb) (thresholdSeconds : Nat) (now : Time) :
    List Nat × OutreachDb :=
  let cutoff := now - seconds thresholdSeconds
  let stuck := fun e : CampaignEmail =>
    e.status == .sending && (e.sendingSince.any fun since => since < cutoff)
  ((db.campaignEmails.select stuck).map CampaignEmail.id,
    db.updateEmails stuck fun e => { e with status := .queued, sendingSince := none })

/-- `mark_email_sent`. -/
def markEmailSent (db : OutreachDb) (emailId : Nat) (credentialId : Option Nat) (now : Time) :
    OutreachDb :=
  db.updateEmails (fun e => e.id == emailId) fun e =>
    { e with status := .sent, sentAt := some now, credentialId }

/-- `mark_email_failed`. -/
def markEmailFailed (db : OutreachDb) (emailId : Nat) (errorMessage : String)
    (credentialId : Option Nat) : OutreachDb :=
  db.updateEmails (fun e => e.id == emailId) fun e =>
    { e with status := .failed, errorMessage := some errorMessage, credentialId }

/-- `requeue_email`. -/
def requeueEmail (db : OutreachDb) (emailId : Nat) : OutreachDb :=
  db.updateEmails (fun e => e.id == emailId) fun e =>
    { e with status := .queued, sendingSince := none }

/-- `cancel_remaining_queued`. -/
def cancelRemainingQueued (db : OutreachDb) (campaignId : Nat) : Nat × OutreachDb :=
  (db.campaignEmails.count (hasStatus campaignId .queued),
    db.updateEmails (hasStatus campaignId .queued) fun e =>
      { e with status := .failed, errorMessage := some "Campaign cancelled" })

/-! ### Credentials -/

/-- An `UPDATE smtp_credentials`. -/
def updateCredentialWhere (db : OutreachDb) (credentialId : Nat)
    (f : SMTPCredential → SMTPCredential) (hf : ∀ c, (f c).id = c.id := by intro _; rfl) :
    OutreachDb :=
  { db with
    smtpCredentials := db.smtpCredentials.updateWhere (fun c => c.id == credentialId) f hf }

/-- The credential of an id. -/
def credential? (db : OutreachDb) (credentialId : Nat) : Option SMTPCredential :=
  db.smtpCredentials.get? credentialId

/-- `disable_credential`. -/
def disableCredential (db : OutreachDb) (credentialId : Nat) : OutreachDb :=
  db.updateCredentialWhere credentialId fun c => { c with isActive := false }

/-- `set_credential_cooldown`. -/
def setCredentialCooldown (db : OutreachDb) (credentialId : Nat) (until_ : Time) : OutreachDb :=
  db.updateCredentialWhere credentialId fun c => { c with cooldownUntil := some until_ }

/-- `get_credential_sent_count_today`. -/
def getCredentialSentCountToday (db : OutreachDb) (credentialId : Nat) (now : Time) : Nat :=
  db.campaignEmails.count fun e =>
    e.credentialId == some credentialId && e.status == .sent
      && (e.sentAt.any fun t => todayStart now ≤ t)

/-! ### The blacklist -/

/-- `add_to_blacklist`.  The email column is unique: a second insert for it raises
`IntegrityError`, is rolled back and answers `False`. -/
def addToBlacklist (lower : String → String) (db : OutreachDb) (email domain : String)
    (reason : Option String) : Bool × OutreachDb :=
  if (db.blacklist.first? fun b => b.email == lower email).isSome then (false, db)
  else
    (true,
      { db with
        blacklist := db.blacklist.insertNew fun id =>
          { id, email := lower email, domain := lower domain, reason } })

/-! ### What each statement does to the email of an id -/

section Rows

variable (db : OutreachDb)

theorem email?_id {k : Nat} {e : CampaignEmail} (h : db.email? k = some e) : e.id = k :=
  Table.get?_key h

theorem email?_updateEmails (p : CampaignEmail → Bool) (f : CampaignEmail → CampaignEmail)
    (hf : ∀ e, (f e).id = e.id) (k : Nat) :
    (db.updateEmails p f hf).email? k = (db.email? k).map fun e => if p e then f e else e :=
  Table.get?_updateWhere _ p f hf k

/-- An update by primary key is an update of that row and of no other. -/
theorem email?_updateEmails_id (f : CampaignEmail → CampaignEmail)
    (hf : ∀ e, (f e).id = e.id) (i k : Nat) :
    (db.updateEmails (fun e => e.id == i) f hf).email? k =
      if k = i then (db.email? k).map f else db.email? k := by
  rw [email?_updateEmails]
  cases h : db.email? k with
  | none => simp
  | some e =>
      have hid := db.email?_id h
      by_cases hk : k = i
      · simp [hid, hk]
      · simp [hid, hk]

/-- An edit is of one row. -/
theorem email?_updateEmail (emailId : Nat) (subject body : String) (k : Nat) :
    (db.updateEmail emailId subject body).2.email? k =
      if k = emailId then (db.email? k).map fun e => { e with subject := subject, body := body }
      else db.email? k :=
  db.email?_updateEmails_id _ _ emailId k

theorem emailStatus_updateEmails_id (f : CampaignEmail → CampaignEmail)
    (hf : ∀ e, (f e).id = e.id) (i k : Nat) :
    (db.updateEmails (fun e => e.id == i) f hf).emailStatus k =
      if k = i then (db.email? k).map fun e => (f e).status else db.emailStatus k := by
  rw [emailStatus_eq, email?_updateEmails_id, emailStatus_eq]
  by_cases hk : k = i
  · simp [hk, Function.comp_def]
  · simp [hk]

theorem credential?_updateCredentialWhere (i : Nat) (f : SMTPCredential → SMTPCredential)
    (hf : ∀ c, (f c).id = c.id) (k : Nat) :
    (db.updateCredentialWhere i f hf).credential? k =
      if k = i then (db.credential? k).map f else db.credential? k := by
  by_cases hk : k = i
  · subst hk
    rw [if_pos rfl]
    exact Table.get?_updateWhere_self _ f hf k
  · rw [if_neg hk]
    exact Table.get?_updateWhere_of_ne _ f hf (Ne.symm hk)

theorem email?_deleteCampaignEmail (i k : Nat) :
    (db.deleteCampaignEmail i).2.email? k =
      (db.email? k).filter fun e => !(e.id == i && e.status == .draft) :=
  Table.get?_deleteWhere _ _ k

/-- What selecting or deselecting does to a row. -/
def reselect (isSelected : Bool) (e : CampaignEmail) : CampaignEmail :=
  match e.status with
  | .draft => { e with isSelected }
  | .queued => { e with isSelected, status := if isSelected then e.status else .draft }
  | _ => e

theorem email?_setEmailSelection (i : Nat) (sel : Bool) (k : Nat) :
    (db.setEmailSelection i sel).2.email? k =
      if k = i then (db.email? k).map (reselect sel) else db.email? k := by
  unfold setEmailSelection
  cases he : db.email? i with
  | none =>
      by_cases hk : k = i
      · simp [hk, he]
      · simp [hk]
  | some e =>
      have hdone : e.status ≠ .draft → e.status ≠ .queued →
          (if k = i then (db.email? k).map (reselect sel) else db.email? k) = db.email? k := by
        intro hd hq
        by_cases hk : k = i
        · subst hk
          rw [if_pos rfl, he, Option.map_some]
          unfold reselect
          cases hs : e.status <;> simp_all
        · rw [if_neg hk]
      cases hs : e.status with
      | draft =>
          simp only [hs]
          rw [email?_updateEmails_id]
          by_cases hk : k = i
          · subst hk
            simp [he, reselect, hs]
          · simp [hk]
      | queued =>
          simp only [hs]
          rw [email?_updateEmails_id]
          by_cases hk : k = i
          · subst hk
            simp [he, reselect, hs]
          · simp [hk]
      | sending =>
          simp only [hs]
          exact (hdone (by simp [hs]) (by simp [hs])).symm
      | sent =>
          simp only [hs]
          exact (hdone (by simp [hs]) (by simp [hs])).symm
      | failed =>
          simp only [hs]
          exact (hdone (by simp [hs]) (by simp [hs])).symm

theorem emailStatus_markEmailSent (i : Nat) (c : Option Nat) (now : Time) (k : Nat) :
    (db.markEmailSent i c now).emailStatus k =
      if k = i then (db.emailStatus k).map fun _ => .sent else db.emailStatus k := by
  rw [markEmailSent, emailStatus_updateEmails_id, emailStatus_eq, Option.map_map]
  rfl

theorem emailStatus_markEmailFailed (i : Nat) (m : String) (c : Option Nat) (k : Nat) :
    (db.markEmailFailed i m c).emailStatus k =
      if k = i then (db.emailStatus k).map fun _ => .failed else db.emailStatus k := by
  rw [markEmailFailed, emailStatus_updateEmails_id, emailStatus_eq, Option.map_map]
  rfl

theorem emailStatus_requeueEmail (i k : Nat) :
    (db.requeueEmail i).emailStatus k =
      if k = i then (db.emailStatus k).map fun _ => .queued else db.emailStatus k := by
  rw [requeueEmail, emailStatus_updateEmails_id, emailStatus_eq, Option.map_map]
  rfl

theorem emailStatus_updateEmails (p : CampaignEmail → Bool) (f : CampaignEmail → CampaignEmail)
    (hf : ∀ e, (f e).id = e.id) (k : Nat) :
    (db.updateEmails p f hf).emailStatus k =
      (db.email? k).map fun e => if p e then (f e).status else e.status := by
  rw [emailStatus_eq, email?_updateEmails, Option.map_map]
  cases db.email? k with
  | none => rfl
  | some e => by_cases h : p e = true <;> simp [h]

/-- An update that moves rows of one status only. -/
theorem emailStatus_updateEmails_of (p : CampaignEmail → Bool) (f : CampaignEmail → CampaignEmail)
    (hf : ∀ e, (f e).id = e.id) {old new : EmailStatus} (hp : ∀ e, p e = true → e.status = old)
    (hnew : ∀ e, p e = true → (f e).status = new) (k : Nat) :
    (db.updateEmails p f hf).emailStatus k = db.emailStatus k ∨
      db.emailStatus k = some old ∧ (db.updateEmails p f hf).emailStatus k = some new := by
  rw [emailStatus_updateEmails, emailStatus_eq]
  cases db.email? k with
  | none => exact Or.inl rfl
  | some e =>
      by_cases h : p e = true
      · exact Or.inr ⟨by simp [hp e h], by simp [h, hnew e h]⟩
      · exact Or.inl (by simp [h])

/-- What is inserted is a draft, and takes nobody's id. -/
theorem emailStatus_bulkCreateCampaignEmails (c : Nat) (emails : List StagedEmail) (k : Nat) :
    (db.bulkCreateCampaignEmails c emails).2.emailStatus k = db.emailStatus k ∨
      (db.bulkCreateCampaignEmails c emails).2.emailStatus k = some .draft := by
  unfold bulkCreateCampaignEmails emailStatus
  dsimp only
  generalize db.campaignEmails = t
  induction emails generalizing t with
  | nil => exact Or.inl rfl
  | cons e emails ih =>
      rw [List.foldl_cons]
      rcases ih (t.insertNew _ _) with h | h
      · rw [h, Table.get?_insertNew]
        by_cases hk : k = t.nextKey
        · rw [if_pos hk]
          exact Or.inr rfl
        · rw [if_neg hk]
          exact Or.inl rfl
      · exact Or.inr h

theorem hasStatus_status {c : Nat} {st : EmailStatus} {e : CampaignEmail}
    (h : hasStatus c st e = true) : e.status = st := by
  simp only [hasStatus, Bool.and_eq_true, beq_iff_eq] at h
  exact h.2

theorem emailStatus_cancelRemainingQueued (c k : Nat) :
    (db.cancelRemainingQueued c).2.emailStatus k = db.emailStatus k ∨
      db.emailStatus k = some .queued ∧
        (db.cancelRemainingQueued c).2.emailStatus k = some .failed := by
  unfold cancelRemainingQueued
  exact db.emailStatus_updateEmails_of (hasStatus c .queued) _ (by intro _; rfl)
    (fun _ => hasStatus_status) (by intro _ _; rfl) k

theorem emailStatus_queueCampaignEmails (c k : Nat) :
    (db.queueCampaignEmails c).2.emailStatus k = db.emailStatus k ∨
      db.emailStatus k = some .draft ∧
        (db.queueCampaignEmails c).2.emailStatus k = some .queued := by
  unfold queueCampaignEmails
  refine db.emailStatus_updateEmails_of _ _ (by intro _; rfl) (fun e h => ?_)
    (by intro _ _; rfl) k
  simp only [Bool.and_eq_true, beq_iff_eq] at h
  exact h.1.2

/-- What `claimOnce` takes is `QUEUED` in the campaign, and its update matches it. -/
theorem claimOnce_cases (c : Nat) (now : Time) :
    ((∀ e ∈ db.campaignEmails.rows, hasStatus c .queued e = false) ∧
        db.claimOnce c now = (none, db)) ∨
      ∃ e, db.email? e.id = some e ∧ hasStatus c .queued e = true ∧
        (db.claimOnce c now).1 = some (e.id, true) ∧
        ∀ k, (db.claimOnce c now).2.email? k =
          if k = e.id then some { e with status := .sending, sendingSince := some now }
          else db.email? k := by
  unfold claimOnce
  cases h : db.campaignEmails.first? (hasStatus c .queued) with
  | none => exact Or.inl ⟨Table.first?_eq_none_iff.mp h, rfl⟩
  | some e =>
      obtain ⟨hq, hget⟩ := Table.first?_spec h
      have hstatus : e.status = .queued := hasStatus_status hq
      have hmem : e ∈ db.campaignEmails.rows := Table.get?_mem hget
      refine Or.inr ⟨e, hget, hq, ?_, ?_⟩
      · have hin : e ∈ db.campaignEmails.rows.filter
            (fun r => r.id == e.id && r.status == .queued) :=
          List.mem_filter.mpr ⟨hmem, by simp [hstatus]⟩
        have hpos := List.length_pos_of_mem hin
        simp [Table.count, hpos]
      · intro k
        show (db.updateEmails _ _ _).email? k = _
        rw [email?_updateEmails]
        by_cases hk : k = e.id
        · subst hk
          have : db.email? e.id = some e := hget
          simp [this, hstatus]
        · rw [if_neg hk]
          cases hr : db.email? k with
          | none => rfl
          | some r =>
              have hid := db.email?_id hr
              have : r.id ≠ e.id := fun h => hk (hid.symm.trans h)
              simp [this]

/-- A claim does not change how many emails a credential has sent. -/
theorem sentCount_claimOnce (c : Nat) (now : Time) (credentialId : Nat) (today : Time) :
    (db.claimOnce c now).2.getCredentialSentCountToday credentialId today =
      db.getCredentialSentCountToday credentialId today := by
  unfold claimOnce
  cases db.campaignEmails.first? (hasStatus c .queued) with
  | none => rfl
  | some e =>
      refine Table.count_updateWhere _ _ _ (by intro _; rfl) _ (fun r hr => ?_) (by simp)
      simp only [Bool.and_eq_true, beq_iff_eq] at hr
      simp [hr.2]

/-- The first round of a claim decides it: the row it selected is still there. -/
theorem claimRounds_cases (c : Nat) (now : Time) (n : Nat) :
    ((∀ e ∈ db.campaignEmails.rows, hasStatus c .queued e = false) ∧
        claimRounds c now (n + 1) db = (none, db)) ∨
      ∃ e, db.email? e.id = some e ∧ hasStatus c .queued e = true ∧
        claimRounds c now (n + 1) db = (some e.id, (db.claimOnce c now).2) ∧
        ∀ k, (db.claimOnce c now).2.email? k =
          if k = e.id then some { e with status := .sending, sendingSince := some now }
          else db.email? k := by
  rcases claimOnce_cases db c now with ⟨hnone, h⟩ | ⟨e, hget, hq, h, hrows⟩
  · exact Or.inl ⟨hnone, by simp [claimRounds, h]⟩
  · refine Or.inr ⟨e, hget, hq, ?_, hrows⟩
    have hp : db.claimOnce c now = (some (e.id, true), (db.claimOnce c now).2) := by
      rw [← h]
    rw [claimRounds, hp]

end Rows

end OutreachDb

end GovCrawler
