/-
The requests that steer a campaign while it is being dispatched: starting it,
changing its status, selecting or deselecting all of its emails
(`cloud/api/campaigns.py`), next to the requests of a single email.

What a dispatch task needs to know of any of them is that it leaves alone what is
being sent or has been sent: `Spares`.
-/
import GovCrawler.Outreach.Dispatch
import GovCrawler.Outreach.EmailRoutes

namespace GovCrawler

open Relational

/-- `CampaignStatus(value)`, `none` for the `ValueError`. -/
def CampaignStatus.ofValue : String → Option CampaignStatus
  | "RUNNING" => some .running
  | "PAUSED" => some .paused
  | "CANCELLED" => some .cancelled
  | "COMPLETED" => some .completed
  | _ => none

/-- Whether `get_campaign_stats` counts a selected draft or a queued email. -/
def OutreachDb.hasDispatchable (db : OutreachDb) (campaignId : Nat) : Bool :=
  (db.campaignEmails.first? fun e =>
    OutreachDb.hasStatus campaignId .draft e && e.isSelected).isSome
    || db.hasQueuedEmail campaignId

/-- What a refused dispatch says about the credentials. -/
def noCredentialsDetail (raw : List Credential) : String :=
  if raw.isEmpty then
    "No active SMTP credentials available for this campaign. Add or activate one in Settings."
  else
    "All SMTP credentials assigned to this campaign have hit their daily send limit, " ++
    "are cooling down, or are disabled. Try again later, or adjust the limit in Settings."

/-- `POST /api/campaigns/{campaign_id}/dispatch`, up to the task it starts. -/
def dispatchCampaign (settings : DispatchSettings) (db : OutreachDb) (user : CurrentUser)
    (campaignId : Nat) (now : Time) : Except HttpError OutreachDb := do
  let user ← require ["campaigns.dispatch"] user
  let campaign ← getOwnedCampaign db campaignId user
  if !db.hasDispatchable campaignId then
    .error ⟨400, "No selected draft or queued emails to dispatch. Select at least one email first."⟩
  else if campaign.status = .running then .error ⟨409, "Campaign is already running"⟩
  else
    match db.poolCandidates settings.keys (db.getCampaignCredentialIds campaignId) now,
        db.pool settings campaignId now with
    | .ok _, .ok (_ :: _) => .ok (db.updateCampaignStatus campaignId .running none).2
    | .ok raw, _ => .error ⟨400, noCredentialsDetail raw⟩
    | .error _, _ => .error ⟨500, "Internal Server Error"⟩

/-- `PATCH /api/campaigns/{campaign_id}`. -/
def patchCampaignStatus (db : OutreachDb) (user : CurrentUser) (campaignId : Nat)
    (status : String) : Except HttpError OutreachDb := do
  let user ← require ["campaigns.dispatch"] user
  let _ ← getOwnedCampaign db campaignId user
  match CampaignStatus.ofValue status with
  | none =>
      .error ⟨400, s!"Invalid status '{status}'. Must be one of: " ++
        "['RUNNING', 'PAUSED', 'CANCELLED', 'COMPLETED']"⟩
  | some newStatus => .ok (db.updateCampaignStatus campaignId newStatus none).2

/-- `PATCH /api/campaigns/{campaign_id}/emails/selection-all`. -/
def bulkToggleEmailSelection (db : OutreachDb) (user : CurrentUser) (campaignId : Nat)
    (req : EmailSelectionUpdate) : Except HttpError String × OutreachDb :=
  match openCampaign db user campaignId "Cannot modify emails in a cancelled campaign" with
  | .error e => (.error e, db)
  | .ok _ =>
      let r := db.setAllEmailSelection campaignId req.isSelected
      (.ok s!"Updated selection for {r.1} email(s)", r.2)

/-- `POST /api/campaigns/{campaign_id}/emails`.  `rendered` is what the template makes of the
leads that are neither blacklisted nor in the campaign yet, or the 404 where there is no
template or none of the leads. -/
def addEmailsToCampaign (db : OutreachDb) (user : CurrentUser) (campaignId : Nat)
    (leadIds : List Nat) (rendered : Except HttpError (List OutreachDb.StagedEmail)) :
    Except HttpError (Nat × OutreachDb) := do
  let user ← require ["campaigns.manage"] user
  let campaign ← getOwnedCampaign db campaignId user
  if campaign.kind = .test then .error ⟨400, "Cannot add leads to a test campaign"⟩
  else if campaign.status = .cancelled then
    .error ⟨400, "Cannot add emails to a cancelled campaign"⟩
  else if leadIds = [] then .error ⟨400, "lead_ids is empty"⟩
  else
    let emails ← rendered
    .ok (db.bulkCreateCampaignEmails campaignId emails)

/-! ### What they leave alone -/

/-- Emails being sent and emails sent keep their status. -/
def Spares (db db' : OutreachDb) : Prop :=
  ∀ k status, status = .sending ∨ status = .sent →
    db.emailStatus k = some status → db'.emailStatus k = some status

theorem Spares.refl (db : OutreachDb) : Spares db db := fun _ _ _ h => h

theorem Spares.trans {a b c : OutreachDb} (h : Spares a b) (h' : Spares b c) : Spares a c :=
  fun k status hs hk => h' k status hs (h k status hs hk)

/-- A move out of a status that is neither spares. -/
theorem Spares.of_move {db db' : OutreachDb} (old new : EmailStatus)
    (hold : old ≠ .sending ∧ old ≠ .sent)
    (h : ∀ k, db'.emailStatus k = db.emailStatus k ∨
      db.emailStatus k = some old ∧ db'.emailStatus k = some new) : Spares db db' := by
  intro k status hs hk
  rcases h k with heq | ⟨hwas, -⟩
  · rw [heq, hk]
  · rw [hk] at hwas
    obtain rfl := Option.some.inj hwas
    rcases hs with rfl | rfl
    · exact absurd rfl hold.1
    · exact absurd rfl hold.2

theorem spares_write (db : OutreachDb) (emailId : Nat) (req : EmailRequest) :
    Spares db (req.write db emailId) := by
  intro k status hs hk
  by_cases hne : k = emailId
  · subst hne
    rw [OutreachDb.emailStatus_eq] at hk ⊢
    obtain ⟨e, he, rfl⟩ := Option.map_eq_some_iff.mp hk
    cases req with
    | edit r =>
        have hrow := db.email?_updateEmail k r.subject r.body k
        rw [if_pos rfl, he] at hrow
        exact congrArg (Option.map CampaignEmail.status) hrow
    | select r =>
        have hrow := db.email?_setEmailSelection k r.isSelected k
        rw [if_pos rfl, he] at hrow
        refine (congrArg (Option.map CampaignEmail.status) hrow).trans ?_
        unfold OutreachDb.reselect
        rcases hs with hs | hs <;> simp [hs]
    | delete =>
        have hrow := db.email?_deleteCampaignEmail k k
        rw [he, Option.filter_some] at hrow
        refine (congrArg (Option.map CampaignEmail.status) hrow).trans ?_
        rcases hs with hs | hs <;> simp [hs]
  · rw [OutreachDb.emailStatus_eq, email?_write_of_ne hne]
    exact hk

/-- A request of a single email sends its one statement or none. -/
theorem serveEmailRequest_write (db : OutreachDb) (user : CurrentUser)
    (campaignId emailId : Nat) (req : EmailRequest) :
    (serveEmailRequest db user campaignId emailId req).2 = db ∨
      (serveEmailRequest db user campaignId emailId req).2 = req.write db emailId := by
  cases req with
  | edit r =>
      unfold serveEmailRequest updateCampaignEmail EmailRequest.write
      dsimp only
      cases openCampaign db user campaignId "Cannot edit emails in a cancelled campaign" with
      | error e => exact Or.inl rfl
      | ok c =>
          by_cases hb : (isBlank r.body || isBlank r.subject) = true
          · simp [hb]
          · simp only [hb, Bool.false_eq_true, if_false]
            generalize db.updateEmail emailId r.subject r.body = u
            obtain ⟨b, db'⟩ := u
            cases b <;> exact Or.inr rfl
  | select r =>
      unfold serveEmailRequest toggleEmailSelection EmailRequest.write
      dsimp only
      cases openCampaign db user campaignId "Cannot modify emails in a cancelled campaign" with
      | error e => exact Or.inl rfl
      | ok c =>
          dsimp only
          generalize db.setEmailSelection emailId r.isSelected = u
          obtain ⟨b, db'⟩ := u
          cases b <;> exact Or.inr rfl
  | delete =>
      unfold serveEmailRequest deleteCampaignEmail EmailRequest.write
      dsimp only
      cases openCampaign db user campaignId "Cannot modify emails in a cancelled campaign" with
      | error e => exact Or.inl rfl
      | ok c =>
          dsimp only
          generalize db.deleteCampaignEmail emailId = u
          obtain ⟨b, db'⟩ := u
          cases b <;> exact Or.inr rfl

theorem spares_serveEmailRequest (db : OutreachDb) (user : CurrentUser)
    (campaignId emailId : Nat) (req : EmailRequest) :
    Spares db (serveEmailRequest db user campaignId emailId req).2 := by
  rcases serveEmailRequest_write db user campaignId emailId req with h | h
  · rw [h]
    exact Spares.refl db
  · rw [h]
    exact spares_write db emailId req

theorem spares_setAllEmailSelection (db : OutreachDb) (c : Nat) (sel : Bool) :
    Spares db (db.setAllEmailSelection c sel).2 := by
  have hdraft : Spares db (db.updateEmails
      (fun e => e.campaignId == c && e.status == .draft) fun e => { e with isSelected := sel }) := by
    refine Spares.of_move .draft .draft (by decide) fun k => ?_
    rw [OutreachDb.emailStatus_updateEmails, OutreachDb.emailStatus_eq]
    refine Or.inl ?_
    congr 1
    funext e
    by_cases h : (e.campaignId == c && e.status == .draft) = true <;> simp [h]
  unfold OutreachDb.setAllEmailSelection
  by_cases hs : sel = true
  · simp only [hs, if_true]
    subst hs
    exact hdraft
  · have hf : sel = false := by simpa using hs
    subst hf
    simp only [Bool.false_eq_true, if_false]
    refine hdraft.trans (Spares.of_move .queued .draft (by decide) fun k => ?_)
    refine OutreachDb.emailStatus_updateEmails_of _ _ _ (by intro _; rfl) (fun e h => ?_)
      (by intro _ _; rfl) k
    simp only [Bool.and_eq_true, beq_iff_eq] at h
    exact h.2

theorem spares_bulkToggle (db : OutreachDb) (user : CurrentUser) (c : Nat)
    (req : EmailSelectionUpdate) : Spares db (bulkToggleEmailSelection db user c req).2 := by
  unfold bulkToggleEmailSelection
  cases openCampaign db user c "Cannot modify emails in a cancelled campaign" with
  | error e => exact Spares.refl db
  | ok campaign => exact spares_setAllEmailSelection db c req.isSelected

/-- No request of a single email touches the credentials. -/
theorem smtpCredentials_serveEmailRequest (db : OutreachDb) (user : CurrentUser)
    (campaignId emailId : Nat) (req : EmailRequest) :
    (serveEmailRequest db user campaignId emailId req).2.smtpCredentials = db.smtpCredentials := by
  rcases serveEmailRequest_write db user campaignId emailId req with h | h
  · rw [h]
  · rw [h]
    cases req with
    | edit r => rfl
    | delete => rfl
    | select r =>
        unfold EmailRequest.write OutreachDb.setEmailSelection
        dsimp only
        split
        · rfl
        · split <;> rfl

theorem smtpCredentials_bulkToggle (db : OutreachDb) (user : CurrentUser) (c : Nat)
    (req : EmailSelectionUpdate) :
    (bulkToggleEmailSelection db user c req).2.smtpCredentials = db.smtpCredentials := by
  unfold bulkToggleEmailSelection
  cases openCampaign db user c "Cannot modify emails in a cancelled campaign" with
  | error e => rfl
  | ok campaign =>
      dsimp only
      unfold OutreachDb.setAllEmailSelection
      split_ifs <;> rfl

/-- A dispatch that is accepted sets the campaign's status and nothing else. -/
theorem dispatchCampaign_eq_ok {settings : DispatchSettings} {db db' : OutreachDb}
    {user : CurrentUser} {c : Nat} {now : Time}
    (h : dispatchCampaign settings db user c now = .ok db') :
    db' = (db.updateCampaignStatus c .running none).2 := by
  unfold dispatchCampaign at h
  cases hr : require ["campaigns.dispatch"] user with
  | error e =>
      rw [hr] at h
      cases h
  | ok u =>
      rw [hr] at h
      cases hg : getOwnedCampaign db c u with
      | error e =>
          simp only [hg, bind, Except.bind] at h
          cases h
      | ok campaign =>
          simp only [hg, bind, Except.bind] at h
          split_ifs at h
          split at h
          · exact (Except.ok.inj h).symm
          · cases h
          · cases h

theorem patchCampaignStatus_eq_ok {db db' : OutreachDb} {user : CurrentUser} {c : Nat}
    {status : String} (h : patchCampaignStatus db user c status = .ok db') :
    ∃ newStatus, CampaignStatus.ofValue status = some newStatus ∧
      db' = (db.updateCampaignStatus c newStatus none).2 := by
  unfold patchCampaignStatus at h
  cases hr : require ["campaigns.dispatch"] user with
  | error e =>
      rw [hr] at h
      cases h
  | ok u =>
      rw [hr] at h
      cases hg : getOwnedCampaign db c u with
      | error e =>
          simp only [hg, bind, Except.bind] at h
          cases h
      | ok campaign =>
          simp only [hg, bind, Except.bind] at h
          split at h
          · cases h
          · next newStatus hvalue => exact ⟨newStatus, hvalue, (Except.ok.inj h).symm⟩

/-- New emails that are accepted are staged, and nothing else happens. -/
theorem addEmailsToCampaign_eq_ok {db : OutreachDb} {user : CurrentUser} {c : Nat}
    {leadIds : List Nat} {rendered : Except HttpError (List OutreachDb.StagedEmail)}
    {r : Nat × OutreachDb} (h : addEmailsToCampaign db user c leadIds rendered = .ok r) :
    ∃ emails, rendered = .ok emails ∧ r = db.bulkCreateCampaignEmails c emails := by
  unfold addEmailsToCampaign at h
  cases hr : require ["campaigns.manage"] user with
  | error e =>
      rw [hr] at h
      cases h
  | ok u =>
      rw [hr] at h
      cases hg : getOwnedCampaign db c u with
      | error e =>
          simp only [hg, bind, Except.bind] at h
          cases h
      | ok campaign =>
          simp only [hg, bind, Except.bind] at h
          split_ifs at h
          cases rendered with
          | error e => cases h
          | ok emails => exact ⟨emails, rfl, (Except.ok.inj h).symm⟩

end GovCrawler
