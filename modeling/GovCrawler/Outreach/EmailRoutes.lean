/-
The three requests that change one staged email: edit its text, select or
deselect it, delete it (`cloud/api/campaigns.py`).

The URL names a campaign and an email.  Every route checks the campaign — it
exists, the caller owns it, it is not cancelled — and then hands the email's id
alone to the database.  Nothing relates the two, so the check says something
about the email only when the email happens to belong to that campaign.

`isolated_iff` says exactly which requests leave alone the emails of everybody
else's and of cancelled campaigns, and `foreign_email_edited` is one that does not.
-/
import GovCrawler.Deps
import GovCrawler.Outreach.Mixin

namespace GovCrawler

open Relational

structure CampaignEmailUpdate where
  subject : String
  body : String
  deriving DecidableEq, Repr

structure EmailSelectionUpdate where
  isSelected : Bool
  deriving DecidableEq, Repr

/-- `_get_owned_campaign`. -/
def getOwnedCampaign (db : OutreachDb) (campaignId : Nat) (user : CurrentUser) :
    Except HttpError Campaign :=
  match db.getCampaign campaignId none true with
  | none => .error ⟨404, "Campaign not found"⟩
  | some campaign =>
      match forbidUnlessOwner campaign.ownerId user with
      | .error e => .error e
      | .ok _ => .ok campaign

/-- What the three routes do before they touch the email: the permission, the
campaign of the URL, and that it is not cancelled. -/
def openCampaign (db : OutreachDb) (user : CurrentUser) (campaignId : Nat)
    (cancelledDetail : String) : Except HttpError Campaign :=
  match require ["campaigns.manage"] user with
  | .error e => .error e
  | .ok user =>
      match getOwnedCampaign db campaignId user with
      | .error e => .error e
      | .ok campaign =>
          if campaign.status = .cancelled then .error ⟨400, cancelledDetail⟩ else .ok campaign

/-- `PUT /api/campaigns/{campaign_id}/emails/{email_id}`. -/
def updateCampaignEmail (db : OutreachDb) (user : CurrentUser) (campaignId emailId : Nat)
    (req : CampaignEmailUpdate) : Except HttpError String × OutreachDb :=
  match openCampaign db user campaignId "Cannot edit emails in a cancelled campaign" with
  | .error e => (.error e, db)
  | .ok _ =>
      if isBlank req.body || isBlank req.subject then
        (.error ⟨400, "Subject and Body cannot be empty"⟩, db)
      else
        match db.updateEmail emailId req.subject req.body with
        | (false, db') => (.error ⟨404, "Email not found or not in DRAFT status"⟩, db')
        | (true, db') => (.ok "Email body updated", db')

/-- `PATCH /api/campaigns/{campaign_id}/emails/{email_id}/selection`. -/
def toggleEmailSelection (db : OutreachDb) (user : CurrentUser) (campaignId emailId : Nat)
    (req : EmailSelectionUpdate) : Except HttpError String × OutreachDb :=
  match openCampaign db user campaignId "Cannot modify emails in a cancelled campaign" with
  | .error e => (.error e, db)
  | .ok _ =>
      match db.setEmailSelection emailId req.isSelected with
      | (false, db') => (.error ⟨404, "Email not found or not in an editable status"⟩, db')
      | (true, db') => (.ok "Selection updated", db')

/-- `DELETE /api/campaigns/{campaign_id}/emails/{email_id}`. -/
def deleteCampaignEmail (db : OutreachDb) (user : CurrentUser) (campaignId emailId : Nat) :
    Except HttpError String × OutreachDb :=
  match openCampaign db user campaignId "Cannot modify emails in a cancelled campaign" with
  | .error e => (.error e, db)
  | .ok _ =>
      match db.deleteCampaignEmail emailId with
      | (false, db') => (.error ⟨404, "Email not found or not in DRAFT status"⟩, db')
      | (true, db') => (.ok "Email removed from campaign", db')

inductive EmailRequest
  | edit (req : CampaignEmailUpdate)
  | select (req : EmailSelectionUpdate)
  | delete
  deriving DecidableEq, Repr

/-- Serve one of the three. -/
def serveEmailRequest (db : OutreachDb) (user : CurrentUser) (campaignId emailId : Nat) :
    EmailRequest → Except HttpError String × OutreachDb
  | .edit req => updateCampaignEmail db user campaignId emailId req
  | .select req => toggleEmailSelection db user campaignId emailId req
  | .delete => deleteCampaignEmail db user campaignId emailId

/-! ### Isolation -/

/-- A row that is none of the user's business: its campaign is somebody else's, or
is cancelled. -/
def OffLimits (db : OutreachDb) (user : CurrentUser) (e : CampaignEmail) : Prop :=
  ∃ c, db.campaigns.get? e.campaignId = some c ∧
    (c.ownerId ≠ some user.id ∨ c.status = .cancelled)

/-- Every off-limits row of `db` is still there, unchanged. -/
def Isolated (db : OutreachDb) (user : CurrentUser) (db' : OutreachDb) : Prop :=
  ∀ k e, db.email? k = some e → OffLimits db user e → db'.email? k = some e

/-- The campaign of the URL is one this user, not being an admin, may change. -/
def Opens (db : OutreachDb) (user : CurrentUser) (campaignId : Nat) : Prop :=
  "campaigns.manage" ∈ user.permissions ∧
    ∃ c, db.campaigns.get? campaignId = some c ∧ c.ownerId = some user.id ∧
      c.status ≠ .cancelled

/-- The request gets past the checks of its route. -/
def Admitted (db : OutreachDb) (user : CurrentUser) (campaignId : Nat) : EmailRequest → Prop
  | .edit req =>
      Opens db user campaignId ∧ isBlank req.body = false ∧ isBlank req.subject = false
  | .select _ => Opens db user campaignId
  | .delete => Opens db user campaignId

/-- What the request writes into the row is what the row already has. -/
def WritesNothing (e : CampaignEmail) : EmailRequest → Prop
  | .edit req => e.subject = req.subject ∧ e.body = req.body
  | .select req =>
      match e.status with
      | .draft => e.isSelected = req.isSelected
      | .queued => e.isSelected = req.isSelected ∧ req.isSelected = true
      | _ => True
  | .delete => e.status ≠ .draft

/-- The request is refused by its checks, or the email it names is one the user may
change, or it changes nothing. -/
def SafeRequest (db : OutreachDb) (user : CurrentUser) (campaignId emailId : Nat)
    (req : EmailRequest) : Prop :=
  Admitted db user campaignId req →
    ∀ e, db.email? emailId = some e → OffLimits db user e → WritesNothing e req

/-! ### The checks -/

theorem getOwnedCampaign_eq_ok_iff {db : OutreachDb} {user : CurrentUser}
    (huser : user.isAdmin = false) {campaignId : Nat} {c : Campaign} :
    getOwnedCampaign db campaignId user = .ok c ↔
      db.campaigns.get? campaignId = some c ∧ c.ownerId = some user.id := by
  unfold getOwnedCampaign
  rw [OutreachDb.getCampaign_viewAll]
  cases hc : db.campaigns.get? campaignId with
  | none => simp
  | some c' =>
      by_cases hown : c'.ownerId = some user.id
      · have hf : forbidUnlessOwner c'.ownerId user = .ok () :=
          forbidUnlessOwner_eq_ok_iff.mpr (Or.inl hown)
        simp only [hf, Except.ok.injEq, Option.some.injEq]
        constructor
        · rintro rfl
          exact ⟨rfl, hown⟩
        · exact fun h => h.1
      · have hf : forbidUnlessOwner c'.ownerId user = .error insufficientPermissions := by
          simp [forbidUnlessOwner, hown, huser]
        simp only [hf, Option.some.injEq]
        constructor
        · intro h
          cases h
        · rintro ⟨rfl, h⟩
          exact absurd h hown

theorem openCampaign_eq_ok_iff {db : OutreachDb} {user : CurrentUser}
    (huser : user.isAdmin = false) {campaignId : Nat} {detail : String} {c : Campaign} :
    openCampaign db user campaignId detail = .ok c ↔
      "campaigns.manage" ∈ user.permissions ∧
        db.campaigns.get? campaignId = some c ∧ c.ownerId = some user.id ∧
          c.status ≠ .cancelled := by
  have hperm : user.hasAll ["campaigns.manage"] = true ↔ "campaigns.manage" ∈ user.permissions := by
    simp [CurrentUser.hasAll, huser]
  unfold openCampaign
  by_cases hp : "campaigns.manage" ∈ user.permissions
  · rw [require_eq_ok_iff.mpr ⟨hperm.mpr hp, rfl⟩]
    dsimp only
    cases hg : getOwnedCampaign db campaignId user with
    | error e =>
        constructor
        · intro h
          cases h
        · rintro ⟨-, hc, hown, -⟩
          rw [(getOwnedCampaign_eq_ok_iff huser).mpr ⟨hc, hown⟩] at hg
          cases hg
    | ok c' =>
        obtain ⟨hc, hown⟩ := (getOwnedCampaign_eq_ok_iff huser).mp hg
        show (if c'.status = .cancelled then _ else _) = _ ↔ _
        rw [hc]
        by_cases hs : c'.status = .cancelled
        · rw [if_pos hs]
          constructor
          · intro h
            cases h
          · rintro ⟨-, hc', -, hlive⟩
            obtain rfl := Option.some.inj hc'
            exact absurd hs hlive
        · rw [if_neg hs]
          constructor
          · intro h
            obtain rfl := Except.ok.inj h
            exact ⟨hp, rfl, hown, hs⟩
          · rintro ⟨-, hc', -, -⟩
            obtain rfl := Option.some.inj hc'
            rfl
  · have hr : require ["campaigns.manage"] user = .error insufficientPermissions := by
      unfold require
      rw [if_neg (mt hperm.mp hp)]
    rw [hr]
    constructor
    · intro h
      cases h
    · exact fun h => absurd h.1 hp

/-- A campaign that does not open answers an error, and the route ends there. -/
theorem openCampaign_error_of_not {db : OutreachDb} {user : CurrentUser}
    (huser : user.isAdmin = false) {campaignId : Nat} (detail : String)
    (h : ¬ Opens db user campaignId) : ∃ e, openCampaign db user campaignId detail = .error e := by
  cases ho : openCampaign db user campaignId detail with
  | error e => exact ⟨e, rfl⟩
  | ok c =>
      obtain ⟨hp, hc, hown, hs⟩ := (openCampaign_eq_ok_iff huser).mp ho
      exact absurd ⟨hp, c, hc, hown, hs⟩ h

theorem openCampaign_ok_of {db : OutreachDb} {user : CurrentUser} (huser : user.isAdmin = false)
    {campaignId : Nat} (detail : String) (h : Opens db user campaignId) :
    ∃ c, openCampaign db user campaignId detail = .ok c := by
  obtain ⟨hp, c, hc, hown, hs⟩ := h
  exact ⟨c, (openCampaign_eq_ok_iff huser).mpr ⟨hp, hc, hown, hs⟩⟩

/-! ### What a request does to the table -/

/-- The statement the request's route sends once it is admitted. -/
def EmailRequest.write (db : OutreachDb) (emailId : Nat) : EmailRequest → OutreachDb
  | .edit req => (db.updateEmail emailId req.subject req.body).2
  | .select req => (db.setEmailSelection emailId req.isSelected).2
  | .delete => (db.deleteCampaignEmail emailId).2

section Serve

variable {db : OutreachDb} {user : CurrentUser} {campaignId emailId : Nat} {req : EmailRequest}

theorem serve_of_not_admitted (huser : user.isAdmin = false)
    (h : ¬ Admitted db user campaignId req) :
    (serveEmailRequest db user campaignId emailId req).2 = db := by
  cases req with
  | edit r =>
      unfold serveEmailRequest updateCampaignEmail
      by_cases ho : Opens db user campaignId
      · obtain ⟨c, hc⟩ :=
          openCampaign_ok_of huser "Cannot edit emails in a cancelled campaign" ho
        have hblank : (isBlank r.body || isBlank r.subject) = true := by
          by_contra hb
          simp only [Bool.not_eq_true, Bool.or_eq_false_iff] at hb
          exact h ⟨ho, hb.1, hb.2⟩
        simp [hc, hblank]
      · obtain ⟨e, he⟩ :=
          openCampaign_error_of_not huser "Cannot edit emails in a cancelled campaign" ho
        simp [he]
  | select r =>
      unfold serveEmailRequest toggleEmailSelection
      obtain ⟨e, he⟩ :=
        openCampaign_error_of_not huser "Cannot modify emails in a cancelled campaign" h
      simp [he]
  | delete =>
      unfold serveEmailRequest deleteCampaignEmail
      obtain ⟨e, he⟩ :=
        openCampaign_error_of_not huser "Cannot modify emails in a cancelled campaign" h
      simp [he]

theorem serve_of_admitted (huser : user.isAdmin = false) (h : Admitted db user campaignId req) :
    (serveEmailRequest db user campaignId emailId req).2 = req.write db emailId := by
  cases req with
  | edit r =>
      obtain ⟨ho, hb, hs⟩ := h
      obtain ⟨c, hc⟩ :=
        openCampaign_ok_of huser "Cannot edit emails in a cancelled campaign" ho
      unfold serveEmailRequest updateCampaignEmail EmailRequest.write
      simp only [hc, hb, hs, Bool.or_self, Bool.false_eq_true, if_false]
      generalize db.updateEmail emailId r.subject r.body = u
      obtain ⟨b, db'⟩ := u
      cases b <;> rfl
  | select r =>
      obtain ⟨c, hc⟩ :=
        openCampaign_ok_of huser "Cannot modify emails in a cancelled campaign" h
      unfold serveEmailRequest toggleEmailSelection EmailRequest.write
      simp only [hc]
      generalize db.setEmailSelection emailId r.isSelected = u
      obtain ⟨b, db'⟩ := u
      cases b <;> rfl
  | delete =>
      obtain ⟨c, hc⟩ :=
        openCampaign_ok_of huser "Cannot modify emails in a cancelled campaign" h
      unfold serveEmailRequest deleteCampaignEmail EmailRequest.write
      simp only [hc]
      generalize db.deleteCampaignEmail emailId = u
      obtain ⟨b, db'⟩ := u
      cases b <;> rfl

/-- The statement is keyed by the email's id: every other row stays. -/
theorem email?_write_of_ne {k : Nat} (h : k ≠ emailId) :
    (req.write db emailId).email? k = db.email? k := by
  cases req with
  | edit r => exact (db.email?_updateEmail emailId _ _ k).trans (if_neg h)
  | select r => exact (db.email?_setEmailSelection emailId r.isSelected k).trans (if_neg h)
  | delete =>
      unfold EmailRequest.write
      rw [OutreachDb.email?_deleteCampaignEmail]
      cases hr : db.email? k with
      | none => rfl
      | some r =>
          have hid : r.id ≠ emailId := fun hid => h ((db.email?_id hr).symm.trans hid)
          simp [hid]

/-- The row it names stays exactly when there was nothing to write. -/
theorem email?_write_self_iff {e : CampaignEmail} (he : db.email? emailId = some e) :
    (req.write db emailId).email? emailId = some e ↔ WritesNothing e req := by
  have hid := db.email?_id he
  cases req with
  | edit r =>
      unfold EmailRequest.write
      rw [OutreachDb.email?_updateEmail, if_pos rfl, he]
      obtain ⟨⟩ := e
      simp only [Option.map_some, Option.some.injEq, CampaignEmail.mk.injEq, WritesNothing]
      constructor
      · rintro ⟨-, -, -, -, hs, hb, -⟩
        exact ⟨hs.symm, hb.symm⟩
      · rintro ⟨rfl, rfl⟩
        simp
  | select r =>
      unfold EmailRequest.write
      rw [OutreachDb.email?_setEmailSelection, if_pos rfl, he, Option.map_some]
      obtain ⟨_, _, _, _, _, _, status, sel⟩ := e
      obtain ⟨wanted⟩ := r
      unfold OutreachDb.reselect WritesNothing
      cases status with
      | draft =>
          simp only [Option.some.injEq, CampaignEmail.mk.injEq, true_and, and_true]
          exact eq_comm
      | queued => cases wanted <;> simp
      | sending => simp
      | sent => simp
      | failed => simp
  | delete =>
      unfold EmailRequest.write
      rw [OutreachDb.email?_deleteCampaignEmail, he, Option.filter_some]
      by_cases hd : e.status = .draft
      · simp [hid, hd, WritesNothing]
      · simp [hd, WritesNothing]

end Serve

/--
**Which requests keep to their own emails.**  Off-limits rows survive a request of a
non-admin exactly when it is refused by its checks, or the id it carries is not one
of an off-limits row, or there is nothing to write.
-/
theorem isolated_iff (db : OutreachDb) (user : CurrentUser) (huser : user.isAdmin = false)
    (campaignId emailId : Nat) (req : EmailRequest) :
    Isolated db user (serveEmailRequest db user campaignId emailId req).2 ↔
      SafeRequest db user campaignId emailId req := by
  constructor
  · intro hiso hadm e he hoff
    rw [serve_of_admitted huser hadm] at hiso
    exact (email?_write_self_iff he).mp (hiso emailId e he hoff)
  · intro hsafe k e he hoff
    by_cases hadm : Admitted db user campaignId req
    · rw [serve_of_admitted huser hadm]
      by_cases hk : k = emailId
      · subst hk
        exact (email?_write_self_iff he).mpr (hsafe hadm e he hoff)
      · rw [email?_write_of_ne hk]
        exact he
    · rw [serve_of_not_admitted huser hadm]
      exact he

/-! ### A request that does not -/

/-- Two users' paused campaigns, 1 and 2, and one drafted email in campaign 2. -/
def twoOwners : OutreachDb where
  campaigns :=
    (Table.empty.insertNew fun id =>
      { id, name := "mine", templateId := none, kind := .production, testCredentialId := none,
        status := .paused, ownerId := some 7, pauseReason := none }).insertNew fun id =>
      { id, name := "theirs", templateId := none, kind := .production, testCredentialId := none,
        status := .paused, ownerId := some 8, pauseReason := none }
  campaignEmails :=
    Table.empty.insertNew fun id =>
      { id, campaignId := 2, leadId := none, recipientEmail := "clerk@city.gov",
        subject := "Hello", body := "Dear clerk" }
  smtpCredentials := Table.empty
  campaignCredentials := Table.empty
  blacklist := Table.empty

def campaignManager : CurrentUser :=
  { id := 7, email := "m@x.org", isAdmin := false, permissions := ["campaigns.manage"] }

/-- `PUT /api/campaigns/1/emails/1` by the owner of campaign 1 rewrites the email of
campaign 2. -/
theorem foreign_email_edited :
    campaignManager.isAdmin = false ∧
      ¬ Isolated twoOwners campaignManager
        (serveEmailRequest twoOwners campaignManager 1 1 (.edit ⟨"Hello", "Send money"⟩)).2 := by
  refine ⟨rfl, fun h => ?_⟩
  have hrow := h 1 _ rfl ⟨_, rfl, Or.inl (by decide)⟩
  revert hrow
  decide

/-- The same edit through campaign 2's own URL is refused, and isolated. -/
theorem own_url_isolated :
    Isolated twoOwners campaignManager
      (serveEmailRequest twoOwners campaignManager 2 1 (.edit ⟨"Hello", "Send money"⟩)).2 := by
  refine (isolated_iff twoOwners campaignManager rfl 2 1 _).mpr ?_
  rintro ⟨⟨-, c, hc, hown, -⟩, -⟩
  obtain rfl : _ = c := Option.some.inj hc
  exact absurd hown (by decide)

end GovCrawler
