/-
Where the emails of a campaign come from: `cloud/services/campaign_service.py`, the two routes of
`cloud/api/campaigns.py` that stage drafts, and `cloud/api/blacklist.py`.

A production campaign is staged from the lead pool, when it is created and whenever leads are added
to it.  The leads of the blacklist are left out, and of the others those that the campaign has
already; the rest is rendered.  The pool is read twice, once for the leads and once for their ids,
and what is ingested in between may change it.  Jinja is a parameter, and `none` is what it raises.
-/
import GovCrawler.Leads.SaveLead
import GovCrawler.Outreach.CampaignRoutes

namespace GovCrawler

open Relational

/-! ### Tables -/

structure EmailTemplate where
  id : Nat
  name : String
  subject : String
  rawBody : String
  deriving DecidableEq, Repr

instance : Keyed EmailTemplate := ⟨EmailTemplate.id⟩

/-- The leads as a query finds them, in its order; `uq_lead_email` is the second field. -/
structure LeadPool where
  leads : List Lead
  uqLeadEmail : (leads.map Lead.email).Nodup

namespace OutreachDb

/-- `create_campaign`, with the new id. -/
def createCampaign (db : OutreachDb) (name : String) (templateId : Nat) (kind : CampaignKind)
    (testCredentialId : Option Nat) (status : CampaignStatus) (ownerId : Option Nat) :
    Nat × OutreachDb :=
  (db.campaigns.nextKey,
    { db with
      campaigns := db.campaigns.insertNew fun id =>
        { id, name, templateId := some templateId, kind, testCredentialId, status, ownerId,
          pauseReason := none } })

/-- `create_campaign_email`. -/
def createCampaignEmail (db : OutreachDb) (campaignId : Nat) (recipientEmail subject body : String)
    (leadId : Option Nat) : Nat × OutreachDb :=
  (db.campaignEmails.nextKey,
    { db with
      campaignEmails := db.campaignEmails.insertNew fun id =>
        { id, campaignId, leadId, recipientEmail, subject, body } })

/-- `set_campaign_credentials`.  `none` is the `IntegrityError` for a credential that is named
twice. -/
def setCampaignCredentials (db : OutreachDb) (campaignId : Nat) (credentialIds : List Nat) :
    Option OutreachDb :=
  match db.campaigns.get? campaignId with
  | none => some db
  | some c =>
      match c.kind with
      | .test =>
          some { db with
            campaigns := db.campaigns.updateWhere (fun c => c.id == campaignId)
              fun c => { c with testCredentialId := credentialIds.head? } }
      | .production =>
          if credentialIds.Nodup then
            some { db with
              campaignCredentials := credentialIds.foldl
                (fun t credentialId => t.insertNew fun id => { id, campaignId, credentialId })
                (db.campaignCredentials.deleteWhere fun r => r.campaignId == campaignId) }
          else none

/-- `get_campaign_recipient_emails`. -/
def getCampaignRecipientEmails (db : OutreachDb) (campaignId : Nat) : List String :=
  (db.campaignEmails.select fun e => e.campaignId == campaignId).map CampaignEmail.recipientEmail

/-- `get_blacklisted_emails_set`. -/
def getBlacklistedEmailsSet (db : OutreachDb) : List String := db.blacklist.rows.map Blacklist.email

/-- `get_blacklisted_domains_set`. -/
def getBlacklistedDomainsSet (db : OutreachDb) : List String :=
  db.blacklist.rows.map Blacklist.domain

/-- `remove_from_blacklist`. -/
def removeFromBlacklist (db : OutreachDb) (blacklistId : Nat) : Bool × OutreachDb :=
  ((db.blacklist.get? blacklistId).isSome,
    { db with blacklist := db.blacklist.deleteWhere fun b => b.id == blacklistId })

end OutreachDb

/-! ### The lead pool -/

/-- What a draft needs of the dictionary `_export_row_dict` makes. -/
structure ExportRow where
  email : String
  personName : String
  designation : String
  deriving DecidableEq, Repr

/-- `_export_row_dict`. -/
def Lead.exportRow (lead : Lead) : ExportRow :=
  ⟨lead.email, lead.personName.getD "", lead.designation.getD ""⟩

/-- `Lead.id.in_(lead_ids)`. -/
def LeadPool.named (pool : LeadPool) (leadIds : List Nat) : List Lead :=
  pool.leads.filter fun lead => leadIds.contains lead.id

/-- `get_all_leads_for_export`, with no filter but the ids.  An empty list of them is no filter. -/
def LeadPool.getAllLeadsForExport (pool : LeadPool) (leadIds : List Nat) : List ExportRow :=
  (if leadIds.isEmpty then pool.leads else pool.named leadIds).map Lead.exportRow

/-- `lead_id_by_email`.  No two leads have an email, so that no entry is overwritten. -/
def LeadPool.leadIdByEmail (pool : LeadPool) (leadIds : List Nat) (email : String) : Option Nat :=
  ((pool.named leadIds).find? fun lead => lead.email == email).map Lead.id

/-! ### `campaign_service.py` -/

/-- What Jinja makes of a template and its variables. -/
abbrev Jinja := String → List (String × String) → Option String

/-- `render_template_string`. -/
def renderTemplateString (jinja : Jinja) (templateStr : String) (vars : List (String × String)) :
    String :=
  (jinja templateStr vars).getD templateStr

/-- `is_blacklisted`. -/
def isBlacklisted (lower : String → String) (email : String)
    (blacklistedEmails blacklistedDomains : List String) : Bool :=
  let email := lower email
  let domain := domainPart email
  blacklistedEmails.contains email || blacklistedDomains.contains domain

/-- `value or fallback`, of a string. -/
def fallBack (value fallback : String) : String := if value = "" then fallback else value

/-- The template variables a lead has no value for. -/
def ExportRow.missing (lead : ExportRow) : List String :=
  (if lead.personName = "" then ["name"] else []) ++
    if lead.designation = "" then ["designation"] else []

/-- The dictionary of one draft. -/
def ExportRow.draft (jinja : Jinja) (template : EmailTemplate) (lead : ExportRow) (leadId : Nat) :
    OutreachDb.StagedEmail :=
  -- the subject falls back silently, the body says what is missing
  let subjectVars :=
    [("name", fallBack lead.personName "Official"), ("designation", lead.designation)]
  let bodyVars :=
    [("name", fallBack lead.personName "[MISSING: name]"),
      ("designation", fallBack lead.designation "[MISSING: designation]")]
  { leadId := some leadId
    recipientEmail := lead.email
    subject := renderTemplateString jinja template.subject subjectVars
    body := renderTemplateString jinja template.rawBody bodyVars
    isSelected := lead.missing.length == 0
    missingFields := if lead.missing.isEmpty then none else some (",".intercalate lead.missing) }

/-- What `render_draft_emails` returns. -/
structure RenderedDrafts where
  emailDicts : List OutreachDb.StagedEmail
  blacklistedCount : Nat
  excludedCount : Nat
  deriving DecidableEq, Repr

/-- `render_draft_emails`. -/
def renderDraftEmails (jinja : Jinja) (lower : String → String) (leads : List ExportRow)
    (template : EmailTemplate) (blacklistedEmails : List String)
    (leadIdByEmail : String → Option Nat) (blacklistedDomains excludeEmails : List String) :
    RenderedDrafts :=
  let filtered := leads.filter fun lead =>
    !isBlacklisted lower lead.email blacklistedEmails blacklistedDomains
  let remaining :=
    if excludeEmails.isEmpty then filtered
    else filtered.filter fun lead => !excludeEmails.contains lead.email
  { emailDicts := remaining.filterMap fun lead =>
      (leadIdByEmail lead.email).map (lead.draft jinja template)
    blacklistedCount := leads.length - filtered.length
    excludedCount := (filtered.filter fun lead => excludeEmails.contains lead.email).length }

/-! ### `POST /api/campaigns` -/

structure DummyDetails where
  name : Option String := none
  designation : Option String := none
  email : String
  department : Option String := none
  deriving DecidableEq, Repr

structure CampaignCreate where
  name : String
  templateId : Nat
  kind : String := "production"
  leadIds : Option (List Nat) := none
  credentialIds : List Nat := []
  dummyDetails : Option (List DummyDetails) := none
  testCredentialId : Option Nat := none
  deriving DecidableEq, Repr

/-- What a valid request is to stage. -/
inductive CampaignContents
  | production (leadIds : List Nat)
  | test (dummyDetails : List DummyDetails)
  deriving DecidableEq, Repr

/-- `_check_kind_fields`; a `ValueError` is answered with 422. -/
def CampaignCreate.checkKindFields (req : CampaignCreate) : Except HttpError CampaignContents :=
  match req.kind with
  | "production" =>
      match req.leadIds with
      | none | some [] => .error ⟨422, "lead_ids is required for a production campaign"⟩
      | some leadIds => .ok (.production leadIds)
  | "test" =>
      match req.dummyDetails with
      | none | some [] => .error ⟨422, "dummy_details is required for a test campaign"⟩
      | some dummyDetails => .ok (.test dummyDetails)
  | _ => .error ⟨422, "kind must be one of: production, test"⟩

/-- The answer.  The counts are of production campaigns only. -/
structure CampaignCreated where
  campaignId : Nat
  totalStaged : Option Nat := none
  blacklistedCount : Option Nat := none
  message : String
  deriving DecidableEq, Repr

/-- What a request has staged. -/
structure StagedDrafts where
  campaignId : Nat
  stagedCount : Nat
  blacklistedCount : Nat
  alreadyCount : Nat
  deriving DecidableEq, Repr

section Create

variable (jinja : Jinja) (lower : String → String) (db : OutreachDb) (user : CurrentUser)
  (req : CampaignCreate) (template : EmailTemplate)

/-- The branch of a test campaign. -/
def createTestCampaign (dummyDetails : List DummyDetails) : Nat × OutreachDb :=
  let created :=
    db.createCampaign req.name req.templateId .test req.testCredentialId .paused (some user.id)
  (created.1, dummyDetails.foldl (fun db details =>
    let renderVars :=
      [("name", fallBack (details.name.getD "") "Official"),
        ("designation", details.designation.getD ""), ("department", details.department.getD "")]
    (db.createCampaignEmail created.1 details.email
      (renderTemplateString jinja template.subject renderVars)
      (renderTemplateString jinja template.rawBody renderVars) none).2) created.2)

/-- The branch of a production campaign, up to the assignment of its credentials. -/
def stageProductionCampaign (leadIds : List Nat) (pool resolved : LeadPool) :
    Except HttpError (StagedDrafts × OutreachDb) :=
  let leads := pool.getAllLeadsForExport leadIds
  if leads.isEmpty then .error ⟨404, "No matching leads found"⟩
  else if leads.all fun lead =>
      isBlacklisted lower lead.email db.getBlacklistedEmailsSet db.getBlacklistedDomainsSet then
    .error ⟨422, s!"All {leads.length} leads are blacklisted. No emails to stage."⟩
  else
    let created := db.createCampaign req.name req.templateId .production none .paused (some user.id)
    let drafts := renderDraftEmails jinja lower leads template db.getBlacklistedEmailsSet
      (resolved.leadIdByEmail leadIds) db.getBlacklistedDomainsSet []
    let staged := created.2.bulkCreateCampaignEmails created.1 drafts.emailDicts
    .ok (⟨created.1, staged.1, drafts.blacklistedCount, drafts.excludedCount⟩, staged.2)

end Create

/-- What the request finds before it stages anything. -/
def CampaignCreate.open (req : CampaignCreate) (templates : Table EmailTemplate)
    (user : CurrentUser) : Except HttpError (CampaignContents × EmailTemplate) := do
  let _ ← require ["campaigns.manage"] user
  let contents ← req.checkKindFields
  match templates.get? req.templateId with
  | none => .error ⟨404, "Template not found"⟩
  | some template => .ok (contents, template)

/-- `POST /api/campaigns`. -/
def createCampaign (jinja : Jinja) (lower : String → String) (templates : Table EmailTemplate)
    (db : OutreachDb) (user : CurrentUser) (req : CampaignCreate) (pool resolved : LeadPool) :
    Except HttpError CampaignCreated × OutreachDb :=
  match req.open templates user with
  | .error e => (.error e, db)
  | .ok (.test dummyDetails, template) =>
      let created := createTestCampaign jinja db user req template dummyDetails
      (.ok { campaignId := created.1, message := s!"Test campaign '{req.name}' created" }, created.2)
  | .ok (.production leadIds, template) =>
      match stageProductionCampaign jinja lower db user req template leadIds pool resolved with
      | .error e => (.error e, db)
      | .ok (staged, db) =>
          let created : CampaignCreated :=
            { campaignId := staged.campaignId
              totalStaged := some staged.stagedCount
              blacklistedCount := some staged.blacklistedCount
              message := s!"Campaign '{req.name}' created with {staged.stagedCount} draft emails" }
          if req.credentialIds.isEmpty then (.ok created, db)
          else
            match db.setCampaignCredentials staged.campaignId req.credentialIds with
            | none => (.error ⟨500, "Internal Server Error"⟩, db)
            | some db => (.ok created, db)

/-! ### `POST /api/campaigns/{campaign_id}/emails` -/

structure EmailsAdded where
  added : Nat
  blacklistedCount : Nat
  alreadyInCampaign : Nat
  message : String
  deriving DecidableEq, Repr

/-- What the template of the campaign makes of the leads. -/
def OutreachDb.renderForCampaign (jinja : Jinja) (lower : String → String)
    (templates : Table EmailTemplate) (db : OutreachDb) (campaignId : Nat) (leadIds : List Nat)
    (pool resolved : LeadPool) : Except HttpError RenderedDrafts :=
  match ((db.campaigns.get? campaignId).bind Campaign.templateId).bind templates.get? with
  | none => .error ⟨404, "Campaign template not found"⟩
  | some template =>
      let leads := pool.getAllLeadsForExport leadIds
      if leads.isEmpty then .error ⟨404, "No matching leads found"⟩
      else
        .ok (renderDraftEmails jinja lower leads template db.getBlacklistedEmailsSet
          (resolved.leadIdByEmail leadIds) db.getBlacklistedDomainsSet
          (db.getCampaignRecipientEmails campaignId))

/-- `POST /api/campaigns/{campaign_id}/emails`, from the pool to the answer. -/
def addLeadsToCampaign (jinja : Jinja) (lower : String → String) (templates : Table EmailTemplate)
    (db : OutreachDb) (user : CurrentUser) (campaignId : Nat) (leadIds : List Nat)
    (pool resolved : LeadPool) : Except HttpError (EmailsAdded × OutreachDb) :=
  let rendered :=
    db.renderForCampaign jinja lower templates campaignId leadIds pool resolved
  match addEmailsToCampaign db user campaignId leadIds
      (rendered.map RenderedDrafts.emailDicts), rendered with
  | .error e, _ => .error e
  | .ok _, .error e => .error e
  | .ok (added, db), .ok drafts =>
      .ok ({ added
             blacklistedCount := drafts.blacklistedCount
             alreadyInCampaign := drafts.excludedCount
             message := s!"Added {added} draft emails to campaign" }, db)

/-! ### The blacklist -/

structure BlacklistAdd where
  email : String
  reason : Option String := none
  deriving DecidableEq, Repr

structure BlacklistAdded where
  message : String
  domain : String
  deriving DecidableEq, Repr

namespace BlacklistRoutes

/-- `POST /api/blacklist`. -/
def addToBlacklist (lower : String → String) (db : OutreachDb) (user : CurrentUser)
    (req : BlacklistAdd) : Except HttpError BlacklistAdded × OutreachDb :=
  match require ["blacklist.manage"] user with
  | .error e => (.error e, db)
  | .ok _ =>
      let email := lower (strip req.email)
      if !containsSub "@" email then (.error ⟨400, "Invalid email address"⟩, db)
      else
        let domain := domainPart email
        match db.addToBlacklist lower email domain req.reason with
        | (false, db) => (.error ⟨409, "Email already blacklisted"⟩, db)
        | (true, db) => (.ok ⟨s!"Blacklisted {email}", domain⟩, db)

/-- `DELETE /api/blacklist/{blacklist_id}`. -/
def removeFromBlacklist (db : OutreachDb) (user : CurrentUser) (blacklistId : Nat) :
    Except HttpError String × OutreachDb :=
  match require ["blacklist.manage"] user with
  | .error e => (.error e, db)
  | .ok _ =>
      match db.removeFromBlacklist blacklistId with
      | (false, db) => (.error ⟨404, "Blacklist entry not found"⟩, db)
      | (true, db) => (.ok "Entry removed from blacklist", db)

end BlacklistRoutes

end GovCrawler
