/-
The campaign system: the service of `Service` next to the requests that stage emails and keep the
blacklist.

A request is one action, with what it finds in the lead pool as its input; templates are edited
between requests.  Two fields of a state record what has happened and decide nothing: what each
staging request found, and the text of every email whose send has succeeded.
-/
import GovCrawler.Outreach.Letters
import GovCrawler.Outreach.Staging

namespace GovCrawler

open Relational Transition

/-- A staging request that got as far as to render its drafts. -/
structure Staging where
  before : OutreachDb
  after : OutreachDb
  found : List ExportRow
  leadIdByEmail : String → Option Nat
  drafts : StagedDrafts

/-- What was passed to `_send_one_email` for an email, when it succeeded. -/
structure SentMail where
  emailId : Nat
  subject : String
  body : String
  deriving DecidableEq, Repr

structure CampaignSystem where
  service : Service
  templates : Table EmailTemplate
  stagings : List Staging
  mails : List SentMail

inductive CampaignAction
  /-- Anything of the service but a staging request that is rendered by nobody. -/
  | service (a : ServiceAction)
  | create (user : CurrentUser) (req : CampaignCreate) (pool resolved : LeadPool)
  | addLeads (user : CurrentUser) (campaignId : Nat) (leadIds : List Nat)
      (pool resolved : LeadPool)
  | block (user : CurrentUser) (req : BlacklistAdd)
  | unblock (user : CurrentUser) (blacklistId : Nat)
  /-- Templates are created, edited or deleted. -/
  | templates (templates : Table EmailTemplate)

/-- The mail that an action of the service sends. -/
def Service.mailOf (s : Service) : ServiceAction → List SentMail
  | .sent i (.ok ()) =>
      match s.tasks[i]? with
      | some ⟨_, .sending job⟩ => [⟨job.email.id, job.email.subject, job.email.body⟩]
      | _ => []
  | _ => []

namespace CampaignSystem

def db (s : CampaignSystem) : OutreachDb := s.service.db

/-- A request has left the database like this. -/
def withDb (s : CampaignSystem) (db : OutreachDb) : CampaignSystem :=
  { s with service := { s.service with db } }

@[simp] theorem db_withDb (s : CampaignSystem) (db : OutreachDb) : (s.withDb db).db = db := rfl

section Step

variable (mode : DispatchMode) (settings : DispatchSettings) (jinja : Jinja) (s : CampaignSystem)

/-- What `POST /api/campaigns` stages. -/
def stagingOfCreate (user : CurrentUser) (req : CampaignCreate) (pool resolved : LeadPool) :
    List Staging :=
  match req.open s.templates user with
  | .ok (.production leadIds, template) =>
      match stageProductionCampaign jinja settings.lower s.db user req template leadIds pool
          resolved with
      | .ok (drafts, after) =>
          [{ before := s.db, after, found := pool.getAllLeadsForExport leadIds,
             leadIdByEmail := resolved.leadIdByEmail leadIds, drafts }]
      | .error _ => []
  | .ok (.test _, _) => []
  | .error _ => []

def create (user : CurrentUser) (req : CampaignCreate) (pool resolved : LeadPool) :
    CampaignSystem :=
  { s.withDb (createCampaign jinja settings.lower s.templates s.db user req pool resolved).2 with
    stagings := s.stagings ++ s.stagingOfCreate settings jinja user req pool resolved }

def addLeads (user : CurrentUser) (campaignId : Nat) (leadIds : List Nat)
    (pool resolved : LeadPool) : CampaignSystem :=
  match addLeadsToCampaign jinja settings.lower s.templates s.db user campaignId leadIds pool
      resolved with
  | .error _ => s
  | .ok (r, after) =>
      { s.withDb after with
        stagings := s.stagings ++
          [{ before := s.db, after, found := pool.getAllLeadsForExport leadIds,
             leadIdByEmail := resolved.leadIdByEmail leadIds,
             drafts := ⟨campaignId, r.added, r.blacklistedCount, r.alreadyInCampaign⟩ }] }

def step : CampaignAction → Option CampaignSystem
  | .service (.addEmails _ _ _ _) => none
  | .service a =>
      (s.service.step mode settings a).map fun service =>
        { s with service, mails := s.mails ++ s.service.mailOf a }
  | .create user req pool resolved => some (s.create settings jinja user req pool resolved)
  | .addLeads user campaignId leadIds pool resolved =>
      some (s.addLeads settings jinja user campaignId leadIds pool resolved)
  | .block user req => some (s.withDb (BlacklistRoutes.addToBlacklist settings.lower s.db user req).2)
  | .unblock user blacklistId =>
      some (s.withDb (BlacklistRoutes.removeFromBlacklist s.db user blacklistId).2)
  | .templates templates => some { s with templates }

end Step

end CampaignSystem

/-! ### What the requests write -/

/-- The emails of `emails` are staged in a campaign, which may be a new one. -/
structure Extends (campaignId : Nat) (emails : List OutreachDb.StagedEmail)
    (db db' : OutreachDb) : Prop where
  appends : Appends campaignId emails db db'
  kinds : ∀ k < db.campaigns.nextKey,
    (db'.campaigns.get? k).map Campaign.kind = (db.campaigns.get? k).map Campaign.kind
  campaignKey : db.campaigns.nextKey ≤ db'.campaigns.nextKey
  member : campaignId < db'.campaigns.nextKey
  blacklist : db'.blacklist = db.blacklist

section Extends

variable {campaignId : Nat} {emails : List OutreachDb.StagedEmail} {db db' db'' : OutreachDb}

theorem extends_bulkCreate (hmember : campaignId < db.campaigns.nextKey) :
    Extends campaignId emails db (db.bulkCreateCampaignEmails campaignId emails).2 where
  appends := appends_bulkCreate campaignId emails db
  kinds _ _ := rfl
  campaignKey := Nat.le_refl _
  member := hmember
  blacklist := rfl

/-- The emails of a new campaign. -/
theorem extends_createCampaign (name : String) (templateId : Nat) (kind : CampaignKind)
    (testCredentialId : Option Nat) (status : CampaignStatus) (ownerId : Option Nat) :
    let created := db.createCampaign name templateId kind testCredentialId status ownerId
    Extends created.1 emails db (created.2.bulkCreateCampaignEmails created.1 emails).2 ∧
      ((created.2.bulkCreateCampaignEmails created.1 emails).2.campaigns.get? created.1).map
        Campaign.kind = some kind := by
  intro created
  have hget := fun k => db.campaigns.get?_insertNew (fun id =>
    { id, name, templateId := some templateId, kind, testCredentialId, status, ownerId,
      pauseReason := none }) (by intro _; rfl) k
  have happends := appends_bulkCreate created.1 emails created.2
  refine ⟨⟨⟨happends.old, happends.rows, happends.new, happends.emailKey⟩, ?_, ?_, ?_, rfl⟩, ?_⟩
  · intro k hk
    exact congrArg (Option.map Campaign.kind) ((hget k).trans (if_neg (Nat.ne_of_lt hk)))
  · exact Nat.le_succ _
  · exact Nat.lt_succ_self _
  · exact congrArg (Option.map Campaign.kind) ((hget _).trans (if_pos rfl))

/-- What `set_campaign_credentials` writes is neither an email nor the kind of a campaign. -/
theorem keeps_setCampaignCredentials (lower : String → String) (marked : Nat → Prop)
    {credentialIds : List Nat} (h : db.setCampaignCredentials campaignId credentialIds = some db') :
    Keeps lower marked db db' := by
  unfold OutreachDb.setCampaignCredentials at h
  split at h
  · obtain rfl := Option.some.inj h
    exact .refl lower marked db
  · split at h
    · obtain rfl := Option.some.inj h
      refine ⟨fun _ e' he' => ⟨e', he', rfl, Or.inl⟩, rfl, fun k => ?_, rfl, fun _ hb => Or.inl hb⟩
      have hget := db.campaigns.get?_updateWhere (fun c => c.id == campaignId)
        (fun c => { c with testCredentialId := credentialIds.head? }) (fun _ => rfl) k
      refine (congrArg (Option.map Campaign.kind) hget).trans ?_
      rw [Option.map_map]
      congr 1
      funext campaign
      dsimp only [Function.comp_apply]
      split
      · rfl
      · rfl
    · split at h
      · obtain rfl := Option.some.inj h
        exact .of_eq rfl rfl rfl
      · cases h

/-- The drafts of a test campaign, made one by one. -/
theorem foldl_createCampaignEmail {A : Type} (recipient subject body : A → String) (details : List A)
    (db : OutreachDb) :
    details.foldl (fun db d =>
      (db.createCampaignEmail campaignId (recipient d) (subject d) (body d) none).2) db =
      (db.bulkCreateCampaignEmails campaignId (details.map fun d =>
        { leadId := none, recipientEmail := recipient d, subject := subject d, body := body d,
          isSelected := true, missingFields := none })).2 := by
  induction details generalizing db with
  | nil => rfl
  | cons d details ih =>
      rw [List.foldl_cons, ih]
      rfl

theorem createTestCampaign_extends (jinja : Jinja) (user : CurrentUser) (req : CampaignCreate)
    (template : EmailTemplate) (dummyDetails : List DummyDetails) :
    ∃ c emails, Extends c emails db (createTestCampaign jinja db user req template dummyDetails).2 ∧
      ((createTestCampaign jinja db user req template dummyDetails).2.campaigns.get? c).map
        Campaign.kind = some .test := by
  unfold createTestCampaign
  dsimp only
  rw [foldl_createCampaignEmail]
  exact ⟨_, _, extends_createCampaign _ _ _ _ _ _⟩

end Extends

/-- What a staging request renders, with what it found. -/
def Staging.rendered (jinja : Jinja) (lower : String → String) (template : EmailTemplate)
    (g : Staging) : RenderedDrafts :=
  renderDraftEmails jinja lower g.found template g.before.getBlacklistedEmailsSet
    g.leadIdByEmail g.before.getBlacklistedDomainsSet
    (g.before.getCampaignRecipientEmails g.drafts.campaignId)

/-- A staging request stages what it renders, and says how much. -/
structure Staging.Renders (jinja : Jinja) (lower : String → String) (template : EmailTemplate)
    (g : Staging) : Prop where
  nodup : (g.found.map ExportRow.email).Nodup
  staged : Extends g.drafts.campaignId (g.rendered jinja lower template).emailDicts g.before g.after
  stagedCount : g.drafts.stagedCount = (g.rendered jinja lower template).emailDicts.length
  blacklistedCount : g.drafts.blacklistedCount = (g.rendered jinja lower template).blacklistedCount
  alreadyCount : g.drafts.alreadyCount = (g.rendered jinja lower template).excludedCount

/-- No two of the leads found have an address. -/
theorem LeadPool.nodup_export (pool : LeadPool) (leadIds : List Nat) :
    ((pool.getAllLeadsForExport leadIds).map ExportRow.email).Nodup := by
  have hemail : ExportRow.email ∘ Lead.exportRow = Lead.email := rfl
  unfold LeadPool.getAllLeadsForExport
  rw [List.map_map, hemail]
  split
  · exact pool.uqLeadEmail
  · exact pool.uqLeadEmail.sublist (List.filter_sublist.map _)

theorem stageProductionCampaign_renders {jinja : Jinja} {lower : String → String} {db after : OutreachDb}
    {user : CurrentUser} {req : CampaignCreate} {template : EmailTemplate} {leadIds : List Nat}
    {pool resolved : LeadPool} {drafts : StagedDrafts}
    (hhomed : ∀ e ∈ db.campaignEmails.rows, e.campaignId < db.campaigns.nextKey)
    (h : stageProductionCampaign jinja lower db user req template leadIds pool resolved =
      .ok (drafts, after)) :
    Staging.Renders jinja lower template
      { before := db, after, found := pool.getAllLeadsForExport leadIds,
        leadIdByEmail := resolved.leadIdByEmail leadIds, drafts } := by
  -- a new campaign has no recipients
  have hnone : db.getCampaignRecipientEmails db.campaigns.nextKey = [] := by
    unfold OutreachDb.getCampaignRecipientEmails Table.select
    rw [List.map_eq_nil_iff, List.filter_eq_nil_iff]
    intro e he hnew
    exact absurd (beq_iff_eq.mp hnew) (Nat.ne_of_lt (hhomed e he))
  unfold stageProductionCampaign at h
  dsimp only at h
  split_ifs at h
  obtain ⟨rfl, rfl⟩ := Prod.mk.inj (Except.ok.inj h)
  refine ⟨pool.nodup_export leadIds, ?_, ?_, ?_, ?_⟩
  all_goals
    unfold Staging.rendered
    dsimp only
    rw [show (db.createCampaign req.name req.templateId .production none .paused (some user.id)).1 =
      db.campaigns.nextKey from rfl, hnone]
  · exact (extends_createCampaign _ _ _ _ _ _).1
  all_goals rfl

theorem addLeadsToCampaign_renders {jinja : Jinja} {lower : String → String}
    {templates : Table EmailTemplate} {db after : OutreachDb} {user : CurrentUser} {campaignId : Nat}
    {leadIds : List Nat} {pool resolved : LeadPool} {r : EmailsAdded}
    (h : addLeadsToCampaign jinja lower templates db user campaignId leadIds pool resolved =
      .ok (r, after)) :
    ∃ template, Staging.Renders jinja lower template
      { before := db, after, found := pool.getAllLeadsForExport leadIds,
        leadIdByEmail := resolved.leadIdByEmail leadIds,
        drafts := ⟨campaignId, r.added, r.blacklistedCount, r.alreadyInCampaign⟩ } := by
  unfold addLeadsToCampaign at h
  dsimp only at h
  split at h
  · cases h
  · cases h
  · rename_i added after' drafts haccepted hrendered
    obtain ⟨rfl, rfl⟩ := Prod.mk.inj (Except.ok.inj h)
    obtain ⟨emails, hemails, hdb⟩ := addEmailsToCampaign_eq_ok haccepted
    obtain ⟨rfl, rfl⟩ := Prod.mk.inj hdb
    rw [hrendered] at hemails
    obtain rfl := Except.ok.inj hemails
    unfold OutreachDb.renderForCampaign at hrendered
    split at hrendered
    · cases hrendered
    · rename_i template htemplate
      dsimp only at hrendered
      split_ifs at hrendered
      obtain rfl := Except.ok.inj hrendered
      -- the campaign is there, for it has a template
      obtain ⟨_, hbind, -⟩ := Option.bind_eq_some_iff.mp htemplate
      obtain ⟨campaign, hcampaign, -⟩ := Option.bind_eq_some_iff.mp hbind
      exact ⟨template, pool.nodup_export leadIds,
        extends_bulkCreate (Table.lt_nextKey_of_get? hcampaign), rfl, rfl, rfl⟩

theorem keeps_block (lower : String → String) (marked : Nat → Prop) (db : OutreachDb)
    (user : CurrentUser) (req : BlacklistAdd) :
    Keeps lower marked db (BlacklistRoutes.addToBlacklist lower db user req).2 := by
  have hadd : ∀ email domain,
      Keeps lower marked db (db.addToBlacklist lower email domain req.reason).2 :=
    fun email domain => Keeps.addToBlacklist email domain req.reason
  unfold BlacklistRoutes.addToBlacklist
  split
  · exact .refl lower marked db
  · dsimp only
    split
    · exact .refl lower marked db
    · specialize hadd (lower (strip req.email)) (domainPart (lower (strip req.email)))
      split
      · rename_i db' heq
        rw [heq] at hadd
        exact hadd
      · rename_i db' heq
        rw [heq] at hadd
        exact hadd

theorem keeps_unblock (lower : String → String) (marked : Nat → Prop) (db : OutreachDb)
    (user : CurrentUser) (blacklistId : Nat) :
    Keeps lower marked db (BlacklistRoutes.removeFromBlacklist db user blacklistId).2 := by
  have hremove : Keeps lower marked db (db.removeFromBlacklist blacklistId).2 :=
    ⟨fun _ e' he' => ⟨e', he', rfl, Or.inl⟩, rfl, fun _ => rfl, rfl,
      fun _ hb => Or.inl (List.mem_filter.mp hb).1⟩
  unfold BlacklistRoutes.removeFromBlacklist
  split
  · exact .refl lower marked db
  · split
    · rename_i db' heq
      rw [heq] at hremove
      exact hremove
    · rename_i db' heq
      rw [heq] at hremove
      exact hremove

/-! ### Steps -/

/-- Every email is of a campaign that is there. -/
def OutreachDb.Homed (db : OutreachDb) : Prop :=
  ∀ e ∈ db.campaignEmails.rows, e.campaignId < db.campaigns.nextKey

namespace CampaignSystem

variable {mode : DispatchMode} {settings : DispatchSettings} {jinja : Jinja}
  {s s' : CampaignSystem}

/-- What a step does to the emails, and what it puts on record. -/
inductive Effect (mode : DispatchMode) (settings : DispatchSettings) (jinja : Jinja)
    (s s' : CampaignSystem) : CampaignAction → Prop
  | served {a : ServiceAction} (hstep : s.service.step mode settings a = some s'.service)
      (hno : ∀ user c leadIds rendered, a ≠ .addEmails user c leadIds rendered)
      (hmails : s'.mails = s.mails ++ s.service.mailOf a) (hlog : s'.stagings = s.stagings) :
      Effect mode settings jinja s s' (.service a)
  | keeps {a : CampaignAction} (hno : ∀ a', a ≠ .service a')
      (h : Keeps settings.lower (fun _ => False) s.db s'.db)
      (htasks : s'.service.tasks = s.service.tasks) (hmails : s'.mails = s.mails)
      (hlog : s'.stagings = s.stagings) : Effect mode settings jinja s s' a
  | tests {a : CampaignAction} {c : Nat} {emails : List OutreachDb.StagedEmail}
      (hno : ∀ a', a ≠ .service a') (h : Extends c emails s.db s'.db)
      (hkind : (s'.db.campaigns.get? c).map Campaign.kind = some .test)
      (htasks : s'.service.tasks = s.service.tasks) (hmails : s'.mails = s.mails)
      (hlog : s'.stagings = s.stagings) : Effect mode settings jinja s s' a
  | stages {a : CampaignAction} {g : Staging} (hno : ∀ a', a ≠ .service a')
      (hbefore : g.before = s.db)
      (hstaged : ∃ emails, Extends g.drafts.campaignId emails g.before g.after)
      (hrenders : s.db.Homed → ∃ template, g.Renders jinja settings.lower template)
      (hafter : Keeps settings.lower (fun _ => False) g.after s'.db)
      (htasks : s'.service.tasks = s.service.tasks) (hmails : s'.mails = s.mails)
      (hlog : s'.stagings = s.stagings ++ [g]) : Effect mode settings jinja s s' a

theorem effect_of_create (user : CurrentUser) (req : CampaignCreate) (pool resolved : LeadPool) :
    Effect mode settings jinja s (s.create settings jinja user req pool resolved)
      (.create user req pool resolved) := by
  have hdb : (s.create settings jinja user req pool resolved).db =
    (createCampaign jinja settings.lower s.templates s.db user req pool resolved).2 := rfl
  have hlog : (s.create settings jinja user req pool resolved).stagings =
    s.stagings ++ s.stagingOfCreate settings jinja user req pool resolved := rfl
  unfold createCampaign at hdb
  unfold stagingOfCreate at hlog
  cases hopen : req.open s.templates user with
  | error e =>
      rw [hopen] at hdb hlog
      refine .keeps nofun ?_ rfl rfl (hlog.trans (List.append_nil _))
      rw [hdb]
      exact .refl _ _ s.db
  | ok opened =>
      obtain ⟨contents, template⟩ := opened
      rw [hopen] at hdb hlog
      cases contents with
      | test dummyDetails =>
          obtain ⟨c, emails, hextends, hkind⟩ :=
            @createTestCampaign_extends s.db jinja user req template dummyDetails
          have hcreated : (s.create settings jinja user req pool resolved).db =
            (createTestCampaign jinja s.db user req template dummyDetails).2 := hdb
          rw [← hcreated] at hextends hkind
          exact .tests nofun hextends hkind rfl rfl (hlog.trans (List.append_nil _))
      | production leadIds =>
          dsimp only at hdb hlog
          cases hstage : stageProductionCampaign jinja settings.lower s.db user req template leadIds
              pool resolved with
          | error e =>
              rw [hstage] at hdb hlog
              refine .keeps nofun ?_ rfl rfl (hlog.trans (List.append_nil _))
              rw [hdb]
              exact .refl _ _ s.db
          | ok staged =>
              obtain ⟨drafts, after⟩ := staged
              rw [hstage] at hdb hlog
              refine .stages nofun rfl ?_ (fun hhomed => ⟨template,
                stageProductionCampaign_renders hhomed hstage⟩) ?_ rfl rfl hlog
              · dsimp only
                unfold stageProductionCampaign at hstage
                dsimp only at hstage
                split_ifs at hstage
                obtain ⟨rfl, rfl⟩ := Prod.mk.inj (Except.ok.inj hstage)
                exact ⟨_, (extends_createCampaign _ _ _ _ _ _).1⟩
              · rw [hdb]
                dsimp only
                split
                · exact .refl _ _ after
                · split
                  · exact .refl _ _ after
                  · rename_i db' hassigned
                    exact keeps_setCampaignCredentials _ _ hassigned

theorem effect_of_addLeads (user : CurrentUser) (campaignId : Nat) (leadIds : List Nat)
    (pool resolved : LeadPool) :
    Effect mode settings jinja s (s.addLeads settings jinja user campaignId leadIds pool resolved)
      (.addLeads user campaignId leadIds pool resolved) := by
  unfold addLeads
  cases hadd : addLeadsToCampaign jinja settings.lower s.templates s.db user campaignId leadIds pool
      resolved with
  | error e => exact .keeps nofun (.refl _ _ s.db) rfl rfl rfl
  | ok added =>
      obtain ⟨r, after⟩ := added
      obtain ⟨template, hrenders⟩ := addLeadsToCampaign_renders hadd
      exact .stages nofun rfl ⟨_, hrenders.staged⟩ (fun _ => ⟨template, hrenders⟩)
        (.refl _ _ after) rfl rfl rfl

theorem effect_of_step {a : CampaignAction} (h : s.step mode settings jinja a = some s') :
    Effect mode settings jinja s s' a := by
  cases a with
  | service a =>
      cases a with
      | addEmails user campaignId leadIds rendered => cases h
      | tick | request | poll | sweep | credentials | call | sent | crash =>
          dsimp only [step] at h
          obtain ⟨service, hstep, rfl⟩ := Option.map_eq_some_iff.mp h
          exact .served hstep nofun rfl rfl
  | create user req pool resolved =>
      obtain rfl := Option.some.inj h
      exact effect_of_create user req pool resolved
  | addLeads user campaignId leadIds pool resolved =>
      obtain rfl := Option.some.inj h
      exact effect_of_addLeads user campaignId leadIds pool resolved
  | block user req =>
      obtain rfl := Option.some.inj h
      refine .keeps nofun ?_ rfl rfl rfl
      rw [db_withDb]
      exact keeps_block settings.lower _ s.db user req
  | unblock user blacklistId =>
      obtain rfl := Option.some.inj h
      refine .keeps nofun ?_ rfl rfl rfl
      rw [db_withDb]
      exact keeps_unblock settings.lower _ s.db user blacklistId
  | templates templates =>
      obtain rfl := Option.some.inj h
      exact .keeps nofun (.refl _ _ s.db) rfl rfl rfl

end CampaignSystem

end GovCrawler
