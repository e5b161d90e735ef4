/-
What an official has received, and what is on record of it.

A dispatch task sends the copy it made when it claimed the email, minutes later.  `update_email`
knows the email by its id alone, so that the stored text can be replaced while the copy is on its
way and even after it has been sent, though the route answers that an email which is not in DRAFT is
not found.  Then the email is SENT, and its text is one that nobody has received.

`sent_content_recorded` says that nothing else does it: where no accepted edit names an email that
has been sent, or that a task holds a copy of, what is stored is what was sent.
-/
import GovCrawler.Outreach.CampaignSystem

namespace GovCrawler

open Relational Transition

/-- The copy of an email that a task holds. -/
def CallPc.copy? : CallPc → Option ClaimedEmail
  | .choosing _ email => some email
  | .sending job => some job.email
  | .queueing | .counted _ | .checking | .completing | .pausing _ | .head _ | .cancelling
  | .claiming _ | .draining | .stopped => none

/-- What a request to edit an email has to pass to be accepted. -/
def OutreachDb.MayEdit (db : OutreachDb) (user : CurrentUser) (campaignId emailId : Nat)
    (req : CampaignEmailUpdate) : Prop :=
  (openCampaign db user campaignId "Cannot edit emails in a cancelled campaign").isOk = true ∧
    (isBlank req.body || isBlank req.subject) = false ∧ (db.email? emailId).isSome = true

instance (db : OutreachDb) (user : CurrentUser) (campaignId emailId : Nat)
    (req : CampaignEmailUpdate) : Decidable (db.MayEdit user campaignId emailId req) := by
  unfold OutreachDb.MayEdit
  infer_instance

theorem OutreachDb.Edits.mayEdit {db : OutreachDb} {user : CurrentUser} {campaignId emailId : Nat}
    {req : CampaignEmailUpdate} (h : db.Edits user campaignId emailId req) :
    db.MayEdit user campaignId emailId req := by
  unfold OutreachDb.Edits updateCampaignEmail at h
  unfold OutreachDb.MayEdit
  split at h
  · cases h
  · rename_i campaign hopen
    split at h
    · cases h
    · rename_i hblank
      split at h
      · cases h
      · rename_i db' hupdate
        rw [hopen]
        exact ⟨rfl, Bool.eq_false_iff.mpr hblank, congrArg Prod.fst hupdate⟩

namespace CampaignSystem

/-- Every SENT email has been sent, and with the text that is stored. -/
def RecordsSent (s : CampaignSystem) : Prop :=
  ∀ k e, s.db.email? k = some e → e.status = .sent →
    (∃ m ∈ s.mails, m.emailId = k) ∧
      ∀ m ∈ s.mails, m.emailId = k → e.subject = m.subject ∧ e.body = m.body

/-- An accepted edit leaves alone what has been sent, and what a task holds a copy of. -/
def SparesSent (s : CampaignSystem) : CampaignAction → Prop
  | .service (.request user (.email campaignId emailId (.edit req))) =>
      s.db.MayEdit user campaignId emailId req →
        (∀ m ∈ s.mails, m.emailId = emailId → req.subject = m.subject ∧ req.body = m.body) ∧
          ∀ t ∈ s.service.tasks, ∀ copy ∈ t.pc.copy?, copy.id = emailId →
            req.subject = copy.subject ∧ req.body = copy.body
  | _ => True

/-- Nothing has been sent yet. -/
structure Unsent (s : CampaignSystem) : Prop where
  emails : ∀ k e, s.db.email? k = some e → e.status ≠ .sent
  mails : s.mails = []
  tasks : s.service.tasks = []

/-- The text that is stored, if the email is still there. -/
def Stores (s : CampaignSystem) (emailId : Nat) (subject body : String) : Prop :=
  emailId < s.db.campaignEmails.nextKey ∧
    ∀ e, s.db.email? emailId = some e → e.subject = subject ∧ e.body = body

/-- What has been sent and what is on its way is what is stored. -/
structure Recorded (s : CampaignSystem) : Prop where
  sent : ∀ k e, s.db.email? k = some e → e.status = .sent → ∃ m ∈ s.mails, m.emailId = k
  mailed : ∀ m ∈ s.mails, s.Stores m.emailId m.subject m.body
  held : ∀ t ∈ s.service.tasks, ∀ copy ∈ t.pc.copy?, s.Stores copy.id copy.subject copy.body

theorem Recorded.recordsSent {s : CampaignSystem} (h : s.Recorded) : s.RecordsSent := by
  intro k e he hsent
  refine ⟨h.sent k e he hsent, ?_⟩
  rintro m hm rfl
  exact (h.mailed m hm).2 e he

theorem Unsent.recorded {s : CampaignSystem} (h : s.Unsent) : s.Recorded where
  sent k e he hsent := absurd hsent (h.emails k e he)
  mailed m hm := by
    rw [h.mails] at hm
    cases hm
  held t ht := by
    rw [h.tasks] at ht
    cases ht

end CampaignSystem

/-! ### Where the copies come from -/

section Copies

variable {settings : DispatchSettings}

theorem copy?_afterCheck (r : Except Exc (List Credential)) : (CallPc.afterCheck r).copy? = none := by
  rcases r with e | creds
  · rfl
  · cases creds <;> rfl

theorem copy?_afterStatus (credIndex : Nat) (status : Option CampaignStatus) :
    (CallPc.afterStatus credIndex status).copy? = none := by
  rcases status with _ | status
  · rfl
  · cases status <;> rfl

theorem copy?_afterSend (job : Job) (r : Except Exc Unit) : (CallPc.afterSend job r).copy? = none := by
  cases r <;> rfl

/-- The credential is chosen for the copy that is there. -/
theorem copy?_afterPool {credIndex : Nat} {email copy : ClaimedEmail}
    {r : Except Exc (List Credential)} (h : copy ∈ (CallPc.afterPool credIndex email r).copy?) :
    copy = email := by
  unfold CallPc.afterPool at h
  split at h
  · cases h
  · split at h
    · cases h
    · exact (Option.some.inj h).symm

/-- The copy is made of the row that has been claimed. -/
theorem copy?_afterClaim {credIndex : Nat} {row : Option (Option CampaignEmail)} {copy : ClaimedEmail}
    (h : copy ∈ (CallPc.afterClaim credIndex row).copy?) :
    ∃ e, row = some (some e) ∧ e.id = copy.id ∧ e.subject = copy.subject ∧ e.body = copy.body := by
  rcases row with _ | _ | e
  · cases h
  · cases h
  · obtain rfl := Option.some.inj h
    exact ⟨e, rfl, rfl, rfl, rfl⟩

/-- A copy is the one the task had, or of the email it has just claimed. -/
theorem copy?_dispatchCall {db : OutreachDb} {campaignId : Nat} {now : Time} {pc : CallPc}
    {copy : ClaimedEmail} (h : copy ∈ (dispatchCall settings campaignId now (pc, db)).1.copy?) :
    copy ∈ pc.copy? ∨
      ∃ e, (dispatchCall settings campaignId now (pc, db)).2.email? copy.id = some e ∧
        e.subject = copy.subject ∧ e.body = copy.body := by
  cases pc with
  | queueing | completing | pausing | cancelling | stopped => cases h
  | counted queuedCount =>
      dsimp only [dispatchCall] at h
      split at h <;> cases h
  | draining =>
      dsimp only [dispatchCall] at h
      split at h <;> cases h
  | checking =>
      dsimp only [dispatchCall] at h
      rw [copy?_afterCheck] at h
      cases h
  | head credIndex =>
      dsimp only [dispatchCall] at h
      rw [copy?_afterStatus] at h
      cases h
  | claiming credIndex =>
      obtain ⟨e, hrow, hid, htext⟩ := copy?_afterClaim h
      obtain ⟨emailId, -, he⟩ := Option.map_eq_some_iff.mp hrow
      refine Or.inr ⟨e, ?_, htext⟩
      rw [← hid, OutreachDb.email?_id _ he]
      exact he
  | choosing credIndex email =>
      obtain rfl := copy?_afterPool h
      exact Or.inl rfl
  | sending job => exact Or.inl h

namespace Service

variable {mode : DispatchMode} {s s' : Service} {a : ServiceAction}

/-- A copy that a task of the next state holds was held before, or is of what is stored. -/
theorem copy_of_step (h : s.step mode settings a = some s') {t : CallTask} (ht : t ∈ s'.tasks)
    {copy : ClaimedEmail} (hcopy : copy ∈ t.pc.copy?) :
    (∃ t₀ ∈ s.tasks, copy ∈ t₀.pc.copy?) ∨
      ∃ e, s'.db.email? copy.id = some e ∧ e.subject = copy.subject ∧ e.body = copy.body := by
  cases comes_of_step h ht with
  | kept hold => exact Or.inl ⟨t, hold, hcopy⟩
  | started campaignId => cases hcopy
  | called hget hdb =>
      rename_i i t₀
      rcases copy?_dispatchCall hcopy with hold | ⟨e, he, htext⟩
      · exact Or.inl ⟨t₀, List.mem_of_getElem? hget, hold⟩
      · rw [← hdb] at he
        exact Or.inr ⟨e, he, htext⟩
  | sent campaignId job r =>
      rw [copy?_afterSend] at hcopy
      cases hcopy
  | crashed campaignId => cases hcopy

/-- What is sent is the copy of the task. -/
theorem mem_mailOf {m : SentMail} (hm : m ∈ s.mailOf a) :
    ∃ i campaignId job, a = .sent i (.ok ()) ∧ s.tasks[i]? = some ⟨campaignId, .sending job⟩ ∧
      m = ⟨job.email.id, job.email.subject, job.email.body⟩ := by
  unfold mailOf at hm
  split at hm
  · rename_i i
    split at hm
    · rename_i campaignId job hget
      exact ⟨i, campaignId, job, rfl, hget, List.mem_singleton.mp hm⟩
    · cases hm
  · cases hm

end Service

end Copies

/-! ### Steps -/

/-- Every email of `db'` has the text it had in `db`, or is a new draft. -/
structure Carries (marked : Nat → Prop) (db db' : OutreachDb) : Prop where
  rows : ∀ k e', db'.email? k = some e' →
    (∃ e, db.email? k = some e ∧ e'.subject = e.subject ∧ e'.body = e.body ∧
        (e'.status = .sent → e.status = .sent ∨ marked k)) ∨
      db.campaignEmails.nextKey ≤ k ∧ e'.status ≠ .sent
  emailKey : db.campaignEmails.nextKey ≤ db'.campaignEmails.nextKey

theorem Keeps.carries {lower : String → String} {marked : Nat → Prop} {db db' : OutreachDb}
    (h : Keeps lower marked db db') : Carries marked db db' where
  rows k e' he' := by
    obtain ⟨e, he, hletter, hsent⟩ := h.rows k e' he'
    exact Or.inl ⟨e, he, congrArg Letter.subject hletter, congrArg Letter.body hletter, hsent⟩
  emailKey := Nat.le_of_eq h.emailKey.symm

theorem Extends.carries {c : Nat} {emails : List OutreachDb.StagedEmail} {db db' : OutreachDb}
    (h : Extends c emails db db') (marked : Nat → Prop) : Carries marked db db' where
  rows k e' he' := by
    rcases h.appends.rows k e' he' with hold | ⟨i, e, -, rfl, -, hdraft⟩
    · exact Or.inl ⟨e', hold, rfl, rfl, Or.inl⟩
    · refine Or.inr ⟨Nat.le_add_right _ i, ?_⟩
      rw [hdraft]
      nofun
  emailKey := by
    rw [h.appends.emailKey]
    exact Nat.le_add_right _ _

theorem Carries.trans {marked : Nat → Prop} {db db' db'' : OutreachDb} (h : Carries marked db db')
    (h' : Carries (fun _ => False) db' db'') : Carries marked db db'' where
  rows k e'' he'' := by
    rcases h'.rows k e'' he'' with ⟨e', he', hsubject', hbody', hsent'⟩ | ⟨hle, hnot⟩
    · rcases h.rows k e' he' with ⟨e, he, hsubject, hbody, hsent⟩ | ⟨hle, hnot⟩
      · refine Or.inl ⟨e, he, hsubject'.trans hsubject, hbody'.trans hbody, fun hstatus => ?_⟩
        exact hsent ((hsent' hstatus).resolve_right id)
      · exact Or.inr ⟨hle, fun hstatus => hnot ((hsent' hstatus).resolve_right id)⟩
    · exact Or.inr ⟨Nat.le_trans h.emailKey hle, hnot⟩
  emailKey := Nat.le_trans h.emailKey h'.emailKey

namespace CampaignSystem

variable {mode : DispatchMode} {settings : DispatchSettings} {jinja : Jinja}
  {s s' : CampaignSystem}

theorem Stores.carries {marked : Nat → Prop} {emailId : Nat} {subject body : String}
    (h : s.Stores emailId subject body) (hdb : Carries marked s.db s'.db) :
    s'.Stores emailId subject body := by
  refine ⟨Nat.lt_of_lt_of_le h.1 hdb.emailKey, fun e' he' => ?_⟩
  rcases hdb.rows emailId e' he' with ⟨e, he, hsubject, hbody, -⟩ | ⟨hle, -⟩
  · rw [hsubject, hbody]
    exact h.2 e he
  · exact absurd hle (Nat.not_le.mpr h.1)

/-- **A step that edits nothing.**  What is new on record is a copy that was held, and what is new
among the copies is of what is stored. -/
theorem Recorded.carries (h : s.Recorded) {marked : Nat → Prop} (hdb : Carries marked s.db s'.db)
    (hmarked : ∀ k, marked k → ∃ m ∈ s'.mails, m.emailId = k) (hmore : ∀ m ∈ s.mails, m ∈ s'.mails)
    (hmails : ∀ m ∈ s'.mails, m ∈ s.mails ∨ ∃ t ∈ s.service.tasks, ∃ copy ∈ t.pc.copy?,
      m = ⟨copy.id, copy.subject, copy.body⟩)
    (htasks : ∀ t ∈ s'.service.tasks, ∀ copy ∈ t.pc.copy?,
      (∃ t₀ ∈ s.service.tasks, copy ∈ t₀.pc.copy?) ∨
        ∃ e, s'.db.email? copy.id = some e ∧ e.subject = copy.subject ∧ e.body = copy.body) :
    s'.Recorded := by
  refine ⟨?_, ?_, ?_⟩
  · intro k e' he' hstatus
    rcases hdb.rows k e' he' with ⟨e, he, -, -, hsent⟩ | ⟨-, hnot⟩
    · rcases hsent hstatus with hwas | hmark
      · obtain ⟨m, hm, hk⟩ := h.sent k e he hwas
        exact ⟨m, hmore m hm, hk⟩
      · exact hmarked k hmark
    · exact absurd hstatus hnot
  · intro m hm
    rcases hmails m hm with hold | ⟨t, ht, copy, hcopy, rfl⟩
    · exact (h.mailed m hold).carries hdb
    · exact (h.held t ht copy hcopy).carries hdb
  · intro t ht copy hcopy
    rcases htasks t ht copy hcopy with ⟨t₀, ht₀, hold⟩ | ⟨e, he, htext⟩
    · exact (h.held t₀ ht₀ copy hold).carries hdb
    · refine ⟨Table.lt_nextKey_of_get? he, fun e' he' => ?_⟩
      obtain rfl := Option.some.inj (he.symm.trans he')
      exact htext

/-- What an action of the service that edits nothing does. -/
theorem Recorded.served (h : s.Recorded) {a : ServiceAction} {marked : Nat → Prop}
    (hstep : s.service.step mode settings a = some s'.service)
    (hmails : s'.mails = s.mails ++ s.service.mailOf a) (hdb : Carries marked s.db s'.db)
    (hmarked : ∀ k, marked k → ∃ m ∈ s.service.mailOf a, m.emailId = k) : s'.Recorded := by
  refine h.carries hdb ?_ ?_ ?_ fun t ht copy hcopy => Service.copy_of_step hstep ht hcopy
  · intro k hk
    obtain ⟨m, hm, hid⟩ := hmarked k hk
    rw [hmails]
    exact ⟨m, List.mem_append_right _ hm, hid⟩
  · intro m hm
    rw [hmails]
    exact List.mem_append_left _ hm
  · intro m hm
    rw [hmails] at hm
    rcases List.mem_append.mp hm with hold | hnew
    · exact Or.inl hold
    · obtain ⟨i, campaignId, job, -, hget, rfl⟩ := Service.mem_mailOf hnew
      exact Or.inr ⟨_, List.mem_of_getElem? hget, job.email, rfl, rfl⟩

/-- What a request that only adds emails does. -/
theorem Recorded.added (h : s.Recorded) (hdb : Carries (fun _ => False) s.db s'.db)
    (htasks : s'.service.tasks = s.service.tasks) (hmails : s'.mails = s.mails) : s'.Recorded := by
  refine h.carries hdb (fun _ => False.elim) ?_ ?_ ?_
  · intro m hm
    rwa [hmails]
  · intro m hm
    rw [hmails] at hm
    exact Or.inl hm
  · intro t ht copy hcopy
    rw [htasks] at ht
    exact Or.inl ⟨t, ht, hcopy⟩

/-- An edit that leaves the text on record alone. -/
theorem Stores.updateEmail {emailId k : Nat} {newSubject newBody subject body : String}
    (h : s.Stores k subject body)
    (hdb : s'.db = (s.db.updateEmail emailId newSubject newBody).2)
    (hspares : k = emailId → newSubject = subject ∧ newBody = body) : s'.Stores k subject body := by
  unfold Stores
  rw [hdb]
  refine ⟨h.1, fun e' he' => ?_⟩
  rw [OutreachDb.email?_updateEmail] at he'
  by_cases hk : k = emailId
  · rw [if_pos hk] at he'
    obtain ⟨e, -, rfl⟩ := Option.map_eq_some_iff.mp he'
    exact hspares hk
  · rw [if_neg hk] at he'
    exact h.2 e' he'

theorem Recorded.edits (h : s.Recorded) {emailId : Nat} {newSubject newBody : String}
    (hdb : s'.db = (s.db.updateEmail emailId newSubject newBody).2)
    (htasks : s'.service.tasks = s.service.tasks) (hmails : s'.mails = s.mails)
    (hsent : ∀ m ∈ s.mails, m.emailId = emailId → newSubject = m.subject ∧ newBody = m.body)
    (hheld : ∀ t ∈ s.service.tasks, ∀ copy ∈ t.pc.copy?, copy.id = emailId →
      newSubject = copy.subject ∧ newBody = copy.body) : s'.Recorded := by
  refine ⟨?_, ?_, ?_⟩
  · intro k e' he' hstatus
    rw [hmails]
    rw [hdb, OutreachDb.email?_updateEmail] at he'
    split_ifs at he'
    · obtain ⟨e, he, rfl⟩ := Option.map_eq_some_iff.mp he'
      exact h.sent k e he hstatus
    · exact h.sent k e' he' hstatus
  · intro m hm
    rw [hmails] at hm
    exact (h.mailed m hm).updateEmail hdb (hsent m hm)
  · intro t ht copy hcopy
    rw [htasks] at ht
    exact (h.held t ht copy hcopy).updateEmail hdb (hheld t ht copy hcopy)

/-- **One step.** -/
theorem recorded_step {a : CampaignAction} (h : s.Recorded) (hspares : s.SparesSent a)
    (hstep : s.step mode settings jinja a = some s') : s'.Recorded := by
  cases effect_of_step hstep with
  | served hservice hno hmails hlog =>
      cases Service.writes_of_step hservice with
      | keeps hkeeps => exact h.served hservice hmails hkeeps.carries fun _ => False.elim
      | marks hget hkeeps =>
          rename_i i campaignId job
          refine h.served hservice hmails hkeeps.carries ?_
          rintro k rfl
          unfold Service.mailOf
          dsimp only
          rw [hget]
          exact ⟨_, List.mem_singleton_self _, rfl⟩
      | edits hadmitted hdb htasks =>
          obtain ⟨hsent, hheld⟩ := hspares hadmitted.mayEdit
          exact h.edits hdb htasks (hmails.trans (List.append_nil _)) hsent hheld
      | stages hdb htasks => exact absurd rfl (hno _ _ _ _)
  | keeps hno hkeeps htasks hmails hlog => exact h.added hkeeps.carries htasks hmails
  | tests hno hext hkind htasks hmails hlog => exact h.added (hext.carries _) htasks hmails
  | stages hno hbefore hstaged hrenders hafter htasks hmails hlog =>
      obtain ⟨emails, hext⟩ := hstaged
      rw [hbefore] at hext
      exact h.added ((hext.carries _).trans hafter.carries) htasks hmails

end CampaignSystem

/-- One campaign, with one draft. -/
def oneDraftSystem : CampaignSystem where
  service := .init (seconds 1) (sharedMailbox 1)
  templates := .empty
  stagings := []
  mails := []

theorem unsent_oneDraftSystem : oneDraftSystem.Unsent where
  emails k e he := by
    have hrow : e ∈ (sharedMailbox 1).campaignEmails.rows := Table.get?_mem he
    obtain rfl := List.mem_singleton.mp hrow
    nofun
  mails := rfl
  tasks := rfl

def editClerk : CampaignAction :=
  .service (.request admin (.email 1 1 (.edit ⟨"Hello again", "Dear Sir or Madam"⟩)))

/-- The campaign is dispatched, and its email sent. -/
def dispatchClerk : List CampaignAction :=
  [.service (.request admin (.dispatch 1)), .service (.call 0), .service (.call 0),
    .service (.call 0), .service (.call 0), .service (.call 0), .service (.call 0),
    .service (.sent 0 (.ok ()))]

end GovCrawler
