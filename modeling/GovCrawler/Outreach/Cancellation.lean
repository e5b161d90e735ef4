/-
Whether CANCELLED is final.

`cancelled_is_final`: once a campaign has been CANCELLED, none of its emails goes from
QUEUED to SENDING, in whatever order requests, sweeps, polls and the calls of the dispatch
tasks come, as long as nothing overwrites the status and the cancellation does not come
between a task's look at the status and its claim.  The status is overwritten where a
dispatch is accepted, which refuses a RUNNING campaign only, where a PATCH sets another
status, which looks at no status at all, and where a task closes the campaign without
having looked.  `cancelled_campaign_dispatched` does the first.

The invariant is that no task of a CANCELLED campaign is about to claim.
-/
import GovCrawler.Outreach.DispatchTasks
import GovCrawler.Outreach.Service

namespace GovCrawler

open Relational StoreProgram Prog DispatchM Transition

/-! ### The status of a campaign -/

namespace OutreachDb

/-- The status of a campaign, if there is one of that id. -/
def campaignStatus (db : OutreachDb) (campaignId : Nat) : Option CampaignStatus :=
  (db.campaigns.get? campaignId).map Campaign.status

theorem campaignStatus_updateCampaignStatus (db : OutreachDb) (c : Nat) (status : CampaignStatus)
    (reason : Option String) (k : Nat) :
    (db.updateCampaignStatus c status reason).2.campaignStatus k =
      if k = c then (db.campaignStatus k).map fun _ => status else db.campaignStatus k := by
  unfold campaignStatus updateCampaignStatus
  dsimp only
  rw [Table.get?_updateWhere]
  cases hget : db.campaigns.get? k with
  | none => by_cases hk : k = c <;> simp [hk]
  | some campaign =>
      have hid : campaign.id = k := Table.get?_key hget
      by_cases hk : k = c
      · simp [hid, hk]
      · simp [hid, hk]

end OutreachDb

theorem CampaignStatus.ofValue_cancelled {value : String}
    (h : CampaignStatus.ofValue value = some .cancelled) : value = "CANCELLED" := by
  unfold CampaignStatus.ofValue at h
  split at h
  · cases h
  · cases h
  · rfl
  · cases h
  · cases h

/-- No email has become SENDING. -/
def SendsNothing (db db' : OutreachDb) : Prop :=
  ∀ k, db'.emailStatus k = db.emailStatus k ∨ db'.emailStatus k ≠ some .sending

theorem SendsNothing.trans {db db' db'' : OutreachDb} (h : SendsNothing db db')
    (h' : SendsNothing db' db'') : SendsNothing db db'' := by
  intro k
  rcases h' k with hsame | hnot
  · rw [hsame]
    exact h k
  · exact Or.inr hnot

theorem sendsNothing_updateEmails (db : OutreachDb) (p : CampaignEmail → Bool)
    (f : CampaignEmail → CampaignEmail) (hf : ∀ e, (f e).id = e.id)
    (hstatus : ∀ e, p e = true → (f e).status = e.status ∨ (f e).status ≠ .sending) :
    SendsNothing db (db.updateEmails p f hf) := by
  intro k
  rw [OutreachDb.emailStatus_updateEmails, OutreachDb.emailStatus_eq]
  cases db.email? k with
  | none => exact Or.inl rfl
  | some e =>
      rw [Option.map_some, Option.map_some]
      by_cases hp : p e = true
      · rw [if_pos hp]
        exact (hstatus e hp).imp (congrArg some) fun hnot h => hnot (Option.some.inj h)
      · rw [if_neg hp]
        exact Or.inl rfl

theorem sendsNothing_write (db : OutreachDb) (emailId : Nat) (req : EmailRequest) :
    SendsNothing db (req.write db emailId) := by
  cases req with
  | edit r =>
      show SendsNothing db (db.updateEmail emailId r.subject r.body).2
      unfold OutreachDb.updateEmail
      exact sendsNothing_updateEmails db _ _ (by intro _; rfl) (by intro _ _; exact Or.inl rfl)
  | select r =>
      show SendsNothing db (db.setEmailSelection emailId r.isSelected).2
      unfold OutreachDb.setEmailSelection
      split
      · exact fun _ => Or.inl rfl
      · split
        · exact sendsNothing_updateEmails db _ _ (by intro _; rfl)
            (by intro _ _; exact Or.inl rfl)
        · refine sendsNothing_updateEmails db _ _ (by intro _; rfl) fun e _ => ?_
          dsimp only
          cases r.isSelected with
          | true => exact Or.inl rfl
          | false => exact Or.inr nofun
        · exact fun _ => Or.inl rfl
  | delete =>
      intro k
      have hrow : (EmailRequest.delete.write db emailId).emailStatus k =
          ((db.email? k).filter fun e => !(e.id == emailId && e.status == .draft)).map
            CampaignEmail.status :=
        congrArg (Option.map CampaignEmail.status) (db.email?_deleteCampaignEmail emailId k)
      rw [hrow, OutreachDb.emailStatus_eq]
      cases db.email? k with
      | none => exact Or.inl rfl
      | some e =>
          rw [Option.filter_some]
          split
          · exact Or.inl rfl
          · exact Or.inr fun h => by cases h

theorem sendsNothing_setAllEmailSelection (db : OutreachDb) (c : Nat) (isSelected : Bool) :
    SendsNothing db (db.setAllEmailSelection c isSelected).2 := by
  have hdrafts := sendsNothing_updateEmails db
    (fun e => e.campaignId == c && e.status == .draft) (fun e => { e with isSelected })
    (by intro _; rfl) (by intro _ _; exact Or.inl rfl)
  unfold OutreachDb.setAllEmailSelection
  dsimp only
  cases isSelected with
  | true => exact hdrafts
  | false =>
      simp only [Bool.false_eq_true, if_false]
      exact hdrafts.trans
        (sendsNothing_updateEmails _ _ _ (by intro _; rfl)
          (by intro _ _; exact Or.inr (by rintro ⟨⟩)))

/-- The campaign keeps its status, and none of its emails is claimed. -/
structure Calm (c : Nat) (db db' : OutreachDb) : Prop where
  status : db'.campaignStatus c = db.campaignStatus c
  unclaimed : ∀ k e, db.email? k = some e → e.campaignId = c → e.status = .queued →
    db'.emailStatus k ≠ some .sending

section Calm

variable {c : Nat} {db db' : OutreachDb}

theorem unclaimed_of_rows (hrows : SendsNothing db db') (k : Nat) (e : CampaignEmail)
    (he : db.email? k = some e) (hqueued : e.status = .queued) :
    db'.emailStatus k ≠ some .sending := by
  rcases hrows k with hsame | hnot
  · rw [hsame, OutreachDb.emailStatus_eq, he, Option.map_some, hqueued]
    nofun
  · exact hnot

/-- What leaves the campaigns alone and puts no email in SENDING is calm. -/
theorem Calm.of_rows (hcampaigns : db'.campaigns = db.campaigns) (hrows : SendsNothing db db') :
    Calm c db db' where
  status := by
    unfold OutreachDb.campaignStatus
    rw [hcampaigns]
  unclaimed k e he _ hqueued := unclaimed_of_rows hrows k e he hqueued

theorem Calm.refl (c : Nat) (db : OutreachDb) : Calm c db db :=
  .of_rows rfl fun _ => Or.inl rfl

/-- The status of another campaign is set. -/
theorem calm_updateCampaignStatus {k : Nat} (hk : k ≠ c) (status : CampaignStatus)
    (reason : Option String) : Calm c db (db.updateCampaignStatus k status reason).2 where
  status := by rw [OutreachDb.campaignStatus_updateCampaignStatus, if_neg (Ne.symm hk)]
  unclaimed k e he _ hqueued := unclaimed_of_rows (fun _ => Or.inl rfl) k e he hqueued

/-- A claim writes no campaign. -/
theorem campaigns_claimRounds (db : OutreachDb) (k : Nat) (now : Time) :
    (OutreachDb.claimRounds k now 5 db).2.campaigns = db.campaigns := by
  rcases db.claimRounds_cases k now 4 with ⟨-, hnone⟩ | ⟨e, -, -, hclaim, -⟩
  · rw [hnone]
  · rw [hclaim]
    dsimp only
    unfold OutreachDb.claimOnce
    split
    · rfl
    · rfl

theorem calm_claimRounds {k : Nat} (hk : k ≠ c) (now : Time) :
    Calm c db (OutreachDb.claimRounds k now 5 db).2 := by
  have hcampaigns := campaigns_claimRounds db k now
  rcases db.claimRounds_cases k now 4 with ⟨-, hnone⟩ | ⟨e, hget, hq, hclaim, hrows⟩
  · rw [hnone]
    exact Calm.refl c db
  · rw [hclaim] at hcampaigns ⊢
    refine ⟨?_, fun i r hr hcampaign hqueued => ?_⟩
    · unfold OutreachDb.campaignStatus
      rw [hcampaigns]
    · have hne : i ≠ e.id := by
        rintro rfl
        rw [hget] at hr
        obtain rfl := Option.some.inj hr
        simp only [OutreachDb.hasStatus, Bool.and_eq_true, beq_iff_eq] at hq
        exact hk (hq.1.symm.trans hcampaign)
      rw [OutreachDb.emailStatus_eq, hrows, if_neg hne, hr, Option.map_some, hqueued]
      rintro ⟨⟩

theorem campaigns_addToBlacklist (lower : String → String) (db : OutreachDb)
    (email domain : String) (reason : Option String) :
    (db.addToBlacklist lower email domain reason).2.campaigns = db.campaigns := by
  unfold OutreachDb.addToBlacklist
  split_ifs
  · rfl
  · rfl

/-- The handlers of a send write no campaign. -/
theorem Handler.preserves_campaigns {settings : DispatchSettings} {job : Job} {rejects : Bool}
    {status : Option EmailStatus} {m : DispatchM Unit} (h : Handler settings job rejects status m)
    (campaigns : Table Campaign) : Preserves (fun s : Store => s.db.campaigns = campaigns) m := by
  cases h with
  | disables =>
      exact preserves_bind (preserves_write fun _ h => h) fun _ => preserves_write fun _ h => h
  | coolsDown until_ =>
      exact preserves_bind (preserves_write fun _ h => h) fun _ => preserves_write fun _ h => h
  | bounces reason =>
      exact preserves_bind
        (preserves_write fun s h => (campaigns_addToBlacklist _ s.db _ _ _).trans h)
        fun _ => preserves_write fun _ h => h
  | fails message => exact preserves_write fun _ h => h
  | raises e => exact preserves_raise e

theorem preserves_campaigns_trySend (settings : DispatchSettings) (job : Job) (now : Time)
    (sent : Except Exc Unit) (campaigns : Table Campaign) :
    Preserves (fun s : Store => s.db.campaigns = campaigns) (trySend settings job now sent) :=
  preserves_tryExcept
    (preserves_bind (preserves_ofExcept _) fun _ => preserves_write fun _ h => h)
    fun e => (handler_handleException settings job now e).preserves_campaigns campaigns

/-- A send that has ended puts its email in some other status than SENDING, or leaves it. -/
theorem calm_trySend (settings : DispatchSettings) (job : Job) (now : Time)
    (sent : Except Exc Unit) : Calm c db (trySend settings job now sent ⟨db, []⟩ []).2.1.db := by
  have hput : ∀ (status : EmailStatus) k, status ≠ .sending →
      (if k = job.email.id then (db.emailStatus k).map fun _ => status else db.emailStatus k) =
        db.emailStatus k ∨
      (if k = job.email.id then (db.emailStatus k).map fun _ => status else db.emailStatus k) ≠
        some .sending := by
    intro status k hstatus
    by_cases hk : k = job.email.id
    · rw [if_pos hk]
      refine Or.inr ?_
      cases db.emailStatus k with
      | none => nofun
      | some old => exact fun h => hstatus (Option.some.inj h)
    · rw [if_neg hk]
      exact Or.inl rfl
  refine .of_rows (preserves_campaigns_trySend settings job now sent db.campaigns ⟨db, []⟩ [] rfl) ?_
  cases sent with
  | ok u =>
      rw [trySend_ok]
      intro k
      rw [OutreachDb.emailStatus_markEmailSent]
      exact hput .sent k nofun
  | error e =>
      rw [trySend_error]
      cases hs : handledStatus e with
      | none =>
          obtain ⟨refused, rfl⟩ := handledStatus_eq_none_iff.mp hs
          exact fun _ => Or.inl rfl
      | some status =>
          obtain ⟨s, hrun, hset⟩ := handleException_run settings job now ⟨db, []⟩ hs
          rw [hrun]
          intro k
          rw [hset.rows k]
          refine hput status k ?_
          rcases handledStatus_eq_some hs with rfl | rfl
          · nofun
          · nofun

theorem calm_serveEmailRequest (user : CurrentUser) (campaignId emailId : Nat)
    (req : EmailRequest) : Calm c db (serveEmailRequest db user campaignId emailId req).2 := by
  rcases serveEmailRequest_write db user campaignId emailId req with h | h
  · rw [h]
    exact Calm.refl c db
  · rw [h]
    refine .of_rows ?_ (sendsNothing_write db emailId req)
    cases req with
    | edit r => rfl
    | delete => rfl
    | select r =>
        unfold EmailRequest.write OutreachDb.setEmailSelection
        dsimp only
        split
        · rfl
        · split <;> rfl

theorem calm_bulkToggle (user : CurrentUser) (campaignId : Nat) (req : EmailSelectionUpdate) :
    Calm c db (bulkToggleEmailSelection db user campaignId req).2 := by
  unfold bulkToggleEmailSelection
  split
  · exact Calm.refl c db
  · refine .of_rows ?_ (sendsNothing_setAllEmailSelection db campaignId req.isSelected)
    unfold OutreachDb.setAllEmailSelection
    split_ifs
    · rfl
    · rfl

theorem calm_bulkCreate (campaignId : Nat) (emails : List OutreachDb.StagedEmail) :
    Calm c db (db.bulkCreateCampaignEmails campaignId emails).2 := by
  refine .of_rows rfl fun k => ?_
  refine (db.emailStatus_bulkCreateCampaignEmails campaignId emails k).imp_right fun h => ?_
  rw [h]
  nofun

theorem calm_recoverStuckSending (threshold : Nat) (now : Time) :
    Calm c db (db.recoverStuckSending threshold now).2 :=
  .of_rows rfl
    (sendsNothing_updateEmails db _ _ (by intro _; rfl)
          (by intro _ _; exact Or.inr (by rintro ⟨⟩)))

end Calm

/-! ### What can go wrong -/

/-- The status has been read, and the claim is next. -/
def CallPc.isClaiming : CallPc → Bool
  | .claiming _ => true
  | _ => false

/-- The campaign's status is written next. -/
def CallPc.isClosing : CallPc → Bool
  | .completing | .pausing _ => true
  | _ => false

namespace Service

def Cancelled (c : Nat) (s : Service) : Prop := s.db.campaignStatus c = some .cancelled

instance (c : Nat) (s : Service) : Decidable (s.Cancelled c) :=
  inferInstanceAs (Decidable (_ = _))

/-- An email of the campaign goes from QUEUED to SENDING. -/
def Claims (c : Nat) (s s' : Service) : Prop :=
  ∃ k e, s.db.email? k = some e ∧ e.campaignId = c ∧ e.status = .queued ∧
    s'.db.emailStatus k = some .sending

/-- No task of the campaign is between its look at the status and its claim. -/
def NoneClaiming (c : Nat) (s : Service) : Prop :=
  ∀ t ∈ s.tasks, t.campaignId = c → t.pc.isClaiming = false

instance (c : Nat) (s : Service) : Decidable (s.NoneClaiming c) := by
  unfold NoneClaiming
  infer_instance

/-- A step neither sets a CANCELLED campaign to another status nor cancels it while one of its
tasks is about to claim. -/
def HonoursCancel (settings : DispatchSettings) (c : Nat) (s : Service) : ServiceAction → Prop
  | .request user (.dispatch campaignId) =>
      campaignId = c → s.Cancelled c →
        (dispatchCampaign settings s.db user campaignId s.now).isOk = false
  | .request user (.setStatus campaignId status) =>
      campaignId = c → (patchCampaignStatus s.db user campaignId status).isOk = true →
        (s.Cancelled c → status = "CANCELLED") ∧ (status = "CANCELLED" → s.NoneClaiming c)
  | .call i =>
      ∀ t ∈ s.tasks[i]?, t.campaignId = c → t.pc.isClosing = true → ¬ s.Cancelled c
  | _ => True

instance (settings : DispatchSettings) (c : Nat) (s : Service) :
    ∀ a, Decidable (s.HonoursCancel settings c a)
  | .request _ (.dispatch _) | .request _ (.setStatus _ _) | .call _ => by
      unfold HonoursCancel
      infer_instance
  | .request _ (.email _ _ _) | .request _ (.selectAll _ _) | .tick _ | .addEmails _ _ _ _
  | .poll _ | .sweep | .credentials _ _ | .sent _ _ | .crash _ => .isTrue trivial

/-- **The invariant**: no task of a CANCELLED campaign is about to claim. -/
def ClaimsUncancelled (c : Nat) (s : Service) : Prop := s.Cancelled c → s.NoneClaiming c

variable {mode : DispatchMode} {settings : DispatchSettings} {c : Nat} {s s' : Service}

/-- What a step does to the campaign: nothing, or it sets the status, or it is the claim of one
of its tasks. -/
inductive Effect (settings : DispatchSettings) (c : Nat) (s s' : Service) : ServiceAction → Prop
  | calm {a : ServiceAction} (h : Calm c s.db s'.db) : Effect settings c s s' a
  | dispatched {user : CurrentUser}
      (haccepted : (dispatchCampaign settings s.db user c s.now).isOk = true)
      (hdb : s'.db = (s.db.updateCampaignStatus c .running none).2) :
      Effect settings c s s' (.request user (.dispatch c))
  | set {user : CurrentUser} {value : String} {status : CampaignStatus}
      (haccepted : (patchCampaignStatus s.db user c value).isOk = true)
      (hvalue : CampaignStatus.ofValue value = some status)
      (hdb : s'.db = (s.db.updateCampaignStatus c status none).2) (htasks : s'.tasks = s.tasks) :
      Effect settings c s s' (.request user (.setStatus c value))
  | closed {i : Nat} {t : CallTask} (hget : s.tasks[i]? = some t) (hcampaign : t.campaignId = c)
      (hpc : t.pc.isClosing = true) (status : CampaignStatus) (hstatus : status ≠ .cancelled)
      (reason : Option String)
      (hdb : s'.db = (s.db.updateCampaignStatus c status reason).2) :
      Effect settings c s s' (.call i)
  | claim {i : Nat} {t : CallTask} (hget : s.tasks[i]? = some t) (hcampaign : t.campaignId = c)
      (hpc : t.pc.isClaiming = true) (hstatus : s'.db.campaignStatus c = s.db.campaignStatus c) :
      Effect settings c s s' (.call i)

theorem effect_serve (user : CurrentUser) (req : Request) :
    Effect settings c s (s.serve mode settings user req) (.request user req) := by
  cases req with
  | email campaignId emailId req => exact .calm (calm_serveEmailRequest user campaignId emailId req)
  | selectAll campaignId req => exact .calm (calm_bulkToggle user campaignId req)
  | dispatch campaignId =>
      unfold serve
      dsimp only
      split
      · exact .calm (Calm.refl c s.db)
      · rename_i db haccepted
        have hdb := dispatchCampaign_eq_ok haccepted
        by_cases hc : campaignId = c
        · subst hc
          exact .dispatched (by rw [haccepted]; rfl) hdb
        · refine .calm ?_
          rw [hdb]
          exact calm_updateCampaignStatus hc _ _
  | setStatus campaignId value =>
      unfold serve
      dsimp only
      split
      · exact .calm (Calm.refl c s.db)
      · rename_i db haccepted
        obtain ⟨status, hvalue, hdb⟩ := patchCampaignStatus_eq_ok haccepted
        by_cases hc : campaignId = c
        · subst hc
          exact .set (by rw [haccepted]; rfl) hvalue hdb rfl
        · refine .calm ?_
          rw [hdb]
          exact calm_updateCampaignStatus hc _ _

theorem effect_call {i : Nat} {t : CallTask} (hget : s.tasks[i]? = some t)
    (hdb : s'.db = (dispatchCall settings t.campaignId s.now (t.pc, s.db)).2) :
    Effect settings c s s' (.call i) := by
  have hsame : s'.db = s.db → Effect settings c s s' (.call i) := by
    intro h
    exact .calm (by rw [h]; exact Calm.refl c s.db)
  obtain ⟨campaignId, pc⟩ := t
  cases pc with
  | queueing =>
      refine .calm ?_
      rw [hdb]
      exact .of_rows rfl
        (sendsNothing_updateEmails s.db _ _ (by intro _; rfl)
          (by intro _ _; exact Or.inr (by rintro ⟨⟩)))
  | cancelling =>
      refine .calm ?_
      rw [hdb]
      exact .of_rows rfl
        (sendsNothing_updateEmails s.db _ _ (by intro _; rfl)
          (by intro _ _; exact Or.inr (by rintro ⟨⟩)))
  | completing =>
      by_cases hc : campaignId = c
      · subst hc
        exact .closed hget rfl rfl .completed nofun none hdb
      · refine .calm ?_
        rw [hdb]
        exact calm_updateCampaignStatus hc _ _
  | pausing reason =>
      by_cases hc : campaignId = c
      · subst hc
        exact .closed hget rfl rfl .paused nofun reason hdb
      · refine .calm ?_
        rw [hdb]
        exact calm_updateCampaignStatus hc _ _
  | claiming credIndex =>
      by_cases hc : campaignId = c
      · refine .claim hget hc rfl ?_
        rw [hdb]
        exact congrArg (fun t : Table Campaign => (t.get? c).map Campaign.status)
          (campaigns_claimRounds _ campaignId s.now)
      · refine .calm ?_
        rw [hdb]
        exact calm_claimRounds hc s.now
  | counted n => exact hsame hdb
  | checking => exact hsame hdb
  | head credIndex => exact hsame hdb
  | draining => exact hsame hdb
  | choosing credIndex email => exact hsame hdb
  | sending job => exact hsame hdb
  | stopped => exact hsame hdb

/-- **One step**, as the campaign sees it. -/
theorem effect_step {a : ServiceAction} (h : s.step mode settings a = some s') :
    Effect settings c s s' a := by
  cases a with
  | tick span =>
      obtain rfl := Option.some.inj h
      exact .calm (Calm.refl c s.db)
  | request user req =>
      obtain rfl := Option.some.inj h
      exact effect_serve user req
  | addEmails user campaignId leadIds rendered =>
      refine .calm ?_
      dsimp only [step] at h
      split at h
      · obtain rfl := Option.some.inj h
        exact Calm.refl c s.db
      · rename_i n db haccepted
        obtain rfl := Option.some.inj h
        obtain ⟨emails, -, hr⟩ := addEmailsToCampaign_eq_ok haccepted
        obtain ⟨-, rfl⟩ := Prod.mk.inj hr
        exact calm_bulkCreate campaignId emails
  | poll campaignId =>
      dsimp only [step] at h
      split at h
      · obtain rfl := Option.some.inj h
        exact .calm (Calm.refl c s.db)
      · cases h
  | sweep =>
      obtain rfl := Option.some.inj h
      exact .calm (calm_recoverStuckSending _ _)
  | credentials smtpCredentials campaignCredentials =>
      obtain rfl := Option.some.inj h
      exact .calm (.of_rows rfl fun _ => Or.inl rfl)
  | call i =>
      dsimp only [step] at h
      split at h
      · cases h
      · rename_i t hget
        obtain rfl := Option.some.inj h
        exact effect_call hget rfl
  | sent i outcome =>
      dsimp only [step] at h
      split at h
      · obtain rfl := Option.some.inj h
        exact .calm (calm_trySend settings _ s.now outcome)
      · cases h
  | crash i =>
      dsimp only [step] at h
      split at h
      · cases h
      · obtain rfl := Option.some.inj h
        exact .calm (Calm.refl c s.db)

theorem isClaiming_afterCheck (r : Except Exc (List Credential)) :
    (CallPc.afterCheck r).isClaiming = false := by
  unfold CallPc.afterCheck
  split <;> rfl

theorem isClaiming_afterClaim (credIndex : Nat) (r : Option (Option CampaignEmail)) :
    (CallPc.afterClaim credIndex r).isClaiming = false := by
  unfold CallPc.afterClaim
  split <;> rfl

theorem isClaiming_afterPool (credIndex : Nat) (email : ClaimedEmail)
    (r : Except Exc (List Credential)) :
    (CallPc.afterPool credIndex email r).isClaiming = false := by
  unfold CallPc.afterPool
  split
  · rfl
  · split <;> rfl

theorem isClaiming_afterSend (job : Job) (r : Except Exc Unit) :
    (CallPc.afterSend job r).isClaiming = false := by
  cases r <;> rfl

/-- Step a lets a task claim next only where the campaign is not CANCELLED. -/
theorem isClaiming_afterStatus {credIndex : Nat} {db : OutreachDb}
    (h : (CallPc.afterStatus credIndex
      ((db.getCampaign c none false).map Campaign.status)).isClaiming = true) :
    db.campaignStatus c ≠ some .cancelled := by
  intro hcancelled
  obtain ⟨campaign, hget, hstatus⟩ := Option.map_eq_some_iff.mp hcancelled
  unfold OutreachDb.getCampaign at h
  rw [hget, Option.filter_some] at h
  split at h
  · rw [Option.map_some, hstatus] at h
    cases h
  · cases h

/-- A call makes a task claim next only where the campaign is not CANCELLED. -/
theorem isClaiming_dispatchCall {now : Time} {pc : CallPc} {db : OutreachDb}
    (h : (dispatchCall settings c now (pc, db)).1.isClaiming = true) :
    (dispatchCall settings c now (pc, db)).2 = db ∧ db.campaignStatus c ≠ some .cancelled := by
  cases pc with
  | head credIndex => exact ⟨rfl, isClaiming_afterStatus h⟩
  | counted n =>
      dsimp only [dispatchCall] at h
      split at h
      · cases h
      · cases h
  | checking => exact nomatch (isClaiming_afterCheck _).symm.trans h
  | claiming credIndex => exact nomatch (isClaiming_afterClaim credIndex _).symm.trans h
  | choosing credIndex email => exact nomatch (isClaiming_afterPool credIndex email _).symm.trans h
  | queueing => cases h
  | completing => cases h
  | pausing reason => cases h
  | cancelling => cases h
  | draining =>
      dsimp only [dispatchCall] at h
      split at h
      · cases h
      · cases h
  | sending job => cases h
  | stopped => cases h

/-- A task that is about to claim was, or has found the campaign not CANCELLED. -/
theorem claiming_step {a : ServiceAction} (h : s.step mode settings a = some s') {t : CallTask}
    (ht : t ∈ s'.tasks) (hclaiming : t.pc.isClaiming = true) :
    t ∈ s.tasks ∨ s'.db = s.db ∧ s.db.campaignStatus t.campaignId ≠ some .cancelled := by
  cases comes_of_step h ht with
  | kept hold => exact Or.inl hold
  | started campaignId => cases hclaiming
  | called hget hdb =>
      rw [hdb]
      exact Or.inr (isClaiming_dispatchCall hclaiming)
  | sent campaignId job r => exact nomatch (isClaiming_afterSend job r).symm.trans hclaiming
  | crashed campaignId => cases hclaiming

/-- A CANCELLED campaign stays CANCELLED, and none of its emails is claimed. -/
theorem cancelled_step (hinv : s.ClaimsUncancelled c) (hcancelled : s.Cancelled c)
    {a : ServiceAction} (hok : s.HonoursCancel settings c a)
    (h : s.step mode settings a = some s') : s'.Cancelled c ∧ ¬ Claims c s s' := by
  have hunclaimed : (∀ k, s'.db.emailStatus k = s.db.emailStatus k) → ¬ Claims c s s' := by
    rintro hsame ⟨k, e, he, -, hqueued, hsending⟩
    rw [hsame, OutreachDb.emailStatus_eq, he, Option.map_some, hqueued] at hsending
    cases hsending
  cases effect_step (c := c) h with
  | calm hcalm =>
      refine ⟨hcalm.status.trans hcancelled, ?_⟩
      rintro ⟨k, e, he, hcampaign, hqueued, hsending⟩
      exact hcalm.unclaimed k e he hcampaign hqueued hsending
  | dispatched haccepted hdb =>
      rw [hok rfl hcancelled] at haccepted
      cases haccepted
  | set haccepted hvalue hdb htasks =>
      obtain rfl := (hok rfl haccepted).1 hcancelled
      obtain rfl := Option.some.inj hvalue
      refine ⟨?_, hunclaimed fun k => by rw [hdb]; rfl⟩
      unfold Cancelled at hcancelled ⊢
      rw [hdb, OutreachDb.campaignStatus_updateCampaignStatus, if_pos rfl, hcancelled]
      rfl
  | closed hget hcampaign hpc status hstatus reason hdb =>
      exact absurd hcancelled (hok _ hget hcampaign hpc)
  | claim hget hcampaign hpc hstatus =>
      have hnone := hinv hcancelled _ (List.mem_of_getElem? hget) hcampaign
      rw [hpc] at hnone
      cases hnone

/-- The invariant is kept. -/
theorem claimsUncancelled_step (hinv : s.ClaimsUncancelled c) {a : ServiceAction}
    (hok : s.HonoursCancel settings c a) (h : s.step mode settings a = some s') :
    s'.ClaimsUncancelled c := by
  intro hcancelled t ht hcampaign
  by_contra hnot
  have hclaiming : t.pc.isClaiming = true := by simpa using hnot
  rcases claiming_step h ht hclaiming with hold | ⟨hdb, hfound⟩
  · -- the campaign has just been cancelled, or was cancelled before
    have hwritten : ∀ {status : CampaignStatus} {reason : Option String},
        s'.db = (s.db.updateCampaignStatus c status reason).2 → status = .cancelled := by
      intro status reason hdb
      unfold Cancelled at hcancelled
      rw [hdb, OutreachDb.campaignStatus_updateCampaignStatus, if_pos rfl] at hcancelled
      obtain ⟨-, -, heq⟩ := Option.map_eq_some_iff.mp hcancelled
      exact heq
    have hwas : s.Cancelled c ∨ s.NoneClaiming c := by
      cases effect_step (c := c) h with
      | calm hcalm => exact Or.inl (hcalm.status.symm.trans hcancelled)
      | dispatched haccepted hdb => exact nomatch hwritten hdb
      | set haccepted hvalue hdb htasks =>
          have hcancels := hwritten hdb
          subst hcancels
          exact Or.inr ((hok rfl haccepted).2 (CampaignStatus.ofValue_cancelled hvalue))
      | closed hget hcampaign hpc status hstatus reason hdb => exact absurd (hwritten hdb) hstatus
      | claim hget hcampaign hpc hstatus => exact Or.inl (hstatus.symm.trans hcancelled)
    rcases hwas with hbefore | hnone
    · exact hnot (hinv hbefore t hold hcampaign)
    · exact hnot (hnone t hold hcampaign)
  · rw [hcampaign] at hfound
    unfold Cancelled at hcancelled
    rw [hdb] at hcancelled
    exact hfound hcancelled

end Service

/--
**CANCELLED is final**, as long as every step honours it: after a campaign has been
CANCELLED, no step takes one of its emails from QUEUED to SENDING.
-/
theorem cancelled_is_final (mode : DispatchMode) (settings : DispatchSettings) (c : Nat)
    (now : Time) (db : OutreachDb) (before after : List ServiceAction) (a : ServiceAction)
    {s t t' : Service}
    (hok : Meets (Service.step mode settings) (fun s => s.HonoursCancel settings c)
      (.init now db) (before ++ (after ++ [a])))
    (hbefore : run (Service.step mode settings) (.init now db) before = some s)
    (hcancelled : s.Cancelled c) (hafter : run (Service.step mode settings) s after = some t)
    (hstep : t.step mode settings a = some t') : ¬ Service.Claims c t t' := by
  obtain ⟨hok1, hok'⟩ := hok.append hbefore
  obtain ⟨hok2, hok3⟩ := hok'.append hafter
  have hstart : (Service.init now db).ClaimsUncancelled c := fun _ t ht => by cases ht
  have hinv : s.ClaimsUncancelled c :=
    run_invariant (fun _ _ _ hi hok hs => Service.claimsUncancelled_step hi hok hs) hstart hok1
      hbefore
  have hkeep : ∀ (s : Service) (a : ServiceAction) (s' : Service),
      s.ClaimsUncancelled c ∧ s.Cancelled c → s.HonoursCancel settings c a →
      s.step mode settings a = some s' → s'.ClaimsUncancelled c ∧ s'.Cancelled c :=
    fun s a s' hi hok hs => ⟨Service.claimsUncancelled_step hi.1 hok hs,
      (Service.cancelled_step hi.1 hi.2 hok hs).1⟩
  have hboth := run_invariant hkeep ⟨hinv, hcancelled⟩ hok2 hafter
  exact (Service.cancelled_step hboth.1 hboth.2 hok3.head hstep).2

/-! ### A campaign that is cancelled -/

/-- A campaign of two drafts is dispatched, and cancelled while the first is being sent. -/
def cancelledInFlight : List ServiceAction :=
  [.request admin (.dispatch 1), .call 0, .call 0, .call 0, .call 0, .call 0, .call 0,
    .request admin (.setStatus 1 "CANCELLED")]

/-- The rest of the campaign fails. -/
theorem rest_not_sent :
    ∃ t t', run (Service.step .embedded plainSettings) (.init (seconds 1) twoDrafts)
        (cancelledInFlight ++ [.sent 0 (.ok ()), .call 0]) = some t ∧
      t.step .embedded plainSettings (.call 0) = some t' ∧
      (t'.db.emailStatus 1, t'.db.emailStatus 2) = (some .sent, some .failed) ∧
      ¬ Service.Claims 1 t t' := by
  have hcancelled : (run (Service.step .embedded plainSettings) (.init (seconds 1) twoDrafts)
      cancelledInFlight).map (fun s => s.db.campaignStatus 1) = some (some .cancelled) := by
    decide +kernel
  have hend : (run (Service.step .embedded plainSettings) (.init (seconds 1) twoDrafts)
      (cancelledInFlight ++ ([.sent 0 (.ok ()), .call 0] ++ [.call 0]))).map
        (fun t => (t.db.emailStatus 1, t.db.emailStatus 2)) = some (some .sent, some .failed) := by
    decide +kernel
  obtain ⟨s, hs, hstatus⟩ := Option.map_eq_some_iff.mp hcancelled
  obtain ⟨t', hall, hrows⟩ := Option.map_eq_some_iff.mp hend
  rw [run_append, hs, Option.bind_some, run_append] at hall
  obtain ⟨t, hafter, hlast⟩ := Option.bind_eq_some_iff.mp hall
  obtain ⟨u, hstep, hnil⟩ := run_cons_eq_some.mp hlast
  obtain rfl : u = t' := by simpa using hnil
  refine ⟨t, u, ?_, hstep, hrows, cancelled_is_final .embedded plainSettings 1 (seconds 1)
    twoDrafts cancelledInFlight [.sent 0 (.ok ()), .call 0] (.call 0) (by decide +kernel) hs hstatus
    hafter hstep⟩
  rw [run_append, hs]
  exact hafter

/-- The campaign is dispatched again, and its drafts are sent after all. -/
def dispatchedAgain : List ServiceAction :=
  [.request admin (.dispatch 1), .call 0, .call 0, .call 0, .call 0]

theorem cancelled_campaign_dispatched :
    ∃ s t t', run (Service.step .embedded plainSettings) (.init (seconds 1) twoDrafts)
        [.request admin (.setStatus 1 "CANCELLED")] = some s ∧ s.Cancelled 1 ∧
      run (Service.step .embedded plainSettings) s dispatchedAgain = some t ∧
      t.step .embedded plainSettings (.call 0) = some t' ∧ Service.Claims 1 t t' := by
  have hcancelled : (run (Service.step .embedded plainSettings) (.init (seconds 1) twoDrafts)
      [.request admin (.setStatus 1 "CANCELLED")]).map (fun s => s.db.campaignStatus 1) =
        some (some .cancelled) := by
    decide +kernel
  have hqueued : (run (Service.step .embedded plainSettings) (.init (seconds 1) twoDrafts)
      ([.request admin (.setStatus 1 "CANCELLED")] ++ dispatchedAgain)).map (fun t =>
        (t.db.email? 1).map fun e => (e.campaignId, e.status)) = some (some (1, .queued)) := by
    decide +kernel
  have hclaimed : (run (Service.step .embedded plainSettings) (.init (seconds 1) twoDrafts)
      ([.request admin (.setStatus 1 "CANCELLED")] ++ (dispatchedAgain ++ [.call 0]))).map
        (fun t => t.db.emailStatus 1) = some (some .sending) := by
    decide +kernel
  obtain ⟨s, hs, hstatus⟩ := Option.map_eq_some_iff.mp hcancelled
  obtain ⟨t, ht, hrow⟩ := Option.map_eq_some_iff.mp hqueued
  obtain ⟨t', ht', hsending⟩ := Option.map_eq_some_iff.mp hclaimed
  rw [run_append, hs, Option.bind_some] at ht ht'
  rw [run_append, ht, Option.bind_some] at ht'
  obtain ⟨u, hstep, hnil⟩ := run_cons_eq_some.mp ht'
  obtain rfl : u = t' := by simpa using hnil
  obtain ⟨e, he, heq⟩ := Option.map_eq_some_iff.mp hrow
  obtain ⟨hcampaign, hemail⟩ := Prod.mk.inj heq
  exact ⟨s, t, u, hs, hstatus, ht, hstep, 1, e, he, hcampaign, hemail, hsending⟩

end GovCrawler
