/-
Whether COMPLETED is the truth.

A dispatch task writes COMPLETED from two places, and each looks at something else.  The
early exit has queued nothing and finds nothing QUEUED; the end of the queue finds no DRAFT.
Neither looks at SENDING, and the early exit does not ask about the drafts that are not
selected, as the other one does.

`completed_is_truthful`: a task writes COMPLETED only where every email of its campaign is
SENT or FAILED, in whatever order sweeps, requests and the calls of the tasks come, as long
as each exit is taken where what it does not look at is not there either, and nothing comes
back between the look and the write.  `completed_too_early` takes both exits otherwise.
-/
import GovCrawler.Outreach.Cancellation

namespace GovCrawler

open Relational StoreProgram Prog DispatchM Transition

/-! ### Campaigns that are through -/

/-- Nothing is left to do with the email. -/
def CampaignEmail.Done (e : CampaignEmail) : Prop := e.status = .sent ∨ e.status = .failed

namespace OutreachDb

/-- Some email of the campaign is in this status. -/
def hasEmailIn (db : OutreachDb) (campaignId : Nat) (status : EmailStatus) : Bool :=
  (db.campaignEmails.first? (hasStatus campaignId status)).isSome

/-- No email of the campaign is in DRAFT, QUEUED or SENDING. -/
def Finished (db : OutreachDb) (campaignId : Nat) : Prop :=
  ∀ k e, db.email? k = some e → e.campaignId = campaignId → e.Done

variable {db : OutreachDb} {c : Nat}

theorem not_hasEmailIn (status : EmailStatus) (h : db.hasEmailIn c status = false) {k : Nat}
    {e : CampaignEmail} (he : db.email? k = some e) (hcampaign : e.campaignId = c) :
    e.status ≠ status := by
  rintro rfl
  have hnone : db.campaignEmails.first? (hasStatus c e.status) = none := by
    simpa [hasEmailIn] using h
  have hnot := Table.first?_eq_none_iff.mp hnone e (Table.get?_mem he)
  simp [hasStatus, hcampaign] at hnot

/-- A campaign is through when it has nothing in the three statuses. -/
theorem finished_of_none (hdraft : db.hasRemainingDrafts c = false)
    (hqueued : db.hasQueuedEmail c = false) (hsending : db.hasEmailIn c .sending = false) :
    db.Finished c := by
  intro k e he hcampaign
  have hd := not_hasEmailIn .draft hdraft he hcampaign
  have hq := not_hasEmailIn .queued hqueued he hcampaign
  have hs := not_hasEmailIn .sending hsending he hcampaign
  cases hstatus : e.status with
  | draft => exact absurd hstatus hd
  | queued => exact absurd hstatus hq
  | sending => exact absurd hstatus hs
  | sent => exact Or.inl hstatus
  | failed => exact Or.inr hstatus

/-! ### What a campaign that is through stays through -/

/-- An update of other emails than those that are done, or into one that is. -/
theorem Finished.updateEmails (h : db.Finished c) (p : CampaignEmail → Bool)
    (f : CampaignEmail → CampaignEmail) (hf : ∀ e, (f e).id = e.id)
    (hcampaign : ∀ e, (f e).campaignId = e.campaignId)
    (hdone : ∀ k e, db.email? k = some e → e.campaignId = c → p e = true → e.Done → (f e).Done) :
    (db.updateEmails p f hf).Finished c := by
  intro k r hr hrc
  rw [email?_updateEmails] at hr
  obtain ⟨e, he, rfl⟩ := Option.map_eq_some_iff.mp hr
  by_cases hp : p e = true
  · rw [if_pos hp] at hrc ⊢
    have hec : e.campaignId = c := (hcampaign e).symm.trans hrc
    exact hdone k e he hec hp (h k e he hec)
  · rw [if_neg hp] at hrc ⊢
    exact h k e he hrc

theorem Finished.write (h : db.Finished c) (emailId : Nat) (req : EmailRequest) :
    (req.write db emailId).Finished c := by
  cases req with
  | edit r => exact h.updateEmails _ _ (by intro _; rfl) (fun _ => rfl) fun _ _ _ _ _ hdone => hdone
  | select r =>
      intro k e he hcampaign
      have hrow := db.email?_setEmailSelection emailId r.isSelected k
      by_cases hk : k = emailId
      · rw [if_pos hk] at hrow
        obtain ⟨old, hold, rfl⟩ := Option.map_eq_some_iff.mp (hrow.symm.trans he)
        have hcampaign' : old.campaignId = c := by
          unfold reselect at hcampaign
          split at hcampaign <;> exact hcampaign
        unfold reselect
        rcases h k old hold hcampaign' with hs | hs
        · rw [hs]
          exact Or.inl hs
        · rw [hs]
          exact Or.inr hs
      · rw [if_neg hk] at hrow
        exact h k e (hrow.symm.trans he) hcampaign
  | delete =>
      intro k e he hcampaign
      have hrow := db.email?_deleteCampaignEmail emailId k
      obtain ⟨hold, -⟩ := Option.filter_eq_some_iff.mp (hrow.symm.trans he)
      exact h k e hold hcampaign

theorem Finished.setAllEmailSelection (h : db.Finished c) (campaignId : Nat)
    (isSelected : Bool) : (db.setAllEmailSelection campaignId isSelected).2.Finished c := by
  have hdrafts : (db.updateEmails (fun e => e.campaignId == campaignId && e.status == .draft)
      (fun e => { e with isSelected }) (by intro _; rfl)).Finished c :=
    h.updateEmails _ _ _ (fun _ => rfl) fun _ _ _ _ _ hdone => hdone
  unfold OutreachDb.setAllEmailSelection
  dsimp only
  cases isSelected with
  | true => exact hdrafts
  | false =>
      simp only [Bool.false_eq_true, if_false]
      refine hdrafts.updateEmails _ _ _ (fun _ => rfl) fun _ e _ _ hp hdone => ?_
      simp only [Bool.and_eq_true, beq_iff_eq] at hp
      rcases hdone with hs | hs
      · cases hs.symm.trans hp.2
      · cases hs.symm.trans hp.2

/-- Emails are added to another campaign. -/
theorem Finished.bulkCreate (h : db.Finished c) {campaignId : Nat} (hne : campaignId ≠ c)
    (emails : List StagedEmail) : (db.bulkCreateCampaignEmails campaignId emails).2.Finished c := by
  unfold Finished email? at h ⊢
  unfold bulkCreateCampaignEmails
  dsimp only
  generalize db.campaignEmails = t at h
  induction emails generalizing t with
  | nil => exact h
  | cons staged emails ih =>
      rw [List.foldl_cons]
      refine ih (t.insertNew _ _) fun k e he hcampaign => ?_
      rw [Table.get?_insertNew] at he
      split at he
      · obtain rfl := Option.some.inj he
        exact absurd hcampaign hne
      · exact h k e he hcampaign

theorem Finished.claimRounds (h : db.Finished c) (campaignId : Nat) (now : Time) :
    (claimRounds campaignId now 5 db).2.Finished c := by
  rcases db.claimRounds_cases campaignId now 4 with ⟨-, hnone⟩ | ⟨e, hget, hq, hclaim, hrows⟩
  · rw [hnone]
    exact h
  · rw [hclaim]
    intro k r hr hcampaign
    rw [hrows] at hr
    split at hr
    · obtain rfl := Option.some.inj hr
      have hdone : e.Done := h e.id e hget hcampaign
      rcases hdone with hs | hs
      · cases hs.symm.trans (hasStatus_status hq)
      · cases hs.symm.trans (hasStatus_status hq)
    · exact h k r hr hcampaign

end OutreachDb

/-- The email, if there is one, is of another campaign. -/
def OutreachDb.Outside (db : OutreachDb) (c emailId : Nat) : Prop :=
  ∀ e, db.email? emailId = some e → e.campaignId ≠ c

theorem email?_addToBlacklist (lower : String → String) (db : OutreachDb)
    (email domain : String) (reason : Option String) (k : Nat) :
    (db.addToBlacklist lower email domain reason).2.email? k = db.email? k := by
  unfold OutreachDb.addToBlacklist
  split_ifs
  · rfl
  · rfl

/-- A handler gives back no email of a campaign but the one it has in hand. -/
theorem Handler.preserves_finished {settings : DispatchSettings} {job : Job} {rejects : Bool}
    {status : Option EmailStatus} {m : DispatchM Unit} (h : Handler settings job rejects status m)
    (c : Nat) : Preserves (fun s : Store => s.db.Finished c ∧
      (status = some .queued → s.db.Outside c job.email.id)) m := by
  have hfail : ∀ (message : String), Preserves (fun s : Store => s.db.Finished c ∧
      ((some EmailStatus.failed) = some .queued → s.db.Outside c job.email.id))
      (markEmailFailed job.email.id message job.cred.id) := fun message =>
    preserves_write fun s hs => ⟨hs.1.updateEmails _ _ _ (fun _ => rfl)
      fun _ _ _ _ _ _ => Or.inr rfl, fun h => by cases h⟩
  have hrequeue : Preserves (fun s : Store => s.db.Finished c ∧
      (some EmailStatus.queued = some .queued → s.db.Outside c job.email.id))
      (requeueEmail job.email.id) := by
    refine preserves_write fun s hs => ⟨hs.1.updateEmails _ _ _ (fun _ => rfl) ?_, fun _ => ?_⟩
    · intro k e he hcampaign hp _
      have hid : e.id = job.email.id := by simpa using hp
      have hk : e.id = k := OutreachDb.email?_id _ he
      exact absurd hcampaign (hs.2 rfl e (by rw [← hid, hk]; exact he))
    · intro e he
      have hrow := OutreachDb.email?_updateEmails_id s.db
        (fun e => { e with status := .queued, sendingSince := none }) (fun _ => rfl)
        job.email.id job.email.id
      rw [if_pos rfl] at hrow
      obtain ⟨old, hold, rfl⟩ := Option.map_eq_some_iff.mp (hrow.symm.trans he)
      exact hs.2 rfl old hold
  cases h with
  | disables => exact preserves_bind (preserves_write fun _ h => h) fun _ => hrequeue
  | coolsDown until_ => exact preserves_bind (preserves_write fun _ h => h) fun _ => hrequeue
  | bounces reason =>
      refine preserves_bind (preserves_write fun s hs => ⟨fun k e he => hs.1 k e ?_,
        fun h => by cases h⟩) fun _ => hfail reason
      exact (email?_addToBlacklist _ s.db _ _ _ k).symm.trans he
  | fails message => exact hfail message
  | raises e => exact preserves_raise e

/-- The send is to be made again. -/
def retried : Except Exc Unit → Bool
  | .ok _ => false
  | .error e => handledStatus e == some .queued

/-- A send that ends puts no email of another campaign, and no other email, back. -/
theorem OutreachDb.Finished.trySend {db : OutreachDb} {c : Nat} (h : db.Finished c)
    (settings : DispatchSettings) (job : Job) (now : Time) (sent : Except Exc Unit)
    (houtside : retried sent = true → db.Outside c job.email.id) :
    (trySend settings job now sent ⟨db, []⟩ []).2.1.db.Finished c := by
  cases sent with
  | ok u =>
      rw [trySend_ok]
      exact h.updateEmails _ _ _ (fun _ => rfl) fun _ _ _ _ _ _ => Or.inl rfl
  | error e =>
      rw [trySend_error]
      exact ((handler_handleException settings job now e).preserves_finished c ⟨db, []⟩ []
        ⟨h, fun hs => houtside (by simp [retried, hs])⟩).1

/-! ### The two exits -/

/-- What is not there where an exit is taken: the early one is taken on the absence of QUEUED
emails, the other on that of drafts. -/
def CallPc.Exits (db : OutreachDb) (campaignId : Nat) : CallPc → Prop
  | .counted queuedCount =>
      queuedCount = 0 → db.hasQueuedEmail campaignId = false →
        db.hasRemainingDrafts campaignId = false ∧ db.hasEmailIn campaignId .sending = false
  | .draining =>
      db.hasRemainingDrafts campaignId = false →
        db.hasQueuedEmail campaignId = false ∧ db.hasEmailIn campaignId .sending = false
  | _ => True

instance (db : OutreachDb) (campaignId : Nat) : DecidablePred (CallPc.Exits db campaignId)
  | .counted _ | .draining => by
      unfold CallPc.Exits
      infer_instance
  | .queueing | .checking | .completing | .pausing _ | .head _ | .cancelling | .claiming _
  | .choosing _ _ | .sending _ | .stopped => .isTrue trivial

/-- The job of a task that sends. -/
def CallPc.job? : CallPc → Option Job
  | .sending job => some job
  | _ => none

namespace Service

/-- A task of the campaign is about to write COMPLETED. -/
def Completing (c : Nat) (s : Service) : Prop :=
  ∃ t ∈ s.tasks, t.campaignId = c ∧ t.pc = .completing

instance (c : Nat) (s : Service) : Decidable (s.Completing c) := by
  unfold Completing
  infer_instance

/-- An exit is taken where nothing is left, and until COMPLETED is written no email is added
to the campaign and none of its emails is given back. -/
def LeavesNothing (s : Service) : ServiceAction → Prop
  | .call i => ∀ t ∈ s.tasks[i]?, t.pc.Exits s.db t.campaignId
  | .addEmails user campaignId leadIds rendered =>
      s.Completing campaignId →
        (addEmailsToCampaign s.db user campaignId leadIds rendered).isOk = false
  | .sent i outcome => ∀ t ∈ s.tasks[i]?, ∀ job ∈ t.pc.job?, retried outcome = true →
      ∀ e ∈ s.db.email? job.email.id, ¬ s.Completing e.campaignId
  | _ => True

instance (s : Service) : ∀ a, Decidable (s.LeavesNothing a)
  | .call _ | .addEmails _ _ _ _ | .sent _ _ => by
      unfold LeavesNothing
      infer_instance
  | .tick _ | .request _ _ | .poll _ | .sweep | .credentials _ _ | .crash _ => .isTrue trivial

/-- **The invariant**: a campaign that a task is about to complete is through. -/
def CompletesFinished (s : Service) : Prop :=
  ∀ t ∈ s.tasks, t.pc = .completing → s.db.Finished t.campaignId

variable {mode : DispatchMode} {settings : DispatchSettings} {s s' : Service} {c : Nat}

theorem finished_serve (hfin : s.db.Finished c) (user : CurrentUser) (req : Request) :
    (s.serve mode settings user req).db.Finished c := by
  cases req with
  | email campaignId emailId req =>
      show (serveEmailRequest s.db user campaignId emailId req).2.Finished c
      rcases serveEmailRequest_write s.db user campaignId emailId req with h | h
      · rw [h]
        exact hfin
      · rw [h]
        exact hfin.write emailId req
  | selectAll campaignId req =>
      show (bulkToggleEmailSelection s.db user campaignId req).2.Finished c
      unfold bulkToggleEmailSelection
      split
      · exact hfin
      · exact hfin.setAllEmailSelection campaignId req.isSelected
  | dispatch campaignId =>
      unfold serve
      dsimp only
      split
      · exact hfin
      · rename_i haccepted
        rw [dispatchCampaign_eq_ok haccepted]
        exact hfin
  | setStatus campaignId value =>
      unfold serve
      dsimp only
      split
      · exact hfin
      · rename_i haccepted
        obtain ⟨status, -, rfl⟩ := patchCampaignStatus_eq_ok haccepted
        exact hfin

/-- The calls of a task move emails that are not done, or fail them. -/
theorem finished_dispatchCall (hfin : s.db.Finished c) (campaignId : Nat) (now : Time)
    (pc : CallPc) : (dispatchCall settings campaignId now (pc, s.db)).2.Finished c := by
  cases pc with
  | queueing =>
      refine hfin.updateEmails _ _ _ (fun _ => rfl) fun _ e _ _ hp hdone => ?_
      simp only [Bool.and_eq_true, beq_iff_eq] at hp
      rcases hdone with hs | hs
      · cases hs.symm.trans hp.1.2
      · cases hs.symm.trans hp.1.2
  | cancelling => exact hfin.updateEmails _ _ _ (fun _ => rfl) fun _ _ _ _ _ _ => Or.inr rfl
  | claiming credIndex => exact hfin.claimRounds campaignId now
  | _ => exact hfin

/-- A campaign that is through while a task is about to complete it stays through. -/
theorem finished_step {a : ServiceAction} (hok : s.LeavesNothing a) (hc : s.Completing c)
    (hfin : s.db.Finished c) (h : s.step mode settings a = some s') : s'.db.Finished c := by
  cases a with
  | tick span =>
      obtain rfl := Option.some.inj h
      exact hfin
  | request user req =>
      obtain rfl := Option.some.inj h
      exact finished_serve hfin user req
  | addEmails user campaignId leadIds rendered =>
      dsimp only [step] at h
      split at h
      · obtain rfl := Option.some.inj h
        exact hfin
      · rename_i n db haccepted
        obtain rfl := Option.some.inj h
        have hne : campaignId ≠ c := by
          rintro rfl
          have hrefused := hok hc
          rw [haccepted] at hrefused
          cases hrefused
        obtain ⟨emails, -, hr⟩ := addEmailsToCampaign_eq_ok haccepted
        obtain ⟨-, rfl⟩ := Prod.mk.inj hr
        exact hfin.bulkCreate hne emails
  | poll campaignId =>
      dsimp only [step] at h
      split at h
      · obtain rfl := Option.some.inj h
        exact hfin
      · cases h
  | sweep =>
      obtain rfl := Option.some.inj h
      refine hfin.updateEmails _ _ _ (fun _ => rfl) fun _ e _ _ hp hdone => ?_
      simp only [Bool.and_eq_true, beq_iff_eq] at hp
      rcases hdone with hs | hs
      · cases hs.symm.trans hp.1
      · cases hs.symm.trans hp.1
  | credentials smtpCredentials campaignCredentials =>
      obtain rfl := Option.some.inj h
      exact hfin
  | call i =>
      dsimp only [step] at h
      split at h
      · cases h
      · obtain rfl := Option.some.inj h
        exact finished_dispatchCall hfin _ _ _
  | sent i outcome =>
      dsimp only [step] at h
      split at h
      · rename_i campaignId job hget
        obtain rfl := Option.some.inj h
        refine hfin.trySend settings job s.now outcome fun hretried e he hcampaign => ?_
        exact hok _ hget job rfl hretried e he (hcampaign ▸ hc)
      · cases h
  | crash i =>
      dsimp only [step] at h
      split at h
      · cases h
      · obtain rfl := Option.some.inj h
        exact hfin

/-- A call after which COMPLETED is next has found the campaign through. -/
theorem finished_of_exit {campaignId : Nat} {now : Time} {pc : CallPc}
    (hexits : pc.Exits s.db campaignId)
    (h : (dispatchCall settings campaignId now (pc, s.db)).1 = .completing) :
    (dispatchCall settings campaignId now (pc, s.db)).2.Finished campaignId := by
  cases pc with
  | counted queuedCount =>
      dsimp only [dispatchCall] at h ⊢
      split at h
      · rename_i hnothing
        obtain ⟨hdraft, hsending⟩ := hexits hnothing.1 hnothing.2
        exact OutreachDb.finished_of_none hdraft hnothing.2 hsending
      · cases h
  | draining =>
      dsimp only [dispatchCall] at h ⊢
      split at h
      · cases h
      · rename_i hdraft
        have hdraft : s.db.hasRemainingDrafts campaignId = false := by simpa using hdraft
        obtain ⟨hqueued, hsending⟩ := hexits hdraft
        exact OutreachDb.finished_of_none hdraft hqueued hsending
  | queueing => cases h
  | checking =>
      simp only [dispatchCall, CallPc.afterCheck] at h
      split at h <;> cases h
  | completing => cases h
  | pausing reason => cases h
  | head credIndex =>
      simp only [dispatchCall, CallPc.afterStatus] at h
      split at h <;> cases h
  | cancelling => cases h
  | claiming credIndex =>
      simp only [dispatchCall, CallPc.afterClaim] at h
      split at h <;> cases h
  | choosing credIndex email =>
      simp only [dispatchCall, CallPc.afterPool] at h
      split at h
      · cases h
      · split at h <;> cases h
  | sending job => cases h
  | stopped => cases h

/-- The invariant is kept. -/
theorem completesFinished_step (hinv : s.CompletesFinished) {a : ServiceAction}
    (hok : s.LeavesNothing a) (h : s.step mode settings a = some s') :
    s'.CompletesFinished := by
  intro t ht hpc
  cases comes_of_step h ht with
  | kept hold => exact finished_step hok ⟨t, hold, rfl, hpc⟩ (hinv t hold hpc) h
  | started campaignId => cases hpc
  | called hget hdb =>
      rw [hdb]
      exact finished_of_exit (hok _ hget) hpc
  | sent campaignId job r => cases r <;> cases hpc
  | crashed campaignId => cases hpc

end Service

/--
**COMPLETED is truthful**, as long as the exits leave nothing: in every run, when a task
writes COMPLETED no email of its campaign is in DRAFT, QUEUED or SENDING.
-/
theorem completed_is_truthful (mode : DispatchMode) (settings : DispatchSettings) (now : Time)
    (db : OutreachDb) (as : List ServiceAction) {s : Service} (i : Nat) (c : Nat)
    (hok : Meets (Service.step mode settings) Service.LeavesNothing (.init now db) as)
    (hrun : run (Service.step mode settings) (.init now db) as = some s)
    (hget : s.tasks[i]? = some ⟨c, .completing⟩) : s.db.Finished c := by
  have hstart : (Service.init now db).CompletesFinished := fun t ht => by cases ht
  exact run_invariant (fun _ _ _ hi hok hs => Service.completesFinished_step hi hok hs) hstart hok
    hrun _ (List.mem_of_getElem? hget) rfl

/-! ### A campaign of two drafts -/

/-- The calls that take a dispatched task to its send. -/
def callsToSend (task : Nat) : List ServiceAction := List.replicate 6 (.call task)

/-- Both drafts are sent, and the task is about to complete. -/
def bothSent : List ServiceAction :=
  .request admin (.dispatch 1) :: callsToSend 0 ++
    [.sent 0 (.ok ()), .call 0, .call 0, .call 0, .sent 0 (.ok ()), .call 0, .call 0, .call 0]

theorem sent_and_completed :
    ∃ s, run (Service.step .embedded plainSettings) (.init (seconds 1) twoDrafts) bothSent =
        some s ∧ s.tasks = [⟨1, .completing⟩] ∧ s.db.Finished 1 := by
  have h : (run (Service.step .embedded plainSettings) (.init (seconds 1) twoDrafts) bothSent).map
      (fun s => s.tasks) = some [⟨1, .completing⟩] := by
    decide +kernel
  obtain ⟨s, hs, htasks⟩ := Option.map_eq_some_iff.mp h
  exact ⟨s, hs, htasks, completed_is_truthful .embedded plainSettings (seconds 1) twoDrafts
    bothSent 0 1 (by decide +kernel) hs (by rw [htasks]; rfl)⟩

/-- The drafts are deselected before the dispatched task has queued them. -/
def deselectedInTime : List ServiceAction :=
  [.request admin (.dispatch 1), .request admin (.selectAll 1 ⟨false⟩), .call 0, .call 0]

/-- The task dies while it sends the first email, and another sends the second. -/
def firstAbandoned : List ServiceAction :=
  .request admin (.dispatch 1) :: callsToSend 0 ++
    [.crash 0, .request admin (.setStatus 1 "PAUSED"), .request admin (.dispatch 1)] ++
    callsToSend 1 ++ [.sent 1 (.ok ()), .call 1, .call 1, .call 1]

theorem OutreachDb.not_finished_of_row {db : OutreachDb} {c k : Nat} {status : EmailStatus}
    (hrow : (db.email? k).map (fun e => (e.campaignId, e.status)) = some (c, status))
    (hsent : status ≠ .sent) (hfailed : status ≠ .failed) : ¬ db.Finished c := by
  intro hfin
  obtain ⟨e, he, heq⟩ := Option.map_eq_some_iff.mp hrow
  obtain ⟨rfl, rfl⟩ := Prod.mk.inj heq
  exact (hfin k e he rfl).elim hsent hfailed

/-- COMPLETED is written next to an email that is neither SENT nor FAILED. -/
def WritesCompletedEarly (as : List ServiceAction) (task : Nat) : Prop :=
  ∃ s s', run (Service.step .embedded plainSettings) (.init (seconds 1) twoDrafts) as = some s ∧
    s.tasks[task]? = some ⟨1, .completing⟩ ∧
    s.step .embedded plainSettings (.call task) = some s' ∧
    s'.db.campaignStatus 1 = some .completed ∧ ¬ s.db.Finished 1

/-- It shows in the first email's row before the write. -/
theorem writesCompletedEarly_of_row {as : List ServiceAction} {task : Nat} {status : EmailStatus}
    (hbefore : (run (Service.step .embedded plainSettings) (.init (seconds 1) twoDrafts) as).map
      (fun s => (s.tasks[task]?, (s.db.email? 1).map fun e => (e.campaignId, e.status))) =
        some (some ⟨1, .completing⟩, some (1, status)))
    (hafter : (run (Service.step .embedded plainSettings) (.init (seconds 1) twoDrafts)
      (as ++ [.call task])).map (fun s => s.db.campaignStatus 1) = some (some .completed))
    (hsent : status ≠ .sent) (hfailed : status ≠ .failed) : WritesCompletedEarly as task := by
  obtain ⟨s, hs, heq⟩ := Option.map_eq_some_iff.mp hbefore
  obtain ⟨htask, hrow⟩ := Prod.mk.inj heq
  obtain ⟨s', hs', hstatus⟩ := Option.map_eq_some_iff.mp hafter
  rw [run_append, hs, Option.bind_some] at hs'
  obtain ⟨u, hstep, hnil⟩ := run_cons_eq_some.mp hs'
  obtain rfl : u = s' := by simpa using hnil
  exact ⟨s, u, hs, htask, hstep, hstatus, OutreachDb.not_finished_of_row hrow hsent hfailed⟩

/-- With a draft left, and with an email in SENDING. -/
theorem completed_too_early :
    WritesCompletedEarly deselectedInTime 0 ∧ WritesCompletedEarly firstAbandoned 1 := by
  constructor
  · exact writesCompletedEarly_of_row (by decide +kernel : _ = some (_, some (1, .draft)))
      (by decide +kernel) (by decide) (by decide)
  · exact writesCompletedEarly_of_row (by decide +kernel : _ = some (_, some (1, .sending)))
      (by decide +kernel) (by decide) (by decide)

end GovCrawler
