/-
Whether a dispatch run can stop with an email it claimed still `SENDING`.

One run is put in an environment that may do anything to the database whenever the
run waits: a step of the environment replaces the whole database.  The run's own
steps are the segments of `run_campaign_dispatch`, with any outcome of a send and
any database call raising.  Nothing but the run's journal says which emails it
claimed.

A claimed email is settled by the handlers of its send, and there are four ways
past them: the break for want of a credential, the handler that raises, a
database call that raises where no handler is around it, and the cancellation of
the task, which no handler catches.  `no_stuck_sending` says that there is no
other, and `stuck_without_credential` runs into the first.
-/
import GovCrawler.Lib.Transition
import GovCrawler.Outreach.SendOutcome

namespace GovCrawler

open Relational StoreProgram Prog DispatchM Transition

/-! ### The run and its environment -/

inductive RunPc
  | start
  | head (credIndex : Nat)
  | sending (job : Job)
  | stopped (outcome : Except Exc Unit)
  /-- A `CancelledError` has gone through it. -/
  | cancelled

/-- `run_campaign_dispatch` has been left. -/
def RunPc.Over : RunPc → Prop
  | .stopped _ | .cancelled => True
  | _ => False

/-- A run of `run_campaign_dispatch`, with the emails it has moved to `SENDING`. -/
structure RunState where
  db : OutreachDb
  pc : RunPc
  claimed : List Nat

inductive RunAction
  | start (now : Time) (faults : List (Option String))
  | head (now : Time) (faults : List (Option String))
  | send (now : Time) (sent : Except Exc Unit) (faults : List (Option String))
  /-- The task is cancelled where it waits: before it has run, or in a send. -/
  | cancel
  /-- What anybody else did while the run was waiting. -/
  | others (db : OutreachDb)

/-- The schedule on which the listed database calls raise. -/
def schedule (faults : List (Option String)) : List (Option Exc) :=
  faults.map fun o => o.map Exc.database

def afterPrologue : Except Exc Bool → RunPc
  | .ok true => .head 0
  | .ok false => .stopped (.ok ())
  | .error e => .stopped (.error e)

def afterHead : Except Exc Head → RunPc
  | .ok (.send job) => .sending job
  | .ok .stop => .stopped (.ok ())
  | .error e => .stopped (.error e)

def afterTry (job : Job) : Except Exc Unit → RunPc
  | .ok _ => .head job.nextIndex
  | .error e => .stopped (.error e)

/-- The emails a journal notes as claimed. -/
def claimsIn (journal : List Write) : List Nat :=
  journal.filterMap fun
    | .email emailId .sending => some emailId
    | _ => none

/-- Take the result of a segment over into the state. -/
def RunState.resume {α : Type} (s : RunState) (next : Except Exc α → RunPc)
    (r : Except Exc α × Store × List (Option Exc)) : RunState where
  db := r.2.1.db
  pc := next r.1
  claimed := s.claimed ++ claimsIn r.2.1.journal

def runStep (settings : DispatchSettings) (campaignId : Nat) (s : RunState) :
    RunAction → Option RunState
  | .start now faults =>
      match s.pc with
      | .start =>
          some (s.resume afterPrologue
            (dispatchPrologue settings campaignId now ⟨s.db, []⟩ (schedule faults)))
      | _ => none
  | .head now faults =>
      match s.pc with
      | .head credIndex =>
          some (s.resume afterHead
            (loopHead settings campaignId credIndex now ⟨s.db, []⟩ (schedule faults)))
      | _ => none
  | .send now sent faults =>
      match s.pc with
      | .sending job =>
          some (s.resume (afterTry job)
            (trySend settings job now sent ⟨s.db, []⟩ (schedule faults)))
      | _ => none
  | .cancel =>
      match s.pc with
      | .start | .sending _ => some { s with pc := .cancelled }
      | _ => none
  | .others db => some { s with db }

def RunState.init (db : OutreachDb) : RunState := ⟨db, .start, []⟩

/-! ### What is asked, and when it holds -/

/-- The email is in `SENT`, `FAILED` or `QUEUED`. -/
def AtRest (db : OutreachDb) (emailId : Nat) : Prop :=
  ∃ status, db.emailStatus emailId = some status ∧
    (status = .sent ∨ status = .failed ∨ status = .queued)

/-- Once the run has stopped, every email it claimed is at rest. -/
def NoneStuck (s : RunState) : Prop :=
  s.pc.Over → ∀ e ∈ s.claimed, AtRest s.db e

/-- The email whose send is under way. -/
def RunPc.InFlight (pc : RunPc) (emailId : Nat) : Prop :=
  ∃ job, pc = .sending job ∧ job.email.id = emailId

/-- The handlers of a send: none of them is handed a list of refused recipients, and
no database call of theirs raises.  The call inside the `try` may. -/
def HandlersSettle (sent : Except Exc Unit) (fs : List (Option Exc)) : Prop :=
  match sent with
  | .ok _ => Quiet (fs.drop 1)
  | .error e => (∀ refused, e ≠ .smtpRecipientsRefused (.list refused)) ∧ Quiet fs

/-- The condition on a step of the run, or of the others. -/
def Settles (settings : DispatchSettings) (campaignId : Nat) (s : RunState) : RunAction → Prop
  | .start _ _ => True
  | .head now faults =>
      -- where an email gets claimed, a credential is there for it and no later call raises
      Claims campaignId s.db (schedule faults) →
        Quiet ((schedule faults).drop 2) ∧
          ∃ creds, s.db.pool settings campaignId now = .ok creds ∧ creds ≠ []
  | .send _ sent faults => HandlersSettle sent (schedule faults)
  | .cancel => ∀ job, s.pc ≠ .sending job
  | .others db =>
      ∀ e ∈ s.claimed, db.emailStatus e = s.db.emailStatus e ∨ AtRest db e ∨
        s.pc.InFlight e ∧ (db.emailStatus e).isSome

/-- What every step keeps: a claimed email is at rest, or its send is under way. -/
structure RunInv (s : RunState) : Prop where
  fresh : s.pc = .start → s.claimed = []
  rest : ∀ e ∈ s.claimed, AtRest s.db e ∨ s.pc.InFlight e
  row : ∀ job, s.pc = .sending job →
    job.email.id ∈ s.claimed ∧ (s.db.emailStatus job.email.id).isSome

theorem RunInv.noneStuck {s : RunState} (h : RunInv s) : NoneStuck s := by
  intro hover e he
  refine (h.rest e he).resolve_right ?_
  rintro ⟨job, hjob, -⟩
  rw [hjob] at hover
  exact hover

/-! ### One step -/

theorem AtRest.of_eq {db db' : OutreachDb} {e : Nat} (h : AtRest db e)
    (heq : db'.emailStatus e = db.emailStatus e) : AtRest db' e := by
  obtain ⟨status, hs, hrest⟩ := h
  exact ⟨status, heq.trans hs, hrest⟩

theorem mem_claimsIn {journal : List Write} {e : Nat} :
    e ∈ claimsIn journal ↔ Write.email e .sending ∈ journal := by
  unfold claimsIn
  rw [List.mem_filterMap]
  constructor
  · rintro ⟨w, hw, h⟩
    split at h
    · obtain rfl := Option.some.inj h
      exact hw
    · cases h
  · intro h
    exact ⟨_, h, rfl⟩

theorem schedule_database {faults : List (Option String)} {e : Exc}
    (h : (schedule faults).head? = some (some e)) : ∃ text, e = .database text := by
  cases faults with
  | nil => cases h
  | cons o faults =>
      cases o with
      | none => cases h
      | some text => exact ⟨text, (Option.some.inj (Option.some.inj h)).symm⟩

/-- **A send whose handlers settle it puts the email at rest.** -/
theorem trySend_settles (settings : DispatchSettings) (job : Job) (now : Time) (s : Store)
    {sent : Except Exc Unit} {faults : List (Option String)}
    (h : HandlersSettle sent (schedule faults)) :
    ∃ t fs' status, trySend settings job now sent s (schedule faults) = (.ok (), t, fs') ∧
      Settled job.email.id status s t ∧
      (status = .sent ∨ status = .failed ∨ status = .queued) := by
  have hhandled : ∀ e fs, (∀ refused, e ≠ Exc.smtpRecipientsRefused (.list refused)) → Quiet fs →
      ∃ t fs' status, handleException settings job now e s fs = (.ok (), t, fs') ∧
        Settled job.email.id status s t ∧
        (status = .sent ∨ status = .failed ∨ status = .queued) := by
    intro e fs he hq
    cases hs : handledStatus e with
    | none =>
        obtain ⟨refused, rfl⟩ := handledStatus_eq_none_iff.mp hs
        exact absurd rfl (he refused)
    | some status =>
        obtain ⟨t, fs', hrun, hset⟩ := handleException_quiet settings job now s hs hq
        exact ⟨t, fs', status, hrun, hset, Or.inr (handledStatus_eq_some hs)⟩
  unfold trySend
  rw [tryExcept_apply]
  cases sent with
  | error e => exact hhandled e (schedule faults) h.1 h.2
  | ok x =>
      rw [ofExcept_ok, bind_apply, pure_apply]
      dsimp only
      unfold DispatchM.markEmailSent update Prog.write
      rcases call_cases (fun s : Store => ((), (⟨s.db.markEmailSent job.email.id
          (some job.cred.id) now, s.journal ++ [.email job.email.id .sent]⟩ : Store))) s
          (schedule faults) with ⟨-, hcall⟩ | ⟨e, he, hcall⟩
      · rw [hcall]
        refine ⟨_, _, .sent, rfl, ⟨?_, by simp⟩, Or.inl rfl⟩
        exact s.db.emailStatus_markEmailSent job.email.id (some job.cred.id) now
      · -- `mark_email_sent` raised: the handler of an unexpected exception fails the email
        rw [hcall]
        obtain ⟨text, rfl⟩ := schedule_database he
        refine hhandled (.database text) _ (fun _ h => by cases h) ?_
        rw [← List.drop_one]
        exact h

section Steps

variable {settings : DispatchSettings} {campaignId : Nat} {s : RunState}

theorem runInv_start (hinv : RunInv s) (now : Time) (fs : List (Option Exc))
    (hpc : s.pc = .start) :
    RunInv (s.resume afterPrologue (dispatchPrologue settings campaignId now ⟨s.db, []⟩ fs)) := by
  obtain ⟨hj, -⟩ := dispatchPrologue_rows settings campaignId now ⟨s.db, []⟩ fs
  have hnone : (s.resume afterPrologue
      (dispatchPrologue settings campaignId now ⟨s.db, []⟩ fs)).claimed = [] := by
    show s.claimed ++ claimsIn _ = []
    rw [hinv.fresh hpc, hj]
    rfl
  refine ⟨fun _ => hnone, fun e he => ?_, fun job hjob => ?_⟩
  · rw [hnone] at he
    cases he
  · exfalso
    change afterPrologue _ = _ at hjob
    unfold afterPrologue at hjob
    split at hjob <;> cases hjob

theorem runInv_head (hinv : RunInv s) (now : Time) (fs : List (Option Exc)) (index : Nat)
    (hpc : s.pc = .head index)
    (hok : Claims campaignId s.db fs → Quiet (fs.drop 2) ∧
      ∃ creds, s.db.pool settings campaignId now = .ok creds ∧ creds ≠ []) :
    RunInv (s.resume afterHead (loopHead settings campaignId index now ⟨s.db, []⟩ fs)) := by
  have hrest : ∀ e ∈ s.claimed, AtRest s.db e := by
    intro e he
    refine (hinv.rest e he).resolve_right ?_
    rintro ⟨job, hjob, -⟩
    rw [hpc] at hjob
    cases hjob
  have hnotStart : ∀ r, afterHead r ≠ .start := by
    intro r
    unfold afterHead
    split <;> simp
  rcases loopHead_cases settings campaignId index now ⟨s.db, []⟩ fs with hidle | ⟨e, hclaim, hc⟩
  · refine ⟨fun h => absurd h (hnotStart _), fun e he => Or.inl ?_, fun job hjob => ?_⟩
    · have he' : e ∈ s.claimed := by
        have : e ∈ s.claimed ++ claimsIn _ := he
        rw [hidle.journal] at this
        simpa [claimsIn] using this
      rcases hidle.rows e with heq | ⟨-, hf⟩
      · exact (hrest e he').of_eq heq
      · exact ⟨_, hf, Or.inr (Or.inl rfl)⟩
    · exfalso
      change afterHead _ = _ at hjob
      unfold afterHead at hjob
      split at hjob
      · next job' hrun => exact hidle.stops job' hrun
      · cases hjob
      · cases hjob
  · -- the condition says that the claim is followed by a send
    obtain ⟨hquiet, creds, hpool, hne⟩ := hok hc
    have hquiet' : Quiet (fs.tail.drop 1) := by
      rwa [List.drop_tail]
    obtain ⟨job, hjob⟩ := hclaim.sends hquiet' creds hpool hne
    have hid := hclaim.job job hjob
    have hpc' : (s.resume afterHead
        (loopHead settings campaignId index now ⟨s.db, []⟩ fs)).pc = .sending job := by
      show afterHead _ = _
      rw [hjob]
      rfl
    have hmem : ∀ e', e' ∈ (s.resume afterHead
        (loopHead settings campaignId index now ⟨s.db, []⟩ fs)).claimed ↔
          e' ∈ s.claimed ∨ e' = e := by
      intro e'
      show e' ∈ s.claimed ++ claimsIn _ ↔ _
      rw [hclaim.journal, List.mem_append, mem_claimsIn]
      simp
    refine ⟨fun h => absurd h (hnotStart _), fun e' he' => ?_, fun job' hjob' => ?_⟩
    · by_cases heq : e' = e
      · exact Or.inr ⟨job, hpc', hid.trans heq.symm⟩
      · refine Or.inl ((hrest e' (((hmem e').mp he').resolve_right heq)).of_eq ?_)
        exact (hclaim.rows e').trans (if_neg heq)
    · rw [hpc'] at hjob'
      obtain rfl : job = job' := by injection hjob'
      refine ⟨(hmem _).mpr (Or.inr hid), ?_⟩
      exact congrArg Option.isSome ((hclaim.rows _).trans (if_pos hid))

theorem runInv_send (hinv : RunInv s) (now : Time) {sent : Except Exc Unit}
    {faults : List (Option String)} {job : Job} (hpc : s.pc = .sending job)
    (hok : HandlersSettle sent (schedule faults)) :
    RunInv (s.resume (afterTry job)
      (trySend settings job now sent ⟨s.db, []⟩ (schedule faults))) := by
  obtain ⟨t, fs', status, hrun, hset, hstatus⟩ :=
    trySend_settles settings job now ⟨s.db, []⟩ hok
  have hpc' : (s.resume (afterTry job)
      (trySend settings job now sent ⟨s.db, []⟩ (schedule faults))).pc = .head job.nextIndex := by
    show afterTry job _ = _
    rw [hrun]
    rfl
  refine ⟨fun h => ?_, fun e he => Or.inl ?_, fun job' h => ?_⟩
  · rw [hpc'] at h
    cases h
  rotate_left
  · rw [hpc'] at h
    cases h
  have he' : e ∈ s.claimed := by
    have hmem : e ∈ s.claimed ++ claimsIn _ := he
    rw [hrun, List.mem_append, mem_claimsIn, hset.notes] at hmem
    rcases hmem with h | h | ⟨-, h⟩
    · exact h
    · cases h
    · exfalso
      rcases hstatus with rfl | rfl | rfl <;> cases h
  show AtRest (trySend settings job now sent ⟨s.db, []⟩ (schedule faults)).2.1.db e
  rw [hrun]
  by_cases heq : e = job.email.id
  · obtain ⟨old, hold⟩ := Option.isSome_iff_exists.mp (hinv.row job hpc).2
    refine ⟨status, ?_, hstatus⟩
    rw [hset.rows, if_pos heq, heq, hold]
    rfl
  · have hrest : AtRest s.db e := by
      refine (hinv.rest e he').resolve_right ?_
      rintro ⟨job', hjob', hid⟩
      rw [hpc] at hjob'
      obtain rfl : job = job' := by injection hjob'
      exact heq hid.symm
    exact hrest.of_eq ((hset.rows e).trans (if_neg heq))

theorem runInv_others (hinv : RunInv s) (db : OutreachDb)
    (hok : ∀ e ∈ s.claimed, db.emailStatus e = s.db.emailStatus e ∨ AtRest db e ∨
      s.pc.InFlight e ∧ (db.emailStatus e).isSome) : RunInv { s with db } := by
  refine ⟨hinv.fresh, fun e he => ?_, fun job hjob => ?_⟩
  · rcases hok e he with heq | hrest | ⟨hfly, -⟩
    · exact (hinv.rest e he).imp_left fun h => h.of_eq heq
    · exact Or.inl hrest
    · exact Or.inr hfly
  · obtain ⟨hmem, hrow⟩ := hinv.row job hjob
    refine ⟨hmem, ?_⟩
    rcases hok _ hmem with heq | ⟨status, hs, -⟩ | ⟨-, h⟩
    · show (db.emailStatus _).isSome
      rw [heq]
      exact hrow
    · show (db.emailStatus _).isSome
      rw [hs]
      rfl
    · exact h

/-- Every step that meets the condition keeps the invariant. -/
theorem runInv_step (hinv : RunInv s) {a : RunAction} (hok : Settles settings campaignId s a)
    {s' : RunState} (hs : runStep settings campaignId s a = some s') : RunInv s' := by
  cases a with
  | start now faults =>
      simp only [runStep] at hs
      split at hs
      · next hpc =>
          obtain rfl := Option.some.inj hs
          exact runInv_start hinv now (schedule faults) hpc
      · cases hs
  | head now faults =>
      simp only [runStep] at hs
      split at hs
      · next index hpc =>
          obtain rfl := Option.some.inj hs
          exact runInv_head hinv now (schedule faults) index hpc hok
      · cases hs
  | send now sent faults =>
      simp only [runStep] at hs
      split at hs
      · next job hpc =>
          obtain rfl := Option.some.inj hs
          exact runInv_send hinv now hpc hok
      · cases hs
  | cancel =>
      have hrest : ∀ e ∈ s.claimed, AtRest s.db e := fun e he =>
        (hinv.rest e he).resolve_right fun ⟨job, hjob, _⟩ => hok job hjob
      have hdone : RunInv { s with pc := .cancelled } :=
        ⟨nofun, fun e he => Or.inl (hrest e he), nofun⟩
      simp only [runStep] at hs
      split at hs
      · exact Option.some.inj hs ▸ hdone
      · exact Option.some.inj hs ▸ hdone
      · cases hs
  | others db =>
      obtain rfl := Option.some.inj hs
      exact runInv_others hinv db hok

end Steps

/--
**No claimed email is left `SENDING`** by a run in which every claim finds a
credential, no send is refused by a list of recipients, no database call raises
outside the `try` of a send once there is a claim, no send is cancelled, and nobody
else takes a claimed email back out of its rest.
-/
theorem no_stuck_sending (settings : DispatchSettings) (campaignId : Nat) (db : OutreachDb)
    (as : List RunAction) (s : RunState)
    (hok : Meets (runStep settings campaignId) (Settles settings campaignId) (.init db) as)
    (hrun : run (runStep settings campaignId) (.init db) as = some s) : NoneStuck s := by
  refine RunInv.noneStuck ?_
  have hinit : RunInv (.init db) :=
    ⟨fun _ => rfl, fun _ he => (nomatch he), fun _ h => (nomatch h)⟩
  exact run_invariant (fun s a s' hi hok hs => runInv_step hi hok hs) hinit hok hrun

/-! ### A run that leaves one -/

/-- A running campaign nobody owns, with one queued email and one credential. -/
def oneQueued : OutreachDb where
  campaigns :=
    Table.empty.insertNew fun id =>
      { id, name := "city clerks", templateId := none, kind := .production,
        testCredentialId := none, status := .running, ownerId := none, pauseReason := none }
  campaignEmails :=
    Table.empty.insertNew fun id =>
      { id, campaignId := 1, leadId := none, recipientEmail := "clerk@city.gov",
        subject := "Hello", body := "Dear clerk", status := .queued }
  smtpCredentials := cityMailbox
  campaignCredentials := Table.empty
  blacklist := Table.empty

/-- The server rejects the password: the credential is disabled and the email given
back, claimed again, and left when no credential is found for it. -/
def rejectedRun : List RunAction :=
  [.start 1 [], .head 1 [], .send 1 (.error (.smtpAuthenticationError 535 "Bad password")) [],
    .head 1 []]

theorem stuck_without_credential :
    ∃ s, run (runStep plainSettings 1) (.init oneQueued) rejectedRun = some s ∧ ¬ NoneStuck s := by
  refine ⟨_, rfl, fun h => ?_⟩
  obtain ⟨status, hstatus, hrest⟩ := h trivial 1 (by decide)
  have hsending : some EmailStatus.sending = some status := hstatus
  obtain rfl := Option.some.inj hsending
  revert hrest
  decide

/-- The run in which the server takes the message. -/
theorem accepted_run_not_stuck :
    ∃ s, run (runStep plainSettings 1) (.init oneQueued)
      [.start 1 [], .head 1 [], .send 1 (.ok ()) [], .head 1 []] = some s ∧ NoneStuck s := by
  refine ⟨_, rfl, no_stuck_sending plainSettings 1 oneQueued
    [.start 1 [], .head 1 [], .send 1 (.ok ()) [], .head 1 []] _ ?_ rfl⟩
  refine ⟨trivial, fun _ => ⟨by decide, _, rfl, by decide⟩, ?_, fun h => ?_, trivial⟩
  · exact quiet_nil
  · -- the second time nothing is queued
    exact absurd h.2.1 (by decide)

end GovCrawler
