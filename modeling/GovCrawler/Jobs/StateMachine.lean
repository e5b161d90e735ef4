/-
The status of a job over its whole life.

Five writers change it.  `finish_job` is a no-op on a job that is done, failed or
cancelled, a heartbeat revives only an interrupted job and the reaper takes only running
ones, so none of them touches a job that has ended.  `resume_job` sets `running` whatever
it finds.

`status_final` says when that does no harm: as long as every resume that is accepted
finds its job interrupted, or running anyway.  `done_job_runs_again` resumes one that is
done.
-/
import GovCrawler.Jobs.JobSystem

namespace GovCrawler

open Relational Transition

/-- The status of a job that is there. -/
def CoordDb.status (db : CoordDb) (jobId : Nat) : Option String :=
  (db.jobs.get? jobId).map JobRow.status

def JobAction.isResume : JobAction → Bool
  | .resume _ _ _ _ => true
  | _ => false

/-- A resume changes the status of an interrupted job only, to running. -/
def JobEntry.Resumes (k : Nat) (h : JobEntry) : Prop :=
  h.action.isResume = true → ∀ st ∈ h.before.status k,
    h.after.status k = some st ∨
      (st = JobStatus.interrupted.value ∧ h.after.status k = some JobStatus.running.value)

/-! ### One step of one job -/

section Handle

variable {now : Time} {a : JobAction} {reply : Except HttpError JobReply} {j : JobRow}

/-- What is not a resume leaves the status of a job that has ended. -/
theorem status_handle_of_terminal (ha : a.isResume = false) (hj : j.status ∈ terminalStatuses) :
    (j.handle now a reply).status = j.status := by
  have hrunning : j.status ≠ JobStatus.running.value := by
    intro heq
    rw [heq] at hj
    exact absurd hj (by decide)
  have hinterrupted : j.status ≠ JobStatus.interrupted.value := by
    intro heq
    rw [heq] at hj
    exact absurd hj (by decide)
  cases a with
  | create req domains user | discover jobId domain | tick d => rfl
  | heartbeat jobId metrics user =>
      cases reply with
      | error e => rfl
      | ok r =>
          dsimp only [JobRow.handle]
          by_cases hid : j.id = jobId
          · rw [if_pos hid]
            exact if_neg hinterrupted
          · rw [if_neg hid]
  | finish jobId status error user =>
      cases reply with
      | error e => rfl
      | ok r =>
          dsimp only [JobRow.handle]
          rw [if_neg (fun hc => hc.2 hj)]
  | cancel jobId user =>
      cases reply with
      | error e => rfl
      | ok r =>
          dsimp only [JobRow.handle]
          split <;> rfl
  | resume jobId agentId domains user => cases ha
  | reap threshold =>
      dsimp only [JobRow.handle]
      rw [if_neg]
      intro hstale
      unfold CoordDb.stale at hstale
      rw [Bool.and_eq_true] at hstale
      exact hrunning (beq_iff_eq.mp hstale.1)

/-- An accepted resume sets its job running. -/
theorem status_handle_resume {jobId : Nat} {agentId : Option String} {domains : List DomainRow}
    {user : CurrentUser} :
    (j.handle now (.resume jobId agentId domains user) reply).status =
      if j.id = jobId ∧ reply.toBool = true then JobStatus.running.value else j.status := by
  cases reply with
  | error e => simp [JobRow.handle, Except.toBool]
  | ok r =>
      dsimp only [JobRow.handle]
      by_cases hid : j.id = jobId <;> simp [hid, Except.toBool]

end Handle

namespace JobSystem

variable {config : CoordConfig} {s t : JobSystem} {a : JobAction} {k : Nat}

/-- A resume of the job that is accepted finds it interrupted, or running. -/
def ResumesInterrupted (config : CoordConfig) (k : Nat) (s : JobSystem) : JobAction → Prop
  | .resume jobId agentId domains user =>
      jobId = k → (coordinationResumeJob config jobId agentId domains user s.db).1.toBool = true →
        ∀ st ∈ s.db.status k, st = JobStatus.interrupted.value ∨ st = JobStatus.running.value
  | _ => True

instance (config : CoordConfig) (k : Nat) (s : JobSystem) :
    ∀ a, Decidable (s.ResumesInterrupted config k a)
  | .resume jobId agentId domains user => by
      unfold ResumesInterrupted
      infer_instance
  | .create _ _ _ | .heartbeat _ _ _ | .finish _ _ _ _ | .cancel _ _ | .reap _ | .discover _ _
  | .tick _ => .isTrue trivial

/-- The status of the job has obeyed its state machine. -/
structure Lawful (k : Nat) (s : JobSystem) : Prop where
  /-- What has been done, failed or cancelled is still that. -/
  final : ∀ h ∈ s.history, ∀ st ∈ terminalStatuses, h.before.status k = some st →
    s.db.status k = some st
  resumed : ∀ h ∈ s.history, JobEntry.Resumes k h

/-- The status of a job that is there, after a step. -/
theorem status_step {j : JobRow} (hstep : s.step config a = some t)
    (hj : s.db.jobs.get? k = some j) :
    t.db.status k = some (j.handle s.now a (serve config s.now s.db a).1).status := by
  obtain ⟨-, hdb, -⟩ := step_eq_some hstep
  unfold CoordDb.status
  rw [hdb, get?_serve a hj]
  rfl

/-- A step resumes as it should if and only if it meets the condition. -/
theorem resumes_iff (hstep : s.step config a = some t) :
    JobEntry.Resumes k ⟨a, s.db, (serve config s.now s.db a).1, t.db⟩ ↔
      s.ResumesInterrupted config k a := by
  cases a with
  | resume jobId agentId domains user =>
      constructor
      · intro hresumes hid haccepted st hst
        obtain ⟨j, hj, rfl⟩ := Option.map_eq_some_iff.mp hst
        have hkey : j.id = k := Table.get?_key hj
        have hafter : t.db.status k = some JobStatus.running.value := by
          rw [status_step hstep hj, status_handle_resume, if_pos ⟨hkey.trans hid.symm, haccepted⟩]
        rcases hresumes rfl _ hst with hsame | ⟨hinterrupted, -⟩
        · exact Or.inr (Option.some.inj (hsame.symm.trans hafter))
        · exact Or.inl hinterrupted
      · intro hok _ st hst
        obtain ⟨j, hj, rfl⟩ := Option.map_eq_some_iff.mp hst
        have hkey : j.id = k := Table.get?_key hj
        dsimp only
        rw [status_step hstep hj, status_handle_resume]
        by_cases hc : j.id = jobId ∧ (serve config s.now s.db
            (.resume jobId agentId domains user)).1.toBool = true
        · rw [if_pos hc]
          rcases hok (hc.1.symm.trans hkey) hc.2 _ hst with hinterrupted | hrunning
          · exact Or.inr ⟨hinterrupted, rfl⟩
          · exact Or.inl (by rw [hrunning])
        · rw [if_neg hc]
          exact Or.inl rfl
  | create req domains user | heartbeat jobId metrics user | finish jobId status error user
  | cancel jobId user | reap threshold | discover jobId domain | tick d =>
      exact ⟨fun _ => trivial, fun _ ha => by cases ha⟩

/-- Under the condition a step leaves what has ended. -/
theorem final_step (hok : s.ResumesInterrupted config k a) (hstep : s.step config a = some t)
    {st : String} (hterm : st ∈ terminalStatuses) (hst : s.db.status k = some st) :
    t.db.status k = some st := by
  cases ha : a.isResume with
  | false =>
      obtain ⟨j, hj, rfl⟩ := Option.map_eq_some_iff.mp hst
      rw [status_step hstep hj, status_handle_of_terminal ha hterm]
  | true =>
      rcases (resumes_iff hstep).mpr hok ha st hst with hsame | ⟨hinterrupted, -⟩
      · exact hsame
      · rw [hinterrupted] at hterm
        exact absurd hterm (by decide)

theorem lawful_step (h : s.Lawful k) (hok : s.ResumesInterrupted config k a)
    (hstep : s.step config a = some t) : t.Lawful k := by
  obtain ⟨-, -, hhistory⟩ := step_eq_some hstep
  constructor
  · intro e he st hterm hst
    rw [hhistory, List.mem_append, List.mem_singleton] at he
    rcases he with he | rfl
    · exact final_step hok hstep hterm (h.final e he st hterm hst)
    · exact final_step hok hstep hterm hst
  · intro e he
    rw [hhistory, List.mem_append, List.mem_singleton] at he
    rcases he with he | rfl
    · exact h.resumed e he
    · exact (resumes_iff hstep).mpr hok

end JobSystem

/--
**The state machine of a job**, in every run of requests, sweeps and late heartbeats: what
has ended stays ended, and a resume only makes an interrupted job run, if and only if no
resume of the job is accepted unless it is interrupted or running.
-/
theorem status_final (config : CoordConfig) (k : Nat) {s t : JobSystem} {as : List JobAction}
    (h0 : s.history = []) (hr : run (JobSystem.step config) s as = some t) :
    t.Lawful k ↔ Meets (JobSystem.step config) (JobSystem.ResumesInterrupted config k) s as := by
  constructor
  · intro hlawful
    refine Meets.of_log (fun s a s' hs => ?_) hr hlawful.resumed
    obtain ⟨-, -, hhistory⟩ := JobSystem.step_eq_some hs
    exact ⟨_, hhistory, (JobSystem.resumes_iff hs).mp⟩
  · intro hm
    have hstart : s.Lawful k := ⟨fun h hh => by simp [h0] at hh, fun h hh => by simp [h0] at hh⟩
    exact run_invariant (fun _ _ _ hi hok hs => JobSystem.lawful_step hi hok hs) hstart hm hr

/-! ### One job -/

/-- Create the job, let it fall silent, resume it from its agent, and finish it. -/
def interruptedJob : List JobAction :=
  [.create { domainIds := [1], agentId := some "desk" } [townDomain] operator, .tick (seconds 200),
    .reap (seconds 150), .resume 1 (some "desk") [townDomain] operator,
    .finish 1 "done" none operator, .heartbeat 1 {} operator, .tick (seconds 200),
    .reap (seconds 150)]

theorem interrupted_job_done :
    ∃ t, run (JobSystem.step townConfig) { db := townDb } interruptedJob = some t ∧
      t.db.status 1 = some "done" ∧ t.Lawful 1 := by
  have hend : (run (JobSystem.step townConfig) { db := townDb } interruptedJob).map
      (fun t => t.db.status 1) = some (some "done") := by
    decide +kernel
  obtain ⟨t, hr, hdone⟩ := Option.map_eq_some_iff.mp hend
  exact ⟨t, hr, hdone, (status_final townConfig 1 rfl hr).mpr (by decide +kernel)⟩

/-- A job that is done is resumed. -/
theorem done_job_runs_again :
    ∃ t, run (JobSystem.step townConfig) { db := townDb }
        [.create { domainIds := [1], agentId := some "desk" } [townDomain] operator,
          .finish 1 "done" none operator, .resume 1 (some "desk") [townDomain] operator] = some t ∧
      t.db.status 1 = some "running" ∧ ¬ t.Lawful 1 := by
  have hend : (run (JobSystem.step townConfig) { db := townDb }
      [.create { domainIds := [1], agentId := some "desk" } [townDomain] operator,
        .finish 1 "done" none operator, .resume 1 (some "desk") [townDomain] operator]).map
      (fun t => (t.db.status 1, t.history.map fun h => h.before.status 1)) =
        some (some "running", [none, some "running", some "done"]) := by
    decide +kernel
  obtain ⟨t, hr, heq⟩ := Option.map_eq_some_iff.mp hend
  obtain ⟨hrunning, hbefore⟩ := Prod.mk.inj heq
  refine ⟨t, hr, hrunning, fun hlawful => ?_⟩
  have hmem : some "done" ∈ t.history.map fun h => h.before.status 1 := by
    rw [hbefore]
    decide
  obtain ⟨h, hh, hdone⟩ := List.mem_map.mp hmem
  have hstill := hlawful.final h hh "done" (by decide) hdone
  rw [hrunning] at hstill
  exact absurd hstill (by decide)

end GovCrawler
