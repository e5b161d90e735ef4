/-
Who may resume a job.

A job is stamped with the agent that creates it, or with the first that resumes it, and
`coordination_resume_job` is to reject every other agent.  The stamp is never taken off
again.  But the check is made only `if req.agent_id`, and the resume that follows it is
made anyway.

`resume_exclusive` says that the requests that leave out their `agent_id` are the only
hole: a job is resumed by its own agent alone if and only if nobody makes such a request
for a stamped job.  `desk_job_resumed_by_stranger` makes one.
-/
import GovCrawler.Jobs.JobSystem

namespace GovCrawler

open Relational Transition

/-- The agent a job is stamped with. -/
def CoordDb.stamp (db : CoordDb) (jobId : Nat) : Option String :=
  (db.jobs.get? jobId).bind JobRow.agentHostname

/-- The caller may resume the job, as far as permissions and ownership go. -/
def CoordDb.mayResume (db : CoordDb) (jobId : Nat) (user : CurrentUser) : Bool :=
  (require ["crawl.run"] user).toBool &&
    (db.authorizedJob jobId (forbidUnlessOwner · user)).toBool

/-- A resume that was accepted came from the agent that the job was stamped with. -/
def JobEntry.ByItsAgent (h : JobEntry) : Prop :=
  match h.action with
  | .resume jobId agentId _ _ =>
      h.reply.toBool = true → ∀ owner ∈ h.before.stamp jobId, agentId = some owner
  | _ => True

/-- A resume that was rejected has changed nothing. -/
def JobEntry.LeavesNoTrace (h : JobEntry) : Prop :=
  match h.action with
  | .resume _ _ _ _ => h.reply.toBool = false → h.after = h.before
  | _ => True

/-! ### One job -/

section Handle

variable {now : Time} {a : JobAction} {reply : Except HttpError JobReply} {j : JobRow}

/-- A stamp stays. -/
theorem agentHostname_handle {owner : String} (h : j.agentHostname = some owner) :
    (j.handle now a reply).agentHostname = some owner := by
  cases a with
  | create req domains user | discover jobId domain | tick d => exact h
  | heartbeat jobId metrics user | finish jobId status error user | cancel jobId user =>
      cases reply with
      | error e => exact h
      | ok r =>
          dsimp only [JobRow.handle]
          split <;> exact h
  | resume jobId agentId domains user =>
      cases reply with
      | error e => exact h
      | ok r =>
          dsimp only [JobRow.handle]
          split
          · dsimp only
            rw [h, claimed_some]
          · exact h
  | reap threshold =>
      dsimp only [JobRow.handle]
      split <;> exact h

end Handle

/-! ### The route -/

section Route

variable {config : CoordConfig} {db : CoordDb} {jobId : Nat} {agentId : Option String}
  {domains : List DomainRow} {user : CurrentUser}

/-- A request without an `agent_id` is accepted from everybody who may resume the job. -/
theorem resume_of_not_truthy (hagent : truthy agentId = false) :
    (coordinationResumeJob config jobId agentId domains user db).1.toBool =
      db.mayResume jobId user := by
  have hverify : (verifyAgent jobId agentId db).1 = true := by
    unfold verifyAgent
    cases agentId with
    | none => rfl
    | some agentId =>
        have hempty : agentId = "" := by simpa [truthy] using hagent
        simp [hempty]
  unfold coordinationResumeJob CoordDb.mayResume
  cases huser : require ["crawl.run"] user with
  | error e => rfl
  | ok caller =>
      obtain ⟨-, rfl⟩ := require_eq_ok_iff.mp huser
      dsimp only
      cases db.authorizedJob jobId (forbidUnlessOwner · user) with
      | error e => rfl
      | ok job =>
          dsimp only
          rw [if_pos hverify]
          rfl

/-- A request with one is accepted from the agent of the job only. -/
theorem resume_of_truthy {owner : String} (hagent : truthy agentId = true)
    (hok : (coordinationResumeJob config jobId agentId domains user db).1.toBool = true)
    (hstamp : db.stamp jobId = some owner) : agentId = some owner := by
  obtain ⟨job, hjob, howner⟩ := Option.bind_eq_some_iff.mp hstamp
  cases hreply : (coordinationResumeJob config jobId agentId domains user db).1 with
  | error e => rw [hreply] at hok; cases hok
  | ok reply =>
      obtain ⟨-, -, hverify, -⟩ := coordinationResumeJob_eq_ok hreply
      unfold verifyAgent at hverify
      cases agentId with
      | none => cases hagent
      | some agentId =>
          have hne : agentId ≠ "" := by simpa [truthy] using hagent
          dsimp only at hverify
          rw [if_neg hne] at hverify
          unfold CoordDb.claimOrVerifyJobAgent at hverify
          simp only [hjob, howner] at hverify
          rw [beq_iff_eq.mp hverify]

end Route

/-! ### The system -/

namespace JobSystem

variable {config : CoordConfig} {s t : JobSystem} {a : JobAction} {k : Nat}

/-- Nobody who may resume a stamped job leaves out the `agent_id`. -/
def Identified (s : JobSystem) : JobAction → Prop
  | .resume jobId agentId _ user =>
      truthy agentId = false → s.db.mayResume jobId user = true →
        ∀ owner ∈ s.db.stamp jobId, agentId = some owner
  | _ => True

instance (s : JobSystem) : ∀ a, Decidable (s.Identified a)
  | .resume jobId agentId domains user => by
      unfold Identified
      infer_instance
  | .create _ _ _ | .heartbeat _ _ _ | .finish _ _ _ _ | .cancel _ _ | .reap _ | .discover _ _
  | .tick _ => .isTrue trivial

/-- Jobs belong to their agents. -/
structure Exclusive (s : JobSystem) : Prop where
  resumed : ∀ h ∈ s.history, h.ByItsAgent
  rejected : ∀ h ∈ s.history, h.LeavesNoTrace
  /-- Every owner that a job has ever had is its owner. -/
  owner : ∀ h ∈ s.history, ∀ k a, h.before.stamp k = some a ∨ h.after.stamp k = some a →
    s.db.stamp k = some a

theorem byItsAgent_iff (hstep : s.step config a = some t) :
    JobEntry.ByItsAgent ⟨a, s.db, (serve config s.now s.db a).1, t.db⟩ ↔ s.Identified a := by
  cases a with
  | resume jobId agentId domains user =>
      constructor
      · intro hagent hnone hmay
        refine hagent ?_
        dsimp only [serve]
        rw [resume_of_not_truthy hnone, hmay]
      · intro hidentified haccepted owner howner
        dsimp only [serve] at haccepted
        cases htruthy : truthy agentId with
        | false =>
            rw [resume_of_not_truthy htruthy] at haccepted
            exact hidentified htruthy haccepted owner howner
        | true => exact resume_of_truthy htruthy haccepted howner
  | create req domains user | heartbeat jobId metrics user | finish jobId status error user
  | cancel jobId user | reap threshold | discover jobId domain | tick d => exact Iff.rfl

theorem leavesNoTrace_step (hstep : s.step config a = some t) :
    JobEntry.LeavesNoTrace ⟨a, s.db, (serve config s.now s.db a).1, t.db⟩ := by
  obtain ⟨-, hdb, -⟩ := step_eq_some hstep
  cases a with
  | resume jobId agentId domains user =>
      intro hrejected
      dsimp only [serve] at hrejected hdb ⊢
      cases hreply : (coordinationResumeJob config jobId agentId domains user s.db).1 with
      | error e => rw [hdb, coordinationResumeJob_rejects hreply]
      | ok reply => rw [hreply] at hrejected; cases hrejected
  | create req domains user | heartbeat jobId metrics user | finish jobId status error user
  | cancel jobId user | reap threshold | discover jobId domain | tick d => trivial

/-- No step takes a stamp off, or puts another one on. -/
theorem stamp_step (hstep : s.step config a = some t) {owner : String}
    (h : s.db.stamp k = some owner) : t.db.stamp k = some owner := by
  obtain ⟨-, hdb, -⟩ := step_eq_some hstep
  obtain ⟨j, hj, howner⟩ := Option.bind_eq_some_iff.mp h
  unfold CoordDb.stamp
  rw [hdb, get?_serve a hj]
  exact agentHostname_handle howner

theorem exclusive_step (h : s.Exclusive) (hok : s.Identified a) (hstep : s.step config a = some t) :
    t.Exclusive := by
  obtain ⟨-, -, hhistory⟩ := step_eq_some hstep
  have hmem : ∀ e ∈ t.history,
      e ∈ s.history ∨ e = ⟨a, s.db, (serve config s.now s.db a).1, t.db⟩ := by
    intro e he
    rw [hhistory, List.mem_append, List.mem_singleton] at he
    exact he
  refine ⟨?_, ?_, ?_⟩
  · intro e he
    rcases hmem e he with he | rfl
    · exact h.resumed e he
    · exact (byItsAgent_iff hstep).mpr hok
  · intro e he
    rcases hmem e he with he | rfl
    · exact h.rejected e he
    · exact leavesNoTrace_step hstep
  · intro e he k owner howner
    rcases hmem e he with he | rfl
    · exact stamp_step hstep (h.owner e he k owner howner)
    · rcases howner with howner | howner
      · exact stamp_step hstep howner
      · exact howner

end JobSystem

/--
**A job is resumed by its own agent** alone, in every run of requests of any agents, if and
only if nobody who may resume a stamped job leaves out the `agent_id`.  What is rejected
changes nothing, and a job has one owner at most.
-/
theorem resume_exclusive (config : CoordConfig) {s t : JobSystem} {as : List JobAction}
    (h0 : s.history = []) (hr : run (JobSystem.step config) s as = some t) :
    t.Exclusive ↔ Meets (JobSystem.step config) JobSystem.Identified s as := by
  constructor
  · intro hexclusive
    refine Meets.of_log (fun s a s' hs => ?_) hr hexclusive.resumed
    obtain ⟨-, -, hhistory⟩ := JobSystem.step_eq_some hs
    exact ⟨_, hhistory, (JobSystem.byItsAgent_iff hs).mp⟩
  · intro hm
    have hstart : s.Exclusive :=
      ⟨fun h hh => by simp [h0] at hh, fun h hh => by simp [h0] at hh,
        fun h hh => by simp [h0] at hh⟩
    exact run_invariant (fun _ _ _ hi hok hs => JobSystem.exclusive_step hi hok hs) hstart hm hr

/-! ### One job -/

/-- The desk's job, which the van asks for. -/
def deskJob : List JobAction :=
  [.create { domainIds := [1], agentId := some "desk" } [townDomain] operator,
    .resume 1 (some "van") [townDomain] operator, .resume 1 (some "desk") [townDomain] operator]

theorem desk_resumes_its_job :
    ∃ t, run (JobSystem.step townConfig) { db := townDb } deskJob = some t ∧
      t.history.map (fun h => h.reply.toBool) = [true, false, true] ∧ t.Exclusive := by
  have hend : (run (JobSystem.step townConfig) { db := townDb } deskJob).map
      (fun t => t.history.map fun h => h.reply.toBool) = some [true, false, true] := by
    decide +kernel
  obtain ⟨t, hr, hreplies⟩ := Option.map_eq_some_iff.mp hend
  exact ⟨t, hr, hreplies, (resume_exclusive townConfig rfl hr).mpr (by decide +kernel)⟩

/-- A request that does not say where it comes from. -/
theorem desk_job_resumed_by_stranger :
    ∃ t, run (JobSystem.step townConfig) { db := townDb }
        [.create { domainIds := [1], agentId := some "desk" } [townDomain] operator,
          .resume 1 none [townDomain] operator] = some t ∧ ¬ t.Exclusive := by
  have hend : (run (JobSystem.step townConfig) { db := townDb }
      [.create { domainIds := [1], agentId := some "desk" } [townDomain] operator,
        .resume 1 none [townDomain] operator]).map
      (fun t => t.history.map fun h => (h.action, h.reply.toBool, h.before.stamp 1)) =
        some [(.create { domainIds := [1], agentId := some "desk" } [townDomain] operator, true, none),
          (.resume 1 none [townDomain] operator, true, some "desk")] := by
    decide +kernel
  obtain ⟨t, hr, heq⟩ := Option.map_eq_some_iff.mp hend
  refine ⟨t, hr, fun hexclusive => ?_⟩
  have hmem : (JobAction.resume 1 none [townDomain] operator, true, some "desk") ∈
      t.history.map fun h => (h.action, h.reply.toBool, h.before.stamp 1) := by
    rw [heq]
    exact List.mem_cons_of_mem _ List.mem_cons_self
  obtain ⟨h, hh, hentry⟩ := List.mem_map.mp hmem
  obtain ⟨haction, hentry⟩ := Prod.mk.inj hentry
  obtain ⟨haccepted, hstamp⟩ := Prod.mk.inj hentry
  have hagent := hexclusive.resumed h hh
  unfold JobEntry.ByItsAgent at hagent
  rw [haction] at hagent
  exact absurd (hagent haccepted "desk" hstamp) nofun

end GovCrawler
