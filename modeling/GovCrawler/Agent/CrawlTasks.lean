/-
The crawl tasks of an agent, `agent/api.py`.

The routes spawn `_run_crawl` tasks and register them in `active_tasks`, and a task takes
its job out of the registry in its `finally`.  The event loop runs one of them from one
`await` to the next.  `resume_job` looks into the registry before it asks the cloud, which
is an `await`, and registers its task after; a task takes its job out before it closes its
client, which is another.

`one_task_per_job` says what the registry is worth: every unfinished task is the one that
is registered for its job, in every state, if and only if no task is ever registered while
another of its job is unfinished and no task still has something to await when it has
taken its job out.  `two_tasks_of_one_job` resumes a job twice at the same time.
-/
import GovCrawler.Lib.Transition
import GovCrawler.Lib.TaskRegistry

namespace GovCrawler

open Transition TaskRegistry

/-! ### Tasks and handlers -/

/-- Where a `_run_crawl` task is. -/
inductive CrawlPc
  /-- It has been created, and has not run yet. -/
  | created
  /-- In the `try`, or in the handlers of what was raised in it. -/
  | running
  /-- In `cloud.aclose()`. -/
  | closing
  | finished
  deriving DecidableEq, Repr

structure CrawlTask where
  jobId : Nat
  pc : CrawlPc := .created
  /-- `task.cancel()` was called before the task has run. -/
  cancelled : Bool := false
  deriving DecidableEq, Repr

/-- `not task.done()`. -/
def CrawlTask.unfinished (t : CrawlTask) : Bool := t.pc ≠ .finished

/-- A route that waits for the cloud. -/
inductive AgentHandler
  | create
  | resume (jobId : Nat)
  deriving DecidableEq, Repr

/-- The job a handler waits to resume. -/
def AgentHandler.resumes : AgentHandler → Option Nat
  | .create => none
  | .resume jobId => some jobId

structure Agent where
  tasks : List CrawlTask := []
  activeTasks : Registry Nat := fun _ => none
  handlers : List AgentHandler := []

inductive AgentAction
  /-- `create_job` up to `create_remote_job`. -/
  | createJob
  /-- `resume_job` up to `resume_remote_job`. -/
  | resumeJob (jobId : Nat)
  /-- The cloud has created a job: the rest of `create_job`. -/
  | created (h jobId : Nat)
  /-- The cloud has resumed the job: the rest of `resume_job`. -/
  | resumed (h : Nat)
  /-- The cloud refuses, or its answer does not come. -/
  | refused (h : Nat)
  /-- `cancel_job_if_running`, which `cancel_job` comes to when the cloud has answered. -/
  | cancelJob (jobId : Nat)
  /-- A task runs for the first time. -/
  | start (i : Nat)
  /-- A task comes to its `finally`; `suspends` says whether `aclose` has something to await. -/
  | leave (i : Nat) (suspends : Bool)
  /-- `aclose` returns, or raises. -/
  | closed (i : Nat)
  deriving DecidableEq, Repr

namespace Agent

variable (s : Agent)

/-- `active_tasks[job_id] = asyncio.create_task(_run_crawl(job_id, …))`. -/
def spawn (jobId : Nat) : Agent :=
  { s with
    tasks := s.tasks ++ [{ jobId := jobId }]
    activeTasks := s.activeTasks.put jobId s.tasks.length }

/-- `job_id in active_tasks and not active_tasks[job_id].done()`. -/
def isRunning (jobId : Nat) : Bool :=
  ((s.activeTasks jobId).bind fun i => s.tasks[i]?).any CrawlTask.unfinished

/-- `task.cancel()`.  A task that has run handles it in its own time, and comes to its `finally`
like any other; one that has not will not run. -/
def cancel (i : Nat) : Agent :=
  match s.tasks[i]? with
  | some t => { s with tasks := s.tasks.set i { t with cancelled := t.cancelled || t.pc = .created } }
  | none => s

def finishHandler (h : Nat) : Agent := { s with handlers := s.handlers.eraseIdx h }

def step : AgentAction → Option Agent
  | .createJob => some { s with handlers := s.handlers ++ [.create] }
  | .resumeJob jobId =>
      -- a running job is answered with a 409
      if s.isRunning jobId then some s
      else some { s with handlers := s.handlers ++ [.resume jobId] }
  | .created h jobId =>
      match s.handlers[h]? with
      | some .create => some ((s.finishHandler h).spawn jobId)
      | _ => none
  | .resumed h =>
      match s.handlers[h]? with
      | some (.resume jobId) => some ((s.finishHandler h).spawn jobId)
      | _ => none
  | .refused h => if h < s.handlers.length then some (s.finishHandler h) else none
  | .cancelJob jobId =>
      match s.activeTasks jobId with
      | some i => if s.isRunning jobId then some (s.cancel i) else some s
      | none => some s
  | .start i =>
      match s.tasks[i]? with
      | some t =>
          if t.pc = .created then
            some { s with
              tasks := s.tasks.set i { t with pc := if t.cancelled then .finished else .running } }
          else none
      | none => none
  | .leave i suspends =>
      match s.tasks[i]? with
      | some t =>
          if t.pc = .running then
            some { s with
              tasks := s.tasks.set i { t with pc := if suspends then .closing else .finished }
              activeTasks := s.activeTasks.pop t.jobId }
          else none
      | none => none
  | .closed i =>
      match s.tasks[i]? with
      | some t =>
          if t.pc = .closing then some { s with tasks := s.tasks.set i { t with pc := .finished } }
          else none
      | none => none

/-- No job has two unfinished tasks, and `active_tasks` has the one that a job has. -/
structure OneTask : Prop where
  alone : ∀ (i j : Nat) (t u : CrawlTask), s.tasks[i]? = some t → s.tasks[j]? = some u →
    t.unfinished = true →
    u.unfinished = true → t.jobId = u.jobId → i = j
  registered : Registered CrawlTask.jobId CrawlTask.unfinished s.tasks s.activeTasks

/-- Whatever is registered is the only unfinished task of its job, and a task that has taken
its job out is through. -/
def Orderly : AgentAction → Prop
  | .created h jobId =>
      s.handlers[h]? = some .create → Free CrawlTask.jobId CrawlTask.unfinished s.tasks jobId
  | .resumed h => ∀ jobId ∈ s.handlers[h]?.bind AgentHandler.resumes,
      Free CrawlTask.jobId CrawlTask.unfinished s.tasks jobId
  | .leave _ suspends => suspends = false
  | _ => True

instance (s : Agent) : ∀ a, Decidable (s.Orderly a)
  | .created h jobId | .resumed h => by
      unfold Orderly
      infer_instance
  | .leave _ suspends => inferInstanceAs (Decidable (suspends = false))
  | .createJob | .resumeJob _ | .refused _ | .cancelJob _ | .start _ | .closed _ => .isTrue trivial

variable {s t : Agent}

/-- A task that is registered is alone. -/
theorem oneTask_iff :
    s.OneTask ↔ Registered CrawlTask.jobId CrawlTask.unfinished s.tasks s.activeTasks :=
  ⟨fun h => h.registered, fun h =>
    ⟨fun _ _ _ _ ht hu hlive hlive' hjob => h.unique ht hu hlive hlive' hjob, h⟩⟩

theorem unfinished_created (jobId : Nat) : ({ jobId := jobId } : CrawlTask).unfinished = true := rfl

/-- Registering a task is right exactly when no other of its job is unfinished. -/
theorem oneTask_spawn_iff (h : s.OneTask) (jobId : Nat) :
    (s.spawn jobId).OneTask ↔ Free CrawlTask.jobId CrawlTask.unfinished s.tasks jobId :=
  oneTask_iff.trans (registered_spawn_iff h.registered (unfinished_created jobId))

/-- **One step.**  A step keeps the registry right exactly when it is orderly. -/
theorem oneTask_step_iff (h : s.OneTask) {a : AgentAction} (hstep : s.step a = some t) :
    t.OneTask ↔ s.Orderly a := by
  have hregistered := h.registered
  cases a with
  | createJob =>
      obtain rfl := Option.some.inj hstep
      exact iff_of_true ⟨h.alone, hregistered⟩ trivial
  | resumeJob jobId =>
      dsimp only [step] at hstep
      split at hstep
      · obtain rfl := Option.some.inj hstep
        exact iff_of_true h trivial
      · obtain rfl := Option.some.inj hstep
        exact iff_of_true ⟨h.alone, hregistered⟩ trivial
  | created i jobId =>
      dsimp only [step] at hstep
      split at hstep
      · rename_i hget
        obtain rfl := Option.some.inj hstep
        have hspawn := oneTask_spawn_iff (s := s.finishHandler i) ⟨h.alone, h.registered⟩ jobId
        exact hspawn.trans ⟨fun hfree _ => hfree, fun hfree => hfree hget⟩
      · cases hstep
  | resumed i =>
      dsimp only [step] at hstep
      split at hstep
      · rename_i jobId hget
        obtain rfl := Option.some.inj hstep
        have hspawn := oneTask_spawn_iff (s := s.finishHandler i) ⟨h.alone, h.registered⟩ jobId
        have hresumes : s.handlers[i]?.bind AgentHandler.resumes = some jobId := by
          rw [hget]
          rfl
        refine hspawn.trans ⟨fun hfree jobId' hjob => ?_, fun hfree => hfree jobId hresumes⟩
        obtain rfl := Option.some.inj (hresumes.symm.trans hjob)
        exact hfree
      · cases hstep
  | refused i =>
      dsimp only [step] at hstep
      split at hstep
      · obtain rfl := Option.some.inj hstep
        exact iff_of_true ⟨h.alone, hregistered⟩ trivial
      · cases hstep
  | cancelJob jobId =>
      refine iff_of_true ?_ trivial
      dsimp only [step] at hstep
      split at hstep
      · rename_i i _
        split at hstep
        · obtain rfl := Option.some.inj hstep
          unfold cancel
          split
          · rename_i task hget
            exact oneTask_iff.mpr (hregistered.set hget rfl id)
          · exact h
        · obtain rfl := Option.some.inj hstep
          exact h
      · obtain rfl := Option.some.inj hstep
        exact h
  | start i =>
      refine iff_of_true ?_ trivial
      dsimp only [step] at hstep
      split at hstep
      · rename_i task hget
        split at hstep
        · rename_i hpc
          obtain rfl := Option.some.inj hstep
          refine oneTask_iff.mpr (hregistered.set hget rfl fun _ => ?_)
          simp [CrawlTask.unfinished, hpc]
        · cases hstep
      · cases hstep
  | leave i suspends =>
      dsimp only [step] at hstep
      split at hstep
      · rename_i task hget
        split at hstep
        · rename_i hpc
          obtain rfl := Option.some.inj hstep
          have hlive : task.unfinished = true := by simp [CrawlTask.unfinished, hpc]
          have hpop : Registered CrawlTask.jobId CrawlTask.unfinished
              (s.tasks.set i { task with pc := if suspends then .closing else .finished })
              (s.activeTasks.pop task.jobId) ↔ _ := registered_pop_iff hregistered hget hlive rfl
          refine oneTask_iff.trans (hpop.trans ?_)
          cases suspends <;> simp [CrawlTask.unfinished, Orderly]
        · cases hstep
      · cases hstep
  | closed i =>
      refine iff_of_true ?_ trivial
      dsimp only [step] at hstep
      split at hstep
      · rename_i task hget
        split at hstep
        · rename_i hpc
          obtain rfl := Option.some.inj hstep
          refine oneTask_iff.mpr (hregistered.set hget rfl fun _ => ?_)
          simp [CrawlTask.unfinished, hpc]
        · cases hstep
      · cases hstep

/-- A resume that finds its job not running finds no unfinished task of it. -/
theorem free_of_not_isRunning (h : s.OneTask) {jobId : Nat} (hnot : s.isRunning jobId = false) :
    Free CrawlTask.jobId CrawlTask.unfinished s.tasks jobId := by
  intro task hmem hlive hjob
  obtain ⟨i, hget⟩ := List.mem_iff_getElem?.mp hmem
  have hregistered := h.registered i task hget hlive
  have hrunning : s.isRunning jobId = true := by
    unfold isRunning
    rw [← hjob, hregistered, Option.bind_some, hget]
    exact hlive
  rw [hrunning] at hnot
  cases hnot

end Agent

/--
**One live task per job**: in every interleaving of the routes and the tasks, every
unfinished task is the one that `active_tasks` has for its job, so that no job has two, in
every state, if and only if no task is registered while another of its job is unfinished and
no task has anything left to await once it has taken its job out.
-/
theorem one_task_per_job {t : Agent} {as : List AgentAction} (hr : run Agent.step {} as = some t) :
    Always Agent.step Agent.OneTask {} as ↔ Meets Agent.step Agent.Orderly {} as := by
  have hstart : Agent.OneTask {} := Agent.oneTask_iff.mpr fun i task hget => by cases hget
  exact always_iff_meets (fun _ _ _ hP hs => Agent.oneTask_step_iff hP hs) hstart hr

/-! ### One job -/

/-- A crawl that is created, cancelled before it has run, and resumed. -/
def resumedCrawl : List AgentAction :=
  [.createJob, .created 0 7, .cancelJob 7, .start 0, .resumeJob 7, .resumed 0, .start 1]

theorem resumed_crawl_alone :
    ∃ t, run Agent.step {} resumedCrawl = some t ∧
      t.tasks = [⟨7, .finished, true⟩, ⟨7, .running, false⟩] ∧
      Always Agent.step Agent.OneTask {} resumedCrawl := by
  have hend : (run Agent.step {} resumedCrawl).map Agent.tasks =
      some [⟨7, .finished, true⟩, ⟨7, .running, false⟩] := by
    decide
  obtain ⟨t, hr, htasks⟩ := Option.map_eq_some_iff.mp hend
  exact ⟨t, hr, htasks, (one_task_per_job hr).mpr (by decide)⟩

/-- Two requests to resume a job pass the check before the cloud has answered either. -/
theorem two_tasks_of_one_job :
    ∃ t, run Agent.step {} [.resumeJob 7, .resumeJob 7, .resumed 0, .resumed 0] = some t ∧
      t.tasks = [⟨7, .created, false⟩, ⟨7, .created, false⟩] ∧ ¬ t.OneTask := by
  have hend : (run Agent.step {} [.resumeJob 7, .resumeJob 7, .resumed 0, .resumed 0]).map
      (fun t => (t.tasks, t.activeTasks 7)) =
        some ([⟨7, .created, false⟩, ⟨7, .created, false⟩], some 1) := by
    decide
  obtain ⟨t, hr, heq⟩ := Option.map_eq_some_iff.mp hend
  obtain ⟨htasks, hregistered⟩ := Prod.mk.inj heq
  refine ⟨t, hr, htasks, fun hone => ?_⟩
  have hfirst := hone.registered 0 ⟨7, .created, false⟩ (by rw [htasks]; rfl) rfl
  rw [hregistered] at hfirst
  cases hfirst

end GovCrawler
