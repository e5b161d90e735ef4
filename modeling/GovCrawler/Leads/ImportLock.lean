/-
The import lock, `src/cloud/api/imports.py`.

`_import_lock` is taken by a route and given back by the task that the route creates, in the
`finally` of the import.  `trigger_import` has nothing between the two that it could fail at
but the creation itself; `trigger_json_import` reads the upload, which is an `await`, and
writes a temporary file, and none of that is in a `try`.  The event loop runs a handler or a
task from one `await` to the next.

`import_lock_released` says when an import task that will give the lock back is alive in
every state in which the lock is held and no handler is on its way to create one.  The
argument is a count: `holders` is the number of those who are going to give the lock back,
and `step_effect` says for every step what it does to the count and to the lock.  There is
never more than one holder, so a state is as it should be exactly when the lock is held as
often as there are holders; `lock_never_free` says what comes of a state that is not.
-/
import GovCrawler.Lib.Transition

namespace GovCrawler

open Transition

/-! ### Handlers and tasks -/

/-- Where a `_run_json_import` or a `_run_import` task is. -/
inductive ImportPc
  /-- It has been created, and has not run yet. -/
  | created
  /-- In the `try`: the import goes on in a thread. -/
  | importing
  | finished
  deriving DecidableEq, Repr

structure ImportTask where
  /-- The task deletes its file: it is one of `_run_json_import`. -/
  cleanup : Bool
  pc : ImportPc := .created
  /-- `task.cancel()` was called before the task has run. -/
  cancelled : Bool := false
  deriving DecidableEq, Repr

/-- The task is alive, and comes to the `finally` that releases the lock if it is left to run. -/
def ImportTask.willRelease (task : ImportTask) : Bool :=
  match task.pc with
  | .created => !task.cancelled
  | .importing => true
  | .finished => false

/-- What `trigger_json_import` does between `acquire` and the end of `create_task`. -/
inductive UploadStep
  /-- `await file.read()`; the request may be cancelled there too. -/
  | read
  | namedTemporaryFile
  | write
  | close
  | createTask
  deriving DecidableEq, Repr

structure ImportState where
  /-- `_import_lock.locked()` -/
  locked : Bool := false
  /-- The handlers of `trigger_json_import` that wait in `file.read()`. -/
  reading : Nat := 0
  tasks : List ImportTask := []
  deriving DecidableEq, Repr

inductive ImportAction
  /-- `trigger_json_import` up to `file.read()`. -/
  | triggerJson
  /-- `trigger_import`; `spawned` says whether the task could be created. -/
  | trigger (spawned : Bool)
  /-- The rest of `trigger_json_import`, up to the step that raises if there is one. -/
  | upload (failed : Option UploadStep)
  /-- `task.cancel()` -/
  | cancel (i : Nat)
  /-- A task runs for the first time; `logged` says that nothing is raised before its `try`. -/
  | start (i : Nat) (logged : Bool)
  /-- The import returns, raises or is cancelled; `unlinked` says that `unlink` does not raise. -/
  | leave (i : Nat) (unlinked : Bool)
  deriving DecidableEq, Repr

namespace ImportState

variable (s : ImportState)

/-- `asyncio.create_task(…)`. -/
def spawn (cleanup : Bool) : ImportState := { s with tasks := s.tasks ++ [{ cleanup := cleanup }] }

/-- `task.cancel()`.  A task that is importing is raised out of its `try`, which is a `leave`; one
that has not run will not run. -/
def cancel (i : Nat) : ImportState :=
  match s.tasks[i]? with
  | some task =>
      { s with tasks := s.tasks.set i { task with cancelled := task.cancelled || task.pc = .created } }
  | none => s

def step : ImportAction → Option ImportState
  | .triggerJson =>
      -- a held lock is answered with the status of the import that runs
      if s.locked then some s else some { s with locked := true, reading := s.reading + 1 }
  | .trigger spawned =>
      if s.locked then some s
      else
        let held := { s with locked := true }
        some (if spawned then held.spawn false else held)
  | .upload failed =>
      if 0 < s.reading then
        let through := { s with reading := s.reading - 1 }
        some (if failed = none then through.spawn true else through)
      else none
  | .cancel i => if i < s.tasks.length then some (s.cancel i) else none
  | .start i logged =>
      match s.tasks[i]? with
      | some task =>
          if task.pc = .created then
            let runs := !task.cancelled && logged
            some { s with
              tasks := s.tasks.set i { task with pc := if runs then .importing else .finished } }
          else none
      | none => none
  | .leave i unlinked =>
      match s.tasks[i]? with
      | some task =>
          if task.pc = .importing then
            let ended := { s with tasks := s.tasks.set i { task with pc := .finished } }
            -- what `unlink` raises leaves the `finally` before `release`
            some (if task.cleanup && !unlinked then ended else { ended with locked := false })
          else none
      | none => none

/-- If the lock is held and no handler is on its way to create its task, a task is alive that
will release it. -/
def Released : Prop :=
  s.locked = true → s.reading = 0 → ∃ task ∈ s.tasks, task.willRelease = true

instance : Decidable s.Released :=
  inferInstanceAs (Decidable (s.locked = true → s.reading = 0 →
    ∃ task ∈ s.tasks, task.willRelease = true))

/-- Those who are going to release the lock: handlers that will create a task, and tasks. -/
def holders : Nat := s.reading + s.tasks.countP ImportTask.willRelease

def AtMostOne : Prop := s.holders ≤ s.locked.toNat

/-- The task has not run and nobody has cancelled it. -/
def Pending (i : Nat) : Prop :=
  ∃ task ∈ s.tasks[i]?, task.pc = .created ∧ task.cancelled = false

instance (i : Nat) : Decidable (s.Pending i) :=
  inferInstanceAs (Decidable (∃ task ∈ s.tasks[i]?, task.pc = .created ∧ task.cancelled = false))

/-- No step fails between taking the lock and the `try` of the task, no task is cancelled
before it has run, and the file of an import can be deleted. -/
def Unfailing : ImportAction → Prop
  | .triggerJson => True
  | .trigger spawned => s.locked = false → spawned = true
  | .upload failed => failed = none
  | .cancel i => ¬ s.Pending i
  | .start i logged => s.Pending i → logged = true
  | .leave i unlinked => ∀ task ∈ s.tasks[i]?, task.cleanup = true → unlinked = true

instance (s : ImportState) : ∀ a, Decidable (s.Unfailing a)
  | .triggerJson => .isTrue trivial
  | .trigger spawned => inferInstanceAs (Decidable (s.locked = false → spawned = true))
  | .upload failed => inferInstanceAs (Decidable (failed = none))
  | .cancel i => inferInstanceAs (Decidable (¬ s.Pending i))
  | .start i logged => inferInstanceAs (Decidable (s.Pending i → logged = true))
  | .leave i unlinked =>
      inferInstanceAs (Decidable (∀ task ∈ s.tasks[i]?, task.cleanup = true → unlinked = true))

variable {s t : ImportState}

theorem released_iff : s.Released ↔ s.locked.toNat ≤ s.holders := by
  have hcount : 0 < s.tasks.countP ImportTask.willRelease ↔
      ∃ task ∈ s.tasks, task.willRelease = true := List.countP_pos_iff
  unfold Released holders
  rw [← hcount]
  cases s.locked with
  | false => simp
  | true =>
      simp only [forall_const, Bool.toNat_true]
      omega

theorem holders_spawn (s : ImportState) (cleanup : Bool) :
    (s.spawn cleanup).holders = s.holders + 1 := by
  have hnew : List.countP ImportTask.willRelease [{ cleanup := cleanup }] = 1 := rfl
  unfold holders spawn
  rw [List.countP_append, hnew, Nat.add_assoc]

theorem pending_iff {i : Nat} {task : ImportTask} (hget : s.tasks[i]? = some task) :
    s.Pending i ↔ task.pc = .created ∧ task.cancelled = false := by
  simp [Pending, hget]

/-- A task that changes is counted as it was before or as it is now. -/
theorem countP_set_task {i : Nat} {task : ImportTask} (hget : s.tasks[i]? = some task)
    (task' : ImportTask) :
    (s.tasks.set i task').countP ImportTask.willRelease + task.willRelease.toNat =
      s.tasks.countP ImportTask.willRelease + task'.willRelease.toNat := by
  obtain ⟨hlt, hval⟩ := List.getElem?_eq_some_iff.mp hget
  have hpos : task.willRelease = true → 0 < s.tasks.countP ImportTask.willRelease :=
    fun h => List.countP_pos_iff.mpr ⟨task, List.mem_of_getElem? hget, h⟩
  rw [List.countP_set hlt, hval]
  cases hold : task.willRelease with
  | true =>
      have := hpos hold
      cases task'.willRelease <;> simp <;> omega
  | false => cases task'.willRelease <;> simp

theorem holders_set {i : Nat} {task task' : ImportTask} (hget : s.tasks[i]? = some task)
    (hsame : task'.willRelease = task.willRelease) :
    { s with tasks := s.tasks.set i task' }.holders = s.holders := by
  have hcount := countP_set_task hget task'
  rw [hsame] at hcount
  unfold holders
  dsimp only
  omega

theorem holders_set_lost {i : Nat} {task : ImportTask} (task' : ImportTask) (hget : s.tasks[i]? = some task)
    (hbefore : task.willRelease = true) (hafter : task'.willRelease = false) :
    { s with tasks := s.tasks.set i task' }.holders + 1 = s.holders := by
  have hcount := countP_set_task hget task'
  rw [hbefore, hafter, Bool.toNat_true, Bool.toNat_false] at hcount
  unfold holders
  dsimp only
  omega

/-- What a step can do to the lock and to those who hold it. -/
inductive Effect (s t : ImportState) (a : ImportAction) : Prop
  | keeps (locked : t.locked = s.locked) (holders : t.holders = s.holders) (ok : s.Unfailing a)
  | acquires (free : s.locked = false) (locked : t.locked = true)
      (holders : t.holders = s.holders + 1) (ok : s.Unfailing a)
  | releases (locked : t.locked = false) (holders : t.holders + 1 = s.holders)
      (ok : s.Unfailing a)
  /-- The lock is taken, and nobody is left who would release it. -/
  | wastes (free : s.locked = false) (locked : t.locked = true) (holders : t.holders = s.holders)
      (failed : ¬ s.Unfailing a)
  /-- Somebody who was to release the lock is gone. -/
  | loses (locked : t.locked = s.locked) (holders : t.holders + 1 = s.holders)
      (failed : ¬ s.Unfailing a)

theorem step_effect {a : ImportAction} (hstep : s.step a = some t) : Effect s t a := by
  cases a with
  | triggerJson =>
      dsimp only [step] at hstep
      split at hstep
      · obtain rfl := Option.some.inj hstep
        exact .keeps rfl rfl trivial
      · rename_i hfree
        obtain rfl := Option.some.inj hstep
        refine .acquires ((Bool.not_eq_true _).mp hfree) rfl ?_ trivial
        unfold holders
        dsimp only
        omega
  | trigger spawned =>
      dsimp only [step] at hstep
      split at hstep
      · rename_i hlocked
        obtain rfl := Option.some.inj hstep
        refine .keeps rfl rfl fun hfree => ?_
        rw [hlocked] at hfree
        cases hfree
      · rename_i hfree
        have hfree : s.locked = false := (Bool.not_eq_true _).mp hfree
        obtain rfl := Option.some.inj hstep
        cases spawned with
        | true => exact .acquires hfree rfl (holders_spawn _ false) fun _ => rfl
        | false => exact .wastes hfree rfl rfl fun hok => Bool.noConfusion (hok hfree)
  | upload failed =>
      dsimp only [step] at hstep
      split at hstep
      · obtain rfl := Option.some.inj hstep
        cases failed with
        | none =>
            refine .keeps rfl ?_ rfl
            rw [if_pos rfl, holders_spawn]
            unfold holders
            dsimp only
            omega
        | some failure =>
            have hfailed : ¬ s.Unfailing (.upload (some failure)) := Option.some_ne_none failure
            refine .loses rfl ?_ hfailed
            rw [if_neg (Option.some_ne_none failure)]
            unfold holders
            dsimp only
            omega
      · cases hstep
  | cancel i =>
      dsimp only [step] at hstep
      split at hstep
      · rename_i hlt
        obtain rfl := Option.some.inj hstep
        have hget : s.tasks[i]? = some s.tasks[i] := List.getElem?_eq_getElem hlt
        unfold cancel
        rw [hget]
        generalize s.tasks[i] = task at hget
        obtain ⟨cleanup, pc, cancelled⟩ := task
        have hnot (hpc : pc ≠ .created ∨ cancelled = true) : s.Unfailing (.cancel i) :=
          fun hpending => by simp_all [pending_iff hget]
        cases pc with
        | created =>
            cases cancelled with
            | false =>
                have hpending : s.Pending i := (pending_iff hget).mpr ⟨rfl, rfl⟩
                exact .loses rfl (holders_set_lost _ hget rfl rfl) fun hok => hok hpending
            | true => exact .keeps rfl (holders_set hget rfl) (hnot (.inr rfl))
        | importing => exact .keeps rfl (holders_set hget rfl) (hnot (.inl (by decide)))
        | finished => exact .keeps rfl (holders_set hget rfl) (hnot (.inl (by decide)))
      · cases hstep
  | start i logged =>
      dsimp only [step] at hstep
      split at hstep
      · rename_i task hget
        obtain ⟨cleanup, pc, cancelled⟩ := task
        split at hstep
        · rename_i hpc
          obtain rfl : pc = .created := hpc
          obtain rfl := Option.some.inj hstep
          cases cancelled with
          | true =>
              refine .keeps rfl (holders_set hget rfl) fun hpending => ?_
              exact Bool.noConfusion ((pending_iff hget).mp hpending).2
          | false =>
              have hpending : s.Pending i := (pending_iff hget).mpr ⟨rfl, rfl⟩
              cases logged with
              | true => exact .keeps rfl (holders_set hget rfl) fun _ => rfl
              | false =>
                  exact .loses rfl (holders_set_lost _ hget rfl rfl) fun hok =>
                    Bool.noConfusion (hok hpending)
        · cases hstep
      · cases hstep
  | leave i unlinked =>
      dsimp only [step] at hstep
      split at hstep
      · rename_i task hget
        obtain ⟨cleanup, pc, cancelled⟩ := task
        split at hstep
        · rename_i hpc
          obtain rfl : pc = .importing := hpc
          obtain rfl := Option.some.inj hstep
          have hlost := holders_set_lost ⟨cleanup, .finished, cancelled⟩ hget rfl rfl
          have hok : s.Unfailing (.leave i unlinked) ↔ (cleanup = true → unlinked = true) := by
            simp [Unfailing, hget]
          cases cleanup with
          | false => exact .releases rfl hlost (hok.mpr fun h => Bool.noConfusion h)
          | true =>
              cases unlinked with
              | true => exact .releases rfl hlost (hok.mpr fun _ => rfl)
              | false => exact .loses rfl hlost fun h => Bool.noConfusion (hok.mp h rfl)
        · cases hstep
      · cases hstep

/-- Whatever fails, nobody releases a lock that somebody else has taken. -/
theorem atMostOne_step {a : ImportAction} (h : s.AtMostOne) (hstep : s.step a = some t) :
    t.AtMostOne := by
  unfold AtMostOne at h ⊢
  cases step_effect hstep with
  | keeps locked holders _ => rw [locked, holders]; exact h
  | acquires free locked holders _ =>
      rw [free] at h
      rw [locked, holders]
      exact Nat.succ_le_succ h
  | releases locked holders _ =>
      have := Bool.toNat_le s.locked
      rw [locked, Bool.toNat_false]
      omega
  | wastes free locked holders _ =>
      rw [free] at h
      rw [locked, holders]
      exact Nat.le_succ_of_le h
  | loses locked holders _ =>
      rw [locked]
      omega

/-- **One step.**  A step keeps the lock in the hands of somebody who releases it exactly when
it does not fail. -/
theorem released_step_iff {a : ImportAction} (h : s.AtMostOne) (hs : s.Released)
    (hstep : s.step a = some t) : t.Released ↔ s.Unfailing a := by
  rw [released_iff] at hs ⊢
  unfold AtMostOne at h
  cases step_effect hstep with
  | keeps locked holders ok => exact iff_of_true (by rw [locked, holders]; exact hs) ok
  | acquires free locked holders ok =>
      refine iff_of_true ?_ ok
      rw [locked, holders]
      exact Nat.le_add_left 1 s.holders
  | releases locked holders ok =>
      refine iff_of_true ?_ ok
      rw [locked]
      exact Nat.zero_le _
  | wastes free locked holders failed =>
      refine iff_of_false ?_ failed
      rw [free, Bool.toNat_false] at h
      rw [locked, holders, Bool.toNat_true]
      omega
  | loses locked holders failed =>
      refine iff_of_false ?_ failed
      rw [locked]
      omega

/-- **What comes of it.**  A lock that is held by nobody who would release it stays so, and no
later import starts. -/
theorem lock_never_free {as : List ImportAction} (hs : ¬ s.Released)
    (hr : run step s as = some t) : t.locked = true ∧ ¬ t.Released := by
  have hkeep : ∀ (s : ImportState) (a : ImportAction) (t : ImportState),
      ¬ s.Released → s.step a = some t → ¬ t.Released := by
    intro s a t hs hstep
    rw [released_iff] at hs ⊢
    have hone := Bool.toNat_le s.locked
    have hheld : s.locked = true := by
      cases hlocked : s.locked with
      | true => rfl
      | false =>
          rw [hlocked] at hs
          exact absurd (Nat.zero_le _) hs
    cases step_effect hstep with
    | keeps locked holders _ => rw [locked, holders]; exact hs
    | acquires free _ _ _ => rw [hheld] at free; cases free
    | releases _ holders _ => omega
    | wastes free _ _ _ => rw [hheld] at free; cases free
    | loses locked holders _ => rw [locked]; omega
  have hend : ¬ t.Released := run_invariant' hkeep hs hr
  refine ⟨?_, hend⟩
  cases hlocked : t.locked with
  | true => rfl
  | false => exact absurd (fun h => by rw [hlocked] at h; cases h) hend

/-- A task that will release the lock does so when it is left to run. -/
theorem task_releases {i : Nat} {task : ImportTask} (hget : s.tasks[i]? = some task)
    (hwill : task.willRelease = true) : ∃ as t, run step s as = some t ∧ t.locked = false := by
  have hleave : ∀ (s : ImportState) (task : ImportTask), s.tasks[i]? = some task →
      task.pc = .importing → ∃ t, s.step (.leave i true) = some t ∧ t.locked = false := by
    intro s task hget hpc
    exact ⟨_, by simp [step, hget, hpc]; rfl, rfl⟩
  obtain ⟨cleanup, pc, cancelled⟩ := task
  cases pc with
  | created =>
      obtain rfl : cancelled = false := by simpa [ImportTask.willRelease] using hwill
      have hstart : s.step (.start i true) =
          some { s with tasks := s.tasks.set i ⟨cleanup, .importing, false⟩ } := by
        simp [step, hget]
      have hget' : (s.tasks.set i ⟨cleanup, .importing, false⟩)[i]? =
          some ⟨cleanup, .importing, false⟩ :=
        List.getElem?_set_self (List.getElem?_eq_some_iff.mp hget).1
      obtain ⟨t, hstep, hfree⟩ := hleave { s with tasks := _ } _ hget' rfl
      refine ⟨[.start i true, .leave i true], t, ?_, hfree⟩
      exact run_cons_eq_some.mpr ⟨_, hstart, run_cons_eq_some.mpr ⟨t, hstep, rfl⟩⟩
  | importing =>
      obtain ⟨t, hstep, hfree⟩ := hleave s _ hget rfl
      exact ⟨[.leave i true], t, run_cons_eq_some.mpr ⟨t, hstep, rfl⟩, hfree⟩
  | finished => cases hwill

end ImportState

/--
**The import lock is released**: in every interleaving of the routes and the tasks, in every
state in which the lock is held and no handler is on its way to create its task, an import
task that will release it is alive, if and only if no step fails between the acquisition and
the `try` of the task, no task is cancelled before it has run, and no file of an import
refuses to be deleted.  What the import itself raises does no harm.
-/
theorem import_lock_released {t : ImportState} {as : List ImportAction}
    (hr : run ImportState.step {} as = some t) :
    Always ImportState.step ImportState.Released {} as ↔
      Meets ImportState.step ImportState.Unfailing {} as := by
  have hone : ImportState.AtMostOne {} := Nat.le_refl 0
  have hstart : ImportState.Released {} := fun hlocked => by cases hlocked
  exact always_iff_meets_of_inv (fun _ _ _ h hs => ImportState.atMostOne_step h hs)
    (fun _ _ _ h hP hs => ImportState.released_step_iff h hP hs) hone hstart hr

/-- An upload is imported, a second one is turned away meanwhile, and a third import starts. -/
def importsInTurn : List ImportAction :=
  [.triggerJson, .upload none, .triggerJson, .start 0 true, .cancel 0, .leave 0 true, .trigger true]

theorem imports_in_turn :
    ∃ t, run ImportState.step {} importsInTurn = some t ∧
      t.tasks = [⟨true, .finished, false⟩, ⟨false, .created, false⟩] ∧
      Always ImportState.step ImportState.Released {} importsInTurn := by
  have hend : (run ImportState.step {} importsInTurn).map ImportState.tasks =
      some [⟨true, .finished, false⟩, ⟨false, .created, false⟩] := by
    decide
  obtain ⟨t, hr, htasks⟩ := Option.map_eq_some_iff.mp hend
  exact ⟨t, hr, htasks, (import_lock_released hr).mpr (by decide)⟩

/-- The upload cannot be read: the lock is held, there is no task, and whatever happens next,
it is never free again. -/
theorem unread_upload_blocks :
    ∃ s, run ImportState.step {} [.triggerJson, .upload (some .read)] = some s ∧
      s.tasks = [] ∧ ¬ s.Released ∧
      ∀ as t, run ImportState.step s as = some t → t.locked = true := by
  have hend : run ImportState.step {} [.triggerJson, .upload (some .read)] =
      some { locked := true } := by
    decide
  have hnot : ¬ ImportState.Released { locked := true } := by decide
  exact ⟨_, hend, rfl, hnot, fun as t hr => (ImportState.lock_never_free hnot hr).1⟩

end GovCrawler
