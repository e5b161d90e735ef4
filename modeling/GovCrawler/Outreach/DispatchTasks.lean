/-
The dispatch tasks of a server in `dispatch.mode: embedded`.

An accepted dispatch spawns `_run_and_clean` and puts it into `_active_campaign_tasks`, and
the task takes its campaign out when `run_campaign_dispatch` is through.  The server does
with the campaigns what `World` says, without the dispatch service; next to it stands the
dict, which no route looks into before it spawns another task.

`one_loop_per_campaign` says when it makes no difference: every unfinished task is the one
that the dict has for its campaign, in every state, if and only if no dispatch is accepted
while a task of its campaign is unfinished.  The 409 that is to prevent it looks at the
status alone, and `paused_and_dispatched_again` gets past it.
-/
import GovCrawler.Lib.TaskRegistry
import GovCrawler.Outreach.DispatchSystem

namespace GovCrawler

open Relational Transition TaskRegistry

/-! ### Where a move takes its task -/

/-- Some task, and no other, is somewhere else. -/
def World.Moved (w w' : World) (i : Nat) : Prop := ∃ pc, w'.tasks = (w.goto i pc).tasks

section Moved

variable {settings : DispatchSettings} (w : World) (i : Nat)

theorem moved_goto (pc : Pc) : w.Moved (w.goto i pc) i := ⟨pc, rfl⟩

theorem moved_leaveSlot (job : Job) : w.Moved (w.leaveSlot i job) i := ⟨.connecting job, rfl⟩

theorem moved_finish (job : Job) (sent : Except Exc Unit) (cause : Cause) :
    w.Moved (w.finish settings i job sent cause) i := ⟨_, rfl⟩

theorem moved_authenticate (job : Job) : w.Moved (w.authenticate settings i job) i := by
  unfold World.authenticate
  split
  · exact moved_goto w i _
  · split
    · exact moved_goto w i _
    · exact moved_goto w i _
    · exact moved_finish w i job _ _

theorem moved_receiveTokens (job : Job) (token : String) (reply : TokenReply) :
    w.Moved (w.receiveTokens settings i job token reply) i := by
  unfold World.receiveTokens
  split
  · exact ⟨_, rfl⟩
  · exact moved_finish w i job _ _

end Moved

/-- A task that moves has not stopped, and is the only one to move. -/
theorem moved_resume {settings : DispatchSettings} {w w' : World} {i c : Nat} {pc : Pc}
    {event : Event} (h : w.resume settings i c pc event = some w') :
    pc ≠ .stopped ∧ w.Moved w' i := by
  cases World.resumes_of_resume h with
  | wakeUp => exact ⟨nofun, moved_leaveSlot w i _⟩
  | connected => exact ⟨nofun, moved_authenticate w i _⟩
  | replied | replyLost => exact ⟨nofun, moved_receiveTokens w i _ _ _⟩
  | notConnected | notAuthenticated | notAccepted | quit => exact ⟨nofun, moved_finish w i _ _ _⟩
  | refused | requestLost | authenticated => exact ⟨nofun, moved_goto w i _⟩
  | start | send | stop | enterSlot | sleep | granted | accepted => exact ⟨nofun, _, rfl⟩

/-! ### The server -/

/-- `not task.done()`. -/
def DispatchTask.unfinished (t : DispatchTask) : Bool := t.pc ≠ .stopped

/-- A server in embedded mode. -/
structure Embedded where
  world : World
  activeCampaignTasks : Registry Nat := fun _ => none

namespace Embedded

/-- The `finally` of `_run_and_clean`, where task `i` is through. -/
def clean (activeCampaignTasks : Registry Nat) (w : World) (i : Nat) : Registry Nat :=
  match w.tasks[i]? with
  | some t => if t.unfinished then activeCampaignTasks else activeCampaignTasks.pop t.campaignId
  | none => activeCampaignTasks

def step (settings : DispatchSettings) (s : Embedded) : Action → Option Embedded
  | .request user (.dispatch campaignId) =>
      match dispatchCampaign settings s.world.db user campaignId s.world.now with
      | .error _ => some s
      | .ok db => some {
          world := { s.world with db, tasks := s.world.tasks ++ [⟨campaignId, .start⟩] }
          activeCampaignTasks := s.activeCampaignTasks.put campaignId s.world.tasks.length }
  -- the dispatch service is a process of the other mode
  | .poll _ => none
  | .move i event =>
      (s.world.step settings (.move i event)).map fun world =>
        { world, activeCampaignTasks := clean s.activeCampaignTasks world i }
  | a => (s.world.step settings a).map fun world => { s with world }

def init (now : Time) (db : OutreachDb) (provider : Nat → Option String) : Embedded where
  world := .init now db provider

/-- The unfinished tasks are those that `_active_campaign_tasks` has. -/
def Tracked (s : Embedded) : Prop :=
  Registered DispatchTask.campaignId DispatchTask.unfinished s.world.tasks s.activeCampaignTasks

/-- No campaign has two unfinished dispatch tasks, and `_active_campaign_tasks` has the one
that a campaign has. -/
structure OneLoop (s : Embedded) : Prop where
  alone : ∀ (i j : Nat) (t u : DispatchTask), s.world.tasks[i]? = some t →
    s.world.tasks[j]? = some u → t.unfinished = true → u.unfinished = true →
    t.campaignId = u.campaignId → i = j
  tracked : s.Tracked

/-- A dispatch that is accepted finds no unfinished task of its campaign. -/
def DispatchedOnce (settings : DispatchSettings) (s : Embedded) : Action → Prop
  | .request user (.dispatch campaignId) =>
      (dispatchCampaign settings s.world.db user campaignId s.world.now).isOk = true →
        Free DispatchTask.campaignId DispatchTask.unfinished s.world.tasks campaignId
  | _ => True

instance (settings : DispatchSettings) (s : Embedded) :
    ∀ a, Decidable (s.DispatchedOnce settings a)
  | .request _ (.dispatch _) => by
      unfold DispatchedOnce
      infer_instance
  | .request _ (.setStatus _ _) | .request _ (.email _ _ _) | .request _ (.selectAll _ _)
  | .tick _ | .poll _ | .sweep | .revoke _ | .move _ _ => .isTrue trivial

variable {settings : DispatchSettings} {s t : Embedded}

/-- A task that is tracked is alone. -/
theorem oneLoop_iff : s.OneLoop ↔ s.Tracked :=
  ⟨fun h => h.tracked, fun h =>
    ⟨fun _ _ _ _ ht hu hlive hlive' hcampaign => h.unique ht hu hlive hlive' hcampaign, h⟩⟩

/-- What a server does to its campaigns is what `World` says. -/
theorem world_step {a : Action} (h : s.step settings a = some t) :
    s.world.step settings a = some t.world := by
  have hmap : ∀ active : World → Registry Nat,
      ((s.world.step settings a).map fun world => Embedded.mk world (active world)) = some t →
        s.world.step settings a = some t.world := by
    intro active hs
    obtain ⟨w, hw, rfl⟩ := Option.map_eq_some_iff.mp hs
    exact hw
  cases a with
  | tick span => exact hmap (fun _ => s.activeCampaignTasks) h
  | poll campaignId => cases h
  | sweep => exact hmap (fun _ => s.activeCampaignTasks) h
  | revoke credentialId => exact hmap (fun _ => s.activeCampaignTasks) h
  | move i event => exact hmap (fun w => clean s.activeCampaignTasks w i) h
  | request user req =>
      cases req with
      | setStatus campaignId status => exact hmap (fun _ => s.activeCampaignTasks) h
      | email campaignId emailId req => exact hmap (fun _ => s.activeCampaignTasks) h
      | selectAll campaignId req => exact hmap (fun _ => s.activeCampaignTasks) h
      | dispatch campaignId =>
          show some (s.world.serve settings user (.dispatch campaignId)) = some t.world
          unfold World.serve
          dsimp only [step] at h
          split at h
          · obtain rfl := Option.some.inj h
            rename_i hrefused
            dsimp only
            rw [hrefused]
          · obtain rfl := Option.some.inj h
            rename_i haccepted
            dsimp only
            rw [haccepted]

/-- **The runs of a server are runs of `World`**, with all that is proved of those. -/
theorem world_run {as : List Action} (hr : run (step settings) s as = some t) :
    run (World.step settings) s.world as = some t.world := by
  induction as generalizing s with
  | nil =>
      obtain rfl : s = t := by simpa using hr
      rfl
  | cons a as ih =>
      obtain ⟨s', hs, hr'⟩ := run_cons_eq_some.mp hr
      exact run_cons_eq_some.mpr ⟨s'.world, world_step hs, ih hr'⟩

/-- A task that moves stays tracked, and leaves the dict when it stops. -/
theorem tracked_move (h : s.Tracked) {i : Nat} {event : Event} {w : World}
    (hw : s.world.step settings (.move i event) = some w) :
    Tracked { world := w, activeCampaignTasks := clean s.activeCampaignTasks w i } := by
  dsimp only [World.step] at hw
  split at hw
  · cases hw
  · rename_i task hget
    obtain ⟨hpc, pc, htasks⟩ := moved_resume hw
    have hlt : i < s.world.tasks.length := (List.getElem?_eq_some_iff.mp hget).1
    have hlive : task.unfinished = true := by simp [DispatchTask.unfinished, hpc]
    have hset : w.tasks = s.world.tasks.set i { task with pc } := by
      rw [htasks]
      show s.world.tasks.modify i _ = _
      rw [List.modify_eq_set_getElem?, hget]
      rfl
    have hself : w.tasks[i]? = some { task with pc } := by
      rw [hset, List.getElem?_set_self hlt]
    unfold Tracked clean
    rw [hself]
    dsimp only
    rw [hset]
    by_cases hstopped : pc = .stopped
    · have hended : DispatchTask.unfinished { task with pc } = false := by
        simp [DispatchTask.unfinished, hstopped]
      rw [hended, if_neg Bool.false_ne_true]
      have hkey : DispatchTask.campaignId { task with pc } = task.campaignId := rfl
      exact (registered_pop_iff h hget hlive hkey).mpr hended
    · have hgoes : DispatchTask.unfinished { task with pc } = true := by
        simp [DispatchTask.unfinished, hstopped]
      rw [hgoes, if_pos rfl]
      exact h.set hget rfl fun _ => hlive

/-- A request other than a dispatch starts no task. -/
theorem tasks_serve (w : World) (user : CurrentUser) {req : Request}
    (hreq : ∀ campaignId, req ≠ .dispatch campaignId) :
    (w.serve settings user req).tasks = w.tasks := by
  cases req with
  | dispatch campaignId => exact absurd rfl (hreq campaignId)
  | email campaignId emailId req => rfl
  | selectAll campaignId req => rfl
  | setStatus campaignId status =>
      unfold World.serve
      dsimp only
      split
      · rfl
      · rfl

/-- **One step.**  A step keeps the tasks tracked exactly when it dispatches no campaign that
still has a task. -/
theorem oneLoop_step_iff (h : s.OneLoop) {a : Action} (hs : s.step settings a = some t) :
    t.OneLoop ↔ s.DispatchedOnce settings a := by
  have htracked := h.tracked
  have hidle : ∀ w : World, w.tasks = s.world.tasks → OneLoop { s with world := w } := by
    intro w htasks
    refine oneLoop_iff.mpr ?_
    unfold Tracked
    rw [htasks]
    exact htracked
  cases a with
  | poll campaignId => cases hs
  | tick span =>
      refine iff_of_true ?_ trivial
      obtain ⟨w, hw, rfl⟩ := Option.map_eq_some_iff.mp hs
      dsimp only [World.step] at hw
      split at hw
      · obtain rfl := Option.some.inj hw
        exact hidle _ rfl
      · cases hw
  | sweep =>
      obtain rfl := Option.some.inj hs
      exact iff_of_true (hidle _ rfl) trivial
  | revoke credentialId =>
      obtain rfl := Option.some.inj hs
      exact iff_of_true (hidle _ rfl) trivial
  | move i event =>
      obtain ⟨w, hw, rfl⟩ := Option.map_eq_some_iff.mp hs
      exact iff_of_true (oneLoop_iff.mpr (tracked_move htracked hw)) trivial
  | request user req =>
      cases req with
      | setStatus campaignId status =>
          obtain rfl := Option.some.inj hs
          exact iff_of_true (hidle _ (tasks_serve s.world user nofun)) trivial
      | email campaignId emailId req =>
          obtain rfl := Option.some.inj hs
          exact iff_of_true (hidle _ (tasks_serve s.world user nofun)) trivial
      | selectAll campaignId req =>
          obtain rfl := Option.some.inj hs
          exact iff_of_true (hidle _ (tasks_serve s.world user nofun)) trivial
      | dispatch campaignId =>
          dsimp only [step] at hs
          unfold DispatchedOnce
          split at hs
          · rename_i hrefused
            obtain rfl := Option.some.inj hs
            refine iff_of_true h fun haccepted => ?_
            rw [hrefused] at haccepted
            cases haccepted
          · rename_i haccepted
            obtain rfl := Option.some.inj hs
            dsimp only
            rw [haccepted]
            have hspawn := registered_spawn_iff (t := ⟨campaignId, .start⟩) htracked rfl
            exact oneLoop_iff.trans (hspawn.trans ⟨fun hfree _ => hfree, fun hfree => hfree rfl⟩)

end Embedded

/--
**One live dispatch loop per campaign**: in every interleaving of requests with the segments
of the dispatch tasks, every unfinished task is the one that `_active_campaign_tasks` has for
its campaign, so that no campaign has two, in every state, if and only if no dispatch is
accepted while a task of its campaign is unfinished.
-/
theorem one_loop_per_campaign (settings : DispatchSettings) (now : Time) (db : OutreachDb)
    (provider : Nat → Option String) {t : Embedded} {as : List Action}
    (hr : run (Embedded.step settings) (.init now db provider) as = some t) :
    Always (Embedded.step settings) Embedded.OneLoop (.init now db provider) as ↔
      Meets (Embedded.step settings) (fun s => s.DispatchedOnce settings)
        (.init now db provider) as := by
  have hstart : (Embedded.init now db provider).OneLoop :=
    Embedded.oneLoop_iff.mpr fun i task hget => by cases hget
  exact always_iff_meets (fun _ _ _ hP hs => Embedded.oneLoop_step_iff hP hs) hstart hr

/-! ### Two campaigns -/

/-- A paused campaign of nobody's with two selected drafts. -/
def twoDrafts : OutreachDb :=
  let db := sharedMailbox 1
  { db with campaignEmails := db.campaignEmails.insertNew fun id =>
      { id, campaignId := 1, leadId := none, recipientEmail := "mayor@city.gov",
        subject := "Hello", body := "Dear mayor" } }

/-- A campaign is dispatched, paused in the middle, and dispatched again when its task has seen
the pause. -/
def pausedRun : List Action :=
  dispatchAndClaim 0 0 ++ [.move 0 (.slot (seconds 30)), .request admin (.setStatus 1 "PAUSED")] ++
    sendAndFinish 0 ++ [.request admin (.dispatch 1), .move 1 .go]

/-- The server with these campaigns. -/
def twoDraftsServer : Embedded := .init (seconds 1) twoDrafts fun _ => none

theorem paused_run_alone :
    ∃ t, run (Embedded.step plainSettings) twoDraftsServer pausedRun = some t ∧
      t.world.tasks = [⟨1, .stopped⟩, ⟨1, .head 0⟩] ∧
      Always (Embedded.step plainSettings) Embedded.OneLoop twoDraftsServer pausedRun := by
  have hend : (run (Embedded.step plainSettings) twoDraftsServer pausedRun).map
      (fun t => t.world.tasks) = some [⟨1, .stopped⟩, ⟨1, .head 0⟩] := by
    decide +kernel
  obtain ⟨t, hr, htasks⟩ := Option.map_eq_some_iff.mp hend
  exact ⟨t, hr, htasks, (one_loop_per_campaign plainSettings (seconds 1) twoDrafts _ hr).mpr
    (by decide +kernel)⟩

/-- The campaign is paused and dispatched again while its task queues for the mailbox. -/
theorem paused_and_dispatched_again :
    ∃ t, run (Embedded.step plainSettings) twoDraftsServer
        (dispatchAndClaim 0 0 ++
          [.request admin (.setStatus 1 "PAUSED"), .request admin (.dispatch 1)]) = some t ∧
      (t.world.tasks.map fun task => (task.campaignId, task.unfinished)) = [(1, true), (1, true)] ∧
      ¬ t.OneLoop := by
  have hend : (run (Embedded.step plainSettings) twoDraftsServer
      (dispatchAndClaim 0 0 ++
        [.request admin (.setStatus 1 "PAUSED"), .request admin (.dispatch 1)])).map
      (fun t => t.world.tasks.map fun task => (task.campaignId, task.unfinished)) =
        some [(1, true), (1, true)] := by
    decide +kernel
  obtain ⟨t, hr, hmap⟩ := Option.map_eq_some_iff.mp hend
  refine ⟨t, hr, hmap, fun hone => ?_⟩
  obtain ⟨first, rest, htasks, hfirst, hmap'⟩ := List.map_eq_cons_iff.mp hmap
  obtain ⟨second, rest', rfl, hsecond, -⟩ := List.map_eq_cons_iff.mp hmap'
  obtain ⟨hcampaign, hlive⟩ := Prod.mk.inj hfirst
  obtain ⟨hcampaign', hlive'⟩ := Prod.mk.inj hsecond
  have hsame : 0 = 1 := hone.alone 0 1 first second (by rw [htasks]; rfl) (by rw [htasks]; rfl)
    hlive hlive' (hcampaign.trans hcampaign'.symm)
  cases hsame

end GovCrawler
