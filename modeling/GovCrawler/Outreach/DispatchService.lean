/-
`cloud/dispatch_service.py`: the process that dispatches in external mode.

`_poll_loop` keeps a dict of the tasks it has created, and starts one for a running campaign that
has none in it, or one that is done.  `Service.poll` says what that is for: a task for a running
campaign of which no task lives.  Here the loop is what it is in the source, with its dict, with
iterations that fail, with a stop that may be asked for at any time, and with a process that may be
killed and started again; and every run of it is a run of `Service`.

`_recover_loop` is a sweep at any time.
-/
import GovCrawler.Lib.TaskRegistry
import GovCrawler.Lib.Transition
import GovCrawler.Outreach.DispatchTasks
import GovCrawler.Outreach.Service

namespace GovCrawler

open Relational Transition TaskRegistry

/-- Where `_poll_loop` is. -/
inductive PollPc
  | looping
  /-- `asyncio.gather` of what is active. -/
  | gathering
  | ended
  deriving DecidableEq, Repr

/-- `active` has the index of a task in `service.tasks`. -/
structure Dispatcher where
  service : Service
  active : Registry Nat := fun _ => none
  stopping : Bool := false
  pc : PollPc := .looping

/-- `_running_campaign_ids`. -/
def OutreachDb.runningCampaignIds (db : OutreachDb) : List Nat :=
  (db.campaigns.select fun c => c.status == .running).map Campaign.id

inductive DispatcherAction
  /-- What happens besides: requests, the calls of the tasks, sweeps. -/
  | outside (a : ServiceAction)
  /-- An iteration of the loop, whose query may raise. -/
  | iterate (fails : Bool)
  /-- SIGTERM or SIGINT. -/
  | stop
  /-- The loop finds that it is to stop. -/
  | leave
  /-- What was active is done. -/
  | gathered
  | killed
  | boot

namespace Dispatcher

variable (settings : DispatchSettings) (d : Dispatcher)

/-- `task.done()`. -/
def done (i : Nat) : Bool := d.service.tasks[i]?.all fun t => decide (t.pc = .stopped)

/-- One campaign of the loop over the running ones. -/
def pick (campaignId : Nat) : Dispatcher :=
  if (d.active campaignId).any fun i => !d.done i then d
  else
    { d with
      service := { d.service with tasks := d.service.tasks ++ [⟨campaignId, .queueing⟩] }
      active := d.active.put campaignId d.service.tasks.length }

/-- `active = {cid: t for cid, t in active.items() if not t.done()}`. -/
def prune : Dispatcher :=
  { d with active := fun campaignId => (d.active campaignId).filter fun i => !d.done i }

/-- The body of the loop. -/
def iterate (fails : Bool) : Dispatcher :=
  if fails then d.prune else (d.service.db.runningCampaignIds.foldl pick d).prune

/-- Every task of the process stops where it is. -/
def stopAll (s : Service) : Service :=
  { s with tasks := s.tasks.map fun t => { t with pc := .stopped } }

def step : DispatcherAction → Option Dispatcher
  | .outside (.poll _) => none
  | .outside a => (d.service.step .external settings a).map fun service => { d with service }
  | .iterate fails => if d.pc = .looping ∧ d.stopping = false then some (d.iterate fails) else none
  | .stop => some { d with stopping := true }
  | .leave =>
      if d.pc = .looping ∧ d.stopping = true then some { d with pc := .gathering } else none
  | .gathered =>
      if d.pc = .gathering ∧ ∀ i < d.service.tasks.length,
          ∀ t, d.service.tasks[i]? = some t → d.active t.campaignId = some i → d.done i = true then
        some { d with pc := .ended }
      else none
  | .killed =>
      some
        { service := stopAll d.service, active := fun _ => none, stopping := false, pc := .ended }
  | .boot =>
      if d.pc = .ended then
        some { d with active := fun _ => none, stopping := false, pc := .looping }
      else none

end Dispatcher

/-! ### The dict has every task that lives -/

/-- The task has not returned. -/
def CallTask.live (t : CallTask) : Bool := decide (t.pc ≠ .stopped)

namespace Dispatcher

variable {settings : DispatchSettings} {d d' : Dispatcher}

/-- The dict has every task that lives, and what it has are tasks of their campaigns. -/
structure Tracks (d : Dispatcher) : Prop where
  registered : Registered CallTask.campaignId CallTask.live d.service.tasks d.active
  keyed : ∀ campaignId i, d.active campaignId = some i →
    ∃ t, d.service.tasks[i]? = some t ∧ t.campaignId = campaignId

structure Inv (d : Dispatcher) : Prop where
  tracks : d.Tracks
  /-- A process that has ended leaves no task behind. -/
  ended : d.pc = .ended → ∀ t ∈ d.service.tasks, t.live = false

theorem live_eq_false_iff {t : CallTask} : t.live = false ↔ t.pc = .stopped := by
  unfold CallTask.live
  rw [decide_eq_false_iff_not, not_not]

theorem done_eq_not_live {i : Nat} {t : CallTask} (ht : d.service.tasks[i]? = some t) :
    d.done i = !t.live := by
  unfold done CallTask.live
  rw [ht, Option.all_some, decide_not, Bool.not_not]

/-- The guard of the loop is that of `Service.poll`. -/
theorem free_of_guard (h : d.Tracks) {campaignId : Nat}
    (hguard : ¬ ((d.active campaignId).any fun i => !d.done i) = true) :
    Free CallTask.campaignId CallTask.live d.service.tasks campaignId := by
  rintro t ht hlive rfl
  obtain ⟨i, hi⟩ := List.mem_iff_getElem?.mp ht
  rw [h.registered i t hi hlive, Option.any_some, done_eq_not_live hi, hlive] at hguard
  exact hguard rfl

theorem live_of_guard (h : d.Tracks) {campaignId : Nat}
    (hguard : ((d.active campaignId).any fun i => !d.done i) = true) :
    ∃ t ∈ d.service.tasks, t.campaignId = campaignId ∧ t.live = true := by
  obtain ⟨i, hi, hdone⟩ := (Option.any_eq_true _ _).mp hguard
  obtain ⟨t, ht, hkey⟩ := h.keyed campaignId i hi
  rw [done_eq_not_live ht, Bool.not_not] at hdone
  exact ⟨t, List.mem_of_getElem? ht, hkey, hdone⟩

/-! ### One iteration -/

/-- From here to there the service is polled, and nothing else of the process changes. -/
structure Polls (settings : DispatchSettings) (d d' : Dispatcher) : Prop where
  refines : ∃ as, run (Service.step .external settings) d.service as = some d'.service
  tracks : d'.Tracks
  kept : ∃ started, d'.service = { d.service with tasks := d.service.tasks ++ started }
  pc : d'.pc = d.pc
  stopping : d'.stopping = d.stopping

theorem Polls.refl (h : d.Tracks) : Polls settings d d :=
  ⟨⟨[], rfl⟩, h, ⟨[], by rw [List.append_nil]⟩, rfl, rfl⟩

theorem Polls.trans {d'' : Dispatcher} (h : Polls settings d d') (h' : Polls settings d' d'') :
    Polls settings d d'' := by
  obtain ⟨as, has⟩ := h.refines
  obtain ⟨bs, hbs⟩ := h'.refines
  obtain ⟨started, hstarted⟩ := h.kept
  obtain ⟨started', hstarted'⟩ := h'.kept
  refine ⟨⟨as ++ bs, by rw [run_append, has]; exact hbs⟩, h'.tracks, ⟨started ++ started', ?_⟩,
    h'.pc.trans h.pc, h'.stopping.trans h.stopping⟩
  rw [hstarted', hstarted, List.append_assoc]

/-- A running campaign is picked: it has a task then. -/
theorem pick_polls (settings : DispatchSettings) (h : d.Tracks) {campaignId : Nat}
    (hrunning : ((d.service.db.campaigns.get? campaignId).any fun c =>
      c.status == .running) = true) :
    Polls settings d (d.pick campaignId) ∧
      ∃ t ∈ (d.pick campaignId).service.tasks, t.campaignId = campaignId ∧ t.live = true := by
  unfold pick
  by_cases hguard : ((d.active campaignId).any fun i => !d.done i) = true
  · rw [if_pos hguard]
    exact ⟨.refl h, live_of_guard h hguard⟩
  · rw [if_neg hguard]
    have hfree := free_of_guard h hguard
    have hpoll : ∀ t ∈ d.service.tasks, t.campaignId = campaignId → t.pc = .stopped :=
      fun t ht hkey =>
        live_eq_false_iff.mp (Bool.eq_false_iff.mpr fun hlive => hfree t ht hlive hkey)
    refine ⟨⟨⟨[.poll campaignId], ?_⟩, ⟨?_, fun k i hk => ?_⟩, ⟨_, rfl⟩, rfl, rfl⟩, _,
      List.mem_append_right _ (List.mem_singleton.mpr rfl), rfl, rfl⟩
    · rw [run_cons]
      have hstep : Service.step .external settings d.service (.poll campaignId) =
          some { d.service with tasks := d.service.tasks ++ [⟨campaignId, .queueing⟩] } :=
        if_pos ⟨rfl, hrunning, hpoll⟩
      rw [hstep]
      rfl
    · exact (registered_spawn_iff h.registered (t := ⟨campaignId, .queueing⟩) rfl).mpr hfree
    · dsimp only at hk ⊢
      by_cases hsame : k = campaignId
      · subst hsame
        rw [Registry.put_self] at hk
        obtain rfl := Option.some.inj hk
        exact ⟨_, List.getElem?_concat_length, rfl⟩
      · rw [Registry.put_of_ne _ _ hsame] at hk
        obtain ⟨t, ht, hkey⟩ := h.keyed k i hk
        have hlt : i < d.service.tasks.length := (List.getElem?_eq_some_iff.mp ht).1
        exact ⟨t, by rw [List.getElem?_append_left hlt]; exact ht, hkey⟩

theorem pickAll_polls (settings : DispatchSettings) {campaignIds : List Nat} (h : d.Tracks)
    (hrunning : ∀ c ∈ campaignIds, ((d.service.db.campaigns.get? c).any fun c =>
      c.status == .running) = true) :
    Polls settings d (campaignIds.foldl pick d) ∧
      ∀ c ∈ campaignIds, ∃ t ∈ (campaignIds.foldl pick d).service.tasks, t.campaignId = c ∧
        t.live = true := by
  induction campaignIds generalizing d with
  | nil => exact ⟨.refl h, fun _ hc => absurd hc List.not_mem_nil⟩
  | cons c rest ih =>
      obtain ⟨hpolls, hlive⟩ := pick_polls settings h (hrunning c List.mem_cons_self)
      obtain ⟨started, hstarted⟩ := hpolls.kept
      have hrest := ih hpolls.tracks fun k hk => by
        rw [hstarted]
        exact hrunning k (List.mem_cons_of_mem c hk)
      refine ⟨hpolls.trans hrest.1, fun k hk => ?_⟩
      rcases List.mem_cons.mp hk with rfl | hk
      · obtain ⟨t, ht, hboth⟩ := hlive
        obtain ⟨later, hlater⟩ := hrest.1.kept
        refine ⟨t, ?_, hboth⟩
        rw [List.foldl_cons, hlater]
        exact List.mem_append_left _ ht
      · exact hrest.2 k hk

theorem prune_polls (h : d.Tracks) : Polls settings d d.prune := by
  refine ⟨⟨[], rfl⟩, ⟨fun i t ht hlive => ?_, fun k i hk => ?_⟩, ⟨[], ?_⟩, rfl, rfl⟩
  · show Option.filter _ (d.active t.campaignId) = some i
    rw [h.registered i t ht hlive]
    have hdone : d.done i = !t.live := done_eq_not_live ht
    refine Option.filter_some_pos ?_
    rw [hdone, hlive]
    rfl
  · exact h.keyed k i (Option.filter_eq_some_iff.mp hk).1
  · show d.service = _
    rw [List.append_nil]

theorem mem_runningCampaignIds {db : OutreachDb} {c : Nat} (hc : c ∈ db.runningCampaignIds) :
    ((db.campaigns.get? c).any fun c => c.status == .running) = true := by
  obtain ⟨row, hrow, rfl⟩ := List.mem_map.mp hc
  obtain ⟨hmem, hstatus⟩ := List.mem_filter.mp hrow
  have hget : db.campaigns.get? row.id = some row := Table.get?_of_mem hmem
  rw [hget, Option.any_some]
  exact hstatus

/-- **An iteration is a run of polls**, after which every running campaign has a task. -/
theorem iterate_polls (settings : DispatchSettings) (h : d.Tracks) (fails : Bool) :
    Polls settings d (d.iterate fails) ∧
      (fails = false → ∀ c ∈ d.service.db.runningCampaignIds,
        ∃ t ∈ (d.iterate fails).service.tasks, t.campaignId = c ∧ t.live = true) := by
  unfold iterate
  cases fails with
  | true => exact ⟨prune_polls h, fun hfalse => (by cases hfalse)⟩
  | false =>
      obtain ⟨hpolls, hlive⟩ :=
        pickAll_polls settings h fun _ => mem_runningCampaignIds
      exact ⟨hpolls.trans (prune_polls hpolls.tracks), fun _ => hlive⟩

/-! ### What happens besides -/

/-- No task is started but by a poll, and none comes back. -/
theorem tasks_of_step {s s' : Service} {a : ServiceAction} (hpoll : ∀ c, a ≠ .poll c)
    (h : s.step .external settings a = some s') :
    s'.tasks = s.tasks ∨ ∃ i t pc, s.tasks[i]? = some t ∧ s'.tasks = s.tasks.set i { t with pc } ∧
      (t.pc = .stopped → pc = .stopped) := by
  cases a with
  | tick span =>
      obtain rfl := Option.some.inj h
      exact Or.inl rfl
  | request user req =>
      obtain rfl := Option.some.inj h
      refine Or.inl ?_
      unfold Service.serve
      cases req with
      | dispatch campaignId =>
          dsimp only
          split
          · rfl
          · exact List.append_nil _
      | setStatus campaignId value =>
          dsimp only
          split <;> rfl
      | email campaignId emailId req => rfl
      | selectAll campaignId req => rfl
  | addEmails user campaignId leadIds rendered =>
      dsimp only [Service.step] at h
      split at h
      · obtain rfl := Option.some.inj h
        exact Or.inl rfl
      · obtain rfl := Option.some.inj h
        exact Or.inl rfl
  | poll campaignId => exact absurd rfl (hpoll campaignId)
  | sweep =>
      obtain rfl := Option.some.inj h
      exact Or.inl rfl
  | credentials smtpCredentials campaignCredentials =>
      obtain rfl := Option.some.inj h
      exact Or.inl rfl
  | call i =>
      dsimp only [Service.step] at h
      split at h
      · cases h
      · rename_i t hget
        obtain rfl := Option.some.inj h
        refine Or.inr ⟨i, t, _, hget, rfl, fun hstopped => ?_⟩
        rw [hstopped]
        rfl
  | sent i outcome =>
      dsimp only [Service.step] at h
      split at h
      · rename_i campaignId job hget
        obtain rfl := Option.some.inj h
        exact Or.inr ⟨i, _, _, hget, rfl, fun hstopped => (by cases hstopped)⟩
      · cases h
  | crash i =>
      dsimp only [Service.step] at h
      split at h
      · cases h
      · rename_i t hget
        obtain rfl := Option.some.inj h
        exact Or.inr ⟨i, t, _, hget, rfl, fun _ => rfl⟩

theorem inv_outside (h : d.Inv) {a : ServiceAction} (hpoll : ∀ c, a ≠ .poll c) {s' : Service}
    (hs : d.service.step .external settings a = some s') :
    Inv { d with service := s' } := by
  rcases tasks_of_step hpoll hs with hsame | ⟨i, t, pc, ht, hset, hstays⟩
  · refine ⟨⟨?_, ?_⟩, ?_⟩
    · dsimp only
      rw [hsame]
      exact h.tracks.registered
    · dsimp only
      rw [hsame]
      exact h.tracks.keyed
    · dsimp only
      rw [hsame]
      exact h.ended
  · have hlive : CallTask.live { t with pc } = true → t.live = true := by
      intro hlive
      by_contra hnot
      rw [Bool.not_eq_true, live_eq_false_iff] at hnot
      rw [(live_eq_false_iff (t := { t with pc })).mpr (hstays hnot)] at hlive
      cases hlive
    refine ⟨⟨?_, fun k j hk => ?_⟩, fun hended u hu => ?_⟩
    · dsimp only
      rw [hset]
      exact h.tracks.registered.set ht rfl hlive
    · obtain ⟨u, hu, hkey⟩ := h.tracks.keyed k j hk
      dsimp only
      rw [hset]
      by_cases hij : i = j
      · subst hij
        obtain ⟨hlt, -⟩ := List.getElem?_eq_some_iff.mp ht
        rw [ht] at hu
        exact ⟨_, List.getElem?_set_self hlt, by rw [← hkey, ← Option.some.inj hu]⟩
      · exact ⟨u, by rw [List.getElem?_set_ne hij]; exact hu, hkey⟩
    · dsimp only at hu
      rw [hset] at hu
      rcases List.mem_or_eq_of_mem_set hu with hold | rfl
      · exact h.ended hended u hold
      · have hdead := h.ended hended t (List.mem_of_getElem? ht)
        exact Bool.eq_false_iff.mpr fun hl => by rw [hlive hl] at hdead; cases hdead

/-- Tasks crash, one after the other. -/
theorem crash_rest (before rest : List CallTask) (s : Service) (h : s.tasks = before ++ rest) :
    ∃ as, run (Service.step .external settings) s as =
      some { s with tasks := before ++ rest.map fun t => { t with pc := .stopped } } := by
  induction rest generalizing before s with
  | nil => exact ⟨[], by rw [List.map_nil, ← h]; rfl⟩
  | cons t rest ih =>
      have hget : s.tasks[before.length]? = some t := by
        rw [h]
        simp
      have hcrash : Service.step .external settings s (.crash before.length) =
          some { s with tasks := (before ++ [{ t with pc := .stopped }]) ++ rest } := by
        dsimp only [Service.step]
        rw [hget]
        dsimp only [Service.goto]
        rw [h]
        simp
      obtain ⟨as, has⟩ := ih (before ++ [{ t with pc := .stopped }])
        { s with tasks := (before ++ [{ t with pc := .stopped }]) ++ rest } rfl
      refine ⟨.crash before.length :: as, run_cons_eq_some.mpr ⟨_, hcrash, has.trans ?_⟩⟩
      dsimp only
      rw [List.append_assoc, List.map_cons, List.singleton_append]

/-- The process is killed. -/
theorem stopAll_refines (s : Service) :
    ∃ as, run (Service.step .external settings) s as = some (stopAll s) :=
  crash_rest [] s.tasks s rfl

theorem not_live_stopAll {s : Service} {t : CallTask} (ht : t ∈ (stopAll s).tasks) :
    t.live = false := by
  obtain ⟨u, -, rfl⟩ := List.mem_map.mp ht
  rfl

theorem inv_of_not_live {pc : PollPc} {stopping : Bool} {s : Service}
    (h : ∀ t ∈ s.tasks, t.live = false) : Inv ⟨s, fun _ => none, stopping, pc⟩ where
  tracks :=
    { registered := fun i t ht hlive => by
        rw [h t (List.mem_of_getElem? ht)] at hlive
        cases hlive
      keyed := fun _ _ hk => by cases hk }
  ended _ := h

/-- **Every step is one of the service**, and the dict goes on tracking its tasks. -/
theorem step_refines {a : DispatcherAction} (h : d.Inv) (hs : d.step settings a = some d') :
    (∃ as, run (Service.step .external settings) d.service as = some d'.service) ∧ d'.Inv := by
  cases a with
  | outside a =>
      by_cases hpoll : ∃ c, a = .poll c
      · obtain ⟨c, rfl⟩ := hpoll
        cases hs
      · have hne : ∀ c, a ≠ .poll c := fun c hc => hpoll ⟨c, hc⟩
        have heq : d.step settings (.outside a) =
            (d.service.step .external settings a).map fun service => { d with service } := by
          cases a with
          | poll c => exact absurd rfl (hne c)
          | _ => rfl
        rw [heq] at hs
        obtain ⟨s', hstep, rfl⟩ := Option.map_eq_some_iff.mp hs
        exact ⟨⟨[a], run_cons_eq_some.mpr ⟨s', hstep, rfl⟩⟩, inv_outside h hne hstep⟩
  | iterate fails =>
      rw [step] at hs
      split at hs
      · rename_i hok
        obtain rfl := Option.some.inj hs
        have hpolls := (iterate_polls settings h.tracks fails).1
        refine ⟨hpolls.refines, hpolls.tracks, fun hended => ?_⟩
        rw [hpolls.pc, hok.1] at hended
        cases hended
      · cases hs
  | stop =>
      obtain rfl := Option.some.inj hs
      exact ⟨⟨[], rfl⟩, ⟨h.tracks.registered, h.tracks.keyed⟩, h.ended⟩
  | leave =>
      rw [step] at hs
      split at hs
      · obtain rfl := Option.some.inj hs
        exact ⟨⟨[], rfl⟩, ⟨h.tracks.registered, h.tracks.keyed⟩, fun hended => (by cases hended)⟩
      · cases hs
  | gathered =>
      rw [step] at hs
      split at hs
      · rename_i hok
        obtain rfl := Option.some.inj hs
        refine ⟨⟨[], rfl⟩, ⟨h.tracks.registered, h.tracks.keyed⟩, fun _ t ht => ?_⟩
        -- a task that lives is in the dict, so it has been waited for
        obtain ⟨i, hi⟩ := List.mem_iff_getElem?.mp ht
        have hget : d.service.tasks[i]? = some t := hi
        refine Bool.eq_false_iff.mpr fun hlive => ?_
        have hlt : i < d.service.tasks.length := (List.getElem?_eq_some_iff.mp hget).1
        have hdone := hok.2 i hlt t hget (h.tracks.registered i t hget hlive)
        rw [done_eq_not_live hget, hlive] at hdone
        cases hdone
      · cases hs
  | killed =>
      obtain rfl := Option.some.inj hs
      exact ⟨stopAll_refines d.service, inv_of_not_live fun _ => not_live_stopAll⟩
  | boot =>
      rw [step] at hs
      split at hs
      · rename_i hended
        obtain rfl := Option.some.inj hs
        exact ⟨⟨[], rfl⟩, inv_of_not_live (h.ended hended)⟩
      · cases hs

end Dispatcher

/-- **The dispatch service refines the abstract one**: whatever iterations fail, whenever it is
stopped, killed or started again, its runs are runs of `Service` in external mode.  No campaign ever
has two tasks that live, the loop has a handle on each that does, and when the process has waited
for what is active, none is left.  After an iteration that does not fail every running campaign has
a task. -/
theorem dispatch_service_refines (settings : DispatchSettings) {d d' : Dispatcher}
    (as : List DispatcherAction) (h : d.Inv)
    (hr : run (Dispatcher.step settings) d as = some d') :
    (∃ bs, run (Service.step .external settings) d.service bs = some d'.service) ∧
      (∀ (i j : Nat) (t u : CallTask), d'.service.tasks[i]? = some t →
        d'.service.tasks[j]? = some u → t.live = true → u.live = true →
        t.campaignId = u.campaignId → i = j) ∧
      (∀ (i : Nat) (t : CallTask), d'.service.tasks[i]? = some t → t.live = true →
        d'.active t.campaignId = some i) ∧
      (d'.pc = .ended → ∀ t ∈ d'.service.tasks, t.live = false) ∧
      ∀ c ∈ d'.service.db.runningCampaignIds,
        ∃ t ∈ (d'.iterate false).service.tasks, t.campaignId = c ∧ t.live = true := by
  have hboth : (∃ bs, run (Service.step .external settings) d.service bs = some d'.service) ∧
      d'.Inv := by
    induction as generalizing d with
    | nil =>
        obtain rfl : d = d' := by simpa using hr
        exact ⟨⟨[], rfl⟩, h⟩
    | cons a as ih =>
        obtain ⟨d₁, hs, hr'⟩ := run_cons_eq_some.mp hr
        obtain ⟨⟨bs, hbs⟩, hinv⟩ := Dispatcher.step_refines h hs
        obtain ⟨⟨cs, hcs⟩, hinv'⟩ := ih hinv hr'
        exact ⟨⟨bs ++ cs, by rw [run_append, hbs]; exact hcs⟩, hinv'⟩
  obtain ⟨hrefines, hinv⟩ := hboth
  exact ⟨hrefines, fun i j t u ht hu hlive hlive' hkey =>
      hinv.tracks.registered.unique ht hu hlive hlive' hkey, hinv.tracks.registered, hinv.ended,
    (Dispatcher.iterate_polls settings hinv.tracks false).2 rfl⟩

/-- A process that has just been started. -/
def Dispatcher.init (now : Time) (db : OutreachDb) : Dispatcher := { service := .init now db }

/-- The process is killed while its task is about to send, and the campaign is picked up again. -/
def killedAndBooted : List DispatcherAction :=
  [.outside (.request admin (.dispatch 1)), .iterate true, .iterate false, .outside (.call 0),
    .outside (.call 0), .iterate false, .outside (.call 0), .outside (.call 0), .stop, .killed,
    .boot, .iterate false]

theorem dispatch_service_refines_killed :
    ∃ d, run (Dispatcher.step plainSettings) (.init (seconds 1) twoDrafts) killedAndBooted =
        some d ∧
      d.service.tasks = [⟨1, .stopped⟩, ⟨1, .queueing⟩] ∧
      (∃ bs, run (Service.step .external plainSettings) (.init (seconds 1) twoDrafts) bs =
        some d.service) ∧
      d.active 1 = some 1 := by
  have h : (run (Dispatcher.step plainSettings) (.init (seconds 1) twoDrafts) killedAndBooted).map
      (fun d => d.service.tasks) = some [⟨1, .stopped⟩, ⟨1, .queueing⟩] := by
    decide +kernel
  obtain ⟨d, hd, htasks⟩ := Option.map_eq_some_iff.mp h
  obtain ⟨hrefines, -, hactive, -⟩ := dispatch_service_refines plainSettings killedAndBooted
    (Dispatcher.inv_of_not_live fun t ht => absurd ht List.not_mem_nil) hd
  refine ⟨d, hd, htasks, hrefines, hactive 1 ⟨1, .queueing⟩ ?_ rfl⟩
  rw [htasks]
  rfl

end GovCrawler
