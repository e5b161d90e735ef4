/-
The counters that `_worker` and `_enqueue` keep: the queue's unfinished tasks, the pending items
and the active workers.

What a worker does between two of its awaits nobody comes between: it takes an item, counts itself
active and waits for `_process`; or `_process` has ended one way or another, and it counts itself
out, drops the item and acknowledges it.  Of `_process` only the calls of `_enqueue` are here, any
number of them with any arguments.

`queue_accounting` says that the counters agree, and that each item is acknowledged once; so the
join is over when, and only when, all items are.
-/
import GovCrawler.Crawler.SavedItems
import GovCrawler.Crawler.Workers
import GovCrawler.Lib.ThreadPool

namespace GovCrawler

open OrderedDict ThreadPool Transition

/-! ### Workers -/

/-- Where a worker is. -/
inductive WorkerState
  /-- In `_queue.get()`. -/
  | idle
  /-- In the `wait_for` of `_process`. -/
  | processing (item : QueueItem)
  | stopped
  /-- `task_done` has raised. -/
  | broken
  deriving DecidableEq, Repr

/-- The item that a worker has taken. -/
def WorkerState.item? : WorkerState → Option QueueItem
  | .processing item => some item
  | .idle | .stopped | .broken => none

/-- Where `run` is with `_queue.join()`. -/
inductive JoinState
  | waiting
  /-- The event that it waits for has been set. -/
  | woken
  | returned
  | cancelled
  deriving DecidableEq, Repr

/-- How the block around `_process` is left but for a cancellation. -/
inductive Leaving
  | success | timeout | raises
  deriving DecidableEq, Repr

/-- What workers share, and three histories that nothing reads: the counters of the items that were
enqueued, taken and acknowledged. -/
structure Crew where
  engine : Engine
  /-- `_queue._unfinished_tasks`. -/
  unfinished : Nat
  /-- `_queue._finished` is set. -/
  finished : Bool
  activeWorkers : Int := 0
  workers : List WorkerState
  join : JoinState
  enqueued : List Nat
  dequeued : List Nat := []
  acked : List Nat := []

inductive CrewAction
  /-- `_queue.get()` returns. -/
  | get (w : Nat)
  /-- `_process` of the worker's item calls `_enqueue`. -/
  | enqueue (w : Nat) (args : EnqueueArgs)
  | leave (w : Nat) (how : Leaving)
  /-- `CancelledError` is raised at the worker's await. -/
  | cancel (w : Nat)
  | joinReturns
  | cancelJoin
  deriving DecidableEq, Repr

namespace Crew

variable (rules : UrlRules) (s : Crew)

/-- The items in flight. -/
def inFlight : List QueueItem := s.workers.filterMap WorkerState.item?

/-- `_enqueue`, up to the counters of the queue. -/
def put (r : Engine × Option QueueItem) : Crew :=
  match r.2 with
  | none => { s with engine := r.1 }
  | some item =>
      { s with
        engine := r.1
        unfinished := s.unfinished + 1
        finished := false
        enqueued := s.enqueued ++ [item.counter] }

/-- `task_done`; `none` if it is called too many times. -/
def taskDone (counter : Nat) : Option Crew :=
  if s.unfinished = 0 then none
  else if s.unfinished - 1 = 0 then
    some { s with
      unfinished := s.unfinished - 1
      finished := true
      join := if s.join = .waiting then .woken else s.join
      acked := s.acked ++ [counter] }
  else some { s with unfinished := s.unfinished - 1, acked := s.acked ++ [counter] }

/-- The three statements with which an item is left. -/
def acknowledge (item : QueueItem) : Option Crew :=
  taskDone
    { s with
      activeWorkers := s.activeWorkers - 1
      engine := s.engine.drop item.counter }
    item.counter

def setWorker (w : Nat) (state : WorkerState) : Crew := { s with workers := s.workers.set w state }

/-- The worker is through with its item, and goes on as `state`. -/
def finish (w : Nat) (item : QueueItem) (state : WorkerState) : Crew :=
  match s.acknowledge item with
  | some s' => s'.setWorker w state
  | none => s.setWorker w .broken

def step : CrewAction → Option Crew
  | .get w =>
      match s.workers[w]?, s.engine.queue with
      | some .idle, item :: queue =>
          some { s.setWorker w (.processing item) with
            engine := { s.engine with queue := queue }
            activeWorkers := s.activeWorkers + 1
            dequeued := s.dequeued ++ [item.counter] }
      | _, _ => none
  | .enqueue w args =>
      match s.workers[w]? with
      | some (.processing _) => some (s.put (s.engine.enqueue rules args))
      | _ => none
  | .leave w _ =>
      match s.workers[w]? with
      | some (.processing item) => some (s.finish w item .idle)
      | _ => none
  | .cancel w =>
      match s.workers[w]? with
      | some .idle => some (s.setWorker w .stopped)
      | some (.processing item) => some (s.finish w item .stopped)
      | _ => none
  | .joinReturns => if s.join = .woken then some { s with join := .returned } else none
  | .cancelJoin =>
      if s.join = .waiting ∨ s.join = .woken then some { s with join := .cancelled } else none

/-- `run`, up to `_queue.join()`; `none` where it raises. -/
def start (cfg : CrawlerConfig) (workers : Nat) (seeds : List (String × Option Nat))
    (visitedBootstrap : List String) (frontier : Option Frontier) : Option Crew :=
  (CrawlRun.start cfg seeds visitedBootstrap frontier).map fun s =>
    { engine := s.engine
      unfinished := s.unfinished
      finished := decide (s.unfinished = 0)
      workers := List.replicate workers .idle
      join := if s.unfinished = 0 then .returned else .waiting
      enqueued := s.engine.queue.map QueueItem.counter }

end Crew

/-! ### What is promised -/

/-- The counters of a crew agree. -/
structure Crew.Accounts (s : Crew) : Prop where
  unfinished : s.unfinished = s.engine.pending.size
  active : s.activeWorkers = s.inFlight.length
  taken : ∀ c ∈ s.acked, c ∈ s.dequeued
  once : ∀ c ∈ s.dequeued,
    s.acked.count c = if c ∈ s.inFlight.map QueueItem.counter then 0 else 1
  /-- No acknowledgement is one too many. -/
  whole : .broken ∉ s.workers
  /-- The join is over when, and only when, all items are acknowledged. -/
  join : s.join ≠ .cancelled → (s.join ≠ .waiting ↔ ∀ c ∈ s.enqueued, c ∈ s.acked)

/-! ### The pending items -/

/-- The pending items are those in the queue and those in flight, under their counters. -/
structure Engine.Balanced (e : Engine) (inFlight : List QueueItem) : Prop where
  pending : e.pending.items.Perm ((e.queue ++ inFlight).map fun item => (item.counter, item))
  counted : ∀ item ∈ e.queue ++ inFlight, item.counter ≤ e.counter

namespace Engine.Balanced

variable {e : Engine} {inFlight inFlight' : List QueueItem} {item : QueueItem}

theorem size (h : e.Balanced inFlight) :
    e.pending.size = e.queue.length + inFlight.length := by
  have hlength := h.pending.length_eq
  rw [List.length_map, List.length_append] at hlength
  exact hlength

theorem keys (h : e.Balanced inFlight) :
    (e.pending.items.map Prod.fst).Perm ((e.queue ++ inFlight).map QueueItem.counter) := by
  have hkeys := h.pending.map Prod.fst
  rwa [List.map_map] at hkeys

theorem nodup (h : e.Balanced inFlight) :
    ((e.queue ++ inFlight).map QueueItem.counter).Nodup :=
  h.keys.nodup_iff.mp e.pending.nodup

theorem perm (h : e.Balanced inFlight) (hperm : inFlight.Perm inFlight') :
    e.Balanced inFlight' :=
  ⟨h.pending.trans ((hperm.append_left _).map _), fun item hitem =>
    h.counted item ((hperm.append_left _).mem_iff.mpr hitem)⟩

/-- A new item is enqueued. -/
theorem withItem (h : e.Balanced inFlight) (visited : List String)
    (hcounter : item.counter = e.counter + 1) : (e.withItem visited item).Balanced inFlight := by
  have hqueue : (e.withItem visited item).queue.Perm (item :: e.queue) :=
    List.perm_orderedInsert _ _ _
  have hnew : item.counter ∉ e.pending.items.map Prod.fst := by
    intro hmem
    obtain ⟨old, hold, heq⟩ := List.mem_map.mp (h.keys.mem_iff.mp hmem)
    have hle := h.counted old hold
    omega
  constructor
  · show ((e.pending.insert item.counter item false).items).Perm _
    rw [Dict.items_insert hnew]
    refine (List.perm_append_comm.trans ?_).trans ((hqueue.symm.append_right _).map _)
    exact h.pending.cons _
  · intro old hold
    show old.counter ≤ e.counter + 1
    have hmem := (hqueue.append_right inFlight).mem_iff.mp hold
    rcases List.mem_cons.mp hmem with rfl | hmem
    · exact Nat.le_of_eq hcounter
    · exact Nat.le_succ_of_le (h.counted old hmem)

/-- The first item of the queue is taken. -/
theorem take {queue : List QueueItem} (h : e.Balanced inFlight)
    (hqueue : e.queue = item :: queue) :
    Engine.Balanced { e with queue := queue } (item :: inFlight) := by
  have hperm : (e.queue ++ inFlight).Perm (queue ++ item :: inFlight) := by
    rw [hqueue]
    exact List.perm_middle.symm
  exact ⟨h.pending.trans (hperm.map _), fun old hold => h.counted old (hperm.mem_iff.mpr hold)⟩

/-- An item in flight is dropped. -/
theorem drop (h : e.Balanced (item :: inFlight)) : (e.drop item.counter).Balanced inFlight := by
  have hperm : e.pending.items.Perm
      ((item.counter, item) :: (e.queue ++ inFlight).map fun item => (item.counter, item)) :=
    h.pending.trans (List.perm_middle.map _)
  have hnodup : (item.counter :: (e.queue ++ inFlight).map QueueItem.counter).Nodup := by
    have hcounters := List.perm_middle.map QueueItem.counter |>.nodup_iff.mp h.nodup
    exact hcounters
  constructor
  · show (e.pending.erase item.counter).items.Perm _
    rw [Dict.items_erase]
    refine (hperm.filter _).trans ?_
    rw [List.filter_cons_of_neg (by simp), List.filter_eq_self.mpr]
    · exact List.Perm.refl _
    · intro x hx
      obtain ⟨other, hother, rfl⟩ := List.mem_map.mp hx
      have hne : other.counter ≠ item.counter := fun heq =>
        (List.nodup_cons.mp hnodup).1 (heq ▸ List.mem_map_of_mem hother)
      simpa using hne
  · intro old hold
    exact h.counted old (List.perm_middle.mem_iff.mpr (List.mem_cons_of_mem _ hold))

end Engine.Balanced

/-- What a frontier is rehydrated to. -/
theorem Frontier.Numbered.balanced {f : Frontier} (h : f.Numbered) (rules : UrlRules)
    (visitedBootstrap : List String) :
    (Engine.init rules visitedBootstrap (some f)).Balanced [] ∧
      (Engine.init rules visitedBootstrap (some f)).queue.length = f.items.length := by
  obtain ⟨pending, queue, heq, hpending, hqueue⟩ := putAll_items f.chains f.items
    { visited := (visitedBootstrap.map rules.urlKey).dedup ++
        f.visited.filter fun key => !((visitedBootstrap.map rules.urlKey).dedup).contains key
      counter := max 0 f.counter
      skipped := f.skipped
      maxDepthSeen := f.maxDepthSeen
      sessionVisitedCount := f.sessionVisitedCount
      budget := fun cell => ((f.chains[cell]?).map Prod.snd).getD 0 } h.nodup
    (fun _ _ hmem => nomatch hmem)
  have hinit : Engine.init rules visitedBootstrap (some f) = _ := heq
  rw [hinit]
  refine ⟨⟨?_, ?_⟩, ?_⟩
  · show pending.items.Perm ((queue ++ []).map _)
    rw [hpending, List.append_nil]
    refine List.Perm.trans (List.Perm.of_eq ?_) (hqueue.symm.map _)
    show f.items.map _ = (f.items.map _).map _
    rw [List.map_map]
    rfl
  · intro item hitem
    rw [List.append_nil] at hitem
    obtain ⟨it, hit, rfl⟩ := List.mem_map.mp (hqueue.mem_iff.mp hitem)
    exact Nat.le_trans (h.counted it hit) (Nat.le_max_right _ _)
  · show queue.length = _
    rw [hqueue.length_eq]
    exact List.length_map ..

/-! ### The counters -/

namespace Crew

variable {s s' : Crew} {rules : UrlRules}

/-- What the workers keep. -/
structure Balanced (s : Crew) : Prop where
  engine : s.engine.Balanced s.inFlight
  unfinished : s.unfinished = s.engine.queue.length + s.inFlight.length
  active : s.activeWorkers = s.inFlight.length
  enqueued : s.enqueued.Perm ((s.engine.queue ++ s.inFlight).map QueueItem.counter ++ s.acked)
  nodup : s.enqueued.Nodup
  counted : ∀ c ∈ s.enqueued, c ≤ s.engine.counter
  dequeued : s.dequeued.Perm (s.inFlight.map QueueItem.counter ++ s.acked)
  finished : s.finished = true ↔ s.unfinished = 0
  joining : s.join ≠ .cancelled → (s.join ≠ .waiting ↔ s.unfinished = 0)
  whole : .broken ∉ s.workers

/-- A worker changes. -/
theorem inFlight_setWorker {w : Nat} {before : WorkerState} (hget : s.workers[w]? = some before)
    (after : WorkerState) :
    (before.item?.toList ++ (s.setWorker w after).inFlight).Perm
      (after.item?.toList ++ s.inFlight) :=
  filterMap_set_perm WorkerState.item? hget

/-- A worker that has an item is through with it. -/
theorem inFlight_perm {w : Nat} {item : QueueItem}
    (hget : s.workers[w]? = some (.processing item)) {state : WorkerState}
    (hstate : state.item? = none) :
    s.inFlight.Perm (item :: (s.setWorker w state).inFlight) := by
  have hperm := inFlight_setWorker hget state
  rw [hstate] at hperm
  exact hperm.symm

theorem whole_setWorker (h : .broken ∉ s.workers) (w : Nat) {state : WorkerState}
    (hstate : state ≠ .broken) : .broken ∉ (s.setWorker w state).workers := by
  intro hmem
  rcases List.mem_or_eq_of_mem_set hmem with hold | hnew
  · exact h hold
  · exact hstate hnew.symm

/-- As long as there is something to acknowledge, `task_done` does not raise. -/
theorem finish_eq (h : 0 < s.unfinished) (w : Nat) (item : QueueItem) (state : WorkerState) :
    s.finish w item state = { s.setWorker w state with
      engine := s.engine.drop item.counter
      unfinished := s.unfinished - 1
      finished := decide (s.unfinished - 1 = 0) || s.finished
      activeWorkers := s.activeWorkers - 1
      join := if s.unfinished - 1 = 0 ∧ s.join = .waiting then .woken else s.join
      acked := s.acked ++ [item.counter] } := by
  unfold finish acknowledge taskDone
  dsimp only
  rw [if_neg (Nat.ne_of_gt h)]
  by_cases hlast : s.unfinished - 1 = 0
  · rw [if_pos hlast]
    simp [hlast, setWorker]
  · rw [if_neg hlast]
    simp [hlast, setWorker]

/-- Work that changes no counter. -/
theorem Balanced.skip (h : s.Balanced) (skipped : Nat) :
    Balanced { s with engine := { s.engine with skipped := skipped } } :=
  { h with engine := ⟨h.engine.pending, h.engine.counted⟩ }

/-- `_enqueue`, while some item is in flight. -/
theorem Balanced.put (h : s.Balanced) (hbusy : 0 < s.unfinished) (rules : UrlRules)
    (args : EnqueueArgs) : (s.put (s.engine.enqueue rules args)).Balanced := by
  rcases s.engine.enqueue_cases rules args with heq | ⟨skipped, heq⟩
  · rw [heq]
    set item := s.engine.newItem rules args
    set visited := if args.isSeed then s.engine.visited
      else s.engine.visited ++ [rules.urlKey args.url]
    have hcounter : item.counter = s.engine.counter + 1 := rfl
    have hqueue : (s.engine.withItem visited item).queue.Perm (item :: s.engine.queue) :=
      List.perm_orderedInsert _ _ _
    have hfresh : item.counter ∉ s.enqueued := by
      intro hmem
      have hle := h.counted _ hmem
      omega
    refine ⟨h.engine.withItem visited hcounter, ?_, h.active, ?_, ?_, ?_, h.dequeued, ?_, ?_,
      h.whole⟩
    · show s.unfinished + 1 = (s.engine.withItem visited item).queue.length + s.inFlight.length
      have hlength := hqueue.length_eq
      rw [List.length_cons] at hlength
      rw [hlength, h.unfinished]
      omega
    · show (s.enqueued ++ [item.counter]).Perm _
      refine (List.perm_append_comm.trans (h.enqueued.cons item.counter)).trans ?_
      exact (((hqueue.append_right s.inFlight).map QueueItem.counter).append_right s.acked).symm
    · show (s.enqueued ++ [item.counter]).Nodup
      exact List.nodup_append_comm.mp (List.nodup_cons.mpr ⟨hfresh, h.nodup⟩)
    · intro c hc
      show c ≤ s.engine.counter + 1
      rcases List.mem_append.mp hc with hold | hnew
      · exact Nat.le_succ_of_le (h.counted c hold)
      · exact Nat.le_of_eq (List.mem_singleton.mp hnew)
    · exact iff_of_false Bool.false_ne_true (Nat.succ_ne_zero _)
    · intro hjoin
      have hwaiting : ¬ s.join ≠ .waiting := by
        rw [h.joining hjoin]
        exact Nat.ne_of_gt hbusy
      exact iff_of_false hwaiting (Nat.succ_ne_zero _)
  · rw [heq]
    exact h.skip skipped

/-- `_queue.get()` returns. -/
theorem Balanced.get (h : s.Balanced) {w : Nat} {item : QueueItem} {queue : List QueueItem}
    (hget : s.workers[w]? = some .idle) (hqueue : s.engine.queue = item :: queue) :
    Balanced { s.setWorker w (.processing item) with
      engine := { s.engine with queue := queue }
      activeWorkers := s.activeWorkers + 1
      dequeued := s.dequeued ++ [item.counter] } := by
  have hflight : (s.setWorker w (.processing item)).inFlight.Perm (item :: s.inFlight) :=
    inFlight_setWorker hget (.processing item)
  have hlength := hflight.length_eq
  have hunfinished := h.unfinished
  rw [hqueue] at hunfinished
  rw [List.length_cons] at hlength hunfinished
  refine ⟨(h.engine.take hqueue).perm hflight.symm, ?_, ?_, ?_, h.nodup, h.counted, ?_, h.finished,
    h.joining, whole_setWorker h.whole w (by simp)⟩
  · show s.unfinished = queue.length + (s.setWorker w (.processing item)).inFlight.length
    omega
  · show s.activeWorkers + 1 = ((s.setWorker w (.processing item)).inFlight.length : Int)
    rw [hlength, h.active]
    omega
  · show s.enqueued.Perm
      ((queue ++ (s.setWorker w (.processing item)).inFlight).map QueueItem.counter ++ s.acked)
    refine h.enqueued.trans (List.Perm.append_right _ (List.Perm.map _ ?_))
    rw [hqueue]
    exact List.perm_middle.symm.trans (hflight.symm.append_left queue)
  · show (s.dequeued ++ [item.counter]).Perm _
    refine (List.perm_append_comm.trans (h.dequeued.cons item.counter)).trans ?_
    exact ((hflight.map QueueItem.counter).append_right s.acked).symm

/-- A worker that has no item stops. -/
theorem Balanced.stop (h : s.Balanced) {w : Nat} (hget : s.workers[w]? = some .idle) :
    (s.setWorker w .stopped).Balanced := by
  have hflight : (s.setWorker w .stopped).inFlight.Perm s.inFlight :=
    inFlight_setWorker hget .stopped
  refine ⟨h.engine.perm hflight.symm, ?_, ?_, ?_, h.nodup, h.counted, ?_, h.finished, h.joining,
    whole_setWorker h.whole w (by simp)⟩
  · rw [hflight.length_eq]
    exact h.unfinished
  · rw [hflight.length_eq]
    exact h.active
  · exact h.enqueued.trans (((hflight.symm.append_left _).map _).append_right _)
  · exact h.dequeued.trans ((hflight.symm.map _).append_right _)

/-- A worker is through with its item. -/
theorem Balanced.finish (h : s.Balanced) {w : Nat} {item : QueueItem}
    (hget : s.workers[w]? = some (.processing item)) {state : WorkerState}
    (hstate : state.item? = none) (hwhole : state ≠ .broken) :
    (s.finish w item state).Balanced := by
  have hflight := inFlight_perm hget hstate
  have hlength := hflight.length_eq
  have hunfinished := h.unfinished
  rw [List.length_cons] at hlength
  rw [finish_eq (by omega)]
  have hpositive : 0 < s.unfinished := by omega
  refine ⟨(h.engine.perm hflight).drop, ?_, ?_, ?_, h.nodup, h.counted, ?_, ?_, ?_,
    whole_setWorker h.whole w hwhole⟩
  · show s.unfinished - 1 = s.engine.queue.length + (s.setWorker w state).inFlight.length
    omega
  · show s.activeWorkers - 1 = ((s.setWorker w state).inFlight.length : Int)
    rw [h.active, hlength]
    omega
  · show s.enqueued.Perm ((s.engine.queue ++ (s.setWorker w state).inFlight).map QueueItem.counter ++
      (s.acked ++ [item.counter]))
    refine h.enqueued.trans ?_
    have hcounters := ((hflight.append_left s.engine.queue).trans List.perm_middle).map
      QueueItem.counter
    refine (hcounters.append_right s.acked).trans ?_
    exact List.perm_middle.symm.trans ((List.perm_append_singleton _ _).symm.append_left _)
  · show s.dequeued.Perm ((s.setWorker w state).inFlight.map QueueItem.counter ++
      (s.acked ++ [item.counter]))
    refine h.dequeued.trans (((hflight.map QueueItem.counter).append_right s.acked).trans ?_)
    exact List.perm_middle.symm.trans ((List.perm_append_singleton _ _).symm.append_left _)
  · show (decide (s.unfinished - 1 = 0) || s.finished) = true ↔ s.unfinished - 1 = 0
    have hnot : s.finished = false := by
      rw [← Bool.not_eq_true, h.finished]
      omega
    rw [hnot, Bool.or_false, decide_eq_true_iff]
  · show (if s.unfinished - 1 = 0 ∧ s.join = .waiting then JoinState.woken else s.join) ≠ _ →
      ((if s.unfinished - 1 = 0 ∧ s.join = .waiting then JoinState.woken else s.join) ≠ .waiting ↔
        s.unfinished - 1 = 0)
    by_cases hjoin : s.join = .waiting
    · simp only [hjoin, and_true]
      intro _
      by_cases hlast : s.unfinished - 1 = 0
      · simp [hlast]
      · simp [hlast]
    · rw [if_neg fun hboth => hjoin hboth.2]
      intro hcancelled
      have hnone := (h.joining hcancelled).mp hjoin
      exact iff_of_true hjoin (by omega)

/-- **One step keeps the counters.** -/
theorem balanced_step {a : CrewAction} (h : s.Balanced) (hstep : s.step rules a = some s') :
    s'.Balanced := by
  have hbusy : ∀ {w : Nat} {item : QueueItem}, s.workers[w]? = some (.processing item) →
      0 < s.unfinished := by
    intro w item hget
    have hidle : WorkerState.item? .idle = none := rfl
    have hlength := (inFlight_perm hget hidle).length_eq
    rw [List.length_cons] at hlength
    rw [h.unfinished]
    omega
  cases a with
  | get w =>
      dsimp only [step] at hstep
      split at hstep
      · rename_i item queue hget hqueue
        obtain rfl := Option.some.inj hstep
        exact h.get hget hqueue
      · cases hstep
  | enqueue w args =>
      dsimp only [step] at hstep
      split at hstep
      · rename_i item hget
        obtain rfl := Option.some.inj hstep
        exact h.put (hbusy hget) rules args
      · cases hstep
  | leave w how =>
      dsimp only [step] at hstep
      split at hstep
      · rename_i item hget
        obtain rfl := Option.some.inj hstep
        exact h.finish hget rfl (by simp)
      · cases hstep
  | cancel w =>
      dsimp only [step] at hstep
      split at hstep
      · rename_i hget
        obtain rfl := Option.some.inj hstep
        exact h.stop hget
      · rename_i item hget
        obtain rfl := Option.some.inj hstep
        exact h.finish hget rfl (by simp)
      · cases hstep
  | joinReturns =>
      dsimp only [step] at hstep
      split at hstep
      · rename_i hwoken
        obtain rfl := Option.some.inj hstep
        refine { h with joining := fun _ => ?_ }
        have hnone : s.unfinished = 0 := (h.joining (by simp [hwoken])).mp (by simp [hwoken])
        exact iff_of_true (by simp) hnone
      · cases hstep
  | cancelJoin =>
      dsimp only [step] at hstep
      split at hstep
      · obtain rfl := Option.some.inj hstep
        exact { h with joining := fun hne => absurd rfl hne }
      · cases hstep

/-! ### The start -/

/-- What the engine and the count of the queue are like before there are workers. -/
structure Ready (r : CrawlRun) : Prop where
  engine : r.engine.Balanced []
  unfinished : r.unfinished = r.engine.queue.length

theorem Ready.putSeed {r : CrawlRun} (h : Ready r) (cfg : CrawlerConfig)
    (seed : String × Option Nat) : Ready (r.putSeed cfg seed) := by
  rcases CrawlRun.putSeed_cases cfg r seed with ⟨item, hitem, heq⟩ | ⟨skipped, heq⟩
  · rw [heq]
    refine ⟨h.engine.withItem _ hitem.counter, ?_⟩
    show r.unfinished + 1 = (r.engine.queue.orderedInsert _ item).length
    rw [List.orderedInsert_length, h.unfinished]
  · rw [heq]
    exact ⟨⟨h.engine.pending, h.engine.counted⟩, h.unfinished⟩

theorem Ready.seeds {r : CrawlRun} (h : Ready r) (cfg : CrawlerConfig)
    (seeds : List (String × Option Nat)) : Ready (seeds.foldl (CrawlRun.putSeed cfg) r) := by
  induction seeds generalizing r with
  | nil => exact h
  | cons seed seeds ih => exact ih (h.putSeed cfg seed)

theorem ready_of_start {cfg : CrawlerConfig} {seeds : List (String × Option Nat)}
    {visitedBootstrap : List String} {frontier : Option Frontier} {r : CrawlRun}
    (hfrontier : ∀ f, frontier = some f → f.Numbered)
    (hstart : CrawlRun.start cfg seeds visitedBootstrap frontier = some r) : Ready r := by
  unfold CrawlRun.start at hstart
  cases frontier with
  | none =>
      dsimp only at hstart
      split at hstart
      · cases hstart
      · obtain rfl := Option.some.inj hstart
        exact Ready.seeds ⟨⟨List.Perm.refl _, fun _ hitem => absurd hitem List.not_mem_nil⟩, rfl⟩
          cfg seeds
  | some f =>
      obtain rfl := Option.some.inj hstart
      obtain ⟨hengine, hlength⟩ := (hfrontier f rfl).balanced cfg.toUrlRules visitedBootstrap
      exact ⟨hengine, hlength.symm⟩

/-- **What `run` starts with.** -/
theorem balanced_start {cfg : CrawlerConfig} {workers : Nat} {seeds : List (String × Option Nat)}
    {visitedBootstrap : List String} {frontier : Option Frontier}
    (hfrontier : ∀ f, frontier = some f → f.Numbered)
    (hstart : start cfg workers seeds visitedBootstrap frontier = some s) : s.Balanced := by
  obtain ⟨r, hr, rfl⟩ := Option.map_eq_some_iff.mp hstart
  have hready := ready_of_start hfrontier hr
  have hidle : (List.replicate workers WorkerState.idle).filterMap WorkerState.item? = [] := by
    refine List.filterMap_eq_nil_iff.mpr fun state hstate => ?_
    rw [List.eq_of_mem_replicate hstate]
    rfl
  refine ⟨?_, ?_, ?_, ?_, ?_, ?_, ?_, ?_, ?_, ?_⟩
  · show r.engine.Balanced ((List.replicate workers WorkerState.idle).filterMap _)
    rw [hidle]
    exact hready.engine
  · show r.unfinished = r.engine.queue.length +
      ((List.replicate workers WorkerState.idle).filterMap _).length
    rw [hidle]
    exact hready.unfinished
  · show (0 : Int) = ((List.replicate workers WorkerState.idle).filterMap _).length
    rw [hidle]
    rfl
  · show (r.engine.queue.map QueueItem.counter).Perm
      ((r.engine.queue ++ (List.replicate workers WorkerState.idle).filterMap _).map _ ++ [])
    rw [hidle, List.append_nil, List.append_nil]
  · have hnodup := hready.engine.nodup
    rw [List.append_nil] at hnodup
    exact hnodup
  · intro c hc
    obtain ⟨item, hitem, rfl⟩ := List.mem_map.mp hc
    exact hready.engine.counted item (List.mem_append_left _ hitem)
  · show ([] : List Nat).Perm
      (((List.replicate workers WorkerState.idle).filterMap _).map _ ++ [])
    rw [hidle]
    exact List.Perm.refl _
  · exact decide_eq_true_iff
  · intro _
    show (if r.unfinished = 0 then JoinState.returned else .waiting) ≠ .waiting ↔ r.unfinished = 0
    by_cases hnone : r.unfinished = 0
    · simp [hnone]
    · simp [hnone]
  · intro hbroken
    cases List.eq_of_mem_replicate hbroken

/-! ### What follows -/

/-- Everything is acknowledged when nothing is left to be. -/
theorem Balanced.unfinished_eq_zero_iff (h : s.Balanced) :
    s.unfinished = 0 ↔ ∀ c ∈ s.enqueued, c ∈ s.acked := by
  have hopen : s.unfinished = ((s.engine.queue ++ s.inFlight).map QueueItem.counter).length := by
    rw [List.length_map, List.length_append]
    exact h.unfinished
  rw [hopen, List.length_eq_zero_iff]
  constructor
  · intro hnone c hc
    have hmem := h.enqueued.mem_iff.mp hc
    rwa [hnone] at hmem
  · intro hall
    have hnodup := h.enqueued.nodup_iff.mp h.nodup
    refine List.eq_nil_iff_forall_not_mem.mpr fun c hc => ?_
    have hacked := hall c (h.enqueued.mem_iff.mpr (List.mem_append_left _ hc))
    exact (List.nodup_append.mp hnodup).2.2 c hc c hacked rfl

theorem Balanced.dequeued_nodup (h : s.Balanced) :
    (s.inFlight.map QueueItem.counter ++ s.acked).Nodup := by
  have hnodup := h.enqueued.nodup_iff.mp h.nodup
  rw [List.map_append, List.append_assoc] at hnodup
  exact (List.nodup_append.mp hnodup).2.1

theorem Balanced.accounts (h : s.Balanced) : s.Accounts where
  unfinished := h.unfinished.trans h.engine.size.symm
  active := h.active
  taken _ hc := h.dequeued.mem_iff.mpr (List.mem_append_right _ hc)
  once c hc := by
    obtain ⟨-, hacked, hapart⟩ := List.nodup_append.mp h.dequeued_nodup
    by_cases hflight : c ∈ s.inFlight.map QueueItem.counter
    · rw [if_pos hflight]
      exact List.count_eq_zero_of_not_mem fun hmem => hapart c hflight c hmem rfl
    · rw [if_neg hflight]
      have hmem := (List.mem_append.mp (h.dequeued.mem_iff.mp hc)).resolve_left hflight
      exact List.count_eq_one_of_mem hacked hmem
  whole := h.whole
  join hjoin := (h.joining hjoin).trans h.unfinished_eq_zero_iff

end Crew

/--
**Queue accounting.**  From seeds, or from a snapshot that has been saved, whatever the workers
do and however their items end: the queue counts as unfinished what is pending, as many workers are
active as items are in flight, each item that was taken is acknowledged once when it is left, and
never before, and the join waits for all items and no longer.
-/
theorem queue_accounting {cfg : CrawlerConfig} {workers : Nat}
    {seeds : List (String × Option Nat)} {visitedBootstrap : List String}
    {frontier : Option Frontier} (hfrontier : ∀ f, frontier = some f → f.Numbered) {s t : Crew}
    (hstart : Crew.start cfg workers seeds visitedBootstrap frontier = some s)
    {as : List CrewAction} (hr : run (Crew.step cfg.toUrlRules) s as = some t) : t.Accounts :=
  (run_invariant' (fun _ _ _ h hs => Crew.balanced_step h hs) (Crew.balanced_start hfrontier hstart)
    hr).accounts

/-- What was left of a crawl of the town's site. -/
def townFrontier : Frontier where
  visited := ["town.gov/clerk"]
  counter := 5
  items := [⟨0, 3, "/clerk", 1, none, false, 0, none⟩, ⟨0, 5, "/staff", 1, none, false, 0, none⟩]

/-- A page is found on one of the two, whose worker is then stalled; the other's fails. -/
def townShift : List CrewAction :=
  [.get 0, .get 1, .enqueue 0 { url := "/council", depth := 2 }, .leave 1 .raises,
    .leave 0 .timeout, .get 1, .leave 1 .success, .joinReturns]

theorem town_accounted :
    ∃ s t, Crew.start townCrawl 2 [] [] (some townFrontier) = some s ∧
      run (Crew.step townCrawl.toUrlRules) s townShift = some t ∧ t.Accounts ∧
      t.acked = [5, 3, 6] ∧ t.join = .returned := by
  have hview : ((Crew.start townCrawl 2 [] [] (some townFrontier)).bind fun s =>
      (run (Crew.step townCrawl.toUrlRules) s townShift).map fun t => (t.acked, t.join)) =
      some ([5, 3, 6], .returned) := by decide +kernel
  obtain ⟨s, hstart, hrun⟩ := Option.bind_eq_some_iff.mp hview
  obtain ⟨t, hr, heq⟩ := Option.map_eq_some_iff.mp hrun
  obtain ⟨hacked, hjoin⟩ := Prod.mk.inj heq
  have hnumbered : townFrontier.Numbered := by
    refine ⟨by decide, ?_⟩
    unfold Frontier.WellCounted
    decide
  refine ⟨s, t, hstart, hr, queue_accounting ?_ hstart hr, hacked, hjoin⟩
  intro f hf
  obtain rfl := Option.some.inj hf
  exact hnumbered

end GovCrawler
