/-
The crawl and its checkpoint thread.

The event loop runs `_enqueue` and the workers; `_save_checkpoint` runs in a thread of
its own, without a lock.  It iterates over the pending items, then reads the visited
set and the counters one after the other, and saves what it has.  A step of either may
come between any two of the other's.  What the loop does in one go is one action, save
that `_enqueue` shows its visited key, its counter and its item one after the other.

A run goes on after a crash: `restart` forgets all that was in memory and starts from
any snapshot that was saved, or from none.  `discovered`, `finished` and `cancelled`
are about the crawl since its last start, and nothing in the program reads them.
-/
import GovCrawler.Lib.Transition
import GovCrawler.Crawler.Frontier

namespace GovCrawler

open OrderedDict Transition

/-- Where the loop is in `_enqueue`. -/
inductive EnqueuePc
  | done
  /-- The key is visited, and the item is to be built. -/
  | marked (args : EnqueueArgs)
  /-- The item is built, and is to be put into the pending items. -/
  | built (item : QueueItem)
  deriving DecidableEq

/-- It is halfway, with a page that is not a seed. -/
def EnqueuePc.discovering : EnqueuePc → Bool
  | .done => false
  | .marked args => !args.isSeed
  | .built item => !item.isSeed

/-- Where the checkpoint thread is in `_save_checkpoint`. -/
inductive Thread
  | idle
  | iterating (it : Dict.Iter) (acc : Collected)
  | reading (acc : Collected) (snapshot : Frontier) (left : List Field)
  deriving DecidableEq

/-- A snapshot that was saved, with what was known about the crawl at that moment. -/
structure Saved where
  frontier : Frontier
  discovered : List (String × Nat)
  finished : List Nat
  deriving DecidableEq

structure Crawl where
  engine : Engine := {}
  enqueuePc : EnqueuePc := .done
  inFlight : List QueueItem := []
  thread : Thread := .idle
  saved : List Saved := []
  /-- The keys that `_enqueue` put into the visited set, with the counters of their items. -/
  discovered : List (String × Nat) := []
  /-- The items a worker is through with, by success, timeout or error. -/
  finished : List Nat := []
  /-- The items whose worker was cancelled. -/
  cancelled : List Nat := []
  /-- Something has happened to the snapshot in the making that it does not stand. -/
  disturbed : Bool := false

inductive CrawlAction
  /-- `_enqueue` and its parts. -/
  | enqueue (args : EnqueueArgs)
  | build
  | put (compact : Bool)
  /-- `_queue.get()`. -/
  | take
  /-- A worker has a page, and looks at its depth. -/
  | process (counter : Nat)
  /-- A fetch has succeeded. -/
  | fetched
  /-- `_enqueue_links` passes over some links. -/
  | skip (links : Nat)
  | setBudget (cell value : Nat)
  /-- A worker is through with an item. -/
  | finish (counter : Nat)
  | cancel (counter : Nat)
  /-- `_save_checkpoint` and its parts. -/
  | begin
  | next
  | read
  | save
  | saveFails
  /-- The process dies, and `run` starts again. -/
  | restart (visitedBootstrap : List String) (snapshot : Option Nat)
  deriving DecidableEq

/-- What has been read, and collected, as the snapshot that is saved. -/
def Frontier.collect (snapshot : Frontier) (acc : Collected) : Frontier :=
  { snapshot with chains := acc.chains, items := acc.items }

namespace Crawl

variable (rules : UrlRules) (s : Crawl)

/-- What an action does, if it can be taken.  While the loop is inside `_enqueue` it does
nothing else. -/
def perform : CrawlAction → Option Crawl
  | .enqueue args =>
      if s.enqueuePc = .done then
        let r := s.engine.enqueueMark rules args
        if r.2 then
          some { s with
            engine := r.1
            enqueuePc := .marked args
            discovered :=
              if args.isSeed then s.discovered
              else s.discovered ++ [(rules.urlKey args.url, s.engine.counter + 1)] }
        else some { s with engine := r.1 }
      else none
  | .build =>
      match s.enqueuePc with
      | .marked args =>
          let r := s.engine.enqueueBuild rules args
          some { s with engine := r.1, enqueuePc := .built r.2 }
      | _ => none
  | .put compact =>
      match s.enqueuePc with
      | .built item =>
          some { s with engine := s.engine.enqueuePut item compact, enqueuePc := .done }
      | _ => none
  | .take =>
      match s.engine.queue with
      | [] => none
      | item :: queue =>
          if s.enqueuePc = .done then
            some { s with
              engine := { s.engine with queue := queue }
              inFlight := item :: s.inFlight }
          else none
  | .process counter =>
      match s.inFlight.find? fun item => item.counter == counter with
      | none => none
      | some item =>
          if s.enqueuePc = .done then
            some { s with
              engine := { s.engine with maxDepthSeen := max s.engine.maxDepthSeen item.depth } }
          else none
  | .fetched =>
      if s.enqueuePc = .done then
        some { s with
          engine := { s.engine with sessionVisitedCount := s.engine.sessionVisitedCount + 1 } }
      else none
  | .skip links =>
      if s.enqueuePc = .done then
        some { s with engine := { s.engine with skipped := s.engine.skipped + links } }
      else none
  | .setBudget cell value =>
      if s.enqueuePc = .done then
        some { s with
          engine := { s.engine with
            budget := fun c => if c = cell then value else s.engine.budget c } }
      else none
  | .finish counter =>
      if s.enqueuePc = .done ∧ s.inFlight.any (fun item => item.counter == counter) then
        some { s with
          engine := s.engine.drop counter
          inFlight := s.inFlight.filter fun item => item.counter != counter
          finished := counter :: s.finished }
      else none
  | .cancel counter =>
      if s.enqueuePc = .done ∧ s.inFlight.any (fun item => item.counter == counter) then
        some { s with
          engine := s.engine.drop counter
          inFlight := s.inFlight.filter fun item => item.counter != counter
          cancelled := counter :: s.cancelled }
      else none
  | .begin =>
      match s.thread with
      | .idle => some { s with thread := .iterating s.engine.pending.iter {} }
      | _ => none
  | .next =>
      match s.thread with
      | .iterating it acc =>
          match s.engine.pending.next it with
          | .raise => some { s with thread := .idle }
          | .stop => some { s with thread := .reading acc {} Field.all }
          | .yield item rest =>
              some { s with thread := .iterating rest (acc.add s.engine.budget item) }
      | _ => none
  | .read =>
      match s.thread with
      | .reading acc snapshot (field :: left) =>
          some { s with thread := .reading acc (snapshot.read s.engine field) left }
      | _ => none
  | .save =>
      match s.thread with
      | .reading acc snapshot [] =>
          some { s with
            thread := .idle
            saved := s.saved ++ [⟨snapshot.collect acc, s.discovered, s.finished⟩] }
      | _ => none
  | .saveFails =>
      match s.thread with
      | .reading _ _ [] => some { s with thread := .idle }
      | _ => none
  | .restart visitedBootstrap snapshot =>
      let frontier := snapshot.bind fun i => (s.saved[i]?).map Saved.frontier
      some { saved := s.saved, engine := Engine.init rules visitedBootstrap frontier }

/-- An item that `_enqueue` discovered has the counter. -/
def isDiscovered (counter : Nat) : Bool := s.discovered.any fun p => p.2 == counter

/-- What a snapshot in the making does not stand:
a discovered item was cancelled before the iteration began, or before it has come to it;
an insertion squeezes out a removed item that the iteration has passed;
the iteration ends when `_enqueue` is halfway with a page;
and between that end and the reading of the visited set `_enqueue` marks a page. -/
def disturbs : CrawlAction → Bool
  | .begin => s.cancelled.any s.isDiscovered
  | .cancel counter =>
      match s.thread with
      | .iterating it _ => s.isDiscovered counter && !s.engine.pending.keyBefore it.pos counter
      | _ => false
  | .put compact =>
      match s.thread with
      | .iterating it _ => compact && s.engine.pending.holeBefore it.pos
      | _ => false
  | .next =>
      match s.thread with
      | .iterating it _ =>
          (match s.engine.pending.next it with | .stop => true | _ => false) &&
            s.enqueuePc.discovering
      | _ => false
  | .enqueue args =>
      match s.thread with
      | .reading _ _ left =>
          left.contains .visited && !args.isSeed && (s.engine.enqueueMark rules args).2
      | _ => false
  | _ => false

/-- Take an action, and note whether it disturbs the snapshot that is being made. -/
def step (a : CrawlAction) : Option Crawl :=
  (s.perform rules a).map fun t =>
    { t with disturbed := (a != .begin && s.disturbed) || s.disturbs rules a }

/-- What is saved was not disturbed while it was made. -/
def Undisturbed (s : Crawl) (a : CrawlAction) : Prop := a = .save → s.disturbed = false

instance (s : Crawl) (a : CrawlAction) : Decidable (Undisturbed s a) :=
  inferInstanceAs (Decidable (a = .save → s.disturbed = false))

/-! ### What an action does -/

/-- What an action does, and when it can be taken. -/
inductive Performs : CrawlAction → Crawl → Prop
  | mark {args : EnqueueArgs} (hpc : s.enqueuePc = .done)
      (hgo : (s.engine.enqueueMark rules args).2 = true) :
      Performs (.enqueue args) { s with
        engine := (s.engine.enqueueMark rules args).1
        enqueuePc := .marked args
        discovered :=
          if args.isSeed then s.discovered
          else s.discovered ++ [(rules.urlKey args.url, s.engine.counter + 1)] }
  | refuse {args : EnqueueArgs} (hpc : s.enqueuePc = .done)
      (hgo : (s.engine.enqueueMark rules args).2 = false) :
      Performs (.enqueue args) { s with engine := (s.engine.enqueueMark rules args).1 }
  | build {args : EnqueueArgs} (hpc : s.enqueuePc = .marked args) :
      Performs .build { s with
        engine := (s.engine.enqueueBuild rules args).1
        enqueuePc := .built (s.engine.enqueueBuild rules args).2 }
  | put {item : QueueItem} (compact : Bool) (hpc : s.enqueuePc = .built item) :
      Performs (.put compact)
        { s with engine := s.engine.enqueuePut item compact, enqueuePc := .done }
  | take {item : QueueItem} {queue : List QueueItem} (hqueue : s.engine.queue = item :: queue)
      (hpc : s.enqueuePc = .done) :
      Performs .take { s with
        engine := { s.engine with queue := queue }
        inFlight := item :: s.inFlight }
  | process {counter : Nat} {item : QueueItem}
      (hitem : s.inFlight.find? (fun i => i.counter == counter) = some item)
      (hpc : s.enqueuePc = .done) :
      Performs (.process counter) { s with
        engine := { s.engine with maxDepthSeen := max s.engine.maxDepthSeen item.depth } }
  | fetched (hpc : s.enqueuePc = .done) :
      Performs .fetched { s with
        engine := { s.engine with sessionVisitedCount := s.engine.sessionVisitedCount + 1 } }
  | skip (links : Nat) (hpc : s.enqueuePc = .done) :
      Performs (.skip links) { s with
        engine := { s.engine with skipped := s.engine.skipped + links } }
  | setBudget (cell value : Nat) (hpc : s.enqueuePc = .done) :
      Performs (.setBudget cell value) { s with
        engine := { s.engine with
          budget := fun c => if c = cell then value else s.engine.budget c } }
  | finish {item : QueueItem} (hpc : s.enqueuePc = .done) (hitem : item ∈ s.inFlight) :
      Performs (.finish item.counter) { s with
        engine := s.engine.drop item.counter
        inFlight := s.inFlight.filter fun i => i.counter != item.counter
        finished := item.counter :: s.finished }
  | cancel {item : QueueItem} (hpc : s.enqueuePc = .done) (hitem : item ∈ s.inFlight) :
      Performs (.cancel item.counter) { s with
        engine := s.engine.drop item.counter
        inFlight := s.inFlight.filter fun i => i.counter != item.counter
        cancelled := item.counter :: s.cancelled }
  | begin (hth : s.thread = .idle) :
      Performs .begin { s with thread := .iterating s.engine.pending.iter {} }
  | nextRaises {it : Dict.Iter} {acc : Collected} (hth : s.thread = .iterating it acc)
      (hnext : s.engine.pending.next it = .raise) : Performs .next { s with thread := .idle }
  | nextStops {it : Dict.Iter} {acc : Collected} (hth : s.thread = .iterating it acc)
      (hnext : s.engine.pending.next it = .stop) :
      Performs .next { s with thread := .reading acc {} Field.all }
  | nextYields {it rest : Dict.Iter} {acc : Collected} {item : QueueItem}
      (hth : s.thread = .iterating it acc) (hnext : s.engine.pending.next it = .yield item rest) :
      Performs .next { s with thread := .iterating rest (acc.add s.engine.budget item) }
  | read {acc : Collected} {snapshot : Frontier} {field : Field} {left : List Field}
      (hth : s.thread = .reading acc snapshot (field :: left)) :
      Performs .read { s with thread := .reading acc (snapshot.read s.engine field) left }
  | save {acc : Collected} {snapshot : Frontier} (hth : s.thread = .reading acc snapshot []) :
      Performs .save { s with
        thread := .idle
        saved := s.saved ++ [⟨snapshot.collect acc, s.discovered, s.finished⟩] }
  | saveFails {acc : Collected} {snapshot : Frontier} (hth : s.thread = .reading acc snapshot []) :
      Performs .saveFails { s with thread := .idle }
  | restart (visitedBootstrap : List String) (snapshot : Option Nat) :
      Performs (.restart visitedBootstrap snapshot)
        { saved := s.saved
          engine := Engine.init rules visitedBootstrap
            (snapshot.bind fun i => (s.saved[i]?).map Saved.frontier) }

variable {rules s} in
/-- **What is performed is one of these.** -/
theorem performs_of_perform {a : CrawlAction} {t : Crawl} (h : s.perform rules a = some t) :
    Performs rules s a t := by
  have hworker : ∀ {counter : Nat}, s.inFlight.any (fun item => item.counter == counter) = true →
      ∃ item ∈ s.inFlight, item.counter = counter := by
    intro counter hany
    obtain ⟨item, hitem, heq⟩ := List.any_eq_true.mp hany
    exact ⟨item, hitem, beq_iff_eq.mp heq⟩
  cases a with
  | enqueue args =>
      dsimp only [perform] at h
      split at h
      · rename_i hpc
        split at h
        · rename_i hgo
          obtain rfl := Option.some.inj h
          exact .mark hpc hgo
        · rename_i hgo
          obtain rfl := Option.some.inj h
          exact .refuse hpc (Bool.eq_false_iff.mpr hgo)
      · cases h
  | build =>
      dsimp only [perform] at h
      split at h
      · rename_i args hpc
        obtain rfl := Option.some.inj h
        exact .build hpc
      · cases h
  | put compact =>
      dsimp only [perform] at h
      split at h
      · rename_i item hpc
        obtain rfl := Option.some.inj h
        exact .put compact hpc
      · cases h
  | take =>
      dsimp only [perform] at h
      split at h
      · cases h
      · rename_i item queue hqueue
        split at h
        · rename_i hpc
          obtain rfl := Option.some.inj h
          exact .take hqueue hpc
        · cases h
  | process counter =>
      dsimp only [perform] at h
      split at h
      · cases h
      · rename_i item hfind
        split at h
        · rename_i hpc
          obtain rfl := Option.some.inj h
          exact .process hfind hpc
        · cases h
  | fetched =>
      dsimp only [perform] at h
      split at h
      · rename_i hpc
        obtain rfl := Option.some.inj h
        exact .fetched hpc
      · cases h
  | skip links =>
      dsimp only [perform] at h
      split at h
      · rename_i hpc
        obtain rfl := Option.some.inj h
        exact .skip links hpc
      · cases h
  | setBudget cell value =>
      dsimp only [perform] at h
      split at h
      · rename_i hpc
        obtain rfl := Option.some.inj h
        exact .setBudget cell value hpc
      · cases h
  | finish counter =>
      dsimp only [perform] at h
      split at h
      · rename_i hguard
        obtain rfl := Option.some.inj h
        obtain ⟨item, hitem, rfl⟩ := hworker hguard.2
        exact .finish hguard.1 hitem
      · cases h
  | cancel counter =>
      dsimp only [perform] at h
      split at h
      · rename_i hguard
        obtain rfl := Option.some.inj h
        obtain ⟨item, hitem, rfl⟩ := hworker hguard.2
        exact .cancel hguard.1 hitem
      · cases h
  | begin =>
      dsimp only [perform] at h
      split at h
      · rename_i hth
        obtain rfl := Option.some.inj h
        exact .begin hth
      · cases h
  | next =>
      dsimp only [perform] at h
      split at h
      · rename_i it acc hth
        split at h
        · rename_i hnext
          obtain rfl := Option.some.inj h
          exact .nextRaises hth hnext
        · rename_i hnext
          obtain rfl := Option.some.inj h
          exact .nextStops hth hnext
        · rename_i item rest hnext
          obtain rfl := Option.some.inj h
          exact .nextYields hth hnext
      · cases h
  | read =>
      dsimp only [perform] at h
      split at h
      · rename_i acc snapshot field left hth
        obtain rfl := Option.some.inj h
        exact .read hth
      · cases h
  | save =>
      dsimp only [perform] at h
      split at h
      · rename_i acc snapshot hth
        obtain rfl := Option.some.inj h
        exact .save hth
      · cases h
  | saveFails =>
      dsimp only [perform] at h
      split at h
      · rename_i acc snapshot hth
        obtain rfl := Option.some.inj h
        exact .saveFails hth
      · cases h
  | restart visitedBootstrap snapshot =>
      obtain rfl := Option.some.inj h
      exact .restart visitedBootstrap snapshot

end Crawl

/-! ### What a snapshot promises -/

/-- One of the items is of a page with the key. -/
def HasItem (rules : UrlRules) (items : List SavedItem) (key : String) : Prop :=
  ∃ it ∈ items, rules.urlKey it.url = key

/-- A discovered key that is visited has an item, or its item is finished. -/
def Saved.Closed (rules : UrlRules) (f : Saved) : Prop :=
  ∀ p ∈ f.discovered, p.1 ∈ f.frontier.visited →
    HasItem rules f.frontier.items p.1 ∨ p.2 ∈ f.finished

/-- A crawl that starts from the snapshot skips no discovered page: if its `_enqueue` is
going to refuse the key as visited, then the page is in the queue, or it is finished, or
it is in the crawl history it was given. -/
def Saved.Resumable (rules : UrlRules) (f : Saved) : Prop :=
  ∀ visitedBootstrap, ∀ p ∈ f.discovered,
    let engine := Engine.init rules visitedBootstrap (some f.frontier)
    p.1 ∈ engine.visited →
      (∃ item ∈ engine.queue, rules.urlKey item.url = p.1) ∨ p.2 ∈ f.finished ∨
        p.1 ∈ visitedBootstrap.map rules.urlKey

/-- The counter of a snapshot is not behind its items. -/
def Frontier.WellCounted (f : Frontier) : Prop := ∀ it ∈ f.items, it.counter ≤ f.counter

end GovCrawler
