/-
A run of the crawl engine: its queue and its workers.

`run` puts the seeds into the queue, or what a frontier has, and waits for the queue to be
joined.  A worker takes an item, sees the page through `_process` and acknowledges it.  What
the pages say is from outside, and so is the order in which workers get their turns: a turn
ends at an `await`, and here also between any two links of a page.

`enqueued` is the history of `_enqueue`, newest first; nothing in the program reads it.
-/
import GovCrawler.Crawler.Links
import GovCrawler.Crawler.Visit

namespace GovCrawler

open OrderedDict Transition

/-- Where `_process` is with a page. -/
inductive PageState
  /-- Out of the queue, and not begun. -/
  | taken
  | fetching
  /-- Fetched: it is marked, parsed, and its leads are saved. -/
  | working
  /-- In the loop of `_enqueue_links`. -/
  | linking (links : PageLinks)
  /-- To be acknowledged. -/
  | through
  deriving DecidableEq

structure BusyPage where
  page : QueueItem
  state : PageState
  deriving DecidableEq

/-- What led to an item. -/
inductive Origin
  | seed
  /-- A link one level down, on the page with this counter. -/
  | link (page : Nat)
  /-- The pagination link of the page. -/
  | pagination (page : Nat)
  deriving DecidableEq, Repr

/-- An item that `_enqueue` has put into the queue. -/
structure Enqueued where
  item : QueueItem
  origin : Origin
  deriving DecidableEq, Repr

structure CrawlRun where
  engine : Engine := {}
  /-- The identity of the next budget cell. -/
  nextCell : Nat := 0
  busy : List BusyPage := []
  /-- The queue's count of items that are not acknowledged. -/
  unfinished : Nat := 0
  enqueued : List Enqueued := []

inductive WorkerAction
  /-- `_queue.get()`. -/
  | take
  /-- `_process` begins. -/
  | begin (i : Nat)
  /-- The fetch has returned a page, or nothing. -/
  | fetched (i : Nat) (found : Bool)
  /-- The page is marked and parsed and its leads are saved: these are its links. -/
  | parsed (i : Nat) (rawLinks : List RawLink) (backpressured : Bool)
  /-- The next link of the page. -/
  | link (i : Nat)
  /-- A timeout, a cancellation, or an exception. -/
  | stop (i : Nat)
  /-- `task_done`. -/
  | finish (i : Nat)
  deriving DecidableEq, Repr

namespace CrawlRun

variable (cfg : CrawlerConfig) (pages : PageRules) (s : CrawlRun)

/-- What `_enqueue` does beside the engine. -/
def put (origin : Origin) (r : Engine × Option QueueItem) : CrawlRun :=
  match r.2 with
  | none => { s with engine := r.1 }
  | some item =>
      { s with
        engine := r.1
        unfinished := s.unfinished + 1
        enqueued := ⟨item, origin⟩ :: s.enqueued }

/-- Page `i` goes on. -/
def move (i : Nat) (page : QueueItem) (state : PageState) : CrawlRun :=
  { s with busy := s.busy.set i ⟨page, state⟩ }

/-- `self._skipped += n`. -/
def skip (n : Nat) : CrawlRun := { s with engine := { s.engine with skipped := s.engine.skipped + n } }

/-- The value in a cell is set. -/
def setBudget (cell value : Nat) : CrawlRun :=
  { s with
    engine := { s.engine with budget := fun c => if c = cell then value else s.engine.budget c } }

/-- `[0]`. -/
def newCell : CrawlRun := { s.setBudget s.nextCell 0 with nextCell := s.nextCell + 1 }

/-- `chain_budget if chain_budget is not None else [0]`. -/
def childBudget (page : QueueItem) : CrawlRun × Nat :=
  match page.chainBudget with
  | some cell => (s, cell)
  | none => (s.newCell, s.nextCell)

/-- The body of the loop of `_enqueue_links`. -/
def follow (i : Nat) (page : QueueItem) (links : PageLinks) (link : RawLink)
    (left : List RawLink) : CrawlRun :=
  let down : EnqueueArgs :=
    { url := link.absolute, depth := page.depth + 1, domainId := links.domainId
      pageHops := page.pageHops }
  match cfg.judge s.engine page links link with
  | .raises => s.move i page .through
  | .stop => (s.skip 1).move i page .through
  | .skip => (s.skip 1).move i page (.linking { links with left })
  | .hop =>
      let b := s.childBudget page
      let next : EnqueueArgs :=
        { url := link.absolute, depth := page.depth, domainId := links.domainId
          pageHops := page.pageHops + 1, chainBudget := some b.2 }
      (b.1.put (.pagination page.counter) (b.1.engine.enqueue cfg.toUrlRules next)).move i page
        (.linking { links with left })
  | .chainChild cell =>
      let paid := s.setBudget cell (s.engine.budget cell + 1)
      (paid.put (.link page.counter) (paid.engine.enqueue cfg.toUrlRules down)).move i page
        (.linking { links with left })
  | .child =>
      (s.put (.link page.counter) (s.engine.enqueue cfg.toUrlRules down)).move i page
        (.linking { links with left, linksAdded := links.linksAdded + 1 })

/-- The end of `_process`, and `_enqueue_links` up to its loop. -/
def discover (i : Nat) (page : QueueItem) (rawLinks : List RawLink) (backpressured : Bool) :
    CrawlRun :=
  if cfg.goesDeeper page.depth then
    if backpressured then (s.skip rawLinks.length).move i page .through
    else
      match cfg.electPaginationTarget rawLinks with
      | none => s.move i page .through
      | some target =>
          s.move i page (.linking { domainId := pages.domainId page, target, left := rawLinks })
  else s.move i page .through

def step : WorkerAction → Option CrawlRun
  | .take =>
      match s.engine.queue with
      | [] => none
      | page :: queue =>
          some { s with engine := { s.engine with queue }, busy := s.busy ++ [⟨page, .taken⟩] }
  | .begin i =>
      match s.busy[i]? with
      | some ⟨page, .taken⟩ =>
          some { s.move i page .fetching with
            engine := { s.engine with maxDepthSeen := max s.engine.maxDepthSeen page.depth } }
      | _ => none
  | .fetched i found =>
      match s.busy[i]? with
      | some ⟨page, .fetching⟩ =>
          if found then
            some { s.move i page .working with
              engine := { s.engine with sessionVisitedCount := s.engine.sessionVisitedCount + 1 } }
          else some (s.move i page .through)
      | _ => none
  | .parsed i rawLinks backpressured =>
      match s.busy[i]? with
      | some ⟨page, .working⟩ => some (s.discover cfg pages i page rawLinks backpressured)
      | _ => none
  | .link i =>
      match s.busy[i]? with
      | some ⟨page, .linking links⟩ =>
          match links.left with
          | [] => some (s.move i page .through)
          | link :: left => some (s.follow cfg i page links link left)
      | _ => none
  | .stop i =>
      match s.busy[i]? with
      | some ⟨page, _⟩ => some (s.move i page .through)
      | none => none
  | .finish i =>
      match s.busy[i]? with
      | some ⟨page, .through⟩ =>
          some { s with
            engine := s.engine.drop page.counter
            busy := s.busy.eraseIdx i
            unfinished := s.unfinished - 1 }
      | _ => none

/-- One of the seeds. -/
def putSeed (seed : String × Option Nat) : CrawlRun :=
  s.put .seed (s.engine.enqueue cfg.toUrlRules
    { url := seed.1, depth := 0, domainId := seed.2, isSeed := true })

/-- `run`, up to its workers; `none` where it raises. -/
def start (seeds : List (String × Option Nat)) (visitedBootstrap : List String)
    (frontier : Option Frontier) : Option CrawlRun :=
  let engine := Engine.init cfg.toUrlRules visitedBootstrap frontier
  match frontier with
  | some f => some { engine, nextCell := f.chains.length, unfinished := f.items.length }
  | none =>
      if seeds.any fun seed => (cfg.refuses seed.1).isNone then none
      else some (seeds.foldl (putSeed cfg) { engine })

/-! ### What a step does -/

/-- A page goes on without enqueueing anything. -/
inductive Advances (page : QueueItem) : PageState → PageState → Prop
  | through (state : PageState) : Advances page state .through
  | begin : Advances page .taken .fetching
  | fetched : Advances page .fetching .working
  | discover {rawLinks : List RawLink} {target : Option String}
      (hdeeper : cfg.goesDeeper page.depth = true)
      (helect : cfg.electPaginationTarget rawLinks = some target) :
      Advances page .working
        (.linking { domainId := pages.domainId page, target, left := rawLinks })
  | pass {links : PageLinks} {link : RawLink} {left : List RawLink}
      (hleft : links.left = link :: left) :
      Advances page (.linking links) (.linking { links with left })

/-- A new item is enqueued from page `i`, which has the links `rest` left. -/
def added (i : Nat) (page : QueueItem) (rest : PageLinks) (args : EnqueueArgs) (origin : Origin) :
    CrawlRun where
  engine := s.engine.withItem (s.engine.visited ++ [cfg.urlKey args.url])
    (s.engine.newItem cfg.toUrlRules args)
  nextCell := s.nextCell
  busy := s.busy.set i ⟨page, .linking rest⟩
  unfinished := s.unfinished + 1
  enqueued := ⟨s.engine.newItem cfg.toUrlRules args, origin⟩ :: s.enqueued

/-- Every step is one of these. -/
inductive Works : WorkerAction → CrawlRun → Prop
  | take {page : QueueItem} {queue : List QueueItem} (hqueue : s.engine.queue = page :: queue) :
      Works .take
        { s with engine := { s.engine with queue }, busy := s.busy ++ [⟨page, .taken⟩] }
  | moves {a : WorkerAction} {i : Nat} {page : QueueItem} {state state' : PageState}
      (ha : a ≠ .take) (hget : s.busy[i]? = some ⟨page, state⟩)
      (hadvances : Advances cfg pages page state state') (skipped depth session : Nat) :
      Works a { s.move i page state' with
        engine := { s.engine with
          skipped := skipped, maxDepthSeen := depth, sessionVisitedCount := session } }
  | hop {i : Nat} {page : QueueItem} {links : PageLinks} {link : RawLink} {left : List RawLink}
      (hget : s.busy[i]? = some ⟨page, .linking links⟩) (hfresh : cfg.Fresh s.engine link.absolute)
      (htarget : links.target = some link.absolute)
      (hroom : (page.pageHops : Int) < cfg.maxPaginationPages) :
      Works (.link i) ((s.childBudget page).1.added cfg i page { links with left }
        { url := link.absolute, depth := page.depth, domainId := links.domainId
          pageHops := page.pageHops + 1, chainBudget := some (s.childBudget page).2 }
        (.pagination page.counter))
  | chainChild {i cell : Nat} {page : QueueItem} {links : PageLinks} {link : RawLink}
      {left : List RawLink} (hget : s.busy[i]? = some ⟨page, .linking links⟩)
      (hfresh : cfg.Fresh s.engine link.absolute) (hcell : page.chainBudget = some cell)
      (hroom : (s.engine.budget cell : Int) < cfg.maxChainChildren) :
      Works (.link i) ((s.setBudget cell (s.engine.budget cell + 1)).added cfg i page
        { links with left }
        { url := link.absolute, depth := page.depth + 1, domainId := links.domainId
          pageHops := page.pageHops }
        (.link page.counter))
  | child {i : Nat} {page : QueueItem} {links : PageLinks} {link : RawLink} {left : List RawLink}
      (hget : s.busy[i]? = some ⟨page, .linking links⟩) (hfresh : cfg.Fresh s.engine link.absolute)
      (hcell : page.chainBudget = none)
      (hroom : 0 < cfg.maxLinks page.depth →
        (links.linksAdded : Int) < cfg.maxLinks page.depth) :
      Works (.link i) (s.added cfg i page { links with left, linksAdded := links.linksAdded + 1 }
        { url := link.absolute, depth := page.depth + 1, domainId := links.domainId
          pageHops := page.pageHops }
        (.link page.counter))
  | finish {i : Nat} {page : QueueItem} (hget : s.busy[i]? = some ⟨page, .through⟩) :
      Works (.finish i) { s with
        engine := s.engine.drop page.counter
        busy := s.busy.eraseIdx i
        unfinished := s.unfinished - 1 }

variable {cfg pages s}

/-- A new page goes through `_enqueue`. -/
theorem put_fresh {i : Nat} {page : QueueItem} {rest : PageLinks} {args : EnqueueArgs}
    (h : cfg.Fresh s.engine args.url) (hseed : args.isSeed = false) (origin : Origin) :
    (s.put origin (s.engine.enqueue cfg.toUrlRules args)).move i page (.linking rest) =
      s.added cfg i page rest args origin := by
  rw [Engine.enqueue_fresh h hseed]
  rfl

theorem works_of_follow {i : Nat} {page : QueueItem} {links : PageLinks} {link : RawLink}
    {left : List RawLink} (hget : s.busy[i]? = some ⟨page, .linking links⟩)
    (hleft : links.left = link :: left) :
    Works cfg pages s (.link i) (s.follow cfg i page links link left) := by
  have hjudges := cfg.judges_judge s.engine page links link
  unfold follow
  dsimp only
  cases hv : cfg.judge s.engine page links link with
  | raises => exact .moves (by simp) hget (.through _) _ _ _
  | stop => exact .moves (by simp) hget (.through _) _ _ _
  | skip => exact .moves (by simp) hget (.pass hleft) _ _ _
  | hop =>
      rw [hv] at hjudges
      cases hjudges with
      | hop hfresh htarget hroom =>
          have hcell : cfg.Fresh (s.childBudget page).1.engine link.absolute := by
            unfold childBudget
            split <;> exact ⟨hfresh.accepted, hfresh.new⟩
          dsimp only
          rw [put_fresh hcell rfl]
          exact .hop hget hfresh htarget hroom
      | other hv => simp at hv
  | chainChild cell =>
      rw [hv] at hjudges
      cases hjudges with
      | chainChild hfresh hcell hroom =>
          have hpaid : cfg.Fresh (s.setBudget cell (s.engine.budget cell + 1)).engine
              link.absolute := ⟨hfresh.accepted, hfresh.new⟩
          dsimp only
          rw [put_fresh hpaid rfl]
          exact .chainChild hget hfresh hcell hroom
      | other hv => simp at hv
  | child =>
      rw [hv] at hjudges
      cases hjudges with
      | child hfresh hcell hroom =>
          dsimp only
          rw [put_fresh hfresh rfl]
          exact .child hget hfresh hcell hroom
      | other hv => simp at hv

theorem works_of_discover {i : Nat} {page : QueueItem} {rawLinks : List RawLink}
    {backpressured : Bool} (hget : s.busy[i]? = some ⟨page, .working⟩) :
    Works cfg pages s (.parsed i rawLinks backpressured)
      (s.discover cfg pages i page rawLinks backpressured) := by
  unfold discover
  split
  · rename_i hdeeper
    split
    · exact .moves (by simp) hget (.through _) _ _ _
    · split
      · exact .moves (by simp) hget (.through _) _ _ _
      · rename_i target helect
        exact .moves (by simp) hget (.discover hdeeper helect) _ _ _
  · exact .moves (by simp) hget (.through _) _ _ _

theorem works_of_step {a : WorkerAction} {s' : CrawlRun} (h : s.step cfg pages a = some s') :
    Works cfg pages s a s' := by
  cases a with
  | take =>
      dsimp only [step] at h
      split at h
      · cases h
      · rename_i page queue hqueue
        obtain rfl := Option.some.inj h
        exact .take hqueue
  | begin i =>
      dsimp only [step] at h
      split at h
      · rename_i page hget
        obtain rfl := Option.some.inj h
        exact .moves (by simp) hget .begin _ _ _
      · cases h
  | fetched i found =>
      dsimp only [step] at h
      split at h
      · rename_i page hget
        split at h
        · obtain rfl := Option.some.inj h
          exact .moves (by simp) hget .fetched _ _ _
        · obtain rfl := Option.some.inj h
          exact .moves (by simp) hget (.through _) _ _ _
      · cases h
  | parsed i rawLinks backpressured =>
      dsimp only [step] at h
      split at h
      · rename_i page hget
        obtain rfl := Option.some.inj h
        exact works_of_discover hget
      · cases h
  | link i =>
      dsimp only [step] at h
      split at h
      · rename_i page links hget
        split at h
        · obtain rfl := Option.some.inj h
          exact .moves (by simp) hget (.through _) _ _ _
        · rename_i link left hleft
          obtain rfl := Option.some.inj h
          exact works_of_follow hget hleft
      · cases h
  | stop i =>
      dsimp only [step] at h
      split at h
      · rename_i page state hget
        obtain rfl := Option.some.inj h
        exact .moves (by simp) hget (.through _) _ _ _
      · cases h
  | finish i =>
      dsimp only [step] at h
      split at h
      · rename_i page hget
        obtain rfl := Option.some.inj h
        exact .finish hget
      · cases h

/-- A chain's cell is looked up, or made, and nothing else. -/
theorem childBudget_frame (s : CrawlRun) (page : QueueItem) :
    ∃ budget nextCell, (s.childBudget page).1 =
      { s with engine := { s.engine with budget := budget }, nextCell := nextCell } := by
  unfold childBudget
  split
  · exact ⟨s.engine.budget, s.nextCell, rfl⟩
  · exact ⟨_, s.nextCell + 1, rfl⟩

/-- The items of seeds. -/
structure IsSeedItem (s : CrawlRun) (item : QueueItem) : Prop where
  depth : item.depth = 0
  pageHops : item.pageHops = 0
  chainBudget : item.chainBudget = none
  isSeed : item.isSeed = true
  counter : item.counter = s.engine.counter + 1

/-- A seed is put into the queue, or it is passed over. -/
theorem putSeed_cases (cfg : CrawlerConfig) (s : CrawlRun) (seed : String × Option Nat) :
    (∃ item, s.IsSeedItem item ∧ s.putSeed cfg seed = { s with
      engine := s.engine.withItem s.engine.visited item
      unfinished := s.unfinished + 1
      enqueued := ⟨item, .seed⟩ :: s.enqueued }) ∨
    ∃ skipped, s.putSeed cfg seed = { s with engine := { s.engine with skipped := skipped } } := by
  have hseed : EnqueueArgs.isSeed { url := seed.1, depth := 0, domainId := seed.2, isSeed := true } =
      true := rfl
  unfold putSeed
  rcases Engine.enqueue_seed cfg.toUrlRules s.engine hseed with heq | ⟨skipped, heq⟩
  · rw [heq]
    exact Or.inl ⟨_, ⟨rfl, rfl, rfl, rfl, rfl⟩, rfl⟩
  · rw [heq]
    exact Or.inr ⟨skipped, rfl⟩

end CrawlRun

/-! ### A listing in two pages -/

/-- A town's site, where the link to the next page of a listing says so. -/
def townCrawl : CrawlerConfig where
  urlsplit := fun url => some ⟨"town.gov", url, ""⟩
  lower := id
  parseQs := fun _ => some []
  pagination :=
    { enabled := true, textSignals := .many ["next"], maxPaginationPages := some 2
      maxChainChildren := some 1 }
  maxDepth := 2
  maxLinksPerPage := [("default", 1)]

def townPages : PageRules where
  parse := fun _ _ => .ok []
  netloc := fun _ => "town.gov"
  netlocToDomain := fun _ => none

/-- Page `i` is fetched, and all of its links are looked at. -/
def seesThrough (i : Nat) (rawLinks : List RawLink) : List WorkerAction :=
  [.begin i, .fetched i true, .parsed i rawLinks false] ++
    List.replicate (rawLinks.length + 1) (.link i)

/-- The staff listing has a next page, and a link to a clerk. -/
def staffLinks : List RawLink := [⟨"/staff?page=2", "next", []⟩, ⟨"/clerk", "Clerk", []⟩]

end GovCrawler
