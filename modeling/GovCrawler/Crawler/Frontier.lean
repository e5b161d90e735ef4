/-
The frontier of a crawl, `agent/crawler/engine.py`: the queue, the pending items, the
visited keys, and the snapshot a checkpoint makes of them.

`_enqueue` runs on the event loop, but not in one piece for the checkpoint thread: it
puts the page's key into the visited set, then draws a counter for the item it builds,
and only then puts the item into the pending dictionary.  `enqueueMark`,
`enqueueBuild` and `enqueuePut` are these three parts.

Pages of one pagination chain share a budget cell.  A cell is known by its identity,
and its value is kept apart, so that sharing is visible.
-/
import Mathlib.Data.List.Dedup
import Mathlib.Data.List.Sort
import GovCrawler.Basic
import GovCrawler.Lib.OrderedDict

namespace GovCrawler

open OrderedDict

/-! ### URLs -/

/-- What `urlsplit` finds in a URL. -/
structure SplitUrl where
  netloc : String
  path : String
  query : String
  deriving DecidableEq, Repr

/-- The crawl settings a URL is judged by.  `urlsplit` is the library's, `none` where it
raises, and so is `lower`. -/
structure UrlRules where
  urlsplit : String → Option SplitUrl
  lower : String → String
  skipExtensions : List String := []
  targetSuffixes : List String := []
  priorityKeywords : List String := []

namespace UrlRules

variable (rules : UrlRules)

/-- `_url_key`. -/
def urlKey (url : String) : String :=
  match rules.urlsplit url with
  | none => url
  | some p =>
      let path := rstrip '/' p.path
      removePrefix "www." (rules.lower p.netloc) ++ (if path = "" then "/" else path) ++
        (if p.query = "" then "" else "?" ++ p.query)

/-- `_is_skippable`, `none` where `urlsplit` raises. -/
def isSkippable (url : String) : Option Bool :=
  if rules.skipExtensions.isEmpty then some false
  else (rules.urlsplit url).map fun p =>
    rules.skipExtensions.any fun ext => endsWith ext (rules.lower p.path)

/-- `_is_gov_domain`. -/
def isGovDomain (url : String) : Option Bool :=
  if rules.targetSuffixes.isEmpty then some true
  else (rules.urlsplit url).map fun p =>
    rules.targetSuffixes.any fun s => endsWith s (rules.lower p.netloc)

/-- `_url_priority`. -/
def urlPriority (url : String) : Nat :=
  if rules.priorityKeywords.isEmpty then 0
  else if rules.priorityKeywords.any fun kw => containsSub kw (rules.lower url) then 0
  else 1

/-- The condition at the top of `_enqueue`: the page is not crawled at all. -/
def refuses (url : String) : Option Bool := do
  let skippable ← rules.isSkippable url
  if skippable then some true
  else do
    let gov ← rules.isGovDomain url
    some (!gov)

end UrlRules

/-! ### The engine -/

/-- `_QueueItem`, with the identity of its chain's budget cell. -/
structure QueueItem where
  priority : Nat
  counter : Nat
  url : String
  depth : Nat
  domainId : Option Nat
  isSeed : Bool
  pageHops : Nat
  chainBudget : Option Nat
  deriving DecidableEq, Repr

/-- `_QueueItem.__lt__`. -/
def QueueItem.before (a b : QueueItem) : Bool :=
  a.priority < b.priority || (a.priority == b.priority && a.counter < b.counter)

/-- What the crawl has in memory. -/
structure Engine where
  visited : List String := []
  pending : Dict Nat QueueItem := Dict.empty
  queue : List QueueItem := []
  counter : Nat := 0
  skipped : Nat := 0
  maxDepthSeen : Nat := 0
  sessionVisitedCount : Nat := 0
  /-- The value in each budget cell. -/
  budget : Nat → Nat := fun _ => 0

/-- The arguments of `_enqueue`. -/
structure EnqueueArgs where
  url : String
  depth : Nat
  domainId : Option Nat := none
  isSeed : Bool := false
  pageHops : Nat := 0
  chainBudget : Option Nat := none
  deriving DecidableEq, Repr

namespace Engine

variable (rules : UrlRules) (e : Engine)

/-- The item `_enqueue` builds, with the next counter. -/
def newItem (args : EnqueueArgs) : QueueItem where
  priority := rules.urlPriority args.url
  counter := e.counter + 1
  url := args.url
  depth := args.depth
  domainId := args.domainId
  isSeed := args.isSeed
  pageHops := args.pageHops
  chainBudget := args.chainBudget

/-- `_enqueue`, up to the visited set, and whether it goes on.  It does not for a page
that is refused or visited, nor where `urlsplit` raises. -/
def enqueueMark (args : EnqueueArgs) : Engine × Bool :=
  match rules.refuses args.url with
  | none => (e, false)
  | some true => ({ e with skipped := e.skipped + 1 }, false)
  | some false =>
      let key := rules.urlKey args.url
      if e.visited.contains key then ({ e with skipped := e.skipped + 1 }, false)
      else if args.isSeed then (e, true)
      else ({ e with visited := e.visited ++ [key] }, true)

/-- `_next_counter`, and the item built with it. -/
def enqueueBuild (args : EnqueueArgs) : Engine × QueueItem :=
  ({ e with counter := e.counter + 1 }, newItem rules e args)

/-- The rest of `_enqueue`; `compact` is up to the dictionary. -/
def enqueuePut (item : QueueItem) (compact : Bool) : Engine :=
  { e with
    pending := e.pending.insert item.counter item compact
    queue := e.queue.orderedInsert (fun a b => a.before b = true) item }

/-- `self._pending.pop(item.counter, None)`, when a worker is through with an item. -/
def drop (counter : Nat) : Engine := { e with pending := e.pending.erase counter }

end Engine

/-! ### Snapshots -/

/-- An item as it is saved. -/
structure SavedItem where
  priority : Nat
  counter : Nat
  url : String
  depth : Nat
  domainId : Option Nat
  isSeed : Bool
  pageHops : Nat
  chainKey : Option String
  deriving DecidableEq, Repr

structure Frontier where
  visited : List String := []
  counter : Nat := 0
  skipped : Nat := 0
  maxDepthSeen : Nat := 0
  sessionVisitedCount : Nat := 0
  chains : List (String × Nat) := []
  items : List SavedItem := []
  deriving DecidableEq, Repr

def QueueItem.save (item : QueueItem) (chainKey : Option String) : SavedItem where
  priority := item.priority
  counter := item.counter
  url := item.url
  depth := item.depth
  domainId := item.domainId
  isSeed := item.isSeed
  pageHops := item.pageHops
  chainKey := chainKey

/-- The local variables of `_save_checkpoint`. -/
structure Collected where
  chainKeys : List (Nat × String) := []
  chains : List (String × Nat) := []
  items : List SavedItem := []
  deriving DecidableEq, Repr

/-- The body of the loop of `_save_checkpoint`. -/
def Collected.add (acc : Collected) (budget : Nat → Nat) (item : QueueItem) : Collected :=
  match item.chainBudget with
  | none => { acc with items := acc.items ++ [item.save none] }
  | some cell =>
      match acc.chainKeys.lookup cell with
      | some key => { acc with items := acc.items ++ [item.save (some key)] }
      | none =>
          let key := toString acc.chainKeys.length
          { chainKeys := acc.chainKeys ++ [(cell, key)]
            chains := acc.chains ++ [(key, budget cell)]
            items := acc.items ++ [item.save (some key)] }

/-- What `_save_checkpoint` reads after the loop, in this order. -/
inductive Field
  | visited | counter | skipped | maxDepthSeen | sessionVisitedCount
  deriving DecidableEq, Repr

def Field.all : List Field := [.visited, .counter, .skipped, .maxDepthSeen, .sessionVisitedCount]

/-- Read one field into the snapshot. -/
def Frontier.read (f : Frontier) (e : Engine) : Field → Frontier
  | .visited => { f with visited := e.visited }
  | .counter => { f with counter := e.counter }
  | .skipped => { f with skipped := e.skipped }
  | .maxDepthSeen => { f with maxDepthSeen := e.maxDepthSeen }
  | .sessionVisitedCount => { f with sessionVisitedCount := e.sessionVisitedCount }

theorem Frontier.read_counter (f : Frontier) (e : Engine) {field : Field} (h : field ≠ .counter) :
    (f.read e field).counter = f.counter := by
  cases field with
  | counter => exact absurd rfl h
  | visited | skipped | maxDepthSeen | sessionVisitedCount => rfl

theorem Frontier.read_visited (f : Frontier) (e : Engine) {field : Field} (h : field ≠ .visited) :
    (f.read e field).visited = f.visited := by
  cases field with
  | visited => exact absurd rfl h
  | counter | skipped | maxDepthSeen | sessionVisitedCount => rfl

/-! ### Resuming -/

/-- An item of a snapshot, back in the queue.  Cells are numbered as the chains are. -/
def SavedItem.restore (chains : List (String × Nat)) (it : SavedItem) : QueueItem where
  priority := it.priority
  counter := it.counter
  url := it.url
  depth := it.depth
  domainId := it.domainId
  isSeed := it.isSeed
  pageHops := it.pageHops
  chainBudget := it.chainKey.bind fun key => chains.findIdx? fun c => c.1 == key

/-- `_rehydrate_frontier`. -/
def Engine.rehydrate (e : Engine) (f : Frontier) : Engine :=
  f.items.foldl (fun e it => e.enqueuePut (it.restore f.chains) false)
    { e with
      visited := e.visited ++ f.visited.filter fun key => !e.visited.contains key
      counter := max e.counter f.counter
      skipped := f.skipped
      maxDepthSeen := f.maxDepthSeen
      sessionVisitedCount := f.sessionVisitedCount
      budget := fun cell => ((f.chains[cell]?).map Prod.snd).getD 0 }

/-- The engine when its workers start: what `visited_bootstrap` names is visited, and a
frontier is rehydrated. -/
def Engine.init (rules : UrlRules) (visitedBootstrap : List String) (frontier : Option Frontier) :
    Engine :=
  let e : Engine := { visited := (visitedBootstrap.map rules.urlKey).dedup }
  match frontier with
  | none => e
  | some f => e.rehydrate f

end GovCrawler
