/-
The links of a page: which of them are followed, and on whose account.

`pagination.py` elects at most one link of a page as the next page of a listing.  The loop
of `_enqueue_links` follows that link at the same depth and spends a hop, and the pages of
such a chain share one budget cell.  All other links lead one level down: from a page
outside a chain they are counted against the cap for its depth, from a page of a chain
against the chain's budget.

`judge` is the body of the loop up to the point where it has decided what the link is, and
`Judges` says what is known then.
-/
import GovCrawler.Crawler.Frontier

namespace GovCrawler

/-! ### Configuration -/

/-- A setting that may be one string or several. -/
inductive Signals
  | one (s : String)
  | many (ss : List String)
  deriving DecidableEq, Repr

def Signals.toList : Signals → List String
  | .one s => [s]
  | .many ss => ss

/-- `crawler.pagination`.  A cap is what `int(value)` makes of the setting, `none` where it
raises. -/
structure PaginationConfig where
  enabled : Bool := false
  paramSignals : Signals := .many []
  textSignals : Signals := .many []
  maxPaginationPages : Option Int := some 50
  maxChainChildren : Option Int := some 100
  deriving DecidableEq, Repr

/-- What the loop reads of the crawl settings.  `parseQs` is the library's `parse_qs` of the
query of a URL, with blank values, and `none` where it or `urlparse` raises. -/
structure CrawlerConfig extends UrlRules where
  parseQs : String → Option (List (String × List String))
  pagination : PaginationConfig := {}
  maxDepth : Int := 3
  maxLinksPerPage : List (String × Int) := []

/-- An entry of `raw_links`. -/
structure RawLink where
  absolute : String
  text : String
  rel : List String
  deriving DecidableEq, Repr

/-! ### `pagination.py` -/

/-- `is_plain_int`. -/
def isPlainInt (value : String) : Bool := value ≠ "" && value.toList.all Char.isDigit

/-- `safe_int`, of a value that `int` has been tried on. -/
def safeInt (value : Option Int) (default : Int) : Int := value.getD default

namespace CrawlerConfig

variable (cfg : CrawlerConfig)

/-- The first value of the parameter, in whatever case it is written; of two names that
differ in case only the later one counts. -/
def paramValue (query : List (String × List String)) (param : String) : Option String :=
  (query.reverse.find? fun kv => cfg.lower kv.1 == cfg.lower param).bind fun kv => kv.2.head?

/-- What is left to decide where no configured parameter is present. -/
def looksLikeNext (link : RawLink) : Bool :=
  link.rel.contains "next" ||
    let text := cfg.lower (strip link.text)
    text ≠ "" && (cfg.pagination.textSignals.toList.contains text || isPlainInt text)

/-- `is_pagination_link`. -/
def isPaginationLink (link : RawLink) : Option Bool :=
  let params := cfg.pagination.paramSignals.toList
  if params.isEmpty then some (cfg.looksLikeNext link)
  else (cfg.parseQs link.absolute).map fun query =>
    let matched := params.filterMap (cfg.paramValue query)
    if matched.isEmpty then cfg.looksLikeNext link else matched.all isPlainInt

/-- The loop of `elect_pagination_target`, with its `first_match`. -/
def electFrom (firstMatch : Option String) : List RawLink → Option (Option String)
  | [] => some firstMatch
  | link :: links =>
      match cfg.isPaginationLink link with
      | none => none
      | some false => electFrom firstMatch links
      | some true =>
          if link.rel.contains "next" then some (some link.absolute)
          else electFrom (firstMatch.or (some link.absolute)) links

/-- `elect_pagination_target`, `none` where it raises. -/
def electPaginationTarget (links : List RawLink) : Option (Option String) :=
  if cfg.pagination.enabled then cfg.electFrom none links else some none

/-! ### What `_enqueue_links` reads -/

/-- `_is_priority_url`. -/
def isPriorityUrl (url text : String) : Bool :=
  if cfg.priorityKeywords.isEmpty then true
  else cfg.priorityKeywords.any fun kw => containsSub kw (cfg.lower (url ++ " " ++ text))

/-- `depth_limits.get(str(depth), depth_limits.get("default", 5))`. -/
def maxLinks (depth : Nat) : Int :=
  (cfg.maxLinksPerPage.lookup (toString depth)).getD
    ((cfg.maxLinksPerPage.lookup "default").getD 5)

def maxPaginationPages : Int := safeInt cfg.pagination.maxPaginationPages 50

def maxChainChildren : Int := safeInt cfg.pagination.maxChainChildren 100

/-- Links of a page at this depth are followed at all. -/
def goesDeeper (depth : Nat) : Bool := cfg.maxDepth == 0 || decide ((depth : Int) < cfg.maxDepth)

end CrawlerConfig

/-- The local variables of `_enqueue_links`, and the links that are left. -/
structure PageLinks where
  domainId : Option Nat
  target : Option String
  linksAdded : Nat := 0
  left : List RawLink
  deriving DecidableEq

/-- What the loop does with a link. -/
inductive LinkVerdict
  /-- `urlsplit` raises. -/
  | raises
  /-- The page's cap is reached, and the loop ends. -/
  | stop
  | skip
  /-- It is the next page of the listing. -/
  | hop
  /-- It is paid for from this cell. -/
  | chainChild (cell : Nat)
  | child
  deriving DecidableEq, Repr

namespace CrawlerConfig

variable (cfg : CrawlerConfig) (e : Engine)

/-- What the loop does with a link that may be crawled and is not visited. -/
def judgeNew (page : QueueItem) (links : PageLinks) (link : RawLink) : LinkVerdict :=
  if links.target = some link.absolute then
    if cfg.maxPaginationPages ≤ page.pageHops then .skip else .hop
  else if !(page.isSeed || cfg.isPriorityUrl page.url "") &&
      !cfg.isPriorityUrl link.absolute link.text then .skip
  else
    match page.chainBudget with
    | some cell => if cfg.maxChainChildren ≤ e.budget cell then .skip else .chainChild cell
    | none => .child

/-- The body of the loop of `_enqueue_links`, up to what it does with the link. -/
def judge (page : QueueItem) (links : PageLinks) (link : RawLink) : LinkVerdict :=
  if links.target ≠ some link.absolute ∧ page.chainBudget = none ∧
      0 < cfg.maxLinks page.depth ∧ cfg.maxLinks page.depth ≤ links.linksAdded then
    if links.target.isSome then .skip else .stop
  else
    match cfg.isSkippable link.absolute with
    | none => .raises
    | some true => .skip
    | some false =>
        match cfg.isGovDomain link.absolute with
        | none => .raises
        | some false => .skip
        | some true =>
            if e.visited.contains (cfg.urlKey link.absolute) then .skip
            else cfg.judgeNew e page links link

/-- The link goes into `_enqueue` and comes out as an item. -/
structure Fresh (e : Engine) (url : String) : Prop where
  accepted : cfg.refuses url = some false
  new : cfg.urlKey url ∉ e.visited

/-- What is known of a link that is followed. -/
inductive Judges (page : QueueItem) (links : PageLinks) (link : RawLink) : LinkVerdict → Prop
  | hop (hfresh : cfg.Fresh e link.absolute) (htarget : links.target = some link.absolute)
      (hroom : (page.pageHops : Int) < cfg.maxPaginationPages) : Judges page links link .hop
  | chainChild {cell : Nat} (hfresh : cfg.Fresh e link.absolute)
      (hcell : page.chainBudget = some cell)
      (hroom : (e.budget cell : Int) < cfg.maxChainChildren) :
      Judges page links link (.chainChild cell)
  | child (hfresh : cfg.Fresh e link.absolute) (hcell : page.chainBudget = none)
      (hroom : 0 < cfg.maxLinks page.depth →
        (links.linksAdded : Int) < cfg.maxLinks page.depth) : Judges page links link .child
  | other {v : LinkVerdict} (hv : v = .raises ∨ v = .stop ∨ v = .skip) : Judges page links link v

variable {cfg e}

theorem judges_judgeNew {page : QueueItem} {links : PageLinks} {link : RawLink}
    (hfresh : cfg.Fresh e link.absolute)
    (hcap : ¬(links.target ≠ some link.absolute ∧ page.chainBudget = none ∧
      0 < cfg.maxLinks page.depth ∧ cfg.maxLinks page.depth ≤ links.linksAdded)) :
    cfg.Judges e page links link (cfg.judgeNew e page links link) := by
  unfold judgeNew
  split
  · rename_i htarget
    split
    · exact .other (by simp)
    · rename_i hroom
      exact .hop hfresh htarget (Int.not_le.mp hroom)
  · rename_i htarget
    split
    · exact .other (by simp)
    · split
      · rename_i cell hcell
        split
        · exact .other (by simp)
        · rename_i hroom
          exact .chainChild hfresh hcell (Int.not_le.mp hroom)
      · rename_i hcell
        exact .child hfresh hcell fun hpos =>
          Int.not_le.mp fun hle => hcap ⟨htarget, hcell, hpos, hle⟩

/-- **What the loop has found out** when it does something with a link. -/
theorem judges_judge (cfg : CrawlerConfig) (e : Engine) (page : QueueItem) (links : PageLinks)
    (link : RawLink) :
    cfg.Judges e page links link (cfg.judge e page links link) := by
  unfold judge
  split
  · split
    · exact .other (by simp)
    · exact .other (by simp)
  · rename_i hcap
    split
    · exact .other (by simp)
    · exact .other (by simp)
    · rename_i hskippable
      split
      · exact .other (by simp)
      · exact .other (by simp)
      · rename_i hgov
        split
        · exact .other (by simp)
        · rename_i hvisited
          refine judges_judgeNew ⟨?_, by simpa using hvisited⟩ hcap
          simp [UrlRules.refuses, hskippable, hgov]

end CrawlerConfig

/-! ### `_enqueue`, in one go -/

namespace Engine

/-- `_enqueue`, with the item that it has put into the queue. -/
def enqueue (rules : UrlRules) (e : Engine) (args : EnqueueArgs) : Engine × Option QueueItem :=
  let r := e.enqueueMark rules args
  if r.2 then
    let b := r.1.enqueueBuild rules args
    (b.1.enqueuePut b.2 false, some b.2)
  else (r.1, none)

/-- The engine after an item was enqueued. -/
def withItem (e : Engine) (visited : List String) (item : QueueItem) : Engine :=
  { e with
    visited := visited
    counter := e.counter + 1
    pending := e.pending.insert item.counter item false
    queue := e.queue.orderedInsert (fun a b => a.before b = true) item }

/-- A new page is enqueued, and from then on it is visited. -/
theorem enqueue_fresh {cfg : CrawlerConfig} {e : Engine} {args : EnqueueArgs}
    (h : cfg.Fresh e args.url) (hseed : args.isSeed = false) :
    e.enqueue cfg.toUrlRules args =
      (e.withItem (e.visited ++ [cfg.urlKey args.url]) (e.newItem cfg.toUrlRules args),
        some (e.newItem cfg.toUrlRules args)) := by
  have hmark : e.enqueueMark cfg.toUrlRules args =
      ({ e with visited := e.visited ++ [cfg.urlKey args.url] }, true) := by
    unfold enqueueMark
    rw [h.accepted]
    dsimp only
    rw [if_neg (by simpa using h.new), if_neg (by simp [hseed])]
  unfold enqueue
  rw [hmark]
  rfl

/-- A page is enqueued, unless it is refused or was visited. -/
theorem enqueue_cases (rules : UrlRules) (e : Engine) (args : EnqueueArgs) :
    e.enqueue rules args =
        (e.withItem (if args.isSeed then e.visited else e.visited ++ [rules.urlKey args.url])
          (e.newItem rules args), some (e.newItem rules args)) ∨
      ∃ skipped, e.enqueue rules args = ({ e with skipped := skipped }, none) := by
  unfold enqueue enqueueMark
  cases rules.refuses args.url with
  | none => exact Or.inr ⟨e.skipped, rfl⟩
  | some refused =>
      cases refused with
      | true => exact Or.inr ⟨e.skipped + 1, rfl⟩
      | false =>
          dsimp only
          by_cases hvisited : e.visited.contains (rules.urlKey args.url) = true
          · rw [if_pos hvisited]
            exact Or.inr ⟨e.skipped + 1, rfl⟩
          · rw [if_neg hvisited]
            left
            split <;> rfl

/-- A seed is enqueued without a mark. -/
theorem enqueue_seed (rules : UrlRules) (e : Engine) {args : EnqueueArgs}
    (hseed : args.isSeed = true) :
    e.enqueue rules args = (e.withItem e.visited (e.newItem rules args),
        some (e.newItem rules args)) ∨
      ∃ skipped, e.enqueue rules args = ({ e with skipped := skipped }, none) := by
  have hcases := e.enqueue_cases rules args
  rwa [if_pos hseed] at hcases

end Engine

end GovCrawler
