/-
A crawl over crashes and resumes, and that it enqueues no page twice.

One life of the crawl is a run of the engine.  A checkpoint is taken in one go, at any moment
of it; a crash ends it at any moment, and the next life starts from a snapshot, or from the
seeds.  What survives of the history of `_enqueue` is what had happened when the snapshot was
taken.

The visited set is what carries it across: a page is put into it with its item, a snapshot
has it whole, and the next life starts with all of it and with the crawl history that it is
given.
-/
import GovCrawler.Crawler.RoundTrip
import GovCrawler.Crawler.Workers

namespace GovCrawler

open OrderedDict Transition

/-- A snapshot, and what `_enqueue` had done by then. -/
structure Taken where
  frontier : Frontier
  history : List Enqueued

structure Lives where
  now : CrawlRun := {}
  /-- The crawl history that this life was given. -/
  bootstrap : List String := []
  /-- What survives of earlier lives, newest first. -/
  before : List Enqueued := []
  saved : List Taken := []

inductive LifeAction
  | work (a : WorkerAction)
  | checkpoint
  /-- The process dies, and `run` starts again. -/
  | restart (seeds : List (String × Option Nat)) (visitedBootstrap : List String)
      (snapshot : Option Nat)
  deriving DecidableEq, Repr

namespace Lives

variable (cfg : CrawlerConfig) (pages : PageRules) (s : Lives)

/-- The history that survives, newest first. -/
def history : List Enqueued := s.now.enqueued ++ s.before

/-- The next life, from a snapshot or from the seeds. -/
def restart (seeds : List (String × Option Nat)) (visitedBootstrap : List String)
    (taken : Option Taken) : Option Lives :=
  (CrawlRun.start cfg seeds visitedBootstrap (taken.map Taken.frontier)).map fun now =>
    { now
      bootstrap := visitedBootstrap
      before := (taken.map Taken.history).getD []
      saved := s.saved }

def step : LifeAction → Option Lives
  | .work a => (s.now.step cfg pages a).map fun now => { s with now }
  | .checkpoint => some { s with saved := s.saved ++ [⟨s.now.engine.checkpoint, s.history⟩] }
  | .restart seeds visitedBootstrap none => s.restart cfg seeds visitedBootstrap none
  | .restart seeds visitedBootstrap (some i) =>
      match s.saved[i]? with
      | none => none
      | some taken => s.restart cfg seeds visitedBootstrap (some taken)

end Lives

/-! ### The start of a life -/

/-- Putting items back does not look at what is visited. -/
theorem putAll_visited (visited : List String) (chains : List (String × Nat))
    (items : List SavedItem) (e : Engine) :
    items.foldl (fun e it => e.enqueuePut (it.restore chains) false)
        { e with visited := visited } =
      { items.foldl (fun e it => e.enqueuePut (it.restore chains) false) e with
        visited := visited } := by
  induction items generalizing e with
  | nil => rfl
  | cons it items ih => exact ih (e.enqueuePut (it.restore chains) false)

/-- A life starts with what a fresh engine has from the snapshot, and with its own crawl
history as well. -/
theorem init_eq (rules : UrlRules) (visitedBootstrap : List String) (f : Frontier) :
    ∃ visited, Engine.init rules visitedBootstrap (some f) =
        { Engine.rehydrate {} f with visited := visited } ∧
      (∀ url ∈ visitedBootstrap, rules.urlKey url ∈ visited) ∧
      ∀ key ∈ f.visited, key ∈ visited := by
  have hinit : Engine.init rules visitedBootstrap (some f) =
      { Engine.rehydrate {} f with
        visited := (visitedBootstrap.map rules.urlKey).dedup ++
          f.visited.filter fun key => !(visitedBootstrap.map rules.urlKey).dedup.contains key } := by
    unfold Engine.init Engine.rehydrate
    rw [← putAll_visited]
  refine ⟨_, hinit, fun url hurl => ?_, fun key hkey => ?_⟩
  · exact List.mem_append_left _ (List.mem_dedup.mpr (List.mem_map_of_mem hurl))
  · by_cases hboot : key ∈ (visitedBootstrap.map rules.urlKey).dedup
    · exact List.mem_append_left _ hboot
    · exact List.mem_append_right _ (List.mem_filter.mpr ⟨hkey, by simpa using hboot⟩)

theorem bootstrap_visited (rules : UrlRules) {visitedBootstrap : List String} {url : String}
    (h : url ∈ visitedBootstrap) (frontier : Option Frontier) :
    rules.urlKey url ∈ (Engine.init rules visitedBootstrap frontier).visited := by
  cases frontier with
  | none => exact List.mem_dedup.mpr (List.mem_map_of_mem h)
  | some f =>
      obtain ⟨visited, heq, hboot, -⟩ := init_eq rules visitedBootstrap f
      rw [heq]
      exact hboot url h

theorem frontier_visited (rules : UrlRules) (visitedBootstrap : List String) {f : Frontier}
    {key : String} (h : key ∈ f.visited) :
    key ∈ (Engine.init rules visitedBootstrap (some f)).visited := by
  obtain ⟨visited, heq, -, hsub⟩ := init_eq rules visitedBootstrap f
  rw [heq]
  exact hsub key h

namespace CrawlRun

variable {cfg : CrawlerConfig} {s : CrawlRun}

/-- Only seeds were enqueued, and they are not marked as visited. -/
structure SeedsOnly (visited : List String) (s : CrawlRun) : Prop where
  visited : s.engine.visited = visited
  enqueued : ∀ x ∈ s.enqueued, x.item.isSeed = true

theorem SeedsOnly.putSeeds {visited : List String} (h : s.SeedsOnly visited)
    (seeds : List (String × Option Nat)) : (seeds.foldl (putSeed cfg) s).SeedsOnly visited := by
  induction seeds generalizing s with
  | nil => exact h
  | cons seed seeds ih =>
      refine ih ?_
      rcases putSeed_cases cfg s seed with ⟨item, hitem, heq⟩ | ⟨skipped, heq⟩
      · rw [heq]
        exact ⟨h.visited, List.forall_mem_cons.mpr ⟨hitem.isSeed, h.enqueued⟩⟩
      · rw [heq]
        exact ⟨h.visited, h.enqueued⟩

theorem start_seedsOnly {seeds : List (String × Option Nat)} {visitedBootstrap : List String}
    {frontier : Option Frontier} (h : start cfg seeds visitedBootstrap frontier = some s) :
    s.SeedsOnly (Engine.init cfg.toUrlRules visitedBootstrap frontier).visited := by
  have hnone : ∀ x ∈ ([] : List Enqueued), x.item.isSeed = true := fun _ hx => nomatch hx
  unfold start at h
  dsimp only at h
  split at h
  · obtain rfl := Option.some.inj h
    exact ⟨rfl, hnone⟩
  · split at h
    · cases h
    · obtain rfl := Option.some.inj h
      have hstart : SeedsOnly (Engine.init cfg.toUrlRules visitedBootstrap none).visited
          { engine := Engine.init cfg.toUrlRules visitedBootstrap none } := ⟨rfl, hnone⟩
      exact hstart.putSeeds seeds

end CrawlRun

/-! ### Each page once -/

/-- The item is of a page with the key, and no seed. -/
def Enqueued.isOf (cfg : CrawlerConfig) (key : String) (x : Enqueued) : Bool :=
  !x.item.isSeed && cfg.urlKey x.item.url == key

/-- Each page was enqueued at most once, and is visited. -/
structure EnqueuedOnce (cfg : CrawlerConfig) (history : List Enqueued) (visited : List String) :
    Prop where
  once : ∀ key, history.countP (Enqueued.isOf cfg key) ≤ 1
  visited : ∀ x ∈ history, x.item.isSeed = false → cfg.urlKey x.item.url ∈ visited

namespace EnqueuedOnce

variable {cfg : CrawlerConfig} {history : List Enqueued} {visited : List String}

theorem nil (cfg : CrawlerConfig) (visited : List String) : EnqueuedOnce cfg [] visited :=
  ⟨fun _ => Nat.zero_le _, fun _ hx => nomatch hx⟩

theorem mono {visited' : List String} (h : EnqueuedOnce cfg history visited)
    (hsub : ∀ key ∈ visited, key ∈ visited') : EnqueuedOnce cfg history visited' :=
  ⟨h.once, fun x hx hseed => hsub _ (h.visited x hx hseed)⟩

/-- A page that was not visited was not enqueued. -/
theorem countP_eq_zero (h : EnqueuedOnce cfg history visited) {key : String}
    (hnew : key ∉ visited) : history.countP (Enqueued.isOf cfg key) = 0 := by
  rw [List.countP_eq_zero]
  intro x hx hof
  simp only [Enqueued.isOf, Bool.and_eq_true, Bool.not_eq_true', beq_iff_eq] at hof
  obtain ⟨hseed, rfl⟩ := hof
  exact hnew (h.visited x hx hseed)

/-- A new page is enqueued. -/
theorem cons (h : EnqueuedOnce cfg history visited) (x : Enqueued)
    (hnew : cfg.urlKey x.item.url ∉ visited) :
    EnqueuedOnce cfg (x :: history) (visited ++ [cfg.urlKey x.item.url]) := by
  refine ⟨fun key => ?_, fun y hy hseed => ?_⟩
  · rw [List.countP_cons]
    split
    · rename_i hof
      simp only [Enqueued.isOf, Bool.and_eq_true, beq_iff_eq] at hof
      obtain ⟨-, rfl⟩ := hof
      rw [h.countP_eq_zero hnew]
    · exact h.once key
  · rcases List.mem_cons.mp hy with rfl | hold
    · exact List.mem_append_right _ (List.mem_singleton.mpr rfl)
    · exact List.mem_append_left _ (h.visited y hold hseed)

/-- Seeds do not count. -/
theorem append_seeds (h : EnqueuedOnce cfg history visited) {seeds : List Enqueued}
    (hseeds : ∀ x ∈ seeds, x.item.isSeed = true) :
    EnqueuedOnce cfg (seeds ++ history) visited := by
  refine ⟨fun key => ?_, fun x hx hseed => ?_⟩
  · have hzero : seeds.countP (Enqueued.isOf cfg key) = 0 := by
      rw [List.countP_eq_zero]
      intro x hx
      simp [Enqueued.isOf, hseeds x hx]
    rw [List.countP_append, hzero, Nat.zero_add]
    exact h.once key
  · rcases List.mem_append.mp hx with hx | hx
    · rw [hseeds x hx] at hseed
      cases hseed
    · exact h.visited x hx hseed

end EnqueuedOnce

namespace Lives

variable {cfg : CrawlerConfig} {pages : PageRules} {s s' : Lives}

/-- What carries the claim over a crash. -/
structure OnceInv (cfg : CrawlerConfig) (s : Lives) : Prop where
  once : EnqueuedOnce cfg s.history s.now.engine.visited
  bootstrap : ∀ url ∈ s.bootstrap, cfg.urlKey url ∈ s.now.engine.visited
  new : ∀ x ∈ s.now.enqueued, x.item.isSeed = false →
    cfg.urlKey x.item.url ∉ s.bootstrap.map cfg.urlKey
  saved : ∀ taken ∈ s.saved, EnqueuedOnce cfg taken.history taken.frontier.visited

/-- A new page is enqueued in this life. -/
theorem OnceInv.added (h : s.OnceInv cfg) {now : CrawlRun}
    (hvisited : now.engine.visited = s.now.engine.visited)
    (henqueued : now.enqueued = s.now.enqueued) (i : Nat) (page : QueueItem) (rest : PageLinks)
    {args : EnqueueArgs} (hfresh : cfg.Fresh s.now.engine args.url) (origin : Origin) :
    OnceInv cfg { s with now := now.added cfg i page rest args origin } := by
  refine ⟨?_, fun url hurl => ?_, fun x hx hseed hboot => ?_, h.saved⟩
  · have hcons := h.once.cons ⟨now.engine.newItem cfg.toUrlRules args, origin⟩ hfresh.new
    unfold history CrawlRun.added Engine.withItem
    dsimp only
    rw [hvisited, henqueued]
    exact hcons
  · unfold CrawlRun.added Engine.withItem
    dsimp only
    rw [hvisited]
    exact List.mem_append_left _ (h.bootstrap url hurl)
  · unfold CrawlRun.added at hx
    dsimp only at hx
    rw [henqueued] at hx
    rcases List.mem_cons.mp hx with rfl | hold
    · obtain ⟨url, hurl, heq⟩ := List.mem_map.mp hboot
      refine hfresh.new ?_
      have hkey : cfg.urlKey url = cfg.urlKey args.url := heq
      rw [← hkey]
      exact h.bootstrap url hurl
    · exact h.new x hold hseed hboot

theorem OnceInv.work {a : WorkerAction} {now : CrawlRun} (h : s.OnceInv cfg)
    (hworks : CrawlRun.Works cfg pages s.now a now) : OnceInv cfg { s with now } := by
  cases hworks with
  | take | moves | finish => exact ⟨h.once, h.bootstrap, h.new, h.saved⟩
  | @hop i page links _ _ _ hfresh =>
      obtain ⟨budget, nextCell, heq⟩ := s.now.childBudget_frame page
      rw [heq]
      exact h.added (by rfl) (by rfl) i page _ hfresh _
  | @chainChild i _ page _ _ _ _ hfresh => exact h.added (by rfl) (by rfl) i page _ hfresh _
  | @child i page _ _ _ _ hfresh => exact h.added (by rfl) (by rfl) i page _ hfresh _

/-- A new life has the history of the snapshot, and seeds. -/
theorem OnceInv.restart (h : s.OnceInv cfg) {seeds : List (String × Option Nat)}
    {visitedBootstrap : List String} {taken : Option Taken}
    (htaken : ∀ t ∈ taken, EnqueuedOnce cfg t.history t.frontier.visited)
    (hs : s.restart cfg seeds visitedBootstrap taken = some s') : s'.OnceInv cfg := by
  obtain ⟨now, hstart, rfl⟩ := Option.map_eq_some_iff.mp hs
  obtain ⟨hvisited, hseeds⟩ := CrawlRun.start_seedsOnly hstart
  refine ⟨?_, fun url hurl => ?_, fun x hx hseed => ?_, h.saved⟩
  · refine EnqueuedOnce.append_seeds ?_ hseeds
    dsimp only
    rw [hvisited]
    cases taken with
    | none => exact .nil cfg _
    | some t => exact (htaken t rfl).mono fun _ => frontier_visited _ visitedBootstrap
  · dsimp only
    rw [hvisited]
    exact bootstrap_visited _ hurl _
  · rw [hseeds x hx] at hseed
    cases hseed

theorem onceInv_step {a : LifeAction} (h : s.OnceInv cfg)
    (hs : s.step cfg pages a = some s') : s'.OnceInv cfg := by
  cases a with
  | work a =>
      obtain ⟨now, hnow, rfl⟩ := Option.map_eq_some_iff.mp hs
      exact h.work (CrawlRun.works_of_step hnow)
  | checkpoint =>
      obtain rfl := Option.some.inj hs
      refine ⟨h.once, h.bootstrap, h.new, fun taken htaken => ?_⟩
      rcases List.mem_append.mp htaken with hold | hnew
      · exact h.saved taken hold
      · obtain rfl := List.mem_singleton.mp hnew
        exact h.once
  | restart seeds visitedBootstrap snapshot =>
      cases snapshot with
      | none =>
          refine h.restart (fun t ht => ?_) hs
          cases ht
      | some i =>
          dsimp only [step] at hs
          split at hs
          · cases hs
          · rename_i taken hget
            refine h.restart (fun t ht => ?_) hs
            obtain rfl : taken = t := Option.some.inj ht
            exact h.saved taken (List.mem_of_getElem? hget)

end Lives

/--
**Each page is enqueued at most once.**  However often the crawl dies and resumes, at most
one item that is no seed was put into the queue for a page in the history that survives, and
none in this life for a page of the crawl history that it was given.
-/
theorem enqueued_once (cfg : CrawlerConfig) (pages : PageRules) (as : List LifeAction) (s : Lives)
    (hrun : run (Lives.step cfg pages) {} as = some s) :
    (∀ key, s.history.countP (Enqueued.isOf cfg key) ≤ 1) ∧
      ∀ x ∈ s.now.enqueued, x.item.isSeed = false →
        cfg.urlKey x.item.url ∉ s.bootstrap.map cfg.urlKey := by
  have h0 : Lives.OnceInv cfg {} :=
    ⟨.nil cfg _, fun _ hu => (nomatch hu), fun _ hx => (nomatch hx), fun _ ht => (nomatch ht)⟩
  have h : s.OnceInv cfg := run_invariant' (fun _ _ _ h hs => Lives.onceInv_step h hs) h0 hrun
  exact ⟨h.once.once, h.new⟩

/-- The listing of `staffLinks` is read, the crawl dies and is resumed, and the listing is
read again. -/
def resumedListing : List LifeAction :=
  [.restart [("/staff", none)] [] none, .work .take] ++
    (seesThrough 0 staffLinks).map .work ++
    [.checkpoint, .restart [] ["/mayor"] (some 0), .work .take] ++
    (seesThrough 0 staffLinks).map .work

theorem clerk_enqueued_once :
    ∃ s, run (Lives.step townCrawl townPages) {} resumedListing = some s ∧
      s.history.length = 3 ∧
      s.history.countP (Enqueued.isOf townCrawl "town.gov/clerk") ≤ 1 := by
  refine ⟨_, rfl, by decide +kernel, ?_⟩
  exact (enqueued_once townCrawl townPages resumedListing _ rfl).1 _

end GovCrawler
