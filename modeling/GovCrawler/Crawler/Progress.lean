/-
What a crawl reports of its progress, over crashes and resumes.

`_metrics_snapshot` reads five counters that the engine keeps, and `heartbeat` puts what it is
sent on the job's row, whatever stands there.  `_skipped`, `_max_depth_seen` and
`_session_visited_count` are in a checkpoint and come back with it; `_leads_found` and
`_crawled_domains` are not in it, and start from zero with every life.

`taken` is what the engine would have reported when the checkpoint thread began with a
snapshot; nothing in the program reads it.
-/
import GovCrawler.Crawler.Lives
import GovCrawler.Jobs.JobSystem

namespace GovCrawler

open OrderedDict Relational Transition

structure Progress where
  crawl : Crawl := {}
  leadsFound : Nat := 0
  crawledDomains : Nat := 0
  /-- What would have been reported when the present snapshot was begun. -/
  begun : Metrics := {}
  /-- The same for each snapshot that was saved. -/
  taken : List Metrics := []

inductive ProgressAction
  | crawl (a : CrawlAction)
  /-- `_save_leads`, in the database thread; its page may have timed out by then. -/
  | saveLeads (attempted : Nat) (isSeed : Bool)
  /-- Nothing was fetched of a seed. -/
  | seedFails (counter : Nat)
  deriving DecidableEq

namespace Progress

variable (rules : UrlRules) (s : Progress)

/-- `_metrics_snapshot`. -/
def metricsSnapshot (activeWorkers : Nat) : Metrics where
  queuedUrls := s.crawl.engine.queue.length
  visitedUrls := s.crawl.engine.sessionVisitedCount
  skippedUrls := s.crawl.engine.skipped
  leadsFound := s.leadsFound
  crawledDomains := s.crawledDomains
  currentDepth := s.crawl.engine.maxDepthSeen
  activeWorkers := activeWorkers

/-- The crawl has come to `crawl` by the action.  A new process has counted nothing. -/
def goTo (crawl : Crawl) : CrawlAction → Progress
  | .begin => { s with crawl, begun := s.metricsSnapshot 0 }
  | .save => { s with crawl, taken := s.taken ++ [s.begun] }
  | .restart _ _ => { crawl, taken := s.taken }
  | _ => { s with crawl }

def step : ProgressAction → Option Progress
  | .crawl a => (s.crawl.step rules a).map fun crawl => s.goTo crawl a
  | .saveLeads attempted isSeed =>
      some { s with
        leadsFound := s.leadsFound + attempted
        crawledDomains := if isSeed then s.crawledDomains + 1 else s.crawledDomains }
  | .seedFails counter =>
      if s.crawl.inFlight.any fun item => item.counter == counter && item.isSeed then
        some { s with crawledDomains := s.crawledDomains + 1 }
      else none

/-- The life goes on. -/
def GoesOn (_ : Progress) (a : ProgressAction) : Prop :=
  ∀ visitedBootstrap snapshot, a ≠ .crawl (.restart visitedBootstrap snapshot)

end Progress

/-- None of the counters is behind. -/
structure Metrics.NotAhead (m m' : Metrics) : Prop where
  leadsFound : m.leadsFound ≤ m'.leadsFound
  crawledDomains : m.crawledDomains ≤ m'.crawledDomains
  visitedUrls : m.visitedUrls ≤ m'.visitedUrls
  skippedUrls : m.skippedUrls ≤ m'.skippedUrls
  currentDepth : m.currentDepth ≤ m'.currentDepth

/-! ### What a checkpoint keeps -/

/-- The counters that are saved are at least those of `m`. -/
structure Metrics.Within (m : Metrics) (skipped maxDepthSeen sessionVisitedCount : Nat) :
    Prop where
  skipped : m.skippedUrls ≤ skipped
  depth : m.currentDepth ≤ maxDepthSeen
  visited : m.visitedUrls ≤ sessionVisitedCount

def Metrics.WithinEngine (m : Metrics) (e : Engine) : Prop :=
  m.Within e.skipped e.maxDepthSeen e.sessionVisitedCount

def Metrics.WithinFrontier (m : Metrics) (f : Frontier) : Prop :=
  m.Within f.skipped f.maxDepthSeen f.sessionVisitedCount

/-- What has been read of the counters is at least as much as there was. -/
structure Metrics.ReadInto (m : Metrics) (f : Frontier) (left : List Field) : Prop where
  skipped : .skipped ∉ left → m.skippedUrls ≤ f.skipped
  depth : .maxDepthSeen ∉ left → m.currentDepth ≤ f.maxDepthSeen
  visited : .sessionVisitedCount ∉ left → m.visitedUrls ≤ f.sessionVisitedCount

variable {rules : UrlRules} {m : Metrics}

/-- One more counter is read. -/
theorem Metrics.ReadInto.read {f : Frontier} {field : Field} {left : List Field} {e : Engine}
    (h : m.ReadInto f (field :: left)) (hengine : m.WithinEngine e) :
    m.ReadInto (f.read e field) left := by
  have hnot : ∀ {other : Field}, other ∉ left → other ≠ field → other ∉ field :: left := by
    intro other hleft hne hmem
    exact (List.mem_cons.mp hmem).elim hne hleft
  cases field with
  | visited | counter =>
      exact ⟨fun hleft => h.skipped (hnot hleft nofun), fun hleft => h.depth (hnot hleft nofun),
        fun hleft => h.visited (hnot hleft nofun)⟩
  | skipped =>
      exact ⟨fun _ => hengine.skipped, fun hleft => h.depth (hnot hleft nofun),
        fun hleft => h.visited (hnot hleft nofun)⟩
  | maxDepthSeen =>
      exact ⟨fun hleft => h.skipped (hnot hleft nofun), fun _ => hengine.depth,
        fun hleft => h.visited (hnot hleft nofun)⟩
  | sessionVisitedCount =>
      exact ⟨fun hleft => h.skipped (hnot hleft nofun), fun hleft => h.depth (hnot hleft nofun),
        fun _ => hengine.visited⟩

namespace Crawl

variable {s t : Crawl}

/-- The counters of a life only go up. -/
theorem Performs.within {a : CrawlAction} (h : Performs rules s a t)
    (hgoes : ∀ visitedBootstrap snapshot, a ≠ .restart visitedBootstrap snapshot)
    (hm : m.WithinEngine s.engine) : m.WithinEngine t.engine := by
  have hmark : ∀ args, m.WithinEngine (s.engine.enqueueMark rules args).1 := by
    intro args
    unfold Engine.enqueueMark
    cases rules.refuses args.url with
    | none => exact hm
    | some refused =>
        have hskip : m.WithinEngine { s.engine with skipped := s.engine.skipped + 1 } :=
          ⟨Nat.le_succ_of_le hm.skipped, hm.depth, hm.visited⟩
        cases refused with
        | true => exact hskip
        | false =>
            dsimp only
            split
            · exact hskip
            · split
              · exact hm
              · exact ⟨hm.skipped, hm.depth, hm.visited⟩
  cases h with
  | mark | refuse => exact hmark _
  | build | put | take | setBudget | finish | cancel | begin | nextRaises | nextStops | nextYields
  | read | save | saveFails => exact ⟨hm.skipped, hm.depth, hm.visited⟩
  | process => exact ⟨hm.skipped, Nat.le_trans hm.depth (Nat.le_max_left ..), hm.visited⟩
  | fetched => exact ⟨hm.skipped, hm.depth, Nat.le_succ_of_le hm.visited⟩
  | skip links => exact ⟨Nat.le_add_right_of_le hm.skipped, hm.depth, hm.visited⟩
  | restart visitedBootstrap snapshot => exact absurd rfl (hgoes visitedBootstrap snapshot)

end Crawl

/-! ### Runs -/

/-- Putting items back leaves the counters. -/
theorem putAll_counters (chains : List (String × Nat)) (items : List SavedItem) (e : Engine) :
    let r := items.foldl (fun e it => e.enqueuePut (it.restore chains) false) e
    r.skipped = e.skipped ∧ r.maxDepthSeen = e.maxDepthSeen ∧
      r.sessionVisitedCount = e.sessionVisitedCount := by
  induction items generalizing e with
  | nil => exact ⟨rfl, rfl, rfl⟩
  | cons it items ih => exact ih (e.enqueuePut (it.restore chains) false)

/-- A life starts with the counters of its snapshot. -/
theorem Metrics.WithinFrontier.init {f : Frontier} (h : m.WithinFrontier f)
    (visitedBootstrap : List String) :
    m.WithinEngine (Engine.init rules visitedBootstrap (some f)) := by
  obtain ⟨visited, heq, -, -⟩ := init_eq rules visitedBootstrap f
  rw [heq]
  unfold Engine.rehydrate
  obtain ⟨hskipped, hdepth, hvisited⟩ := putAll_counters f.chains f.items
    { visited := [] ++ f.visited.filter fun key => !([] : List String).contains key
      counter := max 0 f.counter
      skipped := f.skipped
      maxDepthSeen := f.maxDepthSeen
      sessionVisitedCount := f.sessionVisitedCount
      budget := fun cell => ((f.chains[cell]?).map Prod.snd).getD 0 }
  exact ⟨hskipped ▸ h.skipped, hdepth ▸ h.depth, hvisited ▸ h.visited⟩

namespace Progress

variable {s s' : Progress}

/-- Every snapshot has the counters there were when it was begun, or higher ones. -/
structure Tracks (s : Progress) : Prop where
  within : s.begun.WithinEngine s.crawl.engine
  reading : ∀ acc f left, s.crawl.thread = .reading acc f left → s.begun.ReadInto f left
  saved : List.Forall₂ (fun m f => m.WithinFrontier f.frontier) s.taken s.crawl.saved

theorem Tracks.empty : Tracks {} :=
  ⟨⟨Nat.zero_le _, Nat.zero_le _, Nat.zero_le _⟩, fun _ _ _ h => (nomatch h), .nil⟩

theorem Tracks.performs {a : CrawlAction} {u : Crawl} (h : s.Tracks)
    (hu : Crawl.Performs rules s.crawl a u) : (s.goTo u a).Tracks := by
  have hwithin := hu.within (m := s.begun)
  have hnone : ∀ {m : Metrics} {thread : Thread}, thread = .idle →
      ∀ acc f left, thread = .reading acc f left → m.ReadInto f left := by
    rintro m thread rfl acc f left hth
    cases hth
  cases hu with
  | mark | refuse | build | put | take | process | fetched | skip | setBudget | finish | cancel =>
      exact ⟨hwithin nofun h.within, h.reading, h.saved⟩
  | begin hth =>
      refine ⟨⟨Nat.le_refl _, Nat.le_refl _, Nat.le_refl _⟩, fun acc f left hth => ?_, h.saved⟩
      cases hth
  | nextRaises | saveFails => exact ⟨hwithin nofun h.within, hnone rfl, h.saved⟩
  | nextYields =>
      refine ⟨hwithin nofun h.within, fun acc f left hth => ?_, h.saved⟩
      cases hth
  | nextStops =>
      refine ⟨hwithin nofun h.within, fun acc f left hth => ?_, h.saved⟩
      obtain ⟨-, -, rfl⟩ := Thread.reading.inj hth
      exact ⟨fun hleft => absurd (by decide) hleft, fun hleft => absurd (by decide) hleft,
        fun hleft => absurd (by decide) hleft⟩
  | @read acc snapshot field left hth =>
      refine ⟨hwithin nofun h.within, fun acc' f' left' hth' => ?_, h.saved⟩
      obtain ⟨-, rfl, rfl⟩ := Thread.reading.inj hth'
      exact (h.reading acc snapshot (field :: left) hth).read h.within
  | @save acc snapshot hth =>
      have hread := h.reading acc snapshot [] hth
      refine ⟨hwithin nofun h.within, hnone rfl, List.rel_append h.saved (.cons ?_ .nil)⟩
      exact ⟨hread.skipped List.not_mem_nil, hread.depth List.not_mem_nil,
        hread.visited List.not_mem_nil⟩
  | restart visitedBootstrap snapshot =>
      exact ⟨⟨Nat.zero_le _, Nat.zero_le _, Nat.zero_le _⟩, hnone rfl, h.saved⟩

theorem tracks_step {a : ProgressAction} (h : s.Tracks) (hs : s.step rules a = some s') :
    s'.Tracks := by
  cases a with
  | crawl a =>
      obtain ⟨crawl, hcrawl, rfl⟩ := Option.map_eq_some_iff.mp hs
      obtain ⟨u, hu, rfl⟩ := Crawl.step_eq_some hcrawl
      have hperformed := h.performs (Crawl.performs_of_perform hu)
      cases a <;> exact ⟨hperformed.within, hperformed.reading, hperformed.saved⟩
  | saveLeads attempted isSeed =>
      obtain rfl := Option.some.inj hs
      exact ⟨h.within, h.reading, h.saved⟩
  | seedFails counter =>
      dsimp only [step] at hs
      split at hs
      · obtain rfl := Option.some.inj hs
        exact ⟨h.within, h.reading, h.saved⟩
      · cases hs

/-- A life that goes on does not fall behind. -/
theorem within_step {a : ProgressAction} (hm : m.WithinEngine s.crawl.engine) (ha : s.GoesOn a)
    (hs : s.step rules a = some s') : m.WithinEngine s'.crawl.engine := by
  cases a with
  | crawl a =>
      obtain ⟨crawl, hcrawl, rfl⟩ := Option.map_eq_some_iff.mp hs
      obtain ⟨u, hu, rfl⟩ := Crawl.step_eq_some hcrawl
      have hgoes : ∀ visitedBootstrap snapshot, a ≠ .restart visitedBootstrap snapshot :=
        fun visitedBootstrap snapshot heq => ha visitedBootstrap snapshot (heq ▸ rfl)
      have hperformed := (Crawl.performs_of_perform hu).within hgoes hm
      cases a <;> exact hperformed
  | saveLeads attempted isSeed =>
      obtain rfl := Option.some.inj hs
      exact hm
  | seedFails counter =>
      dsimp only [step] at hs
      split at hs
      · obtain rfl := Option.some.inj hs
        exact hm
      · cases hs

/-- A resumed life has the counters of its snapshot. -/
theorem Tracks.resume (h : s.Tracks) {i : Nat} (hm : s.taken[i]? = some m)
    {visitedBootstrap : List String}
    (hs : s.step rules (.crawl (.restart visitedBootstrap (some i))) = some s') :
    m.WithinEngine s'.crawl.engine := by
  obtain ⟨f, hf, hwithin⟩ : ∃ f, s.crawl.saved[i]? = some f ∧ m.WithinFrontier f.frontier := by
    have hlength := h.saved.length_eq
    obtain ⟨hi, heq⟩ := List.getElem?_eq_some_iff.mp hm
    have hi' : i < s.crawl.saved.length := hlength ▸ hi
    refine ⟨_, List.getElem?_eq_getElem hi', ?_⟩
    have hpair := List.forall₂_iff_get.mp h.saved
    exact heq ▸ hpair.2 i hi hi'
  have hinit : m.WithinEngine (Engine.init rules visitedBootstrap (some f.frontier)) :=
    hwithin.init visitedBootstrap
  obtain rfl := Option.some.inj hs
  show m.WithinEngine (Engine.init rules visitedBootstrap
    ((some i).bind fun i => (s.crawl.saved[i]?).map Saved.frontier))
  rw [Option.bind_some, hf]
  exact hinit

end Progress

/--
**What progress comes back.**  In every run with any number of crashes and resumes, and for
each checkpoint in it: every heartbeat of every life that resumes from it reports, and puts
on the job's row, at least what there was when it was begun, if and only if no lead had been
found by then and no seed was done.
-/
theorem progress_kept_iff (rules : UrlRules) (as : List ProgressAction) (s : Progress)
    (hrun : run (Progress.step rules) {} as = some s) (i : Nat) (m : Metrics)
    (hm : s.taken[i]? = some m) :
    (∀ visitedBootstrap r bs t,
        s.step rules (.crawl (.restart visitedBootstrap (some i))) = some r →
        Meets (Progress.step rules) Progress.GoesOn r bs → run (Progress.step rules) r bs = some t →
        ∀ activeWorkers, m.NotAhead (t.metricsSnapshot activeWorkers) ∧
          ∀ (db : CoordDb) (jobId : Nat) (now : Time) (j : JobRow), db.jobs.get? jobId = some j →
            ∃ j', (db.heartbeat jobId (t.metricsSnapshot activeWorkers) now).2.jobs.get? jobId =
              some j' ∧ m.NotAhead j'.metrics) ↔
      m.leadsFound = 0 ∧ m.crawledDomains = 0 := by
  have htracks : s.Tracks :=
    run_invariant' (fun _ _ _ h hs => Progress.tracks_step h hs) Progress.Tracks.empty hrun
  constructor
  · intro hkept
    -- a new process has counted neither
    obtain ⟨hahead, -⟩ := hkept [] _ [] _ rfl trivial rfl 0
    exact ⟨Nat.le_zero.mp hahead.leadsFound, Nat.le_zero.mp hahead.crawledDomains⟩
  · rintro ⟨hleads, hdomains⟩ visitedBootstrap r bs t hr hgoes hbs activeWorkers
    have hwithin : m.WithinEngine t.crawl.engine :=
      run_invariant (fun _ _ _ h ha hs => Progress.within_step h ha hs)
        (htracks.resume hm hr) hgoes hbs
    have hahead : m.NotAhead (t.metricsSnapshot activeWorkers) :=
      ⟨hleads ▸ Nat.zero_le _, hdomains ▸ Nat.zero_le _, hwithin.visited, hwithin.skipped,
        hwithin.depth⟩
    refine ⟨hahead, fun db jobId now j hj => ?_⟩
    have hid : j.id = jobId := Table.get?_key hj
    refine ⟨_, get?_heartbeat jobId _ hj, ?_⟩
    rw [if_pos hid]
    exact hahead

/-- A checkpoint with the home page in it. -/
def homePageSaved : List CrawlAction := [.begin, .next, .next] ++ readAndSave

/-- The checkpoint is taken before the leads of the page are saved. -/
def savedEarly : List ProgressAction := (homePage ++ homePageSaved).map .crawl

theorem early_checkpoint_kept :
    ∃ s r, run (Progress.step cityRules) {} savedEarly = some s ∧
      s.step cityRules (.crawl (.restart [] (some 0))) = some r ∧
      (r.metricsSnapshot 0).visitedUrls = 1 ∧
      ∃ m, s.taken[0]? = some m ∧ m.NotAhead (r.metricsSnapshot 0) := by
  refine ⟨_, _, rfl, rfl, by decide +kernel, _, rfl, ?_⟩
  exact (((progress_kept_iff cityRules savedEarly _ rfl 0 _ rfl).mpr ⟨rfl, rfl⟩) [] _ [] _ rfl
    trivial rfl 0).1

/-- It is taken when the page has yielded a lead. -/
def savedLate : List ProgressAction :=
  homePage.map .crawl ++ [.saveLeads 1 true] ++ homePageSaved.map .crawl

/-- The lead is lost from the count, and the job's row says none. -/
theorem lead_count_lost :
    ∃ s r m, run (Progress.step cityRules) {} savedLate = some s ∧ s.taken[0]? = some m ∧
      s.step cityRules (.crawl (.restart [] (some 0))) = some r ∧
      m.leadsFound = 1 ∧ (r.metricsSnapshot 0).leadsFound = 0 ∧
      ¬ m.NotAhead (r.metricsSnapshot 0) := by
  refine ⟨_, _, _, rfl, rfl, rfl, rfl, rfl, fun hahead => ?_⟩
  exact absurd hahead.leadsFound (by decide)

end GovCrawler
