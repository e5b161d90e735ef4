/-
A crawl is bounded, whatever the pages say.

Depth grows along links and hops along pagination links, and neither shrinks.  How many
items there are is a matter of accounts.  A page outside a chain owes its links, up to the
cap, and the chain that it may start: its pages, one for each hop, and the children that the
chain's cell has room for, each with all that it leads to in turn.  `leadsTo` is this debt, a
recursion on the levels below the page.  A page of a chain owes the rest of the chain only,
since its children are paid for from the cell.  Every item that is enqueued is paid for by
the page that it was found on or by a cell, so what was enqueued and what is owed never
exceed what the seeds owed at the start.
-/
import Mathlib.Algebra.BigOperators.Intervals
import Mathlib.Order.WellFounded
import GovCrawler.Lib.Accounting
import GovCrawler.Lib.ThreadPool
import GovCrawler.Crawler.Workers

namespace GovCrawler

open OrderedDict Transition Accounting

/-! ### What a page leads to -/

namespace CrawlerConfig

variable (cfg : CrawlerConfig)

/-- The links that a page may follow, as a number. -/
def cap (depth : Nat) : Nat := (cfg.maxLinks depth).toNat

/-- The children that a cell has room for. -/
def chainCap : Nat := cfg.maxChainChildren.toNat

/-- The hops of a chain. -/
def hopCap : Nat := cfg.maxPaginationPages.toNat

/-- How many items a page with `n` levels below it leads to. -/
def below : Nat → Nat
  | 0 => 0
  | n + 1 =>
      (cfg.cap (cfg.maxDepth.toNat - (n + 1)) + cfg.chainCap) * (1 + below n) + cfg.hopCap

/-- How many items a page at this depth leads to, outside a chain. -/
def leadsTo (depth : Nat) : Nat := cfg.below (cfg.maxDepth.toNat - depth)

/-- A child, with all that it leads to. -/
def childOf (depth : Nat) : Nat := 1 + cfg.leadsTo (depth + 1)

/-- How many items a crawl of `n` seeds enqueues at most. -/
def bound (seeds : Nat) : Nat := seeds * (1 + cfg.leadsTo 0)

/-- The settings under which a crawl is bounded. -/
structure Capped : Prop where
  depth : 1 ≤ cfg.maxDepth
  links : ∀ entry ∈ cfg.maxLinksPerPage, 0 < entry.2
  hops : 0 ≤ cfg.maxPaginationPages

variable {cfg}

theorem maxLinks_pos (h : cfg.Capped) (depth : Nat) : 0 < cfg.maxLinks depth := by
  have hlookup : ∀ key value, cfg.maxLinksPerPage.lookup key = some value → 0 < value := by
    intro key value hvalue
    obtain ⟨l₁, l₂, heq, -⟩ := List.lookup_eq_some_iff.mp hvalue
    exact h.links (key, value) (by simp [heq])
  unfold maxLinks
  cases hdepth : cfg.maxLinksPerPage.lookup (toString depth) with
  | some value => exact hlookup _ value hdepth
  | none =>
      cases hdefault : cfg.maxLinksPerPage.lookup "default" with
      | some value => exact hlookup _ value hdefault
      | none => decide

theorem lt_maxDepth (h : cfg.Capped) {depth : Nat} (hdeeper : cfg.goesDeeper depth = true) :
    (depth : Int) < cfg.maxDepth := by
  have hdepth := h.depth
  unfold goesDeeper at hdeeper
  rcases Bool.or_eq_true_iff.mp hdeeper with hzero | hlt
  · have := beq_iff_eq.mp hzero
    omega
  · exact of_decide_eq_true hlt

/-- A page above the last level owes its links and a chain. -/
theorem leadsTo_eq (h : cfg.Capped) {depth : Nat} (hdeeper : cfg.goesDeeper depth = true) :
    cfg.leadsTo depth =
      cfg.cap depth * cfg.childOf depth + (cfg.hopCap + cfg.chainCap * cfg.childOf depth) := by
  have hlt := lt_maxDepth h hdeeper
  obtain ⟨n, hn⟩ : ∃ n, cfg.maxDepth.toNat - depth = n + 1 :=
    ⟨cfg.maxDepth.toNat - depth - 1, by omega⟩
  have hlevel : cfg.maxDepth.toNat - (n + 1) = depth := by omega
  have hbelow : cfg.maxDepth.toNat - (depth + 1) = n := by omega
  unfold childOf leadsTo
  rw [hn, hbelow, below, hlevel, Nat.add_mul]
  omega

end CrawlerConfig

/-! ### Depth and hops -/

/-- The item is within the limits. -/
structure CrawlerConfig.Allows (cfg : CrawlerConfig) (item : QueueItem) : Prop where
  depth : (item.depth : Int) ≤ cfg.maxDepth
  hops : (item.pageHops : Int) ≤ if cfg.pagination.enabled then cfg.maxPaginationPages else 0

/-- A page whose links are followed is above the last level, and has a pagination link only
if pagination is on. -/
structure BusyPage.Placed (cfg : CrawlerConfig) (b : BusyPage) : Prop where
  allowed : cfg.Allows b.page
  linking : ∀ links, b.state = .linking links →
    cfg.goesDeeper b.page.depth = true ∧
      (links.target ≠ none → cfg.pagination.enabled = true)

structure CrawlRun.Placed (cfg : CrawlerConfig) (s : CrawlRun) : Prop where
  queue : ∀ item ∈ s.engine.queue, cfg.Allows item
  busy : ∀ b ∈ s.busy, b.Placed cfg
  enqueued : ∀ x ∈ s.enqueued, cfg.Allows x.item

namespace CrawlRun

variable {cfg : CrawlerConfig} {pages : PageRules} {s s' : CrawlRun}

theorem enabled_of_elect {links : List RawLink} {target : Option String}
    (h : cfg.electPaginationTarget links = some target) (htarget : target ≠ none) :
    cfg.pagination.enabled = true := by
  unfold CrawlerConfig.electPaginationTarget at h
  split at h
  · assumption
  · exact absurd (Option.some.inj h).symm htarget

/-- A page that goes on keeps its place. -/
theorem Advances.placed {page : QueueItem} {state state' : PageState}
    (h : Advances cfg pages page state state') (hplaced : BusyPage.Placed cfg ⟨page, state⟩) :
    BusyPage.Placed cfg ⟨page, state'⟩ := by
  refine ⟨hplaced.allowed, fun links hlinks => ?_⟩
  cases h with
  | discover hdeeper helect =>
      obtain rfl := PageState.linking.inj hlinks
      exact ⟨hdeeper, fun htarget => enabled_of_elect helect htarget⟩
  | @pass before link left hleft =>
      obtain rfl := PageState.linking.inj hlinks
      exact hplaced.linking before rfl
  | through | begin | fetched => cases hlinks

/-- An allowed item is enqueued from a page that has links left. -/
theorem Placed.added (h : s.Placed cfg) {i : Nat} {page : QueueItem} {links rest : PageLinks}
    (hget : s.busy[i]? = some ⟨page, .linking links⟩) (htarget : rest.target = links.target)
    {args : EnqueueArgs} (hdepth : (args.depth : Int) ≤ cfg.maxDepth)
    (hhops : (args.pageHops : Int) ≤
      if cfg.pagination.enabled then cfg.maxPaginationPages else 0)
    (origin : Origin) : (s.added cfg i page rest args origin).Placed cfg where
  queue item hitem := by
    rcases (List.mem_orderedInsert _).mp hitem with rfl | hold
    · exact ⟨hdepth, hhops⟩
    · exact h.queue item hold
  busy := by
    have hpage := h.busy _ (List.mem_of_getElem? hget)
    refine ThreadPool.forall_mem_set h.busy i ⟨hpage.allowed, fun links' hlinks' => ?_⟩
    obtain rfl := PageState.linking.inj hlinks'
    rw [htarget]
    exact hpage.linking links rfl
  enqueued x hx := by
    rcases List.mem_cons.mp hx with rfl | hold
    · exact ⟨hdepth, hhops⟩
    · exact h.enqueued x hold

theorem Works.placed {a : WorkerAction} (hcapped : cfg.Capped) (h : Works cfg pages s a s')
    (hplaced : s.Placed cfg) : s'.Placed cfg := by
  have hdown : ∀ {i : Nat} {page : QueueItem} {links : PageLinks},
      s.busy[i]? = some ⟨page, .linking links⟩ →
      ((page.depth + 1 : Nat) : Int) ≤ cfg.maxDepth ∧ cfg.Allows page := by
    intro i page links hget
    have hpage := hplaced.busy _ (List.mem_of_getElem? hget)
    have hlt : (page.depth : Int) < cfg.maxDepth :=
      CrawlerConfig.lt_maxDepth hcapped (hpage.linking links rfl).1
    exact ⟨by omega, hpage.allowed⟩
  cases h with
  | take hqueue =>
      have hqueued := hplaced.queue
      rw [hqueue] at hqueued
      obtain ⟨hpage, hrest⟩ := List.forall_mem_cons.mp hqueued
      refine ⟨hrest, fun b hb => ?_, hplaced.enqueued⟩
      rcases List.mem_append.mp hb with hold | hnew
      · exact hplaced.busy b hold
      · obtain rfl := List.mem_singleton.mp hnew
        exact ⟨hpage, fun _ h => nomatch h⟩
  | moves _ hget hadvances =>
      exact ⟨hplaced.queue, ThreadPool.forall_mem_set hplaced.busy _
        (hadvances.placed (hplaced.busy _ (List.mem_of_getElem? hget))), hplaced.enqueued⟩
  | @hop i page links link left hget hfresh htarget hroom =>
      have hpage := hplaced.busy _ (List.mem_of_getElem? hget)
      have henabled := (hpage.linking links rfl).2 (by rw [htarget]; exact Option.some_ne_none _)
      have hmint : ((s.childBudget page).1).Placed cfg := by
        unfold childBudget
        split
        · exact hplaced
        · exact ⟨hplaced.queue, hplaced.busy, hplaced.enqueued⟩
      have hget' : (s.childBudget page).1.busy[i]? = some ⟨page, .linking links⟩ := by
        unfold childBudget
        split <;> exact hget
      refine hmint.added hget' ?_ ?_ ?_ _
      · rfl
      · exact hpage.allowed.depth
      · rw [if_pos henabled]
        show ((page.pageHops + 1 : Nat) : Int) ≤ _
        omega
  | @chainChild i cell page links link left hget hfresh hcell hroom =>
      have hpaid : (s.setBudget cell (s.engine.budget cell + 1)).Placed cfg :=
        ⟨hplaced.queue, hplaced.busy, hplaced.enqueued⟩
      refine hpaid.added hget ?_ ?_ ?_ _
      · rfl
      · exact (hdown hget).1
      · exact (hdown hget).2.hops
  | child hget hfresh hcell hroom =>
      refine hplaced.added hget ?_ ?_ ?_ _
      · rfl
      · exact (hdown hget).1
      · exact (hdown hget).2.hops
  | finish hget =>
      exact ⟨hplaced.queue, fun b hb => hplaced.busy b (List.mem_of_mem_eraseIdx hb),
        hplaced.enqueued⟩

/-! ### What is owed -/

end CrawlRun

/-- What an item leads to: the rest of its chain, or all that is below it. -/
def QueueItem.owes (cfg : CrawlerConfig) (item : QueueItem) : Nat :=
  match item.chainBudget with
  | none => cfg.leadsTo item.depth
  | some _ => cfg.hopCap - item.pageHops

/-- The page's pagination link has not been followed. -/
def PageLinks.hopAhead (cfg : CrawlerConfig) (visited : List String) (links : PageLinks) : Bool :=
  links.target.any fun url => !visited.contains (cfg.urlKey url)

/-- What a page owes that a worker has. -/
def BusyPage.owes (cfg : CrawlerConfig) (visited : List String) (b : BusyPage) : Nat :=
  match b.state with
  | .taken | .fetching | .working => b.page.owes cfg
  | .linking links =>
      match b.page.chainBudget with
      | none =>
          (cfg.cap b.page.depth - links.linksAdded) * cfg.childOf b.page.depth +
            if links.hopAhead cfg visited then
              cfg.hopCap + cfg.chainCap * cfg.childOf b.page.depth
            else 0
      | some _ => if links.hopAhead cfg visited then cfg.hopCap - b.page.pageHops else 0
  | .through => 0

namespace CrawlRun

variable (cfg : CrawlerConfig)

/-- What the cells have room for, where `level` is the depth of a cell's chain. -/
def room (level budget : Nat → Nat) (cells : Nat) : Nat :=
  ∑ c ∈ Finset.range cells, (cfg.chainCap - budget c) * cfg.childOf (level c)

/-- All that is owed. -/
def owed (level : Nat → Nat) (s : CrawlRun) : Nat :=
  total (QueueItem.owes cfg) s.engine.queue +
    total (BusyPage.owes cfg s.engine.visited) s.busy + room cfg level s.engine.budget s.nextCell

/-- The page's cell is there, at the page's depth. -/
def OnLevel (level : Nat → Nat) (cells : Nat) (page : QueueItem) : Prop :=
  ∀ c, page.chainBudget = some c → c < cells ∧ level c = page.depth

/-- Chains stay at their depth. -/
structure Levelled (level : Nat → Nat) (s : CrawlRun) : Prop where
  queue : ∀ item ∈ s.engine.queue, OnLevel level s.nextCell item
  busy : ∀ b ∈ s.busy, OnLevel level s.nextCell b.page

/-- The accounts of the crawl: what was enqueued and what is owed are within the bound. -/
def Settles (bound : Nat) (s : CrawlRun) : Prop :=
  ∃ level, s.Levelled level ∧ s.enqueued.length + owed cfg level s ≤ bound

variable {cfg} {pages : PageRules} {s s' : CrawlRun}

/-! ### Changes to an account -/

/-- A page owes no more when more is visited. -/
theorem owes_anti {visited visited' : List String} (h : ∀ key ∈ visited, key ∈ visited')
    (b : BusyPage) : b.owes cfg visited' ≤ b.owes cfg visited := by
  have hahead : ∀ links : PageLinks, links.hopAhead cfg visited' = true →
      links.hopAhead cfg visited = true := by
    intro links hlinks
    obtain ⟨url, hurl, hnew⟩ := (Option.any_eq_true ..).mp hlinks
    refine (Option.any_eq_true ..).mpr ⟨url, hurl, ?_⟩
    have hnot : cfg.urlKey url ∉ visited' := by simpa using hnew
    simpa using fun hmem => hnot (h _ hmem)
  obtain ⟨page, state⟩ := b
  cases state with
  | linking links =>
      dsimp only [BusyPage.owes]
      by_cases hnew : links.hopAhead cfg visited' = true
      · rw [if_pos hnew, if_pos hnew, if_pos (hahead links hnew), if_pos (hahead links hnew)]
      · rw [if_neg hnew, if_neg hnew]
        cases page.chainBudget with
        | none => exact Nat.add_le_add_left (Nat.zero_le _) _
        | some cell => exact Nat.zero_le _
  | taken | fetching | working | through => exact Nat.le_refl _

/-- Nothing is owed any more for a pagination link that is visited. -/
theorem hopAhead_of_visited {visited : List String} {links : PageLinks} {url : String}
    (htarget : links.target = some url) (h : cfg.urlKey url ∈ visited) :
    links.hopAhead cfg visited = false := by
  simp [PageLinks.hopAhead, htarget, h]

theorem hopAhead_of_new {visited : List String} {links : PageLinks} {url : String}
    (htarget : links.target = some url) (h : cfg.urlKey url ∉ visited) :
    links.hopAhead cfg visited = true := by
  simp [PageLinks.hopAhead, htarget, h]

variable (cfg) in
/-- A child is paid for from a cell. -/
theorem room_pay (level : Nat → Nat) {budget : Nat → Nat} {cells cell : Nat} (hcell : cell < cells)
    (hroom : budget cell < cfg.chainCap) :
    room cfg level (fun c => if c = cell then budget cell + 1 else budget c) cells +
      cfg.childOf (level cell) = room cfg level budget cells := by
  have hmem : cell ∈ Finset.range cells := Finset.mem_range.mpr hcell
  unfold room
  rw [← Finset.add_sum_erase _ _ hmem,
    ← Finset.add_sum_erase _ (fun c => (cfg.chainCap - budget c) * cfg.childOf (level c)) hmem]
  have hothers : ∑ c ∈ (Finset.range cells).erase cell,
      (cfg.chainCap - (if c = cell then budget cell + 1 else budget c)) * cfg.childOf (level c) =
      ∑ c ∈ (Finset.range cells).erase cell,
        (cfg.chainCap - budget c) * cfg.childOf (level c) := by
    refine Finset.sum_congr rfl fun c hc => ?_
    rw [if_neg (Finset.mem_erase.mp hc).1]
  obtain ⟨left, hleft⟩ : ∃ left, cfg.chainCap - budget cell = left + 1 :=
    ⟨cfg.chainCap - budget cell - 1, by omega⟩
  have hafter : cfg.chainCap - (budget cell + 1) = left := by omega
  dsimp only
  rw [hothers, if_pos rfl, hafter, hleft, Nat.add_mul]
  omega

variable (cfg) in
/-- A new cell has room for all of its children. -/
theorem room_new (level budget : Nat → Nat) (cells depth : Nat) :
    room cfg (fun c => if c = cells then depth else level c)
      (fun c => if c = cells then 0 else budget c) (cells + 1) =
      room cfg level budget cells + cfg.chainCap * cfg.childOf depth := by
  unfold room
  rw [Finset.sum_range_succ]
  dsimp only
  rw [if_pos rfl, if_pos rfl, Nat.sub_zero]
  congr 1
  refine Finset.sum_congr rfl fun c hc => ?_
  have hne : c ≠ cells := Nat.ne_of_lt (Finset.mem_range.mp hc)
  rw [if_neg hne, if_neg hne]

/-! ### No step raises the account -/

theorem Advances.owes_le (hcapped : cfg.Capped) {page : QueueItem} {state state' : PageState}
    (h : Advances cfg pages page state state') (visited : List String) :
    BusyPage.owes cfg visited ⟨page, state'⟩ ≤ BusyPage.owes cfg visited ⟨page, state⟩ := by
  cases h with
  | through => exact Nat.zero_le _
  | begin | fetched | pass => exact Nat.le_refl _
  | discover hdeeper helect =>
      dsimp only [BusyPage.owes, QueueItem.owes]
      cases page.chainBudget with
      | none =>
          dsimp only
          rw [CrawlerConfig.leadsTo_eq hcapped hdeeper, Nat.sub_zero]
          refine Nat.add_le_add_left ?_ _
          split
          · exact Nat.le_refl _
          · exact Nat.zero_le _
      | some cell =>
          dsimp only
          split
          · exact Nat.le_refl _
          · exact Nat.zero_le _

variable (cfg) in
/-- An item is enqueued: it owes what it leads to, and its page owes less. -/
theorem owed_added (level : Nat → Nat) {i : Nat} {page : QueueItem} {state : PageState}
    (hget : s.busy[i]? = some ⟨page, state⟩) (rest : PageLinks) (args : EnqueueArgs)
    (origin : Origin) :
    owed cfg level (s.added cfg i page rest args origin) +
        BusyPage.owes cfg s.engine.visited ⟨page, state⟩ ≤
      owed cfg level s + (s.engine.newItem cfg.toUrlRules args).owes cfg +
        BusyPage.owes cfg (s.engine.visited ++ [cfg.urlKey args.url]) ⟨page, .linking rest⟩ := by
  have hqueue : total (QueueItem.owes cfg)
      (s.engine.queue.orderedInsert (fun a b => a.before b = true)
        (s.engine.newItem cfg.toUrlRules args)) =
      (s.engine.newItem cfg.toUrlRules args).owes cfg +
        total (QueueItem.owes cfg) s.engine.queue := total_orderedInsert _ _ _ _
  have hlighter : ∀ b ∈ s.busy, BusyPage.owes cfg (s.engine.visited ++ [cfg.urlKey args.url]) b ≤
      BusyPage.owes cfg s.engine.visited b :=
    fun b _ => owes_anti (fun _ => List.mem_append_left _) b
  have hbusy := total_set_le hlighter hget ⟨page, .linking rest⟩
  show total (QueueItem.owes cfg) (s.engine.queue.orderedInsert _ _) +
    total (BusyPage.owes cfg (s.engine.visited ++ [cfg.urlKey args.url]))
      (s.busy.set i ⟨page, .linking rest⟩) + room cfg level s.engine.budget s.nextCell + _ ≤ _
  rw [hqueue]
  unfold owed
  omega

theorem Levelled.added {level : Nat → Nat} (h : s.Levelled level) {i : Nat} {page : QueueItem}
    {state : PageState} (hget : s.busy[i]? = some ⟨page, state⟩) (rest : PageLinks)
    {args : EnqueueArgs} (origin : Origin)
    (hargs : ∀ c, args.chainBudget = some c → c < s.nextCell ∧ level c = args.depth) :
    (s.added cfg i page rest args origin).Levelled level where
  queue item hitem := by
    rcases (List.mem_orderedInsert _).mp hitem with rfl | hold
    · exact hargs
    · exact h.queue item hold
  busy := by
    have hpage : OnLevel level s.nextCell page := h.busy _ (List.mem_of_getElem? hget)
    exact ThreadPool.forall_mem_set h.busy i hpage

/-- A new cell, for a chain at this depth. -/
theorem Levelled.newCell {level : Nat → Nat} (h : s.Levelled level) (depth : Nat) :
    s.newCell.Levelled (fun c => if c = s.nextCell then depth else level c) := by
  have hold : ∀ page : QueueItem, OnLevel level s.nextCell page →
      OnLevel (fun c => if c = s.nextCell then depth else level c) (s.nextCell + 1) page := by
    intro page hpage c hc
    obtain ⟨hlt, hlevel⟩ := hpage c hc
    exact ⟨Nat.lt_succ_of_lt hlt, (if_neg (Nat.ne_of_lt hlt)).trans hlevel⟩
  exact ⟨fun item hitem => hold item (h.queue item hitem),
    fun b hb => hold b.page (h.busy b hb)⟩

variable (cfg) in
theorem owed_newCell (level : Nat → Nat) (depth : Nat) (s : CrawlRun) :
    owed cfg (fun c => if c = s.nextCell then depth else level c) s.newCell =
      owed cfg level s + cfg.chainCap * cfg.childOf depth := by
  have hroom := room_new cfg level s.engine.budget s.nextCell depth
  have howed : owed cfg (fun c => if c = s.nextCell then depth else level c) s.newCell =
      total (QueueItem.owes cfg) s.engine.queue +
        total (BusyPage.owes cfg s.engine.visited) s.busy +
        room cfg (fun c => if c = s.nextCell then depth else level c)
          (fun c => if c = s.nextCell then 0 else s.engine.budget c) (s.nextCell + 1) := rfl
  rw [howed, hroom, owed]
  omega

/-- What a page owes for its pagination link, which is followed. -/
theorem owes_hop (page : QueueItem) {links : PageLinks} {link : RawLink}
    (left : List RawLink) (hfresh : cfg.Fresh s.engine link.absolute)
    (htarget : links.target = some link.absolute) :
    BusyPage.owes cfg s.engine.visited ⟨page, .linking links⟩ =
      BusyPage.owes cfg (s.engine.visited ++ [cfg.urlKey link.absolute])
          ⟨page, .linking { links with left }⟩ +
        match page.chainBudget with
        | none => cfg.hopCap + cfg.chainCap * cfg.childOf page.depth
        | some _ => cfg.hopCap - page.pageHops := by
  have hahead : links.hopAhead cfg s.engine.visited = true :=
    hopAhead_of_new htarget hfresh.new
  have hdone : PageLinks.hopAhead cfg (s.engine.visited ++ [cfg.urlKey link.absolute])
      { links with left } = false :=
    hopAhead_of_visited htarget (List.mem_append_right _ (List.mem_singleton.mpr rfl))
  dsimp only [BusyPage.owes]
  rw [hdone, hahead]
  cases page.chainBudget with
  | none => simp
  | some cell => simp

theorem Settles.hop {bound : Nat} (h : s.Settles cfg bound) {i : Nat} {page : QueueItem}
    {links : PageLinks} {link : RawLink} (left : List RawLink)
    (hget : s.busy[i]? = some ⟨page, .linking links⟩) (hfresh : cfg.Fresh s.engine link.absolute)
    (htarget : links.target = some link.absolute)
    (hroom : (page.pageHops : Int) < cfg.maxPaginationPages) :
    ((s.childBudget page).1.added cfg i page { links with left }
      { url := link.absolute, depth := page.depth, domainId := links.domainId
        pageHops := page.pageHops + 1, chainBudget := some (s.childBudget page).2 }
      (.pagination page.counter)).Settles cfg bound := by
  obtain ⟨level, hlevel, hpaid⟩ := h
  have hhops : page.pageHops + 1 ≤ cfg.hopCap := by
    unfold CrawlerConfig.hopCap
    omega
  have hpage := owes_hop page left hfresh htarget
  unfold childBudget
  cases hcell : page.chainBudget with
  | some cell =>
      -- the page is of a chain already, which has one hop less ahead
      rw [hcell] at hpage
      dsimp only at hpage
      refine ⟨level, hlevel.added hget _ _ ?_, ?_⟩
      · intro c hc
        obtain rfl : cell = c := Option.some.inj hc
        exact hlevel.busy _ (List.mem_of_getElem? hget) cell hcell
      · have howed := owed_added cfg level hget { links with left }
          { url := link.absolute, depth := page.depth, domainId := links.domainId
            pageHops := page.pageHops + 1, chainBudget := some cell } (.pagination page.counter)
        dsimp only [QueueItem.owes, Engine.newItem] at howed
        dsimp only
        show s.enqueued.length + 1 + _ ≤ bound
        omega
  | none =>
      -- the chain that the page has owed is now one of its own
      rw [hcell] at hpage
      dsimp only at hpage
      refine ⟨_, (hlevel.newCell page.depth).added hget _ _ ?_, ?_⟩
      · intro c hc
        obtain rfl : s.nextCell = c := Option.some.inj hc
        exact ⟨Nat.lt_succ_self _, if_pos rfl⟩
      · have hget' : s.newCell.busy[i]? = some ⟨page, .linking links⟩ := hget
        have howed := owed_added cfg (fun c => if c = s.nextCell then page.depth else level c)
          hget' { links with left }
          { url := link.absolute, depth := page.depth, domainId := links.domainId
            pageHops := page.pageHops + 1, chainBudget := some s.nextCell }
          (.pagination page.counter)
        rw [owed_newCell] at howed
        dsimp only [QueueItem.owes, Engine.newItem] at howed
        have hvisited : s.newCell.engine.visited = s.engine.visited := rfl
        rw [hvisited] at howed
        dsimp only
        show s.enqueued.length + 1 + _ ≤ bound
        omega

/-- A child of a chain is paid for from the chain's cell. -/
theorem Settles.chainChild {bound : Nat} (h : s.Settles cfg bound) {i cell : Nat}
    {page : QueueItem} {links : PageLinks} (left : List RawLink)
    (hget : s.busy[i]? = some ⟨page, .linking links⟩) (hcell : page.chainBudget = some cell)
    (hroom : (s.engine.budget cell : Int) < cfg.maxChainChildren) (link : RawLink) :
    ((s.setBudget cell (s.engine.budget cell + 1)).added cfg i page { links with left }
      { url := link.absolute, depth := page.depth + 1, domainId := links.domainId
        pageHops := page.pageHops }
      (.link page.counter)).Settles cfg bound := by
  obtain ⟨level, hlevel, hpaid⟩ := h
  obtain ⟨hlt, hdepth⟩ := hlevel.busy _ (List.mem_of_getElem? hget) cell hcell
  have hdepth : level cell = page.depth := hdepth
  have hlevel' : (s.setBudget cell (s.engine.budget cell + 1)).Levelled level :=
    ⟨hlevel.queue, hlevel.busy⟩
  have hget' : (s.setBudget cell (s.engine.budget cell + 1)).busy[i]? =
      some ⟨page, .linking links⟩ := hget
  have hpay : owed cfg level (s.setBudget cell (s.engine.budget cell + 1)) +
      cfg.childOf page.depth = owed cfg level s := by
    have hleft : s.engine.budget cell < cfg.chainCap := by
      unfold CrawlerConfig.chainCap
      omega
    have hcells := room_pay cfg level hlt hleft
    rw [hdepth] at hcells
    unfold owed
    dsimp only [setBudget]
    omega
  have howed := owed_added cfg level hget' { links with left }
    { url := link.absolute, depth := page.depth + 1, domainId := links.domainId
      pageHops := page.pageHops } (.link page.counter)
  have hpage : BusyPage.owes cfg (s.engine.visited ++ [cfg.urlKey link.absolute])
      ⟨page, .linking { links with left }⟩ ≤
      BusyPage.owes cfg s.engine.visited ⟨page, .linking links⟩ :=
    owes_anti (fun _ => List.mem_append_left _) ⟨page, .linking { links with left }⟩
  refine ⟨level, hlevel'.added hget' _ _ (fun c hc => nomatch hc), ?_⟩
  have hvisited : (s.setBudget cell (s.engine.budget cell + 1)).engine.visited =
      s.engine.visited := rfl
  rw [hvisited] at howed
  dsimp only [QueueItem.owes, Engine.newItem] at howed
  unfold CrawlerConfig.childOf at hpay
  show s.enqueued.length + 1 + _ ≤ bound
  omega

/-- A child of a page outside a chain is counted against the page's cap. -/
theorem Settles.child (hcapped : cfg.Capped) {bound : Nat} (h : s.Settles cfg bound) {i : Nat}
    {page : QueueItem} {links : PageLinks} (left : List RawLink)
    (hget : s.busy[i]? = some ⟨page, .linking links⟩) (hcell : page.chainBudget = none)
    (hroom : 0 < cfg.maxLinks page.depth →
      (links.linksAdded : Int) < cfg.maxLinks page.depth) (link : RawLink) :
    (s.added cfg i page { links with left, linksAdded := links.linksAdded + 1 }
      { url := link.absolute, depth := page.depth + 1, domainId := links.domainId
        pageHops := page.pageHops }
      (.link page.counter)).Settles cfg bound := by
  obtain ⟨level, hlevel, hpaid⟩ := h
  have hlt : links.linksAdded < cfg.cap page.depth := by
    have := hroom (CrawlerConfig.maxLinks_pos hcapped page.depth)
    unfold CrawlerConfig.cap
    omega
  have howed := owed_added cfg level hget { links with left, linksAdded := links.linksAdded + 1 }
    { url := link.absolute, depth := page.depth + 1, domainId := links.domainId
      pageHops := page.pageHops } (.link page.counter)
  have hpage : BusyPage.owes cfg (s.engine.visited ++ [cfg.urlKey link.absolute])
      ⟨page, .linking { links with left, linksAdded := links.linksAdded + 1 }⟩ +
        cfg.childOf page.depth ≤
      BusyPage.owes cfg s.engine.visited ⟨page, .linking links⟩ := by
    refine Nat.le_trans (Nat.add_le_add_right
      (owes_anti (fun _ => List.mem_append_left _) _) _) ?_
    obtain ⟨rest, hrest⟩ : ∃ rest, cfg.cap page.depth - links.linksAdded = rest + 1 :=
      ⟨cfg.cap page.depth - links.linksAdded - 1, by omega⟩
    have hnext : cfg.cap page.depth - (links.linksAdded + 1) = rest := by omega
    have hsame : PageLinks.hopAhead cfg s.engine.visited
        { links with left, linksAdded := links.linksAdded + 1 } =
        links.hopAhead cfg s.engine.visited := rfl
    dsimp only [BusyPage.owes]
    rw [hcell]
    dsimp only
    rw [hsame, hnext, hrest, Nat.add_mul]
    omega
  refine ⟨level, hlevel.added hget _ _ (fun c hc => nomatch hc), ?_⟩
  dsimp only [QueueItem.owes, Engine.newItem] at howed
  unfold CrawlerConfig.childOf at hpage
  show s.enqueued.length + 1 + _ ≤ bound
  omega

/-- **Every step keeps the accounts.** -/
theorem Works.settles {a : WorkerAction} (hcapped : cfg.Capped) (h : Works cfg pages s a s')
    {bound : Nat} (hsettles : s.Settles cfg bound) : s'.Settles cfg bound := by
  cases h with
  | @take page queue hqueue =>
      obtain ⟨level, hlevel, hpaid⟩ := hsettles
      have hqueued := hlevel.queue
      rw [hqueue] at hqueued
      obtain ⟨hpage, hrest⟩ := List.forall_mem_cons.mp hqueued
      refine ⟨level, ⟨hrest, fun b hb => ?_⟩, ?_⟩
      · rcases List.mem_append.mp hb with hold | hnew
        · exact hlevel.busy b hold
        · obtain rfl := List.mem_singleton.mp hnew
          exact hpage
      · have htaken : BusyPage.owes cfg s.engine.visited ⟨page, .taken⟩ = page.owes cfg := rfl
        unfold owed at hpaid ⊢
        rw [hqueue] at hpaid
        simp only [total_append, total_cons, total_nil, htaken] at hpaid ⊢
        omega
  | @moves _ i page state state' _ hget hadvances =>
      obtain ⟨level, hlevel, hpaid⟩ := hsettles
      have hpage : OnLevel level s.nextCell page := hlevel.busy _ (List.mem_of_getElem? hget)
      refine ⟨level, ⟨hlevel.queue, ThreadPool.forall_mem_set hlevel.busy i hpage⟩, ?_⟩
      have hsame : ∀ b ∈ s.busy, BusyPage.owes cfg s.engine.visited b ≤
          BusyPage.owes cfg s.engine.visited b := fun _ _ => Nat.le_refl _
      have hset := total_set_le hsame hget ⟨page, state'⟩
      have hle := hadvances.owes_le hcapped s.engine.visited
      unfold owed at hpaid ⊢
      dsimp only [move]
      omega
  | hop hget hfresh htarget hroom => exact hsettles.hop _ hget hfresh htarget hroom
  | @chainChild _ _ _ _ link _ hget hfresh hcell hroom =>
      exact hsettles.chainChild _ hget hcell hroom link
  | @child _ _ _ link _ hget hfresh hcell hroom =>
      exact hsettles.child hcapped _ hget hcell hroom link
  | @finish i page hget =>
      obtain ⟨level, hlevel, hpaid⟩ := hsettles
      refine ⟨level, ⟨hlevel.queue, fun b hb => hlevel.busy b (List.mem_of_mem_eraseIdx hb)⟩, ?_⟩
      have herase := total_eraseIdx (BusyPage.owes cfg s.engine.visited) hget
      unfold owed at hpaid ⊢
      dsimp only [Engine.drop]
      omega

/-! ### The start -/

/-- What is in the queue was enqueued, and the queue counts what is in it and with the workers. -/
structure Tallies (s : CrawlRun) : Prop where
  unfinished : s.unfinished = s.engine.queue.length + s.busy.length
  queued : s.engine.queue.length ≤ s.enqueued.length

/-- A seed owes all that it leads to. -/
theorem putSeed_keeps (hcapped : cfg.Capped) {bound : Nat} (hplaced : s.Placed cfg)
    (htallies : s.Tallies) (hsettles : s.Settles cfg bound) (seed : String × Option Nat) :
    (s.putSeed cfg seed).Placed cfg ∧ (s.putSeed cfg seed).Tallies ∧
      (s.putSeed cfg seed).Settles cfg (bound + (1 + cfg.leadsTo 0)) := by
  obtain ⟨level, hlevel, hpaid⟩ := hsettles
  rcases putSeed_cases cfg s seed with ⟨item, ⟨hdepth, hhops, hcell, -, -⟩, heq⟩ | ⟨skipped, heq⟩
  · have hallowed : cfg.Allows item := by
      refine ⟨?_, ?_⟩
      · have := hcapped.depth
        omega
      · have := hcapped.hops
        split <;> omega
    have hqueue : ∀ i ∈ s.engine.queue.orderedInsert (fun a b => a.before b = true) item,
        i = item ∨ i ∈ s.engine.queue := fun i hi => (List.mem_orderedInsert _).mp hi
    rw [heq]
    refine ⟨⟨fun i hi => ?_, hplaced.busy, fun x hx => ?_⟩, ⟨?_, ?_⟩, level, ⟨fun i hi => ?_,
      hlevel.busy⟩, ?_⟩
    · rcases hqueue i hi with rfl | hold
      · exact hallowed
      · exact hplaced.queue i hold
    · rcases List.mem_cons.mp hx with rfl | hold
      · exact hallowed
      · exact hplaced.enqueued x hold
    · have := htallies.unfinished
      simp only [Engine.withItem, List.orderedInsert_length]
      omega
    · have := htallies.queued
      simp only [Engine.withItem, List.orderedInsert_length, List.length_cons]
      omega
    · rcases hqueue i hi with rfl | hold
      · intro c hc
        cases hcell.symm.trans hc
      · exact hlevel.queue i hold
    · have howes : item.owes cfg = cfg.leadsTo 0 := by
        unfold QueueItem.owes
        rw [hcell, hdepth]
      unfold owed at hpaid ⊢
      simp only [Engine.withItem, total_orderedInsert, List.length_cons, howes]
      omega
  · rw [heq]
    refine ⟨⟨hplaced.queue, hplaced.busy, hplaced.enqueued⟩,
      ⟨htallies.unfinished, htallies.queued⟩, level, ⟨hlevel.queue, hlevel.busy⟩, ?_⟩
    exact Nat.le_trans hpaid (Nat.le_add_right _ _)

theorem putSeeds_keep (hcapped : cfg.Capped) (seeds : List (String × Option Nat)) {bound : Nat}
    (hplaced : s.Placed cfg) (htallies : s.Tallies) (hsettles : s.Settles cfg bound) :
    (seeds.foldl (putSeed cfg) s).Placed cfg ∧ (seeds.foldl (putSeed cfg) s).Tallies ∧
      (seeds.foldl (putSeed cfg) s).Settles cfg (bound + cfg.bound seeds.length) := by
  induction seeds generalizing s bound with
  | nil => exact ⟨hplaced, htallies, by simpa [CrawlerConfig.bound] using hsettles⟩
  | cons seed seeds ih =>
      obtain ⟨hp, ht, hs⟩ := putSeed_keeps hcapped hplaced htallies hsettles seed
      have hrest := ih hp ht hs
      have hbound : bound + cfg.bound (seed :: seeds).length =
          bound + (1 + cfg.leadsTo 0) + cfg.bound seeds.length := by
        unfold CrawlerConfig.bound
        rw [List.length_cons, Nat.add_mul]
        omega
      rw [hbound]
      exact hrest

theorem start_keeps (hcapped : cfg.Capped) {seeds : List (String × Option Nat)}
    {visitedBootstrap : List String} (h : start cfg seeds visitedBootstrap none = some s) :
    s.Placed cfg ∧ s.Tallies ∧ s.Settles cfg (cfg.bound seeds.length) := by
  unfold start at h
  dsimp only at h
  split at h
  · cases h
  · obtain rfl := Option.some.inj h
    have hplaced : CrawlRun.Placed cfg
        { engine := Engine.init cfg.toUrlRules visitedBootstrap none } :=
      ⟨fun _ hi => (nomatch hi), fun _ hb => (nomatch hb), fun _ hx => (nomatch hx)⟩
    have hsettles : CrawlRun.Settles cfg 0
        { engine := Engine.init cfg.toUrlRules visitedBootstrap none } :=
      ⟨fun _ => 0, ⟨fun _ hi => (nomatch hi), fun _ hb => (nomatch hb)⟩, Nat.le_refl _⟩
    have hseeds := putSeeds_keep hcapped seeds hplaced ⟨rfl, Nat.le_refl _⟩ hsettles
    rwa [Nat.zero_add] at hseeds

/-! ### The queue -/

/-- An item is taken out of the queue by `take` only. -/
theorem Works.taken {a : WorkerAction} (h : Works cfg pages s a s') :
    s'.engine.queue.length + s.enqueued.length + (if a = .take then 1 else 0) =
      s.engine.queue.length + s'.enqueued.length := by
  cases h with
  | take hqueue =>
      rw [hqueue, if_pos rfl]
      simp only [List.length_cons]
      omega
  | moves ha =>
      rw [if_neg ha]
      rfl
  | @hop _ page =>
      obtain ⟨budget, nextCell, heq⟩ := s.childBudget_frame page
      rw [heq, if_neg (by simp)]
      simp only [added, Engine.withItem, List.orderedInsert_length, List.length_cons]
      omega
  | chainChild | child =>
      rw [if_neg (by simp)]
      simp only [added, setBudget, Engine.withItem, List.orderedInsert_length, List.length_cons]
      omega
  | finish =>
      rw [if_neg (by simp)]
      rfl

theorem Works.tallies {a : WorkerAction} (h : Works cfg pages s a s') (ht : s.Tallies) :
    s'.Tallies := by
  have hqueued : s'.engine.queue.length ≤ s'.enqueued.length := by
    have htaken := h.taken
    have hold := ht.queued
    omega
  have hunfinished := ht.unfinished
  refine ⟨?_, hqueued⟩
  cases h with
  | take hqueue =>
      rw [hqueue] at hunfinished
      simp only [List.length_append, List.length_cons, List.length_nil] at hunfinished ⊢
      omega
  | moves =>
      simp only [move, List.length_set]
      exact hunfinished
  | @hop _ page =>
      obtain ⟨budget, nextCell, heq⟩ := s.childBudget_frame page
      rw [heq]
      simp only [added, Engine.withItem, List.orderedInsert_length, List.length_set]
      omega
  | chainChild | child =>
      simp only [added, setBudget, Engine.withItem, List.orderedInsert_length, List.length_set]
      omega
  | @finish i page hget =>
      have hlt : i < s.busy.length := (List.getElem?_eq_some_iff.mp hget).1
      simp only [Engine.drop, List.length_eraseIdx_of_lt hlt]
      omega

/-- What holds of the crawl at any moment. -/
structure Accounted (cfg : CrawlerConfig) (bound : Nat) (s : CrawlRun) : Prop where
  placed : s.Placed cfg
  tallies : s.Tallies
  settles : s.Settles cfg bound

theorem Accounted.step (hcapped : cfg.Capped) {bound : Nat} {a : WorkerAction}
    (h : s.Accounted cfg bound) (hs : s.step cfg pages a = some s') : s'.Accounted cfg bound :=
  have hworks := works_of_step hs
  ⟨hworks.placed hcapped h.placed, hworks.tallies h.tallies, hworks.settles hcapped h.settles⟩

theorem Accounted.enqueued_le {bound : Nat} (h : s.Accounted cfg bound) :
    s.enqueued.length ≤ bound := by
  obtain ⟨level, -, hpaid⟩ := h.settles
  omega

/-- Whatever was taken out of the queue was enqueued. -/
theorem taken_le {as : List WorkerAction} (hr : run (CrawlRun.step cfg pages) s as = some s') :
    as.count .take + s'.engine.queue.length + s.enqueued.length =
      s.engine.queue.length + s'.enqueued.length := by
  induction as generalizing s with
  | nil =>
      obtain rfl : s = s' := by simpa using hr
      simp
  | cons a as ih =>
      obtain ⟨t, hs, hr'⟩ := run_cons_eq_some.mp hr
      have hrest := ih hr'
      have hfirst := (works_of_step hs).taken
      rw [List.count_cons]
      simp only [beq_iff_eq]
      omega

/-! ### The queue is joined -/

/-- While nothing is taken, workers only come through with their pages. -/
theorem Works.pages_sublist {a : WorkerAction} (h : Works cfg pages s a s') (ha : a ≠ .take) :
    (s'.busy.map BusyPage.page).Sublist (s.busy.map BusyPage.page) := by
  have hset : ∀ {i : Nat} {page : QueueItem} {state state' : PageState},
      s.busy[i]? = some ⟨page, state⟩ →
      (s.busy.set i ⟨page, state'⟩).map BusyPage.page = s.busy.map BusyPage.page := by
    intro i page state state' hget
    obtain ⟨hlt, heq⟩ := List.getElem?_eq_some_iff.mp hget
    have hlt' : i < (s.busy.map BusyPage.page).length := by simpa using hlt
    have hsame : (s.busy.map BusyPage.page)[i] = page := by simp [heq]
    rw [List.map_set, ← hsame, List.set_getElem_self]
  cases h with
  | take => exact absurd rfl ha
  | moves _ hget => exact hset hget ▸ List.Sublist.refl _
  | @hop _ page _ _ _ hget =>
      obtain ⟨budget, nextCell, heq⟩ := s.childBudget_frame page
      rw [heq]
      exact hset hget ▸ List.Sublist.refl _
  | chainChild hget | child hget => exact hset hget ▸ List.Sublist.refl _
  | finish => exact (List.eraseIdx_sublist _ _).map _

/-- From some moment on nothing is taken, and nothing is there to take. -/
theorem runs_dry {bound : Nat} {σ : Nat → CrawlRun} {α : Nat → Option WorkerAction}
    (hexec : Execution (CrawlRun.step cfg pages) σ α)
    (hinv : ∀ n, (σ n).Accounted cfg bound)
    (htakes : ∀ n, (σ n).engine.queue ≠ [] → ∃ m, n ≤ m ∧ α m = some .take) :
    ∃ N, ∀ n, N ≤ n → α n ≠ some .take ∧ (σ n).engine.queue = [] := by
  -- what was taken so far grows with every `take`, and it is bounded
  let taken : Nat → Nat := fun n => (σ n).enqueued.length - (σ n).engine.queue.length
  have hgrows : ∀ n, taken n ≤ taken (n + 1) ∧ (α n = some .take → taken n < taken (n + 1)) := by
    intro n
    have hq := (hinv n).tallies.queued
    have hq' := (hinv (n + 1)).tallies.queued
    dsimp only [taken]
    rcases hexec n with ⟨hnone, heq⟩ | ⟨a, ha, hs⟩
    · rw [heq, hnone]
      exact ⟨Nat.le_refl _, fun h => nomatch h⟩
    · have hstep := (works_of_step hs).taken
      rw [ha]
      constructor
      · omega
      · intro htake
        obtain rfl := Option.some.inj htake
        rw [if_pos rfl] at hstep
        omega
  obtain ⟨N, hN⟩ := Accounting.exists_forall_le taken fun n =>
    Nat.le_trans (Nat.sub_le _ _) (hinv n).enqueued_le
  have hmono : ∀ n, N ≤ n → taken N ≤ taken n := by
    intro n hn
    induction n, hn using Nat.le_induction with
    | base => exact Nat.le_refl _
    | succ n _ ih => exact Nat.le_trans ih (hgrows n).1
  have hnot : ∀ n, N ≤ n → α n ≠ some .take := by
    intro n hn htake
    have hlt := (hgrows n).2 htake
    have hmax := hN (n + 1)
    have hmin := hmono n hn
    omega
  refine ⟨N, fun n hn => ⟨hnot n hn, ?_⟩⟩
  by_contra hne
  obtain ⟨m, hm, htake⟩ := htakes n hne
  exact hnot m (Nat.le_trans hn hm) htake

/-- When nothing is taken any more, the workers come through with what they have. -/
theorem falls_idle {σ : Nat → CrawlRun} {α : Nat → Option WorkerAction}
    (hexec : Execution (CrawlRun.step cfg pages) σ α) {N : Nat}
    (hnot : ∀ n, N ≤ n → α n ≠ some .take)
    (hends : ∀ n, ∀ b ∈ (σ n).busy, ∃ m, n ≤ m ∧ ∀ b' ∈ (σ m).busy, b'.page ≠ b.page) :
    ∃ n, N ≤ n ∧ (σ n).busy = [] := by
  -- a moment where the fewest workers have a page
  let busy : Nat → Nat := fun k => (σ (N + k)).busy.length
  let K : Nat := Function.argmin busy
  have hsub : ∀ m, N + K ≤ m →
      ((σ m).busy.map BusyPage.page).Sublist ((σ (N + K)).busy.map BusyPage.page) := by
    intro m hm
    induction m, hm using Nat.le_induction with
    | base => exact List.Sublist.refl _
    | succ m hm ih =>
        rcases hexec m with ⟨-, heq⟩ | ⟨a, ha, hs⟩
        · rw [heq]
          exact ih
        · have htake : a ≠ .take := by
            rintro rfl
            exact hnot m (by omega) ha
          exact ((works_of_step hs).pages_sublist htake).trans ih
  refine ⟨N + K, Nat.le_add_right _ _, ?_⟩
  by_contra hne
  obtain ⟨b, hb⟩ := List.exists_mem_of_ne_nil _ hne
  obtain ⟨m, hm, hgone⟩ := hends (N + K) b hb
  have hle : (σ (N + K)).busy.length ≤ (σ m).busy.length := by
    obtain ⟨k, rfl⟩ := Nat.le.dest (show N ≤ m by omega)
    exact Function.argmin_le busy k
  have hsame := (hsub m hm).eq_of_length_le (by simpa using hle)
  have hmem : b.page ∈ (σ m).busy.map BusyPage.page := by
    rw [hsame]
    exact List.mem_map_of_mem hb
  obtain ⟨b', hb', hpage⟩ := List.mem_map.mp hmem
  exact hgone b' hb' hpage

/-- If each page comes to its end, the queue is joined. -/
theorem joins (hcapped : cfg.Capped) {bound : Nat} {σ : Nat → CrawlRun}
    {α : Nat → Option WorkerAction} (hexec : Execution (CrawlRun.step cfg pages) σ α)
    (h0 : (σ 0).Accounted cfg bound)
    (htakes : ∀ n, (σ n).engine.queue ≠ [] → ∃ m, n ≤ m ∧ α m = some .take)
    (hends : ∀ n, ∀ b ∈ (σ n).busy, ∃ m, n ≤ m ∧ ∀ b' ∈ (σ m).busy, b'.page ≠ b.page) :
    ∃ n, (σ n).unfinished = 0 := by
  have hinv : ∀ n, (σ n).Accounted cfg bound :=
    hexec.invariant (fun _ _ _ h hs => h.step hcapped hs) h0
  obtain ⟨N, hdry⟩ := runs_dry hexec hinv htakes
  obtain ⟨n, hn, hidle⟩ := falls_idle hexec (fun n hn => (hdry n hn).1) hends
  refine ⟨n, ?_⟩
  rw [(hinv n).tallies.unfinished, (hdry n hn).2, hidle]
  rfl

end CrawlRun

/--
**A crawl is bounded.**  Whatever the pages say and however the workers take turns: no item
is deeper or further along a listing than the settings allow, a crawl of `n` seeds enqueues
at most `bound n` items and takes no more than that out of the queue, and if each page comes
to its end and a queued item is taken some day, the queue is joined.
-/
theorem crawl_bounded (cfg : CrawlerConfig) (pages : PageRules) (hcapped : cfg.Capped)
    (seeds : List (String × Option Nat)) (visitedBootstrap : List String) (s₀ : CrawlRun)
    (hstart : CrawlRun.start cfg seeds visitedBootstrap none = some s₀) :
    (∀ (as : List WorkerAction) (s : CrawlRun), run (CrawlRun.step cfg pages) s₀ as = some s →
      (∀ x ∈ s.enqueued, (x.item.depth : Int) ≤ cfg.maxDepth ∧
        (x.item.pageHops : Int) ≤
          if cfg.pagination.enabled then cfg.maxPaginationPages else 0) ∧
      s.enqueued.length ≤ cfg.bound seeds.length ∧ as.count .take ≤ cfg.bound seeds.length) ∧
    (∀ (σ : Nat → CrawlRun) (α : Nat → Option WorkerAction), σ 0 = s₀ →
      Execution (CrawlRun.step cfg pages) σ α →
      (∀ n, (σ n).engine.queue ≠ [] → ∃ m, n ≤ m ∧ α m = some .take) →
      (∀ n, ∀ b ∈ (σ n).busy, ∃ m, n ≤ m ∧ ∀ b' ∈ (σ m).busy, b'.page ≠ b.page) →
      ∃ n, (σ n).unfinished = 0) := by
  obtain ⟨hplaced, htallies, hsettles⟩ := CrawlRun.start_keeps hcapped hstart
  have h0 : s₀.Accounted cfg (cfg.bound seeds.length) := ⟨hplaced, htallies, hsettles⟩
  constructor
  · intro as s hr
    have hs : s.Accounted cfg (cfg.bound seeds.length) :=
      run_invariant' (fun _ _ _ h hstep => h.step hcapped hstep) h0 hr
    refine ⟨fun x hx => ?_, hs.enqueued_le, ?_⟩
    · exact ⟨(hs.placed.enqueued x hx).depth, (hs.placed.enqueued x hx).hops⟩
    · have htaken := CrawlRun.taken_le hr
      have hqueued := h0.tallies.queued
      have hle := hs.enqueued_le
      omega
  · intro σ α hσ hexec htakes hends
    subst hσ
    exact CrawlRun.joins hcapped hexec h0 htakes hends

/-- The first page of the listing leads to the second and to the clerk, within the bound. -/
theorem listing_bounded :
    ∃ s₀ s, CrawlRun.start townCrawl [("/staff", none)] [] none = some s₀ ∧
      run (CrawlRun.step townCrawl townPages) s₀ (.take :: seesThrough 0 staffLinks) = some s ∧
      s.enqueued.length = 3 ∧ s.enqueued.length ≤ townCrawl.bound 1 := by
  have hcapped : townCrawl.Capped := ⟨by decide, by decide, by decide⟩
  refine ⟨_, _, rfl, rfl, by decide +kernel, ?_⟩
  exact ((crawl_bounded townCrawl townPages hcapped [("/staff", none)] [] _ rfl).1
    (.take :: seesThrough 0 staffLinks) _ rfl).2.1

end GovCrawler
