/-
The budget of a chain is one for the whole chain, over all lives of a crawl.

Which chain a page belongs to can be read off the history of `_enqueue`: a pagination link
leads to the chain of its page, or starts one, and no other link leads to a chain.
`chainChildren` counts the children of a chain's pages in the history.  The program never
counts them; it has a cell for each chain, which its items share.

`Chains` ties the two: items share a cell if and only if they are of one chain, and the cell
has the number of the chain's children.  A step that enqueues keeps it, and so does a
checkpoint that comes back, because sharing and values do.
-/
import GovCrawler.Crawler.Lives

namespace GovCrawler

open OrderedDict Transition

/-! ### Chains in the history -/

/-- The chain of an item, named after its first page; the history is newest first. -/
def chainOf : List Enqueued → Nat → Option Nat
  | [], _ => none
  | x :: older, counter =>
      if x.item.counter = counter then
        match x.origin with
        | .pagination page => some ((chainOf older page).getD counter)
        | .seed | .link _ => none
      else chainOf older counter

/-- How many children were enqueued from pages of the chain. -/
def chainChildren : List Enqueued → Nat → Nat
  | [], _ => 0
  | x :: older, chain =>
      (match x.origin with
        | .link page => if chainOf older page = some chain then 1 else 0
        | .seed | .pagination _ => 0) + chainChildren older chain

variable {cfg : CrawlerConfig} {pages : PageRules} {history : List Enqueued} {s : CrawlRun}

theorem chainOf_of_ne {x : Enqueued} {counter : Nat} (h : x.item.counter ≠ counter) :
    chainOf (x :: history) counter = chainOf history counter := by
  rw [chainOf, if_neg h]

/-- A pagination link leads along the chain of its page, or starts one. -/
theorem chainOf_pagination (history : List Enqueued) (item : QueueItem) (page : Nat) :
    chainOf (⟨item, .pagination page⟩ :: history) item.counter =
      some ((chainOf history page).getD item.counter) := by
  rw [chainOf, if_pos rfl]

theorem chainChildren_pagination (item : QueueItem) (page chain : Nat) :
    chainChildren (⟨item, .pagination page⟩ :: history) chain = chainChildren history chain :=
  Nat.zero_add _

/-- A chain is named after an item. -/
theorem mem_of_chainOf {counter chain : Nat} (h : chainOf history counter = some chain) :
    ∃ x ∈ history, x.item.counter = chain := by
  induction history generalizing counter with
  | nil => cases h
  | cons x older ih =>
      rw [chainOf] at h
      split at h
      · rename_i hcounter
        split at h
        · rename_i page _
          cases hpage : chainOf older page with
          | none =>
              rw [hpage] at h
              exact ⟨x, List.mem_cons_self .., hcounter.trans (Option.some.inj h)⟩
          | some chain' =>
              rw [hpage] at h
              obtain rfl : chain' = chain := Option.some.inj h
              obtain ⟨y, hy, heq⟩ := ih hpage
              exact ⟨y, List.mem_cons_of_mem _ hy, heq⟩
        · cases h
        · cases h
      · obtain ⟨y, hy, heq⟩ := ih h
        exact ⟨y, List.mem_cons_of_mem _ hy, heq⟩

/-- What has no item has no children. -/
theorem chainChildren_eq_zero {chain : Nat} (h : ∀ x ∈ history, x.item.counter ≠ chain) :
    chainChildren history chain = 0 := by
  induction history with
  | nil => rfl
  | cons x older ih =>
      obtain ⟨-, holder⟩ := List.forall_mem_cons.mp h
      rw [chainChildren, ih holder, Nat.add_zero]
      split
      · rw [if_neg]
        intro hpage
        obtain ⟨y, hy, heq⟩ := mem_of_chainOf hpage
        exact holder y hy heq
      · rfl
      · rfl

/-! ### Cells and chains -/

/-- The crawl has the item: it is pending, in the queue, or with a worker. -/
def CrawlRun.Live (s : CrawlRun) (item : QueueItem) : Prop :=
  item ∈ s.engine.pending.values ∨ item ∈ s.engine.queue ∨ ∃ b ∈ s.busy, b.page = item

/-- The cells of the crawl are the chains of the history. -/
structure Chains (cfg : CrawlerConfig) (history : List Enqueued) (s : CrawlRun) : Prop where
  keyed : s.engine.Keyed
  known : ∀ x ∈ history, x.item.counter ≤ s.engine.counter
  counted : ∀ a, s.Live a → a.counter ≤ s.engine.counter
  cell : ∀ a, s.Live a → ∀ c, a.chainBudget = some c → c < s.nextCell
  chained : ∀ a, s.Live a → (a.chainBudget = none ↔ chainOf history a.counter = none)
  /-- Items share a cell if they are of one chain, and then only. -/
  shared : ∀ a b, s.Live a → s.Live b → ∀ c d, a.chainBudget = some c → b.chainBudget = some d →
    (c = d ↔ chainOf history a.counter = chainOf history b.counter)
  value : ∀ a, s.Live a → ∀ c chain, a.chainBudget = some c →
    chainOf history a.counter = some chain → s.engine.budget c = chainChildren history chain
  bounded : ∀ chain, (chainChildren history chain : Int) ≤ cfg.maxChainChildren

namespace Chains

/-- The chain of an item with a cell. -/
theorem exists_chain (h : Chains cfg history s) {a : QueueItem} (ha : s.Live a) {c : Nat}
    (hc : a.chainBudget = some c) : ∃ chain, chainOf history a.counter = some chain := by
  cases hchain : chainOf history a.counter with
  | none =>
      rw [(h.chained a ha).mpr hchain] at hc
      cases hc
  | some chain => exact ⟨chain, rfl⟩

/-- A step that only lets go of items. -/
theorem shrink (h : Chains cfg history s) {t : CrawlRun} (hlive : ∀ a, t.Live a → s.Live a)
    (hkeyed : t.engine.Keyed) (hcounter : t.engine.counter = s.engine.counter)
    (hbudget : t.engine.budget = s.engine.budget) (hcell : t.nextCell = s.nextCell) :
    Chains cfg history t where
  keyed := hkeyed
  known x hx := hcounter ▸ h.known x hx
  counted a ha := hcounter ▸ h.counted a (hlive a ha)
  cell a ha c hc := hcell ▸ h.cell a (hlive a ha) c hc
  chained a ha := h.chained a (hlive a ha)
  shared a b ha hb := h.shared a b (hlive a ha) (hlive b hb)
  value a ha c chain hc hchain := by
    rw [hbudget]
    exact h.value a (hlive a ha) c chain hc hchain
  bounded := h.bounded

/-- What is right about an item that is enqueued, for the cells as they are then. -/
structure Fits (cfg : CrawlerConfig) (history : List Enqueued) (s : CrawlRun) (x : Enqueued)
    (budget : Nat → Nat) (cells : Nat) : Prop where
  counter : x.item.counter = s.engine.counter + 1
  grows : s.nextCell ≤ cells
  cell : ∀ c, x.item.chainBudget = some c → c < cells
  chained : x.item.chainBudget = none ↔ chainOf (x :: history) x.item.counter = none
  shared : ∀ a, s.Live a → ∀ c d, a.chainBudget = some c → x.item.chainBudget = some d →
    (c = d ↔ chainOf history a.counter = chainOf (x :: history) x.item.counter)
  value : ∀ c chain, x.item.chainBudget = some c →
    chainOf (x :: history) x.item.counter = some chain →
    budget c = chainChildren (x :: history) chain
  others : ∀ a, s.Live a → ∀ c chain, a.chainBudget = some c →
    chainOf history a.counter = some chain → budget c = chainChildren (x :: history) chain
  bounded : ∀ chain, (chainChildren (x :: history) chain : Int) ≤ cfg.maxChainChildren

/-- An item that fits is enqueued. -/
theorem enqueue (h : Chains cfg history s) {x : Enqueued} {budget : Nat → Nat} {cells : Nat}
    (hfits : Fits cfg history s x budget cells) {t : CrawlRun}
    (hpending : t.engine.pending = s.engine.pending.insert x.item.counter x.item false)
    (hcounter : t.engine.counter = s.engine.counter + 1)
    (hqueue : ∀ a ∈ t.engine.queue, a = x.item ∨ a ∈ s.engine.queue)
    (hbusy : ∀ b ∈ t.busy, ∃ b' ∈ s.busy, b'.page = b.page) (hbudget : t.engine.budget = budget)
    (hcells : t.nextCell = cells) : Chains cfg (x :: history) t := by
  have hitems : ∀ e ∈ t.engine.pending.items,
      e ∈ s.engine.pending.items ∨ e = (x.item.counter, x.item) := by
    intro e he
    rw [hpending] at he
    exact Dict.of_mem_items_insert he
  have hlive : ∀ a, t.Live a → s.Live a ∨ a = x.item := by
    rintro a (ha | ha | ⟨b, hb, rfl⟩)
    · obtain ⟨e, he, rfl⟩ := List.mem_map.mp ha
      rcases hitems e he with hold | rfl
      · exact Or.inl (Or.inl (List.mem_map_of_mem hold))
      · exact Or.inr rfl
    · exact (hqueue a ha).elim Or.inr fun hold => Or.inl (Or.inr (Or.inl hold))
    · obtain ⟨b', hb', heq⟩ := hbusy b hb
      exact Or.inl (Or.inr (Or.inr ⟨b', hb', heq⟩))
  have hchain : ∀ a, s.Live a → chainOf (x :: history) a.counter = chainOf history a.counter := by
    intro a ha
    have hle := h.counted a ha
    have hnew := hfits.counter
    exact chainOf_of_ne (by omega)
  refine ⟨?_, ?_, ?_, ?_, ?_, ?_, ?_, hfits.bounded⟩
  · intro e he
    rcases hitems e he with hold | rfl
    · have hkeyed := h.keyed e hold
      exact ⟨hkeyed.1, by omega⟩
    · exact ⟨rfl, hcounter ▸ Nat.le_of_eq hfits.counter⟩
  · intro y hy
    rcases List.mem_cons.mp hy with rfl | hold
    · rw [hcounter, hfits.counter]
    · have := h.known y hold
      omega
  · intro a ha
    rcases hlive a ha with hold | rfl
    · have := h.counted a hold
      omega
    · rw [hcounter, hfits.counter]
  · intro a ha c hc
    rw [hcells]
    rcases hlive a ha with hold | rfl
    · exact Nat.lt_of_lt_of_le (h.cell a hold c hc) hfits.grows
    · exact hfits.cell c hc
  · intro a ha
    rcases hlive a ha with hold | rfl
    · rw [hchain a hold]
      exact h.chained a hold
    · exact hfits.chained
  · intro a b ha hb c d hc hd
    rcases hlive a ha with holda | rfl <;> rcases hlive b hb with holdb | rfl
    · rw [hchain a holda, hchain b holdb]
      exact h.shared a b holda holdb c d hc hd
    · rw [hchain a holda]
      exact hfits.shared a holda c d hc hd
    · rw [hchain b holdb]
      exact eq_comm.trans ((hfits.shared b holdb d c hd hc).trans eq_comm)
    · exact iff_of_true (Option.some.inj (hc.symm.trans hd)) rfl
  · intro a ha c chain hc hchained
    rw [hbudget]
    rcases hlive a ha with hold | rfl
    · rw [hchain a hold] at hchained
      exact hfits.others a hold c chain hc hchained
    · exact hfits.value c chain hc hchained

/-- An item that fits is enqueued from a page. -/
theorem added (h : Chains cfg history s) {i cells : Nat} {page : QueueItem} {state : PageState}
    {budget : Nat → Nat} (hget : s.busy[i]? = some ⟨page, state⟩) (rest : PageLinks)
    {args : EnqueueArgs} {origin : Origin}
    (hfits : Fits cfg history s ⟨s.engine.newItem cfg.toUrlRules args, origin⟩ budget cells) :
    Chains cfg (⟨s.engine.newItem cfg.toUrlRules args, origin⟩ :: history)
      (CrawlRun.added cfg { s with
        engine := { s.engine with budget := budget }, nextCell := cells } i page rest args
        origin) := by
  refine h.enqueue hfits (by rfl) (by rfl) (fun a ha => ?_) (fun b hb => ?_) (by rfl) (by rfl)
  · exact (List.mem_orderedInsert ..).mp ha
  · rcases List.mem_or_eq_of_mem_set hb with hold | rfl
    · exact ⟨b, hold, rfl⟩
    · exact ⟨_, List.mem_of_getElem? hget, rfl⟩

/-! ### The links of a page -/

/-- The child of a page. -/
theorem fits_link (h : Chains cfg history s) {page : QueueItem} {args : EnqueueArgs}
    (hnone : args.chainBudget = none) {budget : Nat → Nat}
    (hvalue : ∀ a, s.Live a → ∀ c chain, a.chainBudget = some c →
      chainOf history a.counter = some chain → budget c =
        (if chainOf history page.counter = some chain then 1 else 0) + chainChildren history chain)
    (hbound : ∀ chain, chainOf history page.counter = some chain →
      (chainChildren history chain : Int) + 1 ≤ cfg.maxChainChildren) :
    Fits cfg history s ⟨s.engine.newItem cfg.toUrlRules args, .link page.counter⟩ budget
      s.nextCell where
  counter := rfl
  grows := Nat.le_refl _
  cell c hc := by
    cases hnone.symm.trans hc
  chained := by
    rw [chainOf, if_pos rfl]
    exact iff_of_true hnone rfl
  shared a ha c d hc hd := by
    cases hnone.symm.trans hd
  value c chain hc := by
    cases hnone.symm.trans hc
  others := hvalue
  bounded chain := by
    rw [chainChildren]
    dsimp only
    by_cases hpage : chainOf history page.counter = some chain
    · rw [if_pos hpage]
      have := hbound chain hpage
      omega
    · rw [if_neg hpage, Nat.zero_add]
      exact h.bounded chain

/-- The child of a page that is in no chain. -/
theorem fits_child (h : Chains cfg history s) {page : QueueItem} (hpage : s.Live page)
    (hcell : page.chainBudget = none) {args : EnqueueArgs} (hnone : args.chainBudget = none) :
    Fits cfg history s ⟨s.engine.newItem cfg.toUrlRules args, .link page.counter⟩ s.engine.budget
      s.nextCell := by
  have hchain : chainOf history page.counter = none := (h.chained page hpage).mp hcell
  refine h.fits_link hnone (fun a ha c chain hc hac => ?_) fun chain hpc => ?_
  · rw [hchain, if_neg nofun, Nat.zero_add]
    exact h.value a ha c chain hc hac
  · cases hchain.symm.trans hpc

/-- The child of a page of a chain is paid for. -/
theorem fits_chainChild (h : Chains cfg history s) {page : QueueItem} (hpage : s.Live page)
    {cell : Nat} (hcell : page.chainBudget = some cell)
    (hroom : (s.engine.budget cell : Int) < cfg.maxChainChildren) {args : EnqueueArgs}
    (hnone : args.chainBudget = none) :
    Fits cfg history s ⟨s.engine.newItem cfg.toUrlRules args, .link page.counter⟩
      (fun c => if c = cell then s.engine.budget cell + 1 else s.engine.budget c)
      s.nextCell := by
  refine h.fits_link hnone (fun a ha c chain hc hac => ?_) fun chain hpc => ?_
  · have hshared := h.shared a page ha hpage c cell hc hcell
    have hvalue := h.value a ha c chain hc hac
    rw [hac] at hshared
    by_cases heq : c = cell
    · rw [if_pos heq, if_pos (hshared.mp heq).symm, ← heq, hvalue, Nat.add_comm]
    · rw [if_neg heq, if_neg fun hpc => heq (hshared.mpr hpc.symm), Nat.zero_add]
      exact hvalue
  · have hvalue := h.value page hpage cell chain hcell hpc
    omega

/-- The pagination link of a page of a chain leads along the chain. -/
theorem fits_along (h : Chains cfg history s) {page : QueueItem} (hpage : s.Live page)
    {cell : Nat} (hcell : page.chainBudget = some cell) {args : EnqueueArgs}
    (hargs : args.chainBudget = some cell) :
    Fits cfg history s ⟨s.engine.newItem cfg.toUrlRules args, .pagination page.counter⟩
      s.engine.budget s.nextCell := by
  obtain ⟨chain, hchain⟩ := h.exists_chain hpage hcell
  have hnew := chainOf_pagination history (s.engine.newItem cfg.toUrlRules args) page.counter
  rw [hchain, Option.getD_some] at hnew
  refine ⟨rfl, Nat.le_refl _, fun c hc => ?_, ?_, fun a ha c d hc hd => ?_,
    fun c chain' hc hc' => ?_, fun a ha c chain' hc hac => ?_, fun chain' => ?_⟩
  · obtain rfl : cell = c := Option.some.inj (hargs.symm.trans hc)
    exact h.cell page hpage cell hcell
  · rw [hnew]
    refine iff_of_false (fun hnone => ?_) nofun
    cases hargs.symm.trans hnone
  · obtain rfl : cell = d := Option.some.inj (hargs.symm.trans hd)
    rw [hnew, ← hchain]
    exact h.shared a page ha hpage c cell hc hcell
  · obtain rfl : cell = c := Option.some.inj (hargs.symm.trans hc)
    rw [hnew] at hc'
    obtain rfl : chain = chain' := Option.some.inj hc'
    rw [chainChildren_pagination]
    exact h.value page hpage cell chain hcell hchain
  · rw [chainChildren_pagination]
    exact h.value a ha c chain' hc hac
  · rw [chainChildren_pagination]
    exact h.bounded chain'

/-- The pagination link of any other page starts a chain, with a cell of its own. -/
theorem fits_start (h : Chains cfg history s) {page : QueueItem} (hpage : s.Live page)
    (hcell : page.chainBudget = none) {args : EnqueueArgs}
    (hargs : args.chainBudget = some s.nextCell) :
    Fits cfg history s ⟨s.engine.newItem cfg.toUrlRules args, .pagination page.counter⟩
      (fun c => if c = s.nextCell then 0 else s.engine.budget c) (s.nextCell + 1) := by
  have hchain : chainOf history page.counter = none := (h.chained page hpage).mp hcell
  have hnew := chainOf_pagination history (s.engine.newItem cfg.toUrlRules args) page.counter
  rw [hchain, Option.getD_none] at hnew
  have hfresh : ∀ x ∈ history, x.item.counter ≠ s.engine.counter + 1 := fun x hx =>
    Nat.ne_of_lt (Nat.lt_succ_of_le (h.known x hx))
  refine ⟨rfl, Nat.le_succ _, fun c hc => ?_, ?_, fun a ha c d hc hd => ?_,
    fun c chain' hc hc' => ?_, fun a ha c chain' hc hac => ?_, fun chain' => ?_⟩
  · obtain rfl : s.nextCell = c := Option.some.inj (hargs.symm.trans hc)
    exact Nat.lt_succ_self _
  · rw [hnew]
    refine iff_of_false (fun hnone => ?_) nofun
    cases hargs.symm.trans hnone
  · obtain rfl : s.nextCell = d := Option.some.inj (hargs.symm.trans hd)
    rw [hnew]
    refine iff_of_false (Nat.ne_of_lt (h.cell a ha c hc)) fun hac => ?_
    obtain ⟨x, hx, heq⟩ := mem_of_chainOf hac
    exact hfresh x hx heq
  · obtain rfl : s.nextCell = c := Option.some.inj (hargs.symm.trans hc)
    rw [hnew] at hc'
    obtain rfl : s.engine.counter + 1 = chain' := Option.some.inj hc'
    rw [chainChildren_pagination, if_pos rfl, chainChildren_eq_zero hfresh]
  · rw [chainChildren_pagination, if_neg (Nat.ne_of_lt (h.cell a ha c hc))]
    exact h.value a ha c chain' hc hac
  · rw [chainChildren_pagination]
    exact h.bounded chain'

/-! ### Runs -/

theorem work (h : Chains cfg history s) {a : WorkerAction} {s' : CrawlRun}
    (hworks : CrawlRun.Works cfg pages s a s') {older : List Enqueued}
    (hhistory : history = s.enqueued ++ older) : Chains cfg (s'.enqueued ++ older) s' := by
  subst hhistory
  have hlive : ∀ {i : Nat} {page : QueueItem} {state : PageState},
      s.busy[i]? = some ⟨page, state⟩ → s.Live page := fun hget =>
    Or.inr (Or.inr ⟨_, List.mem_of_getElem? hget, rfl⟩)
  cases hworks with
  | @take page queue hqueue =>
      refine h.shrink (fun a ha => ?_) h.keyed rfl rfl rfl
      rcases ha with ha | ha | ⟨b, hb, rfl⟩
      · exact Or.inl ha
      · exact Or.inr (Or.inl (hqueue ▸ List.mem_cons_of_mem _ ha))
      · rcases List.mem_append.mp hb with hold | hnew
        · exact Or.inr (Or.inr ⟨b, hold, rfl⟩)
        · obtain rfl := List.mem_singleton.mp hnew
          exact Or.inr (Or.inl (hqueue ▸ List.mem_cons_self ..))
  | @moves _ i page _ _ _ hget =>
      refine h.shrink (fun a ha => ?_) h.keyed rfl rfl rfl
      rcases ha with ha | ha | ⟨b, hb, rfl⟩
      · exact Or.inl ha
      · exact Or.inr (Or.inl ha)
      · rcases List.mem_or_eq_of_mem_set hb with hold | rfl
        · exact Or.inr (Or.inr ⟨b, hold, rfl⟩)
        · exact hlive hget
  | finish hget =>
      refine h.shrink (fun a ha => ?_) (fun e he => h.keyed e (Dict.mem_items_erase.mp he).1)
        rfl rfl rfl
      rcases ha with ha | ha | ⟨b, hb, rfl⟩
      · obtain ⟨e, he, rfl⟩ := List.mem_map.mp ha
        exact Or.inl (List.mem_map_of_mem (Dict.mem_items_erase.mp he).1)
      · exact Or.inr (Or.inl ha)
      · exact Or.inr (Or.inr ⟨b, List.mem_of_mem_eraseIdx hb, rfl⟩)
  | @hop i page links link left hget =>
      cases hcell : page.chainBudget with
      | some cell =>
          have hbudget : s.childBudget page = (s, cell) := by rw [CrawlRun.childBudget, hcell]
          rw [hbudget]
          exact h.added hget _ (h.fits_along (hlive hget) hcell rfl)
      | none =>
          have hbudget : s.childBudget page = (s.newCell, s.nextCell) := by
            rw [CrawlRun.childBudget, hcell]
          rw [hbudget]
          exact h.added hget _ (h.fits_start (hlive hget) hcell rfl)
  | chainChild hget _ hcell hroom =>
      exact h.added hget _ (h.fits_chainChild (hlive hget) hcell hroom rfl)
  | child hget _ hcell =>
      exact h.added hget _ (h.fits_child (hlive hget) hcell rfl)

/-- The seeds of a life. -/
theorem putSeeds (h : Chains cfg history s) {older : List Enqueued}
    (hhistory : history = s.enqueued ++ older) (seeds : List (String × Option Nat)) :
    Chains cfg ((seeds.foldl (CrawlRun.putSeed cfg) s).enqueued ++ older)
      (seeds.foldl (CrawlRun.putSeed cfg) s) := by
  subst hhistory
  induction seeds generalizing s with
  | nil => exact h
  | cons seed seeds ih =>
      refine ih ?_
      rcases CrawlRun.putSeed_cases cfg s seed with ⟨item, hitem, heq⟩ | ⟨skipped, heq⟩
      · rw [heq]
        have hchain : chainOf (⟨item, .seed⟩ :: (s.enqueued ++ older)) item.counter = none := by
          rw [chainOf, if_pos rfl]
        have hsame : ∀ chain, chainChildren (⟨item, .seed⟩ :: (s.enqueued ++ older)) chain =
            chainChildren (s.enqueued ++ older) chain := fun chain => Nat.zero_add _
        have hfits : Fits cfg (s.enqueued ++ older) s ⟨item, .seed⟩ s.engine.budget s.nextCell := by
          refine ⟨hitem.counter, Nat.le_refl _, fun c hc => ?_, iff_of_true hitem.chainBudget hchain,
            fun a ha c d hc hd => ?_, fun c chain hc => ?_, fun a ha c chain hc hac => ?_,
            fun chain => ?_⟩
          · cases hitem.chainBudget.symm.trans hc
          · cases hitem.chainBudget.symm.trans hd
          · cases hitem.chainBudget.symm.trans hc
          · rw [hsame]
            exact h.value a ha c chain hc hac
          · rw [hsame]
            exact h.bounded chain
        exact h.enqueue hfits rfl rfl (fun a ha => (List.mem_orderedInsert ..).mp ha)
          (fun b hb => ⟨b, hb, rfl⟩) rfl rfl
      · rw [heq]
        exact h.shrink (fun a ha => ha) h.keyed rfl rfl rfl

/-! ### Resuming -/

/-- Items have the cells of the snapshot when they come back. -/
theorem restore_cell_lt {chains : List (String × Nat)} {it : SavedItem} {cell : Nat}
    (h : (it.restore chains).chainBudget = some cell) : cell < chains.length := by
  obtain ⟨key, -, hfind⟩ := Option.bind_eq_some_iff.mp h
  exact (List.findIdx?_eq_some_iff_findIdx_eq.mp hfind).1

section Restored

variable {e back : Engine} {k : Nat} {a a' : QueueItem}

/-- What is live after a rehydration is an item that was pending. -/
theorem live_restored (h : e.Restores back) {visited : List String} {nextCell unfinished : Nat}
    (ha' : CrawlRun.Live
      { engine := { back with visited := visited }, nextCell := nextCell
        unfinished := unfinished } a') :
    ∃ k a, (k, a') ∈ back.pending.items ∧ (k, a) ∈ e.pending.items ∧ a.plain = a'.plain := by
  have hpending : a' ∈ back.pending.values := by
    rcases ha' with ha' | ha' | ⟨b, hb, -⟩
    · exact ha'
    · exact h.queue.mem_iff.mp ha'
    · cases hb
  obtain ⟨⟨k, a''⟩, hk, heq⟩ := List.mem_map.mp hpending
  obtain rfl : a'' = a' := heq
  have hplain : Prod.map id QueueItem.plain (k, a'') ∈
      e.pending.items.map (Prod.map id QueueItem.plain) := by
    rw [← h.pending]
    exact List.mem_map_of_mem hk
  obtain ⟨⟨l, a⟩, ha, heq⟩ := List.mem_map.mp hplain
  obtain ⟨hkey, hitem⟩ := Prod.mk.inj heq
  obtain rfl : l = k := hkey
  exact ⟨l, a, hk, ha, hitem⟩

/-- An item has a cell if and only if it had one. -/
theorem chainBudget_restored (h : e.Restores back) (ha : (k, a) ∈ e.pending.items)
    (ha' : (k, a') ∈ back.pending.items) : a'.chainBudget = none ↔ a.chainBudget = none := by
  have hbudget := h.budget k a a' ha ha'
  rw [← Option.map_eq_none_iff (f := back.budget), hbudget, Option.map_eq_none_iff]

theorem exists_cell_of_restored (h : e.Restores back) (ha : (k, a) ∈ e.pending.items)
    (ha' : (k, a') ∈ back.pending.items) {c : Nat} (hc : a'.chainBudget = some c) :
    ∃ c', a.chainBudget = some c' := by
  refine Option.ne_none_iff_exists'.mp fun hno => ?_
  rw [(chainBudget_restored h ha ha').mpr hno] at hc
  cases hc

end Restored

/-- A snapshot comes back with all of its chains. -/
theorem resumed (h : Chains cfg history s) (visitedBootstrap : List String) :
    Chains cfg history
      { engine := Engine.init cfg.toUrlRules visitedBootstrap (some s.engine.checkpoint)
        nextCell := s.engine.checkpoint.chains.length
        unfinished := s.engine.checkpoint.items.length } := by
  obtain ⟨visited, hinit, -, -⟩ := init_eq cfg.toUrlRules visitedBootstrap s.engine.checkpoint
  obtain ⟨-, -, -, hsaved⟩ := init_effect cfg.toUrlRules visitedBootstrap s.engine.checkpoint
  have hrestores := h.keyed.restores
  rw [hinit] at hsaved ⊢
  generalize Engine.rehydrate {} s.engine.checkpoint = back at hrestores hsaved ⊢
  have hold : ∀ {k : Nat} {a : QueueItem}, (k, a) ∈ s.engine.pending.items → s.Live a :=
    fun ha => Or.inl (List.mem_map_of_mem ha)
  have hcounter : ∀ {a a' : QueueItem}, a.plain = a'.plain → a'.counter = a.counter :=
    fun heq => (congrArg QueueItem.counter heq).symm
  refine ⟨hrestores.keyed h.keyed, fun x hx => ?_, fun a' ha' => ?_, fun a' ha' c hc => ?_,
    fun a' ha' => ?_, fun a' b' ha' hb' c d hc hd => ?_, fun a' ha' c chain hc hchain => ?_,
    h.bounded⟩
  · exact hrestores.counter ▸ h.known x hx
  · obtain ⟨k, a, -, ha, hplain⟩ := live_restored hrestores ha'
    rw [hcounter hplain]
    exact hrestores.counter ▸ h.counted a (hold ha)
  · obtain ⟨k, a, hk, -, -⟩ := live_restored hrestores ha'
    obtain ⟨it, -, hit⟩ := hsaved _ hk
    obtain rfl : a' = it.restore s.engine.checkpoint.chains := (Prod.mk.inj hit).2
    exact restore_cell_lt hc
  · obtain ⟨k, a, hk, ha, hplain⟩ := live_restored hrestores ha'
    rw [chainBudget_restored hrestores ha hk, hcounter hplain]
    exact h.chained a (hold ha)
  · obtain ⟨k, a, hk, ha, hplain⟩ := live_restored hrestores ha'
    obtain ⟨l, b, hl, hb, hplainb⟩ := live_restored hrestores hb'
    have hshares := hrestores.shares k a a' l b b' ha hk hb hl
    rw [hcounter hplain, hcounter hplainb]
    obtain ⟨c', hc'⟩ := exists_cell_of_restored hrestores ha hk hc
    obtain ⟨d', hd'⟩ := exists_cell_of_restored hrestores hb hl hd
    rw [← h.shared a b (hold ha) (hold hb) c' d' hc' hd']
    constructor
    · rintro rfl
      obtain ⟨x, hx, hy⟩ := hshares.mp ⟨c, hc, hd⟩
      exact (Option.some.inj (hc'.symm.trans hx)).trans (Option.some.inj (hy.symm.trans hd'))
    · rintro rfl
      obtain ⟨x, hx, hy⟩ := hshares.mpr ⟨c', hc', hd'⟩
      exact (Option.some.inj (hc.symm.trans hx)).trans (Option.some.inj (hy.symm.trans hd))
  · obtain ⟨k, a, hk, ha, hplain⟩ := live_restored hrestores ha'
    have hbudget := hrestores.budget k a a' ha hk
    rw [hc, Option.map_some] at hbudget
    obtain ⟨c', hc', hvalue⟩ := Option.map_eq_some_iff.mp hbudget.symm
    rw [hcounter hplain] at hchain
    exact hvalue.symm.trans (h.value a (hold ha) c' chain hc' hchain)

end Chains

namespace Lives

/-- What carries the budgets over a crash. -/
structure Budgeted (cfg : CrawlerConfig) (s : Lives) : Prop where
  now : Chains cfg s.history s.now
  saved : ∀ taken ∈ s.saved, ∃ run : CrawlRun,
    taken.frontier = run.engine.checkpoint ∧ Chains cfg taken.history run

variable {s s' : Lives}

theorem Budgeted.fresh (hcap : 0 ≤ cfg.maxChainChildren) (visited : List String) :
    Chains cfg [] { engine := { visited } } := by
  have hlive : ∀ a, ¬CrawlRun.Live { engine := { visited } } a := by
    rintro a (ha | ha | ⟨b, hb, -⟩)
    · cases ha
    · cases ha
    · cases hb
  exact ⟨fun e he => (nomatch he), fun x hx => (nomatch hx), fun a ha => absurd ha (hlive a),
    fun a ha => absurd ha (hlive a), fun a ha => absurd ha (hlive a),
    fun a _ ha => absurd ha (hlive a), fun a ha => absurd ha (hlive a), fun _ => hcap⟩

theorem Budgeted.restart (hcap : 0 ≤ cfg.maxChainChildren) (h : s.Budgeted cfg)
    {seeds : List (String × Option Nat)} {visitedBootstrap : List String} {taken : Option Taken}
    (htaken : ∀ t ∈ taken, t ∈ s.saved)
    (hs : s.restart cfg seeds visitedBootstrap taken = some s') : s'.Budgeted cfg := by
  obtain ⟨now, hstart, rfl⟩ := Option.map_eq_some_iff.mp hs
  refine ⟨?_, h.saved⟩
  cases taken with
  | none =>
      dsimp only [CrawlRun.start, Option.map] at hstart
      split at hstart
      · cases hstart
      · obtain rfl := Option.some.inj hstart
        exact (Budgeted.fresh hcap _).putSeeds rfl seeds
  | some t =>
      obtain ⟨run, hfrontier, hchains⟩ := h.saved t (htaken t rfl)
      obtain rfl := Option.some.inj hstart
      dsimp only [Option.map]
      rw [hfrontier]
      exact hchains.resumed visitedBootstrap

theorem budgeted_step (hcap : 0 ≤ cfg.maxChainChildren) {a : LifeAction} (h : s.Budgeted cfg)
    (hs : s.step cfg pages a = some s') : s'.Budgeted cfg := by
  cases a with
  | work a =>
      obtain ⟨now, hnow, rfl⟩ := Option.map_eq_some_iff.mp hs
      exact ⟨h.now.work (CrawlRun.works_of_step hnow) rfl, h.saved⟩
  | checkpoint =>
      obtain rfl := Option.some.inj hs
      refine ⟨h.now, fun taken htaken => ?_⟩
      rcases List.mem_append.mp htaken with hold | hnew
      · exact h.saved taken hold
      · obtain rfl := List.mem_singleton.mp hnew
        exact ⟨s.now, rfl, h.now⟩
  | restart seeds visitedBootstrap snapshot =>
      cases snapshot with
      | none =>
          refine h.restart hcap (fun t ht => ?_) hs
          cases ht
      | some i =>
          dsimp only [step] at hs
          split at hs
          · cases hs
          · rename_i taken hget
            refine h.restart hcap (fun t ht => ?_) hs
            obtain rfl : taken = t := Option.some.inj ht
            exact List.mem_of_getElem? hget

end Lives

/--
**The budget is the chain's.**  However the workers take turns and however often the crawl
dies and resumes: a page in a chain shares its cell with the pages of its chain and with no
other, and of all children in the history that survives, no more than `max_chain_children`
were enqueued from the pages of one chain.
-/
theorem chain_budget_global (cfg : CrawlerConfig) (pages : PageRules)
    (hcap : 0 ≤ cfg.maxChainChildren) (as : List LifeAction) (s : Lives)
    (hrun : run (Lives.step cfg pages) {} as = some s) :
    (∀ a b, s.now.Live a → s.now.Live b → a.chainBudget ≠ none →
      (a.SharesCell b ↔ chainOf s.history a.counter = chainOf s.history b.counter)) ∧
      ∀ chain, (chainChildren s.history chain : Int) ≤ cfg.maxChainChildren := by
  have h0 : Lives.Budgeted cfg {} :=
    ⟨Lives.Budgeted.fresh hcap [], fun _ ht => (nomatch ht)⟩
  have h : s.Budgeted cfg :=
    run_invariant' (fun _ _ _ h hs => Lives.budgeted_step hcap h hs) h0 hrun
  refine ⟨fun a b ha hb hcell => ?_, h.now.bounded⟩
  obtain ⟨c, hc⟩ := Option.ne_none_iff_exists'.mp hcell
  constructor
  · rintro ⟨d, hda, hdb⟩
    exact (h.now.shared a b ha hb d d hda hdb).mp rfl
  · intro heq
    cases hb' : b.chainBudget with
    | none =>
        rw [(h.now.chained b hb).mp hb', ← h.now.chained a ha, hc] at heq
        cases heq
    | some d =>
        obtain rfl := (h.now.shared a b ha hb c d hc hb').mpr heq
        exact ⟨c, hc, hb'⟩

/-- The second page of a listing is read, the crawl dies, and it is read again. -/
def rereadListing : List LifeAction :=
  [.restart [("/staff", none)] [] none, .work .take] ++
    (seesThrough 0 staffLinks).map .work ++ [.work (.finish 0), .work .take] ++
    (seesThrough 0 [⟨"/dentist", "Dentist", []⟩]).map .work ++
    [.checkpoint, .restart [] [] (some 0), .work .take] ++
    (seesThrough 0 [⟨"/dentist", "Dentist", []⟩, ⟨"/vet", "Vet", []⟩]).map .work

/-- The dentist is all that the listing leads to. -/
theorem dentist_budget :
    ∃ s, run (Lives.step townCrawl townPages) {} rereadListing = some s ∧
      chainChildren s.history 2 = 1 ∧ (chainChildren s.history 2 : Int) ≤ 1 := by
  refine ⟨_, rfl, by decide +kernel, ?_⟩
  exact (chain_budget_global townCrawl townPages (by decide) rereadListing _ rfl).2 2

end GovCrawler
