/-
What comes back from a checkpoint that nothing disturbs.

`_save_checkpoint` numbers the budget cells in the order in which it meets them, and saves
the number with each item and the value once; `_rehydrate_frontier` makes one cell for each
number.  So the cells that come back are the old ones under other names, and that is what
`Restores` says: every field of every item is as it was, and so are the values in the cells
and who shares them.

`frontier_round_trip` says it of every state a crawl can be in, and that no counter is given
out twice afterwards.
-/
import GovCrawler.Crawler.Closure
import GovCrawler.Lib.Numbering

namespace GovCrawler

open OrderedDict Transition

/-! ### Saving and loading -/

/-- `_save_checkpoint`, in one go. -/
def Engine.checkpoint (e : Engine) : Frontier :=
  let acc : Collected := e.pending.values.foldl (fun acc item => acc.add e.budget item) {}
  (Field.all.foldl (fun (f : Frontier) field => f.read e field) {}).collect acc

/-- The `frontier` table of the local store: one snapshot per job. -/
abbrev FrontierTable : Type := Nat → Option Frontier

def FrontierTable.saveFrontier (table : FrontierTable) (jobId : Nat) (snapshot : Frontier) :
    FrontierTable :=
  fun id => if id = jobId then some snapshot else table id

def FrontierTable.loadFrontier (table : FrontierTable) (jobId : Nat) : Option Frontier :=
  table jobId

theorem FrontierTable.loadFrontier_saveFrontier (table : FrontierTable) (jobId : Nat)
    (snapshot : Frontier) : (table.saveFrontier jobId snapshot).loadFrontier jobId = some snapshot :=
  if_pos rfl

/-! ### What is the same -/

/-- An item but for its cell. -/
def QueueItem.plain (item : QueueItem) : QueueItem := { item with chainBudget := none }

/-- An item whose cell goes by another name. -/
def QueueItem.rename (cell : Nat → Nat) (item : QueueItem) : QueueItem :=
  { item with chainBudget := item.chainBudget.map cell }

/-- Two items have the same budget cell. -/
def QueueItem.SharesCell (a b : QueueItem) : Prop :=
  ∃ cell, a.chainBudget = some cell ∧ b.chainBudget = some cell

/-- `e'` has what `e` had, in cells of its own. -/
structure Engine.Restores (e e' : Engine) : Prop where
  pending : e'.pending.items.map (Prod.map id QueueItem.plain) =
    e.pending.items.map (Prod.map id QueueItem.plain)
  queue : e'.queue.Perm e'.pending.values
  visited : e'.visited = e.visited
  counter : e'.counter = e.counter
  skipped : e'.skipped = e.skipped
  maxDepthSeen : e'.maxDepthSeen = e.maxDepthSeen
  sessionVisitedCount : e'.sessionVisitedCount = e.sessionVisitedCount
  /-- The items `c` and `d` share their cell if and only if they did. -/
  shares : ∀ c a a' d b b', (c, a) ∈ e.pending.items → (c, a') ∈ e'.pending.items →
    (d, b) ∈ e.pending.items → (d, b') ∈ e'.pending.items → (a'.SharesCell b' ↔ a.SharesCell b)
  /-- A cell has the value that it had. -/
  budget : ∀ c a a', (c, a) ∈ e.pending.items → (c, a') ∈ e'.pending.items →
    a'.chainBudget.map e'.budget = a.chainBudget.map e.budget

/-! ### What is saved -/

/-- `cells` have been met, in this order, in `items`. -/
structure Collected.Met (budget : Nat → Nat) (acc : Collected) (cells : List Nat)
    (items : List QueueItem) : Prop where
  nodup : cells.Nodup
  mem : ∀ item ∈ items, ∀ cell, item.chainBudget = some cell → cell ∈ cells
  chainKeys : acc.chainKeys = cells.mapIdx fun n cell => (cell, toString n)
  chains : acc.chains = cells.mapIdx fun n cell => (toString n, budget cell)
  items : acc.items =
    items.map fun item => item.save (item.chainBudget.map fun cell => toString (cells.idxOf cell))

namespace Collected

variable {budget : Nat → Nat} {acc : Collected} {cells : List Nat} {items : List QueueItem}

/-- Meeting one more cell leaves what is saved already as it is. -/
theorem Met.items_note (h : acc.Met budget cells items) (cell : Nat) :
    acc.items = items.map fun item =>
      item.save (item.chainBudget.map fun c => toString ((Numbering.note cells cell).idxOf c)) := by
  rw [h.items]
  refine List.map_congr_left fun item hitem => ?_
  cases hcell : item.chainBudget with
  | none => rfl
  | some c =>
      rw [Option.map_some, Option.map_some, Numbering.idxOf_note (h.mem item hitem c hcell)]

/-- The next item meets its cell. -/
theorem Met.add (h : acc.Met budget cells items) (item : QueueItem) :
    ∃ cells', (acc.add budget item).Met budget cells' (items ++ [item]) := by
  cases hitem : item.chainBudget with
  | none =>
      have hadd : acc.add budget item = { acc with items := acc.items ++ [item.save none] } := by
        unfold Collected.add
        rw [hitem]
      rw [hadd]
      refine ⟨cells, h.nodup, ?_, h.chainKeys, h.chains, ?_⟩
      · intro i hi c hc
        rcases List.mem_append.mp hi with hi | hi
        · exact h.mem i hi c hc
        · obtain rfl := List.mem_singleton.mp hi
          cases hitem.symm.trans hc
      · show acc.items ++ [item.save none] = _
        rw [List.map_append, h.items, List.map_singleton, hitem]
        rfl
  | some cell =>
      have hmem : ∀ i ∈ items ++ [item], ∀ c, i.chainBudget = some c →
          c ∈ Numbering.note cells cell := by
        intro i hi c hc
        rcases List.mem_append.mp hi with hi | hi
        · exact Numbering.mem_note (h.mem i hi c hc) cell
        · obtain rfl := List.mem_singleton.mp hi
          obtain rfl := Option.some.inj (hitem.symm.trans hc)
          exact Numbering.mem_note_self cells cell
      have hitems : acc.items ++ [item.save (some (toString ((Numbering.note cells cell).idxOf cell)))] =
          (items ++ [item]).map fun i =>
            i.save (i.chainBudget.map fun c => toString ((Numbering.note cells cell).idxOf c)) := by
        rw [List.map_append, ← h.items_note cell, List.map_singleton, hitem]
        rfl
      have hlookup : acc.chainKeys.lookup cell =
          if cell ∈ cells then some (toString (cells.idxOf cell)) else none := by
        rw [h.chainKeys]
        exact Numbering.lookup_table _ cells cell
      by_cases hmet : cell ∈ cells
      · have hadd : acc.add budget item = { acc with
            items := acc.items ++ [item.save (some (toString (cells.idxOf cell)))] } := by
          unfold Collected.add
          rw [hitem]
          dsimp only
          rw [hlookup, if_pos hmet]
        rw [hadd]
        rw [Numbering.note_of_mem hmet] at hmem hitems
        exact ⟨cells, h.nodup, hmem, h.chainKeys, h.chains, hitems⟩
      · have hlength : acc.chainKeys.length = cells.length := by
          rw [h.chainKeys, List.length_mapIdx]
        have hadd : acc.add budget item = {
            chainKeys := acc.chainKeys ++ [(cell, toString cells.length)]
            chains := acc.chains ++ [(toString cells.length, budget cell)]
            items := acc.items ++ [item.save (some (toString cells.length))] } := by
          unfold Collected.add
          rw [hitem]
          dsimp only
          rw [hlookup, if_neg hmet]
          dsimp only
          rw [hlength]
        have hidx : (cells ++ [cell]).idxOf cell = cells.length := by
          rw [List.idxOf_append_of_notMem hmet, List.idxOf_cons_self]
          rfl
        rw [hadd]
        rw [Numbering.note_of_not_mem hmet] at hmem hitems
        rw [hidx] at hitems
        refine ⟨cells ++ [cell], ?_, hmem, ?_, ?_, hitems⟩
        · rw [← Numbering.note_of_not_mem hmet]
          exact Numbering.nodup_note h.nodup cell
        · show acc.chainKeys ++ [(cell, toString cells.length)] = _
          rw [List.mapIdx_concat, h.chainKeys]
        · show acc.chains ++ [(toString cells.length, budget cell)] = _
          rw [List.mapIdx_concat, h.chains]

/-- **What is collected** from all of the items. -/
theorem Met.foldl (h : acc.Met budget cells items) (rest : List QueueItem) :
    ∃ cells', (rest.foldl (fun acc item => acc.add budget item) acc).Met budget cells'
      (items ++ rest) := by
  induction rest generalizing acc cells items with
  | nil => exact ⟨cells, by rwa [List.append_nil]⟩
  | cons item rest ih =>
      obtain ⟨cells', hadd⟩ := h.add item
      obtain ⟨cells'', hrest⟩ := ih hadd
      refine ⟨cells'', ?_⟩
      rw [List.append_cons]
      exact hrest

theorem Met.empty (budget : Nat → Nat) : Met budget {} [] [] :=
  ⟨List.nodup_nil, fun _ h => (nomatch h), rfl, rfl, rfl⟩

end Collected

/-- **The snapshot**: the items with the numbers of their cells, and the values by number. -/
theorem checkpoint_effect (e : Engine) :
    ∃ acc cells, e.checkpoint = Frontier.collect ⟨e.visited, e.counter, e.skipped, e.maxDepthSeen,
      e.sessionVisitedCount, [], []⟩ acc ∧ acc.Met e.budget cells e.pending.values := by
  obtain ⟨cells, hmet⟩ := (Collected.Met.empty e.budget).foldl e.pending.values
  exact ⟨_, cells, rfl, hmet⟩

/-! ### What is restored -/

/-- An item comes back with the number of its cell for the cell. -/
theorem Collected.Met.restore {budget : Nat → Nat} {acc : Collected} {cells : List Nat}
    {items : List QueueItem} (h : acc.Met budget cells items) {item : QueueItem}
    (hitem : item ∈ items) :
    (item.save (item.chainBudget.map fun cell => toString (cells.idxOf cell))).restore acc.chains =
      item.rename fun cell => cells.idxOf cell := by
  have hback : (item.chainBudget.map fun cell => toString (cells.idxOf cell)).bind
      (fun key => acc.chains.findIdx? fun c => c.1 == key) =
      item.chainBudget.map fun cell => cells.idxOf cell := by
    cases hcell : item.chainBudget with
    | none => rfl
    | some cell =>
        have hmem : cell ∈ cells := h.mem item hitem cell hcell
        rw [h.chains]
        exact Numbering.findIdx?_keys Numbering.toString_injective cells budget
          (List.idxOf_lt_length_iff.mpr hmem)
  exact congrArg (fun cell => { item with chainBudget := cell }) hback

/-- Each of the cells has its value. -/
theorem Collected.Met.value {budget : Nat → Nat} {acc : Collected} {cells : List Nat}
    {items : List QueueItem} (h : acc.Met budget cells items) {cell : Nat} (hmem : cell ∈ cells) :
    ((acc.chains[cells.idxOf cell]?).map Prod.snd).getD 0 = budget cell := by
  have hlt : cells.idxOf cell < cells.length := List.idxOf_lt_length_iff.mpr hmem
  rw [h.chains, List.getElem?_mapIdx, List.getElem?_eq_getElem hlt, List.getElem_idxOf hlt]
  rfl

/-- `_rehydrate_frontier` puts items back in order, where none of them is there. -/
theorem putAll_items (chains : List (String × Nat)) (items : List SavedItem) (e : Engine)
    (hnodup : (items.map SavedItem.counter).Nodup)
    (hnew : ∀ it ∈ items, it.counter ∉ e.pending.items.map Prod.fst) :
    ∃ pending queue, items.foldl (fun e it => e.enqueuePut (it.restore chains) false) e =
        { e with pending := pending, queue := queue } ∧
      pending.items = e.pending.items ++ items.map (fun it => (it.counter, it.restore chains)) ∧
      queue.Perm (e.queue ++ items.map (SavedItem.restore chains)) := by
  induction items generalizing e with
  | nil =>
      refine ⟨e.pending, e.queue, rfl, ?_, ?_⟩
      · rw [List.map_nil, List.append_nil]
      · rw [List.map_nil, List.append_nil]
  | cons it items ih =>
      obtain ⟨hnot, hnodup⟩ := List.nodup_cons.mp hnodup
      obtain ⟨hit, hitems⟩ := List.forall_mem_cons.mp hnew
      have hinsert : (e.enqueuePut (it.restore chains) false).pending.items =
          e.pending.items ++ [(it.counter, it.restore chains)] := Dict.items_insert hit
      obtain ⟨pending, queue, heq, hpending, hqueue⟩ :=
        ih (e.enqueuePut (it.restore chains) false) hnodup (by
          intro it' hit' hmem
          rw [hinsert, List.map_append, List.mem_append] at hmem
          rcases hmem with hmem | hmem
          · exact hitems it' hit' hmem
          · refine hnot (List.mem_map.mpr ⟨it', hit', ?_⟩)
            exact List.mem_singleton.mp hmem)
      refine ⟨pending, queue, heq, ?_, ?_⟩
      · rw [hpending, hinsert, List.append_assoc]
        rfl
      · refine hqueue.trans ?_
        have hput : (e.enqueuePut (it.restore chains) false).queue.Perm
            (it.restore chains :: e.queue) := List.perm_orderedInsert _ _ _
        exact (hput.append_right _).trans List.perm_middle.symm

/-- What an engine that starts anew has from a snapshot. -/
theorem rehydrate_effect (f : Frontier) (hnodup : (f.items.map SavedItem.counter).Nodup) :
    ∃ pending queue, Engine.rehydrate {} f =
        { visited := f.visited, pending := pending, queue := queue, counter := f.counter
          skipped := f.skipped, maxDepthSeen := f.maxDepthSeen
          sessionVisitedCount := f.sessionVisitedCount
          budget := fun cell => ((f.chains[cell]?).map Prod.snd).getD 0 } ∧
      pending.items = f.items.map (fun it => (it.counter, it.restore f.chains)) ∧
      queue.Perm (f.items.map (SavedItem.restore f.chains)) := by
  obtain ⟨pending, queue, heq, hpending, hqueue⟩ := putAll_items f.chains f.items
    { visited := [] ++ f.visited.filter fun key => !([] : List String).contains key
      counter := max 0 f.counter
      skipped := f.skipped
      maxDepthSeen := f.maxDepthSeen
      sessionVisitedCount := f.sessionVisitedCount
      budget := fun cell => ((f.chains[cell]?).map Prod.snd).getD 0 } hnodup
    (fun _ _ hmem => nomatch hmem)
  refine ⟨pending, queue, heq.trans ?_, hpending, hqueue⟩
  simp

/-! ### The round trip -/

/-- Every pending item is under its own counter, and none is ahead of the engine's. -/
def Engine.Keyed (e : Engine) : Prop :=
  ∀ x ∈ e.pending.items, x.1 = x.2.counter ∧ x.1 ≤ e.counter

/-- What comes back under other names for the cells is what there was. -/
theorem restores_of_rename {e e' : Engine} {cell : Nat → Nat} {cells : List Nat}
    (hinj : ∀ c ∈ cells, ∀ d ∈ cells, cell c = cell d → c = d)
    (hmem : ∀ x ∈ e.pending.items, ∀ c, x.2.chainBudget = some c → c ∈ cells)
    (hpending : e'.pending.items = e.pending.items.map (Prod.map id (QueueItem.rename cell)))
    (hqueue : e'.queue.Perm e'.pending.values)
    (hbudget : ∀ c ∈ cells, e'.budget (cell c) = e.budget c)
    (hvisited : e'.visited = e.visited) (hcounter : e'.counter = e.counter)
    (hskipped : e'.skipped = e.skipped) (hdepth : e'.maxDepthSeen = e.maxDepthSeen)
    (hsession : e'.sessionVisitedCount = e.sessionVisitedCount) : e.Restores e' := by
  have hitem : ∀ {c a a'}, (c, a) ∈ e.pending.items → (c, a') ∈ e'.pending.items →
      a' = a.rename cell := by
    intro c a a' ha ha'
    refine Dict.eq_of_mem_items ha' ?_
    rw [hpending]
    exact List.mem_map.mpr ⟨(c, a), ha, rfl⟩
  refine ⟨?_, hqueue, hvisited, hcounter, hskipped, hdepth, hsession, ?_, ?_⟩
  · rw [hpending, List.map_map]
    rfl
  · intro c a a' d b b' ha ha' hb hb'
    obtain rfl := hitem ha ha'
    obtain rfl := hitem hb hb'
    constructor
    · rintro ⟨n, hna, hnb⟩
      obtain ⟨ca, hca, rfl⟩ := Option.map_eq_some_iff.mp hna
      obtain ⟨cb, hcb, heq⟩ := Option.map_eq_some_iff.mp hnb
      obtain rfl := hinj cb (hmem _ hb cb hcb) ca (hmem _ ha ca hca) heq
      exact ⟨cb, hca, hcb⟩
    · rintro ⟨c, hca, hcb⟩
      exact ⟨cell c, Option.map_eq_some_iff.mpr ⟨c, hca, rfl⟩,
        Option.map_eq_some_iff.mpr ⟨c, hcb, rfl⟩⟩
  · intro c a a' ha ha'
    obtain rfl := hitem ha ha'
    show (a.chainBudget.map cell).map e'.budget = _
    cases hc : a.chainBudget with
    | none => rfl
    | some c => exact congrArg some (hbudget c (hmem _ ha c hc))

theorem Engine.Restores.keyed {e e' : Engine} (h : e.Restores e') (hkeyed : e.Keyed) :
    e'.Keyed := by
  intro x hx
  have hplain : Prod.map id QueueItem.plain x ∈
      e.pending.items.map (Prod.map id QueueItem.plain) := by
    rw [← h.pending]
    exact List.mem_map.mpr ⟨x, hx, rfl⟩
  obtain ⟨y, hy, heq⟩ := List.mem_map.mp hplain
  obtain ⟨k, a⟩ := x
  obtain ⟨l, b⟩ := y
  obtain ⟨hkey, hitem⟩ := Prod.mk.inj heq
  have hkey : l = k := hkey
  have hcounter : b.plain.counter = a.plain.counter := by rw [hitem]
  subst hkey
  rw [h.counter]
  obtain ⟨hown, hle⟩ := hkeyed _ hy
  exact ⟨hown.trans hcounter, hle⟩

/-- **Rehydrating a checkpoint** restores the engine. -/
theorem Engine.Keyed.restores {e : Engine} (h : e.Keyed) :
    e.Restores (Engine.rehydrate {} e.checkpoint) := by
  obtain ⟨acc, cells, heq, hmet⟩ := checkpoint_effect e
  have hcounters : acc.items.map SavedItem.counter = e.pending.items.map Prod.fst := by
    rw [hmet.items, List.map_map]
    unfold Dict.values
    rw [List.map_map]
    refine List.map_congr_left fun x hx => ?_
    exact (h x hx).1.symm
  have hnodup : (e.checkpoint.items.map SavedItem.counter).Nodup := by
    rw [heq]
    show (acc.items.map SavedItem.counter).Nodup
    rw [hcounters]
    exact e.pending.nodup
  obtain ⟨pending, queue, hrehydrate, hpending, hqueue⟩ := rehydrate_effect e.checkpoint hnodup
  rw [heq] at hpending hqueue hrehydrate ⊢
  rw [hrehydrate]
  have hvalue : ∀ x ∈ e.pending.items, x.2 ∈ e.pending.values :=
    fun x hx => List.mem_map.mpr ⟨x, hx, rfl⟩
  have hitems : pending.items =
      e.pending.items.map (Prod.map id (QueueItem.rename fun cell => cells.idxOf cell)) := by
    rw [hpending]
    show acc.items.map (fun it => (it.counter, it.restore acc.chains)) = _
    rw [hmet.items, List.map_map]
    unfold Dict.values
    rw [List.map_map]
    exact List.map_congr_left fun x hx =>
      Prod.ext (h x hx).1.symm (hmet.restore (hvalue x hx))
  refine restores_of_rename (fun c hc d _ hcd => (List.idxOf_inj hc).mp hcd)
    (fun x hx c hc => hmet.mem x.2 (hvalue x hx) c hc) hitems ?_ (fun c hc => hmet.value hc)
    rfl rfl rfl rfl rfl
  refine hqueue.trans (List.Perm.of_eq ?_)
  show acc.items.map (SavedItem.restore acc.chains) = pending.items.map Prod.snd
  rw [hpending, List.map_map]
  rfl

/-! ### Every state of a crawl -/

namespace Crawl

variable {rules : UrlRules} {s t : Crawl}

/-- The items that the thread has collected have counters that were given out. -/
def ThreadCounted (s : Crawl) : Prop :=
  match s.thread with
  | .idle => True
  | .iterating _ acc => ∀ i ∈ acc.items, i.counter ≤ s.engine.counter
  | .reading acc snapshot left => ∀ i ∈ acc.items,
      i.counter ≤ s.engine.counter ∧ (.counter ∉ left → i.counter ≤ snapshot.counter)

/-- No counter is ahead, in memory and in what is saved, disturbed or not. -/
structure Counted (s : Crawl) : Prop where
  numbered : s.Numbered
  thread : s.ThreadCounted
  saved : ∀ f ∈ s.saved, f.frontier.WellCounted

/-- A step of the loop takes nothing from the thread. -/
theorem Counted.loop (h : s.Counted) (hnumbered : t.Numbered) (hthread : t.thread = s.thread)
    (hsaved : t.saved = s.saved) (hcounter : s.engine.counter ≤ t.engine.counter) : t.Counted := by
  refine ⟨hnumbered, ?_, hsaved ▸ h.saved⟩
  have hbefore := h.thread
  unfold ThreadCounted at hbefore ⊢
  rw [hthread]
  cases hth : s.thread with
  | idle => trivial
  | iterating it acc =>
      rw [hth] at hbefore
      exact fun i hi => Nat.le_trans (hbefore i hi) hcounter
  | reading acc snapshot left =>
      rw [hth] at hbefore
      exact fun i hi => ⟨Nat.le_trans (hbefore i hi).1 hcounter, (hbefore i hi).2⟩

theorem Counted.empty : Counted {} :=
  ⟨⟨fun _ he => (nomatch he), fun _ hi => (nomatch hi), fun _ hi => (nomatch hi),
    fun _ hc => (nomatch hc), fun _ hb => (nomatch hb)⟩, trivial, fun _ hf => (nomatch hf)⟩

theorem counted_step {a : CrawlAction} (h : s.Counted) (hstep : s.step rules a = some t) :
    t.Counted := by
  obtain ⟨u, hu, rfl⟩ := step_eq_some hstep
  generalize ((a != .begin && s.disturbed) || s.disturbs rules a) = d
  have hqueued := h.numbered.queued
  have htaken := h.numbered.taken
  have hthread := h.thread
  unfold ThreadCounted at hthread
  cases performs_of_perform hu with
  | @mark args hpc hgo =>
      obtain ⟨-, -, hcounter, -⟩ := enqueueMark_effect rules s.engine args
      exact h.loop (h.numbered.mark rules args _ d) rfl rfl (Nat.le_of_eq hcounter.symm)
  | @refuse args hpc hgo =>
      obtain ⟨hpending, hqueue, hcounter, -⟩ := enqueueMark_effect rules s.engine args
      exact h.loop (h.numbered.frame hpending hcounter (by rw [hqueue]; exact hqueued) htaken)
        rfl rfl (Nat.le_of_eq hcounter.symm)
  | build hpc => exact h.loop (h.numbered.build rules _ d) rfl rfl (Nat.le_succ _)
  | put compact hpc => exact h.loop (h.numbered.put hpc compact d) rfl rfl (Nat.le_refl _)
  | take hqueue hpc =>
      rw [hqueue] at hqueued
      obtain ⟨hitem, hrest⟩ := List.forall_mem_cons.mp hqueued
      exact h.loop (h.numbered.frame rfl rfl hrest (List.forall_mem_cons.mpr ⟨hitem, htaken⟩))
        rfl rfl (Nat.le_refl _)
  | process | fetched | skip | setBudget =>
      exact h.loop (h.numbered.frame rfl rfl hqueued htaken) rfl rfl (Nat.le_refl _)
  | finish hpc hitem =>
      exact h.loop (h.numbered.drop _ h.numbered.cancelled d) rfl rfl (Nat.le_refl _)
  | cancel hpc hitem =>
      exact h.loop (h.numbered.drop _
        (List.forall_mem_cons.mpr ⟨htaken _ hitem, h.numbered.cancelled⟩) d) rfl rfl (Nat.le_refl _)
  | begin hth => exact ⟨h.numbered.thread_step _ _ d, fun _ hi => (nomatch hi), h.saved⟩
  | nextRaises | saveFails => exact ⟨h.numbered.thread_step _ _ d, trivial, h.saved⟩
  | nextStops hth hnext =>
      rw [hth] at hthread
      exact ⟨h.numbered.thread_step _ _ d,
        fun i hi => ⟨hthread i hi, fun hleft => absurd (by decide) hleft⟩, h.saved⟩
  | @nextYields it rest acc item hth hnext =>
      rw [hth] at hthread
      refine ⟨h.numbered.thread_step _ _ d, ?_, h.saved⟩
      obtain ⟨k, hitems⟩ := acc.add_items s.engine.budget item
      intro i hi
      rw [hitems, List.mem_append, List.mem_singleton] at hi
      rcases hi with hi | rfl
      · exact hthread i hi
      · obtain ⟨counter, hmem⟩ := Dict.mem_items_of_yield hnext
        obtain ⟨heq, hle⟩ := h.numbered.keyed _ hmem
        exact Nat.le_trans (Nat.le_of_eq heq.symm) hle
  | @read acc snapshot field left hth =>
      rw [hth] at hthread
      refine ⟨h.numbered.thread_step _ _ d, ?_, h.saved⟩
      intro i hi
      obtain ⟨hle, hread⟩ := hthread i hi
      refine ⟨hle, fun hleft => ?_⟩
      by_cases hfield : field = .counter
      · subst hfield
        exact hle
      · rw [snapshot.read_counter s.engine hfield]
        exact hread (List.not_mem_cons_of_ne_of_not_mem (Ne.symm hfield) hleft)
  | save hth =>
      rw [hth] at hthread
      refine ⟨h.numbered.thread_step _ _ d, trivial, ?_⟩
      intro f hf
      rcases List.mem_append.mp hf with hf | hf
      · exact h.saved f hf
      · obtain rfl := List.mem_singleton.mp hf
        exact fun i hi => (hthread i hi).2 List.not_mem_nil
  | restart visitedBootstrap snapshot =>
      exact ⟨Numbered.start rules visitedBootstrap _
        (fun _ hf => wellCounted_of_snapshot h.saved hf) s.saved d, trivial, h.saved⟩

/-! ### Counters that are handed out later -/

/-- The process goes on. -/
def GoesOn (_ : Crawl) (a : CrawlAction) : Prop :=
  ∀ visitedBootstrap snapshot, a ≠ .restart visitedBootstrap snapshot

/-- A step of a process that goes on hands out counters above those that it has. -/
theorem step_counter {a : CrawlAction} (hstep : s.step rules a = some t) (ha : s.GoesOn a) :
    s.engine.counter ≤ t.engine.counter ∧
      ∀ item, t.enqueuePc = .built item →
        s.enqueuePc = .built item ∨ s.engine.counter < item.counter := by
  obtain ⟨u, hu, rfl⟩ := step_eq_some hstep
  show s.engine.counter ≤ u.engine.counter ∧ ∀ item, u.enqueuePc = .built item → _
  cases performs_of_perform hu with
  | @mark args =>
      obtain ⟨-, -, hcounter, -⟩ := enqueueMark_effect rules s.engine args
      exact ⟨Nat.le_of_eq hcounter.symm, fun _ hbuilt => nomatch hbuilt⟩
  | @refuse args =>
      obtain ⟨-, -, hcounter, -⟩ := enqueueMark_effect rules s.engine args
      exact ⟨Nat.le_of_eq hcounter.symm, fun _ hbuilt => Or.inl hbuilt⟩
  | build hpc =>
      refine ⟨Nat.le_succ _, fun item hbuilt => Or.inr ?_⟩
      obtain rfl := EnqueuePc.built.inj hbuilt
      exact Nat.lt_succ_self _
  | put compact hpc => exact ⟨Nat.le_refl _, fun _ hbuilt => nomatch hbuilt⟩
  | restart visitedBootstrap snapshot => exact absurd rfl (ha visitedBootstrap snapshot)
  | _ => exact ⟨Nat.le_refl _, fun _ hbuilt => Or.inl hbuilt⟩

/-- **Counters are fresh**: until the process starts again, whatever it builds has a counter
above all that it had. -/
theorem fresh_run {as : List CrawlAction} (hm : Meets (Crawl.step rules) GoesOn s as)
    (hr : run (Crawl.step rules) s as = some t) (hpc : ∀ item, s.enqueuePc ≠ .built item)
    {item : QueueItem} (hbuilt : t.enqueuePc = .built item) : s.engine.counter < item.counter := by
  have hstep : ∀ (u : Crawl) (a : CrawlAction) (v : Crawl),
      (s.engine.counter ≤ u.engine.counter ∧
        ∀ item, u.enqueuePc = .built item → s.engine.counter < item.counter) →
      u.GoesOn a → u.step rules a = some v →
      s.engine.counter ≤ v.engine.counter ∧
        ∀ item, v.enqueuePc = .built item → s.engine.counter < item.counter := by
    rintro u a v ⟨hle, hlt⟩ ha hs
    obtain ⟨hcounter, hitem⟩ := step_counter hs ha
    refine ⟨Nat.le_trans hle hcounter, fun item hbuilt => ?_⟩
    exact (hitem item hbuilt).elim (hlt item) fun hnew => Nat.lt_of_le_of_lt hle hnew
  exact (run_invariant hstep ⟨Nat.le_refl _, fun item h => absurd h (hpc item)⟩ hm hr).2 item hbuilt

/-! ### The thread, when nothing comes between its steps -/

/-- `_save_checkpoint` from its beginning to its end. -/
def checkpointAlone (s : Crawl) : List CrawlAction :=
  .begin :: (List.replicate (s.engine.pending.values.length + 1) .next ++
    [.read, .read, .read, .read, .read, .save])

theorem iterates_alone (rules : UrlRules) (s : Crawl) {vs : List QueueItem} {it : Dict.Iter}
    (hahead : s.engine.pending.Ahead it vs) (acc : Collected) (d : Bool) :
    ∃ d', run (Crawl.step rules) { s with thread := .iterating it acc, disturbed := d }
        (List.replicate (vs.length + 1) .next) =
      some { s with
        thread := .reading (vs.foldl (fun acc item => acc.add s.engine.budget item) acc) {} Field.all
        disturbed := d' } := by
  induction vs generalizing it acc d with
  | nil =>
      obtain ⟨d', hd'⟩ : ∃ d', Crawl.step rules
          { s with thread := .iterating it acc, disturbed := d } .next = some { s with
            thread := .reading acc {} Field.all, disturbed := d' } := by
        unfold step
        dsimp only [perform]
        rw [hahead.stop]
        exact ⟨_, rfl⟩
      exact ⟨d', run_cons_eq_some.mpr ⟨_, hd', rfl⟩⟩
  | cons v vs ih =>
      obtain ⟨rest, hnext, hrest⟩ := hahead.yield
      obtain ⟨d', hd'⟩ : ∃ d', Crawl.step rules
          { s with thread := .iterating it acc, disturbed := d } .next = some { s with
            thread := .iterating rest (acc.add s.engine.budget v), disturbed := d' } := by
        unfold step
        dsimp only [perform]
        rw [hnext]
        exact ⟨_, rfl⟩
      obtain ⟨d'', hd''⟩ := ih hrest (acc.add s.engine.budget v) d'
      exact ⟨d'', run_cons_eq_some.mpr ⟨_, hd', hd''⟩⟩

/-- **What the thread saves**, when nothing comes between its steps. -/
theorem saves_checkpoint (rules : UrlRules) (s : Crawl) (hidle : s.thread = .idle) :
    ∃ t, run (Crawl.step rules) s s.checkpointAlone = some t ∧ t.engine = s.engine ∧
      t.saved = s.saved ++ [⟨s.engine.checkpoint, s.discovered, s.finished⟩] := by
  obtain ⟨d, hbegin⟩ : ∃ d, s.step rules .begin = some { s with
      thread := .iterating s.engine.pending.iter {}, disturbed := d } := by
    unfold step
    dsimp only [perform]
    rw [hidle]
    exact ⟨_, rfl⟩
  obtain ⟨d', hiterated⟩ :=
    iterates_alone rules s (Dict.Ahead.start s.engine.pending) {} d
  obtain ⟨d'', hread⟩ : ∃ d'', run (Crawl.step rules) { s with
        thread := .reading (s.engine.pending.values.foldl
          (fun acc item => acc.add s.engine.budget item) {}) {} Field.all
        disturbed := d' } [.read, .read, .read, .read, .read, .save] = some { s with
      thread := .idle
      saved := s.saved ++ [⟨s.engine.checkpoint, s.discovered, s.finished⟩]
      disturbed := d'' } := ⟨_, rfl⟩
  have hr : run (Crawl.step rules) s s.checkpointAlone = some { s with
      thread := .idle
      saved := s.saved ++ [⟨s.engine.checkpoint, s.discovered, s.finished⟩]
      disturbed := d'' } := by
    refine run_cons_eq_some.mpr ⟨_, hbegin, ?_⟩
    rw [run_append, hiterated]
    exact hread
  exact ⟨_, hr, rfl, rfl⟩

end Crawl

/--
**The frontier round trip.**  Whatever state a crawl has come to, however often it was
interrupted: its checkpoint, saved, loaded and rehydrated into a fresh engine, restores its
items and their shared cells, and no counter is handed out again that one of them has.
-/
theorem frontier_round_trip (rules : UrlRules) {s : Crawl} {as : List CrawlAction}
    (hr : run (Crawl.step rules) {} as = some s) (table : FrontierTable) (jobId : Nat) :
    ∃ f, (table.saveFrontier jobId s.engine.checkpoint).loadFrontier jobId = some f ∧
      s.engine.Restores (Engine.rehydrate {} f) ∧
      ∀ (bs : List CrawlAction) (t : Crawl) (item : QueueItem),
        Meets (Crawl.step rules) Crawl.GoesOn { engine := Engine.rehydrate {} f } bs →
        run (Crawl.step rules) { engine := Engine.rehydrate {} f } bs = some t →
        t.enqueuePc = .built item →
        ∀ x ∈ (Engine.rehydrate {} f).pending.items, item.counter ≠ x.2.counter := by
  have hcounted : s.Counted :=
    run_invariant' (fun _ _ _ h hs => Crawl.counted_step h hs) Crawl.Counted.empty hr
  have hrestores := Engine.Keyed.restores hcounted.numbered.keyed
  refine ⟨s.engine.checkpoint, table.loadFrontier_saveFrontier jobId _, hrestores, ?_⟩
  intro bs t item hm hbs hbuilt x hx
  have hfresh := Crawl.fresh_run hm hbs (fun _ h => nomatch h) hbuilt
  obtain ⟨heq, hle⟩ := hrestores.keyed hcounted.numbered.keyed x hx
  exact Nat.ne_of_gt (Nat.lt_of_le_of_lt (Nat.le_trans (Nat.le_of_eq heq.symm) hle) hfresh)

/-! Two chains of a listing, and the home page. -/

def listingRules : UrlRules where
  urlsplit := fun url => some ⟨"city.gov", url, ""⟩
  lower := id

/-- A page is enqueued, with its chain's cell. -/
def listed (url : String) (chainBudget : Option Nat) : List CrawlAction :=
  [.enqueue { url, depth := 1, pageHops := 1, chainBudget }, .build, .put false]

/-- The first two pages of the one chain, and the first of the other. -/
def listing : List CrawlAction :=
  [.setBudget 5 12, .setBudget 9 30] ++ listed "/staff?page=2" (some 9) ++
    listed "/staff?page=3" (some 9) ++ listed "/" none ++ listed "/boards?page=2" (some 5)

theorem listing_restored :
    ∃ s f, run (Crawl.step listingRules) {} listing = some s ∧
      s.engine.Restores (Engine.rehydrate {} f) ∧
      (Engine.rehydrate {} f).pending.values.map QueueItem.chainBudget =
        [some 0, some 0, none, some 1] := by
  have hview : (run (Crawl.step listingRules) {} listing).map
      (fun s => (Engine.rehydrate {} s.engine.checkpoint).pending.values.map
        QueueItem.chainBudget) = some [some 0, some 0, none, some 1] := by decide +kernel
  obtain ⟨s, hr, hcells⟩ := Option.map_eq_some_iff.mp hview
  obtain ⟨f, hload, hrestores, -⟩ := frontier_round_trip listingRules hr (fun _ => none) 7
  rw [FrontierTable.loadFrontier_saveFrontier] at hload
  obtain rfl := Option.some.inj hload
  exact ⟨s, s.engine.checkpoint, hr, hrestores, hcells⟩

end GovCrawler
