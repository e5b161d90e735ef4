/-
Whether a saved snapshot has an item for every page it calls visited.

The argument follows a discovered page.  Until a worker is through with it, it is in
`_enqueue`, or among the pending items, or its worker was cancelled.  An iteration that
nothing disturbs passes every pending item, so at its end every discovered page is
collected or finished, and what is marked as visited from then on is not in the
snapshot.  `checkpoint_closure` says so of every run in which what is saved was not
disturbed while it was made, and of resuming from it.

`snapshot_without_item` disturbs it: a page that is discovered between the end of the
iteration and the reading of the visited set is visited in the snapshot and has no item
in it.
-/
import GovCrawler.Crawler.Checkpoint

namespace GovCrawler

open OrderedDict Transition

variable {rules : UrlRules} {s : Crawl}

/-! ### Counters -/

/-- Counters are drawn in order: the item that is being built has the last one, and all
others have earlier ones. -/
structure Crawl.Numbered (s : Crawl) : Prop where
  keyed : ∀ e ∈ s.engine.pending.items, e.1 = e.2.counter ∧ e.1 ≤ s.engine.counter
  queued : ∀ item ∈ s.engine.queue, item.counter ≤ s.engine.counter
  taken : ∀ item ∈ s.inFlight, item.counter ≤ s.engine.counter
  cancelled : ∀ c ∈ s.cancelled, c ≤ s.engine.counter
  built : ∀ item, s.enqueuePc = .built item →
    item.counter = s.engine.counter ∧ ∀ e ∈ s.engine.pending.items, e.1 < item.counter

/-- What became of a discovered page. -/
inductive Crawl.Tracked (rules : UrlRules) (s : Crawl) (p : String × Nat) : Prop
  | marked (args : EnqueueArgs) (hpc : s.enqueuePc = .marked args) (hseed : args.isSeed = false)
      (hcounter : p.2 = s.engine.counter + 1) (hkey : rules.urlKey args.url = p.1)
  | built (item : QueueItem) (hpc : s.enqueuePc = .built item) (hseed : item.isSeed = false)
      (hcounter : p.2 = item.counter) (hkey : rules.urlKey item.url = p.1)
  | pending (item : QueueItem) (hmem : (p.2, item) ∈ s.engine.pending.items)
      (hkey : rules.urlKey item.url = p.1)
  | finished (h : p.2 ∈ s.finished)
  | cancelled (h : p.2 ∈ s.cancelled)

/-! ### The snapshot in the making -/

/-- While the thread iterates: what it has passed is collected, and so is every discovered
page whose worker was cancelled. -/
structure Crawl.Iterates (rules : UrlRules) (s : Crawl) (it : Dict.Iter) (acc : Collected) :
    Prop where
  counted : ∀ i ∈ acc.items, i.counter ≤ s.engine.counter
  passed : s.disturbed = false →
    s.engine.pending.Passed it fun item => HasItem rules acc.items (rules.urlKey item.url)
  cancelled : s.disturbed = false → ∀ p ∈ s.discovered, p.2 ∈ s.cancelled →
    HasItem rules acc.items p.1 ∨ p.2 ∈ s.finished

/-- Once it has iterated: a discovered page is collected or finished, unless it was marked
after the visited set was read. -/
structure Crawl.Reads (rules : UrlRules) (s : Crawl) (acc : Collected) (snapshot : Frontier)
    (left : List Field) : Prop where
  counted : ∀ i ∈ acc.items, i.counter ≤ s.engine.counter
  counter : .counter ∉ left → ∀ i ∈ acc.items, i.counter ≤ snapshot.counter
  visited : .visited ∉ left → ∀ key ∈ snapshot.visited, key ∈ s.engine.visited
  closed : s.disturbed = false → ∀ p ∈ s.discovered, .visited ∈ left ∨ p.1 ∈ snapshot.visited →
    HasItem rules acc.items p.1 ∨ p.2 ∈ s.finished

def Crawl.ThreadInv (rules : UrlRules) (s : Crawl) : Prop :=
  match s.thread with
  | .idle => True
  | .iterating it acc => s.Iterates rules it acc
  | .reading acc snapshot left => s.Reads rules acc snapshot left

structure Crawl.Inv (rules : UrlRules) (s : Crawl) : Prop where
  numbered : s.Numbered
  tracked : ∀ p ∈ s.discovered, s.Tracked rules p
  thread : s.ThreadInv rules
  saved : ∀ f ∈ s.saved, f.Closed rules ∧ f.frontier.WellCounted

/-! ### `_enqueue` -/

/-- `_enqueue` marks a key that was not visited, and touches nothing else that matters. -/
theorem enqueueMark_effect (rules : UrlRules) (e : Engine) (args : EnqueueArgs) :
    let r := e.enqueueMark rules args
    r.1.pending = e.pending ∧ r.1.queue = e.queue ∧ r.1.counter = e.counter ∧
      (∀ key ∈ e.visited, key ∈ r.1.visited) ∧ (r.2 = false → r.1.visited = e.visited) ∧
      (r.2 = true → rules.urlKey args.url ∉ e.visited) := by
  unfold Engine.enqueueMark
  cases rules.refuses args.url with
  | none => exact ⟨rfl, rfl, rfl, fun _ h => h, fun _ => rfl, fun h => nomatch h⟩
  | some refused =>
      cases refused with
      | true => exact ⟨rfl, rfl, rfl, fun _ h => h, fun _ => rfl, fun h => nomatch h⟩
      | false =>
          dsimp only
          by_cases hvisited : e.visited.contains (rules.urlKey args.url) = true
          · rw [if_pos hvisited]
            exact ⟨rfl, rfl, rfl, fun _ h => h, fun _ => rfl, fun h => nomatch h⟩
          · rw [if_neg hvisited]
            have hnew : rules.urlKey args.url ∉ e.visited := by simpa using hvisited
            by_cases hseed : args.isSeed = true
            · rw [if_pos hseed]
              exact ⟨rfl, rfl, rfl, fun _ h => h, fun _ => rfl, fun _ => hnew⟩
            · rw [if_neg hseed]
              exact ⟨rfl, rfl, rfl, fun _ h => List.mem_append_left _ h, fun h => (nomatch h),
                fun _ => hnew⟩

theorem Collected.add_items (acc : Collected) (budget : Nat → Nat) (item : QueueItem) :
    ∃ k, (acc.add budget item).items = acc.items ++ [item.save k] := by
  unfold Collected.add
  cases item.chainBudget with
  | none => exact ⟨none, rfl⟩
  | some cell =>
      dsimp only
      cases acc.chainKeys.lookup cell with
      | none => exact ⟨some (toString acc.chainKeys.length), rfl⟩
      | some key => exact ⟨some key, rfl⟩

/-! ### Counters, step by step -/

namespace Crawl

/-- A step that leaves the pending items and the counter alone. -/
theorem Numbered.frame (h : s.Numbered) {engine : Engine} {inFlight : List QueueItem} {d : Bool}
    (hpending : engine.pending = s.engine.pending) (hcounter : engine.counter = s.engine.counter)
    (hqueue : ∀ item ∈ engine.queue, item.counter ≤ s.engine.counter)
    (htaken : ∀ item ∈ inFlight, item.counter ≤ s.engine.counter) :
    Numbered { s with engine := engine, inFlight := inFlight, disturbed := d } := by
  refine ⟨?_, ?_, ?_, ?_, ?_⟩
  · dsimp only
    rw [hpending, hcounter]
    exact h.keyed
  · dsimp only
    rw [hcounter]
    exact hqueue
  · dsimp only
    rw [hcounter]
    exact htaken
  · dsimp only
    rw [hcounter]
    exact h.cancelled
  · dsimp only
    rw [hpending, hcounter]
    exact h.built

theorem Numbered.mark (h : s.Numbered) (rules : UrlRules) (args : EnqueueArgs)
    (discovered : List (String × Nat)) (d : Bool) :
    Numbered { s with
      engine := (s.engine.enqueueMark rules args).1
      enqueuePc := .marked args
      discovered := discovered
      disturbed := d } := by
  obtain ⟨hpending, hqueue, hcounter, -⟩ := enqueueMark_effect rules s.engine args
  refine ⟨?_, ?_, ?_, ?_, fun _ hbuilt => nomatch hbuilt⟩
  · dsimp only
    rw [hpending, hcounter]
    exact h.keyed
  · dsimp only
    rw [hqueue, hcounter]
    exact h.queued
  · dsimp only
    rw [hcounter]
    exact h.taken
  · dsimp only
    rw [hcounter]
    exact h.cancelled

theorem Numbered.build (h : s.Numbered) (rules : UrlRules) (args : EnqueueArgs) (d : Bool) :
    Numbered { s with
      engine := (s.engine.enqueueBuild rules args).1
      enqueuePc := .built (s.engine.enqueueBuild rules args).2
      disturbed := d } := by
  refine ⟨fun e he => ⟨(h.keyed e he).1, Nat.le_succ_of_le (h.keyed e he).2⟩,
    fun item hi => Nat.le_succ_of_le (h.queued item hi),
    fun item hi => Nat.le_succ_of_le (h.taken item hi),
    fun c hc => Nat.le_succ_of_le (h.cancelled c hc), ?_⟩
  intro item hbuilt
  obtain rfl := EnqueuePc.built.inj hbuilt
  exact ⟨rfl, fun e he => Nat.lt_succ_of_le (h.keyed e he).2⟩

theorem Numbered.not_mem_keys (h : s.Numbered) {item : QueueItem}
    (hpc : s.enqueuePc = .built item) :
    item.counter ∉ s.engine.pending.items.map Prod.fst := by
  intro hmem
  obtain ⟨e, he, heq⟩ := List.mem_map.mp hmem
  exact absurd heq (Nat.ne_of_lt ((h.built item hpc).2 e he))

theorem Numbered.put (h : s.Numbered) {item : QueueItem} (hpc : s.enqueuePc = .built item)
    (compact d : Bool) :
    Numbered { s with
      engine := s.engine.enqueuePut item compact
      enqueuePc := .done
      disturbed := d } := by
  have hlast := (h.built item hpc).1
  refine ⟨?_, ?_, h.taken, h.cancelled, fun _ hbuilt => nomatch hbuilt⟩
  · intro e he
    rcases (Dict.mem_items_insert (h.not_mem_keys hpc)).mp he with he | rfl
    · exact h.keyed e he
    · exact ⟨rfl, Nat.le_of_eq hlast⟩
  · intro i hi
    rcases (List.mem_orderedInsert _).mp hi with rfl | hi
    · exact Nat.le_of_eq hlast
    · exact h.queued i hi

/-- An item is dropped, whose worker is through or was cancelled. -/
theorem Numbered.drop (h : s.Numbered) (counter : Nat) {finished cancelled : List Nat}
    (hcancelled : ∀ c ∈ cancelled, c ≤ s.engine.counter) (d : Bool) :
    Numbered { s with
      engine := s.engine.drop counter
      inFlight := s.inFlight.filter fun item => item.counter != counter
      finished := finished
      cancelled := cancelled
      disturbed := d } :=
  ⟨fun e he => h.keyed e (Dict.mem_items_erase.mp he).1, h.queued,
    fun item hi => h.taken item (List.mem_of_mem_filter hi), hcancelled,
    fun item hpc => ⟨(h.built item hpc).1,
      fun e he => (h.built item hpc).2 e (Dict.mem_items_erase.mp he).1⟩⟩

/-- The thread changes no counter. -/
theorem Numbered.thread_step (h : s.Numbered) (thread : Thread) (saved : List Saved) (d : Bool) :
    Numbered { s with thread := thread, saved := saved, disturbed := d } :=
  ⟨h.keyed, h.queued, h.taken, h.cancelled, h.built⟩

end Crawl

/-! ### Steps of the loop -/

namespace Crawl

/-- A page is tracked on, if where it was pending it still is, or its worker is through. -/
theorem Tracked.mono {t : Crawl} {p : String × Nat} (h : s.Tracked rules p)
    (hpc : t.enqueuePc = s.enqueuePc) (hcounter : t.engine.counter = s.engine.counter)
    (hpending : ∀ item, (p.2, item) ∈ s.engine.pending.items →
      (p.2, item) ∈ t.engine.pending.items ∨ p.2 ∈ t.finished ∨ p.2 ∈ t.cancelled)
    (hfinished : ∀ c ∈ s.finished, c ∈ t.finished)
    (hcancelled : ∀ c ∈ s.cancelled, c ∈ t.cancelled) : t.Tracked rules p := by
  cases h with
  | marked args hmarked hseed hp hkey =>
      exact .marked args (hpc.trans hmarked) hseed (hcounter ▸ hp) hkey
  | built item hbuilt hseed hp hkey => exact .built item (hpc.trans hbuilt) hseed hp hkey
  | pending item hmem hkey =>
      rcases hpending item hmem with hmem | hmem | hmem
      · exact .pending item hmem hkey
      · exact .finished hmem
      · exact .cancelled hmem
  | finished hmem => exact .finished (hfinished _ hmem)
  | cancelled hmem => exact .cancelled (hcancelled _ hmem)

/-- A step that leaves the pending items, the visited set and the counter alone. -/
theorem Inv.frame (h : s.Inv rules) {engine : Engine} {inFlight : List QueueItem} {d : Bool}
    (hpending : engine.pending = s.engine.pending) (hvisited : engine.visited = s.engine.visited)
    (hcounter : engine.counter = s.engine.counter)
    (hqueue : ∀ item ∈ engine.queue, item.counter ≤ s.engine.counter)
    (htaken : ∀ item ∈ inFlight, item.counter ≤ s.engine.counter)
    (hd : d = false → s.disturbed = false) :
    Inv rules { s with engine := engine, inFlight := inFlight, disturbed := d } := by
  refine ⟨h.numbered.frame hpending hcounter hqueue htaken, ?_, ?_, h.saved⟩
  all_goals
    obtain ⟨visited, pending, queue, counter, skipped, maxDepth, session, budget⟩ := engine
    obtain rfl : pending = s.engine.pending := hpending
    obtain rfl : visited = s.engine.visited := hvisited
    obtain rfl : counter = s.engine.counter := hcounter
  · intro p hp
    exact (h.tracked p hp).mono rfl rfl (fun _ hmem => Or.inl hmem) (fun _ hc => hc) fun _ hc => hc
  · have hthread := h.thread
    unfold ThreadInv at hthread ⊢
    dsimp only
    cases hth : s.thread with
    | idle => trivial
    | iterating it acc =>
        rw [hth] at hthread
        exact ⟨hthread.counted, fun hb => hthread.passed (hd hb),
          fun hb => hthread.cancelled (hd hb)⟩
    | reading acc snapshot left =>
        rw [hth] at hthread
        exact ⟨hthread.counted, hthread.counter, hthread.visited,
          fun hb => hthread.closed (hd hb)⟩

/-- `_enqueue` marks a page. -/
theorem Inv.mark (h : s.Inv rules) {args : EnqueueArgs} {d : Bool} (hpc : s.enqueuePc = .done)
    (hgo : (s.engine.enqueueMark rules args).2 = true)
    (hd : d = false → s.disturbed = false ∧ s.disturbs rules (.enqueue args) = false) :
    Inv rules { s with
      engine := (s.engine.enqueueMark rules args).1
      enqueuePc := .marked args
      discovered :=
        if args.isSeed then s.discovered
        else s.discovered ++ [(rules.urlKey args.url, s.engine.counter + 1)]
      disturbed := d } := by
  obtain ⟨hpending, -, hcounter, hvisited, -, hnew⟩ :=
    enqueueMark_effect rules s.engine args
  have hnew := hnew hgo
  have hdisc : ∀ p ∈ (if args.isSeed then s.discovered
      else s.discovered ++ [(rules.urlKey args.url, s.engine.counter + 1)]),
      p ∈ s.discovered ∨
        (args.isSeed = false ∧ p = (rules.urlKey args.url, s.engine.counter + 1)) := by
    intro p hp
    by_cases hseed : args.isSeed = true
    · rw [if_pos hseed] at hp
      exact Or.inl hp
    · rw [if_neg hseed, List.mem_append, List.mem_singleton] at hp
      exact hp.imp id fun hp => ⟨by simpa using hseed, hp⟩
  refine ⟨h.numbered.mark rules args _ d, ?_, ?_, h.saved⟩
  · intro p hp
    rcases hdisc p hp with hp | ⟨hseed, rfl⟩
    · cases h.tracked p hp with
      | marked args' hpc' => rw [hpc] at hpc'; cases hpc'
      | built item hpc' => rw [hpc] at hpc'; cases hpc'
      | pending item hmem hkey => exact .pending item (by dsimp only; rw [hpending]; exact hmem) hkey
      | finished hmem => exact .finished hmem
      | cancelled hmem => exact .cancelled hmem
    · exact .marked args rfl hseed (by dsimp only; rw [hcounter]) rfl
  · have hthread := h.thread
    unfold ThreadInv at hthread ⊢
    dsimp only
    cases hth : s.thread with
    | idle => trivial
    | iterating it acc =>
        rw [hth] at hthread
        refine ⟨?_, ?_, ?_⟩
        · dsimp only
          rw [hcounter]
          exact hthread.counted
        · intro hb
          dsimp only
          rw [hpending]
          exact hthread.passed (hd hb).1
        · intro hb p hp hcancelled
          rcases hdisc p hp with hp | ⟨-, rfl⟩
          · exact hthread.cancelled (hd hb).1 p hp hcancelled
          · -- its counter was never given to an item before
            have hle := h.numbered.cancelled _ hcancelled
            dsimp only at hle
            omega
    | reading acc snapshot left =>
        rw [hth] at hthread
        refine ⟨?_, hthread.counter, fun hleft key hkey => hvisited key (hthread.visited hleft key hkey),
          ?_⟩
        · dsimp only
          rw [hcounter]
          exact hthread.counted
        · intro hb p hp hread
          obtain ⟨hclean, hundisturbed⟩ := hd hb
          rcases hdisc p hp with hp | ⟨hseed, rfl⟩
          · exact hthread.closed hclean p hp hread
          · -- the visited set has been read already, without this key
            have hleft : .visited ∉ left := by
              intro hmem
              unfold disturbs at hundisturbed
              rw [hth] at hundisturbed
              simp [hmem, hseed, hgo] at hundisturbed
            exact absurd (hthread.visited hleft _ (hread.resolve_left hleft)) hnew

/-- `_enqueue` builds the item. -/
theorem Inv.build (h : s.Inv rules) {args : EnqueueArgs} {d : Bool}
    (hpc : s.enqueuePc = .marked args) (hd : d = false → s.disturbed = false) :
    Inv rules { s with
      engine := (s.engine.enqueueBuild rules args).1
      enqueuePc := .built (s.engine.enqueueBuild rules args).2
      disturbed := d } := by
  refine ⟨h.numbered.build rules args d, ?_, ?_, h.saved⟩
  · intro p hp
    cases h.tracked p hp with
    | marked args' hpc' hseed hcounter hkey =>
        obtain rfl : args = args' := EnqueuePc.marked.inj (hpc.symm.trans hpc')
        exact .built _ rfl hseed hcounter hkey
    | built item hpc' => rw [hpc] at hpc'; cases hpc'
    | pending item hmem hkey => exact .pending item hmem hkey
    | finished hmem => exact .finished hmem
    | cancelled hmem => exact .cancelled hmem
  · have hthread := h.thread
    unfold ThreadInv at hthread ⊢
    dsimp only
    cases hth : s.thread with
    | idle => trivial
    | iterating it acc =>
        rw [hth] at hthread
        exact ⟨fun i hi => Nat.le_succ_of_le (hthread.counted i hi),
          fun hb => hthread.passed (hd hb), fun hb => hthread.cancelled (hd hb)⟩
    | reading acc snapshot left =>
        rw [hth] at hthread
        exact ⟨fun i hi => Nat.le_succ_of_le (hthread.counted i hi), hthread.counter,
          hthread.visited, fun hb => hthread.closed (hd hb)⟩

/-- `_enqueue` puts the item into the pending items and the queue. -/
theorem Inv.put (h : s.Inv rules) {item : QueueItem} {compact d : Bool}
    (hpc : s.enqueuePc = .built item)
    (hd : d = false → s.disturbed = false ∧ s.disturbs rules (.put compact) = false) :
    Inv rules { s with
      engine := s.engine.enqueuePut item compact
      enqueuePc := .done
      disturbed := d } := by
  have hfresh := h.numbered.not_mem_keys hpc
  refine ⟨h.numbered.put hpc compact d, ?_, ?_, h.saved⟩
  · intro p hp
    cases h.tracked p hp with
    | marked args hpc' => rw [hpc] at hpc'; cases hpc'
    | built item' hpc' hseed hcounter hkey =>
        obtain rfl : item = item' := EnqueuePc.built.inj (hpc.symm.trans hpc')
        refine .pending item ((Dict.mem_items_insert hfresh).mpr (Or.inr ?_)) hkey
        rw [hcounter]
    | pending item' hmem hkey =>
        exact .pending item' ((Dict.mem_items_insert hfresh).mpr (Or.inl hmem)) hkey
    | finished hmem => exact .finished hmem
    | cancelled hmem => exact .cancelled hmem
  · have hthread := h.thread
    unfold ThreadInv at hthread ⊢
    dsimp only
    cases hth : s.thread with
    | idle => trivial
    | iterating it acc =>
        rw [hth] at hthread
        refine ⟨hthread.counted, ?_, fun hb => hthread.cancelled (hd hb).1⟩
        intro hb
        obtain ⟨hclean, hundisturbed⟩ := hd hb
        refine (hthread.passed hclean).insert hfresh fun hcompact => ?_
        unfold disturbs at hundisturbed
        rw [hth] at hundisturbed
        simpa [hcompact] using hundisturbed
    | reading acc snapshot left =>
        rw [hth] at hthread
        exact ⟨hthread.counted, hthread.counter, hthread.visited,
          fun hb => hthread.closed (hd hb).1⟩

/-- A worker is through with an item. -/
theorem Inv.finish (h : s.Inv rules) {counter : Nat} {d : Bool}
    (hd : d = false → s.disturbed = false) :
    Inv rules { s with
      engine := s.engine.drop counter
      inFlight := s.inFlight.filter fun item => item.counter != counter
      finished := counter :: s.finished
      disturbed := d } := by
  refine ⟨h.numbered.drop counter h.numbered.cancelled d, ?_, ?_, h.saved⟩
  · intro p hp
    refine (h.tracked p hp).mono rfl rfl ?_ (fun _ => List.mem_cons_of_mem _) fun _ hc => hc
    intro item hmem
    by_cases heq : p.2 = counter
    · exact Or.inr (Or.inl (heq ▸ List.mem_cons_self))
    · exact Or.inl (Dict.mem_items_erase.mpr ⟨hmem, heq⟩)
  · have hthread := h.thread
    unfold ThreadInv at hthread ⊢
    dsimp only
    cases hth : s.thread with
    | idle => trivial
    | iterating it acc =>
        rw [hth] at hthread
        refine ⟨hthread.counted, fun hb => (hthread.passed (hd hb)).erase counter, ?_⟩
        intro hb p hp hcancelled
        exact (hthread.cancelled (hd hb) p hp hcancelled).imp id (List.mem_cons_of_mem _)
    | reading acc snapshot left =>
        rw [hth] at hthread
        refine ⟨hthread.counted, hthread.counter, hthread.visited, ?_⟩
        intro hb p hp hread
        exact (hthread.closed (hd hb) p hp hread).imp id (List.mem_cons_of_mem _)

/-- A worker is cancelled with an item. -/
theorem Inv.cancel (h : s.Inv rules) {counter : Nat} {d : Bool} (hpc : s.enqueuePc = .done)
    (htaken : counter ≤ s.engine.counter)
    (hd : d = false → s.disturbed = false ∧ s.disturbs rules (.cancel counter) = false) :
    Inv rules { s with
      engine := s.engine.drop counter
      inFlight := s.inFlight.filter fun item => item.counter != counter
      cancelled := counter :: s.cancelled
      disturbed := d } := by
  refine ⟨h.numbered.drop counter (List.forall_mem_cons.mpr ⟨htaken, h.numbered.cancelled⟩) d, ?_, ?_,
    h.saved⟩
  · intro p hp
    refine (h.tracked p hp).mono rfl rfl ?_ (fun _ hc => hc) fun _ => List.mem_cons_of_mem _
    intro item hmem
    by_cases heq : p.2 = counter
    · exact Or.inr (Or.inr (heq ▸ List.mem_cons_self))
    · exact Or.inl (Dict.mem_items_erase.mpr ⟨hmem, heq⟩)
  · have hthread := h.thread
    unfold ThreadInv at hthread ⊢
    dsimp only
    cases hth : s.thread with
    | idle => trivial
    | iterating it acc =>
        rw [hth] at hthread
        refine ⟨hthread.counted, fun hb => (hthread.passed (hd hb).1).erase counter, ?_⟩
        intro hb p hp hcancelled
        obtain ⟨hclean, hundisturbed⟩ := hd hb
        rcases List.mem_cons.mp hcancelled with rfl | hcancelled
        · -- the iteration has come to the item already
          unfold disturbs at hundisturbed
          rw [hth] at hundisturbed
          have hdiscovered : s.isDiscovered p.2 = true := by
            unfold isDiscovered
            exact List.any_eq_true.mpr ⟨p, hp, by simp⟩
          have hbefore : s.engine.pending.keyBefore it.pos p.2 = true := by
            simpa [hdiscovered] using hundisturbed
          obtain ⟨item, hitem⟩ := Dict.keyBefore_iff.mp hbefore
          have hcollected := (hthread.passed hclean).passed _ hitem
          cases h.tracked p hp with
          | marked args hpc' => rw [hpc] at hpc'; cases hpc'
          | built item hpc' => rw [hpc] at hpc'; cases hpc'
          | pending item' hmem hkey =>
              have hmem' := Dict.mem_items.mpr (List.mem_of_mem_take hitem)
              obtain rfl := Dict.eq_of_mem_items hmem hmem'
              exact Or.inl (hkey ▸ hcollected)
          | finished hmem => exact Or.inr hmem
          | cancelled hmem => exact hthread.cancelled hclean p hp hmem
        · exact hthread.cancelled hclean p hp hcancelled
    | reading acc snapshot left =>
        rw [hth] at hthread
        exact ⟨hthread.counted, hthread.counter, hthread.visited,
          fun hb => hthread.closed (hd hb).1⟩

/-! ### Steps of the checkpoint thread -/

/-- The thread changes nothing but what it knows itself. -/
theorem Inv.thread_step (h : s.Inv rules) {thread : Thread} {d : Bool}
    (hthread : ThreadInv rules { s with thread := thread, disturbed := d }) :
    Inv rules { s with thread := thread, disturbed := d } where
  numbered := h.numbered.thread_step thread s.saved d
  tracked := by
    intro p hp
    exact (h.tracked p hp).mono rfl rfl (fun _ hmem => Or.inl hmem) (fun _ hc => hc) fun _ hc => hc
  thread := hthread
  saved := h.saved

/-- At the beginning nothing is collected, and nothing is passed. -/
theorem iterates_begin {d : Bool} (hd : d = false → s.disturbs rules .begin = false) :
    Iterates rules { s with
      thread := .iterating s.engine.pending.iter {}
      disturbed := d } s.engine.pending.iter {} := by
  refine ⟨fun _ hi => (nomatch hi), fun _ => Dict.Passed.start _ _, ?_⟩
  intro hb p hp hcancelled
  have hnone : s.cancelled.any s.isDiscovered = false := hd hb
  have hsome : s.cancelled.any s.isDiscovered = true :=
    List.any_eq_true.mpr ⟨p.2, hcancelled, List.any_eq_true.mpr ⟨p, hp, by simp⟩⟩
  rw [hsome] at hnone
  cases hnone

/-- The iteration collects the next item. -/
theorem Iterates.yield {it rest : Dict.Iter} {acc : Collected} {item : QueueItem} {d : Bool}
    (h : s.Iterates rules it acc) (hnum : s.Numbered)
    (hnext : s.engine.pending.next it = .yield item rest) (hd : d = false → s.disturbed = false) :
    Iterates rules { s with
      thread := .iterating rest (acc.add s.engine.budget item)
      disturbed := d } rest (acc.add s.engine.budget item) := by
  obtain ⟨k, hitems⟩ := acc.add_items s.engine.budget item
  have hold : ∀ key, HasItem rules acc.items key →
      HasItem rules (acc.add s.engine.budget item).items key := by
    intro key ⟨i, hi, hkey⟩
    exact ⟨i, by rw [hitems]; exact List.mem_append_left _ hi, hkey⟩
  refine ⟨?_, ?_, fun hb p hp hc => (h.cancelled (hd hb) p hp hc).imp (hold _) id⟩
  · intro i hi
    rw [hitems, List.mem_append, List.mem_singleton] at hi
    rcases hi with hi | rfl
    · exact h.counted i hi
    · obtain ⟨counter, hmem⟩ := Dict.mem_items_of_yield hnext
      obtain ⟨heq, hle⟩ := hnum.keyed _ hmem
      exact Nat.le_trans (Nat.le_of_eq heq.symm) hle
  · intro hb
    refine (h.passed (hd hb)).yield hnext (fun w hw => hold _ hw) ?_
    exact ⟨item.save k, by rw [hitems]; simp, rfl⟩

/-- **The iteration ends**: what was discovered is collected or finished. -/
theorem Iterates.stop {it : Dict.Iter} {acc : Collected} {d : Bool} (h : s.Iterates rules it acc)
    (hinv : s.Inv rules) (hnext : s.engine.pending.next it = .stop)
    (hd : d = false → s.disturbed = false ∧ s.enqueuePc.discovering = false) :
    Reads rules { s with
      thread := .reading acc {} Field.all
      disturbed := d } acc {} Field.all := by
  refine ⟨h.counted, fun hleft => absurd (by decide) hleft, fun hleft => absurd (by decide) hleft,
    ?_⟩
  intro hb p hp _
  obtain ⟨hclean, hpc⟩ := hd hb
  cases hinv.tracked p hp with
  | marked args hpc' hseed =>
      rw [hpc'] at hpc
      exact absurd hpc (by simp [EnqueuePc.discovering, hseed])
  | built item hpc' hseed =>
      rw [hpc'] at hpc
      exact absurd hpc (by simp [EnqueuePc.discovering, hseed])
  | pending item hmem hkey => exact Or.inl (hkey ▸ (h.passed hclean).stop hnext _ hmem)
  | finished hmem => exact Or.inr hmem
  | cancelled hmem => exact h.cancelled hclean p hp hmem

/-- The next field is read. -/
theorem Reads.read {acc : Collected} {snapshot : Frontier} {field : Field} {left : List Field}
    {d : Bool} (h : s.Reads rules acc snapshot (field :: left))
    (hd : d = false → s.disturbed = false) :
    Reads rules { s with
      thread := .reading acc (snapshot.read s.engine field) left
      disturbed := d } acc (snapshot.read s.engine field) left := by
  refine ⟨h.counted, ?_, ?_, ?_⟩
  · intro hleft
    by_cases hfield : field = .counter
    · subst hfield
      exact h.counted
    · rw [snapshot.read_counter s.engine hfield]
      exact h.counter (List.not_mem_cons_of_ne_of_not_mem (Ne.symm hfield) hleft)
  · intro hleft
    by_cases hfield : field = .visited
    · subst hfield
      exact fun key hkey => hkey
    · rw [snapshot.read_visited s.engine hfield]
      exact h.visited (List.not_mem_cons_of_ne_of_not_mem (Ne.symm hfield) hleft)
  · intro hb p hp hread
    refine h.closed (hd hb) p hp ?_
    by_cases hfield : field = .visited
    · exact Or.inl (hfield ▸ List.mem_cons_self)
    · rw [snapshot.read_visited s.engine hfield] at hread
      exact hread.imp (List.mem_cons_of_mem _) id

/-- What is saved undisturbed is closed. -/
theorem Inv.save (h : s.Inv rules) {acc : Collected} {snapshot : Frontier} {d : Bool}
    (hth : s.thread = .reading acc snapshot []) (hclean : s.disturbed = false) :
    Inv rules { s with
      thread := .idle
      saved := s.saved ++ [⟨snapshot.collect acc, s.discovered, s.finished⟩]
      disturbed := d } := by
  have hreads : s.Reads rules acc snapshot [] := by
    have hthread := h.thread
    unfold ThreadInv at hthread
    rwa [hth] at hthread
  refine ⟨h.numbered.thread_step .idle _ d, ?_, trivial, ?_⟩
  · intro p hp
    exact (h.tracked p hp).mono rfl rfl (fun _ hmem => Or.inl hmem) (fun _ hc => hc) fun _ hc => hc
  · intro f hf
    rcases List.mem_append.mp hf with hf | hf
    · exact h.saved f hf
    · obtain rfl := List.mem_singleton.mp hf
      refine ⟨?_, hreads.counter List.not_mem_nil⟩
      intro p hp hvisited
      exact hreads.closed hclean p hp (Or.inr hvisited)

end Crawl

/-! ### Resuming -/

/-- `_rehydrate_frontier` puts every item back, and changes nothing else it has set. -/
theorem putAll_effect (chains : List (String × Nat)) (items : List SavedItem) (e : Engine) :
    let r := items.foldl (fun e it => e.enqueuePut (it.restore chains) false) e
    r.visited = e.visited ∧ r.counter = e.counter ∧
      (∀ item, item ∈ r.queue ↔ item ∈ e.queue ∨ ∃ it ∈ items, item = it.restore chains) ∧
      ∀ x ∈ r.pending.items, x ∈ e.pending.items ∨
        ∃ it ∈ items, x = (it.counter, it.restore chains) := by
  induction items generalizing e with
  | nil => simp
  | cons it items ih =>
      obtain ⟨hvisited, hcounter, hqueue, hpending⟩ := ih (e.enqueuePut (it.restore chains) false)
      refine ⟨hvisited, hcounter, ?_, ?_⟩
      · intro item
        have hput : item ∈ (e.enqueuePut (it.restore chains) false).queue ↔
            item = it.restore chains ∨ item ∈ e.queue := List.mem_orderedInsert _
        rw [List.foldl_cons, hqueue, hput, List.exists_mem_cons_iff]
        tauto
      · intro x hx
        rcases hpending x hx with hx | ⟨i, hi, rfl⟩
        · rcases Dict.of_mem_items_insert hx with hx | rfl
          · exact Or.inl hx
          · exact Or.inr ⟨it, List.mem_cons_self, rfl⟩
        · exact Or.inr ⟨i, List.mem_cons_of_mem _ hi, rfl⟩

/-- An engine that starts from a snapshot: what is visited, and what is queued. -/
theorem init_effect (rules : UrlRules) (visitedBootstrap : List String) (f : Frontier) :
    let e := Engine.init rules visitedBootstrap (some f)
    (∀ key ∈ e.visited, key ∈ visitedBootstrap.map rules.urlKey ∨ key ∈ f.visited) ∧
      e.counter = f.counter ∧ (∀ item, item ∈ e.queue ↔ ∃ it ∈ f.items, item = it.restore f.chains) ∧
      ∀ x ∈ e.pending.items, ∃ it ∈ f.items, x = (it.counter, it.restore f.chains) := by
  intro e
  obtain ⟨hvisited, hcounter, hqueue, hpending⟩ := putAll_effect f.chains f.items
    { visited := (visitedBootstrap.map rules.urlKey).dedup ++
        f.visited.filter fun key => !(visitedBootstrap.map rules.urlKey).dedup.contains key
      counter := max 0 f.counter
      skipped := f.skipped
      maxDepthSeen := f.maxDepthSeen
      sessionVisitedCount := f.sessionVisitedCount
      budget := fun cell => ((f.chains[cell]?).map Prod.snd).getD 0 }
  refine ⟨?_, hcounter.trans (Nat.zero_max _), ?_, ?_⟩
  · intro key hkey
    have hkey := hvisited ▸ hkey
    exact (List.mem_append.mp hkey).imp List.mem_dedup.mp List.mem_of_mem_filter
  · intro item
    exact (hqueue item).trans (or_iff_right (List.not_mem_nil))
  · intro x hx
    exact (hpending x hx).resolve_left List.not_mem_nil

namespace Crawl

theorem Inv.empty (rules : UrlRules) : Inv rules {} :=
  ⟨⟨fun _ he => (nomatch he), fun _ hi => (nomatch hi), fun _ hi => (nomatch hi),
    fun _ hc => (nomatch hc), fun _ hb => (nomatch hb)⟩, fun _ hp => (nomatch hp), trivial,
    fun _ hf => (nomatch hf)⟩

/-- The process starts again. -/
theorem Numbered.start (rules : UrlRules) (visitedBootstrap : List String) (frontier : Option Frontier)
    (hcounted : ∀ f, frontier = some f → f.WellCounted) (saved : List Saved) (d : Bool) :
    Numbered {
      saved := saved
      engine := Engine.init rules visitedBootstrap frontier
      disturbed := d } := by
  cases frontier with
  | none =>
      exact ⟨fun _ he => (nomatch he), fun _ hi => (nomatch hi), fun _ hi => (nomatch hi),
        fun _ hc => (nomatch hc), fun _ hb => (nomatch hb)⟩
  | some f =>
      have hcounted := hcounted f rfl
      obtain ⟨-, hcounter, hqueue, hpending⟩ := init_effect rules visitedBootstrap f
      refine ⟨?_, ?_, fun _ hi => (nomatch hi), fun _ hc => (nomatch hc), fun _ hb => (nomatch hb)⟩
      · intro x hx
        obtain ⟨it, hit, rfl⟩ := hpending x hx
        exact ⟨rfl, hcounter ▸ hcounted it hit⟩
      · intro item hitem
        obtain ⟨it, hit, rfl⟩ := (hqueue item).mp hitem
        exact hcounter ▸ hcounted it hit

theorem wellCounted_of_snapshot {saved : List Saved} (h : ∀ f ∈ saved, f.frontier.WellCounted)
    {snapshot : Option Nat} {f : Frontier}
    (hf : (snapshot.bind fun i => (saved[i]?).map Saved.frontier) = some f) : f.WellCounted := by
  obtain ⟨i, -, hget⟩ := Option.bind_eq_some_iff.mp hf
  obtain ⟨g, hg, rfl⟩ := Option.map_eq_some_iff.mp hget
  exact h g (List.mem_of_getElem? hg)

/-- The process starts again from a snapshot. -/
theorem Inv.restart (h : s.Inv rules) (visitedBootstrap : List String) (snapshot : Option Nat)
    (d : Bool) :
    Inv rules {
      saved := s.saved
      engine := Engine.init rules visitedBootstrap
        (snapshot.bind fun i => (s.saved[i]?).map Saved.frontier)
      disturbed := d } where
  numbered := Numbered.start rules visitedBootstrap _
    (fun _ hf => wellCounted_of_snapshot (fun f hf => (h.saved f hf).2) hf) s.saved d
  tracked := fun _ hp => nomatch hp
  thread := trivial
  saved := h.saved

end Crawl

/-- A snapshot with an item for every page it calls visited resumes all of them. -/
theorem Saved.Closed.resumable {f : Saved} (h : f.Closed rules) : f.Resumable rules := by
  intro visitedBootstrap p hp
  obtain ⟨hvisited, -, hqueue, -⟩ := init_effect rules visitedBootstrap f.frontier
  intro engine hkey
  rcases hvisited p.1 hkey with hkey | hkey
  · exact Or.inr (Or.inr hkey)
  · rcases h p hp hkey with ⟨it, hit, heq⟩ | hfinished
    · exact Or.inl ⟨it.restore f.frontier.chains, (hqueue _).mpr ⟨it, hit, rfl⟩, heq⟩
    · exact Or.inr (Or.inl hfinished)

/-! ### All steps -/

namespace Crawl

theorem step_eq_some {a : CrawlAction} {t : Crawl} (h : s.step rules a = some t) :
    ∃ u, s.perform rules a = some u ∧
      t = { u with disturbed := (a != .begin && s.disturbed) || s.disturbs rules a } := by
  obtain ⟨u, hu, rfl⟩ := Option.map_eq_some_iff.mp h
  exact ⟨u, hu, rfl⟩

/-- Where nothing is noted, nothing was, and the step does not disturb. -/
theorem undisturbed_before {a : CrawlAction} (ha : a ≠ .begin)
    (h : ((a != .begin && s.disturbed) || s.disturbs rules a) = false) :
    s.disturbed = false ∧ s.disturbs rules a = false := by
  simpa [ha] using h

theorem inv_step {a : CrawlAction} {t : Crawl} (h : s.Inv rules) (hok : Undisturbed s a)
    (hstep : s.step rules a = some t) : t.Inv rules := by
  obtain ⟨u, hu, rfl⟩ := step_eq_some hstep
  have hbefore : a ≠ .begin → ((a != .begin && s.disturbed) || s.disturbs rules a) = false →
      s.disturbed = false ∧ s.disturbs rules a = false := undisturbed_before
  generalize hd : ((a != .begin && s.disturbed) || s.disturbs rules a) = d at hbefore
  have hqueued := h.numbered.queued
  have htaken := h.numbered.taken
  cases performs_of_perform hu with
  | mark hpc hgo => exact h.mark hpc hgo (hbefore nofun)
  | @refuse args hpc hgo =>
      obtain ⟨hpending, hqueue, hcounter, -, hvisited, -⟩ := enqueueMark_effect rules s.engine args
      exact h.frame hpending (hvisited hgo) hcounter (by rw [hqueue]; exact hqueued) htaken
        fun hb => (hbefore nofun hb).1
  | build hpc => exact h.build hpc fun hb => (hbefore nofun hb).1
  | put compact hpc => exact h.put hpc (hbefore nofun)
  | take hqueue hpc =>
      rw [hqueue] at hqueued
      obtain ⟨hitem, hrest⟩ := List.forall_mem_cons.mp hqueued
      exact h.frame rfl rfl rfl hrest (List.forall_mem_cons.mpr ⟨hitem, htaken⟩)
        fun hb => (hbefore nofun hb).1
  | process | fetched | skip | setBudget =>
      exact h.frame rfl rfl rfl hqueued htaken fun hb => (hbefore nofun hb).1
  | finish hpc hitem => exact h.finish fun hb => (hbefore nofun hb).1
  | cancel hpc hitem => exact h.cancel hpc (htaken _ hitem) (hbefore nofun)
  | begin hth => exact h.thread_step (iterates_begin fun hb => hd.trans hb)
  | nextRaises | saveFails => exact h.thread_step trivial
  | @nextStops it acc hth hnext =>
      have hiterates : s.Iterates rules it acc := by
        have hthread := h.thread
        unfold ThreadInv at hthread
        rwa [hth] at hthread
      refine h.thread_step (hiterates.stop h hnext fun hb => ?_)
      obtain ⟨hclean, hundisturbed⟩ := hbefore nofun hb
      unfold disturbs at hundisturbed
      rw [hth] at hundisturbed
      dsimp only at hundisturbed
      rw [hnext] at hundisturbed
      exact ⟨hclean, by simpa using hundisturbed⟩
  | @nextYields it rest acc item hth hnext =>
      have hiterates : s.Iterates rules it acc := by
        have hthread := h.thread
        unfold ThreadInv at hthread
        rwa [hth] at hthread
      exact h.thread_step (hiterates.yield h.numbered hnext fun hb => (hbefore nofun hb).1)
  | @read acc snapshot field left hth =>
      have hreads : s.Reads rules acc snapshot (field :: left) := by
        have hthread := h.thread
        unfold ThreadInv at hthread
        rwa [hth] at hthread
      exact h.thread_step (hreads.read fun hb => (hbefore nofun hb).1)
  | save hth => exact h.save hth (hok rfl)
  | restart visitedBootstrap snapshot => exact h.restart visitedBootstrap snapshot d

end Crawl

/--
**A snapshot is closed** if it is not disturbed while it is made: whatever the loop and
the workers do meanwhile, every page it calls visited has an item or is finished, and a
crawl that resumes from it skips none.
-/
theorem checkpoint_closure (rules : UrlRules) {t : Crawl} {as : List CrawlAction}
    (hm : Meets (Crawl.step rules) Crawl.Undisturbed {} as)
    (hr : run (Crawl.step rules) {} as = some t) :
    ∀ f ∈ t.saved, f.Closed rules ∧ f.Resumable rules := by
  have hinv : t.Inv rules :=
    run_invariant (fun s a s' hi hok hs => Crawl.inv_step hi hok hs) (Crawl.Inv.empty rules) hm hr
  intro f hf
  obtain ⟨hclosed, -⟩ := hinv.saved f hf
  exact ⟨hclosed, hclosed.resumable⟩

/-! ### A page discovered in time, and one too late -/

/-- The rules of a crawl of `city.gov`, whose only page besides the home page is `/staff`. -/
def cityRules : UrlRules where
  urlsplit := fun url =>
    if url = "https://city.gov" then some ⟨"city.gov", "", ""⟩
    else if url = "https://city.gov/staff" then some ⟨"city.gov", "/staff", ""⟩
    else none
  lower := id

/-- A worker has the home page of `city.gov`. -/
def homePage : List CrawlAction :=
  [.enqueue { url := "https://city.gov", depth := 0, isSeed := true }, .build, .put false, .take,
    .process 1, .fetched]

/-- It finds the link to `/staff`. -/
def staffLink : List CrawlAction :=
  [.enqueue { url := "https://city.gov/staff", depth := 1 }, .build, .put false]

/-- The thread reads the visited set and the counters, and saves. -/
def readAndSave : List CrawlAction := [.read, .read, .read, .read, .read, .save]

theorem staff_in_snapshot :
    ∃ t, run (Crawl.step cityRules) {}
        (homePage ++ staffLink ++ [.begin, .next, .next, .next] ++ readAndSave) = some t ∧
      t.saved.map (fun f => f.frontier.visited) = [["city.gov/staff"]] ∧
      ∀ f ∈ t.saved, f.Closed cityRules ∧ f.Resumable cityRules := by
  have hsaved : (run (Crawl.step cityRules) {}
      (homePage ++ staffLink ++ [.begin, .next, .next, .next] ++ readAndSave)).map
        (fun t => t.saved.map fun f => f.frontier.visited) = some [["city.gov/staff"]] := by
    decide +kernel
  obtain ⟨t, hr, hvisited⟩ := Option.map_eq_some_iff.mp hsaved
  exact ⟨t, hr, hvisited, checkpoint_closure cityRules (by decide +kernel) hr⟩

/-- The link is found when the iteration has ended and the visited set is not read yet. -/
def lateLink : List CrawlAction :=
  homePage ++ [.begin, .next, .next] ++ staffLink ++ readAndSave

theorem snapshot_without_item :
    ∃ t, run (Crawl.step cityRules) {} lateLink = some t ∧
      ∃ f ∈ t.saved, ¬ f.Closed cityRules ∧ ¬ f.Resumable cityRules := by
  have hsaved : (run (Crawl.step cityRules) {} lateLink).map Crawl.saved = some [
      { frontier :=
          { visited := ["city.gov/staff"], counter := 2, sessionVisitedCount := 1
            items := [⟨0, 1, "https://city.gov", 0, none, true, 0, none⟩] }
        discovered := [("city.gov/staff", 2)]
        finished := [] }] := by
    decide +kernel
  obtain ⟨t, hr, hsaved⟩ := Option.map_eq_some_iff.mp hsaved
  refine ⟨t, hr, _, hsaved ▸ List.mem_cons_self, ?_, ?_⟩
  · intro hclosed
    rcases hclosed _ List.mem_cons_self List.mem_cons_self with ⟨it, hit, hkey⟩ | hfinished
    · obtain rfl := List.mem_singleton.mp hit
      exact absurd hkey (by decide +kernel)
    · cases hfinished
  · intro hresumable
    rcases hresumable [] _ List.mem_cons_self List.mem_cons_self with
      ⟨item, hitem, hkey⟩ | hfinished | hhistory
    · obtain rfl := List.mem_singleton.mp hitem
      exact absurd hkey (by decide +kernel)
    · cases hfinished
    · cases hhistory

end GovCrawler
