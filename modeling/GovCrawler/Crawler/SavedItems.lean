/-
Counters in what is saved.

A snapshot that was disturbed may lack items, but it has none twice.  An iterator never comes back
to an entry: what is removed is gone, an insertion moves entries away from its end only, and a new
item has a counter that none had.

`saved_numbered` says it of all that is ever saved, so whatever `run` is given as a frontier is
`Numbered`.
-/
import GovCrawler.Crawler.RoundTrip

namespace GovCrawler

open OrderedDict Transition

/-- The items of a snapshot have counters of their own, and none that is still to come. -/
structure Frontier.Numbered (f : Frontier) : Prop where
  nodup : (f.items.map SavedItem.counter).Nodup
  counted : f.WellCounted

namespace Crawl

variable {rules : UrlRules} {s t : Crawl}

/-- The thread has no item twice, and comes to none that it has. -/
def ThreadDistinct (s : Crawl) : Prop :=
  match s.thread with
  | .idle => True
  | .iterating it acc =>
      (acc.items.map SavedItem.counter).Nodup ∧
        (∀ e ∈ s.engine.pending.remaining it, e.1 ∉ acc.items.map SavedItem.counter) ∧
        ∀ item, s.enqueuePc = .built item → item.counter ∉ acc.items.map SavedItem.counter
  | .reading acc _ _ => (acc.items.map SavedItem.counter).Nodup

structure Distinct (s : Crawl) : Prop where
  counted : s.Counted
  thread : s.ThreadDistinct
  saved : ∀ f ∈ s.saved, (f.frontier.items.map SavedItem.counter).Nodup

/-- A step of the loop, to which all that is still to come was to come, or is built now. -/
theorem Distinct.loop (h : s.Distinct) (hcounted : t.Counted) (hthread : t.thread = s.thread)
    (hsaved : t.saved = s.saved)
    (hremaining : ∀ it, ∀ e ∈ t.engine.pending.remaining it,
      e ∈ s.engine.pending.remaining it ∨ s.enqueuePc = .built e.2 ∧ e.1 = e.2.counter)
    (hbuilt : ∀ item, t.enqueuePc = .built item →
      s.enqueuePc = .built item ∨ s.engine.counter < item.counter) : t.Distinct := by
  refine ⟨hcounted, ?_, hsaved ▸ h.saved⟩
  have hbefore := h.thread
  have hgiven := h.counted.thread
  unfold ThreadDistinct at hbefore ⊢
  unfold ThreadCounted at hgiven
  rw [hthread]
  cases hth : s.thread with
  | idle => trivial
  | reading acc snapshot left =>
      rw [hth] at hbefore
      exact hbefore
  | iterating it acc =>
      rw [hth] at hbefore hgiven
      obtain ⟨hnodup, hto, hnew⟩ := hbefore
      refine ⟨hnodup, ?_, ?_⟩
      · intro e he
        rcases hremaining it e he with hold | ⟨hpc, hkey⟩
        · exact hto e hold
        · rw [hkey]
          exact hnew e.2 hpc
      · intro item hpc
        rcases hbuilt item hpc with hold | hlt
        · exact hnew item hold
        · intro hmem
          obtain ⟨i, hi, heq⟩ := List.mem_map.mp hmem
          have hle := hgiven i hi
          omega

theorem distinct_step {a : CrawlAction} (h : s.Distinct) (hstep : s.step rules a = some t) :
    t.Distinct := by
  have hcounted := counted_step h.counted hstep
  have hthread := h.thread
  unfold ThreadDistinct at hthread
  by_cases ha : ∃ visitedBootstrap snapshot, a = .restart visitedBootstrap snapshot
  · obtain ⟨visitedBootstrap, snapshot, rfl⟩ := ha
    obtain ⟨u, hu, rfl⟩ := step_eq_some hstep
    cases performs_of_perform hu with
    | restart => exact ⟨hcounted, trivial, h.saved⟩
  have hbuilt := (step_counter hstep fun v n heq => ha ⟨v, n, heq⟩).2
  obtain ⟨u, hu, rfl⟩ := step_eq_some hstep
  have hquiet : ∀ it, ∀ e ∈ s.engine.pending.remaining it, e ∈ s.engine.pending.remaining it ∨
      s.enqueuePc = .built e.2 ∧ e.1 = e.2.counter := fun _ _ he => Or.inl he
  cases performs_of_perform hu with
  | @mark args hpc hgo =>
      obtain ⟨hpending, -⟩ := enqueueMark_effect rules s.engine args
      refine h.loop hcounted rfl rfl ?_ hbuilt
      dsimp only
      rw [hpending]
      exact hquiet
  | @refuse args hpc hgo =>
      obtain ⟨hpending, -⟩ := enqueueMark_effect rules s.engine args
      refine h.loop hcounted rfl rfl ?_ hbuilt
      dsimp only
      rw [hpending]
      exact hquiet
  | @put item compact hpc =>
      refine h.loop hcounted rfl rfl ?_ hbuilt
      intro it e he
      rcases Dict.mem_remaining_insert (h.counted.numbered.not_mem_keys hpc) he with hold | rfl
      · exact Or.inl hold
      · exact Or.inr ⟨hpc, rfl⟩
  | build | take | process | fetched | skip | setBudget =>
      exact h.loop hcounted rfl rfl hquiet hbuilt
  | finish | cancel =>
      exact h.loop hcounted rfl rfl (fun _ _ he => Or.inl (Dict.mem_remaining_erase he)) hbuilt
  | begin hth =>
      exact ⟨hcounted, ⟨List.nodup_nil, fun _ _ hmem => (nomatch hmem),
        fun _ _ hmem => (nomatch hmem)⟩, h.saved⟩
  | nextRaises | saveFails => exact ⟨hcounted, trivial, h.saved⟩
  | nextStops hth hnext =>
      rw [hth] at hthread
      exact ⟨hcounted, hthread.1, h.saved⟩
  | @nextYields it rest acc item hth hnext =>
      rw [hth] at hthread
      obtain ⟨hnodup, hto, hnew⟩ := hthread
      obtain ⟨k, hmem, hrest⟩ := Dict.remaining_yield hnext
      obtain ⟨c, hitems⟩ := acc.add_items s.engine.budget item
      have hpending := Dict.mem_items_of_mem_remaining hmem
      obtain rfl : k = item.counter := (h.counted.numbered.keyed _ hpending).1
      have hcounters : ((acc.add s.engine.budget item).items.map SavedItem.counter) =
          acc.items.map SavedItem.counter ++ [item.counter] := by
        rw [hitems, List.map_append]
        rfl
      refine ⟨hcounted, ?_, h.saved⟩
      show ((acc.add s.engine.budget item).items.map SavedItem.counter).Nodup ∧
        (∀ e ∈ s.engine.pending.remaining rest,
          e.1 ∉ (acc.add s.engine.budget item).items.map SavedItem.counter) ∧
        ∀ new, s.enqueuePc = .built new →
          new.counter ∉ (acc.add s.engine.budget item).items.map SavedItem.counter
      rw [hcounters]
      refine ⟨?_, ?_, ?_⟩
      · exact List.nodup_append_comm.mp (List.nodup_cons.mpr ⟨hto _ hmem, hnodup⟩)
      · intro e he hin
        obtain ⟨hold, hne⟩ := hrest e he
        rcases List.mem_append.mp hin with hin | hin
        · exact hto e hold hin
        · exact hne (List.mem_singleton.mp hin)
      · intro new hpc hin
        rcases List.mem_append.mp hin with hin | hin
        · exact hnew new hpc hin
        · have hlt := (h.counted.numbered.built new hpc).2 _ hpending
          exact absurd (List.mem_singleton.mp hin) (Nat.ne_of_gt hlt)
  | read hth =>
      rw [hth] at hthread
      exact ⟨hcounted, hthread, h.saved⟩
  | save hth =>
      rw [hth] at hthread
      refine ⟨hcounted, trivial, ?_⟩
      intro f hf
      rcases List.mem_append.mp hf with hold | hnew
      · exact h.saved f hold
      · obtain rfl := List.mem_singleton.mp hnew
        exact hthread
  | restart visitedBootstrap snapshot => exact absurd ⟨_, _, rfl⟩ ha

/-- **Every snapshot can be resumed from**, whatever came between the steps of its thread. -/
theorem saved_numbered {as : List CrawlAction} (hr : run (Crawl.step rules) {} as = some t) :
    ∀ f ∈ t.saved, f.frontier.Numbered := by
  have hempty : Distinct {} := ⟨Counted.empty, trivial, fun _ hf => (nomatch hf)⟩
  have hdistinct : t.Distinct := run_invariant' (fun _ _ _ h hs => distinct_step h hs) hempty hr
  exact fun f hf => ⟨hdistinct.saved f hf, hdistinct.counted.saved f hf⟩

end Crawl

end GovCrawler
