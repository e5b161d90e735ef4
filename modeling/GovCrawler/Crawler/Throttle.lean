/-
The spacing of visits to one host: `_throttle` and `_domain_lock` in `agent/crawler/engine.py`.

All workers of a crawl go through it, once per page, before they fetch.  The time-out of a page may
cancel a worker wherever it waits.  Keys are network locations, as `_fetch` takes them from the
address; `_domain_locks` and `_domain_next` have no entry for one that was never visited.

`throttle_spaces_visits`: no host is visited faster than the delay allows.
`throttle_lets_through`: no visit is stuck behind others, whichever were cancelled.

Times are exact here, and floating-point numbers in the program.
-/
import GovCrawler.Lib.PacedGate

namespace GovCrawler

open PacedGate Transition

/-- `_throttle`: what is stored is when the next visit may go ahead. -/
def throttle (requestDelay : ℚ) : Pacing Unit where
  -- `self._domain_next.get(netloc, 0.0)`
  due nxt _ := some (nxt.getD 0)
  stamp now := now + requestDelay

/-- The visits of a crawl, by network location. -/
abbrev Visits : Type := Gates String

namespace Visits

variable (requestDelay resolution : ℚ)

def step : Visits → GatesAction String Unit → Option Visits :=
  Gates.step (throttle requestDelay) resolution

/-- A crawl starts, at some time. -/
def start (clock : ℚ) : Visits := { clock }

/-- When visits went ahead, the last one first. -/
def times (s : Visits) (netloc : String) : List ℚ := (s.gate netloc).passed.map Prod.snd

/-- Those that went ahead within a span. -/
def within (s : Visits) (netloc : String) (low span : ℚ) : List ℚ :=
  (s.times netloc).filter fun time => low ≤ time ∧ time ≤ low + span

end Visits

theorem throttle_keeps (requestDelay : ℚ) : (throttle requestDelay).Keeps requestDelay :=
  fun _ _ => ⟨_, rfl, le_refl _⟩

theorem allPaced_visits {requestDelay resolution clock : ℚ} {as : List (GatesAction String Unit)}
    {s : Visits} (hresolution : 0 ≤ resolution)
    (hrun : run (Visits.step requestDelay resolution) (Visits.start clock) as = some s) :
    AllPaced (throttle requestDelay) requestDelay resolution s :=
  allPaced_of_run (throttle_keeps requestDelay) hresolution hrun

/--
**No host is visited too fast.**  Over every run, of any number of workers, with any of them
cancelled wherever they wait: the visits of a host go ahead in the order in which the workers asked
for them, one is at least the delay after the other, less the resolution of the clock, and so there
is a bound on how many go ahead within any span of time.
-/
theorem throttle_spaces_visits {requestDelay resolution clock : ℚ}
    {as : List (GatesAction String Unit)} {s : Visits} (hresolution : 0 ≤ resolution)
    (hrun : run (Visits.step requestDelay resolution) (Visits.start clock) as = some s)
    (netloc : String) :
    (s.gate netloc).passed.Pairwise (After requestDelay resolution) ∧
      ∀ low span, 0 ≤ span → resolution ≤ requestDelay →
        (s.within netloc low span).length * (requestDelay - resolution) ≤
          span + (requestDelay - resolution) := by
  have hpaced := allPaced_visits hresolution hrun netloc
  refine ⟨hpaced.spaced, fun low span hspan hle => ?_⟩
  have htimes : (s.times netloc).Pairwise fun late early =>
      early + (requestDelay - resolution) ≤ late :=
    List.pairwise_map.mpr (hpaced.spaced.imp After.gap)
  have hwithin : ∀ time ∈ s.within netloc low span, low ≤ time ∧ time ≤ low + span :=
    fun time ht => by
      have hin := (List.mem_filter.mp ht).2
      exact of_decide_eq_true hin
  have hcount : (s.within netloc low span).length * (requestDelay - resolution) ≤
      low + span - low + (requestDelay - resolution) :=
    length_mul_le (htimes.sublist List.filter_sublist) (fun time ht => (hwithin time ht).1)
      (fun time ht => (hwithin time ht).2) (by linarith)
  linarith

/--
**No visit is stuck.**  In every state that is reached, whatever was cancelled on the way, a visit
that waits and was not cancelled can go ahead by what the workers at that host do, as the clock
moves on: none has to start, and none has to be cancelled.
-/
theorem throttle_lets_through {requestDelay resolution clock : ℚ}
    {as : List (GatesAction String Unit)} {s : Visits} (hresolution : 0 ≤ resolution)
    (hrun : run (Visits.step requestDelay resolution) (Visits.start clock) as = some s)
    {netloc : String} {ticket : Nat} (hwants : Wants (s.gate netloc) ticket) :
    ∃ bs, (∀ b ∈ bs, ∀ k action, b = .on k action → k = netloc ∧ action.Serves) ∧
      ∃ t, run (Visits.step requestDelay resolution) s bs = some t ∧
        ticket ∈ (t.gate netloc).passed.map Prod.fst :=
  exists_run_passed (throttle_keeps requestDelay) hresolution ()
    (allPaced_visits hresolution hrun) hwants

/-! Three pages of one host and one of another.  The page that is first in the queue is cancelled
after it was woken, and the next one goes ahead in its place. -/

def threePages : List (GatesAction String Unit) :=
  [.on "a.gov.in" .call, .on "a.gov.in" .call, .on "a.gov.in" .call, .on "b.gov.in" .call,
    .on "a.gov.in" (.look 0 ()), .on "a.gov.in" (.pass 0), .on "b.gov.in" (.look 0 ()),
    .on "b.gov.in" (.pass 0), .on "a.gov.in" (.cancel 1), .on "a.gov.in" (.resume 1),
    .tick 1 (by decide), .on "a.gov.in" (.resume 2), .on "a.gov.in" (.look 2 ())]

def pageThrough : List (GatesAction String Unit) :=
  [.on "a.gov.in" (.sleep 2), .tick (1 / 2) (by norm_num), .on "a.gov.in" (.wake 2),
    .on "a.gov.in" (.pass 2)]

def afterThreePages : Option Visits := run (Visits.step (3 / 2) 0) (Visits.start 7) threePages

theorem afterThreePages_isSome : afterThreePages.isSome = true := by decide +kernel

def afterPageThrough : Option Visits :=
  run (Visits.step (3 / 2) 0) (Visits.start 7) (threePages ++ pageThrough)

theorem afterPageThrough_isSome : afterPageThrough.isSome = true := by decide +kernel

theorem throttle_spaces_visits_threePages :
    let s := afterPageThrough.get afterPageThrough_isSome
    (s.gate "a.gov.in").passed.Pairwise (After (3 / 2) 0) ∧
      (s.within "a.gov.in" 7 2).length * ((3 / 2 : ℚ) - 0) ≤ 2 + (3 / 2 - 0) := by
  obtain ⟨hspaced, hcount⟩ := throttle_spaces_visits (le_refl 0)
    (Option.some_get afterPageThrough_isSome).symm "a.gov.in"
  exact ⟨hspaced, hcount 7 2 (by norm_num) (by norm_num)⟩

theorem throttle_lets_through_threePages :
    ∃ bs t, run (Visits.step (3 / 2) 0) (afterThreePages.get afterThreePages_isSome) bs = some t ∧
      2 ∈ (t.gate "a.gov.in").passed.map Prod.fst := by
  have hwants : Wants ((afterThreePages.get afterThreePages_isSome).gate "a.gov.in") 2 :=
    Or.inr ⟨by decide +kernel, by decide +kernel⟩
  obtain ⟨bs, -, t, hrun, hpassed⟩ :=
    throttle_lets_through (le_refl 0) (Option.some_get afterThreePages_isSome).symm hwants
  exact ⟨bs, t, hrun, hpassed⟩

end GovCrawler
