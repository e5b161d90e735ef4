/-
One page: from the fetch to the outbox, `_process` in `agent/crawler/engine.py`.

A page is fetched, written to the machine's visited history, parsed, and its leads are put
into the outbox.  Each of the three is work that is handed to another thread and awaited.
A timeout or a cancellation ends the coroutine at any `await`: work that waits in the pool
is taken back, work that has begun goes on.  An exception ends it as well, and a crash ends
everything.  Writes that have committed stay.

`visited_durable` says when a page in the visited history has its leads in the outbox: if
and only if nothing ended the visit between the one commit and the last of the others.
`page_without_leads` is a timeout that did.  The counters of the crawl and its links, which
come after the leads, are left out.
-/
import GovCrawler.Agent.LocalOutbox
import GovCrawler.Crawler.Frontier
import GovCrawler.Lib.Transition

namespace GovCrawler

open Relational Transition

/-! ### The page and its leads -/

/-- `parser.Lead`. -/
structure ParsedLead where
  email : Option String := none
  personName : Option String := none
  designation : Option String := none
  department : Option String := none
  sourceUrl : String := ""
  sourceTitle : String := ""
  contextSnippet : String := ""
  entityKind : Option String := none
  phone : Option String := none
  channelTag : Option String := none
  confidenceBand : Option String := none
  fieldProvenance : Option String := none
  deriving DecidableEq, Repr

/-- `parse_for_engine`, which may raise, `urlparse(url).netloc`, and `_netloc_to_domain`. -/
structure PageRules where
  parse : String → String → Except String (List ParsedLead)
  netloc : String → String
  netlocToDomain : String → Option Nat

namespace PageRules

variable (rules : PageRules)

/-- `item.domain_id`, or that of the page's host with and without `www`. -/
def domainId (page : QueueItem) : Option Nat :=
  match page.domainId with
  | some id => some id
  | none =>
      let netloc := rules.netloc page.url
      match rules.netlocToDomain netloc with
      | some (id + 1) => some (id + 1)
      | _ => rules.netlocToDomain (removePrefix "www." netloc)

/-- The keywords `_save_leads` calls `save_lead` with. -/
def payload (page : QueueItem) (lead : ParsedLead) : LeadItem where
  snapshotId := rules.domainId page
  email := lead.email
  personName := lead.personName
  designation := lead.designation
  department := lead.department
  sourceUrl := lead.sourceUrl
  sourceTitle := some lead.sourceTitle
  contextSnippet := some lead.contextSnippet
  entityKind := lead.entityKind
  phone := lead.phone
  channelTag := lead.channelTag
  confidenceBand := lead.confidenceBand
  fieldProvenance := lead.fieldProvenance
  depth := page.depth

/-- The leads with an email. -/
def payloads (page : QueueItem) (leads : List ParsedLead) : List LeadItem :=
  (leads.filter fun lead => truthy lead.email).map (rules.payload page)

/-- All that a page has for the outbox. -/
def yields (page : QueueItem) (html : String) : List LeadItem :=
  match rules.parse html page.url with
  | .ok leads => rules.payloads page leads
  | .error _ => []

end PageRules

/-- `visited_history`. -/
abbrev VisitedHistory : Type := String → Option Nat

/-- `mark_visited`. -/
def VisitedHistory.mark (history : VisitedHistory) (url : String) (now : Nat) : VisitedHistory :=
  fun u => if u = url then some now else history u

/-- The URL is in the history. -/
def VisitedHistory.Has (history : VisitedHistory) (url : String) : Prop :=
  (history url).isSome = true

theorem VisitedHistory.has_mark (history : VisitedHistory) (url : String) (now : Nat) :
    (history.mark url now).Has url := by
  unfold Has mark
  rw [if_pos rfl]
  rfl

/-- The history forgets no page. -/
theorem VisitedHistory.Has.mark {history : VisitedHistory} {url : String} (h : history.Has url)
    (url' : String) (now : Nat) : (history.mark url' now).Has url := by
  unfold Has VisitedHistory.mark
  split
  · rfl
  · exact h

/-! ### The visit -/

/-- What the coroutine awaits. -/
inductive VisitPc
  | fetching
  | marking
  | parsing
  | saving
  | linking
  | stopped
  deriving DecidableEq, Repr

/-- What the thread of the database pool is given. -/
inductive PoolJob
  | mark
  /-- `_save_leads`, with the leads that it has not enqueued yet. -/
  | save (left : List LeadItem)
  deriving DecidableEq, Repr

inductive PoolState
  | idle
  | queued (job : PoolJob)
  | running (job : PoolJob)
  | done
  | failed
  deriving DecidableEq, Repr

/-- The work has been handed over and has not ended. -/
def PoolState.isBusy : PoolState → Bool
  | .queued _ | .running _ => true
  | .idle | .done | .failed => false

structure Visit where
  pc : VisitPc := .fetching
  pool : PoolState := .idle
  html : String := ""
  history : VisitedHistory := fun _ => none
  outbox : LocalOutbox := {}
  /-- This visit has written its page to the history. -/
  marked : Bool := false
  /-- What this visit has enqueued. -/
  enqueued : List LeadItem := []

inductive VisitAction
  /-- `_fetch` returns a page, or nothing. -/
  | fetched (html : String)
  /-- The pool takes up the work. -/
  | begin
  /-- The work's next write commits, or it returns. -/
  | work (now : Nat)
  | workRaises
  /-- The coroutine goes on with what the pool has returned or raised. -/
  | proceed
  /-- The same with what the parser has. -/
  | parsed
  | linked
  /-- A timeout, a cancellation, or an exception at the `await`. -/
  | stop
  | crash
  /-- Another visit writes a page to the history. -/
  | markedElsewhere (url : String) (now : Nat)
  /-- Other visits enqueue, and flushers acknowledge and fail. -/
  | outboxChanges (outbox : LocalOutbox)

namespace Visit

variable (rules : PageRules) (jobId : Nat) (page : QueueItem)

/-- The coroutine ends, and what has not begun will not. -/
def halt (s : Visit) : Visit :=
  { s with
    pc := .stopped
    pool := match s.pool with
      | .running job => .running job
      | _ => .idle }

def step (s : Visit) : VisitAction → Option Visit
  | .fetched html =>
      if s.pc = .fetching then
        if html = "" then some { s with pc := .stopped }
        else if page.isSeed then some { s with pc := .parsing, html }
        else some { s with pc := .marking, pool := .queued .mark, html }
      else none
  | .begin =>
      match s.pool with
      | .queued job => some { s with pool := .running job }
      | _ => none
  | .work now =>
      match s.pool with
      | .running .mark =>
          some { s with history := s.history.mark page.url now, marked := true, pool := .done }
      | .running (.save []) => some { s with pool := .done }
      | .running (.save (item :: left)) =>
          some { s with
            outbox := s.outbox.enqueue jobId "lead" item
            enqueued := s.enqueued ++ [item]
            pool := .running (.save left) }
      | _ => none
  | .workRaises =>
      match s.pool with
      | .running _ => some { s with pool := .failed }
      | _ => none
  | .proceed =>
      match s.pc, s.pool with
      | .marking, .done => some { s with pc := .parsing, pool := .idle }
      | .saving, .done => some { s with pc := .linking, pool := .idle }
      | .marking, .failed | .saving, .failed => some s.halt
      | _, _ => none
  | .parsed =>
      if s.pc = .parsing then
        match rules.parse s.html page.url with
        | .ok leads =>
            some { s with pc := .saving, pool := .queued (.save (rules.payloads page leads)) }
        | .error _ => some s.halt
      else none
  | .linked => if s.pc = .linking then some s.halt else none
  | .stop => if s.pc = .stopped then none else some s.halt
  | .crash => some { s with pc := .stopped, pool := .idle }
  | .markedElsewhere url now => some { s with history := s.history.mark url now }
  | .outboxChanges outbox => some { s with outbox }

/-- What an action does, and when it can be taken. -/
inductive Moves (s : Visit) : VisitAction → Visit → Prop
  | nothing (hpc : s.pc = .fetching) : Moves s (.fetched "") { s with pc := .stopped }
  | seed {html : String} (hpc : s.pc = .fetching) (hhtml : html ≠ "") (hseed : page.isSeed = true) :
      Moves s (.fetched html) { s with pc := .parsing, html }
  | page {html : String} (hpc : s.pc = .fetching) (hhtml : html ≠ "")
      (hseed : ¬ page.isSeed = true) :
      Moves s (.fetched html) { s with pc := .marking, pool := .queued .mark, html }
  | begin {job : PoolJob} (hpool : s.pool = .queued job) :
      Moves s .begin { s with pool := .running job }
  | marks (now : Nat) (hpool : s.pool = .running .mark) :
      Moves s (.work now)
        { s with history := s.history.mark page.url now, marked := true, pool := .done }
  | saves (now : Nat) {item : LeadItem} {left : List LeadItem}
      (hpool : s.pool = .running (.save (item :: left))) :
      Moves s (.work now) { s with
        outbox := s.outbox.enqueue jobId "lead" item
        enqueued := s.enqueued ++ [item]
        pool := .running (.save left) }
  | returns (now : Nat) (hpool : s.pool = .running (.save [])) :
      Moves s (.work now) { s with pool := .done }
  | workRaises {job : PoolJob} (hpool : s.pool = .running job) :
      Moves s .workRaises { s with pool := .failed }
  | hasMarked (hpc : s.pc = .marking) (hpool : s.pool = .done) :
      Moves s .proceed { s with pc := .parsing, pool := .idle }
  | hasSaved (hpc : s.pc = .saving) (hpool : s.pool = .done) :
      Moves s .proceed { s with pc := .linking, pool := .idle }
  | hasFailed (hpc : s.pc = .marking ∨ s.pc = .saving) (hpool : s.pool = .failed) :
      Moves s .proceed s.halt
  | parsed {leads : List ParsedLead} (hpc : s.pc = .parsing)
      (hparse : rules.parse s.html page.url = .ok leads) :
      Moves s .parsed { s with pc := .saving, pool := .queued (.save (rules.payloads page leads)) }
  | notParsed {error : String} (hpc : s.pc = .parsing)
      (hparse : rules.parse s.html page.url = .error error) : Moves s .parsed s.halt
  | linked (hpc : s.pc = .linking) : Moves s .linked s.halt
  | stop (hpc : s.pc ≠ .stopped) : Moves s .stop s.halt
  | crash : Moves s .crash { s with pc := .stopped, pool := .idle }
  | markedElsewhere (url : String) (now : Nat) :
      Moves s (.markedElsewhere url now) { s with history := s.history.mark url now }
  | outboxChanges (outbox : LocalOutbox) : Moves s (.outboxChanges outbox) { s with outbox }

variable {rules jobId page} in
/-- **A step is one of these.** -/
theorem moves_of_step {s t : Visit} {a : VisitAction} (h : s.step rules jobId page a = some t) :
    Moves rules jobId page s a t := by
  cases a with
  | fetched html =>
      dsimp only [step] at h
      split at h
      · rename_i hpc
        split at h
        · rename_i hhtml
          obtain rfl := Option.some.inj h
          subst hhtml
          exact .nothing hpc
        · rename_i hhtml
          split at h
          · rename_i hseed
            obtain rfl := Option.some.inj h
            exact .seed hpc hhtml hseed
          · rename_i hseed
            obtain rfl := Option.some.inj h
            exact .page hpc hhtml hseed
      · cases h
  | begin =>
      dsimp only [step] at h
      split at h
      · rename_i job hpool
        obtain rfl := Option.some.inj h
        exact .begin hpool
      · cases h
  | work now =>
      dsimp only [step] at h
      split at h
      · rename_i hpool
        obtain rfl := Option.some.inj h
        exact .marks now hpool
      · rename_i hpool
        obtain rfl := Option.some.inj h
        exact .returns now hpool
      · rename_i item left hpool
        obtain rfl := Option.some.inj h
        exact .saves now hpool
      · cases h
  | workRaises =>
      dsimp only [step] at h
      split at h
      · rename_i job hpool
        obtain rfl := Option.some.inj h
        exact .workRaises hpool
      · cases h
  | proceed =>
      dsimp only [step] at h
      split at h
      · rename_i hpc hpool
        obtain rfl := Option.some.inj h
        exact .hasMarked hpc hpool
      · rename_i hpc hpool
        obtain rfl := Option.some.inj h
        exact .hasSaved hpc hpool
      · rename_i hpc hpool
        obtain rfl := Option.some.inj h
        exact .hasFailed (Or.inl hpc) hpool
      · rename_i hpc hpool
        obtain rfl := Option.some.inj h
        exact .hasFailed (Or.inr hpc) hpool
      · cases h
  | parsed =>
      dsimp only [step] at h
      split at h
      · rename_i hpc
        split at h
        · rename_i leads hparse
          obtain rfl := Option.some.inj h
          exact .parsed hpc hparse
        · rename_i error hparse
          obtain rfl := Option.some.inj h
          exact .notParsed hpc hparse
      · cases h
  | linked =>
      dsimp only [step] at h
      split at h
      · rename_i hpc
        obtain rfl := Option.some.inj h
        exact .linked hpc
      · cases h
  | stop =>
      dsimp only [step] at h
      split at h
      · cases h
      · rename_i hpc
        obtain rfl := Option.some.inj h
        exact .stop hpc
  | crash =>
      obtain rfl := Option.some.inj h
      exact .crash
  | markedElsewhere url now =>
      obtain rfl := Option.some.inj h
      exact .markedElsewhere url now
  | outboxChanges outbox =>
      obtain rfl := Option.some.inj h
      exact .outboxChanges outbox

/-- The visit is over, its work in the pool too. -/
def AtRest (s : Visit) : Prop := s.pc = .stopped ∧ s.pool.isBusy = false

/-- **Visited implies durable**: if the page is in the visited history, all of its leads have
been enqueued. -/
def Durable (s : Visit) : Prop := s.marked = true → s.enqueued = rules.yields page s.html

/-- The page is in the history, and its leads are not on their way. -/
def Between (s : Visit) : Prop :=
  s.marked = true ∧
    (s.pc = .marking ∨ s.pc = .parsing ∨ s.pc = .saving ∧ ∃ job, s.pool = .queued job)

instance (s : Visit) : Decidable s.Between :=
  have : Decidable (∃ job, s.pool = .queued job) :=
    match s.pool with
    | .queued job => .isTrue ⟨job, rfl⟩
    | .idle | .running _ | .done | .failed => .isFalse nofun
  inferInstanceAs (Decidable (_ ∧ _))

/-- Nothing ends the visit between its page's commit and those of its leads. -/
def Undisturbed (s : Visit) : VisitAction → Prop
  | .stop => s.Between → rules.yields page s.html = []
  -- the page is written when nobody waits for it any more
  | .work _ => s.pc = .stopped → s.pool = .running .mark → rules.yields page s.html = []
  | .workRaises => s.marked = true → ∀ left, s.pool = .running (.save left) → left = []
  | .crash =>
      (s.Between → rules.yields page s.html = []) ∧
        (s.marked = true → ∀ left, s.pool = .running (.save left) → left = [])
  | _ => True

instance (s : Visit) : Decidable (∀ left, s.pool = .running (.save left) → left = []) :=
  match s.pool with
  | .running (.save left) =>
      decidable_of_iff (left = []) ⟨fun h _ hleft => by cases hleft; exact h, fun h => h left rfl⟩
  | .running .mark | .idle | .queued _ | .done | .failed => .isTrue nofun

instance (s : Visit) : ∀ a, Decidable (s.Undisturbed rules page a)
  | .stop => inferInstanceAs (Decidable (s.Between → rules.yields page s.html = []))
  | .work _ =>
      inferInstanceAs (Decidable
        (s.pc = .stopped → s.pool = .running .mark → rules.yields page s.html = []))
  | .workRaises =>
      inferInstanceAs (Decidable
        (s.marked = true → ∀ left, s.pool = .running (.save left) → left = []))
  | .crash =>
      inferInstanceAs (Decidable ((s.Between → rules.yields page s.html = []) ∧
        (s.marked = true → ∀ left, s.pool = .running (.save left) → left = [])))
  | .fetched _ | .begin | .proceed | .parsed | .linked | .markedElsewhere _ _
  | .outboxChanges _ => .isTrue trivial

/-- Leads of a page in the history are not enqueued, and nothing will. -/
def Lost (s : Visit) : Prop :=
  s.marked = true ∧ s.enqueued ≠ rules.yields page s.html ∧
    (s.AtRest ∨ s.pc = .saving ∧ s.pool = .failed)

/-! ### The stages of a visit -/

/-- Where a visit can be, with what it has written; `yields` is what the page has. -/
inductive Stage (yields : List LeadItem) : VisitPc → PoolState → Bool → List LeadItem → Prop
  | fetching : Stage yields .fetching .idle false []
  | toMark : Stage yields .marking (.queued .mark) false []
  | marks : Stage yields .marking (.running .mark) false []
  | hasMarked : Stage yields .marking .done true []
  | notMarked : Stage yields .marking .failed false []
  | parsing (marked : Bool) : Stage yields .parsing .idle marked []
  | toSave (marked : Bool) : Stage yields .saving (.queued (.save yields)) marked []
  | saves (marked : Bool) {saved left : List LeadItem} (h : saved ++ left = yields) :
      Stage yields .saving (.running (.save left)) marked saved
  | hasSaved (marked : Bool) : Stage yields .saving .done marked yields
  | notSaved (marked : Bool) (saved : List LeadItem) : Stage yields .saving .failed marked saved
  | linking (marked : Bool) : Stage yields .linking .idle marked yields
  /-- The coroutine has ended, and the pool's thread has not. -/
  | marksLate : Stage yields .stopped (.running .mark) false []
  | savesLate (marked : Bool) {saved left : List LeadItem} (h : saved ++ left = yields) :
      Stage yields .stopped (.running (.save left)) marked saved
  | doneLate (marked : Bool) (saved : List LeadItem) : Stage yields .stopped .done marked saved
  | failedLate (marked : Bool) (saved : List LeadItem) : Stage yields .stopped .failed marked saved
  | stopped (marked : Bool) (saved : List LeadItem) : Stage yields .stopped .idle marked saved

/-- Every visit is at one of its stages. -/
def OnCourse (s : Visit) : Prop :=
  Stage (rules.yields page s.html) s.pc s.pool s.marked s.enqueued

variable {rules jobId page} {s s' : Visit}

theorem onCourse_halt (h : s.OnCourse rules page) : s.halt.OnCourse rules page := by
  obtain ⟨pc, pool, html, history, outbox, marked, enqueued⟩ := s
  unfold OnCourse at h ⊢
  dsimp only at h
  cases h with
  | marks => exact .marksLate
  | marksLate => exact .marksLate
  | saves marked h => exact .savesLate marked h
  | savesLate marked h => exact .savesLate marked h
  | _ => exact .stopped _ _

theorem onCourse_step (h : s.OnCourse rules page) {a : VisitAction}
    (hs : s.step rules jobId page a = some s') : s'.OnCourse rules page := by
  have hhalt := onCourse_halt h
  obtain ⟨pc, pool, html, history, outbox, marked, enqueued⟩ := s
  unfold OnCourse at h ⊢
  dsimp only at h
  cases moves_of_step hs with
  | nothing hpc =>
      obtain rfl : pc = .fetching := hpc
      cases h with
      | fetching => exact .stopped false []
  | seed hpc =>
      obtain rfl : pc = .fetching := hpc
      cases h with
      | fetching => exact .parsing false
  | page hpc =>
      obtain rfl : pc = .fetching := hpc
      cases h with
      | fetching => exact .toMark
  | @begin job hpool =>
      obtain rfl : pool = .queued job := hpool
      cases h with
      | toMark => exact .marks
      | toSave marked => exact .saves marked rfl
  | marks now hpool =>
      obtain rfl : pool = .running .mark := hpool
      cases h with
      | marks => exact .hasMarked
      | marksLate => exact .doneLate true []
  | @saves now item left hpool =>
      obtain rfl : pool = .running (.save (item :: left)) := hpool
      cases h with
      | saves marked h => exact .saves marked (by rw [List.append_assoc]; exact h)
      | savesLate marked h => exact .savesLate marked (by rw [List.append_assoc]; exact h)
  | returns now hpool =>
      obtain rfl : pool = .running (.save []) := hpool
      cases h with
      | saves marked h =>
          rw [List.append_nil] at h
          subst h
          exact .hasSaved marked
      | savesLate marked h => exact .doneLate marked enqueued
  | @workRaises job hpool =>
      obtain rfl : pool = .running job := hpool
      cases h with
      | marks => exact .notMarked
      | marksLate => exact .failedLate false []
      | saves marked h => exact .notSaved marked enqueued
      | savesLate marked h => exact .failedLate marked enqueued
  | hasMarked hpc hpool =>
      obtain rfl : pc = .marking := hpc
      obtain rfl : pool = .done := hpool
      cases h with
      | hasMarked => exact .parsing true
  | hasSaved hpc hpool =>
      obtain rfl : pc = .saving := hpc
      obtain rfl : pool = .done := hpool
      cases h with
      | hasSaved marked => exact .linking marked
  | @parsed leads hpc hparse =>
      obtain rfl : pc = .parsing := hpc
      cases h with
      | parsing marked =>
          have hyields : rules.yields page html = rules.payloads page leads := by
            unfold PageRules.yields
            rw [hparse]
          dsimp only
          rw [← hyields]
          exact .toSave marked
  | hasFailed | notParsed | linked | stop => exact hhalt
  | crash => exact .stopped marked enqueued
  | markedElsewhere url now => exact h
  | outboxChanges outbox => exact h

/-! ### What is lost -/

/-- A visit that is over stays over: only other visits write. -/
theorem atRest_step (h : s.AtRest) {a : VisitAction} (hs : s.step rules jobId page a = some s') :
    s'.AtRest ∧ s'.marked = s.marked ∧ s'.enqueued = s.enqueued ∧ s'.html = s.html := by
  obtain ⟨pc, pool, html, history, outbox, marked, enqueued⟩ := s
  obtain ⟨hpc, hpool⟩ := h
  dsimp only at hpc hpool
  subst hpc
  cases a with
  | crash =>
      obtain rfl := Option.some.inj hs
      exact ⟨⟨rfl, rfl⟩, rfl, rfl, rfl⟩
  | markedElsewhere url now =>
      obtain rfl := Option.some.inj hs
      exact ⟨⟨rfl, hpool⟩, rfl, rfl, rfl⟩
  | outboxChanges outbox =>
      obtain rfl := Option.some.inj hs
      exact ⟨⟨rfl, hpool⟩, rfl, rfl, rfl⟩
  | begin | work now | workRaises | proceed =>
      cases pool with
      | queued job => cases hpool
      | running job => cases hpool
      | _ => cases hs
  | _ => cases hs

/-- What is lost stays lost. -/
theorem lost_step (h : s.Lost rules page) {a : VisitAction}
    (hs : s.step rules jobId page a = some s') : s'.Lost rules page := by
  obtain ⟨hmarked, hne, hrest | ⟨hpc, hpool⟩⟩ := h
  · obtain ⟨hrest', hmarked', henqueued', hhtml'⟩ := atRest_step hrest hs
    refine ⟨hmarked'.trans hmarked, ?_, Or.inl hrest'⟩
    rw [henqueued', hhtml']
    exact hne
  · obtain ⟨pc, pool, html, history, outbox, marked, enqueued⟩ := s
    dsimp only at hpc hpool
    subst hpc hpool
    cases a with
    | proceed | stop | crash =>
        obtain rfl := Option.some.inj hs
        exact ⟨hmarked, hne, Or.inl ⟨rfl, rfl⟩⟩
    | markedElsewhere url now =>
        obtain rfl := Option.some.inj hs
        exact ⟨hmarked, hne, Or.inr ⟨rfl, rfl⟩⟩
    | outboxChanges outbox =>
        obtain rfl := Option.some.inj hs
        exact ⟨hmarked, hne, Or.inr ⟨rfl, rfl⟩⟩
    | _ => cases hs

/-- Between the commits nothing is enqueued, and no work is under way. -/
theorem nothing_of_between (h : s.OnCourse rules page) (hbetween : s.Between) :
    s.enqueued = [] ∧ ∀ job, s.pool ≠ .running job := by
  obtain ⟨pc, pool, html, history, outbox, marked, enqueued⟩ := s
  obtain ⟨hmarked, hwhere⟩ := hbetween
  unfold OnCourse at h
  dsimp only at h hmarked hwhere
  cases h with
  | hasMarked => exact ⟨rfl, nofun⟩
  | parsing => exact ⟨rfl, nofun⟩
  | toSave => exact ⟨rfl, nofun⟩
  | saves => rcases hwhere with hpc | hpc | ⟨-, job, hjob⟩ <;> first | cases hpc | cases hjob
  | hasSaved => rcases hwhere with hpc | hpc | ⟨-, job, hjob⟩ <;> first | cases hpc | cases hjob
  | notSaved => rcases hwhere with hpc | hpc | ⟨-, job, hjob⟩ <;> first | cases hpc | cases hjob
  | toMark | marks | notMarked => cases hmarked
  | _ => rcases hwhere with hpc | hpc | ⟨hpc, -⟩ <;> cases hpc

/-- While leads are being enqueued, those that are left are what is missing. -/
theorem enqueued_of_saving (h : s.OnCourse rules page) {left : List LeadItem}
    (hpool : s.pool = .running (.save left)) : s.enqueued ++ left = rules.yields page s.html := by
  obtain ⟨pc, pool, html, history, outbox, marked, enqueued⟩ := s
  unfold OnCourse at h
  dsimp only at h hpool
  subst hpool
  cases h with
  | saves _ h => exact h
  | savesLate _ h => exact h

theorem ne_of_left {saved left ys : List LeadItem} (h : saved ++ left = ys) (hleft : left ≠ []) :
    saved ≠ ys := by
  rintro rfl
  exact hleft (List.append_right_eq_self.mp h)

/-- What is halted between its commits is lost. -/
theorem lost_of_between (h : s.OnCourse rules page) (hbetween : s.Between)
    (hyields : rules.yields page s.html ≠ []) (hs : s'.AtRest) (hmarked : s'.marked = s.marked)
    (henqueued : s'.enqueued = s.enqueued) (hhtml : s'.html = s.html) : s'.Lost rules page := by
  refine ⟨hmarked.trans hbetween.1, ?_, Or.inl hs⟩
  rw [henqueued, (nothing_of_between h hbetween).1, hhtml]
  exact hyields.symm

/-- The coroutine's end leaves nothing in the pool that has not begun. -/
theorem atRest_halt (h : ∀ job, s.pool ≠ .running job) : s.halt.AtRest := by
  obtain ⟨pc, pool, html, history, outbox, marked, enqueued⟩ := s
  cases pool with
  | running job => exact absurd rfl (h job)
  | _ => exact ⟨rfl, rfl⟩

/-- **A disturbed step** loses leads. -/
theorem lost_of_disturbed (h : s.OnCourse rules page) {a : VisitAction}
    (hdisturbed : ¬ s.Undisturbed rules page a) (hs : s.step rules jobId page a = some s') :
    s'.Lost rules page := by
  cases a with
  | stop =>
      obtain ⟨hbetween, hyields⟩ := Classical.not_imp.mp hdisturbed
      dsimp only [step] at hs
      split at hs
      · cases hs
      · obtain rfl := Option.some.inj hs
        exact lost_of_between h hbetween hyields
          (atRest_halt (nothing_of_between h hbetween).2) rfl rfl rfl
  | work now =>
      obtain ⟨hpc, hrest⟩ := Classical.not_imp.mp hdisturbed
      obtain ⟨hpool, hyields⟩ := Classical.not_imp.mp hrest
      obtain ⟨pc, pool, html, history, outbox, marked, enqueued⟩ := s
      dsimp only at hpc hpool
      subst hpc hpool
      unfold OnCourse at h
      cases h with
      | marksLate =>
          obtain rfl := Option.some.inj hs
          exact ⟨rfl, Ne.symm hyields, Or.inl ⟨rfl, rfl⟩⟩
  | workRaises =>
      obtain ⟨hmarked, hrest⟩ := Classical.not_imp.mp hdisturbed
      obtain ⟨left, hleft⟩ := not_forall.mp hrest
      obtain ⟨hpool, hne⟩ := Classical.not_imp.mp hleft
      have hmissing := ne_of_left (enqueued_of_saving h hpool) hne
      obtain ⟨pc, pool, html, history, outbox, marked, enqueued⟩ := s
      dsimp only at hmarked hpool
      subst hmarked hpool
      obtain rfl := Option.some.inj hs
      unfold OnCourse at h
      dsimp only at h
      cases h with
      | saves => exact ⟨rfl, hmissing, Or.inr ⟨rfl, rfl⟩⟩
      | savesLate => exact ⟨rfl, hmissing, Or.inl ⟨rfl, rfl⟩⟩
  | crash =>
      obtain rfl := Option.some.inj hs
      by_cases hbetween : s.Between → rules.yields page s.html = []
      · have hrest := fun hsaves => hdisturbed ⟨hbetween, hsaves⟩
        obtain ⟨hmarked, hrest⟩ := Classical.not_imp.mp hrest
        obtain ⟨left, hleft⟩ := not_forall.mp hrest
        obtain ⟨hpool, hne⟩ := Classical.not_imp.mp hleft
        exact ⟨hmarked, ne_of_left (enqueued_of_saving h hpool) hne, Or.inl ⟨rfl, rfl⟩⟩
      · obtain ⟨hbetween, hyields⟩ := Classical.not_imp.mp hbetween
        exact lost_of_between h hbetween hyields ⟨rfl, rfl⟩ rfl rfl rfl
  | _ => exact absurd trivial hdisturbed

/-- Where a visit is that has marked its page and has leads to enqueue. -/
theorem missing_cases (h : s.OnCourse rules page) (hkept : ¬ s.Lost rules page)
    (hmarked : s.marked = true) (hne : s.enqueued ≠ rules.yields page s.html) :
    s.Between ∨ ∃ left, left ≠ [] ∧ s.pool = .running (.save left) := by
  obtain ⟨pc, pool, html, history, outbox, marked, enqueued⟩ := s
  unfold OnCourse at h
  dsimp only at h hmarked hne
  subst hmarked
  have hrest : (AtRest ⟨pc, pool, html, history, outbox, true, enqueued⟩ ∨
      pc = .saving ∧ pool = .failed) → False :=
    fun hrest => hkept ⟨rfl, hne, hrest⟩
  cases h with
  | hasMarked => exact Or.inl ⟨rfl, Or.inl rfl⟩
  | parsing => exact Or.inl ⟨rfl, Or.inr (Or.inl rfl)⟩
  | toSave => exact Or.inl ⟨rfl, Or.inr (Or.inr ⟨rfl, _, rfl⟩)⟩
  | saves _ h | savesLate _ h =>
      refine Or.inr ⟨_, ?_, rfl⟩
      rintro rfl
      rw [List.append_nil] at h
      exact hne h
  | hasSaved | linking => exact absurd rfl hne
  | notSaved => exact (hrest (Or.inr ⟨rfl, rfl⟩)).elim
  | doneLate | failedLate | stopped => exact (hrest (Or.inl ⟨rfl, rfl⟩)).elim

/-- **An undisturbed step** loses nothing. -/
theorem kept_step (h : s.OnCourse rules page) (hkept : ¬ s.Lost rules page) {a : VisitAction}
    (hok : s.Undisturbed rules page a) (hs : s.step rules jobId page a = some s') :
    ¬ s'.Lost rules page := by
  rintro ⟨hmarked, hne, hover⟩
  have hcases := missing_cases h hkept
  have hnothing := nothing_of_between h
  obtain ⟨pc, pool, html, history, outbox, marked, enqueued⟩ := s
  unfold OnCourse at h
  dsimp only at h
  cases moves_of_step hs with
  | nothing hpc | seed hpc | page hpc =>
      obtain rfl : pc = .fetching := hpc
      cases h with
      | fetching => cases hmarked
  | begin => obtain ⟨-, hpool⟩ | ⟨-, hpool⟩ := hover <;> cases hpool
  | marks now hpool =>
      obtain rfl : pool = .running .mark := hpool
      cases h with
      | marks => obtain ⟨hpc, -⟩ | ⟨hpc, -⟩ := hover <;> cases hpc
      | marksLate => exact hne (hok rfl rfl).symm
  | saves => obtain ⟨-, hpool⟩ | ⟨-, hpool⟩ := hover <;> cases hpool
  | returns now hpool =>
      obtain rfl : pool = .running (.save []) := hpool
      cases h with
      | saves _ h | savesLate _ h =>
          rw [List.append_nil] at h
          exact hne h
  | @workRaises job hpool =>
      obtain rfl : pool = .running job := hpool
      obtain hbetween | ⟨left, hleft, hpool⟩ := hcases hmarked hne
      · exact (hnothing hbetween).2 job rfl
      · exact hleft (hok hmarked left hpool)
  | hasMarked => obtain ⟨hpc, -⟩ | ⟨hpc, -⟩ := hover <;> cases hpc
  | hasSaved hpc hpool =>
      obtain rfl : pc = .saving := hpc
      obtain rfl : pool = .done := hpool
      cases h with
      | hasSaved => exact hne rfl
  | hasFailed hpc hpool =>
      obtain rfl : pool = .failed := hpool
      cases h with
      | notMarked => cases hmarked
      | notSaved => exact hkept ⟨hmarked, hne, Or.inr ⟨rfl, rfl⟩⟩
      | failedLate => obtain hpc | hpc := hpc <;> cases hpc
  | parsed =>
      obtain ⟨hpc, -⟩ | ⟨-, hpool⟩ := hover
      · cases hpc
      · cases hpool
  | notParsed hpc hparse =>
      obtain rfl : pc = .parsing := hpc
      cases h with
      | parsing =>
          -- a page that cannot be parsed yields nothing
          refine hne (Eq.symm ?_)
          show rules.yields page html = []
          unfold PageRules.yields
          rw [hparse]
  | linked hpc =>
      obtain rfl : pc = .linking := hpc
      cases h with
      | linking => exact hne rfl
  | stop =>
      obtain hbetween | ⟨left, hleft, hpool⟩ := hcases hmarked hne
      · exact hne ((hnothing hbetween).1.trans (hok hbetween).symm)
      · obtain ⟨-, hbusy⟩ | ⟨hpc, -⟩ := hover
        · unfold halt at hbusy
          rw [hpool] at hbusy
          cases hbusy
        · cases hpc
  | crash =>
      obtain hbetween | ⟨left, hleft, hpool⟩ := hcases hmarked hne
      · exact hne ((hnothing hbetween).1.trans (hok.1 hbetween).symm)
      · exact hleft (hok.2 hmarked left hpool)
  | markedElsewhere => exact hkept ⟨hmarked, hne, hover⟩
  | outboxChanges => exact hkept ⟨hmarked, hne, hover⟩

/-- The history has every page that its visit has marked. -/
theorem hasMarked_step (h : s.marked = true → s.history.Has page.url) {a : VisitAction}
    (hs : s.step rules jobId page a = some s') : s'.marked = true → s'.history.Has page.url := by
  cases moves_of_step hs with
  | marks now => exact fun _ => s.history.has_mark page.url now
  | markedElsewhere url now => exact fun hmarked => (h hmarked).mark url now
  | _ => exact h

end Visit

/-! ### Every run -/

open Visit

/-- **Visited implies durable.**  In every run, whatever ends the visit and whenever, the page
is in the visited history without all of its leads in the outbox exactly if it was ended, or
its leads could not be enqueued, after `mark_visited` had committed. -/
theorem visited_durable (rules : PageRules) (jobId : Nat) (page : QueueItem)
    (history : VisitedHistory) (outbox : LocalOutbox) (as : List VisitAction) (t : Visit)
    (hr : run (Visit.step rules jobId page) { history, outbox } as = some t) (hrest : t.AtRest) :
    t.Durable rules page ↔
      Meets (Visit.step rules jobId page) (Undisturbed rules page) { history, outbox } as := by
  have h0 : OnCourse rules page { history, outbox } := .fetching
  have hkept0 : ¬ Lost rules page { history, outbox } := fun hlost => nomatch hlost.1
  constructor
  · intro hdurable
    refine Meets.of_latch_of_inv (fun s a s' h hs => onCourse_step h hs)
      (fun s a s' h hnot hs => lost_of_disturbed h hnot hs)
      (fun s a s' h hs => lost_step h hs) h0 hr ?_
    rintro ⟨hmarked, hne, -⟩
    exact hne (hdurable hmarked)
  · intro hm hmarked
    have hstep : ∀ s a s', OnCourse rules page s ∧ ¬ Lost rules page s →
        Undisturbed rules page s a → s.step rules jobId page a = some s' →
        OnCourse rules page s' ∧ ¬ Lost rules page s' :=
      fun s a s' h hok hs => ⟨onCourse_step h.1 hs, kept_step h.1 h.2 hok hs⟩
    have hkept := (run_invariant hstep ⟨h0, hkept0⟩ hm hr).2
    exact Classical.not_not.mp fun hne => hkept ⟨hmarked, hne, Or.inl hrest⟩

/-- A URL is never marked without being fetched: the history has every page that a visit has
marked, whatever other visits write. -/
theorem marked_in_history (rules : PageRules) (jobId : Nat) (page : QueueItem)
    (history : VisitedHistory) (outbox : LocalOutbox) (as : List VisitAction) (t : Visit)
    (hr : run (Visit.step rules jobId page) { history, outbox } as = some t)
    (hmarked : t.marked = true) : t.history.Has page.url := by
  have hstep : ∀ (s : Visit) (a : VisitAction) (s' : Visit),
      (s.marked = true → s.history.Has page.url) → s.step rules jobId page a = some s' →
      s'.marked = true → s'.history.Has page.url :=
    fun _ _ _ h hs => hasMarked_step h hs
  exact run_invariant' hstep (fun h => Bool.noConfusion h) hr hmarked

/-! A page of one lead. -/

/-- A parser that finds the address on the page that is it. -/
def contactRules : PageRules where
  parse html url := .ok [{ email := some html, sourceUrl := url }]
  netloc _ := "gov.example"
  netlocToDomain netloc := if netloc = "gov.example" then some 4 else none

def contactPage : QueueItem :=
  { priority := 1, counter := 0, url := "http://gov.example/contact", depth := 1, domainId := none,
    isSeed := false, pageHops := 0, chainBudget := none }

/-- The page is fetched and marked, its lead is enqueued, and it has no links. -/
def wholeVisit : List VisitAction :=
  [.fetched "info@gov.example", .begin, .work 50, .proceed, .parsed, .begin, .work 51, .work 52,
    .proceed, .linked]

theorem lead_enqueued :
    ∃ t, run (Visit.step contactRules 7 contactPage) {} wholeVisit = some t ∧
      t.marked = true ∧ t.Durable contactRules contactPage := by
  have hview : (run (Visit.step contactRules 7 contactPage) {} wholeVisit).map
      (fun t => (t.pc, t.pool, t.marked)) = some (.stopped, .idle, true) := by decide +kernel
  obtain ⟨t, ht, hview⟩ := Option.map_eq_some_iff.mp hview
  simp only [Prod.mk.injEq] at hview
  obtain ⟨hpc, hpool, hmarked⟩ := hview
  have hrest : t.AtRest := ⟨hpc, by rw [hpool]; rfl⟩
  refine ⟨t, ht, hmarked, ?_⟩
  exact (visited_durable contactRules 7 contactPage _ _ wholeVisit t ht hrest).mpr
    (by decide +kernel)

/-- The page is fetched and marked, and the time is up while it is parsed. -/
def timedOut : List VisitAction :=
  [.fetched "info@gov.example", .begin, .work 50, .proceed, .stop]

/-- The page is in the history, it has a lead, and the outbox is empty. -/
theorem page_without_leads :
    ∃ t, run (Visit.step contactRules 7 contactPage) {} timedOut = some t ∧
      t.AtRest ∧ t.history.Has contactPage.url ∧
      (contactRules.yields contactPage t.html).map LeadItem.email = [some "info@gov.example"] ∧
      t.outbox.outbox.rows = [] ∧ ¬ t.Durable contactRules contactPage := by
  have hview : (run (Visit.step contactRules 7 contactPage) {} timedOut).map
      (fun t => (t.pc, t.pool.isBusy, t.marked, t.html)) =
      some (.stopped, false, true, "info@gov.example") := by decide +kernel
  have hwritten : (run (Visit.step contactRules 7 contactPage) {} timedOut).map
      (fun t => (t.history contactPage.url, t.enqueued.length, t.outbox.outbox.rows.length)) =
      some (some 50, 0, 0) := by decide +kernel
  obtain ⟨t, ht, hview⟩ := Option.map_eq_some_iff.mp hview
  rw [ht] at hwritten
  simp only [Option.map_some, Option.some.injEq, Prod.mk.injEq] at hview hwritten
  obtain ⟨hpc, hpool, hmarked, hhtml⟩ := hview
  obtain ⟨hhistory, henqueued, houtbox⟩ := hwritten
  have hyields : (contactRules.yields contactPage t.html).map LeadItem.email =
      [some "info@gov.example"] := by
    rw [hhtml]
    decide +kernel
  refine ⟨t, ht, ⟨hpc, hpool⟩, ?_, hyields, List.eq_nil_of_length_eq_zero houtbox, ?_⟩
  · unfold VisitedHistory.Has
    rw [hhistory]
    rfl
  · intro hdurable
    rw [← hdurable hmarked, List.eq_nil_of_length_eq_zero henqueued] at hyields
    cases hyields

end GovCrawler
