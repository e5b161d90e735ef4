/-
A gate that lets calls through at a pace.

Behind a lock of the event loop, a call looks at the clock and at what the one before it left
behind, sleeps for as long as that says, and leaves its own time behind in passing.  Gates are
kept by key and share one clock.  The clock only moves forward; a sleep ends no sooner than its
end, less the resolution of the clock.

Over every interleaving of any number of calls through any number of gates, with calls cancelled
wherever they wait: those that pass a gate do so in the order in which they came, and no two of
them are closer than the gap, less the resolution (`Paced.spaced`).  However many were cancelled,
each of the others can still be let through (`exists_run_passed`).

Statements between two awaits are single steps here, so others may come in between them that
could not in the event loop; there are only more runs.
-/
import Mathlib.Data.Rat.Defs
import Mathlib.Algebra.Order.Ring.Rat
import Mathlib.Tactic.Linarith
import GovCrawler.Lib.AsyncLock

namespace PacedGate

open AsyncLock Transition

/-- What a gate leaves behind, and what it makes of that; `γ` is what a call draws. -/
structure Pacing (γ : Type) where
  /-- When a call may pass; `none` where it may pass at once. -/
  due : Option ℚ → γ → Option ℚ
  /-- What a call leaves behind that passes at the given time. -/
  stamp : ℚ → ℚ

/-- From a call to the next there is the gap. -/
def Pacing.Keeps {γ : Type} (pacing : Pacing γ) (gap : ℚ) : Prop :=
  ∀ time draw, ∃ d, pacing.due (some (pacing.stamp time)) draw = some d ∧ time + gap ≤ d

/-- Where a call is that is behind the lock. -/
inductive Pc
  /-- About to look at the clock. -/
  | holding
  /-- About to sleep. -/
  | pausing (pause : ℚ)
  | sleeping (due : ℚ)
  /-- Cancelled in its sleep. -/
  | interrupted
  /-- About to look at the clock again, and to pass. -/
  | passing
  deriving DecidableEq

structure Gate where
  lock : System := {}
  pc : Nat → Pc := fun _ => .holding
  stored : Option ℚ := none
  /-- Who passed, and when, the last one first. -/
  passed : List (Nat × ℚ) := []

inductive GateAction (γ : Type)
  | call
  | resume (ticket : Nat)
  | look (ticket : Nat) (draw : γ)
  | sleep (ticket : Nat)
  | wake (ticket : Nat)
  | pass (ticket : Nat)
  | cancel (ticket : Nat)

namespace Gate

variable {γ : Type}

def move (g : Gate) (ticket : Nat) (pc : Pc) : Gate :=
  { g with pc := Function.update g.pc ticket pc }

/-- Where the call is, if it is behind the lock. -/
def pc? (g : Gate) (ticket : Nat) : Option Pc :=
  if ticket ∈ g.lock.inside then some (g.pc ticket) else none

/-- What a call does that has looked at the clock. -/
def look (pacing : Pacing γ) (now : ℚ) (g : Gate) (draw : γ) : Pc :=
  match pacing.due g.stored draw with
  | none => .passing
  | some due => if now < due then .pausing (due - now) else .passing

def step (pacing : Pacing γ) (resolution now : ℚ) (g : Gate) : GateAction γ → Option Gate
  | .call => (g.lock.step .acquire).map fun lock => { g.move g.lock.calls .holding with lock }
  | .resume ticket =>
      (g.lock.step (.resume ticket)).map fun lock => { g.move ticket .holding with lock }
  | .look ticket draw =>
      match g.pc? ticket with
      | some .holding => some (g.move ticket (look pacing now g draw))
      | _ => none
  | .sleep ticket =>
      match g.pc? ticket with
      | some (.pausing pause) => some (g.move ticket (.sleeping (now + pause)))
      | _ => none
  | .wake ticket =>
      match g.pc? ticket with
      | some (.sleeping due) =>
          if due ≤ now + resolution then some (g.move ticket .passing) else none
      | some .interrupted => (g.lock.step (.release ticket)).map fun lock => { g with lock }
      | _ => none
  | .pass ticket =>
      match g.pc? ticket with
      | some .passing =>
          (g.lock.step (.release ticket)).map fun lock =>
            { g with
              lock
              stored := some (pacing.stamp now)
              passed := (ticket, now) :: g.passed }
      | _ => none
  | .cancel ticket =>
      match g.pc? ticket with
      | none => (g.lock.step (.cancel ticket)).map fun lock => { g with lock }
      | some (.sleeping _) => some (g.move ticket .interrupted)
      | _ => none

end Gate

/-- All gates, and the clock. -/
structure Gates (κ : Type) where
  clock : ℚ
  gate : κ → Gate := fun _ => {}

inductive GatesAction (κ γ : Type)
  | tick (elapsed : ℚ) (forward : 0 ≤ elapsed)
  | on (key : κ) (action : GateAction γ)

namespace Gates

variable {κ γ : Type} [DecidableEq κ]

def step (pacing : Pacing γ) (resolution : ℚ) (s : Gates κ) : GatesAction κ γ → Option (Gates κ)
  | .tick elapsed _ => some { s with clock := s.clock + elapsed }
  | .on key action =>
      ((s.gate key).step pacing resolution s.clock action).map fun g =>
        { s with gate := Function.update s.gate key g }

end Gates

/-! ### One gate -/

/-- When the last call passed. -/
def Gate.last (g : Gate) : Option ℚ := g.passed.head?.map Prod.snd

/-- A call that is behind the lock will not pass before the gap is over. -/
def Ready (gap resolution now : ℚ) (last : Option ℚ) : Pc → Prop
  | .holding | .interrupted => True
  | .pausing pause => ∀ time ∈ last, time + gap ≤ now + pause
  | .sleeping due => ∀ time ∈ last, time + gap ≤ due
  | .passing => ∀ time ∈ last, time + gap ≤ now + resolution

theorem Ready.later {gap resolution now now' : ℚ} {last : Option ℚ} {pc : Pc}
    (h : Ready gap resolution now last pc) (hle : now ≤ now') :
    Ready gap resolution now' last pc := by
  cases pc with
  | holding | interrupted => trivial
  | pausing pause => exact fun time ht => (h time ht).trans (by linarith)
  | sleeping due => exact h
  | passing => exact fun time ht => (h time ht).trans (by linarith)

/-- `late` came after `early`, and passed after it and after the gap. -/
structure After (gap resolution : ℚ) (late early : Nat × ℚ) : Prop where
  ticket : early.1 < late.1
  time : early.2 ≤ late.2
  gap : early.2 + (gap - resolution) ≤ late.2

structure Paced {γ : Type} (pacing : Pacing γ) (gap resolution now : ℚ) (g : Gate) : Prop where
  lock : Sound g.lock
  stored : g.stored = g.last.map pacing.stamp
  ready : ∀ t ∈ g.lock.inside, Ready gap resolution now g.last (g.pc t)
  /-- Those who passed did so in order, and with the gap between them. -/
  spaced : g.passed.Pairwise (After gap resolution)
  past : ∀ p ∈ g.passed, p.2 ≤ now
  entered : ∀ p ∈ g.passed, p.1 ∈ g.lock.entered
  before : ∀ t ∈ g.lock.inside, ∀ p ∈ g.passed, p.1 < t

namespace Paced

variable {γ : Type} {pacing : Pacing γ} {gap resolution now now' : ℚ} {g g' : Gate}

theorem init : Paced pacing gap resolution now {} where
  lock := sound_init
  stored := rfl
  ready := nofun
  spaced := List.Pairwise.nil
  past := nofun
  entered := nofun
  before := nofun

theorem later (h : Paced pacing gap resolution now g) (hle : now ≤ now') :
    Paced pacing gap resolution now' g :=
  { h with
    ready := fun t ht => (h.ready t ht).later hle
    past := fun p hp => (h.past p hp).trans hle }

/-- The call that is inside moves on. -/
theorem move (h : Paced pacing gap resolution now g) {ticket : Nat} {pc : Pc}
    (hready : Ready gap resolution now g.last pc) :
    Paced pacing gap resolution now (g.move ticket pc) :=
  { h with
    ready := fun t ht => by
      by_cases heq : t = ticket
      · subst heq
        show Ready _ _ _ _ (Function.update g.pc t pc t)
        rw [Function.update_self]
        exact hready
      · show Ready _ _ _ _ (Function.update g.pc ticket pc t)
        rw [Function.update_of_ne heq]
        exact h.ready t ht }

/-- The lock moves on, and someone may have come in. -/
theorem came (h : Paced pacing gap resolution now g) {ticket : Nat} {lock : System}
    (hsound : Sound lock) (hcame : g.lock.Came lock ticket) :
    Paced pacing gap resolution now { g.move ticket .holding with lock } := by
  have hmoved : Paced pacing gap resolution now (g.move ticket .holding) := h.move trivial
  rcases hcame with ⟨hinside, hentered⟩ | ⟨hinside, hentered⟩
  · exact
      { hmoved with
        lock := hsound
        ready := fun t ht => hmoved.ready t (hinside ▸ ht)
        entered := fun p hp => hentered ▸ h.entered p hp
        before := fun t ht => h.before t (hinside ▸ ht) }
  · obtain ⟨honly, hafter⟩ := hsound.of_came hinside hentered
    have hticket : ∀ t ∈ lock.inside, t = ticket := fun t ht => by
      rw [honly] at ht
      exact List.mem_singleton.mp ht
    refine
      { hmoved with
        lock := hsound
        ready := fun t ht => ?_
        entered := fun p hp => hentered ▸ List.mem_cons_of_mem ticket (h.entered p hp)
        before := fun t ht p hp => hticket t ht ▸ hafter p.1 (h.entered p hp) }
    rw [hticket t ht]
    show Ready _ _ _ _ (Function.update g.pc ticket .holding ticket)
    rw [Function.update_self]
    trivial

/-- The call that is inside leaves. -/
theorem leave (h : Paced pacing gap resolution now g) {ticket : Nat} {lock : System}
    (hs : g.lock.step (.release ticket) = some lock) :
    Paced pacing gap resolution now { g with lock } := by
  have hnil := h.lock.inside_release hs
  exact
    { h with
      lock := h.lock.release hs
      ready := fun t ht => by rw [hnil] at ht; cases ht
      entered := fun p hp => System.entered_release hs ▸ h.entered p hp
      before := fun t ht => by rw [hnil] at ht; cases ht }

/-- The call that is inside passes. -/
theorem pass (h : Paced pacing gap resolution now g) {ticket : Nat} {lock : System}
    (hmem : ticket ∈ g.lock.inside) (hpc : g.pc ticket = .passing)
    (hs : g.lock.step (.release ticket) = some lock) :
    Paced pacing gap resolution now
      { g with
        lock
        stored := some (pacing.stamp now)
        passed := (ticket, now) :: g.passed } := by
  have hleft := h.leave hs
  have hnil := h.lock.inside_release hs
  have hready := h.ready ticket hmem
  rw [hpc] at hready
  have hafter : ∀ p ∈ g.passed, After gap resolution (ticket, now) p := fun p hp => by
    refine ⟨h.before ticket hmem p hp, h.past p hp, ?_⟩
    cases hpassed : g.passed with
    | nil =>
        rw [hpassed] at hp
        cases hp
    | cons q rest =>
        have hlast : q.2 + gap ≤ now + resolution :=
          hready q.2 (congrArg (Option.map Prod.snd) (congrArg List.head? hpassed))
        have hle : p.2 ≤ q.2 := by
          have hspaced := h.spaced
          rw [hpassed] at hspaced hp
          rcases List.mem_cons.mp hp with rfl | hp
          · exact le_refl _
          · exact ((List.pairwise_cons.mp hspaced).1 p hp).time
        show p.2 + (gap - resolution) ≤ now
        linarith
  refine
    { hleft with
      stored := rfl
      ready := fun t ht => ?_
      spaced := List.pairwise_cons.mpr ⟨hafter, h.spaced⟩
      past := fun p hp => ?_
      entered := fun p hp => ?_
      before := fun t ht => ?_ }
  · rw [hnil] at ht
    cases ht
  · rcases List.mem_cons.mp hp with rfl | hp
    · exact le_refl now
    · exact h.past p hp
  · rcases List.mem_cons.mp hp with rfl | hp
    · show ticket ∈ lock.entered
      rw [System.entered_release hs]
      exact List.mem_of_mem_head? (h.lock.locked_of_mem hmem).2.2
    · exact hleft.entered p hp
  · rw [hnil] at ht
    cases ht

end Paced

theorem Gate.pc?_eq_some {g : Gate} {ticket : Nat} {pc : Pc} (h : g.pc? ticket = some pc) :
    ticket ∈ g.lock.inside ∧ g.pc ticket = pc := by
  obtain ⟨hmem, hpc⟩ := Option.ite_none_right_eq_some.mp h
  exact ⟨hmem, Option.some.inj hpc⟩

namespace Paced

variable {γ : Type} {pacing : Pacing γ} {gap resolution now : ℚ} {g g' : Gate}

/-- Whoever has looked at the clock sleeps long enough. -/
theorem ready_look (h : Paced pacing gap resolution now g) (hkeeps : pacing.Keeps gap)
    (hresolution : 0 ≤ resolution) (draw : γ) :
    Ready gap resolution now g.last (g.look pacing now draw) := by
  cases hlast : g.last with
  | none =>
      unfold Gate.look
      split
      · exact nofun
      · split <;> exact nofun
  | some time =>
      obtain ⟨due, hdue, hle⟩ := hkeeps time draw
      unfold Gate.look
      rw [h.stored, hlast, Option.map_some, hdue]
      dsimp only
      split
      · rintro _ ⟨⟩
        linarith
      · next hnot =>
          rintro _ ⟨⟩
          linarith [not_lt.mp hnot]

/-- **A gate stays paced**, whatever its calls do. -/
theorem step (h : Paced pacing gap resolution now g) (hkeeps : pacing.Keeps gap)
    (hresolution : 0 ≤ resolution) {a : GateAction γ}
    (hs : g.step pacing resolution now a = some g') : Paced pacing gap resolution now g' := by
  cases a with
  | call =>
      obtain ⟨lock, hlock, rfl⟩ := Option.map_eq_some_iff.mp hs
      exact h.came (h.lock.acquire hlock) (System.came_acquire hlock)
  | resume ticket =>
      obtain ⟨lock, hlock, rfl⟩ := Option.map_eq_some_iff.mp hs
      exact h.came (h.lock.resume hlock) (System.came_resume hlock)
  | look ticket draw =>
      dsimp only [Gate.step] at hs
      split at hs
      · exact Option.some.inj hs ▸ h.move (h.ready_look hkeeps hresolution draw)
      · cases hs
  | sleep ticket =>
      dsimp only [Gate.step] at hs
      split at hs
      · next pause hpc =>
          obtain ⟨hmem, hpc⟩ := Gate.pc?_eq_some hpc
          have hready := h.ready ticket hmem
          rw [hpc] at hready
          exact Option.some.inj hs ▸ h.move hready
      · cases hs
  | wake ticket =>
      dsimp only [Gate.step] at hs
      split at hs
      · next due hpc =>
          obtain ⟨hmem, hpc⟩ := Gate.pc?_eq_some hpc
          have hready := h.ready ticket hmem
          rw [hpc] at hready
          obtain ⟨hover, hs⟩ := Option.ite_none_right_eq_some.mp hs
          exact Option.some.inj hs ▸ h.move fun time ht => (hready time ht).trans hover
      · obtain ⟨lock, hlock, rfl⟩ := Option.map_eq_some_iff.mp hs
        exact h.leave hlock
      · cases hs
  | pass ticket =>
      dsimp only [Gate.step] at hs
      split at hs
      · next hpc =>
          obtain ⟨hmem, hpc⟩ := Gate.pc?_eq_some hpc
          obtain ⟨lock, hlock, rfl⟩ := Option.map_eq_some_iff.mp hs
          exact h.pass hmem hpc hlock
      · cases hs
  | cancel ticket =>
      dsimp only [Gate.step] at hs
      split at hs
      · obtain ⟨lock, hlock, rfl⟩ := Option.map_eq_some_iff.mp hs
        obtain ⟨hinside, hentered⟩ := System.same_cancel hlock
        exact
          { h with
            lock := h.lock.cancel hlock
            ready := fun t ht => h.ready t (hinside ▸ ht)
            entered := fun p hp => hentered ▸ h.entered p hp
            before := fun t ht => h.before t (hinside ▸ ht) }
      · exact Option.some.inj hs ▸ h.move trivial
      · cases hs

end Paced

/-! ### All gates -/

section

variable {κ γ : Type} [DecidableEq κ] {pacing : Pacing γ} {gap resolution : ℚ} {s s' : Gates κ}

/-- Every gate is paced. -/
def AllPaced (pacing : Pacing γ) (gap resolution : ℚ) (s : Gates κ) : Prop :=
  ∀ key, Paced pacing gap resolution s.clock (s.gate key)

theorem AllPaced.step (hkeeps : pacing.Keeps gap) (hresolution : 0 ≤ resolution)
    (h : AllPaced pacing gap resolution s) {a : GatesAction κ γ}
    (hs : s.step pacing resolution a = some s') : AllPaced pacing gap resolution s' := by
  cases a with
  | tick elapsed hforward =>
      obtain rfl := Option.some.inj hs
      exact fun key => (h key).later (by linarith : s.clock ≤ s.clock + elapsed)
  | on key action =>
      obtain ⟨g, hg, rfl⟩ := Option.map_eq_some_iff.mp hs
      intro k
      show Paced _ _ _ _ (Function.update s.gate key g k)
      by_cases hk : k = key
      · subst hk
        rw [Function.update_self]
        exact (h k).step hkeeps hresolution hg
      · rw [Function.update_of_ne hk]
        exact h k

/-- **Calls are let through in order, and the gap is kept**, over every run. -/
theorem allPaced_of_run (hkeeps : pacing.Keeps gap) (hresolution : 0 ≤ resolution) {clock : ℚ}
    {as : List (GatesAction κ γ)}
    (hrun : run (Gates.step pacing resolution) ⟨clock, fun _ => {}⟩ as = some s) :
    AllPaced pacing gap resolution s :=
  run_invariant' (fun _ _ _ h hs => AllPaced.step hkeeps hresolution h hs)
    (fun _ => Paced.init) hrun

end

/-- How many times with a gap between them there are in a span. -/
theorem length_mul_le {gap low high : ℚ} {times : List ℚ}
    (hspaced : times.Pairwise fun late early => early + gap ≤ late)
    (hlow : ∀ time ∈ times, low ≤ time) (hhigh : ∀ time ∈ times, time ≤ high)
    (hspan : low ≤ high + gap) : times.length * gap ≤ high - low + gap := by
  induction times generalizing high with
  | nil =>
      rw [List.length_nil, Nat.cast_zero, zero_mul]
      linarith
  | cons late times ih =>
      obtain ⟨hlate, hspaced⟩ := List.pairwise_cons.mp hspaced
      have hlatelow := hlow late List.mem_cons_self
      have hlatehigh := hhigh late List.mem_cons_self
      have hrest : times.length * gap ≤ late - gap - low + gap :=
        ih hspaced (fun time ht => hlow time (List.mem_cons_of_mem late ht))
          (fun time ht => by linarith [hlate time ht]) (by linarith)
      rw [List.length_cons, Nat.cast_succ, add_mul, one_mul]
      linarith

/-! ### Nobody is stuck -/

/-- The call came, has not passed, and was not cancelled. -/
def Wants (g : Gate) (ticket : Nat) : Prop :=
  (∃ w ∈ g.lock.lock.waiters, w.ticket = ticket ∧ w.fut.live = true) ∨
    (ticket ∈ g.lock.inside ∧ g.pc ticket ≠ .interrupted)

/-- An action of the calls that are there: none comes, and none is cancelled. -/
def GateAction.Serves {γ : Type} : GateAction γ → Prop
  | .call | .cancel _ => False
  | _ => True

/-- How far a call that is inside is from leaving. -/
def Pc.left : Pc → Nat
  | .holding => 5
  | .pausing _ => 4
  | .sleeping _ => 3
  | .passing => 2
  | .interrupted => 1

/-- How much there is to be done before the gate is idle. -/
def Gate.left (g : Gate) : Nat :=
  6 * g.lock.lock.waiters.length + (g.lock.inside.map fun t => (g.pc t).left).sum

section

variable {γ : Type} {pacing : Pacing γ} {gap resolution now : ℚ} {g : Gate}

/-- What a step of a gate has brought a call. -/
def Served (g g' : Gate) (ticket : Nat) : Prop :=
  ticket ∈ g'.passed.map Prod.fst ∨ (Wants g' ticket ∧ g'.left < g.left)

theorem length_remove_lt {ticket : Nat} {ws : List Waiter} {w : Waiter} (hw : w ∈ ws)
    (hticket : w.ticket = ticket) : (remove ticket ws).length < ws.length :=
  List.length_filter_lt_length_iff_exists.mpr ⟨w, hw, by simp [hticket]⟩

/-- The call inside moves on, to where it is not interrupted. -/
theorem served_move {ticket u : Nat} (h : Paced pacing gap resolution now g)
    (hwants : Wants g ticket) (hu : u ∈ g.lock.inside) {pc : Pc} (hpc : pc ≠ .interrupted)
    (hless : pc.left < (g.pc u).left) : Served g (g.move u pc) ticket := by
  refine Or.inr ⟨?_, ?_⟩
  · rcases hwants with hwaits | ⟨hmem, hnot⟩
    · exact Or.inl hwaits
    · obtain rfl := h.lock.inside_unique hu hmem
      refine Or.inr ⟨hmem, ?_⟩
      show Function.update g.pc u pc u ≠ .interrupted
      rw [Function.update_self]
      exact hpc
  · unfold Gate.left Gate.move
    dsimp only
    rw [(h.lock.locked_of_mem hu).2.1]
    simp only [List.map_cons, List.map_nil, List.sum_cons, List.sum_nil, Function.update_self]
    omega

/-- The call inside leaves, and is not the one. -/
theorem wants_release {ticket u : Nat} {lock : System} (h : Paced pacing gap resolution now g)
    (hwants : Wants g ticket) (hu : u ∈ g.lock.inside)
    (hne : ticket ∈ g.lock.inside → g.pc ticket = .interrupted)
    (hs : g.lock.step (.release u) = some lock) {g' : Gate} (hlock : g'.lock = lock) :
    Wants g' ticket ∧ g'.left < g.left := by
  obtain ⟨hmem, hs'⟩ := Option.ite_none_right_eq_some.mp hs
  have hnil := h.lock.inside_release hs
  have hwaiters : g'.lock.lock.waiters = wakeUpFirst g.lock.lock.waiters := by
    rw [hlock, ← Option.some.inj hs']
    rfl
  refine ⟨Or.inl ?_, ?_⟩
  · rcases hwants with ⟨w, hw, hticket, hlive⟩ | ⟨hmem, hnot⟩
    · rw [hwaiters]
      exact exists_live_wakeUpFirst hw hticket hlive
    · exact absurd (hne hmem) hnot
  · unfold Gate.left
    rw [hwaiters, hlock, hnil, length_wakeUpFirst, (h.lock.locked_of_mem hu).2.1]
    simp only [List.map_cons, List.map_nil, List.sum_cons, List.sum_nil]
    have hpos : 0 < (g.pc u).left := by cases g.pc u <;> exact Nat.succ_pos _
    omega

/-- While nobody is inside, the first of the queue runs. -/
theorem served_of_free (h : Paced pacing gap resolution now g)
    (hfree : g.lock.lock.locked = false) (hnil : g.lock.inside = []) {ticket : Nat}
    (hwants : Wants g ticket) :
    ∃ a : GateAction γ, a.Serves ∧ ∃ g',
      g.step pacing resolution now a = some g' ∧ Served g g' ticket := by
  obtain ⟨v, hv, hticket, hlive⟩ := hwants.resolve_right fun hin => by
    rw [hnil] at hin
    cases hin.1
  obtain ⟨w, ws, hws⟩ := List.exists_cons_of_ne_nil (List.ne_nil_of_mem hv)
  have hfind : g.lock.lock.waiters.find? (fun u => u.ticket = w.ticket) = some w := by
    rw [hws]
    exact List.find?_cons_of_pos (decide_eq_true rfl)
  have hless := length_remove_lt (hws ▸ List.mem_cons_self : w ∈ g.lock.lock.waiters) rfl
  have hnext : v.ticket ≠ w.ticket → v ∈ remove w.ticket g.lock.lock.waiters := fun hne =>
    List.mem_filter.mpr ⟨hv, decide_eq_true hne⟩
  have hresume : ∀ lock, g.lock.step (.resume w.ticket) = some lock →
      g.step pacing resolution now (.resume w.ticket) =
        some { g.move w.ticket .holding with lock } := fun lock hlock => by
    show (g.lock.step (.resume w.ticket)).map _ = _
    rw [hlock]
    rfl
  have habandon : w.fut.live = false →
      Served g { g.move w.ticket .holding with
        lock := { g.lock with lock := g.lock.lock.abandon w.ticket } } ticket := by
    intro hdead
    have hne : v.ticket ≠ w.ticket := by
      rw [hws] at hv
      rcases List.mem_cons.mp hv with rfl | hv
      · rw [hdead] at hlive
        cases hlive
      · have hsorted := h.lock.sorted
        rw [hws] at hsorted
        exact ((List.pairwise_cons.mp hsorted).1 v hv).ne'
    have hwaiters : (g.lock.lock.abandon w.ticket).waiters =
        wakeUpFirst (remove w.ticket g.lock.lock.waiters) := by
      unfold Lock.abandon
      rw [hfree]
      rfl
    refine Or.inr ⟨Or.inl ?_, ?_⟩
    · show ∃ u ∈ (g.lock.lock.abandon w.ticket).waiters, _
      rw [hwaiters]
      exact exists_live_wakeUpFirst (hnext hne) hticket hlive
    · unfold Gate.left
      dsimp only [Gate.move]
      rw [hwaiters, hnil, length_wakeUpFirst]
      simp only [List.map_nil, List.sum_nil]
      omega
  refine ⟨.resume w.ticket, trivial, ?_⟩
  cases hlives : w.fut.live with
  | false =>
      exact ⟨_, hresume _ (System.step_resume_of_not_live hfind hlives), habandon hlives⟩
  | true =>
      have hwoken : w.fut = .woken := by
        cases hfut : w.fut with
        | pending => exact absurd hfut (h.lock.awake hfree hws)
        | woken => rfl
        | cancelled | doomed =>
            rw [hfut] at hlives
            cases hlives
      have hstep := System.step_resume_of_woken hfind hwoken
      refine ⟨_, hresume _ hstep, Or.inr ⟨?_, ?_⟩⟩
      · by_cases heq : v.ticket = w.ticket
        · refine Or.inr ⟨?_, ?_⟩
          · rw [← hticket, heq]
            exact List.mem_cons_self
          · show Function.update g.pc w.ticket .holding ticket ≠ .interrupted
            rw [← hticket, heq, Function.update_self]
            decide
        · exact Or.inl ⟨v, hnext heq, hticket, hlive⟩
      · unfold Gate.left
        dsimp only [Gate.move, System.enter]
        rw [hnil]
        simp only [List.map_cons, List.map_nil, List.sum_cons, List.sum_nil, Function.update_self,
          Pc.left]
        omega

/-- **Some step serves a call that wants to pass**, once the clock has moved on far enough. -/
theorem exists_served (h : Paced pacing gap resolution now g) (draw : γ) {ticket : Nat}
    (hwants : Wants g ticket) :
    ∃ elapsed : ℚ, 0 ≤ elapsed ∧ ∃ a : GateAction γ, a.Serves ∧ ∃ g',
      g.step pacing resolution (now + elapsed) a = some g' ∧ Served g g' ticket := by
  rcases h.lock.inside with ⟨hfree, hnil⟩ | ⟨-, u, hinside, -⟩
  · obtain ⟨a, ha, g', hs, hserved⟩ := served_of_free h hfree hnil hwants
    refine ⟨0, le_refl 0, a, ha, g', ?_, hserved⟩
    rw [add_zero]
    exact hs
  · have hu : u ∈ g.lock.inside := by
      rw [hinside]
      exact List.mem_singleton_self u
    have hpc? : g.pc? u = some (g.pc u) := if_pos hu
    have hrelease : ∃ lock, g.lock.step (.release u) = some lock := ⟨_, if_pos hu⟩
    cases hpc : g.pc u with
    | holding =>
        refine ⟨0, le_refl 0, .look u draw, trivial,
          g.move u (g.look pacing (now + 0) draw), ?_, ?_⟩
        · show (match g.pc? u with | some .holding => _ | _ => _) = _
          rw [hpc?, hpc]
        · have hlook : g.look pacing (now + 0) draw = .passing ∨
              ∃ pause, g.look pacing (now + 0) draw = .pausing pause := by
            unfold Gate.look
            split
            · exact Or.inl rfl
            · split
              · exact Or.inr ⟨_, rfl⟩
              · exact Or.inl rfl
          rcases hlook with hlook | ⟨pause, hlook⟩
          · rw [hlook]
            exact served_move h hwants hu nofun (by rw [hpc]; decide)
          · rw [hlook]
            exact served_move h hwants hu nofun (by rw [hpc]; exact Nat.lt_succ_self 4)
    | pausing pause =>
        refine ⟨0, le_refl 0, .sleep u, trivial, g.move u (.sleeping (now + 0 + pause)), ?_, ?_⟩
        · show (match g.pc? u with | some (.pausing pause) => _ | _ => _) = _
          rw [hpc?, hpc]
        · exact served_move h hwants hu nofun (by rw [hpc]; exact Nat.lt_succ_self 3)
    | sleeping due =>
        -- the clock moves on until the sleep is over
        refine ⟨max 0 (due - now - resolution), le_max_left _ _, .wake u, trivial,
          g.move u .passing, ?_, ?_⟩
        · show (match g.pc? u with
            | some (.sleeping due) => _ | some .interrupted => _ | _ => _) = _
          rw [hpc?, hpc]
          exact if_pos (by linarith [le_max_right 0 (due - now - resolution)])
        · exact served_move h hwants hu nofun (by rw [hpc]; exact Nat.lt_succ_self 2)
    | interrupted =>
        obtain ⟨lock, hlock⟩ := hrelease
        refine ⟨0, le_refl 0, .wake u, trivial, { g with lock }, ?_, Or.inr ?_⟩
        · show (match g.pc? u with
            | some (.sleeping due) => _ | some .interrupted => _ | _ => _) = _
          rw [hpc?, hpc, hlock]
          rfl
        · refine wants_release h hwants hu (fun hmem => ?_) hlock rfl
          rw [h.lock.inside_unique hmem hu]
          exact hpc
    | passing =>
        obtain ⟨lock, hlock⟩ := hrelease
        refine ⟨0, le_refl 0, .pass u, trivial,
          { g with
            lock
            stored := some (pacing.stamp (now + 0))
            passed := (u, now + 0) :: g.passed }, ?_, ?_⟩
        · show (match g.pc? u with | some .passing => _ | _ => _) = _
          rw [hpc?, hpc, hlock]
          rfl
        · by_cases heq : ticket = u
          · exact Or.inl (heq ▸ List.mem_cons_self)
          · refine Or.inr (wants_release h hwants hu (fun hmem => ?_) hlock rfl)
            exact absurd (h.lock.inside_unique hmem hu) heq

end

/-- **Nobody is stuck.**  Whatever was cancelled before, a call that wants to pass a gate can be
brought through it by the calls that are there, as the clock moves on. -/
theorem exists_run_passed {κ γ : Type} [DecidableEq κ] {pacing : Pacing γ} {gap resolution : ℚ}
    (hkeeps : pacing.Keeps gap) (hresolution : 0 ≤ resolution) (draw : γ) {s : Gates κ}
    (h : AllPaced pacing gap resolution s) {key : κ} {ticket : Nat}
    (hwants : Wants (s.gate key) ticket) :
    ∃ as, (∀ a ∈ as, ∀ k b, a = .on k b → k = key ∧ b.Serves) ∧
      ∃ s', run (Gates.step pacing resolution) s as = some s' ∧
        ticket ∈ (s'.gate key).passed.map Prod.fst := by
  induction hn : (s.gate key).left using Nat.strongRecOn generalizing s with
  | ind n ih =>
      obtain ⟨elapsed, hforward, a, ha, g', hg', hserved⟩ := exists_served (h key) draw hwants
      have hticked : s.step pacing resolution (.tick elapsed hforward) =
          some { s with clock := s.clock + elapsed } := rfl
      have hmoved : Gates.step pacing resolution { s with clock := s.clock + elapsed } (.on key a) =
          some { clock := s.clock + elapsed, gate := Function.update s.gate key g' } :=
        congrArg (Option.map _) hg'
      have hgate : Function.update s.gate key g' key = g' := Function.update_self _ _ _
      have hacts : ∀ b ∈ [GatesAction.tick elapsed hforward, .on key a],
          ∀ k c, b = .on k c → k = key ∧ c.Serves := by
        intro b hb k c hbc
        rcases List.mem_cons.mp hb with rfl | hb
        · cases hbc
        · rw [List.mem_singleton.mp hb] at hbc
          cases hbc
          exact ⟨rfl, ha⟩
      have hrun : run (Gates.step pacing resolution) s [.tick elapsed hforward, .on key a] =
          some { clock := s.clock + elapsed, gate := Function.update s.gate key g' } := by
        rw [run_cons, hticked, Option.bind_some, run_cons, hmoved]
        rfl
      rcases hserved with hpassed | ⟨hwants', hless⟩
      · refine ⟨_, hacts, _, hrun, ?_⟩
        show ticket ∈ (Function.update s.gate key g' key).passed.map Prod.fst
        rw [hgate]
        exact hpassed
      · have h' := (h.step hkeeps hresolution hticked).step hkeeps hresolution hmoved
        obtain ⟨as, has, s', hs', hpassed⟩ := ih g'.left (hn ▸ hless) h'
          (show Wants (Function.update s.gate key g' key) ticket by rw [hgate]; exact hwants')
          (show (Function.update s.gate key g' key).left = _ by rw [hgate])
        refine ⟨[.tick elapsed hforward, .on key a] ++ as, fun b hb => ?_, s', ?_, hpassed⟩
        · rcases List.mem_append.mp hb with hb | hb
          · exact hacts b hb
          · exact has b hb
        · rw [run_append, hrun]
          exact hs'

end PacedGate
