/-
The lock of an event loop, as `asyncio.Lock` is written: a flag, and a queue of futures.

A task that finds the lock taken, or someone before it in the queue, appends a future and awaits
it.  `release` resolves the first future of the queue and leaves the flag down: whoever was woken
puts it up again when its task runs, and any number of other tasks may run before.  A waiter may
be cancelled at any point, also between being woken and running; its future stays in the queue
until its task runs, which then has to wake the next one.

Each call of `acquire` gets a ticket.  Over every interleaving: at most one caller is inside
(`Sound.inside_unique`), callers come in the order of their tickets (`Sound.order`), and whenever
the lock is free and someone is in the queue, a task is about to run (`Sound.awake`).
-/
import Mathlib.Data.List.Basic
import GovCrawler.Lib.Transition

namespace AsyncLock

open Transition

/-- What a waiter awaits. -/
inductive Fut
  | pending
  | woken
  | cancelled
  /-- It was woken, and its task was cancelled before it ran. -/
  | doomed
  deriving DecidableEq, Repr

/-- The future has a result. -/
def Fut.called : Fut → Bool
  | .woken | .doomed => true
  | .pending | .cancelled => false

/-- The waiter still wants the lock. -/
def Fut.live : Fut → Bool
  | .pending | .woken => true
  | .cancelled | .doomed => false

/-- `task.cancel()`: a future that has a result keeps it, and the task raises when it runs. -/
def Fut.cancel : Fut → Fut
  | .pending | .cancelled => .cancelled
  | .woken | .doomed => .doomed

structure Waiter where
  ticket : Nat
  fut : Fut
  deriving DecidableEq, Repr

structure Lock where
  locked : Bool := false
  waiters : List Waiter := []
  deriving DecidableEq, Repr

/-- `_wake_up_first`. -/
def wakeUpFirst : List Waiter → List Waiter
  | [] => []
  | w :: ws => if w.fut = .pending then { w with fut := .woken } :: ws else w :: ws

/-- `self._waiters.remove(fut)`. -/
def remove (ticket : Nat) (ws : List Waiter) : List Waiter :=
  ws.filter fun w => w.ticket ≠ ticket

def Waiter.cancel (ticket : Nat) (w : Waiter) : Waiter :=
  { w with fut := if w.ticket = ticket then w.fut.cancel else w.fut }

/-- `acquire` returns at once. -/
def Lock.free (l : Lock) : Bool := !l.locked && l.waiters.all fun w => w.fut = .cancelled

/-- `release`. -/
def Lock.release (l : Lock) : Lock := { locked := false, waiters := wakeUpFirst l.waiters }

/-- A cancelled waiter runs: if the lock is free, it wakes the next one, and raises. -/
def Lock.abandon (ticket : Nat) (l : Lock) : Lock :=
  { l with
    waiters :=
      if l.locked then remove ticket l.waiters else wakeUpFirst (remove ticket l.waiters) }

/-- The lock and its callers. -/
structure System where
  lock : Lock := {}
  /-- How many calls of `acquire` there were.  The number of a call is its ticket. -/
  calls : Nat := 0
  /-- Who is between `acquire` and `release`. -/
  inside : List Nat := []
  /-- Who came inside, the last one first. -/
  entered : List Nat := []
  deriving DecidableEq, Repr

inductive Action
  | acquire
  /-- The task of a waiter whose future is done runs. -/
  | resume (ticket : Nat)
  /-- The task of a waiter is cancelled. -/
  | cancel (ticket : Nat)
  | release (ticket : Nat)
  deriving DecidableEq, Repr

namespace System

/-- `self._locked = True`. -/
def enter (s : System) (ticket : Nat) (waiters : List Waiter) : System :=
  { s with
    lock := { locked := true, waiters }
    inside := ticket :: s.inside
    entered := ticket :: s.entered }

def step (s : System) : Action → Option System
  | .acquire =>
      if s.lock.free then some { s.enter s.calls s.lock.waiters with calls := s.calls + 1 }
      else
        some
          { s with
            lock := { s.lock with waiters := s.lock.waiters ++ [⟨s.calls, .pending⟩] }
            calls := s.calls + 1 }
  | .resume ticket => do
      let w ← s.lock.waiters.find? fun w => w.ticket = ticket
      match w.fut with
      | .pending => none
      | .woken => some (s.enter ticket (remove ticket s.lock.waiters))
      | .cancelled | .doomed => some { s with lock := s.lock.abandon ticket }
  | .cancel ticket =>
      if s.lock.waiters.any fun w => w.ticket = ticket then
        some { s with lock := { s.lock with waiters := s.lock.waiters.map (Waiter.cancel ticket) } }
      else none
  | .release ticket =>
      if ticket ∈ s.inside then
        some { s with lock := s.lock.release, inside := s.inside.erase ticket }
      else none

end System

/-! ### The queue -/

/-- Only the first waiter has been woken, and only while the lock is free; and then it is not
pending. -/
def Orderly (locked : Bool) : List Waiter → Prop
  | [] => True
  | w :: ws =>
      (locked = true → w.fut.called = false) ∧ (locked = false → w.fut ≠ .pending) ∧
        ∀ v ∈ ws, v.fut.called = false

theorem orderly_of_locked {ws : List Waiter} (h : ∀ w ∈ ws, w.fut.called = false) :
    Orderly true ws := by
  cases ws with
  | nil => trivial
  | cons w ws =>
      exact ⟨fun _ => h w List.mem_cons_self, nofun, fun v hv => h v (List.mem_cons_of_mem w hv)⟩

theorem Orderly.not_called {ws : List Waiter} (h : Orderly true ws) :
    ∀ w ∈ ws, w.fut.called = false := by
  cases ws with
  | nil => exact nofun
  | cons w ws =>
      intro v hv
      rcases List.mem_cons.mp hv with rfl | hv
      · exact h.1 rfl
      · exact h.2.2 v hv

theorem Orderly.tail {locked : Bool} {ws : List Waiter} (h : Orderly locked ws) :
    ∀ v ∈ ws.tail, v.fut.called = false := by
  cases ws with
  | nil => exact nofun
  | cons w ws => exact h.2.2

/-- Whoever was woken is first. -/
theorem Orderly.head {locked : Bool} {ws : List Waiter} (h : Orderly locked ws) {w : Waiter}
    (hw : w ∈ ws) (hcalled : w.fut.called = true) : ∃ rest, ws = w :: rest := by
  cases ws with
  | nil => cases hw
  | cons v ws =>
      rcases List.mem_cons.mp hw with rfl | hw
      · exact ⟨ws, rfl⟩
      · rw [h.2.2 w hw] at hcalled
        cases hcalled

theorem orderly_wakeUpFirst {ws : List Waiter} (h : ∀ v ∈ ws.tail, v.fut.called = false) :
    Orderly false (wakeUpFirst ws) := by
  cases ws with
  | nil => trivial
  | cons w ws =>
      rw [wakeUpFirst]
      split
      · exact ⟨nofun, nofun, h⟩
      · next hnot => exact ⟨nofun, fun _ => hnot, h⟩

theorem Orderly.append_pending {locked : Bool} {ws : List Waiter} (h : Orderly locked ws)
    (hne : locked = true ∨ ws ≠ []) (ticket : Nat) :
    Orderly locked (ws ++ [⟨ticket, .pending⟩]) := by
  cases ws with
  | nil =>
      obtain rfl := hne.resolve_right fun hne => hne rfl
      exact ⟨fun _ => rfl, nofun, nofun⟩
  | cons w ws =>
      refine ⟨h.1, h.2.1, fun v hv => ?_⟩
      rcases List.mem_append.mp hv with hv | hv
      · exact h.2.2 v hv
      · rw [List.mem_singleton.mp hv]
        rfl

@[simp] theorem Waiter.ticket_cancel (ticket : Nat) (w : Waiter) :
    (w.cancel ticket).ticket = w.ticket := rfl

theorem Waiter.called_cancel (ticket : Nat) (w : Waiter) :
    (w.cancel ticket).fut.called = w.fut.called := by
  unfold Waiter.cancel
  split
  · cases w.fut <;> rfl
  · rfl

theorem Waiter.pending_of_cancel {ticket : Nat} {w : Waiter}
    (h : (w.cancel ticket).fut = .pending) :
    w.fut = .pending := by
  unfold Waiter.cancel at h
  split at h
  · cases hfut : w.fut <;> rw [hfut] at h <;> cases h
  · exact h

theorem Waiter.live_of_cancel {ticket : Nat} {w : Waiter}
    (h : (w.cancel ticket).fut.live = true) : w.fut.live = true := by
  unfold Waiter.cancel at h
  split at h
  · cases hfut : w.fut <;> rw [hfut] at h <;> cases h
  · exact h

theorem Orderly.map_cancel {locked : Bool} {ws : List Waiter} (h : Orderly locked ws)
    (ticket : Nat) : Orderly locked (ws.map (Waiter.cancel ticket)) := by
  cases ws with
  | nil => trivial
  | cons w ws =>
      refine ⟨fun hl => (w.called_cancel ticket).trans (h.1 hl),
        fun hl hpending => h.2.1 hl (Waiter.pending_of_cancel hpending), fun v hv => ?_⟩
      obtain ⟨u, hu, rfl⟩ := List.mem_map.mp hv
      exact (u.called_cancel ticket).trans (h.2.2 u hu)

theorem mem_of_mem_tail_remove {ticket : Nat} {ws : List Waiter} {v : Waiter}
    (h : v ∈ (remove ticket ws).tail) : v ∈ ws.tail := by
  cases ws with
  | nil => exact h
  | cons w ws =>
      unfold remove at h
      rw [List.filter_cons] at h
      split at h
      · exact List.mem_of_mem_filter h
      · exact List.mem_of_mem_filter (List.mem_of_mem_tail h)

theorem mem_of_mem_remove {ticket : Nat} {ws : List Waiter} {v : Waiter}
    (h : v ∈ remove ticket ws) : v ∈ ws :=
  List.mem_of_mem_filter h

theorem Orderly.abandon {l : Lock} (h : Orderly l.locked l.waiters) (ticket : Nat) :
    Orderly (l.abandon ticket).locked (l.abandon ticket).waiters := by
  unfold Lock.abandon
  cases hl : l.locked with
  | true =>
      rw [hl] at h
      exact orderly_of_locked fun w hw => h.not_called w (mem_of_mem_remove hw)
  | false => exact orderly_wakeUpFirst fun v hv => h.tail v (mem_of_mem_tail_remove hv)

/-! ### Sound systems -/

structure Sound (s : System) : Prop where
  /-- The queue is in the order of the calls. -/
  sorted : s.lock.waiters.Pairwise fun v w => v.ticket < w.ticket
  issued : ∀ w ∈ s.lock.waiters, w.ticket < s.calls
  queue : Orderly s.lock.locked s.lock.waiters
  /-- The flag says whether someone is inside. -/
  inside : (s.lock.locked = false ∧ s.inside = []) ∨
    (s.lock.locked = true ∧ ∃ t, s.inside = [t] ∧ s.entered.head? = some t)
  past : ∀ t ∈ s.entered, t < s.calls
  /-- Callers came in the order of their calls … -/
  order : s.entered.Pairwise (· > ·)
  /-- … and those that want to, come after them. -/
  behind : ∀ w ∈ s.lock.waiters, w.fut.live = true → ∀ t ∈ s.entered, t < w.ticket

theorem sound_init : Sound {} where
  sorted := List.Pairwise.nil
  issued := nofun
  queue := trivial
  inside := Or.inl ⟨rfl, rfl⟩
  past := nofun
  order := List.Pairwise.nil
  behind := nofun

namespace Sound

variable {s s' : System}

/-- **At most one is inside.** -/
theorem inside_unique (h : Sound s) {t u : Nat} (ht : t ∈ s.inside) (hu : u ∈ s.inside) :
    t = u := by
  rcases h.inside with ⟨-, hnil⟩ | ⟨-, v, hv, -⟩
  · rw [hnil] at ht
    cases ht
  · rw [hv] at ht hu
    exact (List.mem_singleton.mp ht).trans (List.mem_singleton.mp hu).symm

theorem inside_of_free (h : Sound s) (hfree : s.lock.locked = false) : s.inside = [] := by
  rcases h.inside with ⟨-, hnil⟩ | ⟨hlocked, -⟩
  · exact hnil
  · rw [hfree] at hlocked
    cases hlocked

theorem locked_of_mem (h : Sound s) {t : Nat} (ht : t ∈ s.inside) :
    s.lock.locked = true ∧ s.inside = [t] ∧ s.entered.head? = some t := by
  rcases h.inside with ⟨-, hnil⟩ | ⟨hlocked, v, hv, hhead⟩
  · rw [hnil] at ht
    cases ht
  · rw [hv] at ht
    obtain rfl := List.mem_singleton.mp ht
    exact ⟨hlocked, hv, hhead⟩

/-- **No wakeup is lost.**  While the lock is free and someone is in the queue, the task that is
first is about to run. -/
theorem awake (h : Sound s) (hfree : s.lock.locked = false) {w : Waiter} {ws : List Waiter}
    (hw : s.lock.waiters = w :: ws) : w.fut ≠ .pending := by
  have hq := h.queue
  rw [hw] at hq
  exact hq.2.1 hfree

/-- What the invariant says of the queue stays when waiters leave it or give up. -/
theorem of_waiters (h : Sound s) {l : Lock} (hqueue : Orderly l.locked l.waiters)
    {inside : List Nat}
    (hinside : (l.locked = false ∧ inside = []) ∨
      (l.locked = true ∧ ∃ t, inside = [t] ∧ s.entered.head? = some t))
    (hsorted : l.waiters.Pairwise fun v w => v.ticket < w.ticket)
    (hold : ∀ w ∈ l.waiters, ∃ v ∈ s.lock.waiters,
      v.ticket = w.ticket ∧ (w.fut.live = true → v.fut.live = true)) :
    Sound { s with lock := l, inside } where
  sorted := hsorted
  issued w hw := by
    obtain ⟨v, hv, hticket, -⟩ := hold w hw
    exact hticket ▸ h.issued v hv
  queue := hqueue
  inside := hinside
  past := h.past
  order := h.order
  behind w hw hlive := by
    obtain ⟨v, hv, hticket, hwas⟩ := hold w hw
    exact hticket ▸ h.behind v hv (hwas hlive)

theorem sorted_remove (h : Sound s) (ticket : Nat) :
    (remove ticket s.lock.waiters).Pairwise fun v w => v.ticket < w.ticket :=
  h.sorted.sublist List.filter_sublist

end Sound

theorem map_ticket_wakeUpFirst (ws : List Waiter) :
    (wakeUpFirst ws).map Waiter.ticket = ws.map Waiter.ticket := by
  cases ws with
  | nil => rfl
  | cons w ws =>
      rw [wakeUpFirst]
      split <;> rfl

theorem length_wakeUpFirst (ws : List Waiter) : (wakeUpFirst ws).length = ws.length := by
  rw [← List.length_map Waiter.ticket, map_ticket_wakeUpFirst, List.length_map]

theorem exists_live_wakeUpFirst {ws : List Waiter} {w : Waiter} {ticket : Nat} (hw : w ∈ ws)
    (hticket : w.ticket = ticket) (hlive : w.fut.live = true) :
    ∃ v ∈ wakeUpFirst ws, v.ticket = ticket ∧ v.fut.live = true := by
  cases ws with
  | nil => cases hw
  | cons u ws =>
      rw [wakeUpFirst]
      split
      · rcases List.mem_cons.mp hw with rfl | hw
        · exact ⟨_, List.mem_cons_self, hticket, rfl⟩
        · exact ⟨w, List.mem_cons_of_mem _ hw, hticket, hlive⟩
      · exact ⟨w, hw, hticket, hlive⟩

theorem pairwise_wakeUpFirst {ws : List Waiter} (h : ws.Pairwise fun v w => v.ticket < w.ticket) :
    (wakeUpFirst ws).Pairwise fun v w => v.ticket < w.ticket := by
  rw [← List.pairwise_map] at h ⊢
  rw [map_ticket_wakeUpFirst]
  exact h

theorem mem_wakeUpFirst {ws : List Waiter} {w : Waiter} (h : w ∈ wakeUpFirst ws) :
    ∃ v ∈ ws, v.ticket = w.ticket ∧ (w.fut.live = true → v.fut.live = true) := by
  cases ws with
  | nil => cases h
  | cons u ws =>
      rw [wakeUpFirst] at h
      split at h
      · next hpending =>
          rcases List.mem_cons.mp h with rfl | h
          · exact ⟨u, List.mem_cons_self, rfl, fun _ => by rw [hpending]; rfl⟩
          · exact ⟨w, List.mem_cons_of_mem u h, rfl, id⟩
      · exact ⟨w, h, rfl, id⟩

namespace Sound

variable {s s' : System}

theorem acquire (h : Sound s) (hs : s.step .acquire = some s') : Sound s' := by
  dsimp only [System.step] at hs
  split at hs
  · next hfree =>
      obtain rfl := Option.some.inj hs
      obtain ⟨hlocked, hall⟩ := Bool.and_eq_true_iff.mp hfree
      have hcancelled : ∀ w ∈ s.lock.waiters, w.fut = .cancelled := fun w hw =>
        of_decide_eq_true (List.all_eq_true.mp hall w hw)
      have hnil : s.inside = [] := h.inside_of_free ((Bool.not_eq_true' _).mp hlocked)
      refine
        { sorted := h.sorted
          issued := fun w hw => Nat.lt_succ_of_lt (h.issued w hw)
          queue := orderly_of_locked fun w hw => by rw [hcancelled w hw]; rfl
          inside := Or.inr ⟨rfl, s.calls, congrArg (List.cons s.calls) hnil, rfl⟩
          past := fun t ht => ?_
          order := List.pairwise_cons.mpr ⟨h.past, h.order⟩
          behind := fun w hw hlive => ?_ }
      · rcases List.mem_cons.mp ht with rfl | ht
        · exact Nat.lt_succ_self s.calls
        · exact Nat.lt_succ_of_lt (h.past t ht)
      · rw [hcancelled w hw] at hlive
        cases hlive
  · next hfree =>
      obtain rfl := Option.some.inj hs
      have hne : s.lock.locked = true ∨ s.lock.waiters ≠ [] := by
        by_contra hnot
        obtain ⟨hlocked, hnil⟩ := not_or.mp hnot
        refine hfree (Bool.and_eq_true_iff.mpr ⟨?_, ?_⟩)
        · rw [eq_false_of_ne_true hlocked]
          rfl
        · rw [not_not.mp hnil]
          rfl
      refine
        { sorted := List.pairwise_append.mpr ⟨h.sorted, List.pairwise_singleton _ _, ?_⟩
          issued := fun w hw => ?_
          queue := h.queue.append_pending hne s.calls
          inside := h.inside
          past := fun t ht => Nat.lt_succ_of_lt (h.past t ht)
          order := h.order
          behind := fun w hw hlive t ht => ?_ }
      · intro v hv w hw
        rw [List.mem_singleton.mp hw]
        exact h.issued v hv
      · rcases List.mem_append.mp hw with hw | hw
        · exact Nat.lt_succ_of_lt (h.issued w hw)
        · rw [List.mem_singleton.mp hw]
          exact Nat.lt_succ_self s.calls
      · rcases List.mem_append.mp hw with hw | hw
        · exact h.behind w hw hlive t ht
        · rw [List.mem_singleton.mp hw]
          exact h.past t ht

theorem resume (h : Sound s) {ticket : Nat} (hs : s.step (.resume ticket) = some s') :
    Sound s' := by
  obtain ⟨w, hfind, hs⟩ := Option.bind_eq_some_iff.mp hs
  have hw : w ∈ s.lock.waiters := List.mem_of_find?_eq_some hfind
  have hticket := List.find?_some hfind
  obtain rfl : w.ticket = ticket := of_decide_eq_true hticket
  have habandon : Sound { s with lock := s.lock.abandon w.ticket } := by
    refine h.of_waiters (h.queue.abandon w.ticket) ?_ ?_ fun v hv => ?_
    · exact h.inside
    · unfold Lock.abandon
      dsimp only
      split
      · exact h.sorted_remove w.ticket
      · exact pairwise_wakeUpFirst (h.sorted_remove w.ticket)
    · unfold Lock.abandon at hv
      dsimp only at hv
      split at hv
      · exact ⟨v, mem_of_mem_remove hv, rfl, id⟩
      · obtain ⟨u, hu, hrest⟩ := mem_wakeUpFirst hv
        exact ⟨u, mem_of_mem_remove hu, hrest⟩
  cases hfut : w.fut with
  | pending =>
      rw [hfut] at hs
      cases hs
  | cancelled | doomed =>
      rw [hfut] at hs
      exact Option.some.inj hs ▸ habandon
  | woken =>
      rw [hfut] at hs
      obtain rfl := Option.some.inj hs
      have hcalled : w.fut.called = true := by rw [hfut]; rfl
      -- the one that was woken is first, and the lock is free
      obtain ⟨rest, hwaiters⟩ := h.queue.head hw hcalled
      have hsorted := h.sorted
      rw [hwaiters] at hsorted
      have hahead : ∀ v ∈ remove w.ticket s.lock.waiters, v ∈ rest := by
        intro v hv
        obtain ⟨hmem, hne⟩ := List.mem_filter.mp hv
        rw [hwaiters] at hmem
        rcases List.mem_cons.mp hmem with rfl | hmem
        · exact absurd rfl (of_decide_eq_true hne)
        · exact hmem
      have htail : ∀ v ∈ rest, v.fut.called = false := by
        have htail := h.queue.tail
        rw [hwaiters] at htail
        exact htail
      have hfree : s.lock.locked = false := by
        by_contra hnot
        have hq := h.queue
        rw [eq_true_of_ne_false hnot] at hq
        rw [hq.not_called w hw] at hcalled
        cases hcalled
      have hnil : s.inside = [] := h.inside_of_free hfree
      refine
        { sorted := h.sorted_remove w.ticket
          issued := fun v hv => h.issued v (mem_of_mem_remove hv)
          queue := orderly_of_locked fun v hv => htail v (hahead v hv)
          inside := Or.inr ⟨rfl, w.ticket, congrArg (List.cons w.ticket) hnil, rfl⟩
          past := fun t ht => ?_
          order := List.pairwise_cons.mpr ⟨h.behind w hw (by rw [hfut]; rfl), h.order⟩
          behind := fun v hv hlive t ht => ?_ }
      · rcases List.mem_cons.mp ht with rfl | ht
        · exact h.issued w hw
        · exact h.past t ht
      · rcases List.mem_cons.mp ht with rfl | ht
        · exact (List.pairwise_cons.mp hsorted).1 v (hahead v hv)
        · exact h.behind v (mem_of_mem_remove hv) hlive t ht

theorem cancel (h : Sound s) {ticket : Nat} (hs : s.step (.cancel ticket) = some s') :
    Sound s' := by
  obtain ⟨-, hs⟩ := Option.ite_none_right_eq_some.mp hs
  obtain rfl := Option.some.inj hs
  refine h.of_waiters (h.queue.map_cancel ticket) h.inside ?_ fun w hw => ?_
  · exact List.pairwise_map.mpr h.sorted
  · obtain ⟨v, hv, rfl⟩ := List.mem_map.mp hw
    exact ⟨v, hv, rfl, Waiter.live_of_cancel⟩

theorem release (h : Sound s) {ticket : Nat} (hs : s.step (.release ticket) = some s') :
    Sound s' := by
  obtain ⟨hmem, hs⟩ := Option.ite_none_right_eq_some.mp hs
  obtain rfl := Option.some.inj hs
  obtain ⟨hlocked, hinside, -⟩ := h.locked_of_mem hmem
  have hq := h.queue
  rw [hlocked] at hq
  refine h.of_waiters ?_ (Or.inl ⟨rfl, ?_⟩) (pairwise_wakeUpFirst h.sorted)
    fun w hw => mem_wakeUpFirst hw
  · exact orderly_wakeUpFirst fun v hv => hq.not_called v (List.mem_of_mem_tail hv)
  · rw [hinside, List.erase_cons_head]

/-- **Every step keeps the system sound.** -/
theorem step (h : Sound s) {a : Action} (hs : s.step a = some s') : Sound s' := by
  cases a with
  | acquire => exact h.acquire hs
  | resume ticket => exact h.resume hs
  | cancel ticket => exact h.cancel hs
  | release ticket => exact h.release hs

end Sound

/-! ### Who comes in -/

namespace System

variable {s s' : System}

/-- Nobody came in, or the one with this ticket did. -/
def Came (s s' : System) (ticket : Nat) : Prop :=
  (s'.inside = s.inside ∧ s'.entered = s.entered) ∨
    (s'.inside = ticket :: s.inside ∧ s'.entered = ticket :: s.entered)

theorem came_acquire (hs : s.step .acquire = some s') : Came s s' s.calls := by
  dsimp only [step] at hs
  split at hs
  · exact Option.some.inj hs ▸ Or.inr ⟨rfl, rfl⟩
  · exact Option.some.inj hs ▸ Or.inl ⟨rfl, rfl⟩

theorem came_resume {ticket : Nat} (hs : s.step (.resume ticket) = some s') :
    Came s s' ticket := by
  obtain ⟨w, -, hs⟩ := Option.bind_eq_some_iff.mp hs
  cases hfut : w.fut with
  | pending =>
      rw [hfut] at hs
      cases hs
  | woken =>
      rw [hfut] at hs
      exact Option.some.inj hs ▸ Or.inr ⟨rfl, rfl⟩
  | cancelled | doomed =>
      rw [hfut] at hs
      exact Option.some.inj hs ▸ Or.inl ⟨rfl, rfl⟩

theorem same_cancel {ticket : Nat} (hs : s.step (.cancel ticket) = some s') :
    s'.inside = s.inside ∧ s'.entered = s.entered := by
  obtain ⟨-, hs⟩ := Option.ite_none_right_eq_some.mp hs
  exact Option.some.inj hs ▸ ⟨rfl, rfl⟩

theorem entered_release {ticket : Nat} (hs : s.step (.release ticket) = some s') :
    s'.entered = s.entered := by
  obtain ⟨-, hs⟩ := Option.ite_none_right_eq_some.mp hs
  exact Option.some.inj hs ▸ rfl

end System

/-- After a release nobody is inside. -/
theorem Sound.inside_release {s s' : System} (h : Sound s) {ticket : Nat}
    (hs : s.step (.release ticket) = some s') : s'.inside = [] := by
  obtain ⟨hmem, hs⟩ := Option.ite_none_right_eq_some.mp hs
  obtain rfl := Option.some.inj hs
  show s.inside.erase ticket = []
  rw [(h.locked_of_mem hmem).2.1, List.erase_cons_head]

/-- Whoever comes in comes after all that were in before, and finds nobody. -/
theorem Sound.of_came {s s' : System} (h' : Sound s') {ticket : Nat}
    (hin : s'.inside = ticket :: s.inside) (hentered : s'.entered = ticket :: s.entered) :
    s'.inside = [ticket] ∧ ∀ t ∈ s.entered, t < ticket := by
  have hmem : ticket ∈ s'.inside := by
    rw [hin]
    exact List.mem_cons_self
  refine ⟨(h'.locked_of_mem hmem).2.1, ?_⟩
  have horder := h'.order
  rw [hentered] at horder
  exact (List.pairwise_cons.mp horder).1

/-! ### Who runs -/

namespace System

variable {s : System} {ticket : Nat} {w : Waiter}

theorem step_resume_of_woken (hfind : (s.lock.waiters.find? fun u => u.ticket = ticket) = some w)
    (hfut : w.fut = .woken) :
    s.step (.resume ticket) = some (s.enter ticket (remove ticket s.lock.waiters)) := by
  simp only [step, hfind, Option.bind_eq_bind, Option.bind_some, hfut]

/-- A waiter that was cancelled, woken or not. -/
theorem step_resume_of_not_live
    (hfind : (s.lock.waiters.find? fun u => u.ticket = ticket) = some w)
    (hdead : w.fut.live = false) :
    s.step (.resume ticket) = some { s with lock := s.lock.abandon ticket } := by
  cases hfut : w.fut with
  | pending | woken =>
      rw [hfut] at hdead
      cases hdead
  | cancelled | doomed => simp only [step, hfind, Option.bind_eq_bind, Option.bind_some, hfut]

end System

end AsyncLock
