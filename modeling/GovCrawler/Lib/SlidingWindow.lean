/-
A limit on what happens in any window of time.

A limiter remembers when things happened, forgets what has left the window, and lets nothing more
happen while it remembers as many as the limit.  When it checks, it counts the window that ends
there; the bound is on every window, wherever it begins.  What carries it over is that a thing that
happens was checked for no later than it happened, so that whatever shares a window with it, and
came before it, was counted.

`Paced` says of the times alone that each of them was checked for, and `Remembers` that the
limiter's memory counts like all of them do.
-/
import Mathlib.Data.List.Count
import Mathlib.Order.Lattice

namespace SlidingWindow

variable {T : Type*} [LinearOrder T] [Add T] {width : T}

/-- What happened at `t` has not left the window at `now`. -/
def live (width now t : T) : Bool := decide (now < t + width)

/-- What a limiter forgets when it checks. -/
def prune (width now : T) (times : List T) : List T := times.filter (live width now)

theorem live_of_le {now later t : T} (hle : now ≤ later) (h : live width later t = true) :
    live width now t = true :=
  decide_eq_true (lt_of_le_of_lt hle (of_decide_eq_true h))

/-! ### Every window -/

/-- Before each of the times there was a check that found fewer than the limit. -/
inductive Paced (limit : Nat) (width : T) : List T → Prop
  | nil : Paced limit width []
  | snoc {times : List T} {checked t : T} (h : Paced limit width times) (hle : checked ≤ t)
      (hfew : times.countP (live width checked) < limit) : Paced limit width (times ++ [t])

/-- **The limit holds in every window**, which is to say among any times less than the width of one
apart. -/
theorem Paced.countP_le {limit : Nat} {times : List T} (h : Paced limit width times) {p : T → Bool}
    (hp : ∀ s t, p s = true → p t = true → t < s + width) : times.countP p ≤ limit := by
  induction h with
  | nil => exact Nat.zero_le _
  | @snoc times checked t _ hle hfew ih =>
      rw [List.countP_append, List.countP_singleton]
      by_cases ht : p t = true
      · -- what shares the window with the last one was counted when that was checked for
        have hcounted : times.countP p ≤ times.countP (live width checked) :=
          List.countP_mono_left fun s _ hs =>
            decide_eq_true (lt_of_le_of_lt hle (hp s t hs ht))
        rw [if_pos ht]
        omega
      · rw [if_neg ht]
        exact ih

/-! ### What is forgotten -/

/-- From `since` on, the memory has in the window what there was. -/
def Remembers (width since : T) (memory times : List T) : Prop :=
  ∀ now, since ≤ now → prune width now memory = prune width now times

variable {since now : T} {memory times : List T}

theorem Remembers.refl (since : T) (times : List T) : Remembers width since times times :=
  fun _ _ => rfl

theorem Remembers.mono (h : Remembers width since memory times) (hle : since ≤ now) :
    Remembers width now memory times :=
  fun later hlater => h later (le_trans hle hlater)

/-- What has left the window does not come back. -/
theorem Remembers.prune (h : Remembers width since memory times) (hle : since ≤ now) :
    Remembers width now (prune width now memory) times := by
  intro later hlater
  rw [← h later (le_trans hle hlater)]
  unfold SlidingWindow.prune
  rw [List.filter_filter]
  refine List.filter_congr fun t _ => ?_
  cases hlive : live width later t with
  | false => rfl
  | true => rw [live_of_le hlater hlive, Bool.and_self]

theorem Remembers.snoc (h : Remembers width since memory times) (t : T) :
    Remembers width since (memory ++ [t]) (times ++ [t]) := by
  intro now hnow
  have hold := h now hnow
  unfold SlidingWindow.prune at hold ⊢
  rw [List.filter_append, List.filter_append, hold]

/-- So the limiter counts what there was. -/
theorem Remembers.length_prune (h : Remembers width since memory times) (hle : since ≤ now) :
    (SlidingWindow.prune width now memory).length = times.countP (live width now) := by
  rw [h now hle, List.countP_eq_length_filter]
  rfl

end SlidingWindow
