/-
Work that is done in phases, each of which replaces one part of what there is.

A phase may read every part and replaces one, its target, or raises; what raises ends the
work, and the phases that were done stay done.  Where no other phase has the same target, what
a phase has put there is there at the end, and the parts that no later phase replaces are at
the end what the phase has seen.  So a fact about the parts that a phase leaves, in terms of
what it reads, is a fact about the end of the work (`execute_of_lt`).
-/
import Mathlib.Logic.Function.Basic
import Mathlib.Data.List.Basic
import Mathlib.Tactic.Basic

namespace Phases

/-- What becomes of the part `target`. -/
structure Phase (ι β ε : Type*) where
  target : ι
  act : (ι → β) → Except ε β

variable {ι β ε : Type*} [DecidableEq ι]

/-- The phases one after the other, up to the first that raises. -/
def execute : List (Phase ι β ε) → (ι → β) → (ι → β) × Option ε
  | [], s => (s, none)
  | p :: ps, s =>
      match p.act s with
      | .ok b => execute ps (Function.update s p.target b)
      | .error e => (s, some e)

/-- How many phases are done. -/
def completed : List (Phase ι β ε) → (ι → β) → Nat
  | [], _ => 0
  | p :: ps, s =>
      match p.act s with
      | .ok b => completed ps (Function.update s p.target b) + 1
      | .error _ => 0

variable {ps : List (Phase ι β ε)} {p : Phase ι β ε} {s : ι → β}

theorem execute_cons_ok {b : β} (h : p.act s = .ok b) :
    execute (p :: ps) s = execute ps (Function.update s p.target b) := by
  rw [execute, h]

theorem execute_cons_error {e : ε} (h : p.act s = .error e) : execute (p :: ps) s = (s, some e) := by
  rw [execute, h]

theorem completed_cons_ok {b : β} (h : p.act s = .ok b) :
    completed (p :: ps) s = completed ps (Function.update s p.target b) + 1 := by
  rw [completed, h]

theorem completed_cons_error {e : ε} (h : p.act s = .error e) : completed (p :: ps) s = 0 := by
  rw [completed, h]

/-- What is no phase's target stays. -/
theorem execute_of_not_mem {j : ι} (h : j ∉ ps.map Phase.target) : (execute ps s).1 j = s j := by
  induction ps generalizing s with
  | nil => rfl
  | cons p ps ih =>
      rw [List.map_cons, List.mem_cons, not_or] at h
      cases hact : p.act s with
      | error e => rw [execute_cons_error hact]
      | ok b => rw [execute_cons_ok hact, ih h.2, Function.update_of_ne h.1]

/-- What every phase keeps of its target holds of every part. -/
theorem execute_invariant {Q : ι → β → Prop} (hs : ∀ j, Q j (s j))
    (hact : ∀ p ∈ ps, ∀ s b, (∀ j, Q j (s j)) → p.act s = .ok b → Q p.target b) (j : ι) :
    Q j ((execute ps s).1 j) := by
  induction ps generalizing s with
  | nil => exact hs j
  | cons p ps ih =>
      cases hok : p.act s with
      | error e =>
          rw [execute_cons_error hok]
          exact hs j
      | ok b =>
          rw [execute_cons_ok hok]
          refine ih (fun i => ?_) fun q hq => hact q (List.mem_cons_of_mem p hq)
          by_cases hi : i = p.target
          · subst hi
            rw [Function.update_self]
            exact hact p List.mem_cons_self s b hs hok
          · rw [Function.update_of_ne hi]
            exact hs i

/-- A phase that has not been reached has left its target alone. -/
theorem execute_of_le {k : Nat} (hk : ps[k]? = some p) (hle : completed ps s ≤ k)
    (hfirst : p.target ∉ (ps.map Phase.target).take k) : (execute ps s).1 p.target = s p.target := by
  induction ps generalizing s k with
  | nil => rfl
  | cons q ps ih =>
      cases hact : q.act s with
      | error e => rw [execute_cons_error hact]
      | ok b =>
          rw [completed_cons_ok hact] at hle
          obtain ⟨k, rfl⟩ : ∃ l, k = l + 1 := ⟨k - 1, by omega⟩
          rw [List.map_cons, List.take_succ_cons, List.mem_cons, not_or] at hfirst
          rw [execute_cons_ok hact, ih (by simpa using hk) (by omega) hfirst.2,
            Function.update_of_ne hfirst.1]

/-- A phase that is done: its target is what it has made of the parts as they were, and those
that it may have read and that no phase has replaced since are there as it has read them. -/
theorem execute_of_lt {k : Nat} (hk : ps[k]? = some p) (hlt : k < completed ps s)
    (hfirst : p.target ∉ (ps.map Phase.target).take k)
    (hlast : p.target ∉ (ps.map Phase.target).drop (k + 1)) :
    ∃ before, p.act before = .ok ((execute ps s).1 p.target) ∧ before p.target = s p.target ∧
      ∀ j ∉ (ps.map Phase.target).drop k, (execute ps s).1 j = before j := by
  induction ps generalizing s k with
  | nil => cases hk
  | cons q ps ih =>
      cases hact : q.act s with
      | error e =>
          rw [completed_cons_error hact] at hlt
          exact absurd hlt (Nat.not_lt_zero _)
      | ok b =>
          rw [completed_cons_ok hact] at hlt
          rw [execute_cons_ok hact]
          cases k with
          | zero =>
              obtain rfl : q = p := by simpa using hk
              have hrest : q.target ∉ ps.map Phase.target := by simpa using hlast
              refine ⟨s, ?_, rfl, fun j hj => ?_⟩
              · rw [execute_of_not_mem hrest, Function.update_self, hact]
              · rw [List.drop_zero, List.map_cons, List.mem_cons, not_or] at hj
                rw [execute_of_not_mem hj.2, Function.update_of_ne hj.1]
          | succ k =>
              rw [List.map_cons, List.take_succ_cons, List.mem_cons, not_or] at hfirst
              obtain ⟨before, hok, hsame, hframe⟩ := ih (by simpa using hk)
                (Nat.lt_of_succ_lt_succ hlt) hfirst.2 (by simpa using hlast)
              refine ⟨before, hok, ?_, fun j hj => hframe j (by simpa using hj)⟩
              rw [hsame, Function.update_of_ne hfirst.1]

/-- Work that does not raise has gone through every phase. -/
theorem act_of_execute (h : (execute ps s).2 = none) (hp : p ∈ ps) :
    ∃ before b, p.act before = .ok b := by
  induction ps generalizing s with
  | nil => cases hp
  | cons q ps ih =>
      cases hact : q.act s with
      | error e =>
          rw [execute_cons_error hact] at h
          cases h
      | ok b =>
          rw [execute_cons_ok hact] at h
          rcases List.mem_cons.mp hp with rfl | hmem
          · exact ⟨s, b, hact⟩
          · exact ih h hmem

end Phases
