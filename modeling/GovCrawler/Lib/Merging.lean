/-
What a record keeps of many values.

A record that is captured again and again keeps one value of each kind: the first that is
worth anything, or the best.  `HoldsFirst` and `HoldsBest` say so of a value and of all those
that there were, and each has the step by which a further value is taken or left.
-/
import Mathlib.Order.Lattice

namespace Merging

variable {α β : Type*}

/-- It is the first of the values that `p` holds of; where there is none, `p` does not hold
of it either. -/
def HoldsFirst (p : α → Bool) (vs : List α) (v : α) : Prop :=
  match vs.find? p with
  | some w => v = w
  | none => p v = false

theorem holdsFirst_singleton (p : α → Bool) (v : α) : HoldsFirst p [v] v := by
  unfold HoldsFirst
  rw [List.find?_singleton]
  by_cases hv : p v = true
  · rw [if_pos hv]
  · rw [if_neg hv]
    exact Bool.eq_false_iff.mpr hv

/-- A further value is taken if there is none yet. -/
theorem HoldsFirst.append {p : α → Bool} {vs : List α} {v : α} (h : HoldsFirst p vs v) (w : α) :
    HoldsFirst p (vs ++ [w]) (if p w && !p v then w else v) := by
  unfold HoldsFirst at h ⊢
  rw [List.find?_append]
  cases hfind : vs.find? p with
  | some u =>
      rw [hfind] at h
      have hv : p v = true := h ▸ List.find?_some hfind
      simpa [hv] using h
  | none =>
      rw [hfind] at h
      have hv : p v = false := h
      rw [Option.none_or, List.find?_singleton, hv]
      by_cases hw : p w = true
      · simp [hw]
      · simp [hw, hv]

/-- It is one of the values, better than all before it and as good as all after it. -/
def HoldsBest [LT β] [LE β] (rank : α → β) (vs : List α) (v : α) : Prop :=
  ∃ before after, vs = before ++ v :: after ∧ (∀ u ∈ before, rank u < rank v) ∧
    ∀ u ∈ after, rank u ≤ rank v

section Best

variable [LinearOrder β] {rank : α → β}

theorem holdsBest_singleton (rank : α → β) (v : α) : HoldsBest rank [v] v :=
  ⟨[], [], rfl, List.forall_mem_nil _, List.forall_mem_nil _⟩

/-- A further value is taken if it is better. -/
theorem HoldsBest.append {vs : List α} {v : α} (h : HoldsBest rank vs v) (w : α) :
    HoldsBest rank (vs ++ [w]) (if rank v < rank w then w else v) := by
  obtain ⟨before, after, rfl, hbefore, hafter⟩ := h
  by_cases hw : rank v < rank w
  · rw [if_pos hw]
    refine ⟨before ++ v :: after, [], rfl, fun u hu => ?_, List.forall_mem_nil _⟩
    rcases List.mem_append.mp hu with hu | hu
    · exact lt_trans (hbefore u hu) hw
    · rcases List.mem_cons.mp hu with rfl | hu
      · exact hw
      · exact lt_of_le_of_lt (hafter u hu) hw
  · rw [if_neg hw]
    refine ⟨before, after ++ [w], by rw [List.append_assoc, List.cons_append], hbefore,
      fun u hu => ?_⟩
    rcases List.mem_append.mp hu with hu | hu
    · exact hafter u hu
    · obtain rfl := List.mem_singleton.mp hu
      exact not_lt.mp hw

end Best

end Merging
