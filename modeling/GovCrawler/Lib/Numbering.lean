/-
Values numbered in the order in which they are first seen.

A table gives each value that has been seen the key of its number.  `note` sees a value: one
that has a number keeps it, and a new one gets the next, so no number changes.  Where the
keys of different numbers differ, a key leads back to the number, and different values have
different numbers; `lookup_table` and `findIdx?_keys` are the two ways.
-/
import Mathlib.Data.List.Nodup

namespace Numbering

variable {α K B : Type*}

/-! ### Seeing a value -/

section Seeing

variable [DecidableEq α]

/-- `a` is seen. -/
def note (seen : List α) (a : α) : List α := if a ∈ seen then seen else seen ++ [a]

theorem note_of_mem {seen : List α} {a : α} (h : a ∈ seen) : note seen a = seen := if_pos h

theorem note_of_not_mem {seen : List α} {a : α} (h : a ∉ seen) : note seen a = seen ++ [a] :=
  if_neg h

theorem mem_note_self (seen : List α) (a : α) : a ∈ note seen a := by
  by_cases h : a ∈ seen
  · rw [note_of_mem h]
    exact h
  · rw [note_of_not_mem h]
    exact List.mem_append_right _ (List.mem_singleton.mpr rfl)

theorem mem_note {seen : List α} {b : α} (h : b ∈ seen) (a : α) : b ∈ note seen a := by
  by_cases ha : a ∈ seen
  · rw [note_of_mem ha]
    exact h
  · rw [note_of_not_mem ha]
    exact List.mem_append_left _ h

theorem nodup_note {seen : List α} (h : seen.Nodup) (a : α) : (note seen a).Nodup := by
  by_cases ha : a ∈ seen
  · rw [note_of_mem ha]
    exact h
  · rw [note_of_not_mem ha]
    refine List.nodup_append.mpr ⟨h, List.nodup_singleton a, ?_⟩
    rintro b hb c hc rfl
    exact ha (List.mem_singleton.mp hc ▸ hb)

/-- What has a number keeps it. -/
theorem idxOf_note {seen : List α} {b : α} (h : b ∈ seen) (a : α) :
    (note seen a).idxOf b = seen.idxOf b := by
  by_cases ha : a ∈ seen
  · rw [note_of_mem ha]
  · rw [note_of_not_mem ha, List.idxOf_append_of_mem h]

end Seeing

/-! ### Keys -/

/-- The key that a value has. -/
theorem lookup_table [DecidableEq α] (key : Nat → K) (seen : List α) (a : α) :
    (seen.mapIdx fun n b => (b, key n)).lookup a =
      if a ∈ seen then some (key (seen.idxOf a)) else none := by
  induction seen generalizing key with
  | nil => rfl
  | cons b seen ih =>
      rw [List.mapIdx_cons, List.lookup_cons]
      by_cases hab : a = b
      · subst hab
        rw [if_pos List.mem_cons_self, List.idxOf_cons_self]
        simp
      · rw [beq_false_of_ne hab]
        have hrest := ih fun n => key (n + 1)
        have hmem : a ∈ b :: seen ↔ a ∈ seen := by simp [hab]
        rw [List.idxOf_cons_ne _ (Ne.symm hab)]
        simp only [hmem]
        exact hrest

/-- The number that a key leads back to. -/
theorem findIdx?_keys [DecidableEq K] {key : Nat → K} (hkey : Function.Injective key) (seen : List α)
    (value : α → B) {n : Nat} (hn : n < seen.length) :
    (seen.mapIdx fun n a => (key n, value a)).findIdx? (fun c => c.1 == key n) = some n := by
  rw [List.findIdx?_eq_some_iff_getElem]
  refine ⟨by rwa [List.length_mapIdx], ?_, ?_⟩
  · rw [List.getElem_mapIdx]
    exact beq_self_eq_true _
  · intro m hm
    rw [List.getElem_mapIdx, Bool.not_eq_true]
    exact beq_false_of_ne fun heq => Nat.ne_of_lt hm (hkey heq)

/-- The decimal numerals of different numbers differ. -/
theorem toString_injective : Function.Injective (toString : Nat → String) := by
  intro m n h
  have hdigits := congrArg (fun s => Nat.ofDigitChars 10 (String.toList s) 0) h
  simpa [Nat.toList_repr, Nat.ofDigitChars_ten_toDigits] using hdigits

end Numbering
