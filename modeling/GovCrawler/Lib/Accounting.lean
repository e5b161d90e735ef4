/-
Accounts: what the entries of a list weigh together.

An argument that something is bounded gives each entry of some list a weight and shows that
no step raises what they weigh together.  A step changes one entry, adds one, or takes one
out, and it may make the others lighter.
-/
import Mathlib.Algebra.Order.BigOperators.Group.List
import Mathlib.Algebra.Order.Group.Nat
import Mathlib.Algebra.Ring.Nat
import Mathlib.Data.List.Sort
import Mathlib.Order.WellFounded

namespace Accounting

variable {α : Type*} (f : α → Nat)

/-- What the entries weigh together. -/
def total (l : List α) : Nat := (l.map f).sum

@[simp] theorem total_nil : total f [] = 0 := rfl

@[simp] theorem total_cons (a : α) (l : List α) : total f (a :: l) = f a + total f l := rfl

@[simp] theorem total_append (l m : List α) : total f (l ++ m) = total f l + total f m := by
  simp [total]

theorem total_perm {l m : List α} (h : l.Perm m) : total f l = total f m :=
  (h.map f).sum_eq

theorem total_orderedInsert (r : α → α → Prop) [DecidableRel r] (a : α) (l : List α) :
    total f (l.orderedInsert r a) = f a + total f l :=
  total_perm f (List.perm_orderedInsert r a l)

variable {f} {g : α → Nat}

/-- Entries that get lighter weigh less together. -/
theorem total_le {l : List α} (h : ∀ a ∈ l, f a ≤ g a) : total f l ≤ total g l :=
  List.sum_le_sum h

/-- One entry is replaced, and none of the others gets heavier. -/
theorem total_set_le {l : List α} (h : ∀ a ∈ l, f a ≤ g a) {i : Nat} {a : α}
    (hget : l[i]? = some a) (b : α) : total f (l.set i b) + g a ≤ total g l + f b := by
  induction l generalizing i with
  | nil => cases hget
  | cons c l ih =>
      obtain ⟨hc, hl⟩ := List.forall_mem_cons.mp h
      cases i with
      | zero =>
          obtain rfl : c = a := Option.some.inj hget
          have hrest := total_le hl
          simp only [List.set_cons_zero, total_cons]
          omega
      | succ i =>
          have hrest := ih hl hget
          simp only [List.set_cons_succ, total_cons]
          omega

variable (f) in
/-- One entry is taken out. -/
theorem total_eraseIdx {l : List α} {i : Nat} {a : α} (hget : l[i]? = some a) :
    total f (l.eraseIdx i) + f a = total f l := by
  induction l generalizing i with
  | nil => cases hget
  | cons c l ih =>
      cases i with
      | zero =>
          obtain rfl : c = a := Option.some.inj hget
          simp only [List.eraseIdx_cons_zero, total_cons]
          omega
      | succ i =>
          have hrest := ih hget
          simp only [List.eraseIdx_cons_succ, total_cons]
          omega

/-- A quantity with a bound is largest at some moment. -/
theorem exists_forall_le (h : Nat → Nat) {bound : Nat} (hbound : ∀ n, h n ≤ bound) :
    ∃ N, ∀ n, h n ≤ h N := by
  refine ⟨Function.argmin fun n => bound - h n, fun n => ?_⟩
  have hmin := Function.argmin_le (fun n => bound - h n) n
  have hle := hbound n
  have hle' := hbound (Function.argmin fun n => bound - h n)
  omega

end Accounting
