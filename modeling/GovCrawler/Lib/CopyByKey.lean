/-
Copying the rows of one table into another, by a key that may not be one.

A migration that moves rows into a table which hands out new primary keys cannot tell a row
that it has copied by its number.  It looks for a row that has what it would write in some
columns, and copies only where there is none, so that it may be run again after it has been
interrupted.  `same a r` is the look: `r` may be the copy of `a`.

`Copied` says what is in the target when the rows `done` have been copied, and `image` which
number each of them got.  Where the columns are a key of the source (`Recognises`), a look
finds the copy of a row exactly if there is one, so copying goes on where it had stopped.
Where they are not, rows are lost: `copyAll` never adds more rows than it was given, and
adds as many only if no two of them look the same (`fresh_of_length`).
-/
import GovCrawler.Lib.Table
import Mathlib.Data.List.Perm.Basic
import Mathlib.Logic.Function.Basic

namespace Relational

open Keyed

variable {A R : Type*} [Keyed R] {same : A → R → Bool} {make : A → Nat → R}

section Copied

variable [Keyed A] {base : List R} {source done : List A} {image : Nat → Nat} {t : Table R} {a : A}

/-- The target holds what it held and the copies of `done`; the copy of the row of key `k` has
the key `image k`. -/
structure Copied (make : A → Nat → R) (base : List R) (done : List A) (image : Nat → Nat)
    (t : Table R) : Prop where
  rows : t.rows.Perm (base ++ done.map fun a => make a (image (key a)))
  nodup : (done.map key).Nodup

/-- Nothing that was there looks like the copy of a row, and no copy looks like that of another. -/
structure Recognises (same : A → R → Bool) (make : A → Nat → R) (base : List R)
    (source : List A) : Prop where
  base : ∀ a ∈ source, ∀ r ∈ base, same a r = false
  copy : ∀ a ∈ source, ∀ a' ∈ source, ∀ n, same a (make a' n) = true ↔ a' = a

namespace Copied

theorem mem (h : Copied make base done image t) (ha : a ∈ done) :
    make a (image (key a)) ∈ t.rows :=
  h.rows.mem_iff.mpr (List.mem_append_right _ (List.mem_map_of_mem ha))

/-- Whatever a look finds is the copy of the row. -/
theorem eq_of_first? (h : Copied make base done image t) (hr : Recognises same make base source)
    (hsub : done ⊆ source) (ha : a ∈ source) {r : R} (hfound : t.first? (same a) = some r) :
    a ∈ done ∧ r = make a (image (key a)) := by
  obtain ⟨hsame, hget⟩ := Table.first?_spec hfound
  rcases List.mem_append.mp (h.rows.mem_iff.mp (Table.get?_mem hget)) with hbase | hcopy
  · rw [hr.base a ha r hbase] at hsame
    cases hsame
  · obtain ⟨a', ha', rfl⟩ := List.mem_map.mp hcopy
    obtain rfl := (hr.copy a ha a' (hsub ha') _).mp hsame
    exact ⟨ha', rfl⟩

/-- A row that has been copied is found. -/
theorem first?_of_mem (h : Copied make base done image t)
    (hr : Recognises same make base source) (hsub : done ⊆ source) (ha : a ∈ done) :
    t.first? (same a) = some (make a (image (key a))) := by
  have hsame : same a (make a (image (key a))) = true :=
    (hr.copy a (hsub ha) a (hsub ha) _).mpr rfl
  cases hfound : t.first? (same a) with
  | none =>
      rw [Table.first?_eq_none_iff.mp hfound _ (h.mem ha)] at hsame
      cases hsame
  | some r => rw [(h.eq_of_first? hr hsub (hsub ha) hfound).2]

/-- One row more. -/
theorem insertNew (h : Copied make base done image t) (hmake : ∀ a n, key (make a n) = n)
    (hnot : key a ∉ done.map key) :
    Copied make base (done ++ [a]) (Function.update image (key a) t.nextKey)
      (t.insertNew (make a) (hmake a)) where
  rows := by
    have hold : (done.map fun a' => make a' (Function.update image (key a) t.nextKey (key a'))) =
        done.map fun a' => make a' (image (key a')) := by
      refine List.map_congr_left fun a' ha' => ?_
      have hne : key a' ≠ key a := fun heq => hnot (by rw [← heq]; exact List.mem_map_of_mem ha')
      rw [Function.update_of_ne hne]
    rw [List.map_append, List.map_singleton, Function.update_self, hold, ← List.append_assoc]
    exact h.rows.append_right _
  nodup := by
    rw [List.map_append, List.map_singleton]
    exact List.nodup_append.mpr ⟨h.nodup, List.nodup_singleton _, fun k hk k' hk' heq =>
      hnot (by rw [← List.mem_singleton.mp hk', ← heq]; exact hk)⟩

/-- Every copy has a number of its own. -/
theorem image_inj (h : Copied make base done image t) (hmake : ∀ a n, key (make a n) = n)
    {a a' : A} (ha : a ∈ done) (ha' : a' ∈ done) (heq : image (key a) = image (key a')) :
    a = a' := by
  have hnodup := (h.rows.map key).nodup_iff.mp t.nodup_keys
  rw [List.map_append, List.map_map] at hnodup
  refine List.inj_on_of_nodup_map (List.nodup_append.mp hnodup).2.1 ha ha' ?_
  simpa only [Function.comp, hmake] using heq

theorem empty (t : Table R) (image : Nat → Nat) :
    Copied make t.rows ([] : List A) image t where
  rows := by
    rw [List.map_nil, List.append_nil]
  nodup := List.nodup_nil

/-- When all rows have been copied, the target holds the copies of all. -/
theorem of_all (h : Copied make base done image t) (hsub : done ⊆ source) (hall : source ⊆ done)
    (hnodup : (source.map key).Nodup) :
    t.rows.Perm (base ++ source.map fun a => make a (image (key a))) := by
  have hperm : done.Perm source := (List.perm_ext_iff_of_nodup (List.Nodup.of_map _ h.nodup)
    (List.Nodup.of_map _ hnodup)).mpr fun a => ⟨fun ha => hsub ha, fun ha => hall ha⟩
  exact h.rows.trans ((hperm.map _).append_left base)

end Copied

end Copied

/-! ### Without a key -/

/-- Copy a row, unless there is one that may be its copy. -/
def copyRow (same : A → R → Bool) (make : A → Nat → R) (hmake : ∀ a n, key (make a n) = n)
    (t : Table R) (a : A) : Table R :=
  if (t.first? (same a)).isSome then t else t.insertNew (make a) (hmake a)

def copyAll (same : A → R → Bool) (make : A → Nat → R) (hmake : ∀ a n, key (make a n) = n)
    (t : Table R) (as : List A) : Table R := as.foldl (copyRow same make hmake) t

variable (same) (hmake : ∀ a n, key (make a n) = n)

/-- A copy adds a row or none. -/
theorem copyRow_cases (t : Table R) (a : A) :
    copyRow same make hmake t a = t ∨
      copyRow same make hmake t a = t.insertNew (make a) (hmake a) ∧
        ∀ r ∈ t.rows, same a r = false := by
  unfold copyRow
  split
  · exact Or.inl rfl
  · rename_i hnot
    refine Or.inr ⟨rfl, ?_⟩
    rw [Option.not_isSome_iff_eq_none] at hnot
    exact Table.first?_eq_none_iff.mp hnot

theorem length_copyAll_le (t : Table R) (as : List A) :
    (copyAll same make hmake t as).rows.length ≤ t.rows.length + as.length := by
  induction as generalizing t with
  | nil => exact Nat.le_refl _
  | cons a as ih =>
      have hrest := ih (copyRow same make hmake t a)
      have hone : (copyRow same make hmake t a).rows.length ≤ t.rows.length + 1 := by
        rcases copyRow_cases same hmake t a with heq | ⟨heq, -⟩
        · rw [heq]
          exact Nat.le_succ _
        · rw [heq]
          exact Nat.le_of_eq List.length_append
      rw [List.length_cons]
      show (copyAll same make hmake (copyRow same make hmake t a) as).rows.length ≤ _
      omega

/-- **What is not lost.**  As many rows are added as there were only if nothing there looked like
any of them, and no copy like that of a later one. -/
theorem fresh_of_length (t : Table R) (as : List A)
    (h : (copyAll same make hmake t as).rows.length = t.rows.length + as.length) :
    (∀ a ∈ as, ∀ r ∈ t.rows, same a r = false) ∧
      as.Pairwise fun a a' => ∃ n, same a' (make a n) = false := by
  induction as generalizing t with
  | nil => exact ⟨fun _ ha => absurd ha List.not_mem_nil, List.Pairwise.nil⟩
  | cons a as ih =>
      have hrest := length_copyAll_le same hmake (copyRow same make hmake t a) as
      have hsplit : copyAll same make hmake t (a :: as) =
          copyAll same make hmake (copyRow same make hmake t a) as := rfl
      rw [hsplit, List.length_cons] at h
      rcases copyRow_cases same hmake t a with heq | ⟨heq, hfresh⟩
      · rw [heq] at h hrest
        omega
      · rw [heq] at h
        have hlength : (t.insertNew (make a) (hmake a)).rows.length = t.rows.length + 1 :=
          List.length_append
        obtain ⟨hother, hpairs⟩ := ih (t.insertNew (make a) (hmake a)) (by omega)
        refine ⟨fun a' ha' r hr => ?_, List.Pairwise.cons (fun a' ha' => ?_) hpairs⟩
        · rcases List.mem_cons.mp ha' with rfl | ha'
          · exact hfresh r hr
          · exact hother a' ha' r ((Table.mem_insertNew _).mpr (Or.inl hr))
        · exact ⟨t.nextKey, hother a' ha' _ ((Table.mem_insertNew _).mpr (Or.inr rfl))⟩

end Relational
