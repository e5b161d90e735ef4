/-
Integrity constraints, and which statements keep them.

`Unique` is `UNIQUE (column, …)`: no two rows have the same value of `f`.  A `FOREIGN KEY` or a
`CHECK` is a condition on each row alone, and is written as the quantifier over the rows.  An
update that does not touch the columns of a constraint keeps it, a delete keeps every constraint,
and an insert keeps one if the new row meets it.
-/
import GovCrawler.Lib.Table

namespace Relational

open Keyed

namespace Table

variable {R S : Type*} [Keyed R] [Keyed S]

/-- The same rows with other columns. -/
def mapRows (t : Table R) (f : R → S) (hf : ∀ r, key (f r) = key r) : Table S where
  rows := t.rows.map f
  nextKey := t.nextKey
  sorted := List.pairwise_map.mpr (t.sorted.imp fun {a b} h => by rwa [hf, hf])
  bounded := by
    intro s hs
    obtain ⟨r, hr, rfl⟩ := List.mem_map.mp hs
    rw [hf]
    exact t.bounded r hr

theorem get?_mapRows (t : Table R) (f : R → S) (hf : ∀ r, key (f r) = key r) (k : Nat) :
    (t.mapRows f hf).get? k = (t.get? k).map f := by
  cases h : t.get? k with
  | none =>
      rw [Option.map_none, get?_eq_none_iff]
      intro s hs
      obtain ⟨r, hr, rfl⟩ := List.mem_map.mp hs
      rw [hf]
      exact get?_eq_none_iff.mp h r hr
  | some r =>
      obtain ⟨hr, hk⟩ := get?_eq_some_iff.mp h
      exact get?_eq_some_iff.mpr ⟨List.mem_map_of_mem hr, (hf r).trans hk⟩

section Rows

variable {t : Table R} {p : R → Bool} {f : R → R} (hf : ∀ r, key (f r) = key r) {P : R → Prop}

theorem forall_insertNew {mk : Nat → R} {hmk : ∀ n, key (mk n) = n} (h : ∀ r ∈ t.rows, P r)
    (hnew : P (mk t.nextKey)) : ∀ r ∈ (t.insertNew mk hmk).rows, P r := by
  intro r hr
  rcases (t.mem_insertNew).mp hr with hr | rfl
  · exact h r hr
  · exact hnew

theorem forall_updateWhere (h : ∀ r ∈ t.rows, P r) (hP : ∀ r, p r = true → P r → P (f r)) :
    ∀ r ∈ (t.updateWhere p f hf).rows, P r := by
  intro r hr
  obtain ⟨q, hq, rfl⟩ := List.mem_map.mp hr
  by_cases hp : p q = true
  · rw [if_pos hp]
    exact hP q hp (h q hq)
  · rw [if_neg hp]
    exact h q hq

theorem forall_deleteWhere (h : ∀ r ∈ t.rows, P r) : ∀ r ∈ (t.deleteWhere p).rows, P r :=
  fun r hr => h r (List.mem_filter.mp hr).1

/-- Rows that are updated are where they were. -/
theorem isSome_get?_updateWhere {k : Nat} (h : (t.get? k).isSome) :
    ((t.updateWhere p f hf).get? k).isSome := by
  rwa [get?_updateWhere, Option.isSome_map]

theorem isSome_get?_insertNew {mk : Nat → R} {hmk : ∀ n, key (mk n) = n} {k : Nat}
    (h : (t.get? k).isSome) : ((t.insertNew mk hmk).get? k).isSome := by
  rw [get?_insertNew]
  split
  · rfl
  · exact h

/-- Of more rows than one, not all have the same key. -/
theorem exists_ne_of_one_lt_count (h : 1 < t.count p) (k : Nat) :
    ∃ r ∈ t.rows, p r = true ∧ key r ≠ k := by
  have hsorted : (t.rows.filter p).Pairwise fun a b => key a < key b := t.sorted.filter p
  unfold count at h
  have hmem : ∀ r ∈ t.rows.filter p, r ∈ t.rows ∧ p r = true := fun r hr => List.mem_filter.mp hr
  generalize t.rows.filter p = found at h hsorted hmem
  match found with
  | [] | [_] => exact absurd h (by simp)
  | a :: b :: _ =>
      have hlt : key a < key b := (List.pairwise_cons.mp hsorted).1 b List.mem_cons_self
      by_cases hak : key a = k
      · obtain ⟨hb, hpb⟩ := hmem b (List.mem_cons_of_mem a List.mem_cons_self)
        exact ⟨b, hb, hpb, by omega⟩
      · obtain ⟨ha, hpa⟩ := hmem a List.mem_cons_self
        exact ⟨a, ha, hpa, hak⟩

theorem count_pos_iff : 0 < t.count p ↔ ∃ r ∈ t.rows, p r = true := by
  unfold count
  rw [List.length_pos_iff_exists_mem]
  simp only [List.mem_filter]

end Rows

end Table

variable {R κ : Type*} [Keyed R]

/-- `UNIQUE`. -/
def Unique (f : R → κ) (t : Table R) : Prop := ∀ a ∈ t.rows, ∀ b ∈ t.rows, f a = f b → a = b

namespace Unique

variable {f : R → κ} {t : Table R}

theorem empty (f : R → κ) : Unique f Table.empty := fun _ ha => absurd ha List.not_mem_nil

theorem insertNew {mk : Nat → R} {hmk : ∀ n, key (mk n) = n} (h : Unique f t)
    (hnew : ∀ r ∈ t.rows, f r ≠ f (mk t.nextKey)) : Unique f (t.insertNew mk hmk) := by
  intro a ha b hb hab
  rcases (t.mem_insertNew).mp ha with ha | rfl <;> rcases (t.mem_insertNew).mp hb with hb | rfl
  · exact h a ha b hb hab
  · exact absurd hab (hnew a ha)
  · exact absurd hab.symm (hnew b hb)
  · rfl

/-- An update that leaves the columns alone. -/
theorem updateWhere {p : R → Bool} {g : R → R} (hg : ∀ r, key (g r) = key r) (h : Unique f t)
    (hsame : ∀ r, f (g r) = f r) : Unique f (t.updateWhere p g hg) := by
  have himage : ∀ r, f (if p r then g r else r) = f r := by
    intro r
    split
    · exact hsame r
    · rfl
  intro a' ha' b' hb' hab
  obtain ⟨a, ha, rfl⟩ := List.mem_map.mp ha'
  obtain ⟨b, hb, rfl⟩ := List.mem_map.mp hb'
  rw [himage, himage] at hab
  rw [h a ha b hb hab]

theorem deleteWhere {p : R → Bool} (h : Unique f t) : Unique f (t.deleteWhere p) :=
  fun a ha b hb => h a (List.mem_filter.mp ha).1 b (List.mem_filter.mp hb).1

/-- Many rows are inserted, with different values that were not there. -/
theorem foldl_insertNew {A : Type*} {mk : A → Nat → R} {hmk : ∀ a n, key (mk a n) = n}
    {g : A → κ} (hg : ∀ a n, f (mk a n) = g a) {l : List A} (hnodup : (l.map g).Nodup)
    (h : Unique f t) (hnew : ∀ a ∈ l, ∀ r ∈ t.rows, f r ≠ g a) :
    Unique f (l.foldl (fun t a => t.insertNew (mk a) (hmk a)) t) := by
  induction l generalizing t with
  | nil => exact h
  | cons a l ih =>
      rw [List.map_cons, List.nodup_cons] at hnodup
      refine ih hnodup.2 (h.insertNew fun r hr => ?_) fun b hb r hr => ?_
      · rw [hg]
        exact hnew a List.mem_cons_self r hr
      · rcases (t.mem_insertNew).mp hr with hr | rfl
        · exact hnew b (List.mem_cons_of_mem a hb) r hr
        · rw [hg]
          exact fun heq => hnodup.1 (heq ▸ List.mem_map_of_mem hb)

end Unique

namespace Table

/-- The rows after many inserts: those that were there, and one for each value. -/
theorem mem_foldl_insertNew {A : Type*} {mk : A → Nat → R} {hmk : ∀ a n, key (mk a n) = n}
    {l : List A} {t : Table R} {r : R} :
    r ∈ (l.foldl (fun t a => t.insertNew (mk a) (hmk a)) t).rows ↔
      r ∈ t.rows ∨ ∃ i a, l[i]? = some a ∧ r = mk a (t.nextKey + i) := by
  induction l generalizing t with
  | nil => simp
  | cons a l ih =>
      rw [List.foldl_cons, ih, mem_insertNew, nextKey_insertNew]
      constructor
      · rintro ((h | rfl) | ⟨i, b, hb, rfl⟩)
        · exact Or.inl h
        · exact Or.inr ⟨0, a, rfl, rfl⟩
        · exact Or.inr ⟨i + 1, b, hb, by rw [Nat.add_right_comm, Nat.add_assoc]⟩
      · rintro (h | ⟨i, b, hb, rfl⟩)
        · exact Or.inl (Or.inl h)
        · cases i with
          | zero =>
              obtain rfl := Option.some.inj hb
              exact Or.inl (Or.inr rfl)
          | succ i =>
              exact Or.inr ⟨i, b, hb, by rw [Nat.add_right_comm, Nat.add_assoc]⟩

end Table

end Relational
