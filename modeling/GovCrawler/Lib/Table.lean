/-
Tables with an autoincrementing integer primary key.

A table is the list of its rows in key order together with the next key it will
hand out.  Order and freshness are fields of the structure, so a table with two
rows of one key, or with a key that a later insert would repeat, cannot be built,
and every operation below carries its own proof that it keeps both.

The operations are the statements an application sends to a relational database:
`UPDATE … WHERE`, `DELETE … WHERE`, an insert that lets the database choose the
key, a lookup by primary key, and `ORDER BY key LIMIT 1`.  What each one does is
said once, by its `get?` lemma; later proofs read tables through `get?` only.
-/
import Mathlib.Tactic.Basic
import Mathlib.Data.List.Nodup
import Mathlib.Order.Basic

namespace Relational

/-- A row type whose primary key is a number. -/
class Keyed (R : Type*) where
  key : R → Nat

open Keyed

/-- The rows in key order, and the key of the next insert. -/
structure Table (R : Type*) [Keyed R] where
  rows : List R
  nextKey : Nat
  sorted : rows.Pairwise fun a b => key a < key b
  bounded : ∀ r ∈ rows, key r < nextKey

namespace Table

variable {R : Type*} [Keyed R]

/-- The empty table. -/
def empty : Table R := ⟨[], 1, List.Pairwise.nil, by simp⟩

/-- The row of a primary key. -/
def get? (t : Table R) (k : Nat) : Option R := t.rows.find? fun r => key r == k

/-- `SELECT … WHERE p ORDER BY key LIMIT 1`. -/
def first? (t : Table R) (p : R → Bool) : Option R := t.rows.find? p

/-- `SELECT … WHERE p ORDER BY key`. -/
def select (t : Table R) (p : R → Bool) : List R := t.rows.filter p

/-- How many rows `p` holds of. -/
def count (t : Table R) (p : R → Bool) : Nat := (t.rows.filter p).length

/-- `UPDATE … SET … WHERE p`, for an assignment that leaves the key alone. -/
def updateWhere (t : Table R) (p : R → Bool) (f : R → R)
    (hf : ∀ r, key (f r) = key r := by intro _; rfl) : Table R where
  rows := t.rows.map fun r => if p r then f r else r
  nextKey := t.nextKey
  sorted := by
    refine List.pairwise_map.mpr (t.sorted.imp fun {a b} h => ?_)
    by_cases ha : p a <;> by_cases hb : p b <;> simpa [ha, hb, hf] using h
  bounded := by
    intro r hr
    obtain ⟨q, hq, rfl⟩ := List.mem_map.mp hr
    have := t.bounded q hq
    by_cases hp : p q <;> simpa [hp, hf] using this

/-- `DELETE … WHERE p`. -/
def deleteWhere (t : Table R) (p : R → Bool) : Table R where
  rows := t.rows.filter fun r => !p r
  nextKey := t.nextKey
  sorted := t.sorted.filter _
  bounded := fun r hr => t.bounded r (List.mem_filter.mp hr).1

/-- `INSERT`, with the key chosen by the table. -/
def insertNew (t : Table R) (mk : Nat → R)
    (hmk : ∀ n, key (mk n) = n := by intro _; rfl) : Table R where
  rows := t.rows ++ [mk t.nextKey]
  nextKey := t.nextKey + 1
  sorted := by
    refine List.pairwise_append.mpr ⟨t.sorted, List.pairwise_singleton _ _, ?_⟩
    intro a ha b hb
    obtain rfl : b = mk t.nextKey := by simpa using hb
    rw [hmk]
    exact t.bounded a ha
  bounded := by
    intro r hr
    rcases List.mem_append.mp hr with h | h
    · exact Nat.lt_succ_of_lt (t.bounded r h)
    · obtain rfl : r = mk t.nextKey := by simpa using h
      rw [hmk]
      exact Nat.lt_succ_self _

/-! ### Reading a row -/

/-- No two rows share a key. -/
theorem nodup_keys (t : Table R) : (t.rows.map key).Nodup :=
  List.pairwise_map.mpr (t.sorted.imp fun h => Nat.ne_of_lt h)

/-- A key has at most one row. -/
theorem eq_of_key_eq (t : Table R) {a b : R} (ha : a ∈ t.rows) (hb : b ∈ t.rows)
    (h : key a = key b) : a = b :=
  List.inj_on_of_nodup_map t.nodup_keys ha hb h

theorem get?_eq_some_iff {t : Table R} {k : Nat} {r : R} :
    t.get? k = some r ↔ r ∈ t.rows ∧ key r = k := by
  constructor
  · intro h
    exact ⟨List.mem_of_find?_eq_some h, by simpa using List.find?_some h⟩
  · rintro ⟨hr, rfl⟩
    cases h : t.get? (key r) with
    | none =>
        have := List.find?_eq_none.mp h r hr
        simp at this
    | some q =>
        have hq : q ∈ t.rows := List.mem_of_find?_eq_some h
        have hk : key q = key r := by simpa using List.find?_some h
        rw [t.eq_of_key_eq hq hr hk]

theorem get?_key {t : Table R} {k : Nat} {r : R} (h : t.get? k = some r) : key r = k :=
  (get?_eq_some_iff.mp h).2

theorem get?_mem {t : Table R} {k : Nat} {r : R} (h : t.get? k = some r) : r ∈ t.rows :=
  (get?_eq_some_iff.mp h).1

theorem get?_of_mem {t : Table R} {r : R} (h : r ∈ t.rows) : t.get? (key r) = some r :=
  get?_eq_some_iff.mpr ⟨h, rfl⟩

theorem get?_eq_none_iff {t : Table R} {k : Nat} :
    t.get? k = none ↔ ∀ r ∈ t.rows, key r ≠ k := by
  simp [get?, List.find?_eq_none]

/-- A key that has not been handed out yet has no row. -/
theorem get?_of_nextKey_le {t : Table R} {k : Nat} (h : t.nextKey ≤ k) : t.get? k = none := by
  rw [get?_eq_none_iff]
  intro r hr hk
  have := t.bounded r hr
  omega

theorem lt_nextKey_of_get? {t : Table R} {k : Nat} {r : R} (h : t.get? k = some r) :
    k < t.nextKey := by
  by_contra hlt
  rw [get?_of_nextKey_le (Nat.le_of_not_lt hlt)] at h
  cases h

@[simp] theorem get?_empty (k : Nat) : (empty : Table R).get? k = none := rfl

theorem first?_spec {t : Table R} {p : R → Bool} {r : R} (h : t.first? p = some r) :
    p r = true ∧ t.get? (key r) = some r :=
  ⟨List.find?_some h, get?_of_mem (List.mem_of_find?_eq_some h)⟩

/-- The first is the one with the lowest key. -/
theorem key_le_of_first? {t : Table R} {p : R → Bool} {r : R} (h : t.first? p = some r)
    {r' : R} (hr' : r' ∈ t.rows) (hp : p r' = true) : key r ≤ key r' := by
  obtain ⟨-, before, after, hrows, hbefore⟩ := List.find?_eq_some_iff_append.mp h
  have hsorted := t.sorted
  rw [hrows] at hr' hsorted
  rcases List.mem_append.mp hr' with hmem | hmem
  · have hfalse := hbefore r' hmem
    rw [hp] at hfalse
    cases hfalse
  · rcases List.mem_cons.mp hmem with rfl | hmem
    · exact Nat.le_refl _
    · have htail := (List.pairwise_append.mp hsorted).2.1
      exact Nat.le_of_lt ((List.pairwise_cons.mp htail).1 r' hmem)

theorem first?_eq_none_iff {t : Table R} {p : R → Bool} :
    t.first? p = none ↔ ∀ r ∈ t.rows, p r = false := by
  simp [first?, List.find?_eq_none]

/-- A query selects the same rows from two tables that have the same ones of its kind. -/
theorem select_congr {t t' : Table R} {p : R → Bool}
    (h : ∀ r, p r = true → (r ∈ t.rows ↔ r ∈ t'.rows)) : t.select p = t'.select p := by
  have hsorted : ∀ t : Table R, (t.select p).Pairwise fun a b => key a < key b :=
    fun t => t.sorted.filter p
  have hnodup : ∀ t : Table R, (t.select p).Nodup :=
    fun t => (hsorted t).imp fun hlt heq => Nat.ne_of_lt hlt (congrArg key heq)
  have hperm : (t.select p).Perm (t'.select p) := by
    refine (List.perm_ext_iff_of_nodup (hnodup t) (hnodup t')).mpr fun r => ?_
    unfold select
    rw [List.mem_filter, List.mem_filter]
    exact and_congr_left (h r)
  exact hperm.eq_of_pairwise (fun _ _ _ _ hlt hgt => absurd hlt (Nat.lt_asymm hgt))
    (hsorted t) (hsorted t')

/-- Two queries select the same rows if they agree on every row. -/
theorem select_keys_eq_iff {t : Table R} {p q : R → Bool} :
    (t.select p).map key = (t.select q).map key ↔ ∀ r ∈ t.rows, p r = q r := by
  have hmem : ∀ p : R → Bool, ∀ r ∈ t.rows, p r = true ↔ key r ∈ (t.select p).map key := by
    intro p r hr
    rw [List.mem_map]
    constructor
    · exact fun hp => ⟨r, List.mem_filter.mpr ⟨hr, hp⟩, rfl⟩
    · rintro ⟨r', hr', hkey⟩
      obtain ⟨hr', hp⟩ := List.mem_filter.mp hr'
      exact t.eq_of_key_eq hr' hr hkey ▸ hp
  constructor
  · intro h r hr
    rw [Bool.eq_iff_iff, hmem p r hr, hmem q r hr, h]
  · intro h
    exact congrArg _ (List.filter_congr h)

/-! ### What each statement does to a row -/

section Statements

variable (t : Table R) (p : R → Bool) (f : R → R) (hf : ∀ r, key (f r) = key r)

theorem get?_updateWhere (k : Nat) :
    (t.updateWhere p f hf).get? k = (t.get? k).map fun r => if p r then f r else r := by
  have hkey : ∀ r, key (if p r then f r else r) = key r := by
    intro r
    by_cases h : p r <;> simp [h, hf]
  cases h : t.get? k with
  | none =>
      rw [get?_eq_none_iff] at h
      rw [Option.map_none, get?_eq_none_iff]
      intro r hr
      obtain ⟨q, hq, rfl⟩ := List.mem_map.mp hr
      rw [hkey]
      exact h q hq
  | some r =>
      obtain ⟨hr, hk⟩ := get?_eq_some_iff.mp h
      rw [Option.map_some, get?_eq_some_iff]
      exact ⟨List.mem_map.mpr ⟨r, hr, rfl⟩, by rw [hkey, hk]⟩

/-- An update that leaves each row it finds as it is. -/
theorem updateWhere_of_fixed (h : ∀ r ∈ t.rows, p r = true → f r = r) :
    t.updateWhere p f hf = t := by
  have hrows : (t.updateWhere p f hf).rows = t.rows := by
    refine (List.map_congr_left fun r hr => ?_).trans (List.map_id _)
    by_cases hp : p r = true
    · rw [if_pos hp]
      exact h r hr hp
    · rw [if_neg hp]
      rfl
  obtain ⟨rows, nextKey, sorted, bounded⟩ := t
  unfold updateWhere at hrows ⊢
  congr

/-- An update that finds no row. -/
theorem updateWhere_of_none (h : ∀ r ∈ t.rows, p r = false) : t.updateWhere p f hf = t :=
  t.updateWhere_of_fixed p f hf fun r hr hp => by
    rw [h r hr] at hp
    cases hp

/-- An update that selects by primary key is of one row, in its place. -/
theorem rows_updateWhere_key {before after : List R} {r : R} (h : t.rows = before ++ r :: after) :
    (t.updateWhere (fun r' => key r' == key r) f hf).rows = before ++ f r :: after := by
  have hsorted := t.sorted
  rw [h] at hsorted
  obtain ⟨-, htail, hbefore⟩ := List.pairwise_append.mp hsorted
  have hother : ∀ rs : List R, (∀ r' ∈ rs, key r' ≠ key r) →
      rs.map (fun r' => if key r' == key r then f r' else r') = rs := by
    intro rs hne
    refine (List.map_congr_left fun r' hr' => ?_).trans (List.map_id rs)
    exact if_neg (by simpa using hne r' hr')
  show t.rows.map (fun r' => if key r' == key r then f r' else r') = _
  rw [h, List.map_append, List.map_cons, if_pos (beq_self_eq_true (key r)),
    hother before fun r' hr' => Nat.ne_of_lt (hbefore r' hr' r List.mem_cons_self),
    hother after fun r' hr' => Nat.ne_of_gt ((List.pairwise_cons.mp htail).1 r' hr')]

/-- What is there after an update by primary key of a row. -/
theorem mem_updateWhere_key {r r' : R} (hr : r ∈ t.rows) :
    r' ∈ (t.updateWhere (fun q => key q == key r) f hf).rows ↔
      (r' ∈ t.rows ∧ key r' ≠ key r) ∨ r' = f r := by
  show r' ∈ t.rows.map (fun q => if key q == key r then f q else q) ↔ _
  rw [List.mem_map]
  constructor
  · rintro ⟨q, hq, rfl⟩
    by_cases hkey : key q = key r
    · obtain rfl := t.eq_of_key_eq hq hr hkey
      exact Or.inr (if_pos (beq_self_eq_true (key q)))
    · rw [if_neg (by simpa using hkey)]
      exact Or.inl ⟨hq, hkey⟩
  · rintro (⟨hr', hkey⟩ | rfl)
    · exact ⟨r', hr', if_neg (by simpa using hkey)⟩
    · exact ⟨r, hr, if_pos (beq_self_eq_true (key r))⟩

theorem mem_deleteWhere_key {k : Nat} {r : R} :
    r ∈ (t.deleteWhere fun q => key q == k).rows ↔ r ∈ t.rows ∧ key r ≠ k := by
  show r ∈ t.rows.filter (fun q => !(key q == k)) ↔ _
  rw [List.mem_filter]
  simp

theorem mem_select {r : R} : r ∈ t.select p ↔ r ∈ t.rows ∧ p r = true := List.mem_filter

theorem get?_deleteWhere (k : Nat) :
    (t.deleteWhere p).get? k = (t.get? k).filter fun r => !p r := by
  cases h : t.get? k with
  | none =>
      rw [get?_eq_none_iff] at h
      rw [Option.filter_none, get?_eq_none_iff]
      exact fun r hr => h r (List.mem_filter.mp hr).1
  | some r =>
      obtain ⟨hr, hk⟩ := get?_eq_some_iff.mp h
      by_cases hp : p r
      · rw [Option.filter_some, if_neg (by simp [hp]), get?_eq_none_iff]
        intro q hq hqk
        obtain ⟨hq, hpq⟩ := List.mem_filter.mp hq
        rw [t.eq_of_key_eq hq hr (hqk.trans hk.symm)] at hpq
        simp [hp] at hpq
      · rw [Option.filter_some, if_pos (by simp [hp]), get?_eq_some_iff]
        exact ⟨List.mem_filter.mpr ⟨hr, by simp [hp]⟩, hk⟩

theorem get?_deleteWhere_key (k k' : Nat) :
    (t.deleteWhere fun r => key r == k').get? k = if k = k' then none else t.get? k := by
  rw [get?_deleteWhere]
  cases hr : t.get? k with
  | none => simp
  | some r =>
      rw [Option.filter_some, get?_key hr]
      by_cases hk : k = k' <;> simp [hk]

theorem get?_insertNew (mk : Nat → R) (hmk : ∀ n, key (mk n) = n) (k : Nat) :
    (t.insertNew mk hmk).get? k = if k = t.nextKey then some (mk k) else t.get? k := by
  by_cases hk : k = t.nextKey
  · rw [if_pos hk, get?_eq_some_iff, hmk, hk]
    exact ⟨List.mem_append.mpr (Or.inr (by simp)), rfl⟩
  · rw [if_neg hk]
    show ((t.rows ++ [mk t.nextKey]).find? fun r => key r == k) = _
    rw [List.find?_append]
    have hlast : ([mk t.nextKey].find? fun r => key r == k) = none := by
      simp [hmk, Ne.symm hk]
    rw [hlast, Option.or_none]
    rfl

@[simp] theorem nextKey_updateWhere : (t.updateWhere p f hf).nextKey = t.nextKey := rfl

@[simp] theorem nextKey_deleteWhere : (t.deleteWhere p).nextKey = t.nextKey := rfl

@[simp] theorem nextKey_insertNew (mk : Nat → R) (hmk : ∀ n, key (mk n) = n) :
    (t.insertNew mk hmk).nextKey = t.nextKey + 1 := rfl

/-- Rows that are inserted one after the other get the next keys, in this order. -/
theorem get?_foldl_insertNew {A : Type*} (mk : A → Nat → R) (hmk : ∀ a n, key (mk a n) = n)
    (l : List A) (t : Table R) (k : Nat) :
    (l.foldl (fun t a => t.insertNew (mk a) (hmk a)) t).get? k =
      if t.nextKey ≤ k then (l[k - t.nextKey]?).map fun a => mk a k else t.get? k := by
  induction l generalizing t with
  | nil =>
      by_cases hk : t.nextKey ≤ k
      · rw [if_pos hk, List.getElem?_nil, Option.map_none]
        exact get?_of_nextKey_le hk
      · rw [if_neg hk]
        rfl
  | cons a l ih =>
      rw [List.foldl_cons, ih, nextKey_insertNew, get?_insertNew]
      by_cases hk : k = t.nextKey
      · subst hk
        rw [if_neg (Nat.not_succ_le_self _), if_pos rfl, if_pos (Nat.le_refl _), Nat.sub_self]
        rfl
      · rw [if_neg hk]
        by_cases hle : t.nextKey ≤ k
        · have hsub : k - t.nextKey = (k - (t.nextKey + 1)) + 1 := by omega
          rw [if_pos hle, if_pos (by omega), hsub, List.getElem?_cons_succ]
        · rw [if_neg hle, if_neg (by omega)]

theorem nextKey_foldl_insertNew {A : Type*} (mk : A → Nat → R) (hmk : ∀ a n, key (mk a n) = n)
    (l : List A) (t : Table R) :
    (l.foldl (fun t a => t.insertNew (mk a) (hmk a)) t).nextKey = t.nextKey + l.length := by
  induction l generalizing t with
  | nil => rfl
  | cons a l ih =>
      rw [List.foldl_cons, ih, nextKey_insertNew, List.length_cons]
      omega

theorem mem_insertNew {mk : Nat → R} {hmk : ∀ n, key (mk n) = n} {r : R} :
    r ∈ (t.insertNew mk hmk).rows ↔ r ∈ t.rows ∨ r = mk t.nextKey := by
  simp [insertNew]

/-- An update that a query does not see finds the same row, updated. -/
theorem first?_updateWhere {q : R → Bool} (hq : ∀ r, q (f r) = q r) :
    (t.updateWhere p f hf).first? q = (t.first? q).map fun r => if p r then f r else r := by
  show (t.rows.map _).find? q = _
  rw [List.find?_map]
  congr 2
  funext r
  show q (if p r then f r else r) = q r
  by_cases hp : p r = true
  · rw [if_pos hp, hq]
  · rw [if_neg hp]

/-- What a query finds first, it finds first when a row joins the others. -/
theorem first?_insertNew_of_some {mk : Nat → R} {hmk : ∀ n, key (mk n) = n} {q : R → Bool} {r : R}
    (h : t.first? q = some r) : (t.insertNew mk hmk).first? q = some r := by
  unfold first? at h
  show (t.rows ++ [mk t.nextKey]).find? q = some r
  rw [List.find?_append, h]
  rfl

/-- A row of a kind that was not there is the first of its kind. -/
theorem first?_insertNew_of_none {mk : Nat → R} {hmk : ∀ n, key (mk n) = n} {q : R → Bool}
    (h : t.first? q = none) (hq : q (mk t.nextKey) = true) :
    (t.insertNew mk hmk).first? q = some (mk t.nextKey) := by
  unfold first? at h
  show (t.rows ++ [mk t.nextKey]).find? q = _
  rw [List.find?_append, h, Option.none_or, List.find?_singleton, if_pos hq]

/-- An update that selects by primary key leaves every other row alone. -/
theorem get?_updateWhere_of_ne {k k' : Nat} (h : k ≠ k') :
    (t.updateWhere (fun r => key r == k) f hf).get? k' = t.get? k' := by
  rw [get?_updateWhere]
  cases hr : t.get? k' with
  | none => rfl
  | some r => simp [get?_key hr, Ne.symm h]

theorem get?_updateWhere_self (k : Nat) :
    (t.updateWhere (fun r => key r == k) f hf).get? k = (t.get? k).map f := by
  rw [get?_updateWhere]
  cases hr : t.get? k with
  | none => rfl
  | some r => simp [get?_key hr]

/-- An update of rows that a query does not count, into rows it does not count. -/
theorem count_updateWhere (q : R → Bool) (hbefore : ∀ r, p r = true → q r = false)
    (hafter : ∀ r, p r = true → q (f r) = false) :
    (t.updateWhere p f hf).count q = t.count q := by
  have hsame : ∀ r, q (if p r then f r else r) = q r := by
    intro r
    by_cases hp : p r = true
    · rw [if_pos hp, hafter r hp, hbefore r hp]
    · rw [if_neg hp]
  show ((t.rows.map _).filter q).length = (t.rows.filter q).length
  rw [List.filter_map, List.length_map]
  congr 1
  exact List.filter_congr fun r _ => hsame r

end Statements

end Table

end Relational
