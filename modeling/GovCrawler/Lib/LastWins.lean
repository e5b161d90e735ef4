/-
Entries of which the last of each key wins.

An entry may have a key or none.  `Settled` is what is to be left of a list of entries: of those
with one key the last, and all without a key.  It fixes the rows up to their order, so that two
ways of loading the entries agree as soon as one of them is known to settle them and the other is
shown to.  Loading them into a dictionary settles them; for a load that rewrites rows in place
`settled_iff` says what has to be counted.
-/
import GovCrawler.Lib.OrderedDict
import Mathlib.Data.List.Count
import Mathlib.Data.List.Induction

namespace LastWins

open OrderedDict

variable {E K : Type*} [DecidableEq K] (key : E → Option K)

/-- The last of the entries with the key. -/
def lastOf (k : K) (es : List E) : Option E :=
  (es.filter fun e => decide (key e = some k)).getLast?

/-- How many rows have the key. -/
def rowsOf (k : K) (rows : List E) : Nat := rows.countP fun r => decide (key r = some k)

/-- Of the entries with a key there is the last, and there is every one without a key. -/
structure Settled (es rows : List E) : Prop where
  unkeyed : (rows.filter fun r => (key r).isNone).Perm (es.filter fun e => (key e).isNone)
  keyed : ∀ k, (rows.filter fun r => decide (key r = some k)) = (lastOf key k es).toList

/-- What a load has done that may have lost a key or have two rows of it, but whose rows are
entries, of a key that it has not lost the last one among them. -/
structure Loaded (es rows : List E) : Prop where
  unkeyed : (rows.filter fun r => (key r).isNone).Perm (es.filter fun e => (key e).isNone)
  entered : ∀ k, lastOf key k es = none → rowsOf key k rows = 0
  last : ∀ k e, lastOf key k es = some e → rowsOf key k rows = 0 ∨ e ∈ rows

/-- Two entries have the same name if they have the same key, and an entry without a key has its
name for itself. -/
def Names {N : Type*} (name : Nat → E → N) : Prop :=
  ∀ i e i' e', name i e = name i' e' ↔ key e = key e' ∧ (key e = none → i = i')

section Entries

variable {key} {k : K} {es rows : List E} {e : E}

@[simp] theorem lastOf_nil : lastOf key k [] = none := rfl

theorem lastOf_snoc : lastOf key k (es ++ [e]) = if key e = some k then some e else lastOf key k es := by
  unfold lastOf
  rw [List.filter_append, List.filter_singleton]
  by_cases hk : key e = some k
  · rw [decide_eq_true hk, if_pos hk]
    simp
  · rw [decide_eq_false hk, if_neg hk]
    simp

theorem lastOf_eq_none_iff : lastOf key k es = none ↔ ∀ e ∈ es, key e ≠ some k := by
  simp [lastOf]

theorem lastOf_isSome_iff : (lastOf key k es).isSome ↔ ∃ e ∈ es, key e = some k := by
  rw [← Option.ne_none_iff_isSome, Ne, lastOf_eq_none_iff]
  simp

theorem key_of_lastOf (h : lastOf key k es = some e) : key e = some k :=
  of_decide_eq_true (List.mem_filter.mp (List.mem_of_getLast? h)).2

theorem rowsOf_eq_zero_iff : rowsOf key k rows = 0 ↔ ∀ r ∈ rows, key r ≠ some k := by
  simp [rowsOf]

/-- A row is one more of its key. -/
theorem rowsOf_middle (before after : List E) (r : E) :
    rowsOf key k (before ++ r :: after) =
      rowsOf key k (before ++ after) + if key r = some k then 1 else 0 := by
  unfold rowsOf
  rw [List.countP_append, List.countP_cons, List.countP_append, Nat.add_assoc]
  simp

theorem rowsOf_snoc : rowsOf key k (rows ++ [e]) =
    rowsOf key k rows + if key e = some k then 1 else 0 := by
  rw [rowsOf_middle, List.append_nil]

end Entries

variable {key} {es rows rows' : List E}

/-! ### Settled rows -/

/-- Lists agree if they have the same rows of each key, and without a key. -/
theorem perm_of_filter (hnone : (rows.filter fun r => (key r).isNone).Perm
      (rows'.filter fun r => (key r).isNone))
    (hsome : ∀ k, (rows.filter fun r => decide (key r = some k)).Perm
      (rows'.filter fun r => decide (key r = some k))) : rows.Perm rows' := by
  classical
  rw [List.perm_iff_count]
  intro r
  cases hkey : key r with
  | none =>
      have hcount := List.perm_iff_count.mp hnone r
      have hp : (key r).isNone = true := by rw [hkey]; rfl
      rwa [List.count_filter (p := fun r => (key r).isNone) hp,
        List.count_filter (p := fun r => (key r).isNone) hp] at hcount
  | some k =>
      have hcount := List.perm_iff_count.mp (hsome k) r
      have hp : decide (key r = some k) = true := decide_eq_true hkey
      rwa [List.count_filter (p := fun r => decide (key r = some k)) hp,
        List.count_filter (p := fun r => decide (key r = some k)) hp] at hcount

/-- Entries are settled in one way only, but for the order. -/
theorem Settled.perm (h : Settled key es rows) (h' : Settled key es rows') : rows.Perm rows' := by
  refine perm_of_filter (h.unkeyed.trans h'.unkeyed.symm) fun k => ?_
  rw [h.keyed, h'.keyed]

theorem Settled.of_perm (h : Settled key es rows) (hperm : rows.Perm rows') :
    Settled key es rows' := by
  refine ⟨(hperm.symm.filter _).trans h.unkeyed, fun k => ?_⟩
  have hfilter := hperm.filter fun r => decide (key r = some k)
  rw [h.keyed] at hfilter
  cases hlast : lastOf key k es with
  | none =>
      rw [hlast] at hfilter
      exact hfilter.nil_eq.symm
  | some e =>
      rw [hlast] at hfilter
      exact hfilter.singleton_eq.symm

/-- What is left was an entry. -/
theorem Settled.subset (h : Settled key es rows) : rows ⊆ es := by
  intro r hr
  cases hkey : key r with
  | none =>
      have hfilter : r ∈ rows.filter fun r => (key r).isNone :=
        List.mem_filter.mpr ⟨hr, by rw [hkey]; rfl⟩
      exact List.mem_of_mem_filter (h.unkeyed.mem_iff.mp hfilter)
  | some k =>
      have hfilter : r ∈ rows.filter fun r => decide (key r = some k) :=
        List.mem_filter.mpr ⟨hr, decide_eq_true hkey⟩
      rw [h.keyed, Option.mem_toList] at hfilter
      exact List.mem_of_mem_filter (List.mem_of_getLast? hfilter)

/-- Rows settle the entries if and only if they are those of entries that settle them. -/
theorem Settled.perm_iff (h : Settled key es rows) : rows.Perm rows' ↔ Settled key es rows' :=
  ⟨h.of_perm, h.perm⟩

/-- **When a load has settled its entries**: when there is one row of each key. -/
theorem Loaded.settled_iff (h : Loaded key es rows) :
    Settled key es rows ↔ ∀ k, (lastOf key k es).isSome → rowsOf key k rows = 1 := by
  constructor
  · intro hsettled k hsome
    obtain ⟨e, he⟩ := Option.isSome_iff_exists.mp hsome
    unfold rowsOf
    rw [List.countP_eq_length_filter, hsettled.keyed, he]
    rfl
  · intro hone
    refine ⟨h.unkeyed, fun k => ?_⟩
    cases hlast : lastOf key k es with
    | none =>
        have hzero := h.entered k hlast
        rw [rowsOf_eq_zero_iff] at hzero
        exact List.filter_eq_nil_iff.mpr fun r hr => by simpa using hzero r hr
    | some e =>
        have hcount := hone k (by rw [hlast]; rfl)
        have hmem : e ∈ rows := (h.last k e hlast).resolve_left (by omega)
        unfold rowsOf at hcount
        rw [List.countP_eq_length_filter, List.length_eq_one_iff] at hcount
        obtain ⟨r, hr⟩ := hcount
        have hfilter : e ∈ rows.filter fun r => decide (key r = some k) :=
          List.mem_filter.mpr ⟨hmem, decide_eq_true (key_of_lastOf hlast)⟩
        rw [hr] at hfilter ⊢
        rw [List.mem_singleton.mp hfilter]
        rfl

/-- What was settled was loaded. -/
theorem Settled.loaded (h : Settled key es rows) : Loaded key es rows := by
  refine ⟨h.unkeyed, fun k hlast => ?_, fun k e hlast => Or.inr ?_⟩
  · unfold rowsOf
    rw [List.countP_eq_length_filter, h.keyed, hlast]
    rfl
  · have hmem : e ∈ rows.filter fun r => decide (key r = some k) := by
      rw [h.keyed, hlast]
      exact List.mem_singleton_self e
    exact List.mem_of_mem_filter hmem

/-! ### One more entry -/

section Steps

variable {before after : List E} {e r : E}

/-- An entry that gets a row of its own. -/
theorem Loaded.append (h : Loaded key es rows) :
    Loaded key (es ++ [e]) (rows ++ [e]) := by
  refine ⟨?_, fun k hlast => ?_, fun k e' hlast => ?_⟩
  · rw [List.filter_append, List.filter_append]
    exact h.unkeyed.append_right _
  · rw [lastOf_snoc] at hlast
    split at hlast
    · cases hlast
    · rename_i hne
      rw [rowsOf_snoc, h.entered k hlast, if_neg hne]
  · rw [lastOf_snoc] at hlast
    split at hlast
    · exact Or.inr (Option.some.inj hlast ▸ List.mem_append_right _ (List.mem_singleton_self _))
    · rename_i hne
      rw [rowsOf_snoc, if_neg hne]
      exact (h.last k e' hlast).imp id (List.mem_append_left _)

/-- An entry that takes a row, of its own key or the only one of another. -/
theorem Loaded.replace (h : Loaded key es (before ++ r :: after)) (he : (key e).isSome)
    (hr : (key r).isSome)
    (htaken : ∀ k, key r = some k → key e ≠ some k → rowsOf key k (before ++ r :: after) = 1) :
    Loaded key (es ++ [e]) (before ++ e :: after) := by
  have hnone : ∀ e' : E, (key e').isSome → (key e').isNone = false := by
    intro e' hsome
    rwa [Option.isNone_eq_false_iff]
  refine ⟨?_, fun k hlast => ?_, fun k e' hlast => ?_⟩
  · have hunkeyed := h.unkeyed
    rw [List.filter_append, List.filter_cons, if_neg (by rw [hnone r hr]; exact Bool.false_ne_true)]
      at hunkeyed
    rw [List.filter_append, List.filter_cons, if_neg (by rw [hnone e he]; exact Bool.false_ne_true),
      List.filter_append, List.filter_singleton, hnone e he]
    simpa using hunkeyed
  · rw [lastOf_snoc] at hlast
    split at hlast
    · cases hlast
    · rename_i hne
      have hzero := h.entered k hlast
      rw [rowsOf_middle] at hzero ⊢
      rw [if_neg hne]
      omega
  · rw [lastOf_snoc] at hlast
    split at hlast
    · exact Or.inr (Option.some.inj hlast ▸ List.mem_append_right _ List.mem_cons_self)
    · rename_i hne
      rw [rowsOf_middle, if_neg hne]
      rcases h.last k e' hlast with hzero | hmem
      · rw [rowsOf_middle] at hzero
        exact Or.inl (by omega)
      rcases List.mem_append.mp hmem with hmem | hmem
      · exact Or.inr (List.mem_append_left _ hmem)
      rcases List.mem_cons.mp hmem with rfl | hmem
      · have hkey := key_of_lastOf hlast
        have hone := htaken k hkey hne
        rw [rowsOf_middle, if_pos hkey] at hone
        exact Or.inl (by omega)
      · exact Or.inr (List.mem_append_right _ (List.mem_cons_of_mem _ hmem))

/-- An entry of a new key, or of none, gets a row of its own. -/
theorem Settled.append (h : Settled key es rows)
    (hnew : ∀ k, key e = some k → rowsOf key k rows = 0) : Settled key (es ++ [e]) (rows ++ [e]) := by
  refine h.loaded.append.settled_iff.mpr fun k hsome => ?_
  rw [lastOf_snoc] at hsome
  rw [rowsOf_snoc]
  by_cases hk : key e = some k
  · rw [hnew k hk, if_pos hk]
  · rw [if_neg hk] at hsome ⊢
    exact h.loaded.settled_iff.mp h k hsome

/-- An entry takes the row of its key. -/
theorem Settled.replace (h : Settled key es (before ++ r :: after)) (he : (key e).isSome)
    (hkey : key r = key e) : Settled key (es ++ [e]) (before ++ e :: after) := by
  have hloaded := h.loaded.replace he (hkey ▸ he) fun k hr hne => absurd (hkey ▸ hr) hne
  refine hloaded.settled_iff.mpr fun k hsome => ?_
  have hcount : rowsOf key k (before ++ e :: after) = rowsOf key k (before ++ r :: after) := by
    rw [rowsOf_middle, rowsOf_middle, hkey]
  rw [hcount]
  refine h.loaded.settled_iff.mp h k ?_
  rw [lastOf_snoc] at hsome
  split at hsome
  · rename_i hk
    by_contra hnone
    have hzero := h.loaded.entered k (Option.not_isSome_iff_eq_none.mp hnone)
    rw [rowsOf_middle, if_pos (hkey.trans hk)] at hzero
    omega
  · exact hsome

end Steps

/-! ### A dictionary -/

section Dictionary

variable {N : Type*} [DecidableEq N] (name : Nat → E → N)

/-- The entries, each under its name. -/
def enter (es : List E) : Dict N E :=
  es.zipIdx.foldl (fun d e => d.insert (name e.2 e.1) e.1 false) Dict.empty

theorem enter_snoc (es : List E) (e : E) :
    enter name (es ++ [e]) = (enter name es).insert (name es.length e) e false := by
  unfold enter
  rw [List.zipIdx_append, List.foldl_append]
  simp

variable {name}

theorem named_enter (es : List E) {p : N × E} (hp : p ∈ (enter name es).items) :
    ∃ i < es.length, p.1 = name i p.2 := by
  induction es using List.reverseRecOn with
  | nil => exact absurd hp List.not_mem_nil
  | append_singleton es e ih =>
      rw [enter_snoc] at hp
      rw [List.length_append, List.length_singleton]
      rcases Dict.of_mem_items_insert hp with hold | rfl
      · obtain ⟨i, hi, hname⟩ := ih hold
        exact ⟨i, Nat.lt_succ_of_lt hi, hname⟩
      · exact ⟨es.length, Nat.lt_succ_self _, rfl⟩

/-- **A dictionary settles** the entries that are put into it. -/
theorem settled_enter (hnames : Names key name) (es : List E) :
    Settled key es (enter name es).values := by
  induction es using List.reverseRecOn with
  | nil => exact ⟨List.Perm.refl _, fun _ => rfl⟩
  | append_singleton es e ih =>
      rw [enter_snoc]
      by_cases hmem : name es.length e ∈ (enter name es).items.map Prod.fst
      · obtain ⟨⟨n, r⟩, hp, rfl⟩ := List.mem_map.mp hmem
        obtain ⟨i, hi, hname⟩ := named_enter es hp
        obtain ⟨hkey, hplace⟩ := (hnames es.length e i r).mp hname
        have hsome : (key e).isSome := by
          rw [← Option.ne_none_iff_isSome]
          exact fun hnone => Nat.ne_of_gt hi (hplace hnone)
        obtain ⟨before, after, hitems, hinsert⟩ := Dict.items_insert_split (v := e) hp
        unfold Dict.values at ih ⊢
        rw [hitems, List.map_append, List.map_cons] at ih
        rw [hinsert, List.map_append, List.map_cons]
        exact ih.replace hsome hkey.symm
      · have hvalues : ((enter name es).insert (name es.length e) e false).values =
            (enter name es).values ++ [e] := by
          unfold Dict.values
          rw [Dict.items_insert hmem, List.map_append]
          rfl
        rw [hvalues]
        refine ih.append fun k hk => rowsOf_eq_zero_iff.mpr fun r hr hrk => ?_
        obtain ⟨⟨n, r⟩, hp, rfl⟩ := List.mem_map.mp hr
        obtain ⟨i, hi, hn⟩ := named_enter es hp
        have hname := (hnames es.length e i r).mpr
          ⟨hk.trans hrk.symm, fun hnone => nomatch hk.symm.trans hnone⟩
        exact hmem (List.mem_map.mpr ⟨_, hp, hn.trans hname.symm⟩)

end Dictionary

end LastWins
