/-
A dictionary in insertion order, and iterators over it that notice changes.

The entries are an array to which new keys are appended and in which a removed key
leaves a hole; an insertion may squeeze the holes out.  An iterator remembers how far
it has come and how large the dictionary was when it started, and raises as soon as
the size is another one.  That does not catch every change: a removal and an
insertion between two steps cancel out, and if the insertion squeezes out a hole that
the iterator has passed, the entries move past it.

Nothing else can hide an entry from it.  `Passed` says that every entry before the
iterator's position has been dealt with; removals keep it, and so do insertions that
leave the passed holes alone, and at the end of the iteration it is a fact about all
entries.
-/
import Mathlib.Data.List.ReduceOption
import Mathlib.Data.List.Nodup

namespace OrderedDict

/-- The entries, with `none` for a hole.  No key occurs twice. -/
structure Dict (K V : Type*) where
  entries : List (Option (K × V))
  nodup : (entries.reduceOption.map Prod.fst).Nodup

namespace Dict

variable {K V : Type*}

def empty : Dict K V := ⟨[], List.nodup_nil⟩

/-- The live entries, in order. -/
def items (d : Dict K V) : List (K × V) := d.entries.reduceOption

/-- `d.values()`. -/
def values (d : Dict K V) : List V := d.items.map Prod.snd

/-- `len(d)`. -/
def size (d : Dict K V) : Nat := d.items.length

@[simp] theorem items_empty : (empty : Dict K V).items = [] := rfl

theorem mem_items {d : Dict K V} {e : K × V} : e ∈ d.items ↔ some e ∈ d.entries :=
  List.reduceOption_mem_iff

section Operations

variable [DecidableEq K]

/-- What is left of an entry when `k` is removed. -/
def without (k : K) : Option (K × V) → Option (K × V)
  | none => none
  | some e => if e.1 = k then none else some e

theorem reduceOption_without (k : K) (es : List (Option (K × V))) :
    (es.map (without k)).reduceOption = es.reduceOption.filter fun e => decide (e.1 ≠ k) := by
  induction es with
  | nil => rfl
  | cons e es ih =>
      cases e with
      | none => simpa [without] using ih
      | some e =>
          by_cases hk : e.1 = k
          · simpa [without, hk] using ih
          · simpa [without, hk] using ih

/-- `d.pop(k, None)`: the entry becomes a hole. -/
def erase (d : Dict K V) (k : K) : Dict K V where
  entries := d.entries.map (without k)
  nodup := by
    rw [reduceOption_without]
    exact d.nodup.sublist (List.filter_sublist.map _)

/-- What becomes of a live entry when `k` gets the value `v`. -/
def replace (k : K) (v : V) (e : K × V) : K × V := if e.1 = k then (k, v) else e

/-- `d[k] = v`.  A key that is there keeps its place; a new one goes to the end, of an
array that may have been compacted before. -/
def insert (d : Dict K V) (k : K) (v : V) (compact : Bool) : Dict K V where
  entries :=
    if k ∈ d.items.map Prod.fst then d.entries.map (Option.map (replace k v))
    else (if compact then d.items.map some else d.entries) ++ [some (k, v)]
  nodup := by
    have hnodup := d.nodup
    by_cases hk : k ∈ d.items.map Prod.fst
    · rw [if_pos hk, List.reduceOption_map, List.map_map]
      have hkeys : Prod.fst ∘ replace k v = (Prod.fst : K × V → K) := by
        funext e
        by_cases he : e.1 = k <;> simp [replace, he]
      rw [hkeys]
      exact hnodup
    · have hlive : (if compact then d.items.map some else d.entries).reduceOption = d.items := by
        cases compact with
        | false => rfl
        | true => simp [List.reduceOption, List.filterMap_map]
      rw [if_neg hk, List.reduceOption_append, hlive, List.map_append]
      refine List.nodup_append.mpr ⟨hnodup, List.nodup_singleton _, ?_⟩
      intro a ha b hb hab
      obtain rfl : b = k := by simpa using hb
      exact hk (hab ▸ ha)

theorem items_erase (d : Dict K V) (k : K) :
    (d.erase k).items = d.items.filter fun e => decide (e.1 ≠ k) :=
  reduceOption_without k d.entries

theorem mem_items_erase {d : Dict K V} {k : K} {e : K × V} :
    e ∈ (d.erase k).items ↔ e ∈ d.items ∧ e.1 ≠ k := by
  unfold items erase
  rw [reduceOption_without, List.mem_filter]
  simp

/-- A new key joins the others. -/
theorem mem_items_insert {d : Dict K V} {k : K} {v : V} {compact : Bool}
    (hk : k ∉ d.items.map Prod.fst) {e : K × V} :
    e ∈ (d.insert k v compact).items ↔ e ∈ d.items ∨ e = (k, v) := by
  rw [mem_items]
  show some e ∈ (if k ∈ d.items.map Prod.fst then _ else _) ↔ _
  rw [if_neg hk, List.mem_append]
  cases compact with
  | false => simp [mem_items]
  | true => simp

/-- A new key goes to the end. -/
theorem items_insert {d : Dict K V} {k : K} {v : V} {compact : Bool}
    (hk : k ∉ d.items.map Prod.fst) : (d.insert k v compact).items = d.items ++ [(k, v)] := by
  show (if k ∈ d.items.map Prod.fst then _ else _ : List (Option (K × V))).reduceOption = _
  rw [if_neg hk, List.reduceOption_append]
  cases compact with
  | false => rfl
  | true => simp [List.reduceOption, List.filterMap_map]

/-- A key that is there keeps its place. -/
theorem items_insert_split {d : Dict K V} {k : K} {v w : V} {compact : Bool}
    (hmem : (k, w) ∈ d.items) : ∃ before after, d.items = before ++ (k, w) :: after ∧
      (d.insert k v compact).items = before ++ (k, v) :: after := by
  obtain ⟨before, after, hitems⟩ := List.append_of_mem hmem
  refine ⟨before, after, hitems, ?_⟩
  have hk : k ∈ d.items.map Prod.fst := List.mem_map.mpr ⟨_, hmem, rfl⟩
  have hnodup : (d.items.map Prod.fst).Nodup := d.nodup
  rw [hitems, List.map_append, List.map_cons, List.nodup_middle, List.nodup_cons] at hnodup
  have hother : ∀ es : List (K × V), k ∉ es.map Prod.fst → es.map (replace k v) = es := by
    intro es hnot
    refine (List.map_congr_left fun e he => ?_).trans (List.map_id es)
    exact if_neg fun heq => hnot (List.mem_map.mpr ⟨e, he, heq⟩)
  rw [List.mem_append, not_or] at hnodup
  show (if k ∈ d.items.map Prod.fst then _ else _ : List (Option (K × V))).reduceOption = _
  rw [if_pos hk, List.reduceOption_map]
  show d.items.map (replace k v) = _
  rw [hitems, List.map_append, List.map_cons, hother before hnodup.1.1, hother after hnodup.1.2]
  exact congrArg (fun e => before ++ e :: after) (if_pos rfl)

/-- What is there after an insertion was there before, or is the new entry. -/
theorem of_mem_items_insert {d : Dict K V} {k : K} {v : V} {compact : Bool} {e : K × V}
    (he : e ∈ (d.insert k v compact).items) : e ∈ d.items ∨ e = (k, v) := by
  by_cases hk : k ∈ d.items.map Prod.fst
  · rw [mem_items] at he
    have he : some e ∈ (if k ∈ d.items.map Prod.fst then _ else _) := he
    rw [if_pos hk, List.mem_map] at he
    obtain ⟨before, hbefore, heq⟩ := he
    cases before with
    | none => cases heq
    | some e' =>
        obtain rfl : replace k v e' = e := Option.some.inj heq
        unfold replace
        split
        · exact Or.inr rfl
        · exact Or.inl (mem_items.mpr hbefore)
  · exact (mem_items_insert hk).mp he

end Operations

/-- A key has one value. -/
theorem eq_of_mem_items {d : Dict K V} {k : K} {v w : V} (hv : (k, v) ∈ d.items)
    (hw : (k, w) ∈ d.items) : v = w :=
  (Prod.mk.inj (List.inj_on_of_nodup_map d.nodup hv hw rfl)).2

/-! ### Iterators -/

/-- How far an iterator has come, how many values it still expects, and the size of the
dictionary when it started. -/
structure Iter where
  pos : Nat
  len : Nat
  used : Nat
  deriving DecidableEq, Repr

/-- `iter(d.values())`. -/
def iter (d : Dict K V) : Iter := ⟨0, d.size, d.size⟩

/-- The first live entry, counting positions from `i`. -/
def nextLive : List (Option (K × V)) → Nat → Option (Nat × V)
  | [], _ => none
  | none :: es, i => nextLive es (i + 1)
  | some e :: _, i => some (i, e.2)

inductive Next (V : Type*)
  /-- The dictionary has changed during iteration. -/
  | raise
  | stop
  | yield (value : V) (rest : Iter)

/-- `next(it)`. -/
def next (d : Dict K V) (it : Iter) : Next V :=
  if d.size ≠ it.used then .raise
  else
    match nextLive (d.entries.drop it.pos) it.pos with
    | none => .stop
    | some (i, v) =>
        if it.len = 0 then .raise else .yield v ⟨i + 1, it.len - 1, it.used⟩

theorem nextLive_none {es : List (Option (K × V))} {i : Nat} (h : nextLive es i = none) :
    ∀ e, some e ∉ es := by
  induction es generalizing i with
  | nil => exact fun _ he => nomatch he
  | cons e es ih =>
      cases e with
      | none =>
          intro e he
          rcases List.mem_cons.mp he with heq | he
          · cases heq
          · exact ih h e he
      | some e => cases h

theorem nextLive_some {es : List (Option (K × V))} {i j : Nat} {v : V}
    (h : nextLive es i = some (j, v)) :
    i ≤ j ∧ ∃ k, es[j - i]? = some (some (k, v)) ∧
      ∀ e, some e ∈ es.take (j + 1 - i) → e.2 = v := by
  induction es generalizing i with
  | nil => cases h
  | cons e es ih =>
      cases e with
      | none =>
          obtain ⟨hle, k, hget, htake⟩ := ih h
          have hsub : j - i = (j - (i + 1)) + 1 := by omega
          have hsucc : j + 1 - i = (j + 1 - (i + 1)) + 1 := by omega
          refine ⟨by omega, k, by rw [hsub]; exact hget, ?_⟩
          intro e he
          rw [hsucc, List.take_succ_cons] at he
          rcases List.mem_cons.mp he with heq | he
          · cases heq
          · exact htake e he
      | some e =>
          obtain ⟨rfl, rfl⟩ := Prod.mk.inj (Option.some.inj h)
          have hone : i + 1 - i = 1 := by omega
          refine ⟨Nat.le_refl _, e.1, by simp, ?_⟩
          intro e' he
          rw [hone] at he
          obtain rfl : e' = e := by simpa using he
          rfl

/-- What `next` may answer, and why. -/
theorem next_cases (d : Dict K V) (it : Iter) :
    d.next it = .raise ∨
      (d.next it = .stop ∧ ∀ e, some e ∉ d.entries.drop it.pos) ∨
      ∃ v i k, d.next it = .yield v ⟨i + 1, it.len - 1, it.used⟩ ∧ it.pos ≤ i ∧
        d.entries[i]? = some (some (k, v)) ∧
        ∀ e, some e ∈ (d.entries.drop it.pos).take (i + 1 - it.pos) → e.2 = v := by
  unfold next
  by_cases hsize : d.size ≠ it.used
  · exact Or.inl (if_pos hsize)
  rw [if_neg hsize]
  cases hlive : nextLive (d.entries.drop it.pos) it.pos with
  | none => exact Or.inr (Or.inl ⟨rfl, nextLive_none hlive⟩)
  | some p =>
      obtain ⟨i, v⟩ := p
      dsimp only
      by_cases hlen : it.len = 0
      · exact Or.inl (if_pos hlen)
      rw [if_neg hlen]
      obtain ⟨hle, k, hget, htake⟩ := nextLive_some hlive
      rw [List.getElem?_drop] at hget
      have hpos : it.pos + (i - it.pos) = i := by omega
      rw [hpos] at hget
      exact Or.inr (Or.inr ⟨v, i, k, rfl, hle, hget, htake⟩)

theorem mem_items_of_yield {d : Dict K V} {it rest : Iter} {v : V}
    (h : d.next it = .yield v rest) : ∃ k, (k, v) ∈ d.items := by
  rcases next_cases d it with hn | ⟨hn, -⟩ | ⟨w, i, k, hn, -, hget, -⟩
  · rw [hn] at h
    cases h
  · rw [hn] at h
    cases h
  · rw [hn] at h
    obtain ⟨rfl, -⟩ := Next.yield.inj h
    exact ⟨k, mem_items.mpr (List.mem_of_getElem? hget)⟩

/-! ### A whole iteration -/

theorem nextLive_of_nil {es : List (Option (K × V))} (h : es.reduceOption = []) (i : Nat) :
    nextLive es i = none := by
  induction es generalizing i with
  | nil => rfl
  | cons e es ih =>
      cases e with
      | none => exact ih h (i + 1)
      | some e => cases h

theorem nextLive_of_cons {es : List (Option (K × V))} {e : K × V} {rest : List (K × V)}
    (h : es.reduceOption = e :: rest) (i : Nat) :
    ∃ n, nextLive es i = some (i + n, e.2) ∧ (es.drop (n + 1)).reduceOption = rest := by
  induction es generalizing i with
  | nil => cases h
  | cons e' es ih =>
      cases e' with
      | none =>
          obtain ⟨n, hnext, hrest⟩ := ih h (i + 1)
          refine ⟨n + 1, ?_, hrest⟩
          have hpos : i + 1 + n = i + (n + 1) := by omega
          rw [← hpos]
          exact hnext
      | some e' =>
          obtain ⟨rfl, hrest⟩ := List.cons.inj h
          exact ⟨0, rfl, hrest⟩

/-- The dictionary is as it was when the iterator started, which has these values ahead. -/
structure Ahead (d : Dict K V) (it : Iter) (vs : List V) : Prop where
  used : it.used = d.size
  len : it.len = vs.length
  values : (d.entries.drop it.pos).reduceOption.map Prod.snd = vs

theorem Ahead.start (d : Dict K V) : Ahead d d.iter d.values where
  used := rfl
  len := (List.length_map ..).symm
  values := rfl

theorem Ahead.stop {d : Dict K V} {it : Iter} (h : Ahead d it []) : d.next it = .stop := by
  unfold next
  rw [if_neg (not_not.mpr h.used.symm), nextLive_of_nil (List.map_eq_nil_iff.mp h.values)]

/-- The next value is the first that is ahead. -/
theorem Ahead.yield {d : Dict K V} {it : Iter} {v : V} {vs : List V} (h : Ahead d it (v :: vs)) :
    ∃ rest, d.next it = .yield v rest ∧ Ahead d rest vs := by
  obtain ⟨e, es, hlive, rfl, hes⟩ := List.map_eq_cons_iff.mp h.values
  obtain ⟨n, hnext, hrest⟩ := nextLive_of_cons hlive it.pos
  refine ⟨⟨it.pos + n + 1, it.len - 1, it.used⟩, ?_, h.used, ?_, ?_⟩
  · unfold next
    rw [if_neg (not_not.mpr h.used.symm), hnext]
    dsimp only
    rw [if_neg]
    rw [h.len]
    exact Nat.succ_ne_zero _
  · show it.len - 1 = vs.length
    rw [h.len]
    rfl
  · show (d.entries.drop (it.pos + n + 1)).reduceOption.map Prod.snd = vs
    rw [Nat.add_assoc, ← List.drop_drop, hrest]
    exact hes

/-! ### What an iterator has passed -/

/-- Some entry before position `n` has been removed. -/
def holeBefore (d : Dict K V) (n : Nat) : Bool := (d.entries.take n).any Option.isNone

/-- `k` is the key of an entry before position `n`. -/
def keyBefore [DecidableEq K] (d : Dict K V) (n : Nat) (k : K) : Bool :=
  (d.entries.take n).reduceOption.any fun e => decide (e.1 = k)

theorem keyBefore_iff [DecidableEq K] {d : Dict K V} {n : Nat} {k : K} :
    d.keyBefore n k = true ↔ ∃ v, some (k, v) ∈ d.entries.take n := by
  unfold keyBefore
  rw [List.any_eq_true]
  constructor
  · rintro ⟨⟨k', v⟩, he, hk⟩
    obtain rfl : k' = k := of_decide_eq_true hk
    exact ⟨v, List.reduceOption_mem_iff.mp he⟩
  · rintro ⟨v, he⟩
    exact ⟨(k, v), List.reduceOption_mem_iff.mpr he, decide_eq_true rfl⟩

/-- Every value before the iterator's position has the property. -/
structure Passed (d : Dict K V) (it : Iter) (P : V → Prop) : Prop where
  bound : it.pos ≤ d.entries.length
  passed : ∀ e, some e ∈ d.entries.take it.pos → P e.2

variable {d : Dict K V} {it : Iter} {P Q : V → Prop}

theorem Passed.start (d : Dict K V) (P : V → Prop) : Passed d d.iter P :=
  ⟨Nat.zero_le _, fun _ he => by simp [iter] at he⟩

theorem Passed.erase [DecidableEq K] (h : Passed d it P) (k : K) : Passed (d.erase k) it P := by
  have hlength : (d.erase k).entries.length = d.entries.length := List.length_map ..
  refine ⟨by rw [hlength]; exact h.bound, ?_⟩
  intro e he
  have htake : (d.erase k).entries.take it.pos = (d.entries.take it.pos).map (without k) :=
    List.map_take.symm
  rw [htake, List.mem_map] at he
  obtain ⟨before, hbefore, heq⟩ := he
  cases before with
  | none => cases heq
  | some e' =>
      dsimp only [without] at heq
      split at heq
      · cases heq
      · obtain rfl := Option.some.inj heq
        exact h.passed _ hbefore

theorem map_some_reduceOption {α : Type*} {es : List (Option α)}
    (h : es.any Option.isNone = false) : es.reduceOption.map some = es := by
  induction es with
  | nil => rfl
  | cons e es ih =>
      cases e with
      | none => simp at h
      | some e => rw [List.reduceOption_cons_of_some, List.map_cons, ih (by simpa using h)]

/-- A new entry does not disturb an iterator, unless it squeezes out a hole before it. -/
theorem Passed.insert [DecidableEq K] (h : Passed d it P) {k : K} {v : V} {compact : Bool}
    (hk : k ∉ d.items.map Prod.fst)
    (hcompact : compact = true → d.holeBefore it.pos = false) :
    Passed (d.insert k v compact) it P := by
  have hentries : ∃ rest, (d.insert k v compact).entries = d.entries.take it.pos ++ rest := by
    show ∃ rest, (if k ∈ d.items.map Prod.fst then _ else _) = _
    rw [if_neg hk]
    cases compact with
    | false =>
        refine ⟨d.entries.drop it.pos ++ [some (k, v)], ?_⟩
        rw [← List.append_assoc, List.take_append_drop]
        rfl
    | true =>
        refine ⟨(d.entries.drop it.pos).reduceOption.map some ++ [some (k, v)], ?_⟩
        have hitems : d.items.map some =
            d.entries.take it.pos ++ (d.entries.drop it.pos).reduceOption.map some := by
          unfold items
          conv_lhs => rw [← List.take_append_drop it.pos d.entries, List.reduceOption_append]
          rw [List.map_append, map_some_reduceOption (hcompact rfl)]
        rw [← List.append_assoc, ← hitems]
        rfl
  obtain ⟨rest, hrest⟩ := hentries
  have hlength : (d.entries.take it.pos).length = it.pos := by
    rw [List.length_take]
    exact Nat.min_eq_left h.bound
  refine ⟨?_, ?_⟩
  · rw [hrest, List.length_append, hlength]
    exact Nat.le_add_right _ _
  · rw [hrest, List.take_append_of_le_length (Nat.le_of_eq hlength.symm), List.take_take,
      Nat.min_self]
    exact h.passed

theorem Passed.yield {v : V} {rest : Iter} (h : Passed d it P) (hnext : d.next it = .yield v rest)
    (hPQ : ∀ w, P w → Q w) (hv : Q v) : Passed d rest Q := by
  rcases next_cases d it with hn | ⟨hn, -⟩ | ⟨w, i, k, hn, hle, hget, htake⟩
  · rw [hn] at hnext
    cases hnext
  · rw [hn] at hnext
    cases hnext
  rw [hn] at hnext
  obtain ⟨rfl, rfl⟩ := Next.yield.inj hnext
  obtain ⟨hi, -⟩ := List.getElem?_eq_some_iff.mp hget
  refine ⟨hi, ?_⟩
  intro e he
  have hsplit : i + 1 = it.pos + (i + 1 - it.pos) := by omega
  have he : some e ∈ d.entries.take (i + 1) := he
  rw [hsplit, List.take_add, List.mem_append] at he
  rcases he with he | he
  · exact hPQ _ (h.passed e he)
  · rw [htake e he]
    exact hv

/-- **At its end** an iterator has passed everything that is in the dictionary. -/
theorem Passed.stop (h : Passed d it P) (hnext : d.next it = .stop) : ∀ e ∈ d.items, P e.2 := by
  rcases next_cases d it with hn | ⟨-, hdrop⟩ | ⟨w, i, k, hn, -⟩
  · rw [hn] at hnext
    cases hnext
  · intro e he
    have hmem := mem_items.mp he
    rw [← List.take_append_drop it.pos d.entries, List.mem_append] at hmem
    exact hmem.elim (h.passed e) fun hmem => absurd hmem (hdrop e)
  · rw [hn] at hnext
    cases hnext

/-! ### What is still to come -/

/-- The entries that an iterator has not come to. -/
def remaining (d : Dict K V) (it : Iter) : List (K × V) := (d.entries.drop it.pos).reduceOption

theorem mem_remaining {e : K × V} : e ∈ d.remaining it ↔ some e ∈ d.entries.drop it.pos :=
  List.reduceOption_mem_iff

theorem mem_items_of_mem_remaining {e : K × V} (he : e ∈ d.remaining it) : e ∈ d.items :=
  mem_items.mpr (List.mem_of_mem_drop (mem_remaining.mp he))

theorem mem_remaining_erase [DecidableEq K] {k : K} {e : K × V}
    (he : e ∈ (d.erase k).remaining it) : e ∈ d.remaining it := by
  have hdrop : (d.erase k).entries.drop it.pos = (d.entries.drop it.pos).map (without k) :=
    List.map_drop.symm
  unfold remaining at he ⊢
  rw [hdrop, reduceOption_without] at he
  exact List.mem_of_mem_filter he

/-- What is squeezed together moves away from the iterator's end, and not towards it. -/
theorem drop_map_some_reduceOption {α : Type*} (es : List (Option α)) (n : Nat) {e : α}
    (he : some e ∈ (es.reduceOption.map some).drop n) : some e ∈ es.drop n := by
  induction es generalizing n with
  | nil =>
      rw [List.reduceOption_nil, List.map_nil, List.drop_nil] at he
      cases he
  | cons a es ih =>
      cases n with
      | zero =>
          obtain ⟨e', he', heq⟩ := List.mem_map.mp he
          obtain rfl := Option.some.inj heq
          exact List.reduceOption_mem_iff.mp he'
      | succ n =>
          rw [List.drop_succ_cons]
          cases a with
          | none =>
              refine ih n ?_
              exact List.drop_subset_drop_left _ (Nat.le_succ n) he
          | some a => exact ih n he

/-- After an insertion no old entry is to come that was not. -/
theorem mem_remaining_insert [DecidableEq K] {k : K} {v : V} {compact : Bool}
    (hk : k ∉ d.items.map Prod.fst) {e : K × V} (he : e ∈ (d.insert k v compact).remaining it) :
    e ∈ d.remaining it ∨ e = (k, v) := by
  have hentries : (d.insert k v compact).entries =
      (if compact then d.items.map some else d.entries) ++ [some (k, v)] := if_neg hk
  rw [mem_remaining, hentries, List.drop_append, List.mem_append] at he
  rcases he with hold | hnew
  · left
    rw [mem_remaining]
    cases compact with
    | false => exact hold
    | true => exact drop_map_some_reduceOption d.entries it.pos hold
  · right
    exact Option.some.inj (List.mem_singleton.mp (List.mem_of_mem_drop hnew))

/-- A value that an iterator yields is not to come again. -/
theorem remaining_yield {v : V} {rest : Iter} (hnext : d.next it = .yield v rest) :
    ∃ k, (k, v) ∈ d.remaining it ∧ ∀ e ∈ d.remaining rest, e ∈ d.remaining it ∧ e.1 ≠ k := by
  rcases next_cases d it with hn | ⟨hn, -⟩ | ⟨w, i, k, hn, hle, hget, -⟩
  · rw [hn] at hnext
    cases hnext
  · rw [hn] at hnext
    cases hnext
  rw [hn] at hnext
  obtain ⟨rfl, rfl⟩ := Next.yield.inj hnext
  obtain ⟨hi, heq⟩ := List.getElem?_eq_some_iff.mp hget
  have hsplit : d.entries.drop i = some (k, w) :: d.entries.drop (i + 1) := by
    rw [List.drop_eq_getElem_cons hi, heq]
  have hsub : ∀ e, some e ∈ d.entries.drop i → e ∈ d.remaining it :=
    fun e he => mem_remaining.mpr (List.drop_subset_drop_left _ hle he)
  have hnodup : ((d.entries.drop i).reduceOption.map Prod.fst).Nodup := by
    have hsublist := (List.drop_sublist i d.entries).filterMap id
    exact d.nodup.sublist (hsublist.map Prod.fst)
  rw [hsplit, List.reduceOption_cons_of_some, List.map_cons, List.nodup_cons] at hnodup
  refine ⟨k, hsub (k, w) (by rw [hsplit]; exact List.mem_cons_self), fun e he => ⟨?_, ?_⟩⟩
  · refine hsub e ?_
    rw [hsplit]
    exact List.mem_cons_of_mem _ (mem_remaining.mp he)
  · intro hkey
    exact hnodup.1 (List.mem_map.mpr ⟨e, he, hkey⟩)

end Dict

end OrderedDict
