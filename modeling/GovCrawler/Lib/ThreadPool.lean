/-
Calls that run side by side.

A call that others can come between is what it has read so far and where it goes on.  A pool
is the state that the calls share and the calls; a step takes one of them further.

`Holds` is the invariant of a pool: one of what is shared, and one that relates it to each
call.  A step of one call has to keep that of its own, and to change what is shared in such a
way that no other call's can break.
-/
import Mathlib.Data.List.Basic
import Mathlib.Data.List.Perm.Basic

namespace ThreadPool

/-- What every entry satisfies, every entry satisfies once one is replaced. -/
theorem forall_mem_set {α : Type*} {p : α → Prop} {l : List α} (h : ∀ a ∈ l, p a) (i : Nat) {b : α}
    (hb : p b) : ∀ a ∈ l.set i b, p a := by
  intro a ha
  rcases List.mem_or_eq_of_mem_set ha with hold | rfl
  · exact h a hold
  · exact hb

/-- What the entries hold, when one is replaced: it gives up its own and gets what the new one
holds. -/
theorem filterMap_set_perm {α β : Type*} (f : α → Option β) {l : List α} {i : Nat} {a b : α}
    (hget : l[i]? = some a) :
    ((f a).toList ++ (l.set i b).filterMap f).Perm ((f b).toList ++ l.filterMap f) := by
  have hcons : ∀ (c : α) (l : List α), (c :: l).filterMap f = (f c).toList ++ l.filterMap f := by
    intro c l
    rw [List.filterMap_cons]
    cases f c <;> rfl
  induction l generalizing i with
  | nil => cases hget
  | cons c l ih =>
      cases i with
      | zero =>
          obtain rfl : c = a := Option.some.inj hget
          rw [List.set_cons_zero, hcons, hcons, ← List.append_assoc, ← List.append_assoc]
          exact List.perm_append_comm.append_right _
      | succ i =>
          rw [List.set_cons_succ, hcons, hcons, ← List.append_assoc, ← List.append_assoc]
          refine (List.perm_append_comm.append_right _).trans ?_
          rw [List.append_assoc]
          refine ((ih hget).append_left _).trans ?_
          rw [← List.append_assoc]
          exact List.perm_append_comm.append_right _

structure Pool (S T : Type*) where
  shared : S
  threads : List T

variable {S T : Type*}

namespace Pool

/-- One call takes a step, if it can. -/
def advance (next : S → T → Option (S × T)) (pool : Pool S T) (i : Nat) : Option (Pool S T) :=
  match pool.threads[i]? with
  | none => none
  | some t => (next pool.shared t).map fun r => ⟨r.1, pool.threads.set i r.2⟩

/-- A call begins. -/
def spawn (pool : Pool S T) (t : T) : Pool S T := { pool with threads := pool.threads ++ [t] }

/-- What is shared changes, and every call with it. -/
def replace (pool : Pool S T) (shared : S) (f : T → T) : Pool S T := ⟨shared, pool.threads.map f⟩

variable {next : S → T → Option (S × T)} {pool pool' : Pool S T} {i : Nat}

theorem advance_eq_some :
    pool.advance next i = some pool' ↔ ∃ t s t', pool.threads[i]? = some t ∧
      next pool.shared t = some (s, t') ∧ pool' = ⟨s, pool.threads.set i t'⟩ := by
  unfold advance
  cases hget : pool.threads[i]? with
  | none => exact iff_of_false nofun (by rintro ⟨t, s, t', ht, -⟩; cases ht)
  | some t =>
      dsimp only
      rw [Option.map_eq_some_iff]
      constructor
      · rintro ⟨⟨s, t'⟩, hnext, rfl⟩
        exact ⟨t, s, t', rfl, hnext, rfl⟩
      · rintro ⟨t₁, s, t', ht, hnext, rfl⟩
        obtain rfl := Option.some.inj ht
        exact ⟨(s, t'), hnext, rfl⟩

end Pool

/-- The invariant of a pool. -/
structure Holds (I : S → Prop) (J : S → T → Prop) (pool : Pool S T) : Prop where
  shared : I pool.shared
  threads : ∀ t ∈ pool.threads, J pool.shared t

section Rules

variable {I : S → Prop} {J : S → T → Prop} {pool pool' : Pool S T}

/-- A call that begins as it may. -/
theorem Holds.spawn (h : Holds I J pool) {t : T} (ht : J pool.shared t) :
    Holds I J (pool.spawn t) := by
  refine ⟨h.shared, fun t' ht' => ?_⟩
  rcases List.mem_append.mp ht' with hold | hnew
  · exact h.threads t' hold
  · obtain rfl := List.mem_singleton.mp hnew
    exact ht

/-- **The rule of the step.**  It is enough that a step keeps its own call's invariant, and
disturbs that of no other call. -/
theorem Holds.advance (h : Holds I J pool) {next : S → T → Option (S × T)} {i : Nat}
    (hstep : ∀ t s t', I pool.shared → J pool.shared t → next pool.shared t = some (s, t') →
      I s ∧ J s t' ∧ ∀ u, J pool.shared u → J s u)
    (hadvance : pool.advance next i = some pool') : Holds I J pool' := by
  obtain ⟨t, s, t', hget, hnext, rfl⟩ := Pool.advance_eq_some.mp hadvance
  obtain ⟨hI, hown, hothers⟩ :=
    hstep t s t' h.shared (h.threads t (List.mem_of_getElem? hget)) hnext
  exact ⟨hI, forall_mem_set (fun u hu => hothers u (h.threads u hu)) i hown⟩

theorem Holds.replace (h : Holds I J pool) {s : S} {f : T → T} (hI : I s)
    (hJ : ∀ t, J pool.shared t → J s (f t)) : Holds I J (pool.replace s f) := by
  refine ⟨hI, fun t ht => ?_⟩
  obtain ⟨u, hu, rfl⟩ := List.mem_map.mp ht
  exact hJ u (h.threads u hu)

end Rules

/-! ### One call at a time -/

/-- All calls but one are over. -/
def AllButOne (ended : T → Prop) (threads : List T) : Prop :=
  ∃ i : Nat, ∀ (j : Nat) (t : T), threads[j]? = some t → j ≠ i → ended t

section AllButOne

variable {ended : T → Prop} {threads : List T}

/-- The one that is not over is the one. -/
theorem AllButOne.others (h : AllButOne ended threads) {i : Nat} {t : T}
    (hget : threads[i]? = some t) (ht : ¬ ended t) {j : Nat} {u : T} (hu : threads[j]? = some u)
    (hne : j ≠ i) : ended u := by
  obtain ⟨k, hk⟩ := h
  by_cases hik : i = k
  · exact hk j u hu (hik ▸ hne)
  · exact absurd (hk i t hget hik) ht

theorem AllButOne.set (h : AllButOne ended threads) {i : Nat} {t : T} (hget : threads[i]? = some t)
    (ht : ¬ ended t) (t' : T) : AllButOne ended (threads.set i t') := by
  refine ⟨i, fun j u hu hne => ?_⟩
  rw [List.getElem?_set_ne (Ne.symm hne)] at hu
  exact h.others hget ht hu hne

/-- A call that begins when all others are over. -/
theorem allButOne_append (h : ∀ t ∈ threads, ended t) (t : T) : AllButOne ended (threads ++ [t]) := by
  refine ⟨threads.length, fun j u hu hne => ?_⟩
  have hlt : j < threads.length := by
    have hbound := (List.getElem?_eq_some_iff.mp hu).1
    rw [List.length_append, List.length_singleton] at hbound
    omega
  rw [List.getElem?_append_left hlt] at hu
  exact h u (List.mem_of_getElem? hu)

theorem AllButOne.map (h : AllButOne ended threads) {f : T → T} (hf : ∀ t, ended t → ended (f t)) :
    AllButOne ended (threads.map f) := by
  obtain ⟨i, hi⟩ := h
  refine ⟨i, fun j u hu hne => ?_⟩
  rw [List.getElem?_map] at hu
  obtain ⟨t, ht, rfl⟩ := Option.map_eq_some_iff.mp hu
  exact hf t (hi j t ht hne)

end AllButOne

/-! ### One call at a point -/

/-- No two calls are at such a point. -/
def Exclusive (p : T → Prop) (threads : List T) : Prop :=
  ∀ (i j : Nat) (t u : T), threads[i]? = some t → threads[j]? = some u → p t → p u → i = j

section Exclusive

variable {p : T → Prop} {threads : List T}

/-- An entry of the list with one entry replaced is that one or an old one. -/
theorem getElem?_set_cases {i j : Nat} {t' u : T} (h : (threads.set i t')[j]? = some u) :
    j = i ∧ u = t' ∨ j ≠ i ∧ threads[j]? = some u := by
  by_cases hne : j = i
  · subst hne
    have hmem := List.getElem?_eq_some_iff.mp h
    obtain ⟨hlt, heq⟩ := hmem
    rw [List.getElem_set_self] at heq
    exact Or.inl ⟨rfl, heq.symm⟩
  · rw [List.getElem?_set_ne (Ne.symm hne)] at h
    exact Or.inr ⟨hne, h⟩

/-- The call that is there may go on, and one that is not there may stay away. -/
theorem Exclusive.set (h : Exclusive p threads) {i : Nat} {t t' : T} (hget : threads[i]? = some t)
    (himp : p t' → p t) : Exclusive p (threads.set i t') := by
  intro j k u v hu hv hpu hpv
  rcases getElem?_set_cases hu with ⟨rfl, rfl⟩ | ⟨-, hold⟩
  · rcases getElem?_set_cases hv with ⟨rfl, -⟩ | ⟨-, hold⟩
    · rfl
    · exact h j k t v hget hold (himp hpu) hpv
  · rcases getElem?_set_cases hv with ⟨rfl, rfl⟩ | ⟨-, hold'⟩
    · exact h j k u t hold hget hpu (himp hpv)
    · exact h j k u v hold hold' hpu hpv

/-- Where no call is there, one may come. -/
theorem exclusive_set (h : ∀ t ∈ threads, ¬ p t) (i : Nat) (t' : T) :
    Exclusive p (threads.set i t') := by
  intro j k u v hu hv hpu hpv
  rcases getElem?_set_cases hu with ⟨rfl, rfl⟩ | ⟨-, hu⟩
  · rcases getElem?_set_cases hv with ⟨rfl, -⟩ | ⟨-, hv⟩
    · rfl
    · exact absurd hpv (h v (List.mem_of_getElem? hv))
  · exact absurd hpu (h u (List.mem_of_getElem? hu))

theorem Exclusive.append (h : Exclusive p threads) {t : T} (ht : ¬ p t) :
    Exclusive p (threads ++ [t]) := by
  have hold : ∀ (j : Nat) (u : T), (threads ++ [t])[j]? = some u → p u → threads[j]? = some u := by
    intro j u hu hpu
    rw [List.getElem?_append] at hu
    split at hu
    · exact hu
    · have hmem := List.mem_singleton.mp (List.mem_of_getElem? hu)
      exact absurd (hmem ▸ hpu) ht
  intro j k u v hu hv hpu hpv
  exact h j k u v (hold j u hu hpu) (hold k v hv hpv) hpu hpv

end Exclusive

end ThreadPool
