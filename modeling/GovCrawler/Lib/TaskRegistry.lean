/-
A registry of tasks by key, as an event loop keeps it: a list of all tasks that were ever
spawned, and a dict that maps a key to the task that was registered for it last.

A server that wants one live task for each key looks into the dict before it spawns
another, and takes the key out when a task is through.  Whether that works is a matter of
one property, `Registered`: every live task is the one that the dict has for its key.  It
implies that no key has two live tasks, and each operation keeps it under a condition
that is also necessary.
-/
import Mathlib.Tactic.Basic
import Mathlib.Data.List.Basic

namespace TaskRegistry

variable {T K : Type*}

/-- A dict of tasks, by their index. -/
abbrev Registry (K : Type*) : Type _ := K → Option Nat

/-- Every live task is the one that is registered for its key. -/
def Registered (key : T → K) (live : T → Bool) (tasks : List T) (registry : Registry K) : Prop :=
  ∀ i t, tasks[i]? = some t → live t = true → registry (key t) = some i

/-- No live task has the key. -/
def Free (key : T → K) (live : T → Bool) (tasks : List T) (k : K) : Prop :=
  ∀ t ∈ tasks, live t = true → key t ≠ k

instance [DecidableEq K] (key : T → K) (live : T → Bool) (tasks : List T) (k : K) :
    Decidable (Free key live tasks k) := by
  unfold Free
  infer_instance

variable {key : T → K} {live : T → Bool} {tasks : List T} {registry : Registry K}

/-- No key has two live tasks. -/
theorem Registered.unique (h : Registered key live tasks registry) {i j : Nat} {t u : T}
    (ht : tasks[i]? = some t) (hu : tasks[j]? = some u) (hlive : live t = true)
    (hlive' : live u = true) (hkey : key t = key u) : i = j := by
  have hi := h i t ht hlive
  rw [hkey, h j u hu hlive'] at hi
  exact (Option.some.inj hi).symm

/-- A task moves on, and keeps its key. -/
theorem Registered.set (h : Registered key live tasks registry) {i : Nat} {t t' : T}
    (ht : tasks[i]? = some t) (hkey : key t' = key t) (hlive : live t' = true → live t = true) :
    Registered key live (tasks.set i t') registry := by
  intro j u hu hliveu
  by_cases hij : i = j
  · subst hij
    obtain ⟨hlt, -⟩ := List.getElem?_eq_some_iff.mp ht
    rw [List.getElem?_set_self hlt] at hu
    obtain rfl := Option.some.inj hu
    rw [hkey]
    exact h i t ht (hlive hliveu)
  · rw [List.getElem?_set_ne hij] at hu
    exact h j u hu hliveu

theorem getElem?_concat {i : Nat} {t u : T} (h : (tasks ++ [t])[i]? = some u) :
    tasks[i]? = some u ∨ (i = tasks.length ∧ u = t) := by
  rcases Nat.lt_trichotomy i tasks.length with hlt | heq | hgt
  · rw [List.getElem?_append_left hlt] at h
    exact Or.inl h
  · subst heq
    rw [List.getElem?_concat_length] at h
    exact Or.inr ⟨rfl, (Option.some.inj h).symm⟩
  · rw [List.getElem?_eq_none (by simp; omega)] at h
    cases h

/-! ### What the operations keep -/

variable [DecidableEq K]

/-- `registry[k] = i`. -/
def Registry.put (registry : Registry K) (k : K) (i : Nat) : Registry K :=
  fun k' => if k' = k then some i else registry k'

/-- `registry.pop(k, None)`. -/
def Registry.pop (registry : Registry K) (k : K) : Registry K :=
  fun k' => if k' = k then none else registry k'

@[simp] theorem Registry.put_self (registry : Registry K) (k : K) (i : Nat) :
    registry.put k i k = some i := if_pos rfl

theorem Registry.put_of_ne (registry : Registry K) {k k' : K} (i : Nat) (h : k' ≠ k) :
    registry.put k i k' = registry k' := if_neg h

@[simp] theorem Registry.pop_self (registry : Registry K) (k : K) : registry.pop k k = none :=
  if_pos rfl

theorem Registry.pop_of_ne (registry : Registry K) {k k' : K} (h : k' ≠ k) :
    registry.pop k k' = registry k' := if_neg h

/-- **Spawning** a task and registering it is right exactly when its key is free. -/
theorem registered_spawn_iff (h : Registered key live tasks registry) {t : T}
    (hlive : live t = true) :
    Registered key live (tasks ++ [t]) (registry.put (key t) tasks.length) ↔
      Free key live tasks (key t) := by
  constructor
  · intro hall u hu hliveu hkey
    obtain ⟨i, hi⟩ := List.mem_iff_getElem?.mp hu
    have hlt : i < tasks.length := (List.getElem?_eq_some_iff.mp hi).1
    have hput := hall i u (by rw [List.getElem?_append_left hlt]; exact hi) hliveu
    rw [hkey, Registry.put_self] at hput
    exact absurd (Option.some.inj hput) (Nat.ne_of_gt hlt)
  · intro hfree i u hu hliveu
    rcases getElem?_concat hu with hold | ⟨rfl, rfl⟩
    · rw [Registry.put_of_ne _ _ (hfree u (List.mem_of_getElem? hold) hliveu)]
      exact h i u hold hliveu
    · exact Registry.put_self _ _ _

/-- **Popping** the key of a live task is right exactly when the task ends there and then. -/
theorem registered_pop_iff (h : Registered key live tasks registry) {i : Nat} {t t' : T}
    (ht : tasks[i]? = some t) (hlive : live t = true) (hkey : key t' = key t) :
    Registered key live (tasks.set i t') (registry.pop (key t)) ↔ live t' = false := by
  obtain ⟨hlt, -⟩ := List.getElem?_eq_some_iff.mp ht
  constructor
  · intro hall
    by_contra hlive'
    have hget := hall i t' (List.getElem?_set_self hlt) (by simpa using hlive')
    rw [hkey, Registry.pop_self] at hget
    cases hget
  · intro hended j u hu hliveu
    by_cases hij : i = j
    · subst hij
      rw [List.getElem?_set_self hlt] at hu
      obtain rfl := Option.some.inj hu
      rw [hended] at hliveu
      cases hliveu
    · rw [List.getElem?_set_ne hij] at hu
      -- the live tasks of the key that is popped are one
      have hne : key u ≠ key t := fun hc => hij (h.unique ht hu hlive hliveu hc.symm)
      rw [Registry.pop_of_ne _ hne]
      exact h j u hu hliveu

end TaskRegistry
