/-
Programs over a store whose calls may raise.

Application code that talks to a database is a sequence of calls, each of which
either commits its effect or raises, wrapped in `try`/`except`.  What it leaves
behind when it raises is the effect of the calls that came before.  `Prog ε σ α`
is that: a store in, the store left behind and a value or an exception out, and a
schedule that says for each call still to come whether it raises.

A schedule lists the outcomes of the coming calls; past its end calls succeed, so
`[]` is the schedule on which nothing fails.  A property proved for all schedules
holds whichever calls raise.

Four ways of reasoning are provided, and all follow the shape of the program.
`Preserves I m` says that `I` survives `m` whatever the schedule does.  `Steady m`
says that `m` does on a quiet schedule, one on which nothing fails, what it does on
the empty one, where it computes.  `Takes m s n a s'` says that `m` makes `n` calls and
what it does when they run, whatever comes after them.  `Ensures F P m Q E` is a triple:
from a store with `P`, and where the schedule raises only what `F` allows, `m` returns with
`Q` or raises with `E`.
-/
import Mathlib.Tactic.Basic
import Mathlib.Data.List.Basic

namespace StoreProgram

/-- A program over the store `σ` that returns an `α` or raises an `ε`. -/
def Prog (ε σ α : Type) : Type :=
  σ → List (Option ε) → Except ε α × σ × List (Option ε)

variable {ε σ α β : Type}

namespace Prog

/-- One call to the store; it runs, or it raises and leaves the store alone. -/
def call (f : σ → α × σ) : Prog ε σ α
  | s, [] => (.ok (f s).1, (f s).2, [])
  | s, none :: fs => (.ok (f s).1, (f s).2, fs)
  | s, some e :: fs => (.error e, s, fs)

/-- A call that only reads. -/
def read (f : σ → α) : Prog ε σ α := call fun s => (f s, s)

/-- A call that only writes. -/
def write (f : σ → σ) : Prog ε σ Unit := call fun s => ((), f s)

/-- A step that calls nothing and cannot raise. -/
def act (f : σ → α × σ) : Prog ε σ α := fun s fs => (.ok (f s).1, (f s).2, fs)

/-- Raise. -/
def raise (e : ε) : Prog ε σ α := fun s fs => (.error e, s, fs)

/-- All of `m` or nothing: what it has done is undone when it raises. -/
def transaction (m : Prog ε σ α) : Prog ε σ α := fun s fs =>
  match m s fs with
  | (.ok a, s', fs') => (.ok a, s', fs')
  | (.error e, _, fs') => (.error e, s, fs')

/-- A computation that touches no store. -/
def ofExcept : Except ε α → Prog ε σ α
  | .ok a => fun s fs => (.ok a, s, fs)
  | .error e => raise e

/-- `try: m except e: h e`.  The calls `m` made before it raised keep their effect. -/
def tryExcept (m : Prog ε σ α) (h : ε → Prog ε σ α) : Prog ε σ α := fun s fs =>
  match m s fs with
  | (.ok a, s', fs') => (.ok a, s', fs')
  | (.error e, s', fs') => h e s' fs'

instance : Monad (Prog ε σ) where
  pure a := fun s fs => (.ok a, s, fs)
  bind m k := fun s fs =>
    match m s fs with
    | (.ok a, s', fs') => k a s' fs'
    | (.error e, s', fs') => (.error e, s', fs')

@[simp] theorem pure_apply (a : α) (s : σ) (fs : List (Option ε)) :
    (pure a : Prog ε σ α) s fs = (.ok a, s, fs) := rfl

theorem bind_apply (m : Prog ε σ α) (k : α → Prog ε σ β) (s : σ) (fs : List (Option ε)) :
    (m >>= k) s fs =
      match m s fs with
      | (.ok a, s', fs') => k a s' fs'
      | (.error e, s', fs') => (.error e, s', fs') := rfl

/-- What comes after a program that raises is not run. -/
theorem bind_of_error {m : Prog ε σ α} {s : σ} {fs : List (Option ε)} {e : ε}
    (h : (m s fs).1 = .error e) (k : α → Prog ε σ β) :
    (m >>= k) s fs = (.error e, (m s fs).2) := by
  rw [bind_apply]
  generalize m s fs = r at h
  obtain ⟨v, s', fs'⟩ := r
  obtain rfl : v = .error e := h
  rfl

@[simp] theorem raise_apply (e : ε) (s : σ) (fs : List (Option ε)) :
    (raise e : Prog ε σ α) s fs = (.error e, s, fs) := rfl

@[simp] theorem ofExcept_ok (a : α) : (ofExcept (.ok a) : Prog ε σ α) = pure a := rfl

@[simp] theorem ofExcept_error (e : ε) : (ofExcept (.error e) : Prog ε σ α) = raise e := rfl

theorem tryExcept_apply (m : Prog ε σ α) (h : ε → Prog ε σ α) (s : σ) (fs : List (Option ε)) :
    tryExcept m h s fs =
      match m s fs with
      | (.ok a, s', fs') => (.ok a, s', fs')
      | (.error e, s', fs') => h e s' fs' := rfl

end Prog

open Prog

/-! ### Schedules on which nothing fails -/

/-- No coming call raises. -/
def Quiet (fs : List (Option ε)) : Prop := ∀ o ∈ fs, o = none

instance (fs : List (Option ε)) : Decidable (Quiet fs) :=
  decidable_of_iff (∀ o ∈ fs, o.isNone = true) (by simp [Quiet])

@[simp] theorem quiet_nil : Quiet ([] : List (Option ε)) := by simp [Quiet]

theorem Quiet.tail {fs : List (Option ε)} (h : Quiet fs) : Quiet fs.tail :=
  fun o ho => h o (List.mem_of_mem_tail ho)

theorem Quiet.take_succ {fs : List (Option ε)} {n : Nat} (h1 : Quiet (fs.take 1))
    (h : Quiet (fs.tail.take n)) : Quiet (fs.take (n + 1)) := by
  cases fs with
  | nil => simp
  | cons o fs =>
      intro x hx
      rw [List.take_succ_cons, List.mem_cons] at hx
      rcases hx with rfl | hx
      · exact h1 x (by simp)
      · exact h x hx

/-- On a quiet schedule a call just runs. -/
theorem call_quiet {f : σ → α × σ} {s : σ} {fs : List (Option ε)} (h : Quiet fs) :
    (call f : Prog ε σ α) s fs = (.ok (f s).1, (f s).2, fs.tail) := by
  match fs, h with
  | [], _ => rfl
  | none :: _, _ => rfl
  | some e :: _, h => exact absurd (h (some e) (by simp)) (by simp)

theorem read_quiet {f : σ → α} {s : σ} {fs : List (Option ε)} (h : Quiet fs) :
    (read f : Prog ε σ α) s fs = (.ok (f s), s, fs.tail) := call_quiet h

theorem write_quiet {f : σ → σ} {s : σ} {fs : List (Option ε)} (h : Quiet fs) :
    (write f : Prog ε σ Unit) s fs = (.ok (), f s, fs.tail) := call_quiet h

/-- How a single call can go: it runs, or the schedule says that it raises. -/
theorem call_cases (f : σ → α × σ) (s : σ) (fs : List (Option ε)) :
    (Quiet (fs.take 1) ∧ (call f : Prog ε σ α) s fs = (.ok (f s).1, (f s).2, fs.tail)) ∨
      ∃ e, fs.head? = some (some e) ∧ (call f : Prog ε σ α) s fs = (.error e, s, fs.tail) := by
  match fs with
  | [] => exact Or.inl ⟨by simp, rfl⟩
  | none :: _ => exact Or.inl ⟨by simp [Quiet], rfl⟩
  | some e :: _ => exact Or.inr ⟨e, rfl, rfl⟩

theorem quiet_take_succ {fs : List (Option ε)} {n : Nat} :
    Quiet (fs.take (n + 1)) ↔ Quiet (fs.take 1) ∧ Quiet (fs.tail.take n) := by
  refine ⟨fun h => ?_, fun ⟨h1, h⟩ => h1.take_succ h⟩
  cases fs with
  | nil => exact ⟨by simp, by simp⟩
  | cons o fs =>
      rw [List.take_succ_cons] at h
      refine ⟨fun x hx => h x ?_, fun x hx => h x (List.mem_cons_of_mem _ hx)⟩
      obtain rfl : x = o := by simpa using hx
      exact List.mem_cons_self

theorem quiet_take_of_le {fs : List (Option ε)} {n m : Nat} (hle : n ≤ m) (h : Quiet (fs.take m)) :
    Quiet (fs.take n) :=
  fun o ho => h o ((List.take_sublist_take_left hle).subset ho)

/-- A call, and what is done with its value. -/
theorem call_bind_cases (f : σ → α × σ) (k : α → Prog ε σ β) (s : σ) (fs : List (Option ε)) :
    (Quiet (fs.take 1) ∧ (call f >>= k) s fs = k (f s).1 (f s).2 fs.tail) ∨
      (¬ Quiet (fs.take 1) ∧ ∃ e, (call f >>= k) s fs = (.error e, s, fs.tail)) := by
  rcases call_cases f s fs with ⟨hquiet, hrun⟩ | ⟨e, hhead, hrun⟩
  · exact Or.inl ⟨hquiet, by rw [bind_apply, hrun]⟩
  · refine Or.inr ⟨fun hquiet => ?_, e, by rw [bind_apply, hrun]⟩
    cases fs with
    | nil => cases hhead
    | cons o fs =>
        obtain rfl : o = some e := Option.some.inj hhead
        exact absurd (hquiet (some e) List.mem_cons_self) nofun

theorem read_bind_cases (f : σ → α) (k : α → Prog ε σ β) (s : σ) (fs : List (Option ε)) :
    (Quiet (fs.take 1) ∧ (read f >>= k) s fs = k (f s) s fs.tail) ∨
      (¬ Quiet (fs.take 1) ∧ ∃ e, (read f >>= k) s fs = (.error e, s, fs.tail)) :=
  call_bind_cases _ k s fs

theorem write_bind_cases (f : σ → σ) (k : Unit → Prog ε σ β) (s : σ) (fs : List (Option ε)) :
    (Quiet (fs.take 1) ∧ (write f >>= k) s fs = k () (f s) fs.tail) ∨
      (¬ Quiet (fs.take 1) ∧ ∃ e, (write f >>= k) s fs = (.error e, s, fs.tail)) :=
  call_bind_cases _ k s fs

/-- `m` on a quiet schedule does what it does on the empty one, and leaves a quiet rest. -/
def Steady (m : Prog ε σ α) : Prop :=
  ∀ s fs, Quiet fs →
    (m s []).2.2 = [] ∧ ∃ fs', Quiet fs' ∧ m s fs = ((m s []).1, (m s []).2.1, fs')

theorem steady_pure (a : α) : Steady (pure a : Prog ε σ α) :=
  fun _ fs h => ⟨rfl, fs, h, rfl⟩

theorem steady_raise (e : ε) : Steady (raise e : Prog ε σ α) :=
  fun _ fs h => ⟨rfl, fs, h, rfl⟩

theorem steady_call (f : σ → α × σ) : Steady (call f : Prog ε σ α) :=
  fun _ fs h => ⟨rfl, fs.tail, h.tail, call_quiet h⟩

theorem steady_read (f : σ → α) : Steady (read f : Prog ε σ α) := steady_call _

theorem steady_write (f : σ → σ) : Steady (write f : Prog ε σ Unit) := steady_call _

theorem steady_ofExcept (x : Except ε α) : Steady (ofExcept x : Prog ε σ α) := by
  cases x with
  | ok a => exact steady_pure a
  | error e => exact steady_raise e

theorem steady_bind {m : Prog ε σ α} {k : α → Prog ε σ β} (hm : Steady m)
    (hk : ∀ a, Steady (k a)) : Steady (m >>= k) := by
  intro s fs h
  obtain ⟨hnil, fs', hfs', hrun⟩ := hm s fs h
  rw [bind_apply, bind_apply, hrun]
  generalize m s [] = r at hnil
  obtain ⟨v, s', rest⟩ := r
  obtain rfl : rest = [] := hnil
  cases v with
  | ok a => exact hk a s' fs' hfs'
  | error e => exact ⟨rfl, fs', hfs', rfl⟩

/-! ### Programs whose calls are counted -/

/-- From `s`, `m` makes `n` calls: if they run it returns `a` and leaves `s'`, and if one of
them raises it raises. -/
structure Takes (m : Prog ε σ α) (s : σ) (n : Nat) (a : α) (s' : σ) : Prop where
  runs : ∀ fs, Quiet (fs.take n) → m s fs = (.ok a, s', fs.drop n)
  raises : ∀ fs, ¬ Quiet (fs.take n) → ∃ e, (m s fs).1 = .error e

theorem takes_pure (a : α) (s : σ) : Takes (pure a : Prog ε σ α) s 0 a s :=
  ⟨fun _ _ => rfl, fun _ h => absurd quiet_nil h⟩

theorem takes_call (f : σ → α × σ) (s : σ) :
    Takes (call f : Prog ε σ α) s 1 (f s).1 (f s).2 := by
  refine ⟨fun fs h => ?_, fun fs h => ?_⟩
  · rcases call_cases f s fs with ⟨-, hrun⟩ | ⟨e, hhead, -⟩
    · rw [hrun, List.drop_one]
    · cases fs with
      | nil => cases hhead
      | cons o fs =>
          obtain rfl : o = some e := Option.some.inj hhead
          exact absurd (h (some e) List.mem_cons_self) nofun
  · rcases call_cases f s fs with ⟨hquiet, -⟩ | ⟨e, -, hrun⟩
    · exact absurd hquiet h
    · exact ⟨e, by rw [hrun]⟩

theorem takes_read (f : σ → α) (s : σ) : Takes (read f : Prog ε σ α) s 1 (f s) s :=
  takes_call _ _

/-- The first `n` of `n + n'` calls run, and so do the others. -/
theorem quiet_take_add {fs : List (Option ε)} {n n' : Nat} :
    Quiet (fs.take (n + n')) ↔ Quiet (fs.take n) ∧ Quiet ((fs.drop n).take n') := by
  unfold Quiet
  rw [List.take_add]
  simp only [List.mem_append, or_imp, forall_and]

theorem takes_bind {m : Prog ε σ α} {k : α → Prog ε σ β} {s s' s'' : σ} {n l : Nat} {a : α}
    {b : β} (hm : Takes m s n a s') (hk : Takes (k a) s' l b s'') :
    Takes (m >>= k) s (n + l) b s'' := by
  refine ⟨fun fs h => ?_, fun fs h => ?_⟩
  · obtain ⟨hfirst, hrest⟩ := quiet_take_add.mp h
    rw [bind_apply, hm.runs fs hfirst]
    dsimp only
    rw [hk.runs (fs.drop n) hrest, List.drop_drop]
  · rw [bind_apply]
    by_cases hfirst : Quiet (fs.take n)
    · rw [hm.runs fs hfirst]
      exact hk.raises (fs.drop n) fun hrest => h (quiet_take_add.mpr ⟨hfirst, hrest⟩)
    · obtain ⟨e, he⟩ := hm.raises fs hfirst
      generalize m s fs = r at he
      obtain ⟨v, s', fs'⟩ := r
      obtain rfl : v = .error e := he
      exact ⟨e, rfl⟩

/-! ### What survives a program on every schedule -/

/-- `I` holds of the store `m` leaves, however it ends and whichever calls raise. -/
def Preserves (I : σ → Prop) (m : Prog ε σ α) : Prop :=
  ∀ s fs, I s → I (m s fs).2.1

variable {I : σ → Prop}

theorem preserves_pure (a : α) : Preserves I (pure a : Prog ε σ α) := fun _ _ h => h

theorem preserves_raise (e : ε) : Preserves I (raise e : Prog ε σ α) := fun _ _ h => h

theorem preserves_call {f : σ → α × σ} (hf : ∀ s, I s → I (f s).2) :
    Preserves I (call f : Prog ε σ α) := by
  intro s fs h
  match fs with
  | [] => exact hf s h
  | none :: _ => exact hf s h
  | some _ :: _ => exact h

theorem preserves_read (f : σ → α) : Preserves I (read f : Prog ε σ α) :=
  preserves_call fun _ h => h

theorem preserves_write {f : σ → σ} (hf : ∀ s, I s → I (f s)) :
    Preserves I (write f : Prog ε σ Unit) :=
  preserves_call hf

theorem preserves_ofExcept (x : Except ε α) : Preserves I (ofExcept x : Prog ε σ α) := by
  cases x with
  | ok a => exact preserves_pure a
  | error e => exact preserves_raise e

theorem preserves_bind {m : Prog ε σ α} {k : α → Prog ε σ β} (hm : Preserves I m)
    (hk : ∀ a, Preserves I (k a)) : Preserves I (m >>= k) := by
  intro s fs h
  rw [bind_apply]
  have h1 := hm s fs h
  generalize m s fs = r at h1
  obtain ⟨v, s', fs'⟩ := r
  cases v with
  | ok a => exact hk a s' fs' h1
  | error e => exact h1

/-- What is done with a value that was read from a store with `I`. -/
theorem preserves_read_bind {I : σ → Prop} {f : σ → α} {k : α → Prog ε σ β}
    (h : ∀ s, I s → Preserves I (k (f s))) : Preserves I (read f >>= k) := by
  intro s fs hs
  rw [bind_apply]
  rcases call_cases (fun s => (f s, s)) s fs with ⟨-, hcall⟩ | ⟨e, -, hcall⟩
  · unfold Prog.read
    rw [hcall]
    exact h s hs s fs.tail hs
  · unfold Prog.read
    rw [hcall]
    exact hs

theorem preserves_tryExcept {m : Prog ε σ α} {h : ε → Prog ε σ α} (hm : Preserves I m)
    (hh : ∀ e, Preserves I (h e)) : Preserves I (tryExcept m h) := by
  intro s fs hs
  rw [tryExcept_apply]
  have h1 := hm s fs hs
  generalize m s fs = r at h1
  obtain ⟨v, s', fs'⟩ := r
  cases v with
  | ok a => exact h1
  | error e => exact hh e s' fs' h1

theorem preserves_transaction {m : Prog ε σ α} (hm : Preserves I m) :
    Preserves I (transaction m) := by
  intro s fs hs
  unfold transaction
  have h1 := hm s fs hs
  generalize m s fs = r at h1
  obtain ⟨v, s', fs'⟩ := r
  cases v with
  | ok a => exact h1
  | error e => exact hs

/-! ### What a program returns -/

/-- Every value `m` can return satisfies `P`. -/
def Returns (P : α → Prop) (m : Prog ε σ α) : Prop := ∀ s fs a, (m s fs).1 = .ok a → P a

theorem returns_pure {P : α → Prop} {a : α} (h : P a) : Returns P (pure a : Prog ε σ α) := by
  intro s fs b hb
  obtain rfl : a = b := Except.ok.inj hb
  exact h

theorem returns_bind {P : β → Prop} {m : Prog ε σ α} {k : α → Prog ε σ β}
    (hk : ∀ a, Returns P (k a)) : Returns P (m >>= k) := by
  intro s fs b hb
  rw [bind_apply] at hb
  generalize m s fs = r at hb
  obtain ⟨v, s', fs'⟩ := r
  cases v with
  | ok a => exact hk a s' fs' b hb
  | error e => cases hb

/-! ### Triples -/

/-- All that the schedule raises is allowed. -/
def RaisesOnly (F : ε → Prop) (fs : List (Option ε)) : Prop := ∀ e, some e ∈ fs → F e

theorem RaisesOnly.tail {F : ε → Prop} {fs : List (Option ε)} (h : RaisesOnly F fs) :
    RaisesOnly F fs.tail := fun e he => h e (List.mem_of_mem_tail he)

/-- From a store with `P`, `m` returns a value and leaves a store with `Q`, or it raises and
leaves a store with `E`. -/
def Ensures (F : ε → Prop) (P : σ → Prop) (m : Prog ε σ α) (Q : α → σ → Prop)
    (E : ε → σ → Prop) : Prop :=
  ∀ s fs, RaisesOnly F fs → P s →
    RaisesOnly F (m s fs).2.2 ∧
      match (m s fs).1 with
      | .ok a => Q a (m s fs).2.1
      | .error e => E e (m s fs).2.1

variable {F : ε → Prop} {P P' : σ → Prop} {Q Q' : α → σ → Prop} {E E' : ε → σ → Prop}

/-- What an `Ensures` says of a value that was returned. -/
theorem Ensures.of_ok {m : Prog ε σ α} (h : Ensures F P m Q E) {s : σ} {fs : List (Option ε)}
    (hfs : RaisesOnly F fs) (hs : P s) {a : α} (ha : (m s fs).1 = .ok a) : Q a (m s fs).2.1 := by
  have hpost := (h s fs hfs hs).2
  rw [ha] at hpost
  exact hpost

/-- What a precondition says of no store holds outside. -/
theorem ensures_of_pre {m : Prog ε σ α} {p : Prop} (hp : ∀ s, P s → p)
    (h : p → Ensures F P m Q E) : Ensures F P m Q E :=
  fun s fs hfs hs => h (hp s hs) s fs hfs hs

/-- What a precondition says there is, may be taken for given. -/
theorem ensures_exists {X : Sort*} {m : Prog ε σ α} {P : X → σ → Prop}
    (h : ∀ x, Ensures F (P x) m Q E) : Ensures F (fun s => ∃ x, P x s) m Q E :=
  fun s fs hfs ⟨x, hs⟩ => h x s fs hfs hs

theorem ensures_pure {a : α} (h : ∀ s, P s → Q a s) : Ensures F P (pure a : Prog ε σ α) Q E :=
  fun s _ hfs hs => ⟨hfs, h s hs⟩

theorem ensures_raise {e : ε} (h : ∀ s, P s → E e s) : Ensures F P (raise e : Prog ε σ α) Q E :=
  fun s _ hfs hs => ⟨hfs, h s hs⟩

theorem ensures_ofExcept {x : Except ε α} (hok : ∀ a s, x = .ok a → P s → Q a s)
    (herror : ∀ e s, x = .error e → P s → E e s) : Ensures F P (ofExcept x) Q E := by
  cases x with
  | ok a => exact ensures_pure fun s hs => hok a s rfl hs
  | error e => exact ensures_raise fun s hs => herror e s rfl hs

theorem ensures_call {f : σ → α × σ} (hok : ∀ s, P s → Q (f s).1 (f s).2)
    (herror : ∀ e s, F e → P s → E e s) : Ensures F P (call f) Q E := by
  intro s fs hfs hs
  match fs, hfs with
  | [], hfs => exact ⟨hfs, hok s hs⟩
  | none :: _, hfs => exact ⟨hfs.tail, hok s hs⟩
  | some e :: _, hfs => exact ⟨hfs.tail, herror e s (hfs e List.mem_cons_self) hs⟩

theorem ensures_bind {m : Prog ε σ α} {k : α → Prog ε σ β} {R : β → σ → Prop}
    (hm : Ensures F P m Q E) (hk : ∀ a, Ensures F (Q a) (k a) R E) :
    Ensures F P (m >>= k) R E := by
  intro s fs hfs hs
  have h1 := hm s fs hfs hs
  rw [bind_apply]
  generalize m s fs = r at h1
  obtain ⟨v, s', fs'⟩ := r
  obtain ⟨hfs', hpost⟩ := h1
  cases v with
  | ok a => exact hk a s' fs' hfs' hpost
  | error e => exact ⟨hfs', hpost⟩

/-- A first call of which nothing is used. -/
theorem ensures_call_bind {f : σ → α × σ} {k : α → Prog ε σ β} {R : β → σ → Prop}
    (hfault : ∀ e s, F e → P s → E e s) (hk : ∀ a, Ensures F (fun _ => True) (k a) R E) :
    Ensures F P (call f >>= k) R E :=
  ensures_bind (ensures_call (fun _ _ => trivial) hfault) hk

theorem ensures_tryExcept {m : Prog ε σ α} {h : ε → Prog ε σ α}
    (hm : Ensures F P m Q E') (hh : ∀ e, Ensures F (E' e) (h e) Q E) :
    Ensures F P (tryExcept m h) Q E := by
  intro s fs hfs hs
  have h1 := hm s fs hfs hs
  rw [tryExcept_apply]
  generalize m s fs = r at h1
  obtain ⟨v, s', fs'⟩ := r
  obtain ⟨hfs', hpost⟩ := h1
  cases v with
  | ok a => exact ⟨hfs', hpost⟩
  | error e => exact hh e s' fs' hfs' hpost

theorem Ensures.mono {m : Prog ε σ α} (h : Ensures F P m Q E) (hP : ∀ s, P' s → P s)
    (hQ : ∀ a s, Q a s → Q' a s) (hE : ∀ e s, E e s → E' e s) : Ensures F P' m Q' E' := by
  intro s fs hfs hs
  obtain ⟨hfs', hpost⟩ := h s fs hfs (hP s hs)
  refine ⟨hfs', ?_⟩
  generalize m s fs = r at hpost
  obtain ⟨v, s', fs''⟩ := r
  cases v with
  | ok a => exact hQ a s' hpost
  | error e => exact hE e s' hpost

end StoreProgram
