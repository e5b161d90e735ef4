/-
Runs of a partial step function, and the one induction over them.

A concurrent system is a step function `S → A → Option S`: an action says which
party moves and with what input from outside, and `none` says that the action is
not enabled in the state.  A run is a list of actions, so quantifying over runs is
quantifying over interleavings.

Nearly every result about a system of this kind has the shape "whenever every step
of the run was taken in a state that met `ok`, the state reached satisfies `Inv`".
`Meets` is the hypothesis, `run_invariant` is the induction, and a development that
uses them proves one step lemma per system and never inducts over a run again.
-/
import Mathlib.Tactic.Basic
import Mathlib.Logic.Basic

namespace Transition

variable {S A : Type*}

/-- Take the actions in order; `none` as soon as one of them is not enabled. -/
def run (step : S → A → Option S) : S → List A → Option S
  | s, [] => some s
  | s, a :: as =>
      match step s a with
      | none => none
      | some s' => run step s' as

/-- Every step of the run is taken in a state that meets `ok`. -/
def Meets (step : S → A → Option S) (ok : S → A → Prop) : S → List A → Prop
  | _, [] => True
  | s, a :: as =>
      ok s a ∧
        match step s a with
        | none => True
        | some s' => Meets step ok s' as

instance Meets.decidable (step : S → A → Option S) (ok : S → A → Prop)
    [∀ s a, Decidable (ok s a)] : ∀ s as, Decidable (Meets step ok s as)
  | _, [] => .isTrue trivial
  | s, a :: as =>
      match h : step s a with
      | none => decidable_of_iff (ok s a) (by simp [Meets, h])
      | some s' =>
          have := Meets.decidable step ok s' as
          decidable_of_iff (ok s a ∧ Meets step ok s' as) (by simp [Meets, h])

variable {step : S → A → Option S} {ok ok' : S → A → Prop}

@[simp] theorem run_nil (s : S) : run step s [] = some s := rfl

theorem run_cons (s : S) (a : A) (as : List A) :
    run step s (a :: as) = (step s a).bind fun s' => run step s' as := by
  rw [run]
  cases step s a <;> rfl

theorem run_cons_eq_some {s t : S} {a : A} {as : List A} :
    run step s (a :: as) = some t ↔ ∃ s', step s a = some s' ∧ run step s' as = some t := by
  rw [run_cons, Option.bind_eq_some_iff]

/-- A run splits wherever its list of actions does. -/
theorem run_append (s : S) (as bs : List A) :
    run step s (as ++ bs) = (run step s as).bind fun s' => run step s' bs := by
  induction as generalizing s with
  | nil => rfl
  | cons a as ih =>
      rw [List.cons_append, run_cons, run_cons]
      cases step s a with
      | none => rfl
      | some s' => exact ih s'

theorem Meets.head {s : S} {a : A} {as : List A} (h : Meets step ok s (a :: as)) : ok s a := h.1

theorem Meets.tail {s s' : S} {a : A} {as : List A} (h : Meets step ok s (a :: as))
    (hs : step s a = some s') : Meets step ok s' as := by
  have h2 := h.2
  rw [hs] at h2
  exact h2

/-- A condition that the actions of a run meet in any state holds along the run. -/
theorem Meets.of_actions {as : List A} (h : ∀ a ∈ as, ∀ s, ok s a) (s : S) :
    Meets step ok s as := by
  induction as generalizing s with
  | nil => trivial
  | cons a as ih =>
      refine ⟨h a (by simp) s, ?_⟩
      cases step s a with
      | none => trivial
      | some s' => exact ih (fun b hb => h b (by simp [hb])) s'

/-- A condition that holds of every state and action holds along every run. -/
theorem Meets.of_forall (h : ∀ s a, ok s a) (s : S) (as : List A) : Meets step ok s as :=
  Meets.of_actions (fun a _ s => h s a) s

theorem Meets.mono (h : ∀ s a, ok s a → ok' s a) {s : S} {as : List A}
    (hm : Meets step ok s as) : Meets step ok' s as := by
  induction as generalizing s with
  | nil => trivial
  | cons a as ih =>
      obtain ⟨ha, hrest⟩ := hm
      refine ⟨h s a ha, ?_⟩
      cases hs : step s a with
      | none => trivial
      | some s' =>
          rw [hs] at hrest
          exact ih hrest

/-- What a condition and an invariant imply of a step, they imply of the steps of a run. -/
theorem Meets.of_invariant {Inv : S → Prop}
    (hstep : ∀ s a s', Inv s → ok s a → step s a = some s' → Inv s')
    (himp : ∀ s a, Inv s → ok s a → ok' s a) {s : S} {as : List A} (h0 : Inv s)
    (hm : Meets step ok s as) : Meets step ok' s as := by
  induction as generalizing s with
  | nil => trivial
  | cons a as ih =>
      obtain ⟨ha, hrest⟩ := hm
      refine ⟨himp s a h0 ha, ?_⟩
      cases hs : step s a with
      | none => trivial
      | some s' =>
          rw [hs] at hrest
          exact ih (hstep s a s' h0 ha hs) hrest

theorem Meets.and {s : S} {as : List A} (h : Meets step ok s as) (h' : Meets step ok' s as) :
    Meets step (fun s a => ok s a ∧ ok' s a) s as := by
  induction as generalizing s with
  | nil => trivial
  | cons a as ih =>
      obtain ⟨ha, hrest⟩ := h
      obtain ⟨ha', hrest'⟩ := h'
      refine ⟨⟨ha, ha'⟩, ?_⟩
      cases hs : step s a with
      | none => trivial
      | some s' =>
          rw [hs] at hrest hrest'
          exact ih hrest hrest'

theorem Meets.append {s t : S} {as bs : List A} (h : Meets step ok s (as ++ bs))
    (hr : run step s as = some t) : Meets step ok s as ∧ Meets step ok t bs := by
  induction as generalizing s with
  | nil =>
      obtain rfl : s = t := by simpa using hr
      exact ⟨trivial, h⟩
  | cons a as ih =>
      obtain ⟨s', hs, hr'⟩ := run_cons_eq_some.mp hr
      obtain ⟨h1, h2⟩ := ih (Meets.tail h hs) hr'
      exact ⟨⟨h.1, by rw [hs]; exact h1⟩, h2⟩

/--
**What one step preserves, a run preserves.**  `Inv` holds of every state reached
along a run whose steps all meet `ok`, provided a single step that meets it keeps
`Inv`.
-/
theorem run_invariant {Inv : S → Prop}
    (hstep : ∀ s a s', Inv s → ok s a → step s a = some s' → Inv s')
    {s t : S} {as : List A} (h0 : Inv s) (hm : Meets step ok s as)
    (hr : run step s as = some t) : Inv t := by
  induction as generalizing s with
  | nil =>
      obtain rfl : s = t := by simpa using hr
      exact h0
  | cons a as ih =>
      obtain ⟨s', hs, hr'⟩ := run_cons_eq_some.mp hr
      exact ih (hstep s a s' h0 hm.head hs) (hm.tail hs) hr'

/-- The unconditional case: an inductive invariant holds of every state reached. -/
theorem run_invariant' {Inv : S → Prop}
    (hstep : ∀ s a s', Inv s → step s a = some s' → Inv s')
    {s t : S} {as : List A} (h0 : Inv s) (hr : run step s as = some t) : Inv t :=
  @run_invariant S A step (fun _ _ => True) Inv
    (fun s a s' hi _ hs => hstep s a s' hi hs) s t as h0
    (Meets.of_forall (fun _ _ => trivial) s as) hr

/-- A condition that held at the end held all along: a step that is taken without it, where
`I` holds as it always does, sets what no step undoes. -/
theorem Meets.of_latch_of_inv {I Bad : S → Prop}
    (hinv : ∀ s a s', I s → step s a = some s' → I s')
    (hset : ∀ s a s', I s → ¬ ok s a → step s a = some s' → Bad s')
    (hkeep : ∀ s a s', Bad s → step s a = some s' → Bad s')
    {s t : S} {as : List A} (h0 : I s) (hr : run step s as = some t) (hend : ¬ Bad t) :
    Meets step ok s as := by
  induction as generalizing s with
  | nil => trivial
  | cons a as ih =>
      obtain ⟨s', hs, hr'⟩ := run_cons_eq_some.mp hr
      refine ⟨Classical.not_not.mp fun hnot => ?_, ?_⟩
      · exact hend (run_invariant' hkeep (hset s a s' h0 hnot hs) hr')
      · rw [hs]
        exact ih (hinv s a s' h0 hs) hr'

theorem Meets.of_latch {Bad : S → Prop}
    (hset : ∀ s a s', ¬ ok s a → step s a = some s' → Bad s')
    (hkeep : ∀ s a s', Bad s → step s a = some s' → Bad s')
    {s t : S} {as : List A} (hr : run step s as = some t) (hend : ¬ Bad t) :
    Meets step ok s as :=
  Meets.of_latch_of_inv (I := fun _ => True) (fun _ _ _ _ _ => trivial)
    (fun s a s' _ => hset s a s') hkeep trivial hr hend

/-- A condition that every entry of the log at the end attests was met by every step, when
each step adds an entry that attests it. -/
theorem Meets.of_log {L : Type*} {log : S → List L} {P : L → Prop}
    (hlog : ∀ s a s', step s a = some s' → ∃ e, log s' = log s ++ [e] ∧ (P e → ok s a))
    {s t : S} {as : List A} (hr : run step s as = some t) (hend : ∀ e ∈ log t, P e) :
    Meets step ok s as := by
  have hset : ∀ s a s', ¬ ok s a → step s a = some s' → ¬ ∀ e ∈ log s', P e := by
    intro s a s' hok hs hall
    obtain ⟨e, heq, hattests⟩ := hlog s a s' hs
    refine hok (hattests (hall e ?_))
    rw [heq]
    exact List.mem_append_right _ (List.mem_singleton.mpr rfl)
  have hkeep : ∀ s a s', (¬ ∀ e ∈ log s, P e) → step s a = some s' → ¬ ∀ e ∈ log s', P e := by
    intro s a s' hbad hs hall
    obtain ⟨e, heq, -⟩ := hlog s a s' hs
    refine hbad fun e' he' => hall e' ?_
    rw [heq]
    exact List.mem_append_left _ he'
  exact Meets.of_latch hset hkeep hr (Classical.not_not.mpr hend)

/-- `P` holds in every state of a run. -/
def Always (step : S → A → Option S) (P : S → Prop) : S → List A → Prop
  | s, [] => P s
  | s, a :: as =>
      P s ∧
        match step s a with
        | none => True
        | some s' => Always step P s' as

theorem Always.start {P : S → Prop} {s : S} {as : List A} (h : Always step P s as) : P s := by
  cases as with
  | nil => exact h
  | cons a as => exact h.1

/-- When a step keeps `P` exactly if it meets `ok`, wherever `I` holds as it always does, a run
keeps `P` exactly if its steps do. -/
theorem always_iff_meets_of_inv {I P : S → Prop}
    (hinv : ∀ s a s', I s → step s a = some s' → I s')
    (hexact : ∀ s a s', I s → P s → step s a = some s' → (P s' ↔ ok s a))
    {s t : S} {as : List A} (hI : I s) (h0 : P s) (hr : run step s as = some t) :
    Always step P s as ↔ Meets step ok s as := by
  induction as generalizing s with
  | nil => exact iff_of_true h0 trivial
  | cons a as ih =>
      obtain ⟨s', hs, hr'⟩ := run_cons_eq_some.mp hr
      have hI' : I s' := hinv s a s' hI hs
      rw [Always, Meets, hs]
      constructor
      · rintro ⟨-, hrest⟩
        have hP : P s' := hrest.start
        exact ⟨(hexact s a s' hI h0 hs).mp hP, (ih hI' hP hr').mp hrest⟩
      · rintro ⟨hok, hrest⟩
        have hP : P s' := (hexact s a s' hI h0 hs).mpr hok
        exact ⟨h0, (ih hI' hP hr').mpr hrest⟩

theorem always_iff_meets {P : S → Prop}
    (hexact : ∀ s a s', P s → step s a = some s' → (P s' ↔ ok s a))
    {s t : S} {as : List A} (h0 : P s) (hr : run step s as = some t) :
    Always step P s as ↔ Meets step ok s as :=
  always_iff_meets_of_inv (I := fun _ => True) (fun _ _ _ _ _ => trivial)
    (fun s a s' _ => hexact s a s') trivial h0 hr

/-! ### Executions that do not end -/

/-- A run that goes on for ever, and may pause. -/
def Execution (step : S → A → Option S) (σ : Nat → S) (α : Nat → Option A) : Prop :=
  ∀ n, (α n = none ∧ σ (n + 1) = σ n) ∨ ∃ a, α n = some a ∧ step (σ n) a = some (σ (n + 1))

namespace Execution

variable {σ : Nat → S} {α : Nat → Option A}

theorem invariant (h : Execution step σ α) {Inv : S → Prop}
    (hstep : ∀ s a s', Inv s → step s a = some s' → Inv s') (h0 : Inv (σ 0)) (n : Nat) :
    Inv (σ n) := by
  induction n with
  | zero => exact h0
  | succ n ih =>
      rcases h n with ⟨-, heq⟩ | ⟨a, -, hs⟩
      · rw [heq]
        exact ih
      · exact hstep _ _ _ ih hs

end Execution

end Transition
