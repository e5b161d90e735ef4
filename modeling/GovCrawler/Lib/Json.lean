/-
JSON values, and dictionaries inside dictionaries that are read and written along paths.

Programs keep their settings in such values.  They read one with
`d.get(k, {}).get(l, default)`, which finds nothing when a dictionary on the way is missing
and raises when something else is in its place, and they write one with
`d.setdefault(k, {})[l] = v`, which makes what is missing and raises in the same cases.
`read` and `update` are the two.  A path may lead to nothing, so both take and
`read` gives an `Option Value`; the `Option` around that is for what raises.

Two paths are apart when they part at some key.  What is written along one is not seen
along the other, and of many writes along paths that are apart each leaves what it wrote.
-/
import Mathlib.Data.Rat.Defs
import Mathlib.Data.List.Basic
import Mathlib.Tactic.Basic

namespace Json

/-- A floating-point number: its exact value, unless it has none. -/
inductive Double
  | finite (q : ℚ)
  | infinite (negative : Bool)
  | nan
  deriving DecidableEq, Repr

inductive Value
  | null
  | bool (b : Bool)
  | int (n : Int)
  | float (x : Double)
  | str (s : String)
  | list (xs : List Value)
  /-- In insertion order, each key once. -/
  | dict (d : List (String × Value))
  deriving Repr

abbrev Dict : Type := List (String × Value)

/-! ### Dictionaries -/

/-- `d[k] = v`. -/
def setItem (k : String) (v : Value) : Dict → Dict
  | [] => [(k, v)]
  | p :: d => if p.1 = k then (k, v) :: d else p :: setItem k v d

theorem lookup_cons (k l : String) (v : Value) (d : Dict) :
    List.lookup k ((l, v) :: d) = if l = k then some v else List.lookup k d := by
  rw [List.lookup_cons]
  by_cases h : l = k
  · subst h
    rw [beq_self_eq_true, if_pos rfl]
  · rw [beq_false_of_ne (Ne.symm h), if_neg h]

theorem lookup_setItem_self (k : String) (v : Value) (d : Dict) :
    (setItem k v d).lookup k = some v := by
  induction d with
  | nil => rw [setItem, lookup_cons, if_pos rfl]
  | cons p d ih =>
      unfold setItem
      by_cases h : p.1 = k
      · rw [if_pos h, lookup_cons, if_pos rfl]
      · rw [if_neg h, lookup_cons, if_neg h, ih]

theorem lookup_setItem_of_ne {k l : String} (h : k ≠ l) (v : Value) (d : Dict) :
    (setItem k v d).lookup l = d.lookup l := by
  induction d with
  | nil => rw [setItem, lookup_cons, if_neg h]
  | cons p d ih =>
      unfold setItem
      rw [lookup_cons l p.1 p.2 d]
      by_cases hp : p.1 = k
      · rw [if_pos hp, lookup_cons, if_neg h, if_neg fun hl => h (hp.symm.trans hl)]
      · rw [if_neg hp, lookup_cons, ih]

theorem setItem_eq_self {k : String} {v : Value} {d : Dict} (h : d.lookup k = some v) :
    setItem k v d = d := by
  induction d with
  | nil => cases h
  | cons p d ih =>
      rw [lookup_cons k p.1 p.2] at h
      unfold setItem
      by_cases hp : p.1 = k
      · rw [if_pos hp] at h ⊢
        rw [← hp, ← Option.some.inj h]
      · rw [if_neg hp] at h ⊢
        rw [ih h]

/-- `{**d, **e}`. -/
def merge (d e : Dict) : Dict :=
  (d.map fun p => (p.1, (e.lookup p.1).getD p.2)) ++ e.filter fun p => (d.lookup p.1).isNone

theorem lookup_append (k : String) (d e : Dict) :
    (d ++ e).lookup k = (d.lookup k).or (e.lookup k) := by
  induction d with
  | nil => rfl
  | cons p d ih =>
      rw [List.cons_append, lookup_cons k p.1 p.2, lookup_cons k p.1 p.2, ih]
      split <;> rfl

theorem lookup_merge (k : String) (d e : Dict) :
    (merge d e).lookup k = (e.lookup k).or (d.lookup k) := by
  have hold : List.lookup k (d.map fun p => (p.1, (e.lookup p.1).getD p.2)) =
      (d.lookup k).map fun v => (e.lookup k).getD v := by
    induction d with
    | nil => rfl
    | cons p d ih =>
        rw [List.map_cons, lookup_cons, lookup_cons k p.1 p.2, ih]
        by_cases hp : p.1 = k
        · rw [if_pos hp, if_pos hp, hp]
          rfl
        · rw [if_neg hp, if_neg hp]
  have hnew : (d.lookup k).isNone → ∀ es : Dict,
      List.lookup k (es.filter fun p => (d.lookup p.1).isNone) = es.lookup k := by
    intro hk es
    induction es with
    | nil => rfl
    | cons p es ih =>
        rw [lookup_cons k p.1 p.2, List.filter_cons]
        by_cases hp : p.1 = k
        · rw [if_pos (hp ▸ hk), lookup_cons, if_pos hp, if_pos hp]
        · rw [if_neg hp]
          split
          · rw [lookup_cons, if_neg hp, ih]
          · exact ih
  unfold merge
  rw [lookup_append, hold]
  cases hd : d.lookup k with
  | some v => cases e.lookup k <;> rfl
  | none =>
      rw [Option.map_none, Option.none_or, hnew (by rw [hd]; rfl), Option.or_none]

/-! ### Paths -/

/-- What is at the path: nothing when a dictionary on the way is missing, and `none` when
something on the way is no dictionary. -/
def read : List String → Option Value → Option (Option Value)
  | [], v => some v
  | _ :: _, none => some none
  | k :: ks, some (.dict d) => read ks (d.lookup k)
  | _ :: _, some _ => none

/-- Do to what is at the path as `f` says, and make the dictionaries on the way that are
missing. -/
def update (f : Option Value → Value) : List String → Option Value → Option Value
  | [], v => some (f v)
  | k :: ks, none => (update f ks none).map fun v => .dict [(k, v)]
  | k :: ks, some (.dict d) => (update f ks (d.lookup k)).map fun v => .dict (setItem k v d)
  | _ :: _, some _ => none

/-- The paths part at some key. -/
def apart : List String → List String → Bool
  | k :: ks, l :: ls => k ≠ l || apart ks ls
  | _, _ => false

@[simp] theorem read_nil (v : Option Value) : read [] v = some v := rfl

@[simp] theorem read_none (ks : List String) : read ks none = some none := by
  cases ks <;> rfl

@[simp] theorem read_dict (k : String) (ks : List String) (d : Dict) :
    read (k :: ks) (some (.dict d)) = read ks (d.lookup k) := rfl

/-- A path in two parts. -/
theorem read_append (ks ls : List String) (v : Option Value) :
    read (ks ++ ls) v = (read ks v).bind (read ls) := by
  induction ks generalizing v with
  | nil => rfl
  | cons k ks ih =>
      cases v with
      | none => rw [read_none, read_none, Option.bind_some, read_none]
      | some v =>
          cases v with
          | dict d => exact ih (d.lookup k)
          | _ => rfl

/-- What has something below it is a dictionary, if it is there. -/
theorem exists_container (ks : List String) (l : String) (ls : List String) {v : Option Value}
    (h : (read (ks ++ l :: ls) v).isSome) :
    ∃ o, read ks v = some o ∧ ∀ w, o = some w → ∃ d, w = .dict d := by
  rw [read_append] at h
  cases ho : read ks v with
  | none =>
      rw [ho] at h
      cases h
  | some o =>
      refine ⟨o, rfl, fun w hw => ?_⟩
      rw [ho, hw] at h
      cases w with
      | dict d => exact ⟨d, rfl⟩
      | _ => cases h

/-- A path that can be read can be written. -/
theorem update_isSome (f : Option Value → Value) (ks : List String) (v : Option Value) :
    (update f ks v).isSome = (read ks v).isSome := by
  induction ks generalizing v with
  | nil => rfl
  | cons k ks ih =>
      cases v with
      | none => rw [update, Option.isSome_map, ih, read_none, read_none]
      | some v =>
          cases v with
          | dict d => rw [update, Option.isSome_map, ih, read_dict]
          | _ => rfl

/-- What was written is read. -/
theorem read_update_self {f : Option Value → Value} {ks : List String} {v : Option Value}
    {v' : Value} (h : update f ks v = some v') :
    read ks (some v') = (read ks v).map fun old => some (f old) := by
  induction ks generalizing v v' with
  | nil =>
      obtain rfl : f v = v' := Option.some.inj h
      rfl
  | cons k ks ih =>
      cases v with
      | none =>
          obtain ⟨w, hw, rfl⟩ := Option.map_eq_some_iff.mp h
          rw [read_dict, lookup_cons, if_pos rfl, ih hw, read_none, read_none]
      | some v =>
          cases v with
          | dict d =>
              obtain ⟨w, hw, rfl⟩ := Option.map_eq_some_iff.mp h
              rw [read_dict, lookup_setItem_self, ih hw, read_dict]
          | _ => cases h

/-- What is above a written path is a dictionary. -/
theorem read_update_above {f : Option Value → Value} {ks : List String} {l : String}
    {ls : List String} {v : Option Value} {v' : Value} (h : update f (ks ++ l :: ls) v = some v') :
    ∃ d, read ks (some v') = some (some (.dict d)) := by
  induction ks generalizing v v' with
  | nil =>
      cases v with
      | none =>
          obtain ⟨w, -, rfl⟩ := Option.map_eq_some_iff.mp h
          exact ⟨_, rfl⟩
      | some v =>
          cases v with
          | dict d =>
              obtain ⟨w, -, rfl⟩ := Option.map_eq_some_iff.mp h
              exact ⟨_, rfl⟩
          | _ => cases h
  | cons k ks ih =>
      cases v with
      | none =>
          obtain ⟨w, hw, rfl⟩ := Option.map_eq_some_iff.mp h
          obtain ⟨d, hd⟩ := ih hw
          exact ⟨d, by rw [read_dict, lookup_cons, if_pos rfl, hd]⟩
      | some v =>
          cases v with
          | dict d =>
              obtain ⟨w, hw, rfl⟩ := Option.map_eq_some_iff.mp h
              obtain ⟨e, he⟩ := ih hw
              exact ⟨e, by rw [read_dict, lookup_setItem_self, he]⟩
          | _ => cases h

/-- A write of what is there changes nothing. -/
theorem update_eq_self {f : Option Value → Value} {ks : List String} {v w : Value}
    (hread : read ks (some v) = some (some w)) (hf : f (some w) = w) :
    update f ks (some v) = some v := by
  induction ks generalizing v with
  | nil =>
      obtain rfl : v = w := Option.some.inj (Option.some.inj hread)
      exact congrArg some hf
  | cons k ks ih =>
      cases v with
      | dict d =>
          rw [read_dict] at hread
          cases hv : d.lookup k with
          | none =>
              rw [hv, read_none] at hread
              cases hread
          | some u =>
              rw [hv] at hread
              rw [update, hv, ih hread, Option.map_some, setItem_eq_self hv]
      | _ => cases hread

/-- What is written along a path that is apart is not read. -/
theorem read_update_of_apart {f : Option Value → Value} {ks ls : List String}
    (hapart : apart ks ls = true) {v : Option Value} {v' : Value}
    (h : update f ks v = some v') : read ls (some v') = read ls v := by
  induction ks generalizing ls v v' with
  | nil => cases hapart
  | cons k ks ih =>
      cases ls with
      | nil => cases hapart
      | cons l ls =>
          have hstep : k ≠ l ∨ apart ks ls = true := by simpa [apart] using hapart
          have hrest : ∀ {d : Dict} {w : Value}, update f ks (d.lookup k) = some w →
              read ls ((setItem k w d).lookup l) = read ls (d.lookup l) := by
            intro d w hw
            by_cases hkl : k = l
            · subst hkl
              rw [lookup_setItem_self]
              exact ih (hstep.resolve_left fun hne => hne rfl) hw
            · rw [lookup_setItem_of_ne hkl]
          cases v with
          | none =>
              obtain ⟨w, hw, rfl⟩ := Option.map_eq_some_iff.mp h
              exact (hrest (d := []) hw).trans (read_none ls)
          | some v =>
              cases v with
              | dict d =>
                  obtain ⟨w, hw, rfl⟩ := Option.map_eq_some_iff.mp h
                  exact hrest hw
              | _ => cases h

/-- `….setdefault(k, {})` along the path. -/
def ensure (ks : List String) (v : Value) : Option Value :=
  update (fun old => old.getD (.dict [])) ks (some v)

/-- `….setdefault(k, {})[l] = new` along the path. -/
def write (ks : List String) (new v : Value) : Option Value := update (fun _ => new) ks (some v)

/-- What is inside a dictionary is there after a `setdefault` as it was. -/
theorem read_ensure_below {ks : List String} {l : String} {ls : List String} {v v' : Value}
    (h : ensure ks v = some v') :
    read (ks ++ l :: ls) (some v') = read (ks ++ l :: ls) (some v) := by
  have hself := read_update_self h
  rw [read_append, read_append, hself]
  cases read ks (some v) with
  | none => rfl
  | some old =>
      show read (l :: ls) (some (old.getD (.dict []))) = read (l :: ls) old
      cases old with
      | none => exact (read_none ls).trans (read_none (l :: ls)).symm
      | some w => rfl

/-! ### Many writes -/

/-- A statement that changes a value; the value to be written is `none` where computing it
raises. -/
inductive Edit
  | ensure (path : List String)
  | write (path : List String) (new : Option Value)
  deriving Repr

namespace Edit

def path : Edit → List String
  | ensure path => path
  | write path _ => path

def run : Edit → Value → Option Value
  | ensure path, v => Json.ensure path v
  | write path new, v => new.bind fun new => Json.write path new v

def isEnsure : Edit → Bool
  | ensure _ => true
  | write _ _ => false

/-- Nothing along the path shows whether the statement has run. -/
def leaves (path : List String) : Edit → Bool
  | ensure ks => apart ks path || ks.isPrefixOf path && ks.length < path.length
  | write ks _ => apart ks path

/-- The statement can run. -/
def Runs (v : Value) : Edit → Prop
  | ensure ks => (read ks (some v)).isSome
  | write ks new => new.isSome ∧ (read ks (some v)).isSome

/-- What the statement makes true is true. -/
def Done (v : Value) : Edit → Prop
  | ensure ks => ∃ w, read ks (some v) = some (some w)
  | write ks new => ∃ w, new = some w ∧ read ks (some v) = some (some w)

/-- `e` before `f`: `f` runs as it would alone, and what `e` has made true stays true. -/
def Before (e f : Edit) : Prop :=
  e.leaves f.path = true ∧
    (f.leaves e.path = true ∨
      e.isEnsure = true ∧ e.path.isPrefixOf f.path = true ∧ e.path.length < f.path.length)

instance (e f : Edit) : Decidable (Before e f) := inferInstanceAs (Decidable (_ ∧ _))

variable {e f : Edit} {v v' : Value}

theorem exists_of_properPrefix {ks ls : List String}
    (h : (ks.isPrefixOf ls && ks.length < ls.length) = true) : ∃ l rest, ls = ks ++ l :: rest := by
  rw [Bool.and_eq_true, List.isPrefixOf_iff_prefix, decide_eq_true_eq] at h
  obtain ⟨⟨rest, rfl⟩, hlen⟩ := h
  cases rest with
  | nil => simp at hlen
  | cons l rest => exact ⟨l, rest, rfl⟩

theorem apart_append {ks ls : List String} (h : apart ks ls = true) (ms : List String) :
    apart ks (ls ++ ms) = true := by
  induction ks generalizing ls with
  | nil => cases h
  | cons k ks ih =>
      cases ls with
      | nil => cases h
      | cons l ls =>
          have hstep : k ≠ l ∨ apart ks ls = true := by simpa [apart] using h
          show (decide (k ≠ l) || apart ks (ls ++ ms)) = true
          rcases hstep with hkl | hrest
          · rw [decide_eq_true hkl, Bool.true_or]
          · rw [ih hrest, Bool.or_true]

/-- Nothing under any key of a dictionary shows whether the statement has run. -/
theorem leaves_below {ks : List String}
    (h : apart e.path ks = true ∨ e.isEnsure = true ∧ e.path.isPrefixOf ks = true) (l : String) :
    e.leaves (ks ++ [l]) = true := by
  cases e with
  | write ls new => exact apart_append (h.resolve_right fun hr => Bool.false_ne_true hr.1) [l]
  | ensure ls =>
      refine (Bool.or_eq_true _ _).mpr ?_
      rcases h with hapart | ⟨-, hprefix⟩
      · exact Or.inl (apart_append hapart [l])
      · refine Or.inr ((Bool.and_eq_true _ _).mpr ⟨?_, decide_eq_true ?_⟩)
        · rw [List.isPrefixOf_iff_prefix] at hprefix ⊢
          exact hprefix.trans (List.prefix_append ks [l])
        · have hle := (List.isPrefixOf_iff_prefix.mp hprefix).length_le
          rw [List.length_append]
          exact Nat.lt_succ_of_le hle

theorem read_of_leaves {path : List String} (hleaves : e.leaves path = true)
    (h : e.run v = some v') : read path (some v') = read path (some v) := by
  cases e with
  | write ks new =>
      obtain ⟨new, -, h⟩ := Option.bind_eq_some_iff.mp h
      exact read_update_of_apart hleaves h
  | ensure ks =>
      rcases (Bool.or_eq_true _ _).mp hleaves with hapart | hbelow
      · exact read_update_of_apart hapart h
      · obtain ⟨l, rest, rfl⟩ := exists_of_properPrefix hbelow
        exact read_ensure_below h

theorem run_isSome : (e.run v).isSome ↔ e.Runs v := by
  cases e with
  | ensure ks =>
      show (update _ ks (some v)).isSome ↔ (read ks (some v)).isSome
      rw [update_isSome]
  | write ks new =>
      cases new with
      | none => exact ⟨fun h => (Bool.false_ne_true h).elim, fun h => h.1⟩
      | some new =>
          show (update _ ks (some v)).isSome ↔ _ ∧ (read ks (some v)).isSome
          rw [update_isSome]
          exact ⟨fun h => ⟨rfl, h⟩, fun h => h.2⟩

theorem done_of_run (h : e.run v = some v') : e.Done v' := by
  cases e with
  | ensure ks =>
      have hself := read_update_self h
      have hsome := (update_isSome _ ks (some v)).symm.trans (congrArg Option.isSome h)
      obtain ⟨old, hold⟩ := Option.isSome_iff_exists.mp hsome
      rw [hold] at hself
      exact ⟨old.getD (.dict []), hself⟩
  | write ks new =>
      obtain ⟨new, rfl, h⟩ := Option.bind_eq_some_iff.mp h
      have hself := read_update_self h
      have hsome := (update_isSome _ ks (some v)).symm.trans (congrArg Option.isSome h)
      obtain ⟨old, hold⟩ := Option.isSome_iff_exists.mp hsome
      rw [hold] at hself
      exact ⟨new, rfl, hself⟩

/-- A statement whose effect is there has none. -/
theorem run_eq_self (h : e.Done v) : e.run v = some v := by
  cases e with
  | ensure ks =>
      obtain ⟨w, hw⟩ := h
      exact update_eq_self hw rfl
  | write ks new =>
      obtain ⟨w, rfl, hw⟩ := h
      exact update_eq_self hw rfl

theorem runs_congr (h : read f.path (some v') = read f.path (some v)) : f.Runs v' ↔ f.Runs v := by
  cases f with
  | ensure ks =>
      show (read ks (some v')).isSome ↔ (read ks (some v)).isSome
      rw [show read ks (some v') = read ks (some v) from h]
  | write ks new =>
      show _ ∧ (read ks (some v')).isSome ↔ _ ∧ (read ks (some v)).isSome
      rw [show read ks (some v') = read ks (some v) from h]

theorem Done.congr (h : read e.path (some v') = read e.path (some v)) (hdone : e.Done v) :
    e.Done v' := by
  cases e with
  | ensure ks =>
      obtain ⟨w, hw⟩ := hdone
      exact ⟨w, h.trans hw⟩
  | write ks new =>
      obtain ⟨w, hnew, hw⟩ := hdone
      exact ⟨w, hnew, h.trans hw⟩

/-- A later statement runs as it would alone. -/
theorem Before.runs_iff (hef : Before e f) (h : e.run v = some v') : f.Runs v' ↔ f.Runs v :=
  runs_congr (read_of_leaves hef.1 h)

/-- A later statement does not undo an earlier one. -/
theorem Before.done (hef : Before e f) (h : f.run v = some v') (hdone : e.Done v) : e.Done v' := by
  rcases hef.2 with hleaves | ⟨hensure, habove, hlen⟩
  · exact hdone.congr (read_of_leaves hleaves h)
  · obtain ⟨l, rest, hpath⟩ := exists_of_properPrefix
      ((Bool.and_eq_true _ _).mpr ⟨habove, decide_eq_true hlen⟩)
    cases e with
    | write ks new => cases hensure
    | ensure ks =>
        have hdict : ∃ d, read ks (some v') = some (some (.dict d)) := by
          cases f with
          | ensure ls =>
              obtain rfl : ls = ks ++ l :: rest := hpath
              exact read_update_above h
          | write ls new =>
              obtain rfl : ls = ks ++ l :: rest := hpath
              obtain ⟨new, -, h⟩ := Option.bind_eq_some_iff.mp h
              exact read_update_above h
        obtain ⟨d, hd⟩ := hdict
        exact ⟨.dict d, hd⟩

end Edit

/-- One after another. -/
def editAll (edits : List Edit) (v : Value) : Option Value := edits.foldlM (fun v e => e.run v) v

theorem Edit.leaves_congr {e e' : Edit} (hpath : e'.path = e.path)
    (hkind : e'.isEnsure = e.isEnsure) (ks : List String) : e'.leaves ks = e.leaves ks := by
  cases e with
  | ensure ls =>
      cases e' with
      | ensure ls' =>
          obtain rfl : ls' = ls := hpath
          rfl
      | write ls' new => cases hkind
  | write ls new =>
      cases e' with
      | ensure ls' => cases hkind
      | write ls' new' =>
          obtain rfl : ls' = ls := hpath
          rfl

/-- The order of statements depends on their paths and kinds only. -/
theorem Edit.Before.congr {e e' f f' : Edit} (hef : Edit.Before e f) (hpath : e'.path = e.path)
    (hkind : e'.isEnsure = e.isEnsure) (hpath' : f'.path = f.path)
    (hkind' : f'.isEnsure = f.isEnsure) : Edit.Before e' f' := by
  unfold Edit.Before
  rw [Edit.leaves_congr hpath hkind, Edit.leaves_congr hpath' hkind', hpath, hkind, hpath']
  exact hef

section EditAll

open Edit

variable {edits : List Edit} {v v' : Value}

theorem editAll_cons (e : Edit) (edits : List Edit) (v : Value) :
    editAll (e :: edits) v = (e.run v).bind (editAll edits) := rfl

theorem editAll_append (edits more : List Edit) (v : Value) :
    editAll (edits ++ more) v = (editAll edits v).bind (editAll more) := by
  induction edits generalizing v with
  | nil => rfl
  | cons e edits ih =>
      rw [List.cons_append, editAll_cons, editAll_cons, Option.bind_assoc]
      exact congrArg _ (funext ih)

theorem read_editAll_of_leaves {path : List String} (hleaves : ∀ e ∈ edits, e.leaves path = true)
    (h : editAll edits v = some v') : read path (some v') = read path (some v) := by
  induction edits generalizing v with
  | nil =>
      obtain rfl : v = v' := Option.some.inj h
      rfl
  | cons e edits ih =>
      rw [editAll_cons] at h
      obtain ⟨w, hw, h⟩ := Option.bind_eq_some_iff.mp h
      rw [ih (fun f hf => hleaves f (List.mem_cons_of_mem _ hf)) h]
      exact read_of_leaves (hleaves e List.mem_cons_self) hw

/-- The statements run if each of them alone would. -/
theorem editAll_isSome (hbefore : edits.Pairwise Before) :
    (editAll edits v).isSome ↔ ∀ e ∈ edits, e.Runs v := by
  induction edits generalizing v with
  | nil => exact ⟨fun _ e he => (List.not_mem_nil he).elim, fun _ => rfl⟩
  | cons e edits ih =>
      obtain ⟨hfirst, hrest⟩ := List.pairwise_cons.mp hbefore
      rw [editAll_cons, List.forall_mem_cons, ← run_isSome]
      cases hw : e.run v with
      | none => exact ⟨fun h => (Bool.false_ne_true h).elim, fun h => (Bool.false_ne_true h.1).elim⟩
      | some w =>
          rw [Option.bind_some, ih hrest]
          refine ⟨fun h => ⟨rfl, fun f hf => ?_⟩, fun h f hf => ?_⟩
          · exact ((hfirst f hf).runs_iff hw).mp (h f hf)
          · exact ((hfirst f hf).runs_iff hw).mpr (h.2 f hf)

theorem done_of_editAll_of_done {e : Edit} (hbefore : ∀ f ∈ edits, Before e f)
    (h : editAll edits v = some v') (hdone : e.Done v) : e.Done v' := by
  induction edits generalizing v with
  | nil =>
      obtain rfl : v = v' := Option.some.inj h
      exact hdone
  | cons f edits ih =>
      rw [editAll_cons] at h
      obtain ⟨w, hw, h⟩ := Option.bind_eq_some_iff.mp h
      exact ih (fun g hg => hbefore g (List.mem_cons_of_mem _ hg)) h
        ((hbefore f List.mem_cons_self).done hw hdone)

/-- All that the statements make true is true in the end. -/
theorem done_of_editAll (hbefore : edits.Pairwise Before) (h : editAll edits v = some v') :
    ∀ e ∈ edits, e.Done v' := by
  induction edits generalizing v with
  | nil => exact fun e he => (List.not_mem_nil he).elim
  | cons e edits ih =>
      obtain ⟨hfirst, hrest⟩ := List.pairwise_cons.mp hbefore
      rw [editAll_cons] at h
      obtain ⟨w, hw, h⟩ := Option.bind_eq_some_iff.mp h
      exact List.forall_mem_cons.mpr
        ⟨done_of_editAll_of_done hfirst h (done_of_run hw), ih hrest h⟩

/-- The statements change nothing exactly if all that they make true is true already. -/
theorem editAll_eq_self_iff (hbefore : edits.Pairwise Before) :
    editAll edits v = some v ↔ ∀ e ∈ edits, e.Done v := by
  refine ⟨done_of_editAll hbefore, fun hdone => ?_⟩
  induction edits with
  | nil => rfl
  | cons e edits ih =>
      rw [editAll_cons, run_eq_self (hdone e List.mem_cons_self), Option.bind_some]
      exact ih (List.pairwise_cons.mp hbefore).2 fun f hf => hdone f (List.mem_cons_of_mem _ hf)

end EditAll

/-! ### Numbers and equality -/

/-- The number that a value is; `True` and `False` are numbers. -/
def Value.number : Value → Option Double
  | .bool b => some (.finite (if b then 1 else 0))
  | .int n => some (.finite n)
  | .float x => some x
  | _ => none

/-- The value, with a number in one form. -/
def Value.canon (v : Value) : Value :=
  match v.number with
  | some x => .float x
  | none => v

mutual

/-- `v == w`: numbers by what they are, dictionaries in any order. -/
def Value.same : Value → Value → Bool
  | .null, .null => true
  | .str s, .str t => s == t
  | .list xs, .list ys => sameList xs ys
  | .dict d, .dict e => d.length == e.length && sameItems d e
  | v, w =>
      match v.number, w.number with
      | some x, some y => x == y && x != .nan
      | _, _ => false

def sameList : List Value → List Value → Bool
  | [], [] => true
  | v :: vs, w :: ws => v.same w && sameList vs ws
  | _, _ => false

def sameItems : Dict → Dict → Bool
  | [], _ => true
  | (k, v) :: d, e =>
      (match e.lookup k with
        | some w => v.same w
        | none => false) && sameItems d e

end

/-- Equal values are the same number, if they are numbers. -/
theorem number_eq_of_same {v w : Value} (h : v.same w = true) : v.number = w.number := by
  unfold Value.same at h
  split at h
  · rfl
  · rfl
  · rfl
  · rfl
  · split at h
    · rename_i hx hy
      rw [Bool.and_eq_true, beq_iff_eq] at h
      rw [hx, hy, h.1]
    · cases h

/-- What one dictionary has, an equal one has. -/
theorem exists_same_of_sameItems {d e : Dict} (h : sameItems d e = true) {k : String} {v : Value}
    (hv : d.lookup k = some v) : ∃ w, e.lookup k = some w ∧ v.same w = true := by
  induction d with
  | nil => cases hv
  | cons p d ih =>
      unfold sameItems at h
      rw [Bool.and_eq_true] at h
      rw [lookup_cons k p.1 p.2 d] at hv
      by_cases hp : p.1 = k
      · rw [if_pos hp] at hv
        have hfirst := h.1
        rw [hp] at hfirst
        cases hw : e.lookup k with
        | none => simp [hw] at hfirst
        | some w =>
            rw [hw] at hfirst
            exact ⟨w, rfl, Option.some.inj hv ▸ hfirst⟩
      · rw [if_neg hp] at hv
        exact ih h.2 hv

/-! ### Merging what is inside -/

mutual

/-- What comes of `v` under `w`: dictionaries are merged key by key, and anything else of `w`
wins. -/
def deepMerge : Value → Value → Value
  | .dict b, .dict o => .dict (deepMergeItems o b ++ o.filter fun p => (b.lookup p.1).isNone)
  | _, w => w

def deepMergeItems (o : Dict) : Dict → Dict
  | [] => []
  | (k, v) :: b => (k, ((o.lookup k).map (deepMerge v)).getD v) :: deepMergeItems o b

end

theorem deepMerge_of_not_dict {b : Value} (h : ∀ d, b ≠ .dict d) (w : Value) :
    deepMerge b w = w := by
  rw [deepMerge]
  intro d _ hb
  exact absurd hb (h d)

theorem lookup_deepMergeItems (o b : Dict) (k : String) :
    (deepMergeItems o b).lookup k =
      (b.lookup k).map fun v => ((o.lookup k).map (deepMerge v)).getD v := by
  induction b with
  | nil => rfl
  | cons p b ih =>
      rw [deepMergeItems, lookup_cons, lookup_cons k p.1 p.2, ih]
      by_cases hp : p.1 = k
      · rw [if_pos hp, if_pos hp, hp]
        rfl
      · rw [if_neg hp, if_neg hp]

theorem lookup_filter_isNone (b : Dict) {k : String} (h : b.lookup k = none) (o : Dict) :
    List.lookup k (o.filter fun p => (b.lookup p.1).isNone) = o.lookup k := by
  induction o with
  | nil => rfl
  | cons p o ih =>
      rw [lookup_cons k p.1 p.2, List.filter_cons]
      by_cases hp : p.1 = k
      · rw [if_pos (by rw [hp, h]; rfl), lookup_cons, if_pos hp, if_pos hp]
      · rw [if_neg hp]
        split
        · rw [lookup_cons, if_neg hp, ih]
        · exact ih

/-- **What the upper value has along a path, the merged one has**, unless both are dictionaries
there. -/
theorem read_deepMerge {ks : List String} {b o v : Value}
    (hread : read ks (some o) = some (some v))
    (hbase : ∀ d, read ks (some b) ≠ some (some (.dict d))) :
    read ks (some (deepMerge b o)) = some (some v) := by
  induction ks generalizing b o with
  | nil =>
      obtain rfl : o = v := Option.some.inj (Option.some.inj hread)
      rw [deepMerge_of_not_dict fun d hd => hbase d (congrArg (some ∘ some) hd)]
      exact hread
  | cons k ks ih =>
      cases o with
      | dict o =>
          by_cases hdict : ∃ d, b = .dict d
          · obtain ⟨b, rfl⟩ := hdict
            rw [deepMerge, read_dict, lookup_append, lookup_deepMergeItems]
            rw [read_dict] at hread
            cases ho : o.lookup k with
            | none =>
                rw [ho, read_none] at hread
                cases hread
            | some w =>
                rw [ho] at hread
                cases hb : b.lookup k with
                | none =>
                    rw [Option.map_none, Option.none_or, lookup_filter_isNone b hb, ho]
                    exact hread
                | some u =>
                    rw [Option.map_some, Option.some_or, Option.map_some, Option.getD_some]
                    refine ih hread fun d hd => hbase d ?_
                    rw [read_dict, hb]
                    exact hd
          · rw [deepMerge_of_not_dict fun d hd => hdict ⟨d, hd⟩]
            exact hread
      | _ => cases hread

/-- **What the merged value has along a path, one of the two has**, unless the lower one has a
dictionary there. -/
theorem of_read_deepMerge {ks : List String} {b o v : Value}
    (hread : read ks (some (deepMerge b o)) = some (some v))
    (hbase : ∀ d, read ks (some b) ≠ some (some (.dict d))) :
    read ks (some o) = some (some v) ∨ read ks (some b) = some (some v) := by
  induction ks generalizing b o with
  | nil =>
      rw [deepMerge_of_not_dict fun d hd => hbase d (congrArg (some ∘ some) hd)] at hread
      exact Or.inl hread
  | cons k ks ih =>
      by_cases hdict : ∃ c d, b = .dict c ∧ o = .dict d
      · obtain ⟨b, o, rfl, rfl⟩ := hdict
        rw [deepMerge, read_dict, lookup_append, lookup_deepMergeItems] at hread
        rw [read_dict, read_dict]
        cases hb : b.lookup k with
        | none =>
            rw [hb, Option.map_none, Option.none_or, lookup_filter_isNone b hb] at hread
            exact Or.inl hread
        | some u =>
            rw [hb, Option.map_some, Option.some_or] at hread
            cases ho : o.lookup k with
            | none =>
                rw [ho] at hread
                exact Or.inr hread
            | some w =>
                rw [ho, Option.map_some, Option.getD_some] at hread
                refine ih hread fun d hd => hbase d ?_
                rw [read_dict, hb]
                exact hd
      · rw [show deepMerge b o = o by
          rw [deepMerge]
          intro c d hb ho
          exact hdict ⟨c, d, hb, ho⟩] at hread
        exact Or.inl hread

end Json
