/-
Copying rows into a table that numbers them anew, and setting columns of the copies.

A `Copier` looks at a row and at the table, and leaves the row out, says which row of the table
stands for it, or inserts a copy, which the table may refuse.  `transfer` goes through the rows
and notes the number of what stands for each.  When it has gone through all (`Transferred`),
every row that was there is still there, every row noted is in the table as it was inserted,
and no row has been passed over.  Inserted copies have numbers of their own
(`transfer_injective`), and where all rows are inserted these are the next ones in order
(`transfer_numbers`).

`assign` sets a column of rows given by their numbers.
-/
import GovCrawler.Lib.Table

namespace Renumbering

open Relational Keyed

/-- What a copier does with a row. -/
inductive Verdict (B : Type*)
  | leave
  /-- The row with this number stands for it. -/
  | stands (n : Nat)
  | insert (values : B)

/-- The table, and the number of what stands for each row that has been copied. -/
structure Transfer (A R : Type*) [Keyed R] where
  table : Table R
  copied : List (A × Nat)

structure Copier (A B R ε : Type*) [Keyed R] where
  verdict : Table R → A → Verdict B
  make : B → Nat → R
  key_make : ∀ b n, key (make b n) = n
  accepts : Table R → B → Bool
  refusal : ε

variable {A B R ε : Type*} [Keyed R]

namespace Copier

def copyRow (c : Copier A B R ε) (s : Transfer A R) (a : A) : Except ε (Transfer A R) :=
  match c.verdict s.table a with
  | .leave => .ok s
  | .stands n => .ok ⟨s.table, s.copied ++ [(a, n)]⟩
  | .insert b =>
      if c.accepts s.table b then
        .ok ⟨s.table.insertNew (c.make b) (c.key_make b), s.copied ++ [(a, s.table.nextKey)]⟩
      else .error c.refusal

def copyRows (c : Copier A B R ε) : List A → Transfer A R → Except ε (Transfer A R)
  | [], s => .ok s
  | a :: as, s =>
      match c.copyRow s a with
      | .ok s' => c.copyRows as s'
      | .error e => .error e

def transfer (c : Copier A B R ε) (t : Table R) (rows : List A) : Except ε (Transfer A R) :=
  c.copyRows rows ⟨t, []⟩

variable {c : Copier A B R ε} {t : Table R} {rows : List A} {s s' : Transfer A R} {a : A}

/-- A row is left out, represented or inserted. -/
theorem copyRow_cases (h : c.copyRow s a = .ok s') :
    (c.verdict s.table a = .leave ∧ s' = s) ∨
      (∃ n, c.verdict s.table a = .stands n ∧ s' = ⟨s.table, s.copied ++ [(a, n)]⟩) ∨
      ∃ b, c.verdict s.table a = .insert b ∧
        s' = ⟨s.table.insertNew (c.make b) (c.key_make b), s.copied ++ [(a, s.table.nextKey)]⟩ := by
  unfold copyRow at h
  cases hv : c.verdict s.table a with
  | leave =>
      rw [hv] at h
      exact Or.inl ⟨rfl, (Except.ok.inj h).symm⟩
  | stands n =>
      rw [hv] at h
      exact Or.inr (Or.inl ⟨n, rfl, (Except.ok.inj h).symm⟩)
  | insert b =>
      rw [hv] at h
      dsimp only at h
      split at h
      · exact Or.inr (Or.inr ⟨b, rfl, (Except.ok.inj h).symm⟩)
      · cases h

theorem copyRows_invariant {I : List A → Transfer A R → Prop}
    (hstep : ∀ done s a s', a ∈ rows → I done s → c.copyRow s a = .ok s' → I (done ++ [a]) s')
    {done todo : List A} (htodo : todo ⊆ rows) (hI : I done s) (h : c.copyRows todo s = .ok s') :
    I (done ++ todo) s' := by
  induction todo generalizing done s with
  | nil =>
      obtain rfl := Except.ok.inj h
      rwa [List.append_nil]
  | cons a todo ih =>
      rw [copyRows] at h
      cases hrow : c.copyRow s a with
      | error e =>
          rw [hrow] at h
          cases h
      | ok s₁ =>
          rw [hrow] at h
          have hnext := hstep done s a s₁ (htodo List.mem_cons_self) hI hrow
          have hrest := ih (fun x hx => htodo (List.mem_cons_of_mem a hx)) hnext h
          rwa [List.append_assoc] at hrest

/-- What one row preserves, all of them do. -/
theorem transfer_invariant {I : List A → Transfer A R → Prop}
    (hstep : ∀ done s a s', a ∈ rows → I done s → c.copyRow s a = .ok s' → I (done ++ [a]) s')
    (hI : I [] ⟨t, []⟩) (h : c.transfer t rows = .ok s) : I rows s :=
  copyRows_invariant hstep (fun _ ha => ha) hI h

/-! ### What has been copied -/

/-- Every row of `t` is a row of `t'`. -/
def Retained (t t' : Table R) : Prop := ∀ k r, t.get? k = some r → t'.get? k = some r

theorem Retained.refl (t : Table R) : Retained t t := fun _ _ h => h

theorem Retained.trans {t t' t'' : Table R} (h : Retained t t') (h' : Retained t' t'') :
    Retained t t'' := fun k r hk => h' k r (h k r hk)

theorem retained_insertNew (t : Table R) (mk : Nat → R) (hmk : ∀ n, key (mk n) = n) :
    Retained t (t.insertNew mk hmk) := by
  intro k r hk
  rw [Table.get?_insertNew, if_neg (Nat.ne_of_lt (Table.lt_nextKey_of_get? hk)), hk]

/-- What stands for a row: one that a verdict has named, or its copy. -/
def Represents (c : Copier A B R ε) (t : Table R) (a : A) (n : Nat) : Prop :=
  ∃ t', Retained t' t ∧ (c.verdict t' a = .stands n ∨
    ∃ b, c.verdict t' a = .insert b ∧ t.get? n = some (c.make b n))

theorem Represents.mono {t t' : Table R} (h : Retained t t') {n : Nat} (hr : c.Represents t a n) :
    c.Represents t' a n := by
  obtain ⟨t₀, hext, hverdict⟩ := hr
  refine ⟨t₀, hext.trans h, hverdict.imp id ?_⟩
  rintro ⟨b, hb, hget⟩
  exact ⟨b, hb, h n _ hget⟩

structure Transferred (c : Copier A B R ε) (t : Table R) (rows : List A) (s : Transfer A R) :
    Prop where
  old : Retained t s.table
  sound : ∀ p ∈ s.copied, p.1 ∈ rows ∧ c.Represents s.table p.1 p.2
  complete : ∀ a ∈ rows, (∀ t', c.verdict t' a ≠ .leave) → ∃ n, (a, n) ∈ s.copied

private theorem transferred_step {done : List A} (hI : Transferred c t done s)
    (h : c.copyRow s a = .ok s') : Transferred c t (done ++ [a]) s' := by
  have hmem : ∀ x ∈ done, x ∈ done ++ [a] := fun x hx => List.mem_append_left _ hx
  have hself : a ∈ done ++ [a] := List.mem_append_right _ (List.mem_singleton.mpr rfl)
  -- what every step has in common: the table grows, and the row is noted
  have hnoted : ∀ (table : Table R) (n : Nat), Retained s.table table → c.Represents table a n →
      Transferred c t (done ++ [a]) ⟨table, s.copied ++ [(a, n)]⟩ := by
    intro table n hext hrep
    refine ⟨hI.old.trans hext, ?_, ?_⟩
    · intro p hp
      rcases List.mem_append.mp hp with hold | hnew
      · exact ⟨hmem _ (hI.sound p hold).1, (hI.sound p hold).2.mono hext⟩
      · rw [List.mem_singleton.mp hnew]
        exact ⟨hself, hrep⟩
    · intro x hx hkept
      rcases List.mem_append.mp hx with hold | hnew
      · obtain ⟨m, hm⟩ := hI.complete x hold hkept
        exact ⟨m, List.mem_append_left _ hm⟩
      · rw [List.mem_singleton.mp hnew]
        exact ⟨n, List.mem_append_right _ (List.mem_singleton.mpr rfl)⟩
  rcases copyRow_cases h with ⟨hleave, rfl⟩ | ⟨n, hstands, rfl⟩ | ⟨b, hinsert, rfl⟩
  · refine ⟨hI.old, fun p hp => ⟨hmem _ (hI.sound p hp).1, (hI.sound p hp).2⟩, ?_⟩
    intro x hx hkept
    rcases List.mem_append.mp hx with hold | hnew
    · exact hI.complete x hold hkept
    · rw [List.mem_singleton.mp hnew] at hkept
      exact absurd hleave (hkept _)
  · exact hnoted _ n (Retained.refl _) ⟨_, Retained.refl _, Or.inl hstands⟩
  · have hext := retained_insertNew s.table (c.make b) (c.key_make b)
    refine hnoted _ _ hext ⟨_, hext, Or.inr ⟨b, hinsert, ?_⟩⟩
    rw [Table.get?_insertNew, if_pos rfl]

theorem transferred (h : c.transfer t rows = .ok s) : Transferred c t rows s :=
  transfer_invariant (I := Transferred c t) (fun _ _ _ _ _ hI hrow => transferred_step hI hrow)
    ⟨Retained.refl t, fun _ hp => absurd hp List.not_mem_nil, fun _ ha => absurd ha List.not_mem_nil⟩
    h

/-! ### Their numbers -/

/-- No two copies have the same number. -/
theorem transfer_injective (hstands : ∀ t' a n, c.verdict t' a ≠ .stands n)
    (h : c.transfer t rows = .ok s) {p q : A × Nat} (hp : p ∈ s.copied) (hq : q ∈ s.copied)
    (heq : p.2 = q.2) : p = q := by
  have hI : (∀ p ∈ s.copied, p.2 < s.table.nextKey) ∧
      ∀ p ∈ s.copied, ∀ q ∈ s.copied, p.2 = q.2 → p = q := by
    refine transfer_invariant (I := fun _ s => (∀ p ∈ s.copied, p.2 < s.table.nextKey) ∧
      ∀ p ∈ s.copied, ∀ q ∈ s.copied, p.2 = q.2 → p = q) ?_
      ⟨fun _ hp => absurd hp List.not_mem_nil, fun _ hp => absurd hp List.not_mem_nil⟩ h
    rintro done s a s' - ⟨hbound, hinj⟩ hrow
    rcases copyRow_cases hrow with ⟨-, rfl⟩ | ⟨n, hverdict, -⟩ | ⟨b, -, rfl⟩
    · exact ⟨hbound, hinj⟩
    · exact absurd hverdict (hstands _ _ _)
    · -- the new number is above all others
      refine ⟨?_, ?_⟩
      · intro p hp
        rcases List.mem_append.mp hp with hold | hone
        · exact Nat.lt_succ_of_lt (hbound p hold)
        · rw [List.mem_singleton.mp hone]
          exact Nat.lt_succ_self _
      · intro p hp q hq heq
        rcases List.mem_append.mp hp with hp | hp <;> rcases List.mem_append.mp hq with hq | hq
        · exact hinj p hp q hq heq
        · have hlt := hbound p hp
          rw [heq, List.mem_singleton.mp hq] at hlt
          exact absurd hlt (Nat.lt_irrefl _)
        · have hlt := hbound q hq
          rw [← heq, List.mem_singleton.mp hp] at hlt
          exact absurd hlt (Nat.lt_irrefl _)
        · rw [List.mem_singleton.mp hp, List.mem_singleton.mp hq]
  exact hI.2 p hp q hq heq

/-- Where every row is inserted, the copies get the next numbers in order. -/
theorem transfer_numbers (hinsert : ∀ t' a, ∃ b, c.verdict t' a = .insert b)
    (h : c.transfer t rows = .ok s) : s.copied = rows.zipIdx t.nextKey := by
  have hI : s.copied = rows.zipIdx t.nextKey ∧ s.table.nextKey = t.nextKey + rows.length := by
    refine transfer_invariant (I := fun done s => s.copied = done.zipIdx t.nextKey ∧
      s.table.nextKey = t.nextKey + done.length) ?_ ⟨rfl, rfl⟩ h
    rintro done s a s' - ⟨hcopied, hkey⟩ hrow
    obtain ⟨b, hb⟩ := hinsert s.table a
    rcases copyRow_cases hrow with ⟨hv, -⟩ | ⟨n, hv, -⟩ | ⟨b', -, rfl⟩
    · rw [hb] at hv
      cases hv
    · rw [hb] at hv
      cases hv
    · refine ⟨?_, ?_⟩
      · rw [List.zipIdx_append, ← hcopied, hkey]
        rfl
      · rw [Table.nextKey_insertNew, hkey, List.length_append, List.length_singleton, Nat.add_assoc]
  exact hI.1

end Copier

/-! ### Columns that are set afterwards -/

section Assign

variable {V : Type*} (f : V → R → R) (hf : ∀ v r, key (f v r) = key r) (accepts : Table R → R → Bool)
  (refusal : ε)

/-- `UPDATE … WHERE id = k`, for every `(k, v)`.  The table may refuse the row as it would be. -/
def assign : List (Nat × V) → Table R → Except ε (Table R)
  | [], t => .ok t
  | (k, v) :: rest, t =>
      if ((t.get? k).map fun r => accepts t (f v r)).getD true then
        assign rest (t.updateWhere (fun r => key r == k) (f v) (hf v))
      else .error refusal

variable {f hf accepts refusal} {t t' : Table R} {l : List (Nat × V)} {k : Nat}

theorem assign_cons {k : Nat} {v : V} (h : assign f hf accepts refusal ((k, v) :: l) t = .ok t') :
    assign f hf accepts refusal l (t.updateWhere (fun r => key r == k) (f v) (hf v)) = .ok t' := by
  rw [assign] at h
  split at h
  · exact h
  · cases h

theorem get?_assign_of_not_mem (h : assign f hf accepts refusal l t = .ok t')
    (hk : k ∉ l.map Prod.fst) : t'.get? k = t.get? k := by
  induction l generalizing t with
  | nil =>
      obtain rfl := Except.ok.inj h
      rfl
  | cons p l ih =>
      rw [List.map_cons, List.mem_cons, not_or] at hk
      rw [ih (assign_cons h) hk.2, Table.get?_updateWhere_of_ne t (f p.2) (hf p.2) (Ne.symm hk.1)]

theorem get?_assign_of_mem (h : assign f hf accepts refusal l t = .ok t')
    (hnodup : (l.map Prod.fst).Nodup) {v : V} (hk : (k, v) ∈ l) :
    t'.get? k = (t.get? k).map (f v) := by
  induction l generalizing t with
  | nil => exact absurd hk List.not_mem_nil
  | cons p l ih =>
      rw [List.map_cons, List.nodup_cons] at hnodup
      rcases List.mem_cons.mp hk with rfl | hmem
      · rw [get?_assign_of_not_mem (assign_cons h) hnodup.1, Table.get?_updateWhere_self]
      · have hne : p.1 ≠ k := fun heq => hnodup.1 (heq ▸ List.mem_map_of_mem hmem)
        rw [ih (assign_cons h) hnodup.2 hmem, Table.get?_updateWhere_of_ne t (f p.2) (hf p.2) hne]

end Assign

end Renumbering
