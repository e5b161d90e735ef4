/-
What each step of the migration to Postgres does with the rows of its table.

A step copies rows one by one, so for each row that it has copied there is a row of the target,
whose columns are those of the row but for the ones that the step changes.  `Remapped` is what
becomes of a column that is changed to a new number: `None` stays `None`, what has a new number
gets it, and what has none is set to `NULL`, if the step says that it may be.
-/
import GovCrawler.Migration.SqliteToPg

namespace GovCrawler

open Relational Keyed Phases Renumbering Renumbering.Copier

theorem Record.cell_id (r : Record) : r.cell "id" = .int r.id := rfl

/-! ### Old and new numbers -/

theorem lookup_idMap {copied : List (Record × Nat)} {v : Datum} {n : Nat}
    (h : (idMap copied).lookup v = some n) : ∃ p ∈ copied, p.1.cell "id" = v ∧ p.2 = n := by
  induction copied with
  | nil => cases h
  | cons p copied ih =>
      rw [idMap, List.map_cons, List.lookup_cons] at h
      by_cases hv : v = .int p.1.id
      · rw [beq_iff_eq.mpr hv] at h
        exact ⟨p, List.mem_cons_self, hv.symm, Option.some.inj h⟩
      · rw [beq_false_of_ne hv] at h
        obtain ⟨q, hq, heq⟩ := ih h
        exact ⟨q, List.mem_cons_of_mem p hq, heq⟩

theorem lookup_idMap_eq_none {copied : List (Record × Nat)} {v : Datum}
    (h : (idMap copied).lookup v = none) : ∀ p ∈ copied, p.1.cell "id" ≠ v := by
  induction copied with
  | nil => exact fun p hp => absurd hp List.not_mem_nil
  | cons p copied ih =>
      rw [idMap, List.map_cons, List.lookup_cons] at h
      by_cases hv : v = .int p.1.id
      · rw [beq_iff_eq.mpr hv] at h
        cases h
      · rw [beq_false_of_ne hv] at h
        intro q hq
        rcases List.mem_cons.mp hq with rfl | hmem
        · exact fun heq => hv heq.symm
        · exact ih h q hmem

/-- What has been copied has a new number. -/
theorem lookup_idMap_of_mem {copied : List (Record × Nat)} {p : Record × Nat} (hp : p ∈ copied) :
    ∃ n, (idMap copied).lookup (p.1.cell "id") = some n := by
  cases h : (idMap copied).lookup (p.1.cell "id") with
  | none => exact absurd rfl (lookup_idMap_eq_none h p hp)
  | some n => exact ⟨n, rfl⟩

/-- What becomes of a column. -/
inductive Remapped (ids : IdMap) (soft : Bool) (old new : Datum) : Prop
  | null (hold : old = .null) (hnew : new = .null)
  | image (n : Nat) (hold : ids.lookup old = some n) (hnew : new = .int n)
  | unmapped (hsoft : soft = true) (hold : ids.lookup old = none) (hnew : new = .null)

theorem mapped_cases (ids : IdMap) (old : Datum) :
    (old = .null ∧ mapped ids old = none) ∨ (∃ n, ids.lookup old = some n ∧
      mapped ids old = some (.int n)) ∨ (ids.lookup old = none ∧ mapped ids old = none) := by
  unfold mapped
  by_cases hnull : old = .null
  · exact Or.inl ⟨hnull, if_pos hnull⟩
  · rw [if_neg hnull]
    cases h : ids.lookup old with
    | none => exact Or.inr (Or.inr ⟨rfl, rfl⟩)
    | some n => exact Or.inr (Or.inl ⟨n, rfl, rfl⟩)

theorem remapped_mapped (ids : IdMap) (old : Datum) :
    Remapped ids true old ((mapped ids old).getD .null) := by
  rcases mapped_cases ids old with ⟨hnull, hmapped⟩ | ⟨n, hold, hmapped⟩ | ⟨hold, hmapped⟩
  · exact .null hnull (by rw [hmapped]; rfl)
  · exact .image n hold (by rw [hmapped]; rfl)
  · exact .unmapped rfl hold (by rw [hmapped]; rfl)

/-! ### `copy_table` -/

/-- The row is skipped, or its columns in `fk_map` are remapped and the others are as they were. -/
theorem remap_spec {idMaps : List (TableName × IdMap)} {softFk : List String}
    {fkMap : List (String × TableName)} (hnodup : (fkMap.map Prod.fst).Nodup) {values values' : Row}
    (h : remap idMaps softFk fkMap values = some values') :
    (∀ col ∉ fkMap.map Prod.fst, values' col = values col) ∧
      ∀ c ∈ fkMap, Remapped ((idMaps.lookup c.2).getD []) (decide (c.1 ∈ softFk)) (values c.1)
        (values' c.1) := by
  induction fkMap generalizing values with
  | nil =>
      obtain rfl := Option.some.inj h
      exact ⟨fun _ _ => rfl, fun _ hc => absurd hc List.not_mem_nil⟩
  | cons c rest ih =>
      rw [List.map_cons, List.nodup_cons] at hnodup
      -- the rest of the loop sees the first column as this step has left it
      have hrest : ∀ new, remap idMaps softFk rest (Function.update values c.1 new) = some values' →
          Remapped ((idMaps.lookup c.2).getD []) (decide (c.1 ∈ softFk)) (values c.1) new →
          (∀ col ∉ (c :: rest).map Prod.fst, values' col = values col) ∧
            ∀ d ∈ c :: rest, Remapped ((idMaps.lookup d.2).getD []) (decide (d.1 ∈ softFk))
              (values d.1) (values' d.1) := by
        intro new hnew hfirst
        obtain ⟨hsame, hremapped⟩ := ih hnodup.2 hnew
        refine ⟨fun col hcol => ?_, fun d hd => ?_⟩
        · rw [List.map_cons, List.mem_cons, not_or] at hcol
          rw [hsame col hcol.2, Function.update_of_ne hcol.1]
        · rcases List.mem_cons.mp hd with rfl | hmem
          · rw [hsame _ hnodup.1, Function.update_self]
            exact hfirst
          · have hne : d.1 ≠ c.1 := fun heq => hnodup.1 (heq ▸ List.mem_map_of_mem hmem)
            have hd := hremapped d hmem
            rwa [Function.update_of_ne hne] at hd
      rw [remap] at h
      split at h
      · rename_i hnull
        refine hrest (values c.1) ?_ (.null hnull hnull)
        rwa [Function.update_eq_self]
      · split at h
        · rename_i n hn
          exact hrest _ h (.image n hn rfl)
        · rename_i hn
          split at h
          · rename_i hsoft
            exact hrest _ h (.unmapped (decide_eq_true hsoft) hn rfl)
          · cases h

section Inserts

variable {env : MigrationEnv} {store : Transfers} {table : TableName} {A : Type}
  {verdict : Table Record → A → Verdict Row} {t : Table Record} {rows : List A}
  {s : Transfer A Record}

/-- What stands for a row that has been copied. -/
theorem represents_inserts (h : (inserts env store table verdict).transfer t rows = .ok s)
    {p : A × Nat} (hp : p ∈ s.copied) : p.1 ∈ rows ∧ ∃ t', Retained t' s.table ∧
      (verdict t' p.1 = .stands p.2 ∨
        ∃ values, verdict t' p.1 = .insert values ∧ s.table.get? p.2 = some ⟨p.2, values⟩) :=
  (transferred h).sound p hp

end Inserts

variable {env : MigrationEnv} {src : SourceDb} {store : Transfers} {source : Table Record}
  {s : Transfer Record Record}

theorem CopyCall.verdict_ne_stands (call : CopyCall) (idMaps : List (TableName × IdMap))
    (row : Record) (n : Nat) : call.verdict idMaps row ≠ .stands n := by
  unfold CopyCall.verdict
  split <;> intro h <;> cases h

theorem copyTable_spec {call : CopyCall} (h : copyTable env call store source = .ok s)
    {p : Record × Nat} (hp : p ∈ s.copied) : p.1 ∈ source.rows ∧ ∃ values,
      remap (call.idMaps.map fun table => (table, idMap (store table).copied)) call.softFk call.fkMap
        p.1.values = some values ∧ s.table.get? p.2 = some ⟨p.2, values⟩ := by
  obtain ⟨hrow, t', -, hstands | ⟨values, hinsert, hget⟩⟩ := represents_inserts h hp
  · exact absurd hstands (call.verdict_ne_stands _ _ _)
  · refine ⟨hrow, values, ?_, hget⟩
    unfold CopyCall.verdict at hinsert
    split at hinsert
    · rename_i values' hremap
      rw [hremap, Verdict.insert.inj hinsert]
    · cases hinsert

theorem copyTable_injective {call : CopyCall} (h : copyTable env call store source = .ok s)
    {p q : Record × Nat} (hp : p ∈ s.copied) (hq : q ∈ s.copied) (heq : p.2 = q.2) : p = q :=
  transfer_injective (fun _ row n => call.verdict_ne_stands _ row n) h hp hq heq

/-- Without references no row is skipped. -/
theorem copyTable_numbers {call : CopyCall} (hfk : call.fkMap = [])
    (h : copyTable env call store source = .ok s) :
    s.copied = source.rows.zipIdx (store call.table).table.nextKey := by
  refine transfer_numbers (fun _ row => ⟨row.values, ?_⟩) h
  show call.verdict _ row = _
  unfold CopyCall.verdict
  rw [hfk]
  rfl

/-! ### Natural keys -/

theorem matchByKey_spec {table : TableName} {keyCol : String}
    (h : matchByKey env table keyCol store source = .ok s) {p : Record × Nat} (hp : p ∈ s.copied) :
    p.1 ∈ source.rows ∧ ∃ r, s.table.get? p.2 = some r ∧ r.values keyCol = p.1.values keyCol := by
  obtain ⟨hrow, t', -, hverdict⟩ := represents_inserts h hp
  refine ⟨hrow, ?_⟩
  split at hverdict
  · rename_i r hfound
    obtain ⟨hkey, hget⟩ := Table.first?_spec hfound
    rcases hverdict with hstands | ⟨values, hinsert, -⟩
    · rw [← Verdict.stands.inj hstands]
      exact ⟨r, (transferred h).old r.id r hget, eq_of_beq hkey⟩
    · cases hinsert
  · rcases hverdict with hstands | ⟨values, hinsert, hget⟩
    · cases hstands
    · rw [← Verdict.insert.inj hinsert] at hget
      exact ⟨_, hget, rfl⟩

theorem matchByKey_complete {table : TableName} {keyCol : String}
    (h : matchByKey env table keyCol store source = .ok s) {row : Record} (hrow : row ∈ source.rows) :
    ∃ n, (row, n) ∈ s.copied := by
  refine (transferred h).complete row hrow fun t' hleave => ?_
  dsimp only [inserts] at hleave
  split at hleave <;> cases hleave

/-- Where the key is one, different rows stand for different rows. -/
theorem matchByKey_injective {table : TableName} {keyCol : String}
    (h : matchByKey env table keyCol store source = .ok s)
    (hnodup : (source.rows.map fun r => r.values keyCol).Nodup) {p q : Record × Nat}
    (hp : p ∈ s.copied) (hq : q ∈ s.copied) (heq : p.2 = q.2) : p = q := by
  obtain ⟨hprow, r, hr, hpkey⟩ := matchByKey_spec h hp
  obtain ⟨hqrow, r', hr', hqkey⟩ := matchByKey_spec h hq
  rw [heq, hr'] at hr
  rw [Option.some.inj hr] at hqkey
  exact Prod.ext (List.inj_on_of_nodup_map hnodup hprow hqrow (hpkey.symm.trans hqkey)) heq

/-! ### `copy_role_permissions` -/

theorem sqlEq_eq {a b : Datum} (h : sqlEq a b = true) : a = b := by
  unfold sqlEq at h
  rw [Bool.and_eq_true] at h
  exact eq_of_beq h.2

theorem rolePermissionVerdict_cases (roleIdMap : IdMap) (table : Table Record) (row : Record) :
    rolePermissionVerdict roleIdMap table row = .leave ∨
      ∃ n, roleIdMap.lookup (row.values "role_id") = some n ∧
        ((∃ r, table.get? r.id = some r ∧ r.values "role_id" = .int n ∧
            r.values "permission_key" = row.values "permission_key" ∧
            rolePermissionVerdict roleIdMap table row = .stands r.id) ∨
          rolePermissionVerdict roleIdMap table row =
            .insert (Function.update row.values "role_id" (.int n))) := by
  unfold rolePermissionVerdict
  cases hn : roleIdMap.lookup (row.values "role_id") with
  | none => exact Or.inl rfl
  | some n =>
      refine Or.inr ⟨n, rfl, ?_⟩
      dsimp only
      split
      · rename_i r hfound
        obtain ⟨hsame, hget⟩ := Table.first?_spec hfound
        rw [Bool.and_eq_true] at hsame
        exact Or.inl ⟨r, hget, sqlEq_eq hsame.1, sqlEq_eq hsame.2, rfl⟩
      · exact Or.inr rfl

theorem copyRolePermissions_spec (h : copyRolePermissions env store source = .ok s)
    {p : Record × Nat} (hp : p ∈ s.copied) : ∃ n r,
      (idMap (store .roles).copied).lookup (p.1.values "role_id") = some n ∧
      s.table.get? p.2 = some r ∧ r.values "role_id" = .int n ∧
      r.values "permission_key" = p.1.values "permission_key" := by
  obtain ⟨-, t', hext, hverdict⟩ := represents_inserts h hp
  rcases rolePermissionVerdict_cases (idMap (store .roles).copied) t' p.1 with
    hleave | ⟨n, hn, ⟨r, hget, hrole, hkey, hstands⟩ | hinsert⟩
  · rw [hleave] at hverdict
    rcases hverdict with hcase | ⟨_, hcase, -⟩ <;> cases hcase
  · rw [hstands] at hverdict
    rcases hverdict with hcase | ⟨_, hcase, -⟩
    · rw [← Verdict.stands.inj hcase]
      exact ⟨n, r, hn, hext r.id r hget, hrole, hkey⟩
    · cases hcase
  · rw [hinsert] at hverdict
    rcases hverdict with hcase | ⟨_, hcase, hget⟩
    · cases hcase
    · rw [← Verdict.insert.inj hcase] at hget
      refine ⟨n, _, hn, hget, ?_, ?_⟩
      · exact Function.update_self "role_id" (Datum.int n) p.1.values
      · have hne : "permission_key" ≠ "role_id" := by decide
        exact Function.update_of_ne hne (Datum.int n) p.1.values

/-! ### `copy_users` -/

theorem snd_zipIdx_nodup (rows : List Record) (n : Nat) : ((rows.zipIdx n).map Prod.snd).Nodup := by
  rw [List.zipIdx_map_snd]
  exact List.nodup_range'

theorem insertUsers_spec (h : insertUsers env store source = .ok s) :
    s.copied = source.rows.zipIdx (store .users).table.nextKey ∧ ∀ p ∈ s.copied,
      p.1 ∈ source.rows ∧
        s.table.get? p.2 = some ⟨p.2, Function.update p.1.values "created_by" .null⟩ := by
  refine ⟨transfer_numbers (fun _ row => ⟨_, rfl⟩) h, fun p hp => ?_⟩
  obtain ⟨hrow, t', -, hstands | ⟨values, hinsert, hget⟩⟩ := represents_inserts h hp
  · cases hstands
  · rw [← Verdict.insert.inj hinsert] at hget
    exact ⟨hrow, hget⟩

/-- A pass over the copies sets a column of those that it has a value for. -/
theorem setColumn_spec {table : TableName} {column : String} {copied : List (Record × Nat)}
    {f : Record → Option Datum} {t t' : Table Record}
    (h : setColumn env store table column
      (copied.filterMap fun p => (f p.1).map fun v => (p.2, v)) t = .ok t')
    (hnodup : (copied.map Prod.snd).Nodup) {p : Record × Nat} (hp : p ∈ copied) {values : Row}
    (hget : t.get? p.2 = some ⟨p.2, values⟩) :
    t'.get? p.2 =
      some ⟨p.2, Function.update values column ((f p.1).getD (values column))⟩ := by
  have hkeys : (copied.filterMap fun p => (f p.1).map fun v => (p.2, v)).map Prod.fst =
      (copied.filter fun p => (f p.1).isSome).map Prod.snd := by
    rw [List.map_filterMap, ← List.filterMap_eq_map, ← List.filterMap_eq_filter,
      List.filterMap_filterMap]
    refine List.filterMap_congr fun q _ => ?_
    cases hq : f q.1 <;> simp [hq, Option.guard]
  have hnodup' := hnodup.sublist
    ((List.filter_sublist (p := fun p => (f p.1).isSome)).map Prod.snd)
  rw [← hkeys] at hnodup'
  cases hnew : f p.1 with
  | some v =>
      have hmem : (p.2, v) ∈ copied.filterMap fun p => (f p.1).map fun v => (p.2, v) :=
        List.mem_filterMap.mpr ⟨p, hp, by rw [hnew]; rfl⟩
      rw [get?_assign_of_mem h hnodup' hmem, hget]
      rfl
  | none =>
      have hnot : p.2 ∉ (copied.filterMap fun p => (f p.1).map fun v => (p.2, v)).map Prod.fst := by
        rw [hkeys]
        intro hmem
        obtain ⟨q, hq, heq⟩ := List.mem_map.mp hmem
        obtain ⟨hq, hsome⟩ := List.mem_filter.mp hq
        obtain rfl := List.inj_on_of_nodup_map hnodup hq hp heq
        rw [hnew] at hsome
        cases hsome
      rw [get?_assign_of_not_mem h hnot, hget, Option.getD_none, Function.update_eq_self]

theorem copyUsers_spec (h : copyUsers env store source = .ok s) :
    s.copied = source.rows.zipIdx (store .users).table.nextKey ∧ ∀ p ∈ s.copied,
      p.1 ∈ source.rows ∧ ∃ r, s.table.get? p.2 = some r ∧
        r.values "created_by" = (mapped (idMap s.copied) (p.1.values "created_by")).getD .null ∧
        r.values "role_id" = (mapped (idMap (store .roles).copied) (p.1.values "role_id")).getD
          (p.1.values "role_id") := by
  unfold copyUsers at h
  split at h
  · cases h
  rename_i s₁ hinsert
  split at h
  · cases h
  rename_i t₁ hcreated
  split at h
  · cases h
  rename_i t₂ hroles
  obtain rfl := Except.ok.inj h
  obtain ⟨hnumbers, hcopied⟩ := insertUsers_spec hinsert
  refine ⟨hnumbers, fun p hp => ?_⟩
  obtain ⟨hrow, hget⟩ := hcopied p hp
  have hnodup : (s₁.copied.map Prod.snd).Nodup := by
    rw [hnumbers]
    exact snd_zipIdx_nodup _ _
  have hget₁ := setColumn_spec (f := fun row => mapped (idMap s₁.copied) (row.values "created_by"))
    hcreated hnodup hp hget
  have hget₂ := setColumn_spec (f := fun row => (source.get? row.id).bind fun row =>
    mapped (idMap (store .roles).copied) (row.values "role_id")) hroles hnodup hp hget₁
  have hsource : source.get? p.1.id = some p.1 := Table.get?_of_mem hrow
  have hother : "created_by" ≠ "role_id" := by decide
  refine ⟨hrow, _, hget₂, ?_, ?_⟩
  · dsimp only
    rw [Function.update_of_ne hother, Function.update_self, Function.update_self]
  · dsimp only
    rw [Function.update_self, hsource, Option.bind_some, Function.update_of_ne (Ne.symm hother),
      Function.update_of_ne (Ne.symm hother)]

/-! ### `backfill_job_domains` -/

theorem backfillJobDomains_spec (h : backfillJobDomains env src store source = .ok s)
    {p : Record × Nat} (hp : p ∈ s.copied) : ∃ job domain r,
      (idMap (store .crawlJobs).copied).lookup (p.1.values "job_id") = some job ∧
      (idMap (store .domains).copied).lookup (p.1.values "domain_id") = some domain ∧
      s.table.get? p.2 = some r ∧ r.values "job_id" = .int job ∧
      r.values "domain_id" = .int domain := by
  unfold backfillJobDomains at h
  split at h
  · cases h
  obtain ⟨-, t', -, hverdict⟩ := represents_inserts h hp
  unfold jobDomainVerdict at hverdict
  split at hverdict
  · rename_i job domain hjob hdomain
    rcases hverdict with hstands | ⟨values, hinsert, hget⟩
    · cases hstands
    · rw [← Verdict.insert.inj hinsert] at hget
      exact ⟨job, domain, _, hjob, hdomain, hget, rfl, rfl⟩
  · rcases hverdict with hstands | ⟨values, hinsert, -⟩
    · cases hstands
    · cases hinsert

end GovCrawler
