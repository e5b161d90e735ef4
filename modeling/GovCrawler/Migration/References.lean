/-
Whether the migration to Postgres keeps references.

Rows get new numbers, so a column that names a row has to be changed to the new number of that
row.  `links` are the columns that name rows.  All but six of them are changed: `owner_id` of jobs
and of campaigns and `test_credential_id` are in no `fk_map`, so they name whatever row has the
old number on the target (`forgotten`); `users.role_id` and the two `permission_key` columns
keep a value that names nothing in the source (`unresolved`).

The steps are followed through the run: no step replaces what another one has filled, so what a
step has made of its rows, and the numbers that it has read, are there when the run ends, after
the last step or at the one that raises.  The table `visited_urls` is not one of the current ones,
so a run with these tables never gets to the end.
-/
import GovCrawler.Migration.Steps

namespace GovCrawler

open Relational Keyed Phases Renumbering

/-! ### References -/

/-- The foreign keys of a table, and the soft link of a snapshot. -/
def links : TableName → List Link
  | .crawlSnapshots => foreignKeys .crawlSnapshots ++ [⟨"source_domain_id", .domains, "id"⟩]
  | table => foreignKeys table

/-- The columns that are set to `NULL` where what they name has no image: `soft_fk`, and
`created_by`, which `copy_users` treats so. -/
def softLinks : TableName → List String
  | .users => ["created_by"]
  | .auditLog => ["user_id"]
  | .crawlSnapshots => ["source_domain_id"]
  | .leads => ["domain_id", "snapshot_id"]
  | .campaigns => ["template_id"]
  | .campaignEmails => ["credential_id"]
  | _ => []

/-- The column names the image of what it has named, or it is `NULL` as it was, or it is soft and
what it has named has no image. -/
inductive Follows (store : Transfers) (link : Link) (soft : Bool) (old new : Datum) : Prop
  | null (hold : old = .null) (hnew : new = .null)
  | image (q : Record × Nat) (u : Record) (hq : q ∈ (store link.table).copied)
      (hget : (store link.table).table.get? q.2 = some u) (hold : q.1.cell link.key = old)
      (hnew : u.cell link.key = new)
  | unmapped (hsoft : soft = true) (hnew : new = .null)
      (hold : ∀ q ∈ (store link.table).copied, q.1.cell link.key ≠ old)

/-- What holds of a row `p.1` that has been copied to `r`. -/
structure KeepsReferences (store : Transfers) (table : TableName) (p : Record × Nat) (r : Record) :
    Prop where
  follows : ∀ link ∈ links table, Follows store link (decide (link.column ∈ softLinks table))
    (p.1.values link.column) (r.values link.column)
  /-- It is not attached to the image of another row. -/
  exclusive : ∀ link ∈ links table, ∀ q ∈ (store link.table).copied, ∀ u,
    (store link.table).table.get? q.2 = some u → r.values link.column = u.cell link.key →
      p.1.values link.column = q.1.cell link.key

/-- Every copied row is there, with the references of the row that it is a copy of. -/
def PreservesReferences (store : Transfers) : Prop :=
  ∀ table, ∀ p ∈ (store table).copied, ∃ r, (store table).table.get? p.2 = some r ∧
    KeepsReferences store table p r

/-- The columns that no step changes to new numbers. -/
def forgotten : TableName → List Link
  | .crawlJobs => [⟨"owner_id", .users, "id"⟩]
  | .campaigns => [⟨"test_credential_id", .smtpCredentials, "id"⟩, ⟨"owner_id", .users, "id"⟩]
  | _ => []

/-- The columns that keep their value when it names nothing. -/
def unresolved : TableName → List Link
  | .users => [⟨"role_id", .roles, "id"⟩]
  | .rolePermissions | .userPermissions => [⟨"permission_key", .permissions, "key"⟩]
  | _ => []

/-- A row of the source has this number, and it is the next number of the target by as many as
there are rows before it. -/
def NumberStays (src : SourceDb) (dst : TableName → Table Record) (table : TableName) (v : Datum) :
    Prop :=
  ∃ i row, (src.rows table)[i]? = some row ∧ row.cell "id" = v ∧ (dst table).nextKey + i = row.id

/-- What is asked of a row of the source. -/
structure ReferencesStay (src : SourceDb) (dst : TableName → Table Record) (table : TableName)
    (row : Record) : Prop where
  numbers : ∀ link ∈ forgotten table, row.values link.column = .null ∨
    NumberStays src dst link.table (row.values link.column)
  names : ∀ link ∈ unresolved table, row.values link.column = .null ∨
    ∃ u ∈ src.rows link.table, u.cell link.key = row.values link.column

/-! ### The run -/

/-- The table that each step fills. -/
def migrationTargets : List TableName := migrationSteps.map MigrationStep.target

/-- The tables whose new numbers a step reads. -/
def MigrationStep.reads : MigrationStep → List TableName
  | .copyRolePermissions | .copyUsers => [.roles]
  | .copyTable call => call.idMaps
  | .backfillJobDomains => [.crawlJobs, .domains]
  | _ => []

/-- The step fills a lookup table. -/
def MigrationStep.seeds : MigrationStep → Bool
  | .seedLookups _ _ _ _ => true
  | _ => false

/-- The step `step` is the `k`-th, and it is not one of the rounds that fill the lookup tables. -/
structure StepAt (k : Nat) (step : MigrationStep) : Prop where
  get : migrationSteps[k]? = some step
  late : 4 ≤ k

/-- Every table is filled by one step, and the numbers that a step reads are there before. -/
theorem migrationSteps_ordered : ∀ p ∈ migrationSteps.zipIdx, 4 ≤ p.2 →
    p.1.target ∉ migrationTargets.take p.2 ∧ p.1.target ∉ migrationTargets.drop (p.2 + 1) ∧
      ∀ table ∈ p.1.reads, table ∉ migrationTargets.drop p.2 := by decide

theorem seeds_of_lookup : ∀ step ∈ migrationSteps,
    step.target = .categories ∨ step.target = .orgTypes → step.seeds = true := by decide

theorem seedLookups_copied {env : MigrationEnv} {lookup : TableName} {codeCol titleCol : String}
    {store : Transfers} {source : Table Record} {s : Transfer Record Record}
    (h : seedLookups env lookup codeCol titleCol store source = .ok s) :
    s.copied = (store lookup).copied := by
  unfold seedLookups at h
  dsimp only at h
  revert h
  cases (inserts env store lookup _).transfer _ _ with
  | error e =>
      intro h
      cases h
  | ok s' =>
      intro h
      rw [← Except.ok.inj h]

section Run

variable (env : MigrationEnv) (src : SourceDb) (dst : TableName → Table Record)

/-- How many steps are done. -/
def stepsDone : Nat :=
  completed (migrationSteps.map (MigrationStep.phase env src)) fun table => ⟨dst table, []⟩

variable {env src dst} {k : Nat} {step : MigrationStep}

theorem StepAt.ordered (h : StepAt k step) : step.target ∉ migrationTargets.take k ∧
    step.target ∉ migrationTargets.drop (k + 1) ∧
      ∀ table ∈ step.reads, table ∉ migrationTargets.drop k :=
  migrationSteps_ordered (step, k) (List.mk_mem_zipIdx_iff_getElem?.mpr h.get) h.late

theorem targets_eq (env : MigrationEnv) (src : SourceDb) : (migrationSteps.map (MigrationStep.phase env src)).map Phase.target =
    migrationTargets := by
  rw [List.map_map]
  rfl

/-- What a phase puts into its table is what its step makes of the rows of the source. -/
theorem phase_act {store : Transfers} {s : Transfer Record Record}
    (h : (step.phase env src).act store = .ok s) :
    ∃ source, src.table step.source = some source ∧ step.body env src store source = .ok s := by
  unfold MigrationStep.phase SourceDb.select at h
  dsimp only at h
  cases hsource : src.table step.source with
  | none =>
      rw [hsource] at h
      cases h
  | some source =>
      rw [hsource] at h
      dsimp only at h
      split at h
      · exact ⟨source, rfl, h⟩
      · cases h

theorem StepAt.getElem?_phase (h : StepAt k step) :
    (migrationSteps.map (MigrationStep.phase env src))[k]? = some (step.phase env src) := by
  rw [List.getElem?_map, h.get]
  rfl

/-- A step has made of the rows of the source what is in its table, from the numbers that are in
the tables it reads. -/
def StepMade (env : MigrationEnv) (src : SourceDb) (dst : TableName → Table Record) (store : Transfers)
    (step : MigrationStep) : Prop :=
  ∃ before source, src.table step.source = some source ∧
    step.body env src before source = .ok (store step.target) ∧
    before step.target = ⟨dst step.target, []⟩ ∧ ∀ table ∈ step.reads, before table = store table

theorem made_of_lt (h : StepAt k step) (hdone : k < stepsDone env src dst) :
    StepMade env src dst (migrate env src dst).1 step := by
  obtain ⟨hfirst, hlast, hreads⟩ := h.ordered
  rw [← targets_eq env src] at hfirst hlast hreads
  obtain ⟨before, hact, hsame, hframe⟩ := execute_of_lt h.getElem?_phase hdone hfirst hlast
  obtain ⟨source, hsource, hbody⟩ := phase_act hact
  exact ⟨before, source, hsource, hbody, hsame,
    fun table ht => (hframe table (hreads table ht)).symm⟩

/-- No row of a lookup table stands for a row of the source. -/
theorem copied_lookups {table : TableName} (htable : table = .categories ∨ table = .orgTypes) :
    ((migrate env src dst).1 table).copied = [] := by
  refine execute_invariant (Q := fun (table : TableName) (s : Transfer Record Record) =>
    table = .categories ∨ table = .orgTypes → s.copied = []) (fun _ _ => rfl) ?_ table htable
  intro p hp store s hstore hact hlookup
  obtain ⟨step, hstep, rfl⟩ := List.mem_map.mp hp
  obtain ⟨source, -, hbody⟩ := phase_act hact
  have hseeds := seeds_of_lookup step hstep hlookup
  cases step with
  | seedLookups lookup from_ codeCol titleCol =>
      rw [seedLookups_copied hbody]
      exact hstore lookup hlookup
  | copyRoles => cases hseeds
  | copyNaturalKeyTable table keyCol => cases hseeds
  | copyRolePermissions => cases hseeds
  | copyUsers => cases hseeds
  | copyTable call => cases hseeds
  | backfillJobDomains => cases hseeds

/-- A table into which rows have been copied has been filled by a step. -/
theorem step_of_copied {table : TableName} {p : Record × Nat}
    (hp : p ∈ ((migrate env src dst).1 table).copied) :
    ∃ k step, StepAt k step ∧ step.target = table ∧ k < stepsDone env src dst := by
  have htables : table ∈ migrationTargets.drop 4 ∨ table ∉ migrationTargets ∨
      table = .categories ∨ table = .orgTypes := by
    cases table <;> decide
  -- a table that has been left alone holds no copies
  have huntouched : ∀ other, (migrate env src dst).1 other = ⟨dst other, []⟩ → other ≠ table := by
    rintro other hother rfl
    rw [hother] at hp
    exact absurd hp List.not_mem_nil
  rcases htables with hlate | hnot | hlookup
  · obtain ⟨i, hi⟩ := List.getElem?_of_mem hlate
    rw [List.getElem?_drop] at hi
    unfold migrationTargets at hi
    rw [List.getElem?_map, Option.map_eq_some_iff] at hi
    obtain ⟨step, hget, rfl⟩ := hi
    have hstep : StepAt (4 + i) step := ⟨hget, Nat.le_add_right _ _⟩
    refine ⟨4 + i, step, hstep, rfl, ?_⟩
    by_contra hle
    have hfirst := hstep.ordered.1
    rw [← targets_eq env src] at hfirst
    exact huntouched step.target
      (execute_of_le hstep.getElem?_phase (Nat.le_of_not_lt hle) hfirst) rfl
  · rw [← targets_eq env src] at hnot
    exact absurd rfl (huntouched table (execute_of_not_mem hnot))
  · rw [copied_lookups hlookup] at hp
    exact absurd hp List.not_mem_nil

/-- Where there are copies, the step that has made them is done, and so are those before it. -/
structure RunEnd (env : MigrationEnv) (src : SourceDb) (dst : TableName → Table Record)
    (store : Transfers) : Prop where
  made : ∀ {table p}, p ∈ (store table).copied → ∃ k step, StepAt k step ∧ step.target = table ∧
    ∀ {j other}, StepAt j other → j ≤ k → StepMade env src dst store other

theorem migrate_runEnd (env : MigrationEnv) (src : SourceDb) (dst : TableName → Table Record) :
    RunEnd env src dst (migrate env src dst).1 where
  made := by
    intro table p hp
    obtain ⟨k, step, hstep, htarget, hlt⟩ := step_of_copied hp
    exact ⟨k, step, hstep, htarget, fun hother hle => made_of_lt hother (Nat.lt_of_le_of_lt hle hlt)⟩

end Run

/-! ### What has been made of each table -/

section Tables

variable {env : MigrationEnv} {src : SourceDb} {dst : TableName → Table Record} {store : Transfers}

theorem rows_of_table (table : TableName) {source : Table Record}
    (h : src.table table = some source) : src.rows table = source.rows := by
  unfold SourceDb.rows
  rw [h]
  rfl

theorem lookup_map_self {β : Type} (f : TableName → β) {tables : List TableName} {table : TableName}
    (h : table ∈ tables) : (tables.map fun t => (t, f t)).lookup table = some (f table) := by
  induction tables with
  | nil => exact absurd h List.not_mem_nil
  | cons t tables ih =>
      rw [List.map_cons, List.lookup_cons]
      by_cases heq : table = t
      · rw [heq, beq_self_eq_true]
      · rw [beq_false_of_ne heq]
        exact ih ((List.mem_cons.mp h).resolve_left heq)

theorem StepMade.copyTable {call : CopyCall} (h : StepMade env src dst store (.copyTable call))
    {p : Record × Nat} (hp : p ∈ (store call.table).copied) : ∃ values,
      remap (call.idMaps.map fun table => (table, idMap (store table).copied)) call.softFk call.fkMap
        p.1.values = some values ∧ (store call.table).table.get? p.2 = some ⟨p.2, values⟩ := by
  obtain ⟨before, source, -, hbody, -, hreads⟩ := h
  obtain ⟨-, values, hremap, hget⟩ := copyTable_spec hbody hp
  refine ⟨values, ?_, hget⟩
  rw [← hremap]
  congr 1
  exact List.map_congr_left fun table ht => by rw [hreads table ht]

theorem StepMade.copyTable_numbers {call : CopyCall} (h : StepMade env src dst store (.copyTable call))
    (hfk : call.fkMap = []) :
    (store call.table).copied = (src.rows call.table).zipIdx (dst call.table).nextKey := by
  obtain ⟨before, source, hsource, hbody, hbefore, -⟩ := h
  have hnumbers := GovCrawler.copyTable_numbers hfk hbody
  have htarget : before call.table = ⟨dst call.table, []⟩ := hbefore
  rw [htarget] at hnumbers
  rw [rows_of_table call.table hsource]
  exact hnumbers

theorem StepMade.copyUsers (h : StepMade env src dst store .copyUsers) :
    (store .users).copied = (src.rows .users).zipIdx (dst .users).nextKey ∧
      ∀ p ∈ (store .users).copied, ∃ r, (store .users).table.get? p.2 = some r ∧
        r.values "created_by" =
          (mapped (idMap (store .users).copied) (p.1.values "created_by")).getD .null ∧
        r.values "role_id" = (mapped (idMap (store .roles).copied) (p.1.values "role_id")).getD
          (p.1.values "role_id") := by
  obtain ⟨before, source, hsource, hbody, hbefore, hreads⟩ := h
  obtain ⟨hnumbers, hcopied⟩ := copyUsers_spec hbody
  have htarget : before .users = ⟨dst .users, []⟩ := hbefore
  rw [htarget] at hnumbers
  rw [hreads .roles (List.mem_singleton.mpr rfl)] at hcopied
  rw [rows_of_table .users hsource]
  exact ⟨hnumbers, fun p hp => (hcopied p hp).2⟩

/-- The roles and the permissions: what stands for a row has its key. -/
theorem matched_rows {table : TableName} {keyCol : String} {before : Transfers}
    {source : Table Record} (hsource : src.table table = some source)
    (hbody : GovCrawler.matchByKey env table keyCol before source = .ok (store table)) :
    (∀ q ∈ (store table).copied, q.1 ∈ src.rows table ∧
      ∃ u, (store table).table.get? q.2 = some u ∧ u.values keyCol = q.1.values keyCol) ∧
      ∀ row ∈ src.rows table, ∃ n, (row, n) ∈ (store table).copied := by
  rw [rows_of_table table hsource]
  exact ⟨fun q hq => matchByKey_spec hbody hq, fun row hrow => matchByKey_complete hbody hrow⟩

theorem StepMade.copyRolePermissions (h : StepMade env src dst store .copyRolePermissions)
    {p : Record × Nat} (hp : p ∈ (store .rolePermissions).copied) : ∃ n r,
      (idMap (store .roles).copied).lookup (p.1.values "role_id") = some n ∧
      (store .rolePermissions).table.get? p.2 = some r ∧ r.values "role_id" = .int n ∧
      r.values "permission_key" = p.1.values "permission_key" := by
  obtain ⟨before, source, -, hbody, -, hreads⟩ := h
  have hspec := copyRolePermissions_spec hbody hp
  rwa [hreads .roles (List.mem_singleton.mpr rfl)] at hspec

theorem StepMade.backfillJobDomains (h : StepMade env src dst store .backfillJobDomains)
    {p : Record × Nat} (hp : p ∈ (store .crawlJobDomains).copied) : ∃ job domain r,
      (idMap (store .crawlJobs).copied).lookup (p.1.values "job_id") = some job ∧
      (idMap (store .domains).copied).lookup (p.1.values "domain_id") = some domain ∧
      (store .crawlJobDomains).table.get? p.2 = some r ∧ r.values "job_id" = .int job ∧
      r.values "domain_id" = .int domain := by
  obtain ⟨before, source, -, hbody, -, hreads⟩ := h
  have hspec := backfillJobDomains_spec hbody hp
  rwa [hreads .crawlJobs (by decide), hreads .domains (by decide)] at hspec

theorem StepMade.copyRoles (h : StepMade env src dst store .copyRoles) :
    (∀ q ∈ (store .roles).copied, q.1 ∈ src.rows .roles ∧
      ∃ u, (store .roles).table.get? q.2 = some u ∧ u.values "name" = q.1.values "name") ∧
      ∀ row ∈ src.rows .roles, ∃ n, (row, n) ∈ (store .roles).copied := by
  obtain ⟨before, source, hsource, hbody, -⟩ := h
  exact matched_rows hsource hbody

theorem StepMade.copyPermissions
    (h : StepMade env src dst store (.copyNaturalKeyTable .permissions "key")) :
    (∀ q ∈ (store .permissions).copied, q.1 ∈ src.rows .permissions ∧ ∃ u,
      (store .permissions).table.get? q.2 = some u ∧ u.values "key" = q.1.values "key") ∧
      ∀ row ∈ src.rows .permissions, ∃ n, (row, n) ∈ (store .permissions).copied := by
  obtain ⟨before, source, hsource, hbody, -⟩ := h
  exact matched_rows hsource hbody

/-! ### Copies -/

theorem StepAt.not_seeds {k : Nat} {step : MigrationStep} (h : StepAt k step) : step.seeds = false := by
  have hlate : ∀ p ∈ migrationSteps.zipIdx, 4 ≤ p.2 → p.1.seeds = false := by decide
  exact hlate (step, k) (List.mk_mem_zipIdx_iff_getElem?.mpr h.get) h.late

theorem StepAt.naturalKey {k : Nat} {table : TableName} {keyCol : String}
    (h : StepAt k (.copyNaturalKeyTable table keyCol)) : table = .permissions ∧ keyCol = "key" := by
  have hmem := List.mem_of_getElem? h.get
  simpa [migrationSteps] using hmem

/-- Every copied row is there. -/
theorem RunEnd.present (h : RunEnd env src dst store) {table : TableName} {p : Record × Nat}
    (hp : p ∈ (store table).copied) : ∃ r, (store table).table.get? p.2 = some r := by
  obtain ⟨k, step, hstep, rfl, hmade⟩ := h.made hp
  have hmade := hmade hstep (Nat.le_refl k)
  cases step with
  | seedLookups lookup from_ codeCol titleCol => cases hstep.not_seeds
  | copyRoles =>
      obtain ⟨-, u, hget, -⟩ := hmade.copyRoles.1 p hp
      exact ⟨u, hget⟩
  | copyNaturalKeyTable table keyCol =>
      obtain ⟨rfl, rfl⟩ := hstep.naturalKey
      obtain ⟨-, u, hget, -⟩ := hmade.copyPermissions.1 p hp
      exact ⟨u, hget⟩
  | copyRolePermissions =>
      obtain ⟨-, r, -, hget, -⟩ := hmade.copyRolePermissions hp
      exact ⟨r, hget⟩
  | copyUsers =>
      obtain ⟨r, hget, -⟩ := hmade.copyUsers.2 p hp
      exact ⟨r, hget⟩
  | copyTable call =>
      obtain ⟨values, -, hget⟩ := hmade.copyTable hp
      exact ⟨_, hget⟩
  | backfillJobDomains =>
      obtain ⟨-, -, r, -, -, hget, -⟩ := hmade.backfillJobDomains hp
      exact ⟨r, hget⟩

/-- Different rows of a table with numbers of its own have different images. -/
theorem RunEnd.injective (h : RunEnd env src dst store) {table : TableName}
    (htable : table ≠ .permissions ∧ table ≠ .rolePermissions ∧ table ≠ .crawlJobDomains)
    {p q : Record × Nat} (hp : p ∈ (store table).copied) (hq : q ∈ (store table).copied)
    (heq : p.2 = q.2) : p = q := by
  obtain ⟨k, step, hstep, rfl, hmade⟩ := h.made hp
  obtain ⟨before, source, hsource, hbody, -⟩ := hmade hstep (Nat.le_refl k)
  cases step with
  | seedLookups lookup from_ codeCol titleCol => cases hstep.not_seeds
  | copyRoles => exact matchByKey_injective hbody (src.roleNames source hsource) hp hq heq
  | copyNaturalKeyTable table keyCol => exact absurd hstep.naturalKey.1 htable.1
  | copyRolePermissions => exact absurd rfl htable.2.1
  | copyUsers =>
      have hnodup := snd_zipIdx_nodup source.rows (before .users).table.nextKey
      rw [← (copyUsers_spec hbody).1] at hnodup
      exact List.inj_on_of_nodup_map hnodup hp hq heq
  | copyTable call => exact copyTable_injective hbody hp hq heq
  | backfillJobDomains => exact absurd rfl htable.2.2

/-! ### References to numbers and to keys -/

theorem follows_of_remapped (h : RunEnd env src dst store) {link : Link} (hkey : link.key = "id")
    {soft : Bool} {old new : Datum}
    (hremapped : Remapped (idMap (store link.table).copied) soft old new) :
    Follows store link soft old new := by
  cases hremapped with
  | null hold hnew => exact .null hold hnew
  | image n hold hnew =>
      obtain ⟨q, hq, hcell, rfl⟩ := lookup_idMap hold
      obtain ⟨u, hget⟩ := h.present hq
      refine .image q u hq hget (by rw [hkey, hcell]) ?_
      rw [hkey, Record.cell_id, hnew, ← Table.get?_key hget]
      rfl
  | unmapped hsoft hold hnew =>
      exact .unmapped hsoft hnew fun q hq => by
        rw [hkey]
        exact lookup_idMap_eq_none hold q hq

/-- A number that is not changed names the image if the image has got the same number. -/
theorem follows_same_number (h : RunEnd env src dst store) {link : Link} (hkey : link.key = "id")
    (hcopied : (store link.table).copied = (src.rows link.table).zipIdx (dst link.table).nextKey)
    (v : Datum) : Follows store link false v v ↔ v = .null ∨ NumberStays src dst link.table v := by
  constructor
  · intro hfollows
    cases hfollows with
    | null hold => exact Or.inl hold
    | image q u hq hget hold hnew =>
        rw [hkey] at hold hnew
        rw [hcopied] at hq
        obtain ⟨hle, hrow⟩ := List.mem_zipIdx_iff_le_and_getElem?_sub.mp hq
        refine Or.inr ⟨q.2 - (dst link.table).nextKey, q.1, hrow, hold, ?_⟩
        -- the image has the number `q.2`, and both cells are `v`
        have hnumber : (Datum.int u.id) = .int q.1.id := hnew.trans hold.symm
        have hid : u.id = q.1.id := by simpa using hnumber
        have hget : u.id = q.2 := Table.get?_key hget
        omega
    | unmapped hsoft => cases hsoft
  · rintro (hnull | ⟨i, row, hrow, hcell, hnumber⟩)
    · exact .null hnull hnull
    · have hq : (row, (dst link.table).nextKey + i) ∈ (store link.table).copied := by
        rw [hcopied]
        refine List.mem_zipIdx_iff_le_and_getElem?_sub.mpr ⟨Nat.le_add_right _ _, ?_⟩
        rw [Nat.add_sub_cancel_left]
        exact hrow
      obtain ⟨u, hget⟩ := h.present hq
      have hid : u.id = (dst link.table).nextKey + i := Table.get?_key hget
      refine .image _ u hq hget (by rw [hkey]; exact hcell) ?_
      rw [hkey, ← hcell, Record.cell_id, Record.cell_id, hid, hnumber]

/-- The pass over `role_id` sets it if the role is in the source. -/
theorem follows_role (h : RunEnd env src dst store) (hroles : StepMade env src dst store .copyRoles)
    (v : Datum) : Follows store ⟨"role_id", .roles, "id"⟩ false v
      ((mapped (idMap (store .roles).copied) v).getD v) ↔
        v = .null ∨ ∃ u ∈ src.rows .roles, u.cell "id" = v := by
  constructor
  · intro hfollows
    cases hfollows with
    | null hold => exact Or.inl hold
    | image q u hq _ hold => exact Or.inr ⟨q.1, (hroles.copyRoles.1 q hq).1, hold⟩
    | unmapped hsoft => cases hsoft
  · rintro (rfl | ⟨u, hu, rfl⟩)
    · exact .null rfl rfl
    · obtain ⟨n, hn⟩ := hroles.copyRoles.2 u hu
      obtain ⟨m, hm⟩ := lookup_idMap_of_mem hn
      refine follows_of_remapped h rfl (.image m hm ?_)
      rcases mapped_cases (idMap (store .roles).copied) (u.cell "id") with
        ⟨hnull, -⟩ | ⟨m', hm', hmapped⟩ | ⟨hnone, -⟩
      · cases hnull
      · rw [hmapped, Option.getD_some, Option.some.inj (hm'.symm.trans hm)]
      · rw [hnone] at hm
        cases hm

/-- A permission keeps its key. -/
theorem follows_permission
    (hperm : StepMade env src dst store (.copyNaturalKeyTable .permissions "key")) (v : Datum) :
    Follows store ⟨"permission_key", .permissions, "key"⟩ false v v ↔
      v = .null ∨ ∃ u ∈ src.rows .permissions, u.cell "key" = v := by
  obtain ⟨hcopied, hcomplete⟩ := hperm.copyPermissions
  constructor
  · intro hfollows
    cases hfollows with
    | null hold => exact Or.inl hold
    | image q u hq _ hold => exact Or.inr ⟨q.1, (hcopied q hq).1, hold⟩
    | unmapped hsoft => cases hsoft
  · rintro (rfl | ⟨row, hrow, rfl⟩)
    · exact .null rfl rfl
    · obtain ⟨n, hn⟩ := hcomplete row hrow
      obtain ⟨-, u, hget, hkey⟩ := hcopied _ hn
      exact .image _ u hn hget rfl hkey

/-! ### One row -/

/-- The step that fills the table of a copied row is done, and so are those before it. -/
theorem RunEnd.made_of_target (h : RunEnd env src dst store) {j k : Nat} {step other : MigrationStep}
    {p : Record × Nat} (hp : p ∈ (store step.target).copied) (hstep : StepAt k step)
    (hother : StepAt j other) (hle : j ≤ k) : StepMade env src dst store other := by
  obtain ⟨l, step', hstep', htarget, hmade⟩ := h.made hp
  have hl : migrationTargets[l]? = some step.target := by
    rw [migrationTargets, List.getElem?_map, hstep'.get, Option.map_some, htarget]
  -- the table is the target of the `k`-th step only
  have hkl : l = k := by
    obtain ⟨hfirst, hlast, -⟩ := hstep.ordered
    rcases Nat.lt_trichotomy l k with hlt | heq | hgt
    · exact absurd (List.mem_of_getElem? ((List.getElem?_take_of_lt hlt).trans hl)) hfirst
    · exact heq
    · refine absurd (List.mem_of_getElem? (i := l - (k + 1)) ?_) hlast
      rw [List.getElem?_drop, Nat.add_sub_cancel' hgt, hl]
  exact hmade hother (hkl ▸ hle)

theorem links_cases : ∀ table, ∀ link ∈ links table,
    (link.key = "id" ∧ link.table ≠ .permissions ∧ link.table ≠ .rolePermissions ∧
      link.table ≠ .crawlJobDomains) ∨
    (link = ⟨"permission_key", .permissions, "key"⟩ ∧ link.column ∉ softLinks table) := by
  intro table
  cases table <;> decide

/-- What names the image of a row has named that row. -/
theorem exclusive_of_follows (h : RunEnd env src dst store) {table : TableName} {link : Link}
    (hlink : link ∈ links table) {old new : Datum}
    (hfollows : Follows store link (decide (link.column ∈ softLinks table)) old new)
    {q : Record × Nat} (hq : q ∈ (store link.table).copied) {u : Record}
    (hget : (store link.table).table.get? q.2 = some u) (hnew : new = u.cell link.key) :
    old = q.1.cell link.key := by
  rcases links_cases table link hlink with ⟨hkey, htable⟩ | ⟨rfl, hsoft⟩
  · rw [hkey, Record.cell_id] at hnew
    cases hfollows with
    | null _ hnull =>
        rw [hnull] at hnew
        cases hnew
    | image q' u' hq' hget' hold hnew' =>
        rw [hkey, Record.cell_id, hnew] at hnew'
        have hid : u'.id = u.id := by simpa using hnew'
        have hnumber : q'.2 = q.2 :=
          (Table.get?_key hget').symm.trans (hid.trans (Table.get?_key hget))
        rw [← hold, h.injective htable hq' hq hnumber]
    | unmapped _ hnull =>
        rw [hnull] at hnew
        cases hnew
  · have hpermissions : StepAt 5 (.copyNaturalKeyTable .permissions "key") := ⟨rfl, by decide⟩
    have hperm := h.made_of_target hq hpermissions hpermissions (Nat.le_refl 5)
    have hcopied := hperm.copyPermissions.1
    -- the key of an image is that of the row
    have hkeys : ∀ q ∈ (store .permissions).copied, ∀ u,
        (store .permissions).table.get? q.2 = some u → u.cell "key" = q.1.cell "key" := by
      intro q hq u hget
      obtain ⟨-, u', hget', hkey⟩ := hcopied q hq
      rw [hget] at hget'
      rw [Option.some.inj hget']
      exact hkey
    cases hfollows with
    | null hold hnull =>
        rw [← hkeys q hq u hget, ← hnew, hold, hnull]
    | image q' u' hq' hget' hold hnew' =>
        rw [← hkeys q hq u hget, ← hnew, ← hnew', ← hold]
        exact (hkeys q' hq' u' hget').symm
    | unmapped hdecide =>
        rw [decide_eq_false hsoft] at hdecide
        cases hdecide

/-- The calls of `copy_table`. -/
def migrationCalls : List CopyCall := migrationSteps.filterMap fun
  | .copyTable call => some call
  | _ => none

/-- `fk_map` has every reference of the table, but for the forgotten and the unresolved ones. -/
theorem migrationCalls_links : ∀ call ∈ migrationCalls, (call.fkMap.map Prod.fst).Nodup ∧
    (∀ link ∈ links call.table, link ∈ forgotten call.table ∨ link ∈ unresolved call.table ∨
      ((link.column, link.table) ∈ call.fkMap ∧ link.table ∈ call.idMaps ∧ link.key = "id" ∧
        decide (link.column ∈ softLinks call.table) = decide (link.column ∈ call.softFk))) ∧
    ∀ link ∈ forgotten call.table ++ unresolved call.table,
      link.column ∉ call.fkMap.map Prod.fst := by decide +kernel

theorem forgotten_links : ∀ table, ∀ link ∈ forgotten table, link ∈ links table ∧ link.key = "id" ∧
    decide (link.column ∈ softLinks table) = false := by
  intro table
  cases table <;> decide

theorem unresolved_links : ∀ table, ∀ link ∈ unresolved table, link ∈ links table ∧
    decide (link.column ∈ softLinks table) = false := by
  intro table
  cases table <;> decide

/-- The references of a row are kept if those that no step changes are. -/
theorem follows_iff_stay {table : TableName} {p : Record × Nat} {r : Record}
    (hchanged : ∀ link ∈ links table, link ∈ forgotten table ∨ link ∈ unresolved table ∨
      Follows store link (decide (link.column ∈ softLinks table)) (p.1.values link.column)
        (r.values link.column))
    (hforgotten : ∀ link ∈ forgotten table, (Follows store link false (p.1.values link.column)
      (r.values link.column) ↔ p.1.values link.column = .null ∨
        NumberStays src dst link.table (p.1.values link.column)))
    (hunresolved : ∀ link ∈ unresolved table, (Follows store link false (p.1.values link.column)
      (r.values link.column) ↔ p.1.values link.column = .null ∨
        ∃ u ∈ src.rows link.table, u.cell link.key = p.1.values link.column)) :
    (∀ link ∈ links table, Follows store link (decide (link.column ∈ softLinks table))
      (p.1.values link.column) (r.values link.column)) ↔ ReferencesStay src dst table p.1 := by
  constructor
  · intro h
    refine ⟨fun link hlink => ?_, fun link hlink => ?_⟩
    · obtain ⟨hmem, -, hsoft⟩ := forgotten_links table link hlink
      have hfollows := h link hmem
      rw [hsoft] at hfollows
      exact (hforgotten link hlink).mp hfollows
    · obtain ⟨hmem, hsoft⟩ := unresolved_links table link hlink
      have hfollows := h link hmem
      rw [hsoft] at hfollows
      exact (hunresolved link hlink).mp hfollows
  · intro h link hmem
    rcases hchanged link hmem with hlink | hlink | hfollows
    · rw [(forgotten_links table link hlink).2.2]
      exact (hforgotten link hlink).mpr (h.numbers link hlink)
    · rw [(unresolved_links table link hlink).2]
      exact (hunresolved link hlink).mpr (h.names link hlink)
    · exact hfollows

/-- The users and the credentials are all copied, in order. -/
theorem copied_of_forgotten (h : RunEnd env src dst store) {table : TableName} {p : Record × Nat}
    (hp : p ∈ (store table).copied) {link : Link} (hlink : link ∈ forgotten table) :
    (store link.table).copied = (src.rows link.table).zipIdx (dst link.table).nextKey := by
  have husers : StepAt 7 .copyUsers := ⟨rfl, by decide⟩
  have hcredentials : StepAt 19 (.copyTable ⟨.smtpCredentials, [], [], []⟩) := ⟨rfl, by decide⟩
  cases table with
  | crawlJobs =>
      have hjobs : StepAt 12 (.copyTable ⟨.crawlJobs, [], [], []⟩) := ⟨rfl, by decide⟩
      obtain rfl := List.mem_singleton.mp hlink
      exact (h.made_of_target hp hjobs husers (by decide)).copyUsers.1
  | campaigns =>
      have hcampaigns : StepAt 20 (.copyTable ⟨.campaigns, [.emailTemplates],
        [("template_id", .emailTemplates)], ["template_id"]⟩) := ⟨rfl, by decide⟩
      rcases List.mem_cons.mp hlink with rfl | hlink
      · exact (h.made_of_target hp hcampaigns hcredentials (by decide)).copyTable_numbers rfl
      · obtain rfl := List.mem_singleton.mp hlink
        exact (h.made_of_target hp hcampaigns husers (by decide)).copyUsers.1
  | _ => exact absurd hlink List.not_mem_nil

/-- The only unresolved column of a table that `copy_table` copies is `permission_key`. -/
theorem follows_unresolved (h : RunEnd env src dst store) {call : CopyCall} {p : Record × Nat}
    (hp : p ∈ (store call.table).copied) (hcall : call ∈ migrationCalls) {link : Link}
    (hlink : link ∈ unresolved call.table) (v : Datum) : Follows store link false v v ↔
      v = .null ∨ ∃ u ∈ src.rows link.table, u.cell link.key = v := by
  have hcases : ∀ call ∈ migrationCalls, ∀ link ∈ unresolved call.table,
      call.table = .userPermissions ∧ link = ⟨"permission_key", .permissions, "key"⟩ := by decide
  obtain ⟨htable, rfl⟩ := hcases call hcall link hlink
  have hstep : StepAt 8 (.copyTable ⟨.userPermissions, [.users], [("user_id", .users)], []⟩) :=
    ⟨rfl, by decide⟩
  rw [htable] at hp
  exact follows_permission (h.made_of_target (j := 5) hp hstep ⟨rfl, by decide⟩ (by decide)) v

/-- A copied row has kept its references if those that no step changes are kept. -/
theorem RunEnd.follows_iff (h : RunEnd env src dst store) {table : TableName} {p : Record × Nat}
    (hp : p ∈ (store table).copied) : ∃ r, (store table).table.get? p.2 = some r ∧
      ((∀ link ∈ links table, Follows store link (decide (link.column ∈ softLinks table))
        (p.1.values link.column) (r.values link.column)) ↔ ReferencesStay src dst table p.1) := by
  obtain ⟨k, step, hstep, rfl, hmade⟩ := h.made hp
  have hself := hmade hstep (Nat.le_refl k)
  cases step with
  | seedLookups lookup from_ codeCol titleCol => cases hstep.not_seeds
  | copyRoles =>
      obtain ⟨r, hget⟩ := h.present hp
      exact ⟨r, hget, follows_iff_stay (fun _ hlink => absurd hlink List.not_mem_nil)
        (fun _ hlink => absurd hlink List.not_mem_nil) fun _ hlink => absurd hlink List.not_mem_nil⟩
  | copyNaturalKeyTable table keyCol =>
      obtain ⟨rfl, rfl⟩ := hstep.naturalKey
      obtain ⟨r, hget⟩ := h.present hp
      exact ⟨r, hget, follows_iff_stay (fun _ hlink => absurd hlink List.not_mem_nil)
        (fun _ hlink => absurd hlink List.not_mem_nil) fun _ hlink => absurd hlink List.not_mem_nil⟩
  | copyRolePermissions =>
      obtain ⟨n, r, hn, hget, hrole, hkey⟩ := hself.copyRolePermissions hp
      have hpermissions : StepAt 5 (.copyNaturalKeyTable .permissions "key") := ⟨rfl, by decide⟩
      have hgrants : StepAt 6 .copyRolePermissions := ⟨rfl, by decide⟩
      have hperm := h.made_of_target hp hgrants hpermissions (by decide)
      refine ⟨r, hget, follows_iff_stay ?_ (fun _ hlink => absurd hlink List.not_mem_nil) ?_⟩
      · intro link hlink
        rcases List.mem_cons.mp hlink with rfl | hlink
        · refine Or.inr (Or.inr (follows_of_remapped h rfl ?_))
          exact .image n hn hrole
        · exact Or.inr (Or.inl hlink)
      · intro link hlink
        obtain rfl := List.mem_singleton.mp hlink
        dsimp only
        rw [hkey]
        exact follows_permission hperm _
  | copyUsers =>
      obtain ⟨r, hget, hcreated, hrole⟩ := hself.copyUsers.2 p hp
      have hroleStep : StepAt 4 .copyRoles := ⟨rfl, by decide⟩
      have husers : StepAt 7 .copyUsers := ⟨rfl, by decide⟩
      have hroles := h.made_of_target hp husers hroleStep (by decide)
      refine ⟨r, hget, follows_iff_stay ?_ (fun _ hlink => absurd hlink List.not_mem_nil) ?_⟩
      · intro link hlink
        rcases List.mem_cons.mp hlink with rfl | hlink
        · exact Or.inr (Or.inl List.mem_cons_self)
        · obtain rfl := List.mem_singleton.mp hlink
          refine Or.inr (Or.inr (follows_of_remapped h rfl ?_))
          dsimp only
          rw [hcreated]
          exact remapped_mapped _ _
      · intro link hlink
        obtain rfl := List.mem_singleton.mp hlink
        dsimp only
        rw [hrole]
        exact follows_role h hroles _
  | copyTable call =>
      obtain ⟨values, hremap, hget⟩ := hself.copyTable hp
      have hcall : call ∈ migrationCalls :=
        List.mem_filterMap.mpr ⟨_, List.mem_of_getElem? hstep.get, rfl⟩
      obtain ⟨hnodup, hlinks, hkept⟩ := migrationCalls_links call hcall
      obtain ⟨hsame, hremapped⟩ := remap_spec hnodup hremap
      refine ⟨_, hget, follows_iff_stay ?_ ?_ ?_⟩
      · intro link hlink
        refine (hlinks link hlink).imp id (Or.imp id ?_)
        rintro ⟨hfk, hmap, hkey, hsoft⟩
        have hcolumn := hremapped _ hfk
        rw [lookup_map_self (fun table => idMap (store table).copied) hmap, Option.getD_some] at hcolumn
        rw [← hsoft] at hcolumn
        exact follows_of_remapped h hkey hcolumn
      · intro link hlink
        dsimp only
        rw [hsame _ (hkept link (List.mem_append_left _ hlink))]
        exact follows_same_number h (forgotten_links _ link hlink).2.1
          (copied_of_forgotten h hp hlink) _
      · intro link hlink
        dsimp only
        rw [hsame _ (hkept link (List.mem_append_right _ hlink))]
        exact follows_unresolved h hp hcall hlink _
  | backfillJobDomains =>
      obtain ⟨job, domain, r, hjob, hdomain, hget, hjobId, hdomainId⟩ := hself.backfillJobDomains hp
      refine ⟨r, hget, follows_iff_stay ?_ (fun _ hlink => absurd hlink List.not_mem_nil)
        fun _ hlink => absurd hlink List.not_mem_nil⟩
      intro link hlink
      rcases List.mem_cons.mp hlink with rfl | hlink
      · exact Or.inr (Or.inr (follows_of_remapped h rfl (.image job hjob hjobId)))
      · obtain rfl := List.mem_singleton.mp hlink
        exact Or.inr (Or.inr (follows_of_remapped h rfl (.image domain hdomain hdomainId)))

end Tables

/-- **The copies keep their references**, each row where the columns that are left as they are name
a row that has got its old number again, and `role_id` and `permission_key` name something in the
source. -/
theorem migrate_preserves_references_iff (env : MigrationEnv) (src : SourceDb)
    (dst : TableName → Table Record) :
    (∀ table, ∀ p ∈ ((migrate env src dst).1 table).copied,
        (∃ r, ((migrate env src dst).1 table).table.get? p.2 = some r ∧
          KeepsReferences (migrate env src dst).1 table p r) ↔ ReferencesStay src dst table p.1) ∧
      (PreservesReferences (migrate env src dst).1 ↔
        ∀ table, ∀ p ∈ ((migrate env src dst).1 table).copied,
          ReferencesStay src dst table p.1) := by
  have h := migrate_runEnd env src dst
  have hrow : ∀ table, ∀ p ∈ ((migrate env src dst).1 table).copied,
      (∃ r, ((migrate env src dst).1 table).table.get? p.2 = some r ∧
        KeepsReferences (migrate env src dst).1 table p r) ↔ ReferencesStay src dst table p.1 := by
    intro table p hp
    obtain ⟨r, hget, hiff⟩ := h.follows_iff hp
    constructor
    · rintro ⟨r', hget', hkeeps⟩
      rw [hget] at hget'
      obtain rfl := Option.some.inj hget'
      exact hiff.mp hkeeps.follows
    · intro hstay
      have hfollows := hiff.mpr hstay
      exact ⟨r, hget, hfollows, fun link hlink q hq u hu hnew =>
        exclusive_of_follows h hlink (hfollows link hlink) hq hu hnew⟩
  exact ⟨hrow, forall₂_congr fun table p => forall_congr' fun hp => hrow table p hp⟩

/-- A user of the source. -/
def sourceUser (id : Nat) (email : String) : Record where
  id := id
  values := columns [("email", .text email), ("password_hash", .text "$2b$12$"),
    ("is_active", .int 1), ("is_admin", .int 0), ("token_version", .int 0), ("failed_logins", .int 0),
    ("created_at", .text "2026-01-05 09:00:00"), ("updated_at", .text "2026-01-05 09:00:00")]

/-- The user 2 has been removed. -/
def sourceUsers : Table Record where
  rows := [sourceUser 1 "admin@gov.in", sourceUser 3 "asha@gov.in", sourceUser 4 "ravi@gov.in"]
  nextKey := 5
  sorted := by decide
  bounded := by decide

/-- A job of the user 3. -/
def sourceJobs : Table Record where
  rows := [⟨1, columns [("source_type", .text "domains"), ("cancel_requested", .int 0),
    ("owner_id", .int 3)]⟩]
  nextKey := 2
  sorted := by decide
  bounded := by decide

def gapSource : SourceDb where
  table
    | .users => some sourceUsers
    | .crawlJobs => some sourceJobs
    | .visitedUrls => none
    | _ => some Table.empty
  roleNames := by
    intro t ht
    rw [← Option.some.inj ht]
    exact List.nodup_nil

def currentEnv : MigrationEnv where
  declared := currentTables
  accepts := foreignKeysHold
  loads := fun _ => none

/-- The users 3 and 4 have become 2 and 3, and the job of the user 3 is now one of the user 4. -/
theorem job_changes_owner :
    ¬ PreservesReferences (migrate currentEnv gapSource fun _ => Table.empty).1 := by
  intro hpreserves
  have hjob : ∃ p ∈ ((migrate currentEnv gapSource fun _ => Table.empty).1 .crawlJobs).copied,
      p.1.values "owner_id" = .int 3 ∧
        (((migrate currentEnv gapSource fun _ => Table.empty).1 .crawlJobs).table.get? p.2).map
          (fun r => r.values "owner_id") = some (.int 3) := by decide +kernel
  have huser : ∃ q ∈ ((migrate currentEnv gapSource fun _ => Table.empty).1 .users).copied,
      q.1.cell "id" = .int 4 ∧
        (((migrate currentEnv gapSource fun _ => Table.empty).1 .users).table.get? q.2).map
          (fun u => u.cell "id") = some (.int 3) := by decide +kernel
  obtain ⟨p, hp, howner, hrow⟩ := hjob
  obtain ⟨q, hq, hid, hnumber⟩ := huser
  obtain ⟨r, hget, hkeeps⟩ := hpreserves .crawlJobs p hp
  obtain ⟨u, hu, hcell⟩ := Option.map_eq_some_iff.mp hnumber
  rw [hget] at hrow
  have hsame := hkeeps.exclusive ⟨"owner_id", .users, "id"⟩ (by decide) q hq u hu
    ((Option.some.inj hrow).trans hcell.symm)
  rw [howner, hid] at hsame
  exact absurd hsame (by decide)

/-- Without `visited_urls` among the tables, a run does not get to the end. -/
theorem migrate_raises {env : MigrationEnv} (h : env.declared .visitedUrls = false) (src : SourceDb)
    (dst : TableName → Table Record) : (migrate env src dst).2 ≠ none := by
  intro hnone
  have hstep : StepAt 16 (.copyTable ⟨.visitedUrls, [.crawlJobs], [("job_id", .crawlJobs)], []⟩) :=
    ⟨rfl, by decide⟩
  obtain ⟨before, s, hact⟩ := act_of_execute hnone (List.mem_map_of_mem (List.mem_of_getElem? hstep.get))
  unfold MigrationStep.phase at hact
  dsimp only at hact
  split at hact
  · cases hact
  · rw [if_neg (by rw [MigrationStep.target, h]; exact Bool.false_ne_true)] at hact
    cases hact

end GovCrawler
