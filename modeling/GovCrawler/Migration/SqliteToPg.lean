/-
The move of a database from SQLite to Postgres, `scripts/migrate_sqlite_to_pg.py`.

The script runs in one transaction on the target.  It takes the tables in a fixed order, and
each step fills one of them; rows get new numbers, and the columns that a step is told of are
changed to the new numbers of what they name.  A statement that the target refuses, a table
that the source does not have and one that `Base.metadata` does not declare all raise, which
rolls the transaction back.

What `verify` counts is only logged, and is left out, like the row counts of the log.
-/
import GovCrawler.Lib.Phases
import GovCrawler.Lib.Renumbering
import GovCrawler.Settings.Values

namespace GovCrawler

open Relational Phases Renumbering

/-! ### Tables -/

/-- A value of a column. -/
inductive Datum
  | null
  | int (n : Int)
  | real (x : Json.Double)
  | text (s : String)
  | blob (bytes : List UInt8)
  deriving DecidableEq, Repr

/-- `dict(row)`, without the `id`.  A column that the row does not have reads as `None`. -/
abbrev Row := String → Datum

def columns (values : List (String × Datum)) : Row := fun column => (values.lookup column).getD .null

/-- In a table without an `id` of its own, `id` is the number that the database gives the row. -/
structure Record where
  id : Nat
  values : Row

instance : Keyed Record := ⟨Record.id⟩

/-- `row[column]`. -/
def Record.cell (r : Record) (column : String) : Datum :=
  if column = "id" then .int r.id else r.values column

inductive TableName
  | roles | permissions | rolePermissions | users | userPermissions | userSessions | auditLog
  | domains | crawlJobs | crawlJobDomains | jobCustomUrls | crawlSnapshots
  | leads | leadOccurrences
  | emailTemplates | smtpCredentials | oauthPendingFlows | campaigns | campaignCredentials
  | campaignEmails | blacklist
  | appSettings | categories | orgTypes
  /-- Dropped by revision 0023. -/
  | visitedUrls
  deriving DecidableEq, Repr

structure Link where
  column : String
  table : TableName
  key : String
  deriving DecidableEq, Repr

/-- The columns declared with `ForeignKey`. -/
def foreignKeys : TableName → List Link
  | .users => [⟨"role_id", .roles, "id"⟩, ⟨"created_by", .users, "id"⟩]
  | .rolePermissions => [⟨"role_id", .roles, "id"⟩, ⟨"permission_key", .permissions, "key"⟩]
  | .userPermissions => [⟨"user_id", .users, "id"⟩, ⟨"permission_key", .permissions, "key"⟩]
  | .userSessions => [⟨"user_id", .users, "id"⟩]
  | .auditLog => [⟨"user_id", .users, "id"⟩]
  | .crawlSnapshots => [⟨"job_id", .crawlJobs, "id"⟩]
  | .crawlJobs => [⟨"owner_id", .users, "id"⟩]
  | .crawlJobDomains => [⟨"job_id", .crawlJobs, "id"⟩, ⟨"domain_id", .domains, "id"⟩]
  | .jobCustomUrls => [⟨"job_id", .crawlJobs, "id"⟩]
  | .leads => [⟨"job_id", .crawlJobs, "id"⟩, ⟨"snapshot_id", .crawlSnapshots, "id"⟩]
  | .leadOccurrences => [⟨"lead_id", .leads, "id"⟩, ⟨"job_id", .crawlJobs, "id"⟩,
      ⟨"captured_by", .users, "id"⟩]
  | .oauthPendingFlows => [⟨"credential_id", .smtpCredentials, "id"⟩]
  | .campaigns => [⟨"template_id", .emailTemplates, "id"⟩,
      ⟨"test_credential_id", .smtpCredentials, "id"⟩, ⟨"owner_id", .users, "id"⟩]
  | .campaignCredentials => [⟨"campaign_id", .campaigns, "id"⟩,
      ⟨"credential_id", .smtpCredentials, "id"⟩]
  | .campaignEmails => [⟨"campaign_id", .campaigns, "id"⟩, ⟨"lead_id", .leads, "id"⟩,
      ⟨"credential_id", .smtpCredentials, "id"⟩]
  | .appSettings => [⟨"updated_by", .users, "id"⟩]
  -- as revision 0000 has made the table
  | .visitedUrls => [⟨"job_id", .crawlJobs, "id"⟩]
  | .roles | .permissions | .domains | .emailTemplates | .smtpCredentials | .blacklist
  | .categories | .orgTypes => []

/-- What a foreign key constraint of the target checks of a row. -/
def foreignKeysHold (tables : TableName → Table Record) (table : TableName) (values : Row) : Bool :=
  (foreignKeys table).all fun link => values link.column == .null ||
    (tables link.table).rows.any fun r => r.cell link.key == values link.column

/-- The source: no two roles of one name. -/
structure SourceDb where
  table : TableName → Option (Table Record)
  roleNames : ∀ t, table .roles = some t → (t.rows.map fun r => r.values "name").Nodup

def SourceDb.rows (src : SourceDb) (table : TableName) : List Record :=
  (src.table table).elim [] Table.rows

inductive MigrationError
  | noSuchTable (table : TableName)
  | keyError (table : TableName)
  | refused (table : TableName)
  /-- A JSON array or object, looked up in a dictionary. -/
  | unhashable
  deriving DecidableEq, Repr

/-- The tables in `Base.metadata`, which rows the target accepts given what its tables hold, and
`json.loads`. -/
structure MigrationEnv where
  declared : TableName → Bool
  accepts : (TableName → Table Record) → TableName → Row → Bool
  loads : Datum → Option Json.Value

/-- The tables of `cloud/db/tables`. -/
def currentTables (table : TableName) : Bool := table != .visitedUrls

/-- The tables of the target, and which of its rows stand for which rows of the source. -/
abbrev Transfers := TableName → Transfer Record Record

/-! ### Old and new numbers -/

abbrev IdMap := List (Datum × Nat)

/-- `id_map`. -/
def idMap (copied : List (Record × Nat)) : IdMap := copied.map fun p => (.int p.1.id, p.2)

/-- The new value of a column, unless it is `None` or what it names has none. -/
def mapped (ids : IdMap) (old : Datum) : Option Datum :=
  if old = .null then none else (ids.lookup old).map fun n => .int n

/-- `SELECT * FROM table`. -/
def SourceDb.select (src : SourceDb) (table : TableName) : Except MigrationError (Table Record) :=
  match src.table table with
  | some t => .ok t
  | none => .error (.noSuchTable table)

/-- The inserts into a table, in the middle of the transaction. -/
def inserts (env : MigrationEnv) (store : Transfers) (table : TableName) {A : Type}
    (verdict : Table Record → A → Verdict Row) : Copier A Row Record MigrationError where
  verdict := verdict
  make := fun values n => ⟨n, values⟩
  key_make := fun _ _ => rfl
  accepts := fun t values =>
    env.accepts (Function.update (fun other => (store other).table) table t) table values
  refusal := .refused table

/-- The updates of a column of a table. -/
def setColumn (env : MigrationEnv) (store : Transfers) (table : TableName) (column : String) :
    List (Nat × Datum) → Table Record → Except MigrationError (Table Record) :=
  Renumbering.assign (fun v r => { r with values := Function.update r.values column v })
    (fun _ _ => rfl)
    (fun t r => env.accepts (Function.update (fun other => (store other).table) table t) table r.values)
    (.refused table)

/-! ### `copy_table` -/

/-- A call of `copy_table`: for which tables `id_maps` has an entry, `fk_map` and `soft_fk`. -/
structure CopyCall where
  table : TableName
  idMaps : List TableName
  fkMap : List (String × TableName)
  softFk : List String
  deriving DecidableEq, Repr

/-- The loop over `fk_map`; `none` if the row is skipped. -/
def remap (idMaps : List (TableName × IdMap)) (softFk : List String) :
    List (String × TableName) → Row → Option Row
  | [], values => some values
  | (col, refTable) :: rest, values =>
      if values col = .null then remap idMaps softFk rest values
      else
        match ((idMaps.lookup refTable).getD []).lookup (values col) with
        | some n => remap idMaps softFk rest (Function.update values col (.int n))
        | none =>
            if col ∈ softFk then remap idMaps softFk rest (Function.update values col .null)
            else none

def CopyCall.verdict (call : CopyCall) (idMaps : List (TableName × IdMap)) (row : Record) :
    Verdict Row :=
  match remap idMaps call.softFk call.fkMap row.values with
  | some values => .insert values
  | none => .leave

def copyTable (env : MigrationEnv) (call : CopyCall) (store : Transfers) (source : Table Record) :
    Except MigrationError (Transfer Record Record) :=
  let idMaps := call.idMaps.map fun table => (table, idMap (store table).copied)
  (inserts env store call.table fun _ => call.verdict idMaps).transfer (store call.table).table
    source.rows

/-! ### The tables that are copied in another way -/

/-- A row stands for another that has the same natural key; if none did before, a copy does. -/
def matchByKey (env : MigrationEnv) (table : TableName) (keyCol : String) (store : Transfers)
    (source : Table Record) : Except MigrationError (Transfer Record Record) :=
  let existing := (store table).table
  (inserts env store table fun _ row =>
    match existing.first? fun r => r.values keyCol == row.values keyCol with
    | some r => .stands r.id
    | none => .insert row.values).transfer existing source.rows

/-- `copy_roles`: names are unique, on the target too. -/
def copyRoles (env : MigrationEnv) : Transfers → Table Record →
    Except MigrationError (Transfer Record Record) := matchByKey env .roles "name"

def copyNaturalKeyTable (env : MigrationEnv) (table : TableName) (keyCol : String) : Transfers →
    Table Record → Except MigrationError (Transfer Record Record) :=
  matchByKey env table keyCol

/-- `=` in SQL. -/
def sqlEq (a b : Datum) : Bool := a != .null && a == b

def rolePermissionVerdict (roleIdMap : IdMap) (table : Table Record) (row : Record) : Verdict Row :=
  match roleIdMap.lookup (row.values "role_id") with
  | none => .leave
  | some newRoleId =>
      match table.first? fun r => sqlEq (r.values "role_id") (.int newRoleId) &&
          sqlEq (r.values "permission_key") (row.values "permission_key") with
      | some r => .stands r.id
      | none => .insert (Function.update row.values "role_id" (.int newRoleId))

def copyRolePermissions (env : MigrationEnv) (store : Transfers) (source : Table Record) :
    Except MigrationError (Transfer Record Record) :=
  (inserts env store .rolePermissions (rolePermissionVerdict (idMap (store .roles).copied))).transfer
    (store .rolePermissions).table source.rows

/-- The first pass of `copy_users`. -/
def insertUsers (env : MigrationEnv) (store : Transfers) (source : Table Record) :
    Except MigrationError (Transfer Record Record) :=
  (inserts env store .users fun _ row =>
    .insert (Function.update row.values "created_by" .null)).transfer (store .users).table source.rows

/-- The second pass. -/
def setCreatedBy (env : MigrationEnv) (store : Transfers) (s : Transfer Record Record) :
    Except MigrationError (Table Record) :=
  setColumn env store .users "created_by" (s.copied.filterMap fun p =>
    (mapped (idMap s.copied) (p.1.values "created_by")).map fun v => (p.2, v)) s.table

/-- The pass over `users.role_id`, which reads the source again. -/
def setRoles (env : MigrationEnv) (store : Transfers) (source : Table Record)
    (copied : List (Record × Nat)) : Table Record → Except MigrationError (Table Record) :=
  setColumn env store .users "role_id" (copied.filterMap fun p =>
    ((source.get? p.1.id).bind fun row =>
      mapped (idMap (store .roles).copied) (row.values "role_id")).map fun v => (p.2, v))

/-- `copy_users`, and the pass over `role_id` that follows it. -/
def copyUsers (env : MigrationEnv) (store : Transfers) (source : Table Record) :
    Except MigrationError (Transfer Record Record) :=
  match insertUsers env store source with
  | .error e => .error e
  | .ok s =>
      match setCreatedBy env store s with
      | .error e => .error e
      | .ok t =>
          match setRoles env store source s.copied t with
          | .error e => .error e
          | .ok t => .ok ⟨t, s.copied⟩

/-- A JSON value as the key of a dictionary, where `True` is `1` and `1.0` is `1`. -/
def hashed : Json.Value → Except MigrationError Datum
  | .null => .ok .null
  | .bool b => .ok (.int (if b then 1 else 0))
  | .int n => .ok (.int n)
  | .float (.finite q) => .ok (if q.den = 1 then .int q.num else .real (.finite q))
  | .float x => .ok (.real x)
  | .str s => .ok (.text s)
  | .list _ | .dict _ => .error .unhashable

/-- `domain_ids or "[]"`. -/
def orEmptyList (domainIds : Datum) : Datum :=
  if domainIds = .text "" ∨ domainIds = .int 0 ∨ domainIds = .real (.finite 0) ∨
    domainIds = .blob [] then .text "[]" else domainIds

/-- What the list of a job says, or nothing if it cannot be read. -/
def listedDomains (env : MigrationEnv) (domainIds : Datum) : List Json.Value :=
  if domainIds = .null then []
  else ((env.loads (orEmptyList domainIds)).bind iterate).getD []

/-- The rows of `crawl_job_domains`, from the table or from the lists of the jobs. -/
def jobDomainRows (env : MigrationEnv) (src : SourceDb) (source : Table Record) :
    Except MigrationError (List Record) :=
  if source.rows = [] then
    match src.select .crawlJobs with
    | .error e => .error e
    | .ok jobs => (jobs.rows.flatMap fun job => (listedDomains env (job.values "domain_ids")).map
        fun d => (job.id, d)).mapM fun p => (hashed p.2).map fun d =>
          ⟨p.1, columns [("job_id", .int p.1), ("domain_id", d)]⟩
  else .ok (source.rows.map fun r =>
    ⟨r.id, columns [("job_id", r.values "job_id"), ("domain_id", r.values "domain_id")]⟩)

def jobDomainVerdict (jobIdMap domainIdMap : IdMap) (row : Record) : Verdict Row :=
  match jobIdMap.lookup (row.values "job_id"), domainIdMap.lookup (row.values "domain_id") with
  | some job, some domain => .insert (columns [("job_id", .int job), ("domain_id", .int domain)])
  | _, _ => .leave

def backfillJobDomains (env : MigrationEnv) (src : SourceDb) (store : Transfers)
    (source : Table Record) : Except MigrationError (Transfer Record Record) :=
  match jobDomainRows env src source with
  | .error e => .error e
  | .ok rows => (inserts env store .crawlJobDomains fun _ => jobDomainVerdict
      (idMap (store .crawlJobs).copied) (idMap (store .domains).copied)).transfer
        (store .crawlJobDomains).table rows

/-- One of the four rounds of `seed_lookups_from_domains`.  What it inserts stands for no row of
the source. -/
def seedLookups (env : MigrationEnv) (lookup : TableName) (codeCol titleCol : String)
    (store : Transfers) (source : Table Record) : Except MigrationError (Transfer Record Record) :=
  let pairs := ((source.rows.map fun r => (r.values codeCol, r.values titleCol)).filter
    fun p => p.1 ≠ .null).dedup
  ((inserts env store lookup fun t p =>
    if t.rows.any (fun r => r.values "code" == p.1) || p.2 == .null then .leave
    else .insert (columns [("code", p.1), ("title", p.2)])).transfer (store lookup).table pairs).map
      fun s => ⟨s.table, (store lookup).copied⟩

/-! ### `migrate` -/

inductive MigrationStep
  | seedLookups (lookup source : TableName) (codeCol titleCol : String)
  | copyRoles
  | copyNaturalKeyTable (table : TableName) (keyCol : String)
  | copyRolePermissions
  | copyUsers
  | copyTable (call : CopyCall)
  | backfillJobDomains
  deriving DecidableEq, Repr

/-- The steps, in the order of the script. -/
def migrationSteps : List MigrationStep := [
  .seedLookups .categories .domains "category_code" "category_title",
  .seedLookups .orgTypes .domains "org_type" "org_type_title",
  .seedLookups .categories .crawlSnapshots "category_code" "category_title",
  .seedLookups .orgTypes .crawlSnapshots "org_type" "org_type_title",
  .copyRoles,
  .copyNaturalKeyTable .permissions "key",
  .copyRolePermissions,
  .copyUsers,
  .copyTable ⟨.userPermissions, [.users], [("user_id", .users)], []⟩,
  .copyTable ⟨.userSessions, [.users], [("user_id", .users)], []⟩,
  .copyTable ⟨.auditLog, [.users], [("user_id", .users)], ["user_id"]⟩,
  .copyTable ⟨.domains, [], [], []⟩,
  .copyTable ⟨.crawlJobs, [], [], []⟩,
  .backfillJobDomains,
  .copyTable ⟨.jobCustomUrls, [.crawlJobs], [("job_id", .crawlJobs)], []⟩,
  .copyTable ⟨.crawlSnapshots, [.crawlJobs, .domains],
    [("job_id", .crawlJobs), ("source_domain_id", .domains)], ["source_domain_id"]⟩,
  .copyTable ⟨.visitedUrls, [.crawlJobs], [("job_id", .crawlJobs)], []⟩,
  .copyTable ⟨.leads, [.crawlJobs, .domains, .crawlSnapshots],
    [("job_id", .crawlJobs), ("domain_id", .domains), ("snapshot_id", .crawlSnapshots)],
    ["domain_id", "snapshot_id"]⟩,
  .copyTable ⟨.emailTemplates, [], [], []⟩,
  .copyTable ⟨.smtpCredentials, [], [], []⟩,
  .copyTable ⟨.campaigns, [.emailTemplates], [("template_id", .emailTemplates)], ["template_id"]⟩,
  .copyTable ⟨.campaignCredentials, [.campaigns, .smtpCredentials],
    [("campaign_id", .campaigns), ("credential_id", .smtpCredentials)], []⟩,
  .copyTable ⟨.campaignEmails, [.campaigns, .leads, .smtpCredentials],
    [("campaign_id", .campaigns), ("lead_id", .leads), ("credential_id", .smtpCredentials)],
    ["credential_id"]⟩,
  .copyTable ⟨.blacklist, [], [], []⟩]

/-- The table that a step fills. -/
def MigrationStep.target : MigrationStep → TableName
  | .seedLookups lookup _ _ _ => lookup
  | .copyRoles => .roles
  | .copyNaturalKeyTable table _ => table
  | .copyRolePermissions => .rolePermissions
  | .copyUsers => .users
  | .copyTable call => call.table
  | .backfillJobDomains => .crawlJobDomains

/-- The table that a step reads. -/
def MigrationStep.source : MigrationStep → TableName
  | .seedLookups _ source _ _ => source
  | step => step.target

/-- What a step does with the rows of the source. -/
def MigrationStep.body (env : MigrationEnv) (src : SourceDb) : MigrationStep → Transfers →
    Table Record → Except MigrationError (Transfer Record Record)
  | .seedLookups lookup _ codeCol titleCol => GovCrawler.seedLookups env lookup codeCol titleCol
  | .copyRoles => GovCrawler.copyRoles env
  | .copyNaturalKeyTable table keyCol => GovCrawler.copyNaturalKeyTable env table keyCol
  | .copyRolePermissions => GovCrawler.copyRolePermissions env
  | .copyUsers => GovCrawler.copyUsers env
  | .copyTable call => GovCrawler.copyTable env call
  | .backfillJobDomains => GovCrawler.backfillJobDomains env src

/-- The rows are counted, the table is looked up in `Base.metadata.tables`, and the rows are read. -/
def MigrationStep.phase (env : MigrationEnv) (src : SourceDb) (step : MigrationStep) :
    Phase TableName (Transfer Record Record) MigrationError where
  target := step.target
  act := fun store =>
    match src.select step.source with
    | .error e => .error e
    | .ok source =>
        if env.declared step.target then step.body env src store source
        else .error (.keyError step.target)

/-- The transaction as it stands when `migrate` ends, and what has ended it early.  An error rolls
it back. -/
def migrate (env : MigrationEnv) (src : SourceDb) (dst : TableName → Table Record) :
    Transfers × Option MigrationError :=
  execute (migrationSteps.map (MigrationStep.phase env src)) fun table => ⟨dst table, []⟩

end GovCrawler
