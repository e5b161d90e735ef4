/-
Crawl jobs, their seeds and the catalog, and the writes of `cloud/db/mixins/job_mixin.py`
and `crawl_snapshot_mixin.py`.

The rows extend those that `save_lead` reads by the columns that the coordination routes
read and write; counters that are only displayed, and what a snapshot copies of a domain
besides its title and its URLs, are left out.
-/
import GovCrawler.Leads.SaveLead

namespace GovCrawler

open Relational

/-! ### Tables -/

/-- `JobStatus`; the column holds its value. -/
inductive JobStatus
  | pending
  | running
  | done
  | failed
  | cancelled
  | interrupted
  | manualUpload
  deriving DecidableEq, Repr

def JobStatus.value : JobStatus → String
  | .pending => "pending"
  | .running => "running"
  | .done => "done"
  | .failed => "failed"
  | .cancelled => "cancelled"
  | .interrupted => "interrupted"
  | .manualUpload => "manual_upload"

def terminalStatuses : List String :=
  [JobStatus.done.value, JobStatus.failed.value, JobStatus.cancelled.value]

inductive SourceType
  | domains
  | customUrls
  deriving DecidableEq, Repr

/-- The metrics of a heartbeat. -/
structure Metrics where
  queuedUrls : Nat := 0
  visitedUrls : Nat := 0
  skippedUrls : Nat := 0
  leadsFound : Nat := 0
  crawledDomains : Nat := 0
  currentDepth : Nat := 0
  activeWorkers : Nat := 0
  deriving DecidableEq, Repr

structure JobRow extends CrawlJob where
  sourceType : SourceType
  categoryFilter : Option String := none
  titleFilter : Option String := none
  status : String := JobStatus.pending.value
  cancelRequested : Bool := false
  agentHostname : Option String := none
  errorMessage : Option String := none
  metrics : Metrics := {}
  lastHeartbeatAt : Option Time := none
  startedAt : Option Time := none
  finishedAt : Option Time := none
  deriving DecidableEq, Repr

structure DomainRow extends Domain where
  mainUrl : Option String
  contactUrl : Option String
  deriving DecidableEq, Repr

structure SnapshotRow extends CrawlSnapshot where
  mainUrl : Option String
  contactUrl : Option String
  isSeed : Bool
  deriving DecidableEq, Repr

structure JobCustomUrl where
  id : Nat
  jobId : Nat
  url : String
  deriving DecidableEq, Repr

structure CrawlJobDomain where
  jobId : Nat
  domainId : Nat
  deriving DecidableEq, Repr

instance : Keyed JobRow := ⟨fun j => j.id⟩
instance : Keyed DomainRow := ⟨fun d => d.id⟩
instance : Keyed SnapshotRow := ⟨fun s => s.id⟩
instance : Keyed JobCustomUrl := ⟨JobCustomUrl.id⟩

structure CoordDb where
  domains : Table DomainRow := Table.empty
  jobs : Table JobRow := Table.empty
  jobDomains : List CrawlJobDomain := []
  customUrls : Table JobCustomUrl := Table.empty
  snapshots : Table SnapshotRow := Table.empty

namespace CoordDb

variable (db : CoordDb)

/-- `UPDATE crawl_jobs SET … WHERE id = job_id`. -/
def updateJob (jobId : Nat) (f : JobRow → JobRow) (hf : ∀ j, (f j).id = j.id := by intro _; rfl) :
    CoordDb :=
  { db with jobs := db.jobs.updateWhere (fun j => j.id == jobId) f hf }

/-! ### `job_mixin.py` -/

/-- The first half of `create_job`: the job is committed by itself. -/
def addJob (sourceType : SourceType) (categoryFilter titleFilter : Option String)
    (ownerId : Option Nat) (agentId : Option String) : CoordDb :=
  { db with
    jobs := db.jobs.insertNew fun id =>
      { id := id, ownerId := ownerId, sourceType := sourceType, categoryFilter := categoryFilter
        titleFilter := titleFilter, agentHostname := agentId } }

/-- The second half: `(job_id, domain_id)` is the primary key, and the domain has to be there. -/
def addJobDomains (jobId : Nat) (domainIds : List Nat) : Option CoordDb :=
  if domainIds.Nodup ∧ ∀ d ∈ domainIds, (db.domains.get? d).isSome then
    some { db with jobDomains := db.jobDomains ++ domainIds.map fun d => ⟨jobId, d⟩ }
  else none

def getJobDomainIds (jobId : Nat) : List Nat :=
  (db.jobDomains.filter fun r => r.jobId == jobId).map CrawlJobDomain.domainId

/-- The URLs differ, as the unique constraint wants. -/
def addJobCustomUrls (jobId : Nat) (urls : List String) : CoordDb :=
  { db with customUrls := urls.foldl (fun t url => t.insertNew fun id => ⟨id, jobId, url⟩) db.customUrls }

/-- The URLs of the rows that `get_job_custom_urls` returns. -/
def getJobCustomUrls (jobId : Nat) : List String :=
  (db.customUrls.select fun r => r.jobId == jobId).map JobCustomUrl.url

def startJob (jobId : Nat) (now : Time) : CoordDb :=
  db.updateJob jobId fun j => { j with status := "running", startedAt := some now }

def finishJob (jobId : Nat) (status : String) (error : Option String) (now : Time) : CoordDb :=
  match db.jobs.get? jobId with
  | none => db
  | some job =>
      if terminalStatuses.contains job.status then db
      else
        db.updateJob jobId fun j =>
          { j with status := status, finishedAt := some now, errorMessage := error }

def setCancelRequested (jobId : Nat) : CoordDb :=
  db.updateJob jobId fun j => { j with cancelRequested := true }

/-- `heartbeat`, with the `cancel_requested` that it returns. -/
def heartbeat (jobId : Nat) (metrics : Metrics) (now : Time) : Bool × CoordDb :=
  let revived := (db.jobs.get? jobId).any fun j => j.status == JobStatus.interrupted.value
  let db' := db.updateJob jobId fun j =>
    { j with
      metrics := metrics
      lastHeartbeatAt := some now
      status := if revived then JobStatus.running.value else j.status }
  ((db'.jobs.get? jobId).any JobRow.cancelRequested, db')

/-- A running job that has been silent since `cutoff`; a comparison with `NULL` does not hold. -/
def stale (cutoff : Time) (j : JobRow) : Bool :=
  j.status == JobStatus.running.value &&
    match j.lastHeartbeatAt with
    | some beat => decide (beat < cutoff)
    | none => j.startedAt.any fun started => decide (started < cutoff)

def reapStaleJobs (threshold now : Time) : CoordDb :=
  let ids := (db.jobs.select (stale (now - threshold))).map fun j => j.id
  { db with
    jobs := db.jobs.updateWhere (fun j => ids.contains j.id)
      fun j => { j with status := JobStatus.interrupted.value } }

def resumeJob (jobId : Nat) : CoordDb :=
  db.updateJob jobId fun j =>
    { j with status := JobStatus.running.value, cancelRequested := false }

def claimOrVerifyJobAgent (jobId : Nat) (agentId : String) : Bool × CoordDb :=
  match db.jobs.get? jobId with
  | none => (false, db)
  | some job =>
      match job.agentHostname with
      | none => (true, db.updateJob jobId fun j => { j with agentHostname := some agentId })
      | some owner => (owner == agentId, db)

/-! ### `crawl_snapshot_mixin.py` -/

def findSnapshot (jobId domainId : Nat) : Option SnapshotRow :=
  db.snapshots.first? fun s => s.jobId == jobId && s.sourceDomainId == some domainId

/-- `create_crawl_snapshot`, of a job that is there. -/
def createCrawlSnapshot (jobId : Nat) (domain : DomainRow) (isSeed : Bool) : Nat × CoordDb :=
  match db.findSnapshot jobId domain.id with
  | some snapshot => (snapshot.id, db)
  | none =>
      (db.snapshots.nextKey, { db with
        snapshots := db.snapshots.insertNew fun id =>
          { id := id, jobId := jobId, sourceDomainId := some domain.id, title := domain.title
            mainUrl := domain.mainUrl, contactUrl := domain.contactUrl, isSeed := isSeed } })

/-- `get_crawl_snapshots`. -/
def getCrawlSnapshots (jobId : Nat) (seedsOnly : Bool) : List SnapshotRow :=
  db.snapshots.select fun s => s.jobId == jobId && (!seedsOnly || s.isSeed)

end CoordDb

end GovCrawler
