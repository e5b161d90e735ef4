/-
The calls that read and write the catalog, one step at a time.

The routes run in the event loop of the server, an import in a thread beside it, or in a process
of its own from the command line.  Every call is taken apart here into its transactions and into
its reads and writes of the `Database` object of its process, in which `_get_netloc_domain_map`
keeps the map that it has built; between any two of them another call may go on, and any of them
may be the one that raises.

What a call does once it is certain which snapshot a lead gets, and whether there is a new lead at
all, is left out: occurrences, the audit, and the seeds and the policy that an agent gets.
-/
import Mathlib.Logic.Function.Basic
import GovCrawler.Jobs.Coordination
import GovCrawler.Leads.Catalog
import GovCrawler.Leads.Landing
import GovCrawler.Lib.ThreadPool

namespace GovCrawler

open Relational ThreadPool

/-! ### Processes -/

/-- What `_get_netloc_domain_map` returns, and how many writes of the catalog there had been when
its rows were queried, which nothing reads. -/
structure NetlocMap where
  entries : List (String × CatalogDomain)
  asOf : Nat

/-- The `Database` object of a process. -/
structure DatabaseObject where
  netlocMapCache : Option NetlocMap := none
  /-- `_netloc_map_lock` is held. -/
  locked : Bool := false

/-- The database, and the processes that use it. -/
structure Portal where
  db : CatalogDb
  objects : Nat → DatabaseObject

def Portal.setObject (s : Portal) (process : Nat) (f : DatabaseObject → DatabaseObject) : Portal :=
  { s with objects := Function.update s.objects process (f (s.objects process)) }

@[simp] theorem setObject_db (s : Portal) (process : Nat) (f : DatabaseObject → DatabaseObject) :
    (s.setObject process f).db = s.db := rfl

theorem setObject_objects (s : Portal) (process : Nat) (f : DatabaseObject → DatabaseObject)
    (q : Nat) :
    (s.setObject process f).objects q = if q = process then f (s.objects q) else s.objects q := by
  show Function.update s.objects process (f (s.objects process)) q = _
  by_cases hq : q = process
  · rw [if_pos hq, hq, Function.update_self]
  · rw [if_neg hq, Function.update_of_ne hq]

/-! ### Calls -/

/-- What a step of a function comes to. -/
inductive Turn (P R : Type)
  | goto (pc : P)
  | returns (r : R)
  | raises

/-! A catalog write. -/

inductive WritePc
  | commit (write : CatalogWrite)
  | invalidate

def Portal.writeStep (s : Portal) (process : Nat) : WritePc → Portal × Turn WritePc Unit
  | .commit write =>
      match s.db.commit write with
      | none => (s, .returns ())
      | some db => ({ s with db := db }, .goto .invalidate)
  | .invalidate => (s.setObject process fun o => { o with netlocMapCache := none }, .returns ())

/-! `create_crawl_snapshot`. -/

inductive SnapshotPc
  | find
  | insert
  /-- Somebody else has inserted the snapshot first. -/
  | findAgain

def CatalogDb.crawlSnapshotStep (db : CatalogDb) (jobId : Nat) (domain : CatalogDomain)
    (isSeed : Bool) : SnapshotPc → CatalogDb × Turn SnapshotPc Nat
  | .find =>
      match db.findSnapshot jobId domain.id with
      | some existing => (db, .returns existing.id)
      | none => (db, .goto .insert)
  | .insert =>
      match db.addSnapshot jobId domain isSeed with
      | some (id, db') => (db', .returns id)
      | none => (db, .goto .findAgain)
  | .findAgain =>
      match db.findSnapshot jobId domain.id with
      | some existing => (db, .returns existing.id)
      | none => (db, .raises)

/-! `coordination_create_job` and `coordination_resume_job`. -/

inductive JobPc
  | create (req : JobCreate) (ownerId : Nat)
  | insertJob (req : JobCreate) (ownerId : Nat) (domains : List CatalogDomain)
  | insertJobDomains (jobId : Nat) (domainIds : List Nat) (domains : List CatalogDomain)
  | resume (jobId : Nat)
  | findJobDomains (jobId : Nat)
  | findDomains (jobId : Nat) (domainIds : List Nat)
  /-- The snapshot of a domain, with `rest` still to come. -/
  | snapshot (jobId : Nat) (domain : CatalogDomain) (rest : List CatalogDomain) (pc : SnapshotPc)

/-- The next domain of a job that has a URL gets a snapshot. -/
def nextSeed (jobId : Nat) : List CatalogDomain → Turn JobPc Unit
  | [] => .returns ()
  | d :: ds =>
      if truthy (orElse d.fields.contactUrl d.fields.mainUrl) then
        .goto (.snapshot jobId d ds .find)
      else nextSeed jobId ds

def CatalogDb.jobStep (db : CatalogDb) : JobPc → CatalogDb × Turn JobPc Unit
  | .create req ownerId =>
      let domains := db.getDomainsByIds req.domainIds
      if req.customUrls.isEmpty && domains.isEmpty then (db, .raises)
      else (db, .goto (.insertJob req ownerId domains))
  | .insertJob req ownerId domains =>
      let sourceType := if req.customUrls.isEmpty then SourceType.domains else SourceType.customUrls
      (db.addJob sourceType req.categoryFilter req.titleFilter (some ownerId) req.agentId,
        if req.customUrls.isEmpty then
          .goto (.insertJobDomains db.jobs.nextKey req.domainIds domains)
        else .returns ())
  | .insertJobDomains jobId domainIds domains =>
      match db.addJobDomains jobId domainIds with
      | none => (db, .raises)
      | some db' => (db', nextSeed jobId domains)
  | .resume jobId =>
      match db.jobs.get? jobId with
      | none => (db, .raises)
      | some job =>
          (db, if job.sourceType = .customUrls || db.hasSeeds jobId then .returns ()
            else .goto (.findJobDomains jobId))
  | .findJobDomains jobId => (db, .goto (.findDomains jobId (db.getJobDomainIds jobId)))
  | .findDomains jobId domainIds => (db, nextSeed jobId (db.getDomainsByIds domainIds))
  | .snapshot jobId domain rest pc =>
      let r := db.crawlSnapshotStep jobId domain true pc
      (r.1, match r.2 with
        | .goto pc => .goto (.snapshot jobId domain rest pc)
        | .returns _ => nextSeed jobId rest
        | .raises => .raises)

/-! `_get_netloc_domain_map`. -/

inductive MapPc
  | look
  | take
  | lock
  | check
  | query
  | store (map : NetlocMap)
  | takeLocked

/-- It is inside the `with self._netloc_map_lock`. -/
def MapPc.holdsLock : MapPc → Bool
  | .check | .query | .store _ | .takeLocked => true
  | .look | .take | .lock => false

/-- What is returned is read again, and can be `None` by then.  `none` is a wait for the lock. -/
def Portal.netlocMapStep (rules : LeadRules) (s : Portal) (process : Nat) :
    MapPc → Option (Portal × Turn MapPc (Option NetlocMap))
  | .look => some (s, .goto (if (s.objects process).netlocMapCache.isSome then .take else .lock))
  | .take => some (s, .returns (s.objects process).netlocMapCache)
  | .lock =>
      if (s.objects process).locked then none
      else some (s.setObject process fun o => { o with locked := true }, .goto .check)
  | .check =>
      some (s, .goto (if (s.objects process).netlocMapCache.isSome then .takeLocked else .query))
  | .query =>
      some (s, .goto (.store ⟨buildNetlocDomainMap rules s.db.domains.rows, s.db.writes⟩))
  | .store map =>
      some (s.setObject process fun o => { o with netlocMapCache := some map }, .goto .takeLocked)
  | .takeLocked =>
      some (s.setObject process fun o => { o with locked := false },
        .returns (s.objects process).netlocMapCache)

/-! `save_lead`. -/

structure SaveCall where
  jobId : Nat
  item : LeadItem

inductive SavePc
  | find
  | map (pc : MapPc)
  | resolve (map : Option NetlocMap)
  | inherit (resolved : CatalogDomain) (asOf : Nat)
  | snapshot (resolved : CatalogDomain) (asOf : Nat) (pc : SnapshotPc)
  | department (snapshotId : Option Nat) (asOf : Nat)
  | insert (snapshotId : Option Nat) (department : Option String) (asOf : Nat)

/-- Whether `resolve_domain_for_url` looks anything up. -/
def looksUp (rules : LeadRules) (sourceUrl : String) (targetSuffixes : List String) : Bool :=
  match rules.netloc sourceUrl with
  | none => false
  | some netloc =>
      let host := removePrefix "www."
        (String.ofList ((rules.lower netloc).toList.takeWhile (· ≠ ':')))
      if host = "" then false
      else
        match (host.toList.splitOn '.').map String.ofList with
        | label :: label' :: labels =>
            !(targetSuffixes.map (lstrip '.')).contains (".".intercalate (label :: label' :: labels))
        | _ => false

/-- `resolve_domain_for_url`, which raises if it is to look something up in `None`. -/
def resolveIn (rules : LeadRules) (sourceUrl : String) (targetSuffixes : List String) :
    Option NetlocMap → Except LeadExc (Option CatalogDomain)
  | some map => .ok (resolveDomainForUrl rules sourceUrl map.entries targetSuffixes)
  | none => if looksUp rules sourceUrl targetSuffixes then .error .attributeError else .ok none

/-- The domain of the snapshot that came with the item. -/
def CatalogDb.inheritedOf (db : CatalogDb) (item : LeadItem) : Option Nat :=
  item.snapshotId.bind fun k => (db.snapshots.get? k).bind fun row => row.sourceDomainId

/-- The lead of the email is enriched, if there is one. -/
def CatalogDb.enrichLead (db : CatalogDb) (rules : LeadRules) (item : LeadItem) :
    Option CatalogDb :=
  (db.leads.first? fun l => l.email == storedEmail rules item).map fun lead =>
    { db with
      leads :=
        if changes lead item then
          db.leads.updateWhere (fun l => l.id == lead.id) (Lead.enrich rules.weights item)
            (Lead.enrich_id rules item)
        else db.leads }

def Portal.saveStep (rules : LeadRules) (s : Portal) (process : Nat) (call : SaveCall) :
    SavePc → Option (Portal × Turn SavePc Bool)
  | .find =>
      match s.db.enrichLead rules call.item with
      | some db => some ({ s with db := db }, .returns true)
      | none => some (s, .goto (.map .look))
  | .map pc =>
      (s.netlocMapStep rules process pc).map fun r => (r.1, match r.2 with
        | .goto pc => .goto (.map pc)
        | .returns map => .goto (.resolve map)
        | .raises => .raises)
  | .resolve map =>
      let asOf := (map.map NetlocMap.asOf).getD s.db.writes
      some (s, match resolveIn rules call.item.sourceUrl s.db.targetSuffixes map with
        | .error _ => .raises
        | .ok none => .goto (.department none asOf)
        | .ok (some resolved) => .goto (.inherit resolved asOf))
  | .inherit resolved asOf =>
      some (s, .goto
        (if some resolved.id = s.db.inheritedOf call.item then .department call.item.snapshotId asOf
        else .snapshot resolved asOf .find))
  | .snapshot resolved asOf pc =>
      let r := s.db.crawlSnapshotStep call.jobId resolved false pc
      some ({ s with db := r.1 }, match r.2 with
        | .goto pc => .goto (.snapshot resolved asOf pc)
        | .returns id => .goto (.department (some id) asOf)
        | .raises => .raises)
  | .department none asOf => some (s, .goto (.insert none call.item.department asOf))
  | .department (some k) asOf =>
      some (s, match departmentIsUrlFallback rules call.item.fieldProvenance with
        | .error _ => .raises
        | .ok fallback =>
            let title := (s.db.snapshots.get? k).bind fun row => row.fields.title
            .goto (.insert (some k)
              (if fallback && truthy title then title else call.item.department) asOf))
  | .insert snapshotId department _ =>
      match s.db.addLead rules call.jobId call.item (storedEmail rules call.item) snapshotId
          department with
      | none => some (s, .returns false)
      | some db => some ({ s with db := db }, .returns true)

/-! ### Runs -/

/-- Where a call is. -/
inductive CatalogPc
  | finished
  | write (pc : WritePc)
  | job (pc : JobPc)
  | save (call : SaveCall) (pc : SavePc)

/-- Where a call is after a step of its function. -/
def Turn.catalogPc {P R : Type} (f : P → CatalogPc) : Turn P R → CatalogPc
  | .goto pc => f pc
  | .returns _ | .raises => .finished

/-- One step of a call; `none` if it has to wait, or is over. -/
def Portal.step (rules : LeadRules) (s : Portal) (process : Nat) : CatalogPc → Option (Portal × CatalogPc)
  | .finished => none
  | .write pc =>
      let r := s.writeStep process pc
      some (r.1, r.2.catalogPc .write)
  | .job pc =>
      let r := s.db.jobStep pc
      some ({ s with db := r.1 }, r.2.catalogPc .job)
  | .save call pc =>
      (s.saveStep rules process call pc).map fun r => (r.1, r.2.catalogPc (.save call))

/-- A call, in one of the processes. -/
structure CatalogCall where
  process : Nat
  pc : CatalogPc

def CatalogCall.next (rules : LeadRules) (s : Portal) (c : CatalogCall) :
    Option (Portal × CatalogCall) :=
  (s.step rules c.process c.pc).map fun r => (r.1, { c with pc := r.2 })

/-- Whatever the call does next raises; a `with` gives the lock back. -/
def CatalogCall.abort (s : Portal) (c : CatalogCall) : Option (Portal × CatalogCall) :=
  match c.pc with
  | .finished => none
  | .save _ (.map pc) =>
      some (if pc.holdsLock then s.setObject c.process fun o => { o with locked := false } else s,
        { c with pc := .finished })
  | _ => some (s, { c with pc := .finished })

/-- What is called, by a route that has let it through. -/
inductive CatalogRequest
  | write (write : CatalogWrite)
  | createJob (req : JobCreate) (ownerId : Nat)
  | resumeJob (jobId : Nat)
  | saveLead (call : SaveCall)

/-- How a call begins. -/
def CatalogRequest.begin : CatalogRequest → CatalogPc
  | .write w => .write (.commit w)
  | .createJob req ownerId => .job (.create req ownerId)
  | .resumeJob jobId => .job (.resume jobId)
  | .saveLead call =>
      if call.item.unexpected.isEmpty && truthy call.item.email then .save call .find else .finished

inductive CatalogAction
  | call (process : Nat) (request : CatalogRequest)
  | advance (i : Nat)
  | abort (i : Nat)
  /-- The process ends, with the calls in it, and starts again. -/
  | restart (process : Nat)

/-- The portal and all calls so far. -/
abbrev PortalRun : Type := Pool Portal CatalogCall

/-- A call that is in the process ends with it. -/
def CatalogCall.endedIn (process : Nat) (c : CatalogCall) : CatalogCall :=
  if c.process = process then { c with pc := .finished } else c

/-- The process and the calls in it are gone. -/
def PortalRun.restart (s : PortalRun) (process : Nat) : PortalRun :=
  s.replace (s.shared.setObject process fun _ => {}) (CatalogCall.endedIn process)

def PortalRun.step (rules : LeadRules) (s : PortalRun) : CatalogAction → Option PortalRun
  | .call process request => some (s.spawn ⟨process, request.begin⟩)
  | .advance i => s.advance (CatalogCall.next rules) i
  | .abort i => s.advance CatalogCall.abort i
  | .restart process => some (PortalRun.restart s process)

end GovCrawler
