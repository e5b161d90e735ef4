/-
The job routes of `cloud/api/coordination.py`, and the system they make up with the
reaper.

A route runs from its first statement to its last without an `await`, so requests and
sweeps come one after the other.  What every one of them found, answered and left is kept
in a history, so that a result about all runs can speak about what happened in them.
-/
import GovCrawler.Jobs.Tables
import GovCrawler.Lib.Transition
import Mathlib.Data.List.Perm.Basic

namespace GovCrawler

open Relational

/-! ### Settings -/

/-- A value in a dict of settings. -/
inductive Setting
  | num (n : Int)
  | texts (xs : List String)
  /-- Anything else, as its JSON. -/
  | other (json : String)
  deriving DecidableEq, Repr

/-- A dict of settings, in insertion order. -/
abbrev Settings : Type := List (String × Setting)

namespace Settings

/-- `d[key] = value`. -/
def setItem (key : String) (value : Setting) : Settings → Settings
  | [] => [(key, value)]
  | p :: d => if p.1 = key then (key, value) :: d else p :: setItem key value d

/-- `{**d, **e}`. -/
def merge (d e : Settings) : Settings := e.foldl (fun d p => setItem p.1 p.2 d) d

end Settings

/-- The configuration and the stored crawl policy.  `netloc` is `urlsplit(url).netloc`, `none`
where `urlsplit` raises. -/
structure CoordConfig where
  netloc : String → Option String
  crawler : Settings
  extraction : Settings := []
  storedCrawler : Settings := []
  storedExtraction : Settings := []
  weights : ScoreWeights := {}

structure CrawlPolicy where
  crawler : Settings
  extraction : Settings
  weights : ScoreWeights
  deriving DecidableEq, Repr

/-- `_build_crawl_policy`. -/
def buildCrawlPolicy (config : CoordConfig) (stripTargetSuffixes : Bool) : CrawlPolicy :=
  let crawler := Settings.merge config.crawler config.storedCrawler
  { crawler :=
      if stripTargetSuffixes then Settings.setItem "target_suffixes" (.texts []) crawler
      else crawler
    extraction := if config.storedExtraction.isEmpty then config.extraction else config.storedExtraction
    weights := config.weights }

/-! ### Custom URLs -/

/-- What Starlette answers when a route raises. -/
def internalServerError : HttpError := ⟨500, "Internal Server Error"⟩

/-- The loop of `_normalize_custom_urls`: the URLs so far, and the invalid ones. -/
def normalizeLoop (netloc : String → Option String) :
    List String → List String × List String → Option (List String × List String)
  | [], found => some found
  | raw :: urls, (normalized, invalid) =>
      let candidate := strip raw
      if candidate = "" then normalizeLoop netloc urls (normalized, invalid)
      else
        let candidate := if containsSub "://" candidate then candidate else "http://" ++ candidate
        match netloc candidate with
        | none => none
        | some "" => normalizeLoop netloc urls (normalized, invalid ++ [raw])
        | some _ =>
            normalizeLoop netloc urls
              (if normalized.contains candidate then normalized else normalized ++ [candidate], invalid)

/-- `_normalize_custom_urls`.  A `max_custom_urls` that is not a number does not compare. -/
def normalizeCustomUrls (netloc : String → Option String) (urls : List String)
    (maxUrls : Setting) : Except HttpError (List String) :=
  match normalizeLoop netloc urls ([], []) with
  | none => .error internalServerError
  | some (normalized, invalid) =>
      if !invalid.isEmpty then .error ⟨422, "Invalid URL(s): " ++ ", ".intercalate invalid⟩
      else if normalized.isEmpty then .error ⟨422, "No valid custom URLs provided"⟩
      else
        match maxUrls with
        | .num n =>
            if n < normalized.length then
              .error ⟨422, "Too many custom URLs (" ++ toString normalized.length ++ "); max is " ++
                toString n⟩
            else .ok normalized
        | _ => .error internalServerError

/-! ### The routes -/

structure JobCreate where
  domainIds : List Nat := []
  customUrls : List String := []
  categoryFilter : Option String := none
  titleFilter : Option String := none
  agentId : Option String := none
  deriving DecidableEq, Repr

/-- A seed: its URL, and its snapshot. -/
abbrev Seed : Type := Option String × Option Nat

/-- What an agent gets to start or to resume a crawl. -/
structure CrawlReply where
  jobId : Nat
  seeds : List Seed
  policy : CrawlPolicy
  deriving DecidableEq, Repr

inductive JobReply
  | crawl (reply : CrawlReply)
  | cancelRequested (requested : Bool)
  | ok
  deriving DecidableEq, Repr

abbrev Served : Type := Except HttpError JobReply × CoordDb

section Routes

variable (config : CoordConfig) (now : Time)

def createFromUrls (req : JobCreate) (user : CurrentUser) (db : CoordDb) : Served :=
  let policy := buildCrawlPolicy config true
  match normalizeCustomUrls config.netloc req.customUrls
      ((policy.crawler.lookup "max_custom_urls").getD (.num 50)) with
  | .error e => (.error e, db)
  | .ok urls =>
      let jobId := db.jobs.nextKey
      let db := db.addJob .customUrls req.categoryFilter req.titleFilter (some user.id) req.agentId
      let db := db.addJobCustomUrls jobId urls
      (.ok (.crawl ⟨jobId, urls.map fun url => (some url, none), policy⟩), db.startJob jobId now)

/-- The loop over the domains. -/
def seedDomains (jobId : Nat) : List DomainRow → CoordDb → List Seed × CoordDb
  | [], db => ([], db)
  | d :: ds, db =>
      let url := orElse d.contactUrl d.mainUrl
      if truthy url then
        let snap := db.createCrawlSnapshot jobId d true
        let rest := seedDomains jobId ds snap.2
        ((url, some snap.1) :: rest.1, rest.2)
      else seedDomains jobId ds db

/-- `domains` is what the query for the domains returns. -/
def createFromDomains (req : JobCreate) (domains : List DomainRow) (user : CurrentUser)
    (db : CoordDb) : Served :=
  if req.domainIds.isEmpty then (.error ⟨422, "Provide domain_ids or custom_urls"⟩, db)
  else if domains.isEmpty then (.error ⟨404, "No matching domains found"⟩, db)
  else
    let jobId := db.jobs.nextKey
    let db := db.addJob .domains req.categoryFilter req.titleFilter (some user.id) req.agentId
    match db.addJobDomains jobId req.domainIds with
    -- the junction rows are refused: the job stays as it is
    | none => (.error internalServerError, db)
    | some db =>
        let r := seedDomains jobId domains db
        if r.1.isEmpty then
          (.error ⟨422, "Selected domains have no crawlable URLs"⟩,
            r.2.finishJob jobId "failed" (some "No valid URLs for selected domains") now)
        else
          (.ok (.crawl ⟨jobId, r.1, buildCrawlPolicy config false⟩), r.2.startJob jobId now)

/-- `coordination_create_job`. -/
def coordinationCreateJob (req : JobCreate) (domains : List DomainRow) (user : CurrentUser)
    (db : CoordDb) : Served :=
  match require ["crawl.run"] user with
  | .error e => (.error e, db)
  | .ok user =>
      if req.customUrls.isEmpty then createFromDomains config now req domains user db
      else createFromUrls config now req user db

/-- `_authorized_job`, by the check of the owner that the route makes. -/
def CoordDb.authorizedJob (db : CoordDb) (jobId : Nat)
    (owned : Option Nat → Except HttpError Unit) : Except HttpError JobRow :=
  match db.jobs.get? jobId with
  | none => .error jobNotFound
  | some job => (owned job.ownerId).map fun _ => job

def coordinationHeartbeat (jobId : Nat) (metrics : Metrics) (user : CurrentUser) (db : CoordDb) :
    Served :=
  match db.authorizedJob jobId (forbidUnlessOwner · user) with
  | .error e => (.error e, db)
  | .ok _ =>
      let r := db.heartbeat jobId metrics now
      (.ok (.cancelRequested r.1), r.2)

def coordinationFinishJob (jobId : Nat) (status : String) (error : Option String)
    (user : CurrentUser) (db : CoordDb) : Served :=
  match db.authorizedJob jobId (forbidUnlessOwner · user) with
  | .error e => (.error e, db)
  | .ok _ => (.ok .ok, db.finishJob jobId status error now)

def coordinationCancelJob (jobId : Nat) (user : CurrentUser) (db : CoordDb) : Served :=
  match db.authorizedJob jobId (forbidUnlessOwnerOr "crawl.cancel_all" · user) with
  | .error e => (.error e, db)
  | .ok _ => (.ok (.cancelRequested true), db.setCancelRequested jobId)

def differentAgent : HttpError :=
  ⟨403, "This job was started by a different agent and can only be resumed from that machine"⟩

/-- The check of the agent, which a request without an `agent_id` is spared. -/
def verifyAgent (jobId : Nat) (agentId : Option String) (db : CoordDb) : Bool × CoordDb :=
  match agentId with
  | none => (true, db)
  | some agentId => if agentId = "" then (true, db) else db.claimOrVerifyJobAgent jobId agentId

/-- Snapshots for a job that has none. -/
def snapshotDomains (jobId : Nat) : List DomainRow → CoordDb → CoordDb
  | [], db => db
  | d :: ds, db =>
      if truthy d.contactUrl || truthy d.mainUrl then
        snapshotDomains jobId ds (db.createCrawlSnapshot jobId d true).2
      else snapshotDomains jobId ds db

def snapshotSeed (s : SnapshotRow) : Seed := (orElse s.mainUrl s.contactUrl, some s.id)

/-- The seeds of a resumed job. -/
def resumeSeeds (job : JobRow) (domains : List DomainRow) (db : CoordDb) : List Seed × CoordDb :=
  match job.sourceType with
  | .customUrls => ((db.getJobCustomUrls job.id).map fun url => (some url, none), db)
  | .domains =>
      let snaps := db.getCrawlSnapshots job.id true
      if snaps.isEmpty then
        let db := snapshotDomains job.id domains db
        ((db.getCrawlSnapshots job.id true).map snapshotSeed, db)
      else (snaps.map snapshotSeed, db)

/-- `coordination_resume_job`. -/
def coordinationResumeJob (jobId : Nat) (agentId : Option String) (domains : List DomainRow)
    (user : CurrentUser) (db : CoordDb) : Served :=
  match require ["crawl.run"] user with
  | .error e => (.error e, db)
  | .ok user =>
      match db.authorizedJob jobId (forbidUnlessOwner · user) with
      | .error e => (.error e, db)
      | .ok job =>
          let r := verifyAgent jobId agentId db
          if r.1 then
            let r := resumeSeeds job domains (r.2.resumeJob jobId)
            (.ok (.crawl ⟨jobId, r.1, buildCrawlPolicy config false⟩), r.2)
          else (.error differentAgent, r.2)

end Routes

end GovCrawler
