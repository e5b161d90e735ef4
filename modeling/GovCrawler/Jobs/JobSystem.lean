/-
The system that the job routes make up with the reaper, and what one request does to one
job.

`JobRow.handle` is the life of a single job, apart from everything else in the database:
`get?_serve` says that a request does just that to the row of every job that is there.
-/
import GovCrawler.Jobs.Coordination

namespace GovCrawler

open Relational Transition

/-! ### The system -/

/-- A request, or what the cloud does by itself.  The queries for domains have no order:
`domains` are the rows as the database returns them. -/
inductive JobAction
  | create (req : JobCreate) (domains : List DomainRow) (user : CurrentUser)
  | heartbeat (jobId : Nat) (metrics : Metrics) (user : CurrentUser)
  | finish (jobId : Nat) (status : String) (error : Option String) (user : CurrentUser)
  | cancel (jobId : Nat) (user : CurrentUser)
  | resume (jobId : Nat) (agentId : Option String) (domains : List DomainRow) (user : CurrentUser)
  /-- A sweep of `_reap_loop`. -/
  | reap (threshold : Time)
  /-- `save_lead` attributes a lead to a domain that the crawl has come to. -/
  | discover (jobId : Nat) (domain : DomainRow)
  | tick (d : Time)
  deriving DecidableEq, Repr

/-- A step that was taken: what it found, answered and left. -/
structure JobEntry where
  action : JobAction
  before : CoordDb
  reply : Except HttpError JobReply
  after : CoordDb

structure JobSystem where
  now : Time := 0
  db : CoordDb := {}
  history : List JobEntry := []

/-- The domains of a query for ids. -/
def CoordDb.domainsOf (db : CoordDb) (ids : List Nat) : List DomainRow :=
  db.domains.select fun d => ids.contains d.id

namespace JobSystem

variable (config : CoordConfig) (s : JobSystem)

/-- What is answered, and the database after it. -/
def serve (now : Time) (db : CoordDb) : JobAction → Served
  | .create req domains user => coordinationCreateJob config now req domains user db
  | .heartbeat jobId metrics user => coordinationHeartbeat now jobId metrics user db
  | .finish jobId status error user => coordinationFinishJob now jobId status error user db
  | .cancel jobId user => coordinationCancelJob jobId user db
  | .resume jobId agentId domains user => coordinationResumeJob config jobId agentId domains user db
  | .reap threshold => (.ok .ok, db.reapStaleJobs threshold now)
  | .discover jobId domain => (.ok .ok, (db.createCrawlSnapshot jobId domain false).2)
  | .tick _ => (.ok .ok, db)

/-- What the rows that come with an action have to be. -/
def enabled : JobAction → Bool
  | .create req domains _ => domains.isPerm (s.db.domainsOf req.domainIds)
  | .resume jobId _ domains _ => domains.isPerm (s.db.domainsOf (s.db.getJobDomainIds jobId))
  | .discover jobId _ => (s.db.jobs.get? jobId).isSome
  | _ => true

def elapsed : JobAction → Time
  | .tick d => d
  | _ => 0

def step (a : JobAction) : Option JobSystem :=
  if s.enabled a then
    let r := serve config s.now s.db a
    some
      { now := s.now + elapsed a
        db := r.2
        history := s.history ++ [⟨a, s.db, r.1, r.2⟩] }
  else none

variable {config s}

/-- A step is recorded, and it changes nothing else. -/
theorem step_eq_some {a : JobAction} {t : JobSystem} (h : s.step config a = some t) :
    s.enabled a = true ∧ t.db = (serve config s.now s.db a).2 ∧
      t.history = s.history ++ [⟨a, s.db, (serve config s.now s.db a).1, t.db⟩] := by
  unfold step at h
  by_cases he : s.enabled a = true
  · rw [if_pos he] at h
    obtain rfl := Option.some.inj h
    exact ⟨he, rfl, rfl⟩
  · rw [if_neg he] at h
    cases h

end JobSystem

/-! ### One job -/

/-- The agent that a resumed job belongs to. -/
def claimed (stamp agentId : Option String) : Option String :=
  match stamp with
  | some owner => some owner
  | none => if truthy agentId then agentId else none

/-- What a request that is answered with `reply` makes of a job. -/
def JobRow.handle (now : Time) (a : JobAction) (reply : Except HttpError JobReply) (j : JobRow) :
    JobRow :=
  match a, reply with
  | .heartbeat jobId metrics _, .ok _ =>
      if j.id = jobId then
        { j with
          metrics := metrics
          lastHeartbeatAt := some now
          status := if j.status = JobStatus.interrupted.value then JobStatus.running.value else j.status }
      else j
  | .finish jobId status error _, .ok _ =>
      if j.id = jobId ∧ j.status ∉ terminalStatuses then
        { j with status := status, finishedAt := some now, errorMessage := error }
      else j
  | .cancel jobId _, .ok _ => if j.id = jobId then { j with cancelRequested := true } else j
  | .resume jobId agentId _ _, .ok _ =>
      if j.id = jobId then
        { j with
          status := JobStatus.running.value
          cancelRequested := false
          agentHostname := claimed j.agentHostname agentId }
      else j
  | .reap threshold, _ =>
      if CoordDb.stale (now - threshold) j then { j with status := JobStatus.interrupted.value } else j
  | _, _ => j

/-! ### What the writes do to a job -/

section Writes

variable {db : CoordDb} {k : Nat} {j : JobRow}

theorem get?_updateJob (db : CoordDb) (jobId : Nat) (f : JobRow → JobRow)
    (hf : ∀ j, (f j).id = j.id) (h : db.jobs.get? k = some j) :
    (db.updateJob jobId f hf).jobs.get? k = some (if j.id = jobId then f j else j) := by
  unfold CoordDb.updateJob
  dsimp only
  rw [Table.get?_updateWhere, h]
  simp

/-- A new job leaves the others alone. -/
theorem get?_addJob (db : CoordDb) (sourceType : SourceType) (c t : Option String)
    (ownerId : Option Nat) (agentId : Option String) (h : db.jobs.get? k = some j) :
    (db.addJob sourceType c t ownerId agentId).jobs.get? k = some j := by
  unfold CoordDb.addJob
  dsimp only
  rw [Table.get?_insertNew, if_neg (Nat.ne_of_lt (Table.lt_nextKey_of_get? h)), h]

theorem addJobDomains_frame {jobId : Nat} {ids : List Nat} {db' : CoordDb}
    (h : db.addJobDomains jobId ids = some db') : ∃ l, db' = { db with jobDomains := l } := by
  unfold CoordDb.addJobDomains at h
  split at h
  · exact ⟨_, (Option.some.inj h).symm⟩
  · cases h

/-! Making snapshots writes nothing else. -/

theorem createCrawlSnapshot_frame (db : CoordDb) (jobId : Nat) (d : DomainRow) (isSeed : Bool) :
    ∃ t, (db.createCrawlSnapshot jobId d isSeed).2 = { db with snapshots := t } := by
  unfold CoordDb.createCrawlSnapshot
  cases db.findSnapshot jobId d.id <;> exact ⟨_, rfl⟩

theorem seedDomains_frame (jobId : Nat) (ds : List DomainRow) (db : CoordDb) :
    ∃ t, (seedDomains jobId ds db).2 = { db with snapshots := t } := by
  induction ds generalizing db with
  | nil => exact ⟨_, rfl⟩
  | cons d ds ih =>
      unfold seedDomains
      dsimp only
      split
      · obtain ⟨t, ht⟩ := createCrawlSnapshot_frame db jobId d true
        obtain ⟨t', ht'⟩ := ih (db.createCrawlSnapshot jobId d true).2
        exact ⟨t', by rw [ht', ht]⟩
      · exact ih db

theorem snapshotDomains_frame (jobId : Nat) (ds : List DomainRow) (db : CoordDb) :
    ∃ t, snapshotDomains jobId ds db = { db with snapshots := t } := by
  induction ds generalizing db with
  | nil => exact ⟨_, rfl⟩
  | cons d ds ih =>
      unfold snapshotDomains
      split
      · obtain ⟨t, ht⟩ := createCrawlSnapshot_frame db jobId d true
        obtain ⟨t', ht'⟩ := ih (db.createCrawlSnapshot jobId d true).2
        exact ⟨t', by rw [ht', ht]⟩
      · exact ih db

theorem resumeSeeds_frame (job : JobRow) (ds : List DomainRow) (db : CoordDb) :
    ∃ t, (resumeSeeds job ds db).2 = { db with snapshots := t } := by
  unfold resumeSeeds
  cases job.sourceType with
  | customUrls => exact ⟨_, rfl⟩
  | domains =>
      dsimp only
      split
      · exact snapshotDomains_frame job.id ds db
      · exact ⟨_, rfl⟩

/-- The writes to a job that has just been added miss every job that was there before. -/
theorem get?_updateJob_new (db db' : CoordDb) (f : JobRow → JobRow) (hf : ∀ j, (f j).id = j.id)
    (h : db.jobs.get? k = some j) (h' : db'.jobs.get? k = some j) :
    (db'.updateJob db.jobs.nextKey f hf).jobs.get? k = some j := by
  have hold : j.id ≠ db.jobs.nextKey := by
    have hkey : j.id = k := Table.get?_key h
    have hlt := Table.lt_nextKey_of_get? h
    omega
  rw [get?_updateJob db' _ f hf h', if_neg hold]

end Writes

/-! ### What a request does to a job -/

section Serve

variable {config : CoordConfig} {now : Time} {db : CoordDb} {k : Nat} {j : JobRow}

theorem get?_createFromUrls (req : JobCreate) (user : CurrentUser) (h : db.jobs.get? k = some j) :
    (createFromUrls config now req user db).2.jobs.get? k = some j := by
  unfold createFromUrls
  dsimp only
  split
  · exact h
  · exact get?_updateJob_new db _ _ _ h (get?_addJob db _ _ _ _ _ h)

theorem get?_createFromDomains (req : JobCreate) (domains : List DomainRow) (user : CurrentUser)
    (h : db.jobs.get? k = some j) :
    (createFromDomains config now req domains user db).2.jobs.get? k = some j := by
  unfold createFromDomains
  dsimp only
  split
  · exact h
  split
  · exact h
  have hadd := get?_addJob db .domains req.categoryFilter req.titleFilter (some user.id) req.agentId h
  split
  · exact hadd
  · rename_i db' hdomains
    have hseeded : (seedDomains db.jobs.nextKey domains db').2.jobs.get? k = some j := by
      obtain ⟨t, ht⟩ := seedDomains_frame db.jobs.nextKey domains db'
      obtain ⟨l, rfl⟩ := addJobDomains_frame hdomains
      rw [ht]
      exact hadd
    split
    · unfold CoordDb.finishJob
      split
      · exact hseeded
      · split
        · exact hseeded
        · exact get?_updateJob_new db _ _ _ h hseeded
    · exact get?_updateJob_new db _ _ _ h hseeded

theorem get?_finishJob (jobId : Nat) (status : String) (error : Option String)
    (h : db.jobs.get? k = some j) :
    (db.finishJob jobId status error now).jobs.get? k = some
      (if j.id = jobId ∧ j.status ∉ terminalStatuses then
        { j with status := status, finishedAt := some now, errorMessage := error }
      else j) := by
  have hkey : j.id = k := Table.get?_key h
  unfold CoordDb.finishJob
  by_cases hid : j.id = jobId
  · have hget : db.jobs.get? jobId = some j := by rw [← hid, hkey]; exact h
    simp only [hget]
    by_cases hterm : j.status ∈ terminalStatuses
    · rw [if_pos (List.contains_iff_mem.mpr hterm), if_neg (fun hc => hc.2 hterm), h]
    · rw [if_neg (fun hc => hterm (List.contains_iff_mem.mp hc)), if_pos ⟨hid, hterm⟩,
        get?_updateJob db _ _ _ h, if_pos hid]
  · rw [if_neg (fun hc => hid hc.1)]
    split
    · exact h
    · split
      · exact h
      · rw [get?_updateJob db _ _ _ h, if_neg hid]

theorem get?_heartbeat (jobId : Nat) (metrics : Metrics) (h : db.jobs.get? k = some j) :
    (db.heartbeat jobId metrics now).2.jobs.get? k = some
      (if j.id = jobId then
        { j with
          metrics := metrics
          lastHeartbeatAt := some now
          status := if j.status = JobStatus.interrupted.value then JobStatus.running.value else j.status }
      else j) := by
  have hkey : j.id = k := Table.get?_key h
  unfold CoordDb.heartbeat
  dsimp only
  rw [get?_updateJob db _ _ _ h]
  by_cases hid : j.id = jobId
  · have hget : db.jobs.get? jobId = some j := by rw [← hid, hkey]; exact h
    rw [if_pos hid, if_pos hid, hget]
    simp
  · rw [if_neg hid, if_neg hid]

theorem get?_reapStaleJobs (threshold : Time) (h : db.jobs.get? k = some j) :
    (db.reapStaleJobs threshold now).jobs.get? k = some
      (if CoordDb.stale (now - threshold) j then { j with status := JobStatus.interrupted.value }
      else j) := by
  have hmem : (((db.jobs.select (CoordDb.stale (now - threshold))).map fun j => j.id).contains j.id) =
      CoordDb.stale (now - threshold) j := by
    rw [Bool.eq_iff_iff, List.contains_iff_mem, List.mem_map]
    constructor
    · rintro ⟨j', hj', hid⟩
      obtain ⟨hj', hstale⟩ := List.mem_filter.mp hj'
      rwa [← db.jobs.eq_of_key_eq hj' (Table.get?_mem h) hid]
    · intro hstale
      exact ⟨j, List.mem_filter.mpr ⟨Table.get?_mem h, hstale⟩, rfl⟩
  unfold CoordDb.reapStaleJobs
  dsimp only
  rw [Table.get?_updateWhere, h, Option.map_some, hmem]

theorem claimed_some (owner : String) (agentId : Option String) :
    claimed (some owner) agentId = some owner := rfl

/-- A request without an `agent_id` stamps nothing. -/
theorem claimed_of_not_truthy {stamp agentId : Option String} (h : truthy agentId = false) :
    claimed stamp agentId = stamp := by
  cases stamp with
  | some owner => rfl
  | none => simp [claimed, h]

/-- The check of the agent stamps the job, if nobody has. -/
theorem get?_verifyAgent (jobId : Nat) (agentId : Option String) (h : db.jobs.get? k = some j) :
    (verifyAgent jobId agentId db).2.jobs.get? k = some
      (if j.id = jobId then { j with agentHostname := claimed j.agentHostname agentId } else j) := by
  have hkey : j.id = k := Table.get?_key h
  have hkept : claimed j.agentHostname agentId = j.agentHostname →
      some j = some (if j.id = jobId then
        { j with agentHostname := claimed j.agentHostname agentId } else j) := by
    intro heq
    rw [heq, ite_self]
  unfold verifyAgent
  cases agentId with
  | none => exact h.trans (hkept (claimed_of_not_truthy rfl))
  | some agentId =>
      dsimp only
      by_cases hempty : agentId = ""
      · rw [if_pos hempty]
        exact h.trans (hkept (claimed_of_not_truthy (by simp [truthy, hempty])))
      rw [if_neg hempty]
      unfold CoordDb.claimOrVerifyJobAgent
      by_cases hid : j.id = jobId
      · have hget : db.jobs.get? jobId = some j := by rw [← hid, hkey]; exact h
        simp only [hget]
        cases hstamp : j.agentHostname with
        | some owner =>
            rw [hstamp] at hkept
            exact h.trans (hkept (claimed_some owner _))
        | none =>
            dsimp only
            rw [get?_updateJob db _ _ _ h]
            simp [claimed, truthy, hempty]
      · rw [if_neg hid]
        split
        · exact h
        · split
          · rw [get?_updateJob db _ _ _ h, if_neg hid]
          · exact h

/-- The check writes nothing but the stamp. -/
theorem verifyAgent_frame (jobId : Nat) (agentId : Option String) (db : CoordDb) :
    ∃ t : Table JobRow, t.nextKey = db.jobs.nextKey ∧
      (verifyAgent jobId agentId db).2 = { db with jobs := t } := by
  unfold verifyAgent CoordDb.claimOrVerifyJobAgent
  cases agentId with
  | none => exact ⟨_, rfl, rfl⟩
  | some agentId =>
      dsimp only
      split
      · exact ⟨_, rfl, rfl⟩
      split
      · exact ⟨_, rfl, rfl⟩
      split
      · refine ⟨_, ?_, rfl⟩
        rfl
      · exact ⟨_, rfl, rfl⟩

/-- A rejected check changes nothing. -/
theorem verifyAgent_rejects {jobId : Nat} {agentId : Option String}
    (h : (verifyAgent jobId agentId db).1 ≠ true) : (verifyAgent jobId agentId db).2 = db := by
  unfold verifyAgent at h ⊢
  cases agentId with
  | none => rfl
  | some agentId =>
      dsimp only at h ⊢
      split at h
      · exact absurd rfl h
      · rename_i hempty
        rw [if_neg hempty]
        unfold CoordDb.claimOrVerifyJobAgent at h ⊢
        split
        · rfl
        · split
          · rename_i hget _ hstamp
            simp [hget, hstamp] at h
          · rfl

/-- A resume that is accepted has passed the checks, and hands out what it finds. -/
theorem coordinationResumeJob_eq_ok {jobId : Nat} {agentId : Option String}
    {domains : List DomainRow} {user : CurrentUser} {reply : JobReply}
    (h : (coordinationResumeJob config jobId agentId domains user db).1 = .ok reply) :
    ∃ job, db.jobs.get? jobId = some job ∧ (verifyAgent jobId agentId db).1 = true ∧
      (coordinationResumeJob config jobId agentId domains user db) =
        let r := resumeSeeds job domains ((verifyAgent jobId agentId db).2.resumeJob jobId)
        (.ok (.crawl ⟨jobId, r.1, buildCrawlPolicy config false⟩), r.2) := by
  unfold coordinationResumeJob at h ⊢
  cases huser : require ["crawl.run"] user with
  | error e => rw [huser] at h; cases h
  | ok caller =>
      rw [huser] at h
      dsimp only at h ⊢
      cases hjob : db.authorizedJob jobId (forbidUnlessOwner · caller) with
      | error e => rw [hjob] at h; cases h
      | ok job =>
          rw [hjob] at h
          dsimp only at h ⊢
          have hget : db.jobs.get? jobId = some job := by
            unfold CoordDb.authorizedJob at hjob
            cases hget : db.jobs.get? jobId with
            | none => rw [hget] at hjob; cases hjob
            | some job' =>
                rw [hget] at hjob
                dsimp only at hjob
                cases howned : forbidUnlessOwner job'.ownerId caller with
                | error e => rw [howned] at hjob; cases hjob
                | ok u => rw [howned] at hjob; exact congrArg some (Except.ok.inj hjob)
          split at h
          · rename_i hok
            exact ⟨job, hget, hok, by rw [if_pos hok]⟩
          · cases h

/-- The job that is resumed is the one that is asked for. -/
theorem jobId_of_resumed {jobId : Nat} {agentId : Option String} {domains : List DomainRow}
    {user : CurrentUser} {r : CrawlReply}
    (h : (coordinationResumeJob config jobId agentId domains user db).1 = .ok (.crawl r)) :
    r.jobId = jobId ∧ (db.jobs.get? jobId).isSome = true := by
  obtain ⟨job, hjob, -, heq⟩ := coordinationResumeJob_eq_ok h
  rw [heq] at h
  obtain rfl := JobReply.crawl.inj (Except.ok.inj h)
  exact ⟨rfl, Option.isSome_iff_exists.mpr ⟨job, hjob⟩⟩

/-- A resume that is rejected changes nothing. -/
theorem coordinationResumeJob_rejects {jobId : Nat} {agentId : Option String}
    {domains : List DomainRow} {user : CurrentUser} {e : HttpError}
    (h : (coordinationResumeJob config jobId agentId domains user db).1 = .error e) :
    (coordinationResumeJob config jobId agentId domains user db).2 = db := by
  unfold coordinationResumeJob at h ⊢
  cases huser : require ["crawl.run"] user with
  | error e => rfl
  | ok caller =>
      rw [huser] at h
      dsimp only at h ⊢
      cases hjob : db.authorizedJob jobId (forbidUnlessOwner · caller) with
      | error e => rfl
      | ok job =>
          rw [hjob] at h
          dsimp only at h ⊢
          by_cases hok : (verifyAgent jobId agentId db).1 = true
          · rw [if_pos hok] at h
            cases h
          · rw [if_neg hok]
            exact verifyAgent_rejects hok

/-- **One job's life.**  A request makes of the row of a job what `JobRow.handle` says. -/
theorem get?_serve (a : JobAction) (h : db.jobs.get? k = some j) :
    (JobSystem.serve config now db a).2.jobs.get? k =
      some (j.handle now a (JobSystem.serve config now db a).1) := by
  cases a with
  | create req domains user =>
      show (coordinationCreateJob config now req domains user db).2.jobs.get? k = some j
      unfold coordinationCreateJob
      cases require ["crawl.run"] user with
      | error e => exact h
      | ok caller =>
          dsimp only
          split
          · exact get?_createFromDomains req domains caller h
          · exact get?_createFromUrls req caller h
  | heartbeat jobId metrics user =>
      dsimp only [JobSystem.serve, coordinationHeartbeat]
      cases db.authorizedJob jobId (forbidUnlessOwner · user) with
      | error e => exact h
      | ok job => exact get?_heartbeat jobId metrics h
  | finish jobId status error user =>
      dsimp only [JobSystem.serve, coordinationFinishJob]
      cases db.authorizedJob jobId (forbidUnlessOwner · user) with
      | error e => exact h
      | ok job => exact get?_finishJob jobId status error h
  | cancel jobId user =>
      dsimp only [JobSystem.serve, coordinationCancelJob]
      cases db.authorizedJob jobId (forbidUnlessOwnerOr "crawl.cancel_all" · user) with
      | error e => exact h
      | ok job => exact get?_updateJob db jobId _ _ h
  | resume jobId agentId domains user =>
      dsimp only [JobSystem.serve]
      cases hreply : (coordinationResumeJob config jobId agentId domains user db).1 with
      | error e =>
          rw [coordinationResumeJob_rejects hreply]
          exact h
      | ok reply =>
          obtain ⟨job, -, -, heq⟩ := coordinationResumeJob_eq_ok hreply
          obtain ⟨t, ht⟩ := resumeSeeds_frame job domains
            ((verifyAgent jobId agentId db).2.resumeJob jobId)
          rw [heq]
          dsimp only
          rw [ht]
          unfold CoordDb.resumeJob
          rw [get?_updateJob _ _ _ _ (get?_verifyAgent jobId agentId h)]
          dsimp only [JobRow.handle]
          by_cases hid : j.id = jobId <;> simp [hid]
  | reap threshold => exact get?_reapStaleJobs threshold h
  | discover jobId domain =>
      obtain ⟨t, ht⟩ := createCrawlSnapshot_frame db jobId domain false
      show (db.createCrawlSnapshot jobId domain false).2.jobs.get? k = some j
      rw [ht, h]
  | tick d => exact h

end Serve

/-! ### A town -/

def townDomain : DomainRow where
  id := 1
  title := some "Town"
  mainUrl := some "https://town.gov"
  contactUrl := none

/-- A catalog of one domain. -/
def townDb : CoordDb where
  domains := ⟨[townDomain], 2, List.pairwise_singleton _ _, by decide⟩

def townConfig : CoordConfig where
  netloc := some
  crawler := [("target_suffixes", .texts [".gov"])]

def operator : CurrentUser := ⟨3, "operator@x.org", false, ["crawl.run"]⟩

end GovCrawler
