/-
The seeds of a job: how they come into being, and why they stay.

Creation makes a snapshot of every domain that has a URL, in the order of its list of
seeds, or stores the custom URLs in theirs.  Nothing later changes them: a domain that a
crawl has only come to is no seed, other jobs have snapshots and URLs of their own, and a
resume makes snapshots for a job without any only.
-/
import GovCrawler.Jobs.JobSystem
import Mathlib.Data.List.Perm.Basic

namespace GovCrawler

open Relational Transition

/-! ### The seeds of a job -/

/-- Whether a domain has a URL to start from. -/
def DomainRow.crawlable (d : DomainRow) : Bool := truthy (orElse d.contactUrl d.mainUrl)

/-- A seed as creation hands it out. -/
def createdSeed (s : SnapshotRow) : Seed := (orElse s.contactUrl s.mainUrl, some s.id)

/-- Both URLs of a snapshot. -/
def SnapshotRow.urls (s : SnapshotRow) : Option String × Option String := (s.mainUrl, s.contactUrl)

/-- Both URLs of a domain. -/
def DomainRow.urls (d : DomainRow) : Option String × Option String := (d.mainUrl, d.contactUrl)

theorem crawlable_iff {d : DomainRow} :
    d.crawlable = true ↔ truthy d.mainUrl = true ∨ truthy d.contactUrl = true := by
  unfold DomainRow.crawlable orElse
  by_cases h : truthy d.contactUrl = true <;> simp [h]

/-- What a job has to start from is the same in both. -/
structure SameSeeds (k : Nat) (db db' : CoordDb) : Prop where
  domains : db'.domains = db.domains
  snapshots : db'.getCrawlSnapshots k true = db.getCrawlSnapshots k true
  customUrls : db'.getJobCustomUrls k = db.getJobCustomUrls k

section Seeds

variable {k jobId : Nat} {db : CoordDb}

theorem SameSeeds.refl (k : Nat) (db : CoordDb) : SameSeeds k db db := ⟨rfl, rfl, rfl⟩

theorem SameSeeds.trans {db₁ db₂ db₃ : CoordDb} (h : SameSeeds k db₁ db₂)
    (h' : SameSeeds k db₂ db₃) : SameSeeds k db₁ db₃ :=
  ⟨h'.domains.trans h.domains, h'.snapshots.trans h.snapshots, h'.customUrls.trans h.customUrls⟩

/-- A snapshot of another job, or of a domain that the crawl has come to, is no seed. -/
theorem sameSeeds_createCrawlSnapshot (d : DomainRow) {isSeed : Bool}
    (h : jobId ≠ k ∨ isSeed = false) :
    SameSeeds k db (db.createCrawlSnapshot jobId d isSeed).2 := by
  unfold CoordDb.createCrawlSnapshot
  cases db.findSnapshot jobId d.id with
  | some snapshot => exact SameSeeds.refl k db
  | none =>
      refine ⟨rfl, ?_, rfl⟩
      unfold CoordDb.getCrawlSnapshots Table.select Table.insertNew
      dsimp only
      rw [List.filter_append]
      have hnone : jobId = k → isSeed = false := fun hid => h.resolve_left fun hne => hne hid
      simpa using hnone

theorem sameSeeds_seedDomains (hne : jobId ≠ k) (ds : List DomainRow) (db : CoordDb) :
    SameSeeds k db (seedDomains jobId ds db).2 := by
  induction ds generalizing db with
  | nil => exact SameSeeds.refl k db
  | cons d ds ih =>
      unfold seedDomains
      dsimp only
      split
      · exact (sameSeeds_createCrawlSnapshot d (Or.inl hne)).trans (ih _)
      · exact ih db

theorem sameSeeds_snapshotDomains (hne : jobId ≠ k) (ds : List DomainRow) (db : CoordDb) :
    SameSeeds k db (snapshotDomains jobId ds db) := by
  induction ds generalizing db with
  | nil => exact SameSeeds.refl k db
  | cons d ds ih =>
      unfold snapshotDomains
      split
      · exact (sameSeeds_createCrawlSnapshot d (Or.inl hne)).trans (ih _)
      · exact ih db

/-- A resume makes snapshots for a job that has none, and for no other. -/
theorem sameSeeds_resumeSeeds (job : JobRow) (ds : List DomainRow) (db : CoordDb)
    (h : job.id ≠ k ∨ job.sourceType = .customUrls ∨ db.getCrawlSnapshots k true ≠ []) :
    SameSeeds k db (resumeSeeds job ds db).2 := by
  unfold resumeSeeds
  cases hsource : job.sourceType with
  | customUrls => exact SameSeeds.refl k db
  | domains =>
      dsimp only
      split
      · rename_i hempty
        refine sameSeeds_snapshotDomains (fun hid => ?_) ds db
        rcases h with hne | hcustom | hsnaps
        · exact hne hid
        · rw [hsource] at hcustom
          cases hcustom
        · rw [hid] at hempty
          exact hsnaps (List.isEmpty_iff.mp hempty)
      · exact SameSeeds.refl k db

/-- Snapshots and URLs belong to jobs that have been created. -/
structure CoordDb.Refers (db : CoordDb) : Prop where
  snapshots : ∀ s ∈ db.snapshots.rows, s.jobId < db.jobs.nextKey
  customUrls : ∀ c ∈ db.customUrls.rows, c.jobId < db.jobs.nextKey

/-- Writes to the jobs do not matter to that, as long as none is forgotten. -/
theorem CoordDb.Refers.jobs (h : db.Refers) {jobs : Table JobRow} {jobDomains : List CrawlJobDomain}
    (hle : db.jobs.nextKey ≤ jobs.nextKey) :
    CoordDb.Refers { db with jobs := jobs, jobDomains := jobDomains } :=
  ⟨fun s hs => Nat.lt_of_lt_of_le (h.snapshots s hs) hle,
    fun c hc => Nat.lt_of_lt_of_le (h.customUrls c hc) hle⟩

theorem CoordDb.Refers.createCrawlSnapshot (h : db.Refers) (hjob : jobId < db.jobs.nextKey)
    (d : DomainRow) (isSeed : Bool) : (db.createCrawlSnapshot jobId d isSeed).2.Refers := by
  unfold CoordDb.createCrawlSnapshot
  cases db.findSnapshot jobId d.id with
  | some snapshot => exact h
  | none =>
      refine ⟨fun s hs => ?_, h.customUrls⟩
      rcases (Table.mem_insertNew _).mp hs with hs | rfl
      · exact h.snapshots s hs
      · exact hjob

theorem CoordDb.Refers.seedDomains (h : db.Refers) (ds : List DomainRow)
    (hjob : jobId < db.jobs.nextKey) : (seedDomains jobId ds db).2.Refers := by
  induction ds generalizing db with
  | nil => exact h
  | cons d ds ih =>
      unfold GovCrawler.seedDomains
      dsimp only
      split
      · refine ih (h.createCrawlSnapshot hjob d true) ?_
        obtain ⟨t, ht⟩ := createCrawlSnapshot_frame db jobId d true
        rw [ht]
        exact hjob
      · exact ih h hjob

theorem CoordDb.Refers.snapshotDomains (h : db.Refers) (ds : List DomainRow)
    (hjob : jobId < db.jobs.nextKey) : (snapshotDomains jobId ds db).Refers := by
  induction ds generalizing db with
  | nil => exact h
  | cons d ds ih =>
      unfold GovCrawler.snapshotDomains
      split
      · refine ih (h.createCrawlSnapshot hjob d true) ?_
        obtain ⟨t, ht⟩ := createCrawlSnapshot_frame db jobId d true
        rw [ht]
        exact hjob
      · exact ih h hjob

theorem CoordDb.Refers.resumeSeeds (h : db.Refers) {job : JobRow} (ds : List DomainRow)
    (hjob : job.id < db.jobs.nextKey) : (resumeSeeds job ds db).2.Refers := by
  unfold GovCrawler.resumeSeeds
  cases job.sourceType with
  | customUrls => exact h
  | domains =>
      dsimp only
      split
      · exact h.snapshotDomains ds hjob
      · exact h

end Seeds

/-! ### Creation -/

section Create

variable {jobId : Nat} {db : CoordDb}

/-- The URLs that are stored come back in their order. -/
theorem getJobCustomUrls_addJobCustomUrls (jobId : Nat) (urls : List String) (db : CoordDb) :
    (db.addJobCustomUrls jobId urls).getJobCustomUrls jobId = db.getJobCustomUrls jobId ++ urls := by
  unfold CoordDb.addJobCustomUrls CoordDb.getJobCustomUrls
  dsimp only
  induction urls generalizing db with
  | nil => simp
  | cons url urls ih =>
      rw [List.foldl_cons]
      have hfold := ih { db with customUrls := db.customUrls.insertNew fun id => ⟨id, jobId, url⟩ }
      dsimp only at hfold
      rw [hfold]
      simp [Table.select, Table.insertNew]

/-- No other job gets a URL. -/
theorem getJobCustomUrls_addJobCustomUrls_of_ne {k : Nat} (hne : jobId ≠ k) (urls : List String)
    (db : CoordDb) : (db.addJobCustomUrls jobId urls).getJobCustomUrls k = db.getJobCustomUrls k := by
  unfold CoordDb.addJobCustomUrls CoordDb.getJobCustomUrls
  dsimp only
  induction urls generalizing db with
  | nil => rfl
  | cons url urls ih =>
      rw [List.foldl_cons]
      have hfold := ih { db with customUrls := db.customUrls.insertNew fun id => ⟨id, jobId, url⟩ }
      dsimp only at hfold
      rw [hfold]
      simp [Table.select, Table.insertNew, hne]

theorem CoordDb.Refers.addJobCustomUrls (urls : List String) (h : db.Refers)
    (hjob : jobId < db.jobs.nextKey) : (db.addJobCustomUrls jobId urls).Refers := by
  refine ⟨h.snapshots, ?_⟩
  unfold CoordDb.addJobCustomUrls
  dsimp only
  have hstart : ∀ c ∈ db.customUrls.rows, c.jobId < db.jobs.nextKey := h.customUrls
  generalize db.customUrls = t at hstart ⊢
  induction urls generalizing t with
  | nil => exact hstart
  | cons url urls ih =>
      rw [List.foldl_cons]
      refine ih _ fun c hc => ?_
      rcases (Table.mem_insertNew _).mp hc with hc | rfl
      · exact hstart c hc
      · exact hjob

/-- The snapshot that a domain gets. -/
def snapshotOf (jobId : Nat) (d : DomainRow) (isSeed : Bool) (id : Nat) : SnapshotRow :=
  { id := id, jobId := jobId, sourceDomainId := some d.id, title := d.title
    mainUrl := d.mainUrl, contactUrl := d.contactUrl, isSeed := isSeed }

theorem createCrawlSnapshot_new {d : DomainRow} (isSeed : Bool)
    (h : db.findSnapshot jobId d.id = none) :
    db.createCrawlSnapshot jobId d isSeed =
      (db.snapshots.nextKey,
        { db with snapshots := db.snapshots.insertNew (snapshotOf jobId d isSeed) (by intro _; rfl) }) := by
  unfold CoordDb.createCrawlSnapshot
  rw [h]
  rfl

/-- The snapshots of a new job are those of the domains with a URL, and its seeds are the
snapshots, in their order. -/
theorem seedDomains_spec (ds : List DomainRow) (db : CoordDb) (hnodup : (ds.map fun d => d.id).Nodup)
    (hnew : ∀ d ∈ ds, db.findSnapshot jobId d.id = none) :
    ∃ made : List SnapshotRow,
      (seedDomains jobId ds db).2.snapshots.rows = db.snapshots.rows ++ made ∧
      (seedDomains jobId ds db).1 = made.map createdSeed ∧
      (∀ s ∈ made, s.jobId = jobId ∧ s.isSeed = true) ∧
      made.map SnapshotRow.urls = (ds.filter DomainRow.crawlable).map DomainRow.urls := by
  induction ds generalizing db with
  | nil => exact ⟨[], by simp [seedDomains], rfl, fun s hs => (nomatch hs), rfl⟩
  | cons d ds ih =>
      obtain ⟨hd, hnodup⟩ := List.nodup_cons.mp hnodup
      obtain ⟨hnone, hnew⟩ := List.forall_mem_cons.mp hnew
      by_cases hurl : truthy (orElse d.contactUrl d.mainUrl) = true
      · have hcreate : db.createCrawlSnapshot jobId d true = _ := createCrawlSnapshot_new true hnone
        -- no other domain has the snapshot of `d`
        have hnew' : ∀ d' ∈ ds, (db.createCrawlSnapshot jobId d true).2.findSnapshot jobId d'.id =
            none := by
          intro d' hd'
          have hid : d.id ≠ d'.id := by
            intro heq
            exact hd (List.mem_map.mpr ⟨d', hd', heq.symm⟩)
          have hold := hnew d' hd'
          unfold CoordDb.findSnapshot at hold ⊢
          rw [Table.first?_eq_none_iff] at hold ⊢
          rw [hcreate]
          intro s (hs : s ∈ db.snapshots.rows ++ [snapshotOf jobId d true db.snapshots.nextKey])
          rw [List.mem_append, List.mem_singleton] at hs
          rcases hs with hs | rfl
          · exact hold s hs
          · simp [snapshotOf, hid]
        obtain ⟨made, hrows, hseeds, hmade, hurls⟩ := ih _ hnodup hnew'
        refine ⟨snapshotOf jobId d true db.snapshots.nextKey :: made, ?_, ?_, ?_, ?_⟩
        · unfold seedDomains
          rw [if_pos hurl]
          dsimp only
          rw [hrows, hcreate]
          simp [Table.insertNew]
        · unfold seedDomains
          rw [if_pos hurl]
          dsimp only
          rw [hseeds, hcreate]
          rfl
        · intro s hs
          rcases List.mem_cons.mp hs with rfl | hs
          · exact ⟨rfl, rfl⟩
          · exact hmade s hs
        · rw [List.filter_cons_of_pos (by simpa [DomainRow.crawlable] using hurl), List.map_cons,
            List.map_cons, hurls]
          rfl
      · obtain ⟨made, hrows, hseeds, hmade, hurls⟩ := ih db hnodup hnew
        refine ⟨made, ?_, ?_, hmade, ?_⟩
        · simp [seedDomains, hurl, hrows]
        · simp [seedDomains, hurl, hseeds]
        · rw [hurls, List.filter_cons_of_neg (by simpa [DomainRow.crawlable] using hurl)]

/-- The seeds of a job that had no snapshots are its snapshots. -/
theorem seedDomains_new (ds : List DomainRow) (db : CoordDb) (hnodup : (ds.map fun d => d.id).Nodup)
    (hnew : ∀ s ∈ db.snapshots.rows, s.jobId ≠ jobId) :
    (seedDomains jobId ds db).1 =
        ((seedDomains jobId ds db).2.getCrawlSnapshots jobId true).map createdSeed ∧
      ((seedDomains jobId ds db).2.getCrawlSnapshots jobId true).map SnapshotRow.urls =
        (ds.filter DomainRow.crawlable).map DomainRow.urls := by
  have hfind : ∀ d ∈ ds, db.findSnapshot jobId d.id = none := by
    intro d _
    unfold CoordDb.findSnapshot
    rw [Table.first?_eq_none_iff]
    intro s hs
    simp [hnew s hs]
  obtain ⟨made, hrows, hseeds, hmade, hurls⟩ := seedDomains_spec ds db hnodup hfind
  have hsnaps : (seedDomains jobId ds db).2.getCrawlSnapshots jobId true = made := by
    unfold CoordDb.getCrawlSnapshots Table.select
    rw [hrows, List.filter_append]
    have hold : db.snapshots.rows.filter (fun s => s.jobId == jobId && (!true || s.isSeed)) = [] := by
      rw [List.filter_eq_nil_iff]
      intro s hs
      simp [hnew s hs]
    rw [hold, List.nil_append, List.filter_eq_self]
    intro s hs
    obtain ⟨hid, hseed⟩ := hmade s hs
    simp [hid, hseed]
  rw [hsnaps]
  exact ⟨hseeds, hurls⟩

end Create

/-! ### What a request leaves alone -/

section Serve

variable {config : CoordConfig} {now : Time} {db : CoordDb} {k : Nat}

theorem CoordDb.Refers.updateJob (h : db.Refers) (jobId : Nat) (f : JobRow → JobRow)
    (hf : ∀ j, (f j).id = j.id) : (db.updateJob jobId f hf).Refers := h.jobs (Nat.le_refl _)

theorem CoordDb.Refers.finishJob (h : db.Refers) (jobId : Nat) (status : String)
    (error : Option String) : (db.finishJob jobId status error now).Refers := by
  unfold CoordDb.finishJob
  split
  · exact h
  · split
    · exact h
    · exact h.updateJob jobId _ _

theorem sameSeeds_finishJob (jobId : Nat) (status : String) (error : Option String) :
    SameSeeds k db (db.finishJob jobId status error now) := by
  unfold CoordDb.finishJob
  split
  · exact SameSeeds.refl k db
  · split
    · exact SameSeeds.refl k db
    · exact ⟨rfl, rfl, rfl⟩

theorem CoordDb.Refers.createFromUrls (h : db.Refers) (req : JobCreate) (user : CurrentUser) :
    (createFromUrls config now req user db).2.Refers := by
  unfold GovCrawler.createFromUrls
  dsimp only
  split
  · exact h
  · have hadded : (db.addJob .customUrls req.categoryFilter req.titleFilter (some user.id)
        req.agentId).Refers := h.jobs (Nat.le_succ _)
    exact (hadded.addJobCustomUrls _ (Nat.lt_succ_self _)).updateJob _ _ _

theorem sameSeeds_createFromUrls (hk : k < db.jobs.nextKey) (req : JobCreate) (user : CurrentUser) :
    SameSeeds k db (createFromUrls config now req user db).2 := by
  unfold createFromUrls
  dsimp only
  split
  · exact SameSeeds.refl k db
  · exact ⟨rfl, rfl, getJobCustomUrls_addJobCustomUrls_of_ne (Nat.ne_of_gt hk) _ (db.addJob _ _ _ _ _)⟩

theorem CoordDb.Refers.createFromDomains (h : db.Refers) (req : JobCreate)
    (domains : List DomainRow) (user : CurrentUser) :
    (createFromDomains config now req domains user db).2.Refers := by
  unfold GovCrawler.createFromDomains
  dsimp only
  split
  · exact h
  split
  · exact h
  have hadded : (db.addJob .domains req.categoryFilter req.titleFilter (some user.id)
      req.agentId).Refers := h.jobs (Nat.le_succ _)
  split
  · exact hadded
  · rename_i db' hdomains
    obtain ⟨l, rfl⟩ := addJobDomains_frame hdomains
    have hlinked : CoordDb.Refers { db.addJob .domains req.categoryFilter req.titleFilter
        (some user.id) req.agentId with jobDomains := l } := hadded.jobs (Nat.le_refl _)
    have hseeded := hlinked.seedDomains domains (Nat.lt_succ_self db.jobs.nextKey)
    split
    · exact hseeded.finishJob _ _ _
    · exact hseeded.updateJob _ _ _

theorem sameSeeds_createFromDomains (hk : k < db.jobs.nextKey) (req : JobCreate)
    (domains : List DomainRow) (user : CurrentUser) :
    SameSeeds k db (createFromDomains config now req domains user db).2 := by
  unfold createFromDomains
  dsimp only
  split
  · exact SameSeeds.refl k db
  split
  · exact SameSeeds.refl k db
  split
  · exact ⟨rfl, rfl, rfl⟩
  · rename_i db' hdomains
    obtain ⟨l, rfl⟩ := addJobDomains_frame hdomains
    have hseeded := sameSeeds_seedDomains (Nat.ne_of_gt hk) domains
      { db.addJob .domains req.categoryFilter req.titleFilter (some user.id) req.agentId with
        jobDomains := l }
    split
    · exact SameSeeds.trans ⟨hseeded.domains, hseeded.snapshots, hseeded.customUrls⟩ (sameSeeds_finishJob _ _ _)
    · exact ⟨hseeded.domains, hseeded.snapshots, hseeded.customUrls⟩

/-- A resume works on the jobs as the check of the agent leaves them. -/
theorem resumeJob_frame (jobId : Nat) (agentId : Option String) (db : CoordDb) :
    ∃ t : Table JobRow, t.nextKey = db.jobs.nextKey ∧
      (verifyAgent jobId agentId db).2.resumeJob jobId = { db with jobs := t } := by
  obtain ⟨t, hkey, ht⟩ := verifyAgent_frame jobId agentId db
  rw [ht]
  refine ⟨_, ?_, rfl⟩
  exact hkey

theorem CoordDb.Refers.serve {s : JobSystem} {a : JobAction} (h : s.db.Refers)
    (ha : s.enabled a = true) : (JobSystem.serve config s.now s.db a).2.Refers := by
  cases a with
  | create req domains user =>
      dsimp only [JobSystem.serve, coordinationCreateJob]
      cases require ["crawl.run"] user with
      | error e => exact h
      | ok caller =>
          dsimp only
          split
          · exact h.createFromDomains req domains caller
          · exact h.createFromUrls req caller
  | heartbeat jobId metrics user =>
      dsimp only [JobSystem.serve, coordinationHeartbeat]
      cases s.db.authorizedJob jobId (forbidUnlessOwner · user) with
      | error e => exact h
      | ok job => exact h.updateJob jobId _ _
  | finish jobId status error user =>
      dsimp only [JobSystem.serve, coordinationFinishJob]
      cases s.db.authorizedJob jobId (forbidUnlessOwner · user) with
      | error e => exact h
      | ok job => exact h.finishJob jobId status error
  | cancel jobId user =>
      dsimp only [JobSystem.serve, coordinationCancelJob]
      cases s.db.authorizedJob jobId (forbidUnlessOwnerOr "crawl.cancel_all" · user) with
      | error e => exact h
      | ok job => exact h.updateJob jobId _ _
  | resume jobId agentId domains user =>
      dsimp only [JobSystem.serve]
      cases hreply : (coordinationResumeJob config jobId agentId domains user s.db).1 with
      | error e =>
          rw [coordinationResumeJob_rejects hreply]
          exact h
      | ok reply =>
          obtain ⟨job, hjob, -, heq⟩ := coordinationResumeJob_eq_ok hreply
          obtain ⟨t, hkey, ht⟩ := resumeJob_frame jobId agentId s.db
          rw [heq]
          dsimp only
          rw [ht]
          refine CoordDb.Refers.resumeSeeds (h.jobs (Nat.le_of_eq hkey.symm)) domains ?_
          have hid : job.id = jobId := Table.get?_key hjob
          have hlt := Table.lt_nextKey_of_get? hjob
          dsimp only
          omega
  | reap threshold => exact h.jobs (Nat.le_refl _)
  | discover jobId domain =>
      obtain ⟨job, hjob⟩ := Option.isSome_iff_exists.mp ha
      exact h.createCrawlSnapshot (Table.lt_nextKey_of_get? hjob) domain false
  | tick d => exact h

/-- **The seeds of a job stay**, whatever is requested, once it has some. -/
theorem sameSeeds_serve {job : JobRow} (a : JobAction) (hjob : db.jobs.get? k = some job)
    (hseeds : job.sourceType = .customUrls ∨ db.getCrawlSnapshots k true ≠ []) :
    SameSeeds k db (JobSystem.serve config now db a).2 := by
  have hk : k < db.jobs.nextKey := Table.lt_nextKey_of_get? hjob
  cases a with
  | create req domains user =>
      dsimp only [JobSystem.serve, coordinationCreateJob]
      cases require ["crawl.run"] user with
      | error e => exact SameSeeds.refl k db
      | ok caller =>
          dsimp only
          split
          · exact sameSeeds_createFromDomains hk req domains caller
          · exact sameSeeds_createFromUrls hk req caller
  | heartbeat jobId metrics user =>
      dsimp only [JobSystem.serve, coordinationHeartbeat]
      cases db.authorizedJob jobId (forbidUnlessOwner · user) <;> exact ⟨rfl, rfl, rfl⟩
  | finish jobId status error user =>
      dsimp only [JobSystem.serve, coordinationFinishJob]
      cases db.authorizedJob jobId (forbidUnlessOwner · user) with
      | error e => exact SameSeeds.refl k db
      | ok job => exact sameSeeds_finishJob jobId status error
  | cancel jobId user =>
      dsimp only [JobSystem.serve, coordinationCancelJob]
      cases db.authorizedJob jobId (forbidUnlessOwnerOr "crawl.cancel_all" · user) <;>
        exact ⟨rfl, rfl, rfl⟩
  | resume jobId agentId domains user =>
      dsimp only [JobSystem.serve]
      cases hreply : (coordinationResumeJob config jobId agentId domains user db).1 with
      | error e =>
          rw [coordinationResumeJob_rejects hreply]
          exact SameSeeds.refl k db
      | ok reply =>
          obtain ⟨job', hjob', -, heq⟩ := coordinationResumeJob_eq_ok hreply
          obtain ⟨t, -, ht⟩ := resumeJob_frame jobId agentId db
          rw [heq]
          dsimp only
          rw [ht]
          have hid : job'.id = jobId := Table.get?_key hjob'
          have hstays : SameSeeds k _ _ := sameSeeds_resumeSeeds job' domains { db with jobs := t } ?_
          · exact ⟨hstays.domains, hstays.snapshots, hstays.customUrls⟩
          · by_cases hjk : jobId = k
            · rw [hjk] at hjob'
              obtain rfl := Option.some.inj (hjob.symm.trans hjob')
              exact Or.inr hseeds
            · exact Or.inl fun hc => hjk (hid.symm.trans hc)
  | reap threshold => exact ⟨rfl, rfl, rfl⟩
  | discover jobId domain => exact sameSeeds_createCrawlSnapshot domain (Or.inr rfl)
  | tick d => exact SameSeeds.refl k db

end Serve

end GovCrawler
