/-
What a resumed job is handed, against what it was created with.

`coordination_create_job` and `coordination_resume_job` both hand out seeds and a policy,
each in its own words.  Both hand out the snapshots of the job, or its custom URLs, in the
order in which they were made.  But creation takes a domain's `contact_url` before its
`main_url` and resumption the other way round, and resumption leaves out that a job of
custom URLs may go anywhere.

`resume_hands_out` says that the two agree if and only if neither difference can be seen.
-/
import GovCrawler.Jobs.Seeds

namespace GovCrawler

open Relational Transition

/-! ### Two differences -/

/-- Which of two URLs is taken does not depend on which is asked for first, unless both are
there and differ. -/
theorem orElse_comm_iff {a b : Option String} (h : truthy a = true ∨ truthy b = true) :
    orElse a b = orElse b a ↔ (truthy a = true → truthy b = true → a = b) := by
  unfold orElse
  cases ha : truthy a <;> cases hb : truthy b <;> simp_all

namespace Settings

theorem lookup_setItem (key : String) (value : Setting) (d : Settings) :
    (setItem key value d).lookup key = some value := by
  induction d with
  | nil => simp [setItem]
  | cons p d ih =>
      unfold setItem
      by_cases h : p.1 = key
      · rw [if_pos h]
        simp
      · rw [if_neg h]
        have hne : (key == p.1) = false := by simpa using Ne.symm h
        obtain ⟨k, v⟩ := p
        rw [List.lookup_cons, hne]
        exact ih

/-- An assignment changes nothing if and only if the value is there already. -/
theorem setItem_eq_self_iff {key : String} {value : Setting} {d : Settings} :
    setItem key value d = d ↔ d.lookup key = some value := by
  constructor
  · intro h
    rw [← h]
    exact lookup_setItem key value d
  · intro h
    induction d with
    | nil => cases h
    | cons p d ih =>
        obtain ⟨k, v⟩ := p
        unfold setItem
        by_cases hk : k = key
        · subst hk
          rw [List.lookup_cons_self] at h
          rw [if_pos rfl, Option.some.inj h]
        · have hne : (key == k) = false := by simpa using Ne.symm hk
          rw [List.lookup_cons, hne] at h
          rw [if_neg hk, ih h]

end Settings

/-- Stripping the target suffixes makes no difference to a policy that has none. -/
theorem buildCrawlPolicy_strip_iff {config : CoordConfig} :
    buildCrawlPolicy config false = buildCrawlPolicy config true ↔
      (Settings.merge config.crawler config.storedCrawler).lookup "target_suffixes" =
        some (.texts []) := by
  rw [← Settings.setItem_eq_self_iff]
  constructor
  · intro h
    exact (congrArg CrawlPolicy.crawler h).symm
  · intro h
    simp [buildCrawlPolicy, h]

/-! ### What a created job will be handed -/

/-- The request asks for custom URLs and the policy has no target suffixes anyway, or no
domain that it asks for has two URLs that differ. -/
def CreationAgrees (config : CoordConfig) (catalog : Table DomainRow) (req : JobCreate) : Prop :=
  if req.customUrls = [] then
    ∀ d ∈ catalog.rows, d.id ∈ req.domainIds → truthy d.mainUrl = true →
      truthy d.contactUrl = true → d.mainUrl = d.contactUrl
  else
    (Settings.merge config.crawler config.storedCrawler).lookup "target_suffixes" = some (.texts [])

instance (config : CoordConfig) (catalog : Table DomainRow) (req : JobCreate) :
    Decidable (CreationAgrees config catalog req) := by
  unfold CreationAgrees
  infer_instance

/-- What is in the database about a job that was created with `req` and the reply `r`, from
the domains of `catalog`. -/
structure HandsOut (config : CoordConfig) (catalog : Table DomainRow) (req : JobCreate)
    (r : CrawlReply) (db : CoordDb) : Prop where
  catalog : db.domains = catalog
  job : ∃ job, db.jobs.get? r.jobId = some job ∧
    job.sourceType = if req.customUrls = [] then .domains else .customUrls
  custom : req.customUrls ≠ [] →
    r.seeds = (db.getJobCustomUrls r.jobId).map (fun url => (some url, none)) ∧
      r.policy = buildCrawlPolicy config true
  domains : req.customUrls = [] →
    db.getCrawlSnapshots r.jobId true ≠ [] ∧
      r.seeds = (db.getCrawlSnapshots r.jobId true).map createdSeed ∧
      r.policy = buildCrawlPolicy config false ∧
      ∀ u, u ∈ (db.getCrawlSnapshots r.jobId true).map SnapshotRow.urls ↔
        u ∈ ((db.domainsOf req.domainIds).filter DomainRow.crawlable).map DomainRow.urls

section Create

variable {config : CoordConfig} {now : Time} {req : JobCreate} {user : CurrentUser} {db : CoordDb}
  {r : CrawlReply}

/-- The row of a new job. -/
theorem get?_startJob_addJob (db db' : CoordDb) (sourceType : SourceType) (c t : Option String)
    (ownerId : Option Nat) (agentId : Option String)
    (hjobs : db'.jobs = (db.addJob sourceType c t ownerId agentId).jobs) :
    ∃ job, (db'.startJob db.jobs.nextKey now).jobs.get? db.jobs.nextKey = some job ∧
      job.sourceType = sourceType := by
  have hget : db'.jobs.get? db.jobs.nextKey = some
      { id := db.jobs.nextKey, ownerId := ownerId, sourceType := sourceType, categoryFilter := c
        titleFilter := t, agentHostname := agentId } := by
    rw [hjobs]
    unfold CoordDb.addJob
    dsimp only
    rw [Table.get?_insertNew, if_pos rfl]
  refine ⟨_, get?_updateJob db' _ _ _ hget, ?_⟩
  rw [if_pos rfl]

theorem handsOut_createFromUrls (hcustom : req.customUrls ≠ []) (hrefers : db.Refers)
    (h : (createFromUrls config now req user db).1 = .ok (.crawl r)) :
    r.jobId = db.jobs.nextKey ∧
      HandsOut config db.domains req r (createFromUrls config now req user db).2 := by
  unfold createFromUrls at h ⊢
  dsimp only at h ⊢
  split at h
  · cases h
  · rename_i urls hurls
    obtain rfl := JobReply.crawl.inj (Except.ok.inj h)
    refine ⟨rfl, ⟨rfl, ?_, fun _ => ⟨?_, rfl⟩, fun hnone => absurd hnone hcustom⟩⟩
    · rw [if_neg hcustom]
      exact get?_startJob_addJob db _ .customUrls _ _ _ _ rfl
    · -- nobody has stored a URL for the new job before
      have hnew : db.getJobCustomUrls db.jobs.nextKey = [] := by
        unfold CoordDb.getJobCustomUrls Table.select
        rw [List.map_eq_nil_iff, List.filter_eq_nil_iff]
        intro c hc heq
        exact absurd (beq_iff_eq.mp heq) (Nat.ne_of_lt (hrefers.customUrls c hc))
      have hstored := getJobCustomUrls_addJobCustomUrls db.jobs.nextKey urls
        (db.addJob .customUrls req.categoryFilter req.titleFilter (some user.id) req.agentId)
      have hempty : (db.addJob .customUrls req.categoryFilter req.titleFilter (some user.id)
          req.agentId).getJobCustomUrls db.jobs.nextKey = [] := hnew
      rw [hempty, List.nil_append] at hstored
      exact congrArg (List.map fun url => ((some url, none) : Seed)) hstored.symm

/-- A job that is created from domains has seeds, which are handed out. -/
theorem createFromDomains_eq_ok {domains : List DomainRow} {reply : JobReply}
    (h : (createFromDomains config now req domains user db).1 = .ok reply) :
    ∃ db', (db.addJob .domains req.categoryFilter req.titleFilter (some user.id)
        req.agentId).addJobDomains db.jobs.nextKey req.domainIds = some db' ∧
      (seedDomains db.jobs.nextKey domains db').1 ≠ [] ∧
      createFromDomains config now req domains user db =
        (.ok (.crawl ⟨db.jobs.nextKey, (seedDomains db.jobs.nextKey domains db').1,
            buildCrawlPolicy config false⟩),
          (seedDomains db.jobs.nextKey domains db').2.startJob db.jobs.nextKey now) := by
  unfold createFromDomains at h ⊢
  dsimp only at h ⊢
  by_cases hids : req.domainIds.isEmpty = true
  · rw [if_pos hids] at h
    cases h
  rw [if_neg hids] at h ⊢
  by_cases hnone : domains.isEmpty = true
  · rw [if_pos hnone] at h
    cases h
  rw [if_neg hnone] at h ⊢
  cases hdomains : (db.addJob .domains req.categoryFilter req.titleFilter (some user.id)
      req.agentId).addJobDomains db.jobs.nextKey req.domainIds with
  | none =>
      rw [hdomains] at h
      cases h
  | some db' =>
      rw [hdomains] at h
      dsimp only at h ⊢
      by_cases hempty : (seedDomains db.jobs.nextKey domains db').1.isEmpty = true
      · rw [if_pos hempty] at h
        cases h
      · rw [if_neg hempty]
        exact ⟨db', rfl, fun hnil => hempty (List.isEmpty_iff.mpr hnil), rfl⟩

theorem handsOut_createFromDomains {domains : List DomainRow} (hcustom : req.customUrls = [])
    (hperm : domains.Perm (db.domainsOf req.domainIds)) (hrefers : db.Refers)
    (h : (createFromDomains config now req domains user db).1 = .ok (.crawl r)) :
    r.jobId = db.jobs.nextKey ∧
      HandsOut config db.domains req r (createFromDomains config now req domains user db).2 := by
  obtain ⟨db', hdomains, hsome, heq⟩ := createFromDomains_eq_ok h
  rw [heq] at h ⊢
  obtain rfl := JobReply.crawl.inj (Except.ok.inj h)
  obtain ⟨l, hdb'⟩ := addJobDomains_frame hdomains
  have hjobs : db'.jobs = (db.addJob .domains req.categoryFilter req.titleFilter (some user.id)
      req.agentId).jobs := by rw [hdb']
  have hcatalog : db'.domains = db.domains := by
    rw [hdb']
    rfl
  have hsnapshots : db'.snapshots = db.snapshots := by
    rw [hdb']
    rfl
  -- the domains are those of the query, and the new job had no snapshots
  have hnodup : (domains.map fun d => d.id).Nodup :=
    (hperm.map fun d => d.id).nodup_iff.mpr (db.domains.nodup_keys.sublist
      (List.filter_sublist.map _))
  have hnew : ∀ s ∈ db'.snapshots.rows, s.jobId ≠ db.jobs.nextKey := by
    intro s hs
    rw [hsnapshots] at hs
    exact Nat.ne_of_lt (hrefers.snapshots s hs)
  obtain ⟨hseeds, hurls⟩ := seedDomains_new domains db' hnodup hnew
  obtain ⟨t, ht⟩ := seedDomains_frame db.jobs.nextKey domains db'
  refine ⟨rfl, ⟨?_, ?_, fun hne => absurd hcustom hne, fun _ => ⟨?_, hseeds, rfl, ?_⟩⟩⟩
  · rw [ht]
    exact hcatalog
  · rw [if_pos hcustom]
    exact get?_startJob_addJob db _ .domains _ _ _ _ (by rw [ht, hjobs])
  · intro hnone
    rw [hseeds] at hsome
    exact hsome (List.map_eq_nil_iff.mpr hnone)
  · intro u
    refine Iff.trans (Iff.of_eq (congrArg (u ∈ ·) hurls)) ?_
    have hquery : ((seedDomains db.jobs.nextKey domains db').2.startJob db.jobs.nextKey now).domainsOf
        req.domainIds = db.domainsOf req.domainIds := by
      rw [ht]
      show db'.domainsOf req.domainIds = db.domainsOf req.domainIds
      unfold CoordDb.domainsOf
      rw [hcatalog]
    dsimp only
    rw [hquery]
    exact ((hperm.filter DomainRow.crawlable).map DomainRow.urls).mem_iff

/-- Creation puts into the database what a resume will be handed. -/
theorem handsOut_create {domains : List DomainRow}
    (hperm : domains.Perm (db.domainsOf req.domainIds)) (hrefers : db.Refers)
    (h : (coordinationCreateJob config now req domains user db).1 = .ok (.crawl r)) :
    r.jobId = db.jobs.nextKey ∧
      HandsOut config db.domains req r (coordinationCreateJob config now req domains user db).2 := by
  unfold coordinationCreateJob at h ⊢
  cases huser : require ["crawl.run"] user with
  | error e =>
      rw [huser] at h
      cases h
  | ok caller =>
      rw [huser] at h
      dsimp only at h ⊢
      by_cases hcustom : req.customUrls = []
      · rw [if_pos (List.isEmpty_iff.mpr hcustom)] at h ⊢
        exact handsOut_createFromDomains hcustom hperm hrefers h
      · have hsome : ¬ req.customUrls.isEmpty = true := fun hc => hcustom (List.isEmpty_iff.mp hc)
        rw [if_neg hsome] at h ⊢
        exact handsOut_createFromUrls hcustom hrefers h

end Create

/-! ### What a resumed job is handed -/

section Resume

variable {config : CoordConfig} {now : Time} {req : JobCreate} {db : CoordDb} {r r' : CrawlReply}

/-- Both rules take the same URL of every snapshot, unless a domain has two that differ. -/
theorem seeds_agree_iff (hcustom : req.customUrls = []) {snaps : List SnapshotRow}
    (hurls : ∀ u, u ∈ snaps.map SnapshotRow.urls ↔
      u ∈ ((db.domainsOf req.domainIds).filter DomainRow.crawlable).map DomainRow.urls) :
    snaps.map snapshotSeed = snaps.map createdSeed ↔ CreationAgrees config db.domains req := by
  have hsnaps : snaps.map snapshotSeed = snaps.map createdSeed ↔
      ∀ u ∈ snaps.map SnapshotRow.urls, orElse u.1 u.2 = orElse u.2 u.1 := by
    rw [List.map_inj_left, List.forall_mem_map]
    refine forall₂_congr fun s _ => ?_
    simp [snapshotSeed, createdSeed, SnapshotRow.urls]
  have hdomains : (∀ u ∈ snaps.map SnapshotRow.urls, orElse u.1 u.2 = orElse u.2 u.1) ↔
      ∀ d ∈ db.domainsOf req.domainIds, d.crawlable = true →
        orElse d.mainUrl d.contactUrl = orElse d.contactUrl d.mainUrl := by
    constructor
    · intro h d hd hcrawlable
      exact h d.urls ((hurls _).mpr (List.mem_map_of_mem (List.mem_filter.mpr ⟨hd, hcrawlable⟩)))
    · intro h u hu
      obtain ⟨d, hd, rfl⟩ := List.mem_map.mp ((hurls u).mp hu)
      obtain ⟨hd, hcrawlable⟩ := List.mem_filter.mp hd
      exact h d hd hcrawlable
  rw [hsnaps, hdomains]
  unfold CreationAgrees
  rw [if_pos hcustom]
  constructor
  · intro h d hd hid hmain hcontact
    have hquery : d ∈ db.domainsOf req.domainIds :=
      List.mem_filter.mpr ⟨hd, List.contains_iff_mem.mpr hid⟩
    have hcomm := h d hquery (crawlable_iff.mpr (Or.inl hmain))
    exact (orElse_comm_iff (Or.inl hmain)).mp hcomm hmain hcontact
  · intro h d hd hcrawlable
    obtain ⟨hrow, hid⟩ := List.mem_filter.mp hd
    exact (orElse_comm_iff (crawlable_iff.mp hcrawlable)).mpr
      (h d hrow (List.contains_iff_mem.mp hid))

/-- A resume hands out what creation did if and only if the request agrees. -/
theorem HandsOut.resumed {catalog : Table DomainRow} (h : HandsOut config catalog req r db)
    {agentId : Option String} {domains : List DomainRow} {user : CurrentUser}
    (hr : (coordinationResumeJob config r.jobId agentId domains user db).1 = .ok (.crawl r')) :
    (r'.seeds = r.seeds ∧ r'.policy = r.policy) ↔ CreationAgrees config catalog req := by
  rw [← h.catalog]
  obtain ⟨job, hjob, -, heq⟩ := coordinationResumeJob_eq_ok hr
  obtain ⟨t, -, ht⟩ := resumeJob_frame r.jobId agentId db
  rw [heq, ht] at hr
  obtain rfl := JobReply.crawl.inj (Except.ok.inj hr)
  obtain ⟨job', hjob', hsource⟩ := h.job
  obtain rfl := Option.some.inj (hjob'.symm.trans hjob)
  have hid : job'.id = r.jobId := Table.get?_key hjob
  dsimp only
  unfold resumeSeeds
  by_cases hcustom : req.customUrls = []
  · obtain ⟨hsome, hseeds, hpolicy, hurls⟩ := h.domains hcustom
    have hsnaps : ({ db with jobs := t } : CoordDb).getCrawlSnapshots job'.id true =
        db.getCrawlSnapshots r.jobId true := by
      rw [hid]
      rfl
    have hnonempty : (db.getCrawlSnapshots r.jobId true).isEmpty ≠ true :=
      fun hc => hsome (List.isEmpty_iff.mp hc)
    rw [hsource, if_pos hcustom]
    dsimp only
    rw [hsnaps, if_neg hnonempty, hseeds, hpolicy]
    exact (and_iff_left rfl).trans (seeds_agree_iff hcustom hurls)
  · obtain ⟨hseeds, hpolicy⟩ := h.custom hcustom
    have hurls : ({ db with jobs := t } : CoordDb).getJobCustomUrls job'.id =
        db.getJobCustomUrls r.jobId := by
      rw [hid]
      rfl
    rw [hsource, if_neg hcustom]
    dsimp only
    rw [hurls, hseeds, hpolicy]
    unfold CreationAgrees
    rw [if_neg hcustom]
    exact (and_iff_right rfl).trans buildCrawlPolicy_strip_iff

end Resume

/-! ### Runs -/

/-- A request that was answered with a new job. -/
def JobEntry.Created (h : JobEntry) (req : JobCreate) (r : CrawlReply) : Prop :=
  ∃ domains user, h.action = .create req domains user ∧ h.reply = .ok (.crawl r)

/-- A request that was answered with a resumed job. -/
def JobEntry.Resumed (h : JobEntry) (r : CrawlReply) : Prop :=
  ∃ jobId agentId domains user,
    h.action = .resume jobId agentId domains user ∧ h.reply = .ok (.crawl r)

namespace JobSystem

variable {config : CoordConfig} {s t : JobSystem} {a : JobAction}

/-- A job keeps its source. -/
theorem sourceType_handle {now : Time} {reply : Except HttpError JobReply} {j : JobRow} :
    (j.handle now a reply).sourceType = j.sourceType := by
  cases a with
  | create req domains user | discover jobId domain | tick d => rfl
  | heartbeat jobId metrics user | finish jobId status error user | cancel jobId user
  | resume jobId agentId domains user =>
      cases reply with
      | error e => rfl
      | ok r =>
          dsimp only [JobRow.handle]
          split <;> rfl
  | reap threshold =>
      dsimp only [JobRow.handle]
      split <;> rfl

/-- What a job will be handed does not change. -/
theorem handsOut_step {catalog : Table DomainRow} {req : JobCreate} {r : CrawlReply}
    (h : HandsOut config catalog req r s.db) (hstep : s.step config a = some t) :
    HandsOut config catalog req r t.db := by
  obtain ⟨-, hdb, -⟩ := step_eq_some hstep
  obtain ⟨job, hjob, hsource⟩ := h.job
  have hseeds : job.sourceType = .customUrls ∨ s.db.getCrawlSnapshots r.jobId true ≠ [] := by
    by_cases hcustom : req.customUrls = []
    · exact Or.inr (h.domains hcustom).1
    · exact Or.inl (by rw [hsource, if_neg hcustom])
  have hsame : SameSeeds r.jobId s.db t.db := by
    rw [hdb]
    exact sameSeeds_serve a hjob hseeds
  refine ⟨hsame.domains.trans h.catalog, ?_, ?_, ?_⟩
  · have hget : t.db.jobs.get? r.jobId =
        some (job.handle s.now a (serve config s.now s.db a).1) := by
      rw [hdb]
      exact get?_serve a hjob
    exact ⟨_, hget, sourceType_handle.trans hsource⟩
  · rw [hsame.customUrls]
    exact h.custom
  · unfold CoordDb.domainsOf
    rw [hsame.snapshots, hsame.domains]
    exact h.domains

/-- What the history says about the database: what every job will be handed, and that every
job that was resumed is there and was handed it. -/
structure Handed (config : CoordConfig) (s : JobSystem) : Prop where
  refers : s.db.Refers
  created : ∀ h ∈ s.history, ∀ req r, h.Created req r → HandsOut config h.before.domains req r s.db
  there : ∀ h ∈ s.history, ∀ r, h.Resumed r → (s.db.jobs.get? r.jobId).isSome = true
  resumed : ∀ h ∈ s.history, ∀ req r, h.Created req r → ∀ h' ∈ s.history, ∀ r', h'.Resumed r' →
    r'.jobId = r.jobId →
      ((r'.seeds = r.seeds ∧ r'.policy = r.policy) ↔ CreationAgrees config h.before.domains req)

theorem handed_step (h : s.Handed config) (hstep : s.step config a = some t) : t.Handed config := by
  obtain ⟨henabled, hdb, hhistory⟩ := step_eq_some hstep
  have hmem : ∀ e ∈ t.history,
      e ∈ s.history ∨ e = ⟨a, s.db, (serve config s.now s.db a).1, t.db⟩ := by
    intro e he
    rw [hhistory, List.mem_append, List.mem_singleton] at he
    exact he
  -- a new job has a new key, which is not that of a job that was there
  have hcreated : ∀ req r,
      JobEntry.Created ⟨a, s.db, (serve config s.now s.db a).1, t.db⟩ req r →
        r.jobId = s.db.jobs.nextKey ∧ HandsOut config s.db.domains req r t.db := by
    rintro req r ⟨domains, user, haction, hreply⟩
    obtain rfl : a = .create req domains user := haction
    rw [hdb]
    exact handsOut_create (List.isPerm_iff.mp henabled) h.refers hreply
  have hresumed : ∀ r, JobEntry.Resumed ⟨a, s.db, (serve config s.now s.db a).1, t.db⟩ r →
      (s.db.jobs.get? r.jobId).isSome = true := by
    rintro r ⟨jobId, agentId, domains, user, haction, hreply⟩
    obtain rfl : a = .resume jobId agentId domains user := haction
    obtain ⟨rfl, hthere⟩ := jobId_of_resumed hreply
    exact hthere
  have hstays : ∀ k, (s.db.jobs.get? k).isSome = true → (t.db.jobs.get? k).isSome = true := by
    intro k hk
    obtain ⟨job, hjob⟩ := Option.isSome_iff_exists.mp hk
    rw [hdb, get?_serve a hjob]
    rfl
  refine ⟨?_, ?_, ?_, ?_⟩
  · rw [hdb]
    exact h.refers.serve henabled
  · intro e he req r hreq
    rcases hmem e he with he | rfl
    · exact handsOut_step (h.created e he req r hreq) hstep
    · exact (hcreated req r hreq).2
  · intro e he r hr
    rcases hmem e he with he | rfl
    · exact hstays _ (h.there e he r hr)
    · exact hstays _ (hresumed r hr)
  · intro e he req r hreq e' he' r' hr' hid
    rcases hmem e he with he | rfl <;> rcases hmem e' he' with he' | rfl
    · exact h.resumed e he req r hreq e' he' r' hr' hid
    · obtain ⟨jobId, agentId, domains, user, haction, hreply⟩ := hr'
      obtain rfl : a = .resume jobId agentId domains user := haction
      obtain rfl : r.jobId = jobId := hid.symm.trans (jobId_of_resumed hreply).1
      exact (h.created e he req r hreq).resumed hreply
    · have hthere := h.there e' he' r' hr'
      rw [hid, (hcreated req r hreq).1, Table.get?_of_nextKey_le (Nat.le_refl _)] at hthere
      cases hthere
    · obtain ⟨_, _, hcreate, -⟩ := hreq
      obtain ⟨_, _, _, _, hresume, -⟩ := hr'
      rw [show a = _ from hcreate] at hresume
      cases hresume

end JobSystem

/--
**A resumed job is handed what it was created with**, after any requests in between, if and
only if the request that created it agrees: no domain of a domain job has two URLs that
differ, and the policy of a job of custom URLs has no target suffixes anyway.
-/
theorem resume_hands_out (config : CoordConfig) (catalog : Table DomainRow) {t : JobSystem}
    {as : List JobAction}
    (hr : run (JobSystem.step config) { db := { domains := catalog } } as = some t) :
    ∀ h ∈ t.history, ∀ req r, h.Created req r → ∀ h' ∈ t.history, ∀ r', h'.Resumed r' →
      r'.jobId = r.jobId →
        ((r'.seeds = r.seeds ∧ r'.policy = r.policy) ↔
          CreationAgrees config h.before.domains req) := by
  have hstart : JobSystem.Handed config { db := { domains := catalog } } :=
    ⟨⟨fun s hs => (nomatch hs), fun c hc => (nomatch hc)⟩, fun h hh => (nomatch hh),
      fun h hh => (nomatch hh), fun h hh => (nomatch hh)⟩
  have hend : t.Handed config :=
    run_invariant' (fun _ _ _ hi hs => JobSystem.handed_step hi hs) hstart hr
  exact hend.resumed

/-! ### Jobs that are resumed -/

/-- An entry of a history, from what is known of all of them. -/
theorem exists_entry {α : Type} {t : JobSystem} {f : JobEntry → α} {l : List α} {x : α}
    (h : t.history.map f = l) (i : Nat) (hx : l[i]? = some x) : ∃ h ∈ t.history, f h = x := by
  rw [← h] at hx
  exact List.mem_map.mp (List.mem_of_getElem? hx)

/-- A domain with one URL. -/
theorem town_handed_out_again :
    ∃ t, run (JobSystem.step townConfig) { db := { domains := townDb.domains } }
        [.create { domainIds := [1] } [townDomain] operator, .resume 1 none [townDomain] operator] =
          some t ∧
      ∃ h ∈ t.history, ∃ h' ∈ t.history, ∃ r r', h.Created { domainIds := [1] } r ∧ h'.Resumed r' ∧
        r'.seeds = r.seeds ∧ r'.policy = r.policy := by
  have hend : (run (JobSystem.step townConfig) { db := { domains := townDb.domains } }
      [.create { domainIds := [1] } [townDomain] operator,
        .resume 1 none [townDomain] operator]).map
      (fun t => t.history.map fun h => (h.action, h.reply,
        decide (CreationAgrees townConfig h.before.domains { domainIds := [1] }))) = some
        [(.create { domainIds := [1] } [townDomain] operator,
            .ok (.crawl ⟨1, [(some "https://town.gov", some 1)], buildCrawlPolicy townConfig false⟩),
            true),
          (.resume 1 none [townDomain] operator,
            .ok (.crawl ⟨1, [(some "https://town.gov", some 1)], buildCrawlPolicy townConfig false⟩),
            true)] := by
    decide +kernel
  obtain ⟨t, hr, hentries⟩ := Option.map_eq_some_iff.mp hend
  obtain ⟨h, hh, hcreate⟩ := exists_entry hentries 0 rfl
  obtain ⟨h', hh', hresume⟩ := exists_entry hentries 1 rfl
  obtain ⟨haction, hreply, hagrees⟩ := Prod.mk.inj hcreate |>.imp id Prod.mk.inj
  obtain ⟨haction', hreply', -⟩ := Prod.mk.inj hresume |>.imp id Prod.mk.inj
  have hcreated : h.Created { domainIds := [1] } _ := ⟨_, _, haction, hreply⟩
  have hresumed : h'.Resumed _ := ⟨_, _, _, _, haction', hreply'⟩
  exact ⟨t, hr, h, hh, h', hh', _, _, hcreated, hresumed,
    (resume_hands_out townConfig townDb.domains hr h hh _ _ hcreated h' hh' _ hresumed rfl).mpr
      (of_decide_eq_true hagrees)⟩

/-- A catalog of one domain that also has a page of contacts. -/
def cityCatalog : Table DomainRow :=
  ⟨[{ id := 1, title := some "City", mainUrl := some "https://city.gov"
      contactUrl := some "https://city.gov/contact" }], 2, List.pairwise_singleton _ _, by decide⟩

/-- The city is created from its contacts and resumed from its main page, and a job of custom
URLs is resumed with the target suffixes of other jobs. -/
theorem resumed_otherwise :
    ∃ t, run (JobSystem.step townConfig) { db := { domains := cityCatalog } }
        [.create { domainIds := [1] } cityCatalog.rows operator,
          .create { customUrls := ["https://club.org"] } [] operator,
          .resume 1 none cityCatalog.rows operator, .resume 2 none [] operator] = some t ∧
      (∃ h ∈ t.history, ∃ h' ∈ t.history, ∃ r r', h.Created { domainIds := [1] } r ∧
        h'.Resumed r' ∧ r'.jobId = r.jobId ∧ r'.seeds ≠ r.seeds) ∧
      ∃ h ∈ t.history, ∃ h' ∈ t.history, ∃ r r', h.Created { customUrls := ["https://club.org"] } r ∧
        h'.Resumed r' ∧ r'.jobId = r.jobId ∧ r'.policy ≠ r.policy := by
  have hend : (run (JobSystem.step townConfig) { db := { domains := cityCatalog } }
      [.create { domainIds := [1] } cityCatalog.rows operator,
        .create { customUrls := ["https://club.org"] } [] operator,
        .resume 1 none cityCatalog.rows operator, .resume 2 none [] operator]).map
      (fun t => t.history.map fun h => (h.action, h.reply)) = some
        [(.create { domainIds := [1] } cityCatalog.rows operator,
            .ok (.crawl ⟨1, [(some "https://city.gov/contact", some 1)],
              buildCrawlPolicy townConfig false⟩)),
          (.create { customUrls := ["https://club.org"] } [] operator,
            .ok (.crawl ⟨2, [(some "https://club.org", none)], buildCrawlPolicy townConfig true⟩)),
          (.resume 1 none cityCatalog.rows operator,
            .ok (.crawl ⟨1, [(some "https://city.gov", some 1)], buildCrawlPolicy townConfig false⟩)),
          (.resume 2 none [] operator,
            .ok (.crawl ⟨2, [(some "https://club.org", none)], buildCrawlPolicy townConfig false⟩))] := by
    decide +kernel
  obtain ⟨t, hr, hentries⟩ := Option.map_eq_some_iff.mp hend
  obtain ⟨h₁, hh₁, heq₁⟩ := exists_entry hentries 0 rfl
  obtain ⟨h₂, hh₂, heq₂⟩ := exists_entry hentries 1 rfl
  obtain ⟨h₃, hh₃, heq₃⟩ := exists_entry hentries 2 rfl
  obtain ⟨h₄, hh₄, heq₄⟩ := exists_entry hentries 3 rfl
  refine ⟨t, hr, ⟨h₁, hh₁, h₃, hh₃, _, _, ⟨_, _, congrArg Prod.fst heq₁, congrArg Prod.snd heq₁⟩,
    ⟨_, _, _, _, congrArg Prod.fst heq₃, congrArg Prod.snd heq₃⟩, rfl, by decide⟩,
    ⟨h₂, hh₂, h₄, hh₄, _, _, ⟨_, _, congrArg Prod.fst heq₂, congrArg Prod.snd heq₂⟩,
      ⟨_, _, _, _, congrArg Prod.fst heq₄, congrArg Prod.snd heq₄⟩, rfl, by decide⟩⟩

end GovCrawler
