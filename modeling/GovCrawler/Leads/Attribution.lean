/-
Attributing leads while the catalog changes.

A snapshot never changes, and a job never gets two of one domain.  A new lead gets the snapshot
of the domain that the map of netlocs finds for it.  The catalog has the same domain for it if no
write has been committed since the rows of the map were queried; nothing sees to that.  A map
that is being built outlasts the write that empties the cache, and so does one that another
process has.

Where calls come one after the other, in one process, the map is always that of the catalog.
-/
import GovCrawler.Leads.CatalogCalls
import GovCrawler.Lib.Transition

namespace GovCrawler

open Relational ThreadPool Transition

/-! ### What a call can write -/

/-- A job has one snapshot of a domain. -/
def CatalogDb.UniqueSnapshots (db : CatalogDb) : Prop :=
  ∀ a ∈ db.snapshots.rows, ∀ b ∈ db.snapshots.rows, ∀ d, a.jobId = b.jobId →
    a.sourceDomainId = some d → b.sourceDomainId = some d → a = b

/-- Snapshots come, and none goes, changes or comes twice.  The catalog changes with the count of
its writes only. -/
structure CatalogDb.Grows (db db' : CatalogDb) : Prop where
  snapshots : ∀ k row, db.snapshots.get? k = some row → db'.snapshots.get? k = some row
  unique : db.UniqueSnapshots → db'.UniqueSnapshots
  catalog : (db'.domains = db.domains ∧ db'.targetSuffixes = db.targetSuffixes ∧
    db'.writes = db.writes) ∨ db.writes < db'.writes

/-- No lead is new. -/
def CatalogDb.NoNewLead (db db' : CatalogDb) : Prop :=
  ∀ lead ∈ db'.leads.rows, (db.leads.get? lead.id).isSome = true

section Writes

variable {rules : LeadRules} {db db' : CatalogDb}

theorem CatalogDb.Grows.refl (db : CatalogDb) : db.Grows db :=
  ⟨fun _ _ h => h, id, Or.inl ⟨rfl, rfl, rfl⟩⟩

/-- A write of other tables. -/
theorem CatalogDb.Grows.of_eq (hdomains : db'.domains = db.domains)
    (hsuffixes : db'.targetSuffixes = db.targetSuffixes) (hwrites : db'.writes = db.writes)
    (hsnapshots : db'.snapshots = db.snapshots) : db.Grows db' := by
  refine ⟨fun k row hrow => hsnapshots ▸ hrow, fun hunique => ?_,
    Or.inl ⟨hdomains, hsuffixes, hwrites⟩⟩
  unfold CatalogDb.UniqueSnapshots
  rw [hsnapshots]
  exact hunique

theorem CatalogDb.NoNewLead.of_eq (h : db'.leads = db.leads) : db.NoNewLead db' := by
  intro lead hlead
  rw [h] at hlead
  exact Option.isSome_iff_exists.mpr ⟨lead, Table.get?_of_mem hlead⟩

theorem commit_grows {write : CatalogWrite} (h : db.commit write = some db') :
    db.Grows db' ∧ db'.leads = db.leads := by
  obtain ⟨domains, jobDomains, rfl⟩ := commit_eq h
  exact ⟨⟨fun _ _ h => h, id, Or.inr (Nat.lt_succ_self _)⟩, rfl⟩

theorem addJobDomains_eq {jobId : Nat} {domainIds : List Nat}
    (h : db.addJobDomains jobId domainIds = some db') :
    ∃ jobDomains, db' = { db with jobDomains := jobDomains } := by
  unfold CatalogDb.addJobDomains at h
  split at h
  · exact ⟨_, (Option.some.inj h).symm⟩
  · cases h

/-- The snapshot that is made. -/
theorem addSnapshot_grows {jobId : Nat} {domain : CatalogDomain} {isSeed : Bool} {id : Nat}
    (h : db.addSnapshot jobId domain isSeed = some (id, db')) :
    db.Grows db' ∧ (db'.leads = db.leads ∧ db'.writes = db.writes) ∧
      db'.snapshots.get? id = some ⟨id, jobId, some domain.id, domain.fields, isSeed⟩ := by
  unfold CatalogDb.addSnapshot at h
  split at h
  · rename_i hguard
    rw [Bool.and_eq_true, Option.isNone_iff_eq_none] at hguard
    obtain ⟨rfl, rfl⟩ := Prod.mk.inj (Option.some.inj h)
    have hget := fun k => Table.get?_insertNew db.snapshots
      (fun id => ⟨id, jobId, some domain.id, domain.fields, isSeed⟩) (by intro _; rfl) k
    have hnone := Table.first?_eq_none_iff.mp hguard.2
    refine ⟨⟨fun k row hrow => ?_, fun hunique a ha b hb d hjob hda hdb => ?_,
      Or.inl ⟨rfl, rfl, rfl⟩⟩, ⟨rfl, rfl⟩, ?_⟩
    · have hne : k ≠ db.snapshots.nextKey := Nat.ne_of_lt (Table.lt_nextKey_of_get? hrow)
      exact (hget k).trans ((if_neg hne).trans hrow)
    · -- the new one is of a pair that there was not
      have hold : ∀ s ∈ db.snapshots.rows, s.jobId = jobId → s.sourceDomainId ≠ some domain.id := by
        intro s hs hsjob hsd
        have hfound := hnone s hs
        simp [hsjob, hsd] at hfound
      rcases (Table.mem_insertNew _).mp ha with ha | rfl <;>
        rcases (Table.mem_insertNew _).mp hb with hb | rfl
      · exact hunique a ha b hb d hjob hda hdb
      · exact absurd (hda.trans hdb.symm) (hold a ha hjob)
      · exact absurd (hdb.trans hda.symm) (hold b hb hjob.symm)
      · rfl
    · exact (hget _).trans (if_pos rfl)
  · cases h

theorem enrichLead_grows {item : LeadItem} (h : db.enrichLead rules item = some db') :
    db.Grows db' ∧ db.NoNewLead db' := by
  obtain ⟨lead, -, rfl⟩ := Option.map_eq_some_iff.mp h
  refine ⟨.of_eq rfl rfl rfl rfl, fun l hl => ?_⟩
  dsimp only at hl
  split at hl
  · -- it is one of those there were, enriched
    have hupdated := Table.get?_updateWhere db.leads (fun l => l.id == lead.id)
      (Lead.enrich rules.weights item) (by intro _; rfl) l.id
    obtain ⟨l₀, hl₀, -⟩ := Option.map_eq_some_iff.mp (hupdated.symm.trans (Table.get?_of_mem hl))
    exact Option.isSome_iff_exists.mpr ⟨l₀, hl₀⟩
  · exact Option.isSome_iff_exists.mpr ⟨l, Table.get?_of_mem hl⟩

theorem addLead_inserts {jobId : Nat} {item : LeadItem} {email : String} {snapshotId : Option Nat}
    {department : Option String}
    (h : db.addLead rules jobId item email snapshotId department = some db') :
    db' = { db with
      leads := db.leads.insertNew (newLead rules jobId item email snapshotId department)
        (by intro _; rfl) } := by
  unfold CatalogDb.addLead at h
  split at h
  · exact (Option.some.inj h).symm
  · cases h

end Writes

/-! ### What holds of a map, and of what is found in it -/

/-- It holds, if the catalog has not been written since. -/
def CatalogDb.AsOf (db : CatalogDb) (asOf : Nat) (p : Prop) : Prop :=
  asOf ≤ db.writes ∧ (asOf = db.writes → p)

/-- The domain of the catalog that a page belongs to. -/
def CatalogDb.domainOf (db : CatalogDb) (rules : LeadRules) (sourceUrl : String) :
    Option CatalogDomain :=
  resolveDomainForUrl rules sourceUrl (buildNetlocDomainMap rules db.domains.rows)
    db.targetSuffixes

/-- What the walk up from a host finds, it finds under some name. -/
theorem lookup_of_walkUp {D : Type} {netlocMap : List (String × D)} {suffixes labels : List String}
    {d : D} (h : walkUp netlocMap suffixes labels = some d) :
    ∃ netloc, netlocMap.lookup netloc = some d := by
  induction labels with
  | nil => cases h
  | cons label labels ih =>
      cases labels with
      | nil => cases h
      | cons label' labels =>
          unfold walkUp at h
          dsimp only at h
          split at h
          · cases h
          · cases hhit : netlocMap.lookup (".".intercalate (label :: label' :: labels)) with
            | some hit =>
                rw [hhit] at h
                exact ⟨_, hhit.trans h⟩
            | none =>
                rw [hhit] at h
                exact ih h

/-- **The domain of a page** is in the catalog, and has the lowest id of those of its netloc. -/
theorem domainOf_lowest {db : CatalogDb} {rules : LeadRules} {sourceUrl : String}
    {domain : CatalogDomain} (h : db.domainOf rules sourceUrl = some domain) :
    ∃ netloc, domain.Lowest rules db.domains.rows netloc := by
  have hlookup : ∃ netloc,
      (buildNetlocDomainMap rules db.domains.rows).lookup netloc = some domain := by
    unfold CatalogDb.domainOf resolveDomainForUrl at h
    split at h
    · cases h
    · dsimp only at h
      split at h
      · cases h
      · exact lookup_of_walkUp h
  obtain ⟨netloc, hnetloc⟩ := hlookup
  have hmaps := mapsTo_buildNetlocDomainMap rules db.domains.rows netloc
  rw [hnetloc] at hmaps
  exact ⟨netloc, hmaps⟩

/-- The snapshot is that of the domain in the job; without a domain there is none. -/
def CatalogDb.AttributedTo (db : CatalogDb) (jobId : Nat) (snapshotId : Option Nat) :
    Option CatalogDomain → Prop
  | none => snapshotId = none
  | some domain => ∃ row, row ∈ snapshotId.bind db.snapshots.get? ∧
      row.jobId = jobId ∧ row.sourceDomainId = some domain.id

instance (db : CatalogDb) (jobId : Nat) (snapshotId : Option Nat) :
    ∀ domain, Decidable (db.AttributedTo jobId snapshotId domain)
  | none => inferInstanceAs (Decidable (snapshotId = none))
  | some domain => inferInstanceAs (Decidable (∃ row, row ∈ snapshotId.bind db.snapshots.get? ∧
      row.jobId = jobId ∧ row.sourceDomainId = some domain.id))

/-- What the agent sends for a snapshot is one of the job, or none. -/
def CatalogDb.OwnSnapshot (db : CatalogDb) (call : SaveCall) : Prop :=
  ∀ k, k ∈ call.item.snapshotId → ∃ row, row ∈ db.snapshots.get? k ∧ row.jobId = call.jobId

instance (db : CatalogDb) (call : SaveCall) : Decidable (db.OwnSnapshot call) :=
  inferInstanceAs (Decidable (∀ k, k ∈ call.item.snapshotId →
    ∃ row, row ∈ db.snapshots.get? k ∧ row.jobId = call.jobId))

def NetlocMap.Sound (rules : LeadRules) (db : CatalogDb) (map : NetlocMap) : Prop :=
  db.AsOf map.asOf (map.entries = buildNetlocDomainMap rules db.domains.rows)

def MapPc.Sound (rules : LeadRules) (db : CatalogDb) : MapPc → Prop
  | .store map => map.Sound rules db
  | _ => True

def SavePc.Sound (rules : LeadRules) (db : CatalogDb) (call : SaveCall) : SavePc → Prop
  | .find => True
  | .map pc => pc.Sound rules db
  | .resolve found => ∀ m, found = some m → m.Sound rules db
  | .inherit resolved asOf | .snapshot resolved asOf _ =>
      db.AsOf asOf (db.domainOf rules call.item.sourceUrl = some resolved)
  | .department snapshotId asOf | .insert snapshotId _ asOf =>
      db.AsOf asOf (db.AttributedTo call.jobId snapshotId (db.domainOf rules call.item.sourceUrl))

def CatalogPc.Sound (rules : LeadRules) (db : CatalogDb) : CatalogPc → Prop
  | .save call pc => db.OwnSnapshot call ∧ pc.Sound rules db call
  | _ => True

/-- The invariant of what calls share. -/
structure Portal.Sound (rules : LeadRules) (s : Portal) : Prop where
  unique : s.db.UniqueSnapshots
  caches : ∀ process m, (s.objects process).netlocMapCache = some m → m.Sound rules s.db

/-- Where it goes on, and what it returns. -/
def Turn.Meets {P R : Type} (p : P → Prop) (q : R → Prop) : Turn P R → Prop
  | .goto pc => p pc
  | .returns r => q r
  | .raises => True

section Stability

variable {rules : LeadRules} {db db' : CatalogDb}

theorem CatalogDb.AsOf.grows {asOf : Nat} {p p' : Prop} (h : db.AsOf asOf p) (hgrows : db.Grows db')
    (hp : db'.domains = db.domains → db'.targetSuffixes = db.targetSuffixes → p → p') :
    db'.AsOf asOf p' := by
  rcases hgrows.catalog with ⟨hdomains, hsuffixes, hwrites⟩ | hlt
  · exact ⟨hwrites ▸ h.1, fun heq => hp hdomains hsuffixes (h.2 (heq.trans hwrites))⟩
  · have hasOf : asOf < db'.writes := Nat.lt_of_le_of_lt h.1 hlt
    exact ⟨Nat.le_of_lt hasOf, fun heq => absurd heq (Nat.ne_of_lt hasOf)⟩

theorem CatalogDb.AttributedTo.grows {jobId : Nat} {snapshotId : Option Nat}
    {domain : Option CatalogDomain} (h : db.AttributedTo jobId snapshotId domain)
    (hgrows : db.Grows db') : db'.AttributedTo jobId snapshotId domain := by
  cases domain with
  | none => exact h
  | some domain =>
      obtain ⟨row, hrow, hof⟩ := h
      obtain ⟨k, rfl, hget⟩ := Option.bind_eq_some_iff.mp hrow
      exact ⟨row, hgrows.snapshots k row hget, hof⟩

theorem CatalogDb.OwnSnapshot.grows {call : SaveCall} (h : db.OwnSnapshot call)
    (hgrows : db.Grows db') : db'.OwnSnapshot call := by
  intro k hk
  obtain ⟨row, hrow, hjob⟩ := h k hk
  exact ⟨row, hgrows.snapshots k row hrow, hjob⟩

theorem domainOf_congr (hdomains : db'.domains = db.domains)
    (hsuffixes : db'.targetSuffixes = db.targetSuffixes) (sourceUrl : String) :
    db'.domainOf rules sourceUrl = db.domainOf rules sourceUrl := by
  unfold CatalogDb.domainOf
  rw [hdomains, hsuffixes]

theorem NetlocMap.Sound.grows {map : NetlocMap} (h : map.Sound rules db) (hgrows : db.Grows db') :
    map.Sound rules db' :=
  CatalogDb.AsOf.grows h hgrows fun hdomains _ hentries => hdomains ▸ hentries

theorem SavePc.Sound.grows {call : SaveCall} {pc : SavePc} (h : pc.Sound rules db call)
    (hgrows : db.Grows db') : pc.Sound rules db' call := by
  have hresolved : ∀ {asOf resolved},
      db.AsOf asOf (db.domainOf rules call.item.sourceUrl = some resolved) →
      db'.AsOf asOf (db'.domainOf rules call.item.sourceUrl = some resolved) := fun h =>
    h.grows hgrows fun hdomains hsuffixes hd => (domainOf_congr hdomains hsuffixes _).trans hd
  have hattributed : ∀ {asOf snapshotId},
      db.AsOf asOf (db.AttributedTo call.jobId snapshotId
        (db.domainOf rules call.item.sourceUrl)) →
      db'.AsOf asOf (db'.AttributedTo call.jobId snapshotId
        (db'.domainOf rules call.item.sourceUrl)) := fun h =>
    h.grows hgrows fun hdomains hsuffixes hd =>
      (domainOf_congr hdomains hsuffixes _).symm ▸ CatalogDb.AttributedTo.grows hd hgrows
  cases pc with
  | find => trivial
  | map pc =>
      cases pc with
      | store map => exact NetlocMap.Sound.grows h hgrows
      | _ => trivial
  | resolve map => exact fun m hm => NetlocMap.Sound.grows (h m hm) hgrows
  | inherit resolved asOf => exact hresolved h
  | snapshot resolved asOf pc => exact hresolved h
  | department snapshotId asOf => exact hattributed h
  | insert snapshotId department asOf => exact hattributed h

theorem CatalogPc.Sound.grows {pc : CatalogPc} (h : pc.Sound rules db) (hgrows : db.Grows db') :
    pc.Sound rules db' := by
  cases pc with
  | save call pc => exact ⟨h.1.grows hgrows, h.2.grows hgrows⟩
  | _ => trivial

/-- Writes of the database keep the invariant. -/
theorem Portal.Sound.grows {s : Portal} (h : s.Sound rules) (hgrows : s.db.Grows db') :
    Portal.Sound rules { s with db := db' } :=
  ⟨hgrows.unique h.unique, fun process m hm => (h.caches process m hm).grows hgrows⟩

/-- So does a cache that is emptied or gets a map. -/
theorem Portal.Sound.setObject {s : Portal} (h : s.Sound rules) {process : Nat}
    {f : DatabaseObject → DatabaseObject}
    (hf : ∀ m, (f (s.objects process)).netlocMapCache = some m → m.Sound rules s.db) :
    (s.setObject process f).Sound rules := by
  refine ⟨h.unique, fun q m hm => ?_⟩
  rw [setObject_objects] at hm
  split at hm
  · rename_i hq
    exact hf m (hq ▸ hm)
  · exact h.caches q m hm

end Stability

/-! ### One step of each function -/

section Functions

variable {rules : LeadRules} {s s' : Portal} {process : Nat}

theorem writeStep_spec (hs : s.Sound rules) (pc : WritePc) :
    s.db.Grows (s.writeStep process pc).1.db ∧
      (s.writeStep process pc).1.db.leads = s.db.leads ∧ (s.writeStep process pc).1.Sound rules := by
  cases pc with
  | commit write =>
      dsimp only [Portal.writeStep]
      cases hcommit : s.db.commit write with
      | none => exact ⟨.refl _, rfl, hs⟩
      | some db =>
          obtain ⟨hgrows, hleads⟩ := commit_grows hcommit
          exact ⟨hgrows, hleads, hs.grows hgrows⟩
  | invalidate =>
      dsimp only [Portal.writeStep]
      refine ⟨.refl _, rfl, Portal.Sound.setObject hs fun m hm => ?_⟩
      cases hm

/-- `create_crawl_snapshot` returns a snapshot of the job and the domain. -/
theorem crawlSnapshotStep_spec (db : CatalogDb) (jobId : Nat) (domain : CatalogDomain)
    (isSeed : Bool) (pc : SnapshotPc) :
    db.Grows (db.crawlSnapshotStep jobId domain isSeed pc).1 ∧
      ((db.crawlSnapshotStep jobId domain isSeed pc).1.leads = db.leads ∧
        (db.crawlSnapshotStep jobId domain isSeed pc).1.writes = db.writes) ∧
      (db.crawlSnapshotStep jobId domain isSeed pc).2.Meets (fun _ => True) fun id =>
        (db.crawlSnapshotStep jobId domain isSeed pc).1.AttributedTo jobId (some id)
          (some domain) := by
  have hfound : ∀ {row}, db.findSnapshot jobId domain.id = some row →
      db.AttributedTo jobId (some row.id) (some domain) := by
    intro row hrow
    obtain ⟨hof, hget⟩ := Table.first?_spec hrow
    rw [Bool.and_eq_true, beq_iff_eq, beq_iff_eq] at hof
    exact ⟨row, hget, hof.1, hof.2⟩
  cases pc with
  | find =>
      dsimp only [CatalogDb.crawlSnapshotStep]
      cases hfind : db.findSnapshot jobId domain.id with
      | some row => exact ⟨.refl _, ⟨rfl, rfl⟩, hfound hfind⟩
      | none => exact ⟨.refl _, ⟨rfl, rfl⟩, trivial⟩
  | insert =>
      dsimp only [CatalogDb.crawlSnapshotStep]
      cases hadd : db.addSnapshot jobId domain isSeed with
      | some r =>
          obtain ⟨hgrows, hsame, hget⟩ := addSnapshot_grows hadd
          exact ⟨hgrows, hsame, _, hget, rfl, rfl⟩
      | none => exact ⟨.refl _, ⟨rfl, rfl⟩, trivial⟩
  | findAgain =>
      dsimp only [CatalogDb.crawlSnapshotStep]
      cases hfind : db.findSnapshot jobId domain.id with
      | some row => exact ⟨.refl _, ⟨rfl, rfl⟩, hfound hfind⟩
      | none => exact ⟨.refl _, ⟨rfl, rfl⟩, trivial⟩

theorem jobStep_spec (db : CatalogDb) (pc : JobPc) :
    db.Grows (db.jobStep pc).1 ∧ (db.jobStep pc).1.leads = db.leads ∧
      (db.jobStep pc).1.writes = db.writes := by
  cases pc with
  | create req ownerId =>
      dsimp only [CatalogDb.jobStep]
      split <;> exact ⟨.refl _, rfl, rfl⟩
  | insertJob req ownerId domains => exact ⟨.of_eq rfl rfl rfl rfl, rfl, rfl⟩
  | insertJobDomains jobId domainIds domains =>
      dsimp only [CatalogDb.jobStep]
      cases hadd : db.addJobDomains jobId domainIds with
      | none => exact ⟨.refl _, rfl, rfl⟩
      | some db' =>
          obtain ⟨jobDomains, rfl⟩ := addJobDomains_eq hadd
          exact ⟨.of_eq rfl rfl rfl rfl, rfl, rfl⟩
  | resume jobId =>
      dsimp only [CatalogDb.jobStep]
      cases db.jobs.get? jobId with
      | none => exact ⟨.refl _, rfl, rfl⟩
      | some job => exact ⟨.refl _, rfl, rfl⟩
  | findJobDomains jobId => exact ⟨.refl _, rfl, rfl⟩
  | findDomains jobId domainIds => exact ⟨.refl _, rfl, rfl⟩
  | snapshot jobId domain rest pc =>
      obtain ⟨hgrows, hsame, -⟩ := crawlSnapshotStep_spec db jobId domain true pc
      exact ⟨hgrows, hsame⟩

/-- No function of the map writes the database. -/
theorem netlocMapStep_db {pc : MapPc} {turn : Turn MapPc (Option NetlocMap)}
    (h : s.netlocMapStep rules process pc = some (s', turn)) : s'.db = s.db := by
  cases pc with
  | lock =>
      dsimp only [Portal.netlocMapStep] at h
      split at h
      · cases h
      · cases h
        rfl
  | _ =>
      cases h
      rfl

/-- What is stored and returned is a map of the catalog, as of some time. -/
theorem netlocMapStep_spec {pc : MapPc} {turn : Turn MapPc (Option NetlocMap)} (hs : s.Sound rules)
    (hpc : pc.Sound rules s.db) (h : s.netlocMapStep rules process pc = some (s', turn)) :
    s'.Sound rules ∧
      turn.Meets (MapPc.Sound rules s.db) fun map => ∀ m, map = some m → m.Sound rules s.db := by
  cases pc with
  | look =>
      cases h
      refine ⟨hs, ?_⟩
      unfold Turn.Meets
      dsimp only
      split <;> trivial
  | take =>
      cases h
      exact ⟨hs, hs.caches process⟩
  | lock =>
      dsimp only [Portal.netlocMapStep] at h
      split at h
      · cases h
      · cases h
        exact ⟨Portal.Sound.setObject hs (hs.caches process), trivial⟩
  | check =>
      cases h
      refine ⟨hs, ?_⟩
      unfold Turn.Meets
      dsimp only
      split <;> trivial
  | query =>
      cases h
      exact ⟨hs, Nat.le_refl _, fun _ => rfl⟩
  | store map =>
      cases h
      refine ⟨Portal.Sound.setObject hs fun m hm => ?_, trivial⟩
      obtain rfl := Option.some.inj hm
      exact hpc
  | takeLocked =>
      cases h
      exact ⟨Portal.Sound.setObject hs (hs.caches process), hs.caches process⟩

/-- Nothing is found for a page that nothing is looked up for. -/
theorem resolveDomainForUrl_of_not_looksUp {D : Type} {sourceUrl : String}
    {targetSuffixes : List String} (h : looksUp rules sourceUrl targetSuffixes = false)
    (netlocMap : List (String × D)) :
    resolveDomainForUrl rules sourceUrl netlocMap targetSuffixes = none := by
  unfold looksUp at h
  unfold resolveDomainForUrl
  cases hnetloc : rules.netloc sourceUrl with
  | none => rfl
  | some netloc =>
      rw [hnetloc] at h
      dsimp only at h ⊢
      split
      · rfl
      · rename_i hhost
        rw [if_neg hhost] at h
        generalize (List.splitOn '.' _).map String.ofList = labels at h ⊢
        cases labels with
        | nil => rfl
        | cons label labels =>
            cases labels with
            | nil => rfl
            | cons label' labels =>
                rw [walkUp, if_pos (by simpa using h)]

/-- What is found in a map is what the catalog has, as of the map. -/
theorem resolveIn_spec {db : CatalogDb} {sourceUrl : String} {map : Option NetlocMap}
    (hmap : ∀ m, map = some m → m.Sound rules db) {resolved : Option CatalogDomain}
    (h : resolveIn rules sourceUrl db.targetSuffixes map = .ok resolved) :
    db.AsOf ((map.map NetlocMap.asOf).getD db.writes) (db.domainOf rules sourceUrl = resolved) := by
  cases map with
  | none =>
      dsimp only [resolveIn] at h
      split at h
      · cases h
      · rename_i hlooks
        cases h
        exact ⟨Nat.le_refl _, fun _ => resolveDomainForUrl_of_not_looksUp (by simpa using hlooks) _⟩
  | some m =>
      cases h
      obtain ⟨hle, hentries⟩ := hmap m rfl
      refine ⟨hle, fun heq => ?_⟩
      unfold CatalogDb.domainOf
      rw [hentries heq]

/-- A snapshot that came with the item is kept if it is of the domain. -/
theorem attributedTo_inherited {db : CatalogDb} {call : SaveCall} (hown : db.OwnSnapshot call)
    {resolved : CatalogDomain} (h : some resolved.id = db.inheritedOf call.item) :
    db.AttributedTo call.jobId call.item.snapshotId (some resolved) := by
  obtain ⟨k, hk, hdomain⟩ := Option.bind_eq_some_iff.mp h.symm
  obtain ⟨row, hrow, hid⟩ := Option.bind_eq_some_iff.mp hdomain
  obtain ⟨row', hrow', hjob⟩ := hown k hk
  obtain rfl := Option.some.inj (hrow.symm.trans hrow')
  refine ⟨row, ?_, hjob, hid⟩
  rw [hk]
  exact hrow

theorem saveStep_spec {call : SaveCall} {pc : SavePc} {turn : Turn SavePc Bool}
    (hs : s.Sound rules) (hown : s.db.OwnSnapshot call) (hpc : pc.Sound rules s.db call)
    (h : s.saveStep rules process call pc = some (s', turn)) :
    s.db.Grows s'.db ∧ s'.Sound rules ∧ turn.Meets (SavePc.Sound rules s'.db call) fun _ => True := by
  cases pc with
  | find =>
      dsimp only [Portal.saveStep] at h
      cases henrich : s.db.enrichLead rules call.item with
      | some db =>
          rw [henrich] at h
          cases h
          obtain ⟨hgrows, -⟩ := enrichLead_grows henrich
          exact ⟨hgrows, hs.grows hgrows, trivial⟩
      | none =>
          rw [henrich] at h
          cases h
          exact ⟨.refl _, hs, trivial⟩
  | map pc =>
      obtain ⟨⟨s₁, mapTurn⟩, hmap, heq⟩ := Option.map_eq_some_iff.mp h
      obtain ⟨hsound, hturn⟩ := netlocMapStep_spec hs hpc hmap
      have hdb := netlocMapStep_db hmap
      obtain ⟨rfl, rfl⟩ := Prod.mk.inj heq
      refine ⟨hdb ▸ .refl _, hsound, ?_⟩
      dsimp only
      rw [hdb]
      cases mapTurn with
      | goto pc => exact hturn
      | returns map => exact hturn
      | raises => trivial
  | resolve map =>
      cases h
      refine ⟨.refl _, hs, ?_⟩
      cases hresolve : resolveIn rules call.item.sourceUrl s.db.targetSuffixes map with
      | error e => trivial
      | ok resolved =>
          obtain ⟨hle, hdomain⟩ := resolveIn_spec hpc hresolve
          cases resolved with
          | none => exact ⟨hle, fun heq => by rw [hdomain heq]; rfl⟩
          | some resolved => exact ⟨hle, hdomain⟩
  | inherit resolved asOf =>
      cases h
      refine ⟨.refl _, hs, ?_⟩
      by_cases hsame : some resolved.id = s.db.inheritedOf call.item
      · rw [if_pos hsame]
        refine ⟨hpc.1, fun heq => ?_⟩
        rw [hpc.2 heq]
        exact attributedTo_inherited hown hsame
      · rw [if_neg hsame]
        exact hpc
  | snapshot resolved asOf pc =>
      obtain ⟨hgrows, -, hturn⟩ := crawlSnapshotStep_spec s.db call.jobId resolved false pc
      cases h
      refine ⟨hgrows, hs.grows hgrows, ?_⟩
      have hdomain := SavePc.Sound.grows hpc hgrows
      cases hsnapshot : (s.db.crawlSnapshotStep call.jobId resolved false pc).2 with
      | goto pc => exact hdomain
      | returns id =>
          rw [hsnapshot] at hturn
          refine ⟨hdomain.1, fun heq => ?_⟩
          rw [hdomain.2 heq]
          exact hturn
      | raises => trivial
  | department snapshotId asOf =>
      cases snapshotId with
      | none =>
          cases h
          exact ⟨.refl _, hs, hpc⟩
      | some k =>
          cases h
          refine ⟨.refl _, hs, ?_⟩
          cases departmentIsUrlFallback rules call.item.fieldProvenance with
          | error e => trivial
          | ok fallback => exact hpc
  | insert snapshotId department asOf =>
      dsimp only [Portal.saveStep] at h
      cases hadd : s.db.addLead rules call.jobId call.item (storedEmail rules call.item) snapshotId
          department with
      | none =>
          rw [hadd] at h
          cases h
          exact ⟨.refl _, hs, trivial⟩
      | some db =>
          rw [hadd] at h
          cases h
          have hgrows : s.db.Grows db := addLead_inserts hadd ▸ .of_eq rfl rfl rfl rfl
          exact ⟨hgrows, hs.grows hgrows, trivial⟩

/-- Only the insert of `save_lead` makes a new lead. -/
theorem saveStep_leads {call : SaveCall} {pc : SavePc} {turn : Turn SavePc Bool}
    (h : s.saveStep rules process call pc = some (s', turn)) :
    s.db.NoNewLead s'.db ∨ ∃ snapshotId department asOf, pc = .insert snapshotId department asOf ∧
      s.db.addLead rules call.jobId call.item (storedEmail rules call.item) snapshotId department =
        some s'.db := by
  cases pc with
  | find =>
      dsimp only [Portal.saveStep] at h
      cases henrich : s.db.enrichLead rules call.item with
      | some db =>
          rw [henrich] at h
          cases h
          obtain ⟨-, hleads⟩ := enrichLead_grows henrich
          exact Or.inl hleads
      | none =>
          rw [henrich] at h
          cases h
          exact Or.inl (.of_eq rfl)
  | map pc =>
      obtain ⟨⟨s₁, mapTurn⟩, hmap, heq⟩ := Option.map_eq_some_iff.mp h
      obtain ⟨rfl, -⟩ := Prod.mk.inj heq
      exact Or.inl (.of_eq (congrArg CatalogDb.leads (netlocMapStep_db hmap)))
  | resolve map =>
      cases h
      exact Or.inl (.of_eq rfl)
  | inherit resolved asOf =>
      cases h
      exact Or.inl (.of_eq rfl)
  | snapshot resolved asOf pc =>
      obtain ⟨-, ⟨hleads, -⟩, -⟩ := crawlSnapshotStep_spec s.db call.jobId resolved false pc
      cases h
      exact Or.inl (.of_eq hleads)
  | department snapshotId asOf =>
      cases snapshotId with
      | none =>
          cases h
          exact Or.inl (.of_eq rfl)
      | some k =>
          cases h
          exact Or.inl (.of_eq rfl)
  | insert snapshotId department asOf =>
      dsimp only [Portal.saveStep] at h
      cases hadd : s.db.addLead rules call.jobId call.item (storedEmail rules call.item) snapshotId
          department with
      | none =>
          rw [hadd] at h
          cases h
          exact Or.inl (.of_eq rfl)
      | some db =>
          rw [hadd] at h
          cases h
          exact Or.inr ⟨snapshotId, department, asOf, rfl, hadd⟩

/-- The lead that the insert makes is that of the call. -/
theorem addLead_new {db db' : CatalogDb} {jobId : Nat} {item : LeadItem} {email : String}
    {snapshotId : Option Nat} {department : Option String}
    (h : db.addLead rules jobId item email snapshotId department = some db') {lead : Lead}
    (hlead : lead ∈ db'.leads.rows) (hnew : db.leads.get? lead.id = none) :
    lead.jobId = jobId ∧ lead.sourceUrl = item.sourceUrl ∧ lead.snapshotId = snapshotId := by
  obtain rfl := addLead_inserts h
  rcases List.mem_append.mp hlead with hold | hlast
  · have hget := Table.get?_of_mem hold
    exact absurd (hget.symm.trans hnew) nofun
  · obtain rfl := List.mem_singleton.mp hlast
    exact ⟨rfl, rfl, rfl⟩

end Functions

/-! ### Runs -/

/-- Nothing is going on. -/
structure PortalRun.StartsUp (s : PortalRun) : Prop where
  threads : s.threads = []
  objects : ∀ process, (s.shared.objects process).netlocMapCache = none
  unique : s.shared.db.UniqueSnapshots

/-- Agents send snapshots of the job, or none. -/
def SendsOwn (s : PortalRun) : CatalogAction → Prop
  | .call _ (.saveLead call) => s.shared.db.OwnSnapshot call
  | _ => True

instance : ∀ s a, Decidable (SendsOwn s a)
  | s, .call _ (.saveLead call) => inferInstanceAs (Decidable (s.shared.db.OwnSnapshot call))
  | _, .call _ (.write _) => .isTrue trivial
  | _, .call _ (.createJob _ _) => .isTrue trivial
  | _, .call _ (.resumeJob _) => .isTrue trivial
  | _, .advance _ => .isTrue trivial
  | _, .abort _ => .isTrue trivial
  | _, .restart _ => .isTrue trivial

/-- How many writes the map was as of that a lead about to be inserted is attributed with. -/
def CatalogPc.insertsAsOf : CatalogPc → Option Nat
  | .save _ (.insert _ _ asOf) => some asOf
  | _ => none

/-- A lead that is inserted has been attributed with a map that is as of the last write. -/
def InsertsCurrent (s : PortalRun) : CatalogAction → Prop
  | .advance i =>
      ∀ asOf, asOf ∈ s.threads[i]?.bind (fun c => c.pc.insertsAsOf) → asOf = s.shared.db.writes
  | _ => True

instance : ∀ s a, Decidable (InsertsCurrent s a)
  | s, .advance i => inferInstanceAs (Decidable (∀ asOf,
      asOf ∈ s.threads[i]?.bind (fun c => c.pc.insertsAsOf) → asOf = s.shared.db.writes))
  | _, .call _ _ => .isTrue trivial
  | _, .abort _ => .isTrue trivial
  | _, .restart _ => .isTrue trivial

/-- A lead that is new has the snapshot of the domain that its page belongs to. -/
def InsertsAttributed (rules : LeadRules) (s : PortalRun) (a : CatalogAction) : Prop :=
  ∀ s', s' ∈ s.step rules a → ∀ lead ∈ s'.shared.db.leads.rows,
    s.shared.db.leads.get? lead.id = none →
    s'.shared.db.AttributedTo lead.jobId lead.snapshotId
      (s.shared.db.domainOf rules lead.sourceUrl)

instance (rules : LeadRules) (s : PortalRun) (a : CatalogAction) :
    Decidable (InsertsAttributed rules s a) :=
  inferInstanceAs (Decidable (∀ s', s' ∈ s.step rules a → ∀ lead ∈ s'.shared.db.leads.rows,
    s.shared.db.leads.get? lead.id = none →
    s'.shared.db.AttributedTo lead.jobId lead.snapshotId
      (s.shared.db.domainOf rules lead.sourceUrl)))

/-- The invariant. -/
abbrev PortalRun.Sound (rules : LeadRules) : PortalRun → Prop :=
  Holds (Portal.Sound rules) fun s c => c.pc.Sound rules s.db

section Runs

variable {rules : LeadRules} {s s' : Portal} {process : Nat}

theorem step_spec {pc pc' : CatalogPc} (hs : s.Sound rules) (hpc : pc.Sound rules s.db)
    (h : s.step rules process pc = some (s', pc')) :
    s.db.Grows s'.db ∧ s'.Sound rules ∧ pc'.Sound rules s'.db := by
  cases pc with
  | finished => cases h
  | write pc =>
      obtain ⟨hgrows, -, hsound⟩ := @writeStep_spec rules s process hs pc
      cases h
      refine ⟨hgrows, hsound, ?_⟩
      cases (s.writeStep process pc).2 <;> trivial
  | job pc =>
      obtain ⟨hgrows, -⟩ := jobStep_spec s.db pc
      cases h
      refine ⟨hgrows, hs.grows hgrows, ?_⟩
      cases (s.db.jobStep pc).2 <;> trivial
  | save call pc =>
      obtain ⟨⟨s₁, turn⟩, hsave, heq⟩ := Option.map_eq_some_iff.mp h
      obtain ⟨hgrows, hsound, hturn⟩ := saveStep_spec hs hpc.1 hpc.2 hsave
      obtain ⟨rfl, rfl⟩ := Prod.mk.inj heq
      refine ⟨hgrows, hsound, ?_⟩
      cases turn with
      | goto pc => exact ⟨hpc.1.grows hgrows, hturn⟩
      | returns saved => trivial
      | raises => trivial

theorem abort_spec {c c' : CatalogCall} (hs : s.Sound rules)
    (h : CatalogCall.abort s c = some (s', c')) :
    s'.db = s.db ∧ s'.Sound rules ∧ c'.pc = .finished := by
  have hunlock : ∀ process,
      (s.setObject process fun o => { o with locked := false }).Sound rules :=
    fun process => Portal.Sound.setObject hs (hs.caches process)
  unfold CatalogCall.abort at h
  split at h
  · cases h
  · cases h
    split
    · exact ⟨rfl, hunlock _, rfl⟩
    · exact ⟨rfl, hs, rfl⟩
  · cases h
    exact ⟨rfl, hs, rfl⟩

variable {pool pool' : PortalRun}

/-- The step lemma of the invariant. -/
theorem PortalRun.Sound.step (h : PortalRun.Sound rules pool) {a : CatalogAction}
    (hown : SendsOwn pool a) (hstep : pool.step rules a = some pool') :
    PortalRun.Sound rules pool' ∧ pool.shared.db.Grows pool'.shared.db := by
  cases a with
  | call process request =>
      cases hstep
      refine ⟨h.spawn ?_, .refl _⟩
      cases request with
      | write w => trivial
      | createJob req ownerId => trivial
      | resumeJob jobId => trivial
      | saveLead call =>
          show CatalogPc.Sound rules pool.shared.db (if _ then _ else _)
          split
          · exact ⟨hown, trivial⟩
          · trivial
  | advance i =>
      have hnext : ∀ c s c', pool.shared.Sound rules → c.pc.Sound rules pool.shared.db →
          CatalogCall.next rules pool.shared c = some (s, c') →
          pool.shared.db.Grows s.db ∧ s.Sound rules ∧ c'.pc.Sound rules s.db := by
        intro c s c' hs hc hnext
        obtain ⟨⟨s₁, pc⟩, hpc, heq⟩ := Option.map_eq_some_iff.mp hnext
        obtain ⟨rfl, rfl⟩ := Prod.mk.inj heq
        exact step_spec hs hc hpc
      refine ⟨h.advance (fun c s c' hs hc hn => ?_) hstep, ?_⟩
      · obtain ⟨hgrows, hsound, hown⟩ := hnext c s c' hs hc hn
        exact ⟨hsound, hown, fun u hu => hu.grows hgrows⟩
      · obtain ⟨c, s, c', hget, hn, rfl⟩ := Pool.advance_eq_some.mp hstep
        exact (hnext c s c' h.shared (h.threads c (List.mem_of_getElem? hget)) hn).1
  | abort i =>
      refine ⟨h.advance (fun c s c' hs hc hn => ?_) hstep, ?_⟩
      · obtain ⟨hdb, hsound, hfinished⟩ := abort_spec hs hn
        rw [hdb, hfinished]
        exact ⟨hsound, trivial, fun u hu => hu⟩
      · obtain ⟨c, s, c', hget, hn, rfl⟩ := Pool.advance_eq_some.mp hstep
        exact (abort_spec h.shared hn).1 ▸ .refl _
  | restart process =>
      cases hstep
      refine ⟨h.replace (h.shared.setObject fun m hm => by cases hm) fun c hc => ?_, .refl _⟩
      unfold CatalogCall.endedIn
      split
      · trivial
      · exact hc

/-- A new lead is attributed by the catalog, if its map is as of the last write. -/
theorem PortalRun.Sound.insertsAttributed (h : PortalRun.Sound rules pool) {a : CatalogAction}
    (hown : SendsOwn pool a) (hcurrent : InsertsCurrent pool a) :
    InsertsAttributed rules pool a := by
  intro pool' hstep lead hlead hnew
  have hgrows := (h.step hown hstep).2
  have hold : pool.shared.db.NoNewLead pool'.shared.db → False := fun hnone => by
    have hthere := hnone lead hlead
    rw [hnew] at hthere
    cases hthere
  cases a with
  | call process request =>
      cases hstep
      exact (hold (.of_eq rfl)).elim
  | advance i =>
      obtain ⟨c, s, c', hget, hnext, rfl⟩ := Pool.advance_eq_some.mp hstep
      have hc := h.threads c (List.mem_of_getElem? hget)
      have hasOf := fun asOf h => hcurrent asOf (Option.bind_eq_some_iff.mpr ⟨c, hget, h⟩)
      obtain ⟨process, pc⟩ := c
      obtain ⟨⟨s₁, pc'⟩, hpc, heq⟩ := Option.map_eq_some_iff.mp hnext
      obtain ⟨rfl, rfl⟩ := Prod.mk.inj heq
      cases pc with
      | finished => cases hpc
      | write pc =>
          obtain ⟨-, hleads, -⟩ := @writeStep_spec rules _ process h.shared pc
          cases hpc
          exact (hold (.of_eq hleads)).elim
      | job pc =>
          obtain ⟨-, hleads, -⟩ := jobStep_spec pool.shared.db pc
          cases hpc
          exact (hold (.of_eq hleads)).elim
      | save call pc =>
          obtain ⟨⟨s₂, turn⟩, hsave, heq⟩ := Option.map_eq_some_iff.mp hpc
          obtain ⟨rfl, -⟩ := Prod.mk.inj heq
          rcases saveStep_leads hsave with hnone | ⟨snapshotId, department, asOf, rfl, hadd⟩
          · exact (hold hnone).elim
          · obtain ⟨hjob, hurl, hsnapshot⟩ := addLead_new hadd hlead hnew
            rw [hjob, hurl, hsnapshot]
            exact CatalogDb.AttributedTo.grows
              (hc.2.2 (hasOf asOf rfl)) hgrows
  | abort i =>
      obtain ⟨c, s, c', hget, hnext, rfl⟩ := Pool.advance_eq_some.mp hstep
      exact (hold (.of_eq (congrArg CatalogDb.leads (abort_spec h.shared hnext).1))).elim
  | restart process =>
      cases hstep
      exact (hold (.of_eq rfl)).elim

end Runs

/-- What there is when nothing is going on is sound. -/
theorem PortalRun.StartsUp.sound {rules : LeadRules} {s : PortalRun} (h : s.StartsUp) :
    PortalRun.Sound rules s := by
  refine ⟨⟨h.unique, fun process m hm => ?_⟩, fun c hc => ?_⟩
  · rw [h.objects process] at hm
    cases hm
  · rw [h.threads] at hc
    cases hc

/--
**Leads are attributed by the catalog**, in every run in which no lead is inserted with a map that
is older than the last write.  In every run of agents that send snapshots of their jobs, a job has
one snapshot of a domain, and a snapshot stays as it was inserted.
-/
theorem attributed_by_catalog (rules : LeadRules) (s t u : PortalRun) (as bs : List CatalogAction)
    (hstart : s.StartsUp) (hrun : run (PortalRun.step rules) s as = some t)
    (hrest : run (PortalRun.step rules) t bs = some u)
    (hown : Meets (PortalRun.step rules) SendsOwn s (as ++ bs)) :
    (Meets (PortalRun.step rules) InsertsCurrent s as →
        Meets (PortalRun.step rules) (InsertsAttributed rules) s as) ∧
      t.shared.db.UniqueSnapshots ∧
      ∀ k row, t.shared.db.snapshots.get? k = some row →
        u.shared.db.snapshots.get? k = some row := by
  obtain ⟨hown, hownRest⟩ := hown.append hrun
  have hstep : ∀ s a s', PortalRun.Sound rules s → SendsOwn s a → s.step rules a = some s' →
      PortalRun.Sound rules s' := fun s a s' h ha hs => (h.step ha hs).1
  have hsound : PortalRun.Sound rules t := run_invariant hstep hstart.sound hown hrun
  refine ⟨fun hcurrent => ?_, hsound.shared.unique, fun k row hrow => ?_⟩
  · exact Meets.of_invariant (fun s a s' h ha hs => (h.step ha.1 hs).1)
      (fun s a h ha => h.insertsAttributed ha.1 ha.2) hstart.sound (hown.and hcurrent)
  · have hkept := @run_invariant _ _ _ _
      (fun s => PortalRun.Sound rules s ∧ s.shared.db.snapshots.get? k = some row)
      (fun s a s' h ha hs => ⟨(h.1.step ha hs).1, (h.1.step ha hs).2.snapshots k row h.2⟩)
      t u bs ⟨hsound, hrow⟩ hownRest hrest
    exact hkept.2

/-! A domain, a job for it, and two leads of its contact page. -/

def thaneRules : LeadRules where
  lower := id
  netloc := fun url =>
    if url = "https://thane.gov.in" ∨ url = "https://thane.gov.in/contact" then some "thane.gov.in"
    else none
  loads := fun _ => .malformed

def thaneFields : DomainFields where
  categoryCode := "state"
  title := some "Thane"
  mainUrl := some "https://thane.gov.in"

def thaneStart : PortalRun := ⟨⟨{}, fun _ => {}⟩, []⟩

/-- A lead that comes with the snapshot of the seed. -/
def thaneLead (email : String) : CatalogAction :=
  .call 0 (.saveLead ⟨1, {
    snapshotId := some 1, email := some email, sourceUrl := "https://thane.gov.in/contact" }⟩)

/-- The domain is entered, and a job created for it. -/
def thaneJob : List CatalogAction :=
  [.call 0 (.write (.upsertDomain insertionOrder thaneFields)), .advance 0, .advance 0,
    .call 0 (.createJob { domainIds := [1] } 3)] ++ List.replicate 5 (.advance 1)

theorem thane_attributed :
    Meets (PortalRun.step thaneRules) (InsertsAttributed thaneRules) thaneStart
        (thaneJob ++ thaneLead "a@thane.gov.in" :: List.replicate 11 (.advance 2)) ∧
      ((run (PortalRun.step thaneRules) thaneStart
          (thaneJob ++ thaneLead "a@thane.gov.in" :: List.replicate 11 (.advance 2))).map fun s =>
        s.shared.db.leads.rows.map Lead.snapshotId) = some [some 1] := by
  refine ⟨?_, by decide +kernel⟩
  obtain ⟨t, ht⟩ := Option.isSome_iff_exists.mp (show (run (PortalRun.step thaneRules) thaneStart
    (thaneJob ++ thaneLead "a@thane.gov.in" :: List.replicate 11 (.advance 2))).isSome = true by
      decide +kernel)
  have hstart : thaneStart.StartsUp := ⟨rfl, fun _ => rfl, fun a ha => by cases ha⟩
  exact (attributed_by_catalog thaneRules thaneStart t t _ [] hstart ht rfl
    (by decide +kernel)).1 (by decide +kernel)

/-- A process of its own imports the catalog anew, and the server keeps its map. -/
def importedAside : List CatalogAction :=
  thaneJob ++ thaneLead "a@thane.gov.in" :: List.replicate 11 (.advance 2) ++
    [.call 1 (.write (.replaceCatalog [thaneFields])), .advance 3, .advance 3] ++
    thaneLead "b@thane.gov.in" :: List.replicate 7 (.advance 4)

/-- A thread of the server imports it while `save_lead` builds the map, of the rows before. -/
def importedMeanwhile : List CatalogAction :=
  thaneJob ++ thaneLead "a@thane.gov.in" :: List.replicate 5 (.advance 2) ++
    [.call 0 (.write (.replaceCatalog [thaneFields])), .advance 3, .advance 3] ++
    List.replicate 6 (.advance 2)

/-- Either way a lead gets the snapshot of a domain that is not there any more. -/
theorem import_unnoticed :
    (Meets (PortalRun.step thaneRules) SendsOwn thaneStart importedAside ∧
        ¬ Meets (PortalRun.step thaneRules) (InsertsAttributed thaneRules) thaneStart
          importedAside) ∧
      Meets (PortalRun.step thaneRules) SendsOwn thaneStart importedMeanwhile ∧
        ¬ Meets (PortalRun.step thaneRules) (InsertsAttributed thaneRules) thaneStart
          importedMeanwhile := by
  decide +kernel

end GovCrawler
