/-
Attributing the leads there are, `src/scripts/backfill_lead_attribution.py`.

The script does for the leads in the table what `save_lead` does for a new one: it resolves
the page of a lead to a domain, and gives the lead a snapshot of its job for that domain if
the one it has is not of it.  It selects the leads by `channel_tag IS NOT NULL AND != 'manual'`,
while a lead without a tag is a crawled one everywhere else; and a snapshot that is of the
domain is kept whatever job it is of.

Two sessions write.  That of the script holds what it has assigned until a query of its own
sends it, and the snapshots are inserted by sessions of `create_crawl_snapshot`.  SQLite lets
nobody else write while a session has written and not committed, so a snapshot that is missing
after that ends the script, and what it has assigned is lost.

`backfill_attributes_iff` is when every crawled lead is attributed afterwards.  `Underway` is
how far the script is, said by the leads it has been through; `Decided` says what one round of
the loop does for its lead.  Later rounds only add snapshots, so it lasts, and a second run
finds every lead decided and changes nothing (`backfill_again`).
-/
import GovCrawler.Leads.Landing
import GovCrawler.Leads.LeadQueries

namespace GovCrawler

open Relational StoreProgram Prog

/-! ### The script -/

/-- `Lead.channel_tag.isnot(None), Lead.channel_tag != "manual"`. -/
def backfillSelects (l : Lead) : Bool := l.channelTag.isSome && l.channelTag != some "manual"

/-- In what order the database gives the leads. -/
structure LeadOrder where
  rows : List Lead → List Lead
  rows_perm : ∀ leads, (rows leads).Perm leads

/-- What the database URL names. -/
inductive DatabaseKind
  /-- One session at a time writes; another that tries to raises. -/
  | sqlite
  | postgresql
  deriving DecidableEq, Repr

/-- The session of the script. -/
structure ScriptSession where
  /-- What has been assigned, by lead. -/
  changes : List (Nat × Option Nat) := []
  /-- Some of it has been sent to the database. -/
  sent : Bool := false
  deriving DecidableEq, Repr

namespace ScriptSession

/-- Before a query the session sends what has been assigned. -/
def autoflush (session : ScriptSession) : ScriptSession :=
  { session with sent := session.sent || !session.changes.isEmpty }

/-- `lead.snapshot_id = ...`. -/
def assign (session : ScriptSession) (lead : Lead) (snapshotId : Option Nat) : ScriptSession :=
  { session with changes := session.changes ++ [(lead.id, snapshotId)] }

/-- No other session may write. -/
def locks (kind : DatabaseKind) (session : ScriptSession) : Bool :=
  kind == .sqlite && session.sent

end ScriptSession

def databaseIsLocked : LeadExc := .database "database is locked"

/-- `db.create_crawl_snapshot`, which has a session of its own.  While the database is locked, that
may look for the snapshot, and its `INSERT` raises. -/
def createInOwnSession (locked : Bool) (jobId : Nat) (domain : Domain) : LeadM Nat := fun db fs =>
  if locked then
    let r := createCrawlSnapshot jobId domain db [none, some databaseIsLocked]
    (r.1, r.2.1, fs)
  else createCrawlSnapshot jobId domain db fs

/-- `current_source_domain_id`.  There is a query only where there is a snapshot. -/
def currentSourceDomain (lead : Lead) (session : ScriptSession) :
    LeadM (Option Nat × ScriptSession) :=
  match lead.snapshotId with
  | none => pure (none, session)
  | some k => do
      let sourceDomainId ← read fun db => (db.snapshots.get? k).bind fun s => s.sourceDomainId
      pure (sourceDomainId, session.autoflush)

/-- One round of the loop. -/
def backfillLead (rules : LeadRules) (kind : DatabaseKind) (netlocMap : List (String × Domain))
    (targetSuffixes : List String) (lead : Lead) (session : ScriptSession) :
    LeadM ScriptSession :=
  match resolveDomainForUrl rules lead.sourceUrl netlocMap targetSuffixes with
  | none => pure (if lead.snapshotId.isSome then session.assign lead none else session)
  | some resolved => do
      let (current, session) ← currentSourceDomain lead session
      if some resolved.id = current then pure session
      else do
        let id ← createInOwnSession (session.locks kind) lead.jobId resolved
        pure (session.assign lead (some id))

/-- The loop. -/
def backfillLeads (rules : LeadRules) (kind : DatabaseKind) (netlocMap : List (String × Domain))
    (targetSuffixes : List String) : List Lead → ScriptSession → LeadM ScriptSession
  | [], session => pure session
  | lead :: leads, session => do
      let session ← backfillLead rules kind netlocMap targetSuffixes lead session
      backfillLeads rules kind netlocMap targetSuffixes leads session

/-- The lead with its change. -/
def Lead.reattribute (changes : List (Nat × Option Nat)) (lead : Lead) : Lead :=
  { lead with snapshotId := (changes.lookup lead.id).getD lead.snapshotId }

theorem Lead.key_reattribute (changes : List (Nat × Option Nat)) (lead : Lead) :
    Keyed.key (lead.reattribute changes) = Keyed.key lead := rfl

/-- `s.commit()`. -/
def commitAttribution (changes : List (Nat × Option Nat)) (db : LeadsDb) : LeadsDb :=
  { db with
    leads := db.leads.updateWhere (fun l => (changes.lookup l.id).isSome) (Lead.reattribute changes)
      (Lead.key_reattribute changes) }

/-- `main`, which reports how many leads it has examined and how many it has changed.  What the
session has assigned is in the store when it commits, and is lost where the loop raises. -/
def backfillAttribution (rules : LeadRules) (kind : DatabaseKind) (order : LeadOrder) :
    LeadM (Nat × Nat) := do
  let netlocMap ← read fun db => db.netlocMap
  let targetSuffixes ← read fun db => db.targetSuffixes
  let leads ← read fun db => order.rows (db.leads.select backfillSelects)
  let session ← backfillLeads rules kind netlocMap targetSuffixes leads {}
  write (commitAttribution session.changes)
  pure (leads.length, session.changes.length)

/-! ### What is to come of it -/

/-- The domain that a page belongs to. -/
def LeadsDb.domainOf (db : LeadsDb) (rules : LeadRules) (sourceUrl : String) : Option Domain :=
  resolveDomainForUrl rules sourceUrl db.netlocMap db.targetSuffixes

/-- A snapshot of the job for the domain of the page, or none if it belongs to no domain. -/
def LeadsDb.Attributes (db : LeadsDb) (rules : LeadRules) (jobId : Nat) (sourceUrl : String)
    (snapshotId : Option Nat) : Prop :=
  match db.domainOf rules sourceUrl with
  | none => snapshotId = none
  | some d => ∃ s, snapshotId.bind db.snapshots.get? = some s ∧ s.jobId = jobId ∧
      s.sourceDomainId = some d.id

/-- The foreign keys of the leads. -/
structure LeadsDb.LeadsRefer (db : LeadsDb) : Prop where
  jobs : ∀ l ∈ db.leads.rows, (db.jobs.get? l.jobId).isSome = true
  snapshots : ∀ l ∈ db.leads.rows, db.refersToSnapshot l.snapshotId = true

/-- Crawled leads are attributed, manual ones are as they were, and nothing else of any lead has
changed. -/
structure Backfilled (rules : LeadRules) (db db' : LeadsDb) : Prop where
  attributed : ∀ l ∈ db'.leads.rows, l.isManual = false →
    db'.Attributes rules l.jobId l.sourceUrl l.snapshotId
  manual : ∀ l ∈ db.leads.rows, l.isManual = true → l ∈ db'.leads.rows
  rest : ∀ k, (db'.leads.get? k).map (fun l => { l with snapshotId := none }) =
    (db.leads.get? k).map fun l => { l with snapshotId := none }

/-- Leads without a tag need nothing, and no lead has another job's snapshot of its domain. -/
structure LeadsDb.Repairable (db : LeadsDb) (rules : LeadRules) : Prop where
  untagged : ∀ l ∈ db.leads.rows, l.channelTag = none →
    db.Attributes rules l.jobId l.sourceUrl l.snapshotId
  tagged : ∀ l ∈ db.leads.rows, backfillSelects l = true → ∀ d, db.domainOf rules l.sourceUrl = some d →
    ∀ s, l.snapshotId.bind db.snapshots.get? = some s → s.sourceDomainId = some d.id →
      s.jobId = l.jobId

/-! ### When the database is locked -/

/-- The domain of the snapshot the lead has. -/
def LeadsDb.sourceDomainOf (db : LeadsDb) (lead : Lead) : Option Nat :=
  (lead.snapshotId.bind db.snapshots.get?).bind fun s => s.sourceDomainId

/-- Its `snapshot_id` is not as it is to be. -/
def LeadsDb.Reassigns (db : LeadsDb) (rules : LeadRules) (lead : Lead) : Prop :=
  match db.domainOf rules lead.sourceUrl with
  | none => lead.snapshotId.isSome = true
  | some d => db.sourceDomainOf lead ≠ some d.id

/-- The snapshot it has is queried for. -/
def LeadsDb.LooksUp (db : LeadsDb) (rules : LeadRules) (lead : Lead) : Prop :=
  (db.domainOf rules lead.sourceUrl).isSome = true ∧ lead.snapshotId.isSome = true

/-- It is to have the snapshot of this job for this domain. -/
def LeadsDb.Needs (db : LeadsDb) (rules : LeadRules) (lead : Lead) (jobId domainId : Nat) : Prop :=
  lead.jobId = jobId ∧ ∃ d, db.domainOf rules lead.sourceUrl = some d ∧ d.id = domainId ∧
    db.sourceDomainOf lead ≠ some d.id

/-- A lead that is assigned a snapshot comes before one whose snapshot is queried for. -/
def LeadsDb.SentBy (db : LeadsDb) (rules : LeadRules) (leads : List Lead) : Prop :=
  ∃ x l, [x, l].Sublist leads ∧ db.Reassigns rules x ∧ db.LooksUp rules l

/-- After these leads something has been sent, and this one needs a snapshot that is not there:
it was not at the start, and none of these leads has needed it. -/
def LeadsDb.LockedAt (db : LeadsDb) (rules : LeadRules) (before : List Lead) (lead : Lead) : Prop :=
  db.SentBy rules (before ++ [lead]) ∧ ∃ domainId, db.Needs rules lead lead.jobId domainId ∧
    db.findSnapshot lead.jobId domainId = none ∧
      ∀ x ∈ before, ¬ db.Needs rules x lead.jobId domainId

/-- There is no such lead. -/
def LeadsDb.NeverLocked (db : LeadsDb) (rules : LeadRules) (leads : List Lead) : Prop :=
  ∀ before lead after, leads = before ++ lead :: after → ¬ db.LockedAt rules before lead

section

variable {rules : LeadRules} {db db' db'' : LeadsDb}

/-! ### Snapshots that come -/

/-- Snapshots come, and nothing else changes. -/
structure SnapshotsGrow (db db' : LeadsDb) : Prop where
  rest : ∃ snapshots, db' = { db with snapshots := snapshots }
  kept : ∀ k s, db.snapshots.get? k = some s → db'.snapshots.get? k = some s

namespace SnapshotsGrow

theorem refl (db : LeadsDb) : SnapshotsGrow db db := ⟨⟨db.snapshots, rfl⟩, fun _ _ h => h⟩

theorem trans (h : SnapshotsGrow db db') (h' : SnapshotsGrow db' db'') : SnapshotsGrow db db'' where
  rest := by
    obtain ⟨snapshots, rfl⟩ := h.rest
    obtain ⟨snapshots', rfl⟩ := h'.rest
    exact ⟨snapshots', rfl⟩
  kept k s hs := h'.kept k s (h.kept k s hs)

theorem leads (h : SnapshotsGrow db db') : db'.leads = db.leads := by
  obtain ⟨snapshots, rfl⟩ := h.rest
  rfl

theorem jobs (h : SnapshotsGrow db db') : db'.jobs = db.jobs := by
  obtain ⟨snapshots, rfl⟩ := h.rest
  rfl

theorem domainOf (h : SnapshotsGrow db db') (sourceUrl : String) :
    db'.domainOf rules sourceUrl = db.domainOf rules sourceUrl := by
  obtain ⟨snapshots, rfl⟩ := h.rest
  rfl

theorem bind_get? (h : SnapshotsGrow db db') {snapshotId : Option Nat} {s : CrawlSnapshot}
    (hs : snapshotId.bind db.snapshots.get? = some s) :
    snapshotId.bind db'.snapshots.get? = some s := by
  obtain ⟨k, hk, hget⟩ := Option.bind_eq_some_iff.mp hs
  exact Option.bind_eq_some_iff.mpr ⟨k, hk, h.kept k s hget⟩

end SnapshotsGrow

theorem findSnapshot_isSome {jobId domainId : Nat} :
    (db.findSnapshot jobId domainId).isSome = true ↔
      ∃ s ∈ db.snapshots.rows, s.jobId = jobId ∧ s.sourceDomainId = some domainId := by
  unfold LeadsDb.findSnapshot Table.first?
  simp only [List.find?_isSome, Bool.and_eq_true, beq_iff_eq]

/-- What can be found is what could, and the snapshot of the domain for the job. -/
def FoundWith (db db' : LeadsDb) (jobId domainId : Nat) : Prop :=
  ∀ jobId' domainId', (db'.findSnapshot jobId' domainId').isSome = true ↔
    (db.findSnapshot jobId' domainId').isSome = true ∨ (jobId = jobId' ∧ domainId = domainId')

theorem foundWith_self {jobId domainId : Nat}
    (h : (db.findSnapshot jobId domainId).isSome = true) : FoundWith db db jobId domainId := by
  intro jobId' domainId'
  refine ⟨Or.inl, ?_⟩
  rintro (hfound | ⟨rfl, rfl⟩)
  · exact hfound
  · exact h

/-- A snapshot of a domain for a job is found, or made. -/
theorem createCrawlSnapshot_run {jobId : Nat} (hjob : (db.jobs.get? jobId).isSome = true)
    (domain : Domain) : ∃ id db' s, createCrawlSnapshot jobId domain db [] = (.ok id, db', []) ∧
      SnapshotsGrow db db' ∧ FoundWith db db' jobId domain.id ∧
        db'.snapshots.get? id = some s ∧ s.jobId = jobId ∧ s.sourceDomainId = some domain.id := by
  unfold createCrawlSnapshot
  rw [bind_apply, read_quiet quiet_nil, List.tail_nil]
  cases hfound : db.findSnapshot jobId domain.id with
  | some s =>
      obtain ⟨hof, hget⟩ := Table.first?_spec hfound
      simp only [Bool.and_eq_true, beq_iff_eq] at hof
      exact ⟨s.id, db, s, rfl, .refl db, foundWith_self (Option.isSome_of_eq_some hfound), hget, hof⟩
  | none =>
      have hadd : addSnapshot jobId domain db = some (db.snapshots.nextKey, { db with
          snapshots := db.snapshots.insertNew
            fun id => ⟨id, jobId, some domain.id, domain.title⟩ }) := by
        unfold addSnapshot
        rw [hjob, hfound]
        rfl
      have hget := Table.get?_insertNew db.snapshots
        (fun id => (⟨id, jobId, some domain.id, domain.title⟩ : CrawlSnapshot)) fun _ => rfl
      have hinsert := (insertOr_takes hadd).runs [] (by simp)
      rw [List.drop_nil] at hinsert
      refine ⟨db.snapshots.nextKey, _, _, ?_, ⟨⟨_, rfl⟩, fun k s hs => ?_⟩, fun jobId' domainId' => ?_,
        (hget _).trans (if_pos rfl), rfl, rfl⟩
      · dsimp only
        unfold exceptIntegrity
        rw [tryExcept_apply, hinsert]
        rfl
      · have hne : k ≠ db.snapshots.nextKey := Nat.ne_of_lt (Table.lt_nextKey_of_get? hs)
        exact (hget k).trans ((if_neg hne).trans hs)
      · rw [findSnapshot_isSome, findSnapshot_isSome]
        simp only [List.mem_append, List.mem_singleton, or_and_right, exists_or, exists_eq_left,
          Option.some.injEq]

/-- A session of its own that has nothing to insert, or may insert. -/
theorem createInOwnSession_run {jobId : Nat} (hjob : (db.jobs.get? jobId).isSome = true)
    (domain : Domain) {locked : Bool}
    (hfree : locked = true → (db.findSnapshot jobId domain.id).isSome = true) :
    ∃ id db' s, createInOwnSession locked jobId domain db [] = (.ok id, db', []) ∧
      SnapshotsGrow db db' ∧ FoundWith db db' jobId domain.id ∧
        db'.snapshots.get? id = some s ∧ s.jobId = jobId ∧ s.sourceDomainId = some domain.id := by
  cases locked with
  | false => exact createCrawlSnapshot_run hjob domain
  | true =>
      obtain ⟨s, hfound⟩ := Option.isSome_iff_exists.mp (hfree rfl)
      obtain ⟨hof, hget⟩ := Table.first?_spec hfound
      simp only [Bool.and_eq_true, beq_iff_eq] at hof
      refine ⟨s.id, db, s, ?_, .refl db, foundWith_self (hfree rfl), hget, hof⟩
      unfold createInOwnSession createCrawlSnapshot
      rw [if_pos rfl, bind_apply]
      dsimp only [Prog.read, Prog.call]
      rw [hfound]
      rfl

theorem createInOwnSession_locked {jobId : Nat} {domain : Domain}
    (hnone : db.findSnapshot jobId domain.id = none) :
    createInOwnSession true jobId domain db [] = (.error databaseIsLocked, db, []) := by
  unfold createInOwnSession createCrawlSnapshot
  rw [if_pos rfl, bind_apply]
  dsimp only [Prog.read, Prog.call]
  rw [hnone]
  rfl

/-- What `save_lead` gives a lead of a crawl that hands on snapshots of its own job. -/
theorem attributeLead_attributes {jobId : Nat} (hjob : (db.jobs.get? jobId).isSome = true)
    {item : LeadItem} (hown : ∀ s, item.snapshotId.bind db.snapshots.get? = some s → s.jobId = jobId) :
    ∃ snapshotId db', attributeLead rules jobId item db [] = (.ok snapshotId, db', []) ∧
      SnapshotsGrow db db' ∧ db'.Attributes rules jobId item.sourceUrl snapshotId := by
  unfold attributeLead LeadsDb.Attributes
  rw [bind_apply, read_quiet quiet_nil]
  dsimp only
  rw [bind_apply, List.tail_nil, read_quiet quiet_nil, List.tail_nil]
  dsimp only
  cases hdomain : db.domainOf rules item.sourceUrl with
  | none =>
      have hresolve := hdomain
      unfold LeadsDb.domainOf at hresolve
      rw [hresolve]
      refine ⟨none, db, rfl, .refl db, ?_⟩
      rw [hdomain]
  | some d =>
      have hresolve := hdomain
      unfold LeadsDb.domainOf at hresolve
      rw [hresolve]
      dsimp only
      have hinherited : inheritedDomain item db [] =
          (.ok ((item.snapshotId.bind db.snapshots.get?).bind fun s => s.sourceDomainId), db, []) := by
        unfold inheritedDomain
        cases item.snapshotId with
        | none => rfl
        | some k => exact read_quiet quiet_nil
      rw [bind_apply, hinherited]
      dsimp only
      split
      · rename_i hsame
        obtain ⟨s, hs, hsource⟩ := Option.bind_eq_some_iff.mp hsame.symm
        refine ⟨item.snapshotId, db, rfl, .refl db, ?_⟩
        rw [hdomain]
        exact ⟨s, hs, hown s hs, hsource⟩
      · obtain ⟨id, db', s, hrun, hgrow, -, hget, hsjob, hsource⟩ := createCrawlSnapshot_run hjob d
        refine ⟨some id, db', ?_, hgrow, ?_⟩
        · rw [bind_apply, hrun]
          rfl
        · rw [hgrow.domainOf, hdomain]
          exact ⟨s, hget, hsjob, hsource⟩

/-! ### What is decided -/

/-- What a round of the loop makes of its lead. -/
def Decided (rules : LeadRules) (db : LeadsDb) (lead : Lead) (change : Option (Option Nat)) : Prop :=
  match db.domainOf rules lead.sourceUrl with
  | none => change.getD lead.snapshotId = none
  | some d => ∃ s, (change.getD lead.snapshotId).bind db.snapshots.get? = some s ∧
      s.sourceDomainId = some d.id ∧ (change.isSome = true → s.jobId = lead.jobId)

theorem Decided.mono {lead : Lead} {change : Option (Option Nat)} (h : Decided rules db lead change)
    (hgrow : SnapshotsGrow db db') : Decided rules db' lead change := by
  unfold Decided at h ⊢
  rw [hgrow.domainOf]
  split
  · rename_i hnone
    rw [hnone] at h
    exact h
  · rename_i d hd
    rw [hd] at h
    obtain ⟨s, hs, hrest⟩ := h
    exact ⟨s, hgrow.bind_get? hs, hrest⟩

/-- A snapshot of the domain is kept. -/
def Warranted (rules : LeadRules) (db : LeadsDb) (lead : Lead) (change : Option (Option Nat)) : Prop :=
  ∀ d s, db.domainOf rules lead.sourceUrl = some d →
    lead.snapshotId.bind db.snapshots.get? = some s → s.sourceDomainId = some d.id → change = none

/-- A lead whose snapshot is there has the same one when more have come. -/
theorem LeadsDb.LeadsRefer.bind_get? (hrefer : db.LeadsRefer) (hgrow : SnapshotsGrow db db')
    {lead : Lead} (hlead : lead ∈ db.leads.rows) {s : CrawlSnapshot}
    (hs : lead.snapshotId.bind db'.snapshots.get? = some s) :
    lead.snapshotId.bind db.snapshots.get? = some s := by
  obtain ⟨k, hk, hget⟩ := Option.bind_eq_some_iff.mp hs
  have hthere := hrefer.snapshots lead hlead
  unfold LeadsDb.refersToSnapshot at hthere
  rw [hk, Option.all_some] at hthere
  obtain ⟨s', hs'⟩ := Option.isSome_iff_exists.mp hthere
  obtain rfl := Option.some.inj ((hgrow.kept k s' hs').symm.trans hget)
  exact Option.bind_eq_some_iff.mpr ⟨k, hk, hs'⟩

/-- The domain of the snapshot it has does not change either. -/
theorem sourceDomainOf_grow (hrefer : db.LeadsRefer) (hgrow : SnapshotsGrow db db') {lead : Lead}
    (hlead : lead ∈ db.leads.rows) : db'.sourceDomainOf lead = db.sourceDomainOf lead := by
  unfold LeadsDb.sourceDomainOf
  congr 1
  cases hs : lead.snapshotId.bind db.snapshots.get? with
  | some s => exact hgrow.bind_get? hs
  | none =>
      by_contra hnot
      obtain ⟨s, hs'⟩ := Option.ne_none_iff_exists'.mp hnot
      rw [hrefer.bind_get? hgrow hlead hs'] at hs
      cases hs

/-! ### How far the script is -/

theorem pair_sublist_append {α : Type} {x l a : α} {as : List α} :
    [x, l].Sublist (as ++ [a]) ↔ [x, l].Sublist as ∨ (x ∈ as ∧ l = a) := by
  constructor
  · intro h
    obtain ⟨xs, ys, hsplit, hxs, hys⟩ := List.sublist_append_iff.mp h
    rcases List.sublist_singleton.mp hys with rfl | rfl
    · rw [List.append_nil] at hsplit
      exact Or.inl (hsplit ▸ hxs)
    · obtain ⟨rfl, hl⟩ := List.append_inj' (show [x] ++ [l] = xs ++ [a] from hsplit) rfl
      exact Or.inr ⟨List.singleton_sublist.mp hxs, (List.cons.inj hl).1⟩
  · rintro (h | ⟨hx, rfl⟩)
    · exact h.trans (List.sublist_append_left as [a])
    · exact (List.singleton_sublist.mpr hx).append (List.Sublist.refl [l])

theorem sentBy_append {before : List Lead} {lead : Lead} :
    db.SentBy rules (before ++ [lead]) ↔ db.SentBy rules before ∨
      ((∃ x ∈ before, db.Reassigns rules x) ∧ db.LooksUp rules lead) := by
  unfold LeadsDb.SentBy
  constructor
  · rintro ⟨x, l, hsub, hx, hl⟩
    rcases pair_sublist_append.mp hsub with hsub | ⟨hmem, rfl⟩
    · exact Or.inl ⟨x, l, hsub, hx, hl⟩
    · exact Or.inr ⟨⟨x, hmem, hx⟩, hl⟩
  · rintro (⟨x, l, hsub, hx, hl⟩ | ⟨⟨x, hmem, hx⟩, hl⟩)
    · exact ⟨x, l, pair_sublist_append.mpr (Or.inl hsub), hx, hl⟩
    · exact ⟨x, lead, pair_sublist_append.mpr (Or.inr ⟨hmem, rfl⟩), hx, hl⟩

/-- After the leads `before` the session and the store are these; `db` is the store at the start. -/
structure Underway (rules : LeadRules) (db : LeadsDb) (before : List Lead) (session : ScriptSession)
    (db' : LeadsDb) : Prop where
  grow : SnapshotsGrow db db'
  assigned : session.changes ≠ [] ↔ ∃ x ∈ before, db.Reassigns rules x
  sent : session.sent = true ↔ db.SentBy rules before
  found : ∀ jobId domainId, (db'.findSnapshot jobId domainId).isSome = true ↔
    (db.findSnapshot jobId domainId).isSome = true ∨ ∃ x ∈ before, db.Needs rules x jobId domainId

namespace Underway

variable {before : List Lead} {session : ScriptSession} {lead : Lead}

theorem start (rules : LeadRules) (db : LeadsDb) : Underway rules db [] {} db where
  grow := .refl db
  assigned := iff_of_false (fun h => h rfl) (fun ⟨_, hx, _⟩ => List.not_mem_nil hx)
  sent := iff_of_false Bool.false_ne_true fun ⟨_, _, hsub, _⟩ => by cases hsub
  found _ _ := ⟨Or.inl, fun h => h.resolve_right fun ⟨_, hx, _⟩ => List.not_mem_nil hx⟩

/-- What is found after a lead that needs no snapshot. -/
theorem found_of_not_needs (h : Underway rules db before session db')
    (hnot : ∀ jobId domainId, ¬ db.Needs rules lead jobId domainId) (jobId domainId : Nat) :
    (db'.findSnapshot jobId domainId).isSome = true ↔
      (db.findSnapshot jobId domainId).isSome = true ∨
        ∃ x ∈ before ++ [lead], db.Needs rules x jobId domainId := by
  rw [h.found]
  refine or_congr_right ⟨fun ⟨x, hx, hneeds⟩ => ⟨x, List.mem_append_left _ hx, hneeds⟩, ?_⟩
  rintro ⟨x, hx, hneeds⟩
  rcases List.mem_append.mp hx with hx | hx
  · exact ⟨x, hx, hneeds⟩
  · rw [List.mem_singleton.mp hx] at hneeds
    exact absurd hneeds (hnot _ _)

theorem exists_mem_append {p : Lead → Prop} :
    (∃ x ∈ before ++ [lead], p x) ↔ (∃ x ∈ before, p x) ∨ p lead := by
  simp only [List.mem_append, List.mem_singleton, or_and_right, exists_or, exists_eq_left]

/-- What has been sent once the snapshot of a lead with a domain has been queried for, or there
was none to query for. -/
theorem sent_lookUp (h : Underway rules db before session db') {d : Domain}
    (hdomain : db.domainOf rules lead.sourceUrl = some d) :
    (if lead.snapshotId.isSome then session.autoflush else session).sent = true ↔
      db.SentBy rules (before ++ [lead]) := by
  rw [sentBy_append, ← h.assigned, ← h.sent]
  unfold LeadsDb.LooksUp
  rw [hdomain]
  cases lead.snapshotId with
  | none => simp
  | some k =>
      unfold ScriptSession.autoflush
      cases session.changes <;> simp

end Underway

theorem currentSourceDomain_run (lead : Lead) (session : ScriptSession) (db : LeadsDb) :
    currentSourceDomain lead session db [] =
      (.ok (db.sourceDomainOf lead,
        if lead.snapshotId.isSome then session.autoflush else session), db, []) := by
  unfold currentSourceDomain LeadsDb.sourceDomainOf
  cases lead.snapshotId with
  | none => rfl
  | some k => rfl

/-! ### One round -/

section Round

variable {kind : DatabaseKind} {before : List Lead} {session : ScriptSession} {lead : Lead}

/-- The round of a lead that cannot have the snapshot it needs. -/
theorem backfillLead_locked (hrefer : db.LeadsRefer) (hlead : lead ∈ db.leads.rows)
    (h : Underway rules db before session db') (hkind : kind = .sqlite)
    (hlocked : db.LockedAt rules before lead) :
    backfillLead rules kind db.netlocMap db.targetSuffixes lead session db' [] =
      (.error databaseIsLocked, db', []) := by
  obtain ⟨hsent, domainId, ⟨-, d, hdomain, rfl, hother⟩, hnone, hnot⟩ := hlocked
  have hmissing : db'.findSnapshot lead.jobId d.id = none := by
    by_contra hfound
    have hfound := Option.isSome_iff_ne_none.mpr hfound
    rcases (h.found _ _).mp hfound with hfound | ⟨x, hx, hneeds⟩
    · rw [hnone] at hfound
      cases hfound
    · exact hnot x hx hneeds
  have hlocks : (if lead.snapshotId.isSome then session.autoflush else session).locks kind = true := by
    unfold ScriptSession.locks
    rw [hkind, (h.sent_lookUp hdomain).mpr hsent]
    rfl
  have hresolve := hdomain
  unfold LeadsDb.domainOf at hresolve
  unfold backfillLead
  rw [hresolve]
  dsimp only
  rw [bind_apply, currentSourceDomain_run, sourceDomainOf_grow hrefer h.grow hlead]
  dsimp only
  rw [if_neg fun heq => hother heq.symm, bind_apply, hlocks, createInOwnSession_locked hmissing]

/-- What a round leaves that does not raise. -/
structure RoundDone (rules : LeadRules) (db : LeadsDb) (before : List Lead) (lead : Lead)
    (session : ScriptSession) (db' : LeadsDb) (change : Option (Option Nat))
    (session' : ScriptSession) (db'' : LeadsDb) : Prop where
  changes : session'.changes =
    session.changes ++ (change.map fun snapshotId => (lead.id, snapshotId)).toList
  underway : Underway rules db (before ++ [lead]) session' db''
  grow : SnapshotsGrow db' db''
  decided : Decided rules db'' lead change
  warranted : Warranted rules db lead change

/-- The page belongs to no domain. -/
theorem round_of_none (h : Underway rules db before session db')
    (hdomain : db.domainOf rules lead.sourceUrl = none) :
    RoundDone rules db before lead session db' (if lead.snapshotId.isSome then some none else none)
      (if lead.snapshotId.isSome then session.assign lead none else session) db' := by
  have hneeds : ∀ jobId domainId, ¬ db.Needs rules lead jobId domainId := by
    rintro jobId domainId ⟨-, d, hd, -⟩
    rw [hdomain] at hd
    cases hd
  have hlooks : ¬ db.LooksUp rules lead := by
    rintro ⟨hd, -⟩
    rw [hdomain] at hd
    cases hd
  have hreassigns : db.Reassigns rules lead ↔ lead.snapshotId.isSome = true := by
    unfold LeadsDb.Reassigns
    rw [hdomain]
  have hsent : (if lead.snapshotId.isSome then session.assign lead none else session).sent =
      session.sent := by
    split <;> rfl
  refine ⟨?_, ⟨h.grow, ?_, ?_, h.found_of_not_needs hneeds⟩, .refl db', ?_, fun d s hd => ?_⟩
  · split
    · rfl
    · exact (List.append_nil _).symm
  · rw [Underway.exists_mem_append, ← h.assigned, hreassigns]
    unfold ScriptSession.assign
    cases lead.snapshotId <;> simp
  · rw [hsent, sentBy_append, h.sent]
    exact ⟨Or.inl, fun hs => hs.resolve_right fun hl => hlooks hl.2⟩
  · unfold Decided
    rw [h.grow.domainOf, hdomain]
    cases lead.snapshotId <;> rfl
  · rw [hdomain] at hd
    cases hd

/-- The snapshot is of the domain of the page.  `looked` is the session after the query for it. -/
theorem round_of_same (h : Underway rules db before session db') {d : Domain}
    (hdomain : db.domainOf rules lead.sourceUrl = some d)
    (hsame : some d.id = db.sourceDomainOf lead) {looked : ScriptSession}
    (hchanges : looked.changes = session.changes)
    (hsent : looked.sent = true ↔ db.SentBy rules (before ++ [lead])) :
    RoundDone rules db before lead session db' none looked db' := by
  have hneeds : ∀ jobId domainId, ¬ db.Needs rules lead jobId domainId := by
    rintro jobId domainId ⟨-, d', hd', -, hother⟩
    obtain rfl := Option.some.inj (hdomain.symm.trans hd')
    exact hother hsame.symm
  have hreassigns : ¬ db.Reassigns rules lead := by
    unfold LeadsDb.Reassigns
    rw [hdomain]
    exact fun hother => hother hsame.symm
  obtain ⟨s, hs, hsource⟩ := Option.bind_eq_some_iff.mp hsame.symm
  refine ⟨hchanges.trans (List.append_nil _).symm,
    ⟨h.grow, ?_, hsent, h.found_of_not_needs hneeds⟩, .refl db', ?_, fun _ _ _ _ _ => rfl⟩
  · rw [hchanges, Underway.exists_mem_append, h.assigned]
    exact ⟨Or.inl, fun hx => hx.resolve_right hreassigns⟩
  · unfold Decided
    rw [h.grow.domainOf, hdomain]
    exact ⟨s, h.grow.bind_get? hs, hsource, fun hchange => Bool.noConfusion hchange⟩

/-- It is not, and the session has been given one that is. -/
theorem round_of_other (h : Underway rules db before session db') {d : Domain}
    (hdomain : db.domainOf rules lead.sourceUrl = some d)
    (hother : some d.id ≠ db.sourceDomainOf lead) {looked : ScriptSession}
    (hchanges : looked.changes = session.changes)
    (hsent : looked.sent = true ↔ db.SentBy rules (before ++ [lead])) {id : Nat}
    {s : CrawlSnapshot} (hgrow : SnapshotsGrow db' db'') (hfound : FoundWith db' db'' lead.jobId d.id)
    (hget : db''.snapshots.get? id = some s) (hjob : s.jobId = lead.jobId)
    (hsource : s.sourceDomainId = some d.id) :
    RoundDone rules db before lead session db' (some (some id)) (looked.assign lead (some id))
      db'' := by
  have hneeds : ∀ jobId domainId, db.Needs rules lead jobId domainId ↔
      lead.jobId = jobId ∧ d.id = domainId := by
    intro jobId domainId
    constructor
    · rintro ⟨hjob, d', hd', hid, -⟩
      obtain rfl := Option.some.inj (hdomain.symm.trans hd')
      exact ⟨hjob, hid⟩
    · rintro ⟨hjob, hid⟩
      exact ⟨hjob, d, hdomain, hid, hother.symm⟩
  have hreassigns : db.Reassigns rules lead := by
    unfold LeadsDb.Reassigns
    rw [hdomain]
    exact hother.symm
  refine ⟨?_, ⟨h.grow.trans hgrow, ?_, hsent, ?_⟩, hgrow, ?_, fun d' s' hd' hs' hsource' => ?_⟩
  · show looked.changes ++ _ = _
    rw [hchanges]
    rfl
  · refine iff_of_true (List.append_ne_nil_of_right_ne_nil _ (List.cons_ne_nil _ _)) ?_
    exact ⟨lead, List.mem_append_right _ (List.mem_singleton_self lead), hreassigns⟩
  · intro jobId domainId
    rw [hfound, h.found, Underway.exists_mem_append, hneeds, or_assoc]
  · unfold Decided
    rw [(h.grow.trans hgrow).domainOf, hdomain]
    exact ⟨s, hget, hsource, fun _ => hjob⟩
  · obtain rfl := Option.some.inj (hdomain.symm.trans hd')
    refine absurd ?_ hother
    unfold LeadsDb.sourceDomainOf
    rw [hs', Option.bind_some, hsource']

/-- **One round.** -/
theorem backfillLead_run (hrefer : db.LeadsRefer) (hlead : lead ∈ db.leads.rows)
    (h : Underway rules db before session db')
    (hfree : kind = .sqlite → ¬ db.LockedAt rules before lead) :
    ∃ change session' db'',
      backfillLead rules kind db.netlocMap db.targetSuffixes lead session db' [] =
        (.ok session', db'', []) ∧
      RoundDone rules db before lead session db' change session' db'' := by
  unfold backfillLead
  cases hdomain : db.domainOf rules lead.sourceUrl with
  | none =>
      refine ⟨_, _, db', ?_, round_of_none h hdomain⟩
      unfold LeadsDb.domainOf at hdomain
      rw [hdomain]
      rfl
  | some d =>
      have hsent := h.sent_lookUp hdomain
      have hchanges : (if lead.snapshotId.isSome then session.autoflush else session).changes =
          session.changes := by
        split <;> rfl
      have hresolve := hdomain
      unfold LeadsDb.domainOf at hresolve
      rw [hresolve]
      dsimp only
      rw [bind_apply, currentSourceDomain_run, sourceDomainOf_grow hrefer h.grow hlead]
      dsimp only
      generalize (if lead.snapshotId.isSome then session.autoflush else session) = looked
        at hsent hchanges
      split
      · rename_i hsame
        exact ⟨none, looked, db', rfl, round_of_same h hdomain hsame hchanges hsent⟩
      · rename_i hother
        have hjob : (db'.jobs.get? lead.jobId).isSome = true := by
          rw [h.grow.jobs]
          exact hrefer.jobs lead hlead
        have hthere : looked.locks kind = true →
            (db'.findSnapshot lead.jobId d.id).isSome = true := by
          intro hlocks
          obtain ⟨hkind, hheld⟩ := Bool.and_eq_true_iff.mp hlocks
          by_contra hmissing
          obtain ⟨hnone, hnot⟩ := not_or.mp (mt (h.found lead.jobId d.id).mpr hmissing)
          refine hfree (beq_iff_eq.mp hkind) ⟨hsent.mp hheld, d.id, ?_, ?_, ?_⟩
          · exact ⟨rfl, d, hdomain, rfl, Ne.symm hother⟩
          · exact Option.not_isSome_iff_eq_none.mp hnone
          · exact fun x hx hneeds => hnot ⟨x, hx, hneeds⟩
        obtain ⟨id, db'', s, hcreate, hgrow, hfound, hget, hsjob, hsource⟩ :=
          createInOwnSession_run hjob d hthere
        refine ⟨_, _, db'', ?_,
          round_of_other h hdomain hother hchanges hsent hgrow hfound hget hsjob hsource⟩
        rw [bind_apply, hcreate]
        rfl

end Round

/-! ### All rounds -/

section Loop

variable {kind : DatabaseKind} {before leads : List Lead} {session : ScriptSession}

/-- **The loop.**  Every lead is decided, by its change among the new ones. -/
theorem backfillLeads_run (hrefer : db.LeadsRefer) (hleads : ∀ l ∈ leads, l ∈ db.leads.rows)
    (hnodup : (leads.map Lead.id).Nodup) (h : Underway rules db before session db')
    (hfree : kind = .sqlite → ∀ xs l ys, leads = xs ++ l :: ys →
      ¬ db.LockedAt rules (before ++ xs) l) :
    ∃ more session' db'',
      backfillLeads rules kind db.netlocMap db.targetSuffixes leads session db' [] =
        (.ok session', db'', []) ∧ session'.changes = session.changes ++ more ∧
      SnapshotsGrow db' db'' ∧ (∀ e ∈ more, e.1 ∈ leads.map Lead.id) ∧
        ∀ l ∈ leads, Decided rules db'' l (more.lookup l.id) ∧
          Warranted rules db l (more.lookup l.id) := by
  induction leads generalizing before session db' with
  | nil =>
      exact ⟨[], session, db', rfl, (List.append_nil _).symm, .refl db',
        fun _ he => absurd he List.not_mem_nil, fun _ hl => absurd hl List.not_mem_nil⟩
  | cons lead leads ih =>
      obtain ⟨hlead, hleads⟩ := List.forall_mem_cons.mp hleads
      obtain ⟨hnew, hnodup⟩ := List.nodup_cons.mp hnodup
      have hfirst : kind = .sqlite → ¬ db.LockedAt rules before lead := by
        intro hkind
        have hnot := hfree hkind [] lead leads rfl
        rw [List.append_nil] at hnot
        exact hnot
      obtain ⟨change, session₁, db₁, hrun, hround⟩ := backfillLead_run hrefer hlead h hfirst
      have hrest : kind = .sqlite → ∀ xs l ys, leads = xs ++ l :: ys →
          ¬ db.LockedAt rules (before ++ [lead] ++ xs) l := by
        intro hkind xs l ys hsplit
        rw [List.append_assoc]
        exact hfree hkind (lead :: xs) l ys (congrArg (List.cons lead) hsplit)
      obtain ⟨more, session', db'', hloop, hmore, hgrow, hof, hall⟩ :=
        ih hleads hnodup hround.underway hrest
      refine ⟨(change.map fun snapshotId => (lead.id, snapshotId)).toList ++ more, session', db'', ?_,
        ?_, hround.grow.trans hgrow, ?_, List.forall_mem_cons.mpr ⟨?_, fun l hl => ?_⟩⟩
      · rw [backfillLeads, bind_apply, hrun]
        exact hloop
      · rw [hmore, hround.changes, List.append_assoc]
      · intro e he
        rcases List.mem_append.mp he with he | he
        · obtain ⟨snapshotId, -, rfl⟩ := Option.map_eq_some_iff.mp (Option.mem_toList.mp he)
          exact List.mem_cons_self
        · exact List.mem_cons_of_mem _ (hof e he)
      · -- no later round has a change for the lead of this one
        have hnone : more.lookup lead.id = none := by
          refine List.lookup_eq_none_iff.mpr fun e he => ?_
          have hne : lead.id ≠ e.1 := fun heq => hnew (by rw [heq]; exact hof e he)
          simpa using hne
        have hchange : ((change.map fun snapshotId => (lead.id, snapshotId)).toList ++ more).lookup
            lead.id = change := by
          cases change with
          | none => exact hnone
          | some snapshotId => exact List.lookup_cons_self
        rw [hchange]
        exact ⟨hround.decided.mono hgrow, hround.warranted⟩
      · have hne : l.id ≠ lead.id := fun heq => hnew (by rw [← heq]; exact List.mem_map_of_mem hl)
        have hchange : ((change.map fun snapshotId => (lead.id, snapshotId)).toList ++ more).lookup
            l.id = more.lookup l.id := by
          cases change with
          | none => rfl
          | some snapshotId =>
              show ((lead.id, snapshotId) :: more).lookup l.id = _
              rw [List.lookup_cons, beq_false_of_ne hne]
        rw [hchange]
        exact hall l hl

/-- **The loop raises** where the database is locked for one of its leads. -/
theorem backfillLeads_raises (hrefer : db.LeadsRefer) (hleads : ∀ l ∈ leads, l ∈ db.leads.rows)
    (h : Underway rules db before session db') (hkind : kind = .sqlite) {xs ys : List Lead}
    {l : Lead} (hsplit : leads = xs ++ l :: ys) (hlocked : db.LockedAt rules (before ++ xs) l) :
    ∃ db'', backfillLeads rules kind db.netlocMap db.targetSuffixes leads session db' [] =
      (.error databaseIsLocked, db'', []) ∧ SnapshotsGrow db db'' := by
  induction leads generalizing before session db' xs with
  | nil => exact absurd hsplit.symm (List.append_ne_nil_of_right_ne_nil _ (List.cons_ne_nil _ _))
  | cons lead leads ih =>
      obtain ⟨hlead, hleads⟩ := List.forall_mem_cons.mp hleads
      rw [backfillLeads, bind_apply]
      by_cases hfirst : db.LockedAt rules before lead
      · rw [backfillLead_locked hrefer hlead h hkind hfirst]
        exact ⟨db', rfl, h.grow⟩
      · obtain ⟨change, session₁, db₁, hrun, hround⟩ :=
          backfillLead_run hrefer hlead h (fun _ : kind = .sqlite => hfirst)
        rw [hrun]
        cases xs with
        | nil =>
            obtain ⟨rfl, rfl⟩ := List.cons.inj hsplit
            rw [List.append_nil] at hlocked
            exact absurd hlocked hfirst
        | cons x xs =>
            obtain ⟨rfl, hrest⟩ := List.cons.inj hsplit
            refine ih hleads hround.underway hrest ?_
            rw [List.append_assoc]
            exact hlocked

end Loop

theorem mem_backfilled (order : LeadOrder) (l : Lead) :
    l ∈ order.rows (db.leads.select backfillSelects) ↔
      l ∈ db.leads.rows ∧ backfillSelects l = true := by
  rw [(order.rows_perm _).mem_iff]
  exact Table.mem_select _ _

/-- What is left of a run once the catalog and the leads are read. -/
theorem backfillAttribution_apply (rules : LeadRules) (kind : DatabaseKind) (order : LeadOrder)
    (db : LeadsDb) : backfillAttribution rules kind order db [] =
      (backfillLeads rules kind db.netlocMap db.targetSuffixes
        (order.rows (db.leads.select backfillSelects)) {} >>= fun session =>
          write (commitAttribution session.changes) >>= fun _ =>
            pure ((order.rows (db.leads.select backfillSelects)).length, session.changes.length))
        db [] :=
  rfl

/-- A run that nothing interrupts. -/
theorem backfillAttribution_run {kind : DatabaseKind} (order : LeadOrder) (hrefer : db.LeadsRefer)
    (hfree : kind = .sqlite → db.NeverLocked rules (order.rows (db.leads.select backfillSelects))) :
    ∃ changes db', backfillAttribution rules kind order db [] =
        (.ok ((db.leads.select backfillSelects).length, changes.length),
          commitAttribution changes db', []) ∧
      SnapshotsGrow db db' ∧
      (∀ l ∈ db.leads.rows, backfillSelects l = false → changes.lookup l.id = none) ∧
        ∀ l ∈ db.leads.rows, backfillSelects l = true →
          Decided rules db' l (changes.lookup l.id) ∧ Warranted rules db l (changes.lookup l.id) := by
  have hperm := order.rows_perm (db.leads.select backfillSelects)
  have hmem : ∀ l, l ∈ order.rows (db.leads.select backfillSelects) ↔ _ := mem_backfilled order
  have hnodup : ((order.rows (db.leads.select backfillSelects)).map Lead.id).Nodup := by
    refine (hperm.map Lead.id).nodup_iff.mpr ?_
    exact db.leads.nodup_keys.sublist (List.filter_sublist.map Lead.id)
  obtain ⟨changes, session, db', hrun, hchanges, hgrow, hof, hall⟩ := backfillLeads_run hrefer
    (fun l hl => ((hmem l).mp hl).1) hnodup (Underway.start rules db) hfree
  have hchanges : session.changes = changes := hchanges
  refine ⟨changes, db', ?_, hgrow, fun l hl hnot => ?_,
    fun l hl hsel => hall l ((hmem l).mpr ⟨hl, hsel⟩)⟩
  · rw [backfillAttribution_apply, bind_apply, hrun, ← hchanges, hperm.length_eq]
    rfl
  · refine List.lookup_eq_none_iff.mpr fun e he => ?_
    have hne : l.id ≠ e.1 := by
      intro heq
      obtain ⟨l', hl', hid⟩ := List.mem_map.mp (hof e he)
      obtain ⟨hmem', hsel⟩ := (hmem l').mp hl'
      obtain rfl := db.leads.eq_of_key_eq hmem' hl (hid.trans heq.symm)
      rw [hsel] at hnot
      cases hnot
    simpa using hne

/-- A run that is locked out leaves the leads as they were. -/
theorem backfillAttribution_raises (order : LeadOrder) (hrefer : db.LeadsRefer)
    (hlocked : ¬ db.NeverLocked rules (order.rows (db.leads.select backfillSelects))) :
    ∃ db', backfillAttribution rules .sqlite order db [] = (.error databaseIsLocked, db', []) ∧
      SnapshotsGrow db db' := by
  simp only [LeadsDb.NeverLocked, not_forall, not_not] at hlocked
  obtain ⟨xs, l, ys, hsplit, hlocked⟩ := hlocked
  obtain ⟨db', hrun, hgrow⟩ := backfillLeads_raises hrefer
    (fun l hl => ((mem_backfilled order l).mp hl).1) (Underway.start rules db) rfl hsplit hlocked
  refine ⟨db', ?_, hgrow⟩
  rw [backfillAttribution_apply, bind_apply, hrun]

/-! ### The leads afterwards -/

theorem reattribute_of_none {changes : List (Nat × Option Nat)} {lead : Lead}
    (h : changes.lookup lead.id = none) : lead.reattribute changes = lead := by
  unfold Lead.reattribute
  rw [h]
  rfl

theorem get?_commitAttribution (changes : List (Nat × Option Nat)) (db : LeadsDb) (k : Nat) :
    (commitAttribution changes db).leads.get? k =
      (db.leads.get? k).map (Lead.reattribute changes) := by
  unfold commitAttribution
  rw [Table.get?_updateWhere]
  congr 1
  funext l
  split
  · rfl
  · rename_i hnot
    exact (reattribute_of_none (Option.not_isSome_iff_eq_none.mp hnot)).symm

theorem mem_commitAttribution {changes : List (Nat × Option Nat)} {lead' : Lead} :
    lead' ∈ (commitAttribution changes db).leads.rows ↔
      ∃ lead ∈ db.leads.rows, lead.reattribute changes = lead' := by
  constructor
  · intro h
    have hget := Table.get?_of_mem h
    rw [get?_commitAttribution] at hget
    obtain ⟨lead, hlead, heq⟩ := Option.map_eq_some_iff.mp hget
    exact ⟨lead, Table.get?_mem hlead, heq⟩
  · rintro ⟨lead, hlead, rfl⟩
    have hget := get?_commitAttribution changes db (Keyed.key lead)
    rw [Table.get?_of_mem hlead] at hget
    exact Table.get?_mem hget

/-- Attribution reads the snapshots and the catalog. -/
theorem attributes_commit {changes : List (Nat × Option Nat)} {jobId : Nat} {sourceUrl : String}
    {snapshotId : Option Nat} :
    (commitAttribution changes db).Attributes rules jobId sourceUrl snapshotId ↔
      db.Attributes rules jobId sourceUrl snapshotId := Iff.rfl

/-- A lead that is not touched is attributed afterwards if it was before. -/
theorem attributes_grow_iff (hrefer : db.LeadsRefer) (hgrow : SnapshotsGrow db db') {lead : Lead}
    (hlead : lead ∈ db.leads.rows) :
    db'.Attributes rules lead.jobId lead.sourceUrl lead.snapshotId ↔
      db.Attributes rules lead.jobId lead.sourceUrl lead.snapshotId := by
  unfold LeadsDb.Attributes
  rw [hgrow.domainOf]
  split
  · exact Iff.rfl
  · constructor
    · rintro ⟨s, hs, hof⟩
      exact ⟨s, hrefer.bind_get? hgrow hlead hs, hof⟩
    · rintro ⟨s, hs, hof⟩
      exact ⟨s, hgrow.bind_get? hs, hof⟩

/-- A lead that is selected is attributed if it is decided and keeps no other job's snapshot. -/
theorem attributes_of_decided (hrefer : db.LeadsRefer) (hgrow : SnapshotsGrow db db') {lead : Lead}
    (hlead : lead ∈ db.leads.rows) {change : Option (Option Nat)}
    (hdecided : Decided rules db' lead change)
    (hown : ∀ d, db.domainOf rules lead.sourceUrl = some d → ∀ s,
      lead.snapshotId.bind db.snapshots.get? = some s → s.sourceDomainId = some d.id →
        s.jobId = lead.jobId) :
    db'.Attributes rules lead.jobId lead.sourceUrl (change.getD lead.snapshotId) := by
  unfold Decided at hdecided
  unfold LeadsDb.Attributes
  rw [hgrow.domainOf] at hdecided ⊢
  cases hdomain : db.domainOf rules lead.sourceUrl with
  | none =>
      rw [hdomain] at hdecided
      exact hdecided
  | some d =>
      rw [hdomain] at hdecided
      obtain ⟨s, hs, hsource, hjob⟩ := hdecided
      refine ⟨s, hs, ?_, hsource⟩
      cases change with
      | some snapshotId => exact hjob rfl
      | none => exact hown d hdomain s (hrefer.bind_get? hgrow hlead hs) hsource

/-! ### A second run -/

section Again

variable {kind : DatabaseKind}

/-- A lead that is decided as it is, is left as it is. -/
theorem backfillLead_again {lead : Lead} (h : Decided rules db lead none) :
    backfillLead rules kind db.netlocMap db.targetSuffixes lead {} db [] = (.ok {}, db, []) := by
  unfold Decided at h
  unfold backfillLead
  cases hdomain : db.domainOf rules lead.sourceUrl with
  | none =>
      rw [hdomain] at h
      have hnone : lead.snapshotId = none := h
      unfold LeadsDb.domainOf at hdomain
      rw [hdomain, hnone]
      rfl
  | some d =>
      rw [hdomain] at h
      obtain ⟨s, hs, hsource, -⟩ := h
      have hsame : some d.id = db.sourceDomainOf lead := by
        unfold LeadsDb.sourceDomainOf
        rw [show lead.snapshotId.bind db.snapshots.get? = some s from hs, Option.bind_some, hsource]
      unfold LeadsDb.domainOf at hdomain
      rw [hdomain]
      dsimp only
      rw [bind_apply, currentSourceDomain_run]
      dsimp only
      rw [if_pos hsame]
      cases lead.snapshotId <;> rfl

theorem backfillLeads_again {leads : List Lead} (h : ∀ l ∈ leads, Decided rules db l none) :
    backfillLeads rules kind db.netlocMap db.targetSuffixes leads {} db [] = (.ok {}, db, []) := by
  induction leads with
  | nil => rfl
  | cons lead leads ih =>
      obtain ⟨hlead, hrest⟩ := List.forall_mem_cons.mp h
      rw [backfillLeads, bind_apply, backfillLead_again hlead]
      exact ih hrest

/-- **A second run changes nothing**, in whatever order it takes the leads. -/
theorem backfill_again (order : LeadOrder)
    (h : ∀ l ∈ db.leads.rows, backfillSelects l = true → Decided rules db l none) :
    ∃ counts, backfillAttribution rules kind order db [] = (.ok counts, db, []) := by
  have hall : ∀ l ∈ order.rows (db.leads.select backfillSelects), Decided rules db l none := by
    intro l hl
    obtain ⟨hmem, hsel⟩ := (mem_backfilled order l).mp hl
    exact h l hmem hsel
  have hsame : commitAttribution [] db = db := by
    have hnone := Table.updateWhere_of_none db.leads (fun l => (([] : List (Nat × Option Nat)).lookup
      l.id).isSome) (Lead.reattribute []) (Lead.key_reattribute []) fun _ _ => rfl
    unfold commitAttribution
    rw [hnone]
  refine ⟨((order.rows (db.leads.select backfillSelects)).length, 0), ?_⟩
  rw [backfillAttribution_apply, bind_apply, backfillLeads_again hall]
  dsimp only
  rw [bind_apply, write_quiet quiet_nil, hsame]
  rfl

end Again

/-- A lead that was selected and decided is decided afterwards. -/
theorem Decided.committed {changes : List (Nat × Option Nat)} {lead : Lead}
    (h : Decided rules db lead (changes.lookup lead.id)) :
    Decided rules (commitAttribution changes db) (lead.reattribute changes) none := by
  unfold Decided at h ⊢
  show match db.domainOf rules lead.sourceUrl with
    | none => _
    | some d => _
  split
  · rename_i hdomain
    rw [hdomain] at h
    exact h
  · rename_i d hdomain
    rw [hdomain] at h
    obtain ⟨s, hs, hsource, -⟩ := h
    exact ⟨s, hs, hsource, fun hchange => Bool.noConfusion hchange⟩

theorem isManual_of_selects {lead : Lead} (h : backfillSelects lead = true) :
    lead.isManual = false := by
  unfold backfillSelects at h
  unfold Lead.isManual
  rw [Bool.and_eq_true, bne_iff_ne] at h
  exact beq_false_of_ne h.2

/-- A crawled lead that is not selected has no tag. -/
theorem channelTag_of_not_selects {lead : Lead} (h : backfillSelects lead = false)
    (hcrawled : lead.isManual = false) : lead.channelTag = none := by
  unfold backfillSelects at h
  unfold Lead.isManual at hcrawled
  cases htag : lead.channelTag with
  | none => rfl
  | some tag =>
      rw [htag] at h hcrawled
      rw [bne, hcrawled] at h
      cases h

end

/--
**The backfill equals save-time attribution**: a run of the script leaves every crawled lead
with a snapshot of its own job for the domain of its page, or with none if there is no such
domain, leaves manual leads alone, and is not changed by a second run, if and only if every
crawled lead without a `channel_tag` was so attributed before, no other crawled lead had a
snapshot of the right domain and another job, and, on SQLite, no snapshot has to be inserted once
something has been sent.
-/
theorem backfill_attributes_iff (rules : LeadRules) (kind : DatabaseKind) (order order' : LeadOrder)
    (db : LeadsDb) (hrefer : db.LeadsRefer) :
    (∃ counts counts' db', backfillAttribution rules kind order db [] = (.ok counts, db', []) ∧
      Backfilled rules db db' ∧
      backfillAttribution rules kind order' db' [] = (.ok counts', db', [])) ↔
      db.Repairable rules ∧ (kind = .sqlite →
        db.NeverLocked rules (order.rows (db.leads.select backfillSelects))) := by
  by_cases hfree : kind = .sqlite →
      db.NeverLocked rules (order.rows (db.leads.select backfillSelects))
  case neg =>
    refine iff_of_false ?_ fun h => hfree h.2
    rintro ⟨counts, -, db', hrun, -⟩
    obtain ⟨rfl, hlocked⟩ := Classical.not_imp.mp hfree
    obtain ⟨db'', hraises, -⟩ := backfillAttribution_raises order hrefer hlocked
    rw [hraises] at hrun
    cases hrun
  rw [and_iff_left hfree]
  obtain ⟨changes, db₁, hrun, hgrow, hskipped, hselected⟩ :=
    backfillAttribution_run order hrefer hfree
  have hmem : ∀ lead', lead' ∈ (commitAttribution changes db₁).leads.rows ↔
      ∃ lead ∈ db.leads.rows, lead.reattribute changes = lead' := by
    intro lead'
    rw [mem_commitAttribution, hgrow.leads]
  constructor
  · rintro ⟨counts, counts', db', hrun', hdone, -⟩
    obtain rfl : commitAttribution changes db₁ = db' :=
      (Prod.mk.inj (Prod.mk.inj (hrun.symm.trans hrun')).2).1
    refine ⟨fun lead hlead htag => ?_, fun lead hlead hsel d hd s hs hsource => ?_⟩
    · -- it has not been touched
      have hnone : changes.lookup lead.id = none :=
        hskipped lead hlead (by unfold backfillSelects; rw [htag]; rfl)
      have hmem' := (hmem lead).mpr ⟨lead, hlead, reattribute_of_none hnone⟩
      have hattributed := hdone.attributed lead hmem' (by unfold Lead.isManual; rw [htag]; rfl)
      exact (attributes_grow_iff hrefer hgrow hlead).mp (attributes_commit.mp hattributed)
    · -- it has kept its snapshot
      have hnone := (hselected lead hlead hsel).2 d s hd hs hsource
      have hmem' := (hmem lead).mpr ⟨lead, hlead, reattribute_of_none hnone⟩
      have hattributed := (attributes_grow_iff hrefer hgrow hlead).mp
        (attributes_commit.mp (hdone.attributed lead hmem' (isManual_of_selects hsel)))
      unfold LeadsDb.Attributes at hattributed
      rw [hd] at hattributed
      obtain ⟨s', hs', hjob, -⟩ := hattributed
      obtain rfl := Option.some.inj (hs.symm.trans hs')
      exact hjob
  · intro h
    have hagain : ∀ l ∈ (commitAttribution changes db₁).leads.rows, backfillSelects l = true →
        Decided rules (commitAttribution changes db₁) l none := by
      intro l hl hsel
      obtain ⟨lead, hlead, rfl⟩ := (hmem l).mp hl
      exact (hselected lead hlead hsel).1.committed
    obtain ⟨counts', hrun'⟩ := backfill_again order' hagain
    refine ⟨_, counts', _, hrun, ⟨fun l hl hcrawled => ?_, fun l hl hmanual => ?_, fun k => ?_⟩, hrun'⟩
    · obtain ⟨lead, hlead, rfl⟩ := (hmem l).mp hl
      rw [attributes_commit]
      cases hsel : backfillSelects lead with
      | true =>
          exact attributes_of_decided hrefer hgrow hlead (hselected lead hlead hsel).1
            (h.tagged lead hlead hsel)
      | false =>
          rw [reattribute_of_none (hskipped lead hlead hsel)]
          exact (attributes_grow_iff hrefer hgrow hlead).mpr
            (h.untagged lead hlead (channelTag_of_not_selects hsel hcrawled))
    · have hsel : backfillSelects l = false := by
        cases hsel : backfillSelects l with
        | false => rfl
        | true =>
            rw [isManual_of_selects hsel] at hmanual
            cases hmanual
      exact (hmem l).mpr ⟨l, hl, reattribute_of_none (hskipped l hl hsel)⟩
    · rw [get?_commitAttribution, hgrow.leads, Option.map_map]
      rfl

/-! ### Two leads -/

/-- The leads as they come. -/
def leadsInOrder : LeadOrder := ⟨id, List.Perm.refl⟩

def reraRules : LeadRules where
  lower := id
  netloc := fun url => if url = "https://rera.tn.gov.in/contact" then some "rera.tn.gov.in" else none
  loads := fun _ => .malformed

/-- A lead captured on a crawl that started at `tn.gov.in`, with the snapshot of the start. -/
def reraLead (sourceUrl : String) (channelTag : Option String) : Lead where
  id := 1
  jobId := 1
  snapshotId := some 1
  email := "officer@rera.tn.gov.in"
  personName := none
  designation := none
  department := none
  sourceUrl := sourceUrl
  sourceTitle := none
  contextSnippet := none
  entityKind := none
  phone := none
  channelTag := channelTag
  confidenceBand := none
  fieldProvenance := none

def reraDb (sourceUrl : String) (channelTag : Option String) : LeadsDb where
  leads := ⟨[reraLead sourceUrl channelTag], 2, List.pairwise_singleton _ _,
    fun _ hl => by rw [List.mem_singleton.mp hl]; exact Nat.lt_succ_self 1⟩
  snapshots := ⟨[⟨1, 1, some 1, some "Tamil Nadu"⟩], 2, by decide, by decide⟩
  jobs := ⟨[⟨1, none⟩], 2, oneJob_sorted, oneJob_bounded⟩
  netlocMap := [("tn.gov.in", ⟨1, some "Tamil Nadu"⟩), ("rera.tn.gov.in", ⟨2, some "RERA"⟩)]

theorem leadsRefer_rera (sourceUrl : String) (channelTag : Option String) :
    (reraDb sourceUrl channelTag).LeadsRefer where
  jobs l hl := by
    rw [List.mem_singleton.mp hl]
    rfl
  snapshots l hl := by
    rw [List.mem_singleton.mp hl]
    rfl

/-- The lead of another page, which belongs to a domain of its own. -/
def portLead (snapshotId : Option Nat) : Lead :=
  { reraLead "https://port.gov.in/contact" (some "office") with
    id := 2
    snapshotId := snapshotId
    email := "office@port.gov.in" }

def portRules : LeadRules where
  lower := id
  netloc := fun url =>
    if url = "https://port.gov.in/contact" then some "port.gov.in" else reraRules.netloc url
  loads := fun _ => .malformed

theorem twoLeads_sorted (snapshotId : Option Nat) :
    [reraLead "https://rera.tn.gov.in/contact" (some "office"), portLead snapshotId].Pairwise
      fun a b => Keyed.key a < Keyed.key b :=
  List.pairwise_pair.mpr (Nat.lt_succ_self 1)

theorem twoLeads_bounded (snapshotId : Option Nat) :
    ∀ l ∈ [reraLead "https://rera.tn.gov.in/contact" (some "office"), portLead snapshotId],
      Keyed.key l < 3 :=
  List.forall_mem_cons.mpr ⟨Nat.lt_of_sub_eq_succ rfl,
    List.forall_mem_singleton.mpr (Nat.lt_succ_self 2)⟩

def portDb (snapshotId : Option Nat) : LeadsDb :=
  { reraDb "https://rera.tn.gov.in/contact" (some "office") with
    leads := ⟨_, 3, twoLeads_sorted snapshotId, twoLeads_bounded snapshotId⟩
    netlocMap := [("tn.gov.in", ⟨1, some "Tamil Nadu"⟩), ("rera.tn.gov.in", ⟨2, some "RERA"⟩),
      ("port.gov.in", ⟨3, some "Port"⟩)] }

/-- Two tagged leads get snapshots of their domains on SQLite; the second had none. -/
theorem tagged_leads_repaired :
    ∃ counts counts' db', backfillAttribution portRules .sqlite leadsInOrder (portDb none) [] =
        (.ok counts, db', []) ∧
      Backfilled portRules (portDb none) db' ∧
      backfillAttribution portRules .sqlite leadsInOrder db' [] = (.ok counts', db', []) := by
  have hrefer : (portDb none).LeadsRefer := by
    refine ⟨fun l hl => ?_, fun l hl => ?_⟩ <;>
      rcases List.mem_pair.mp hl with rfl | rfl <;> rfl
  refine (backfill_attributes_iff portRules .sqlite leadsInOrder leadsInOrder _ hrefer).mpr
    ⟨⟨?_, ?_⟩, fun _ before lead after hsplit hlocked => ?_⟩
  · intro l hl htag
    rcases List.mem_pair.mp hl with rfl | rfl <;> cases htag
  · intro l hl _ d hd s hs hsource
    rcases List.mem_pair.mp hl with rfl | rfl
    · have hrera : (portDb none).domainOf portRules "https://rera.tn.gov.in/contact" =
          some ⟨2, some "RERA"⟩ := by
        decide +kernel
      obtain rfl := Option.some.inj (hrera.symm.trans hd)
      obtain rfl : ⟨1, 1, some 1, some "Tamil Nadu"⟩ = s := Option.some.inj hs
      cases hsource
    · cases hs
  · -- only the first lead has a snapshot to query for
    obtain ⟨⟨x, l, hsub, -, hlooks⟩, -⟩ := hlocked
    have hall : [x, l].Sublist
        [reraLead "https://rera.tn.gov.in/contact" (some "office"), portLead none] := by
      refine hsub.trans ?_
      show (before ++ [lead]).Sublist (leadsInOrder.rows ((portDb none).leads.select backfillSelects))
      rw [hsplit, List.append_cons before lead after]
      exact List.sublist_append_left _ _
    obtain ⟨-, hl⟩ := List.cons.inj (hall.eq_of_length rfl)
    obtain rfl := (List.cons.inj hl).1
    cases hlooks.2

/-- Had it a snapshot, the query for that would lock the database before its own is inserted. -/
example : (backfillAttribution portRules .sqlite leadsInOrder (portDb (some 1)) []).1 =
    .error databaseIsLocked := by
  decide +kernel

/-- A lead without a tag keeps the snapshot of the start, though its page belongs to no domain. -/
theorem untagged_lead_left :
    (reraDb "https://club.org" none).LeadsRefer ∧
      (∀ kind, backfillAttribution reraRules kind leadsInOrder (reraDb "https://club.org" none) [] =
        (.ok (0, 0), reraDb "https://club.org" none, [])) ∧
      (reraLead "https://club.org" none).isManual = false ∧
      ¬ Backfilled reraRules (reraDb "https://club.org" none) (reraDb "https://club.org" none) := by
  have hlead : reraLead "https://club.org" none ∈ (reraDb "https://club.org" none).leads.rows :=
    List.mem_singleton.mpr rfl
  refine ⟨leadsRefer_rera _ _, fun _ => rfl, by decide, fun hdone => ?_⟩
  have hattributed := hdone.attributed _ hlead (by decide)
  have hnone : (reraDb "https://club.org" none).domainOf reraRules "https://club.org" = none := by
    decide +kernel
  unfold LeadsDb.Attributes at hattributed
  rw [show (reraLead "https://club.org" none).sourceUrl = "https://club.org" from rfl, hnone]
    at hattributed
  cases hattributed

end GovCrawler
