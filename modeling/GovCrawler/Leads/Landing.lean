/-
When a posted lead lands: what `save_lead` leaves in the leads table.

Nothing `save_lead` does removes an email from the table, whichever call raises.  An
email that was not there is there afterwards exactly if the item can be passed to
`save_lead` at all and all calls up to the insert run (`saveLead_lands_iff`); those
are `callsToInsert`.  An item that does not land is one the batch drops.
-/
import GovCrawler.Leads.SaveLead

namespace GovCrawler

open Relational StoreProgram Prog

variable {rules : LeadRules} {jobId : Nat} {capturedBy : Option Nat} {item : LeadItem}
  {db : LeadsDb} {email : String}

/-! ### Emails in the table -/

theorem hasEmail_iff : db.hasEmail email = true ↔ ∃ l ∈ db.leads.rows, l.email = email := by
  unfold LeadsDb.hasEmail LeadsDb.findLead Table.first?
  rw [List.find?_isSome]
  simp

theorem hasEmail_congr {db' : LeadsDb} (h : db'.leads = db.leads) :
    db'.hasEmail email = db.hasEmail email := by
  unfold LeadsDb.hasEmail LeadsDb.findLead
  rw [h]

/-- The property of a store to have a lead of the email. -/
abbrev HasEmail (email : String) (db : LeadsDb) : Prop := db.hasEmail email = true

/-- A store that keeps the leads and the jobs of `db`. -/
def SameLeads (db db' : LeadsDb) : Prop := db'.leads = db.leads ∧ db'.jobs = db.jobs

theorem SameLeads.refl (db : LeadsDb) : SameLeads db db := ⟨rfl, rfl⟩

/-- Enriching leads keeps their emails. -/
theorem hasEmail_enrich {weights : ScoreWeights} {p : Lead → Bool} (h : HasEmail email db) :
    HasEmail email { db with
      leads := db.leads.updateWhere p (Lead.enrich weights item) (by intro _; rfl) } := by
  obtain ⟨l, hl, heq⟩ := hasEmail_iff.mp h
  refine hasEmail_iff.mpr ⟨if p l then l.enrich weights item else l, List.mem_map_of_mem hl, ?_⟩
  by_cases hp : p l = true
  · rw [if_pos hp]
    exact heq
  · rw [if_neg hp]
    exact heq

theorem hasEmail_insertNew {mk : Nat → Lead} {hmk : ∀ n, Keyed.key (mk n) = n} :
    HasEmail email { db with leads := db.leads.insertNew mk hmk } ↔
      HasEmail email db ∨ (mk db.leads.nextKey).email = email := by
  unfold HasEmail
  rw [hasEmail_iff, hasEmail_iff]
  simp only [Table.mem_insertNew, or_and_right, exists_or, exists_eq_left]

/-! ### Inserts -/

section Insert

variable {insert : LeadsDb → Option (Nat × LeadsDb)}

/-- An insert is one call.  It raises, or a constraint refuses it, or it is made. -/
theorem insertOr_cases (insert : LeadsDb → Option (Nat × LeadsDb)) (db : LeadsDb)
    (fs : List (Option LeadExc)) :
    (∃ e, insertOr insert db fs = (.error e, db, fs.tail) ∧ (Quiet (fs.take 1) → insert db = none)) ∨
      ∃ id db', insert db = some (id, db') ∧ Quiet (fs.take 1) ∧
        insertOr insert db fs = (.ok id, db', fs.tail) := by
  unfold insertOr
  rw [bind_apply]
  rcases call_cases (attempt insert) db fs with ⟨hquiet, hrun⟩ | ⟨e, hhead, hrun⟩
  · rw [hrun]
    unfold attempt
    cases insert db with
    | none => exact Or.inl ⟨.integrity, rfl, fun _ => rfl⟩
    | some r => exact Or.inr ⟨r.1, r.2, rfl, hquiet, rfl⟩
  · rw [hrun]
    refine Or.inl ⟨e, rfl, fun hquiet => ?_⟩
    cases fs with
    | nil => cases hhead
    | cons o fs =>
        obtain rfl : o = some e := Option.some.inj hhead
        exact absurd (hquiet (some e) List.mem_cons_self) nofun

theorem preserves_insertOr {I : LeadsDb → Prop}
    (hins : ∀ db id db', I db → insert db = some (id, db') → I db') :
    Preserves I (insertOr insert) := by
  intro db fs h
  rcases insertOr_cases insert db fs with ⟨e, hrun, -⟩ | ⟨id, db', hsome, -, hrun⟩
  · rw [hrun]
    exact h
  · rw [hrun]
    exact hins db id db' h hsome

theorem preserves_exceptIntegrity {α : Type} {I : LeadsDb → Prop} {m h : LeadM α}
    (hm : Preserves I m) (hh : Preserves I h) : Preserves I (exceptIntegrity m h) := by
  refine preserves_tryExcept hm fun e => ?_
  by_cases he : e = .integrity
  · rw [if_pos he]
    exact hh
  · rw [if_neg he]
    exact preserves_raise e

end Insert

/-! ### What stays in the store -/

/-- A property that a new snapshot does not take away. -/
def StableForSnapshots (I : LeadsDb → Prop) : Prop :=
  ∀ {db jobId domain id db'}, addSnapshot jobId domain db = some (id, db') → I db → I db'

/-- A property that a new occurrence does not take away. -/
def StableForOccurrences (I : LeadsDb → Prop) : Prop :=
  ∀ {db leadId jobId sourceUrl capturedBy id db'},
    addOccurrence leadId jobId sourceUrl capturedBy db = some (id, db') → I db → I db'

/-- A property that no write of `save_lead` takes away. -/
structure Stable (rules : LeadRules) (I : LeadsDb → Prop) : Prop where
  snapshot : StableForSnapshots I
  occurrence : StableForOccurrences I
  lead : ∀ {db jobId item email snapshotId department id db'},
    addLead rules jobId item email snapshotId department db = some (id, db') → I db → I db'
  enrich : ∀ {db} (id : Nat) (item : LeadItem), I db → I { db with
    leads := db.leads.updateWhere (fun l => l.id == id) (Lead.enrich rules.weights item)
      (by intro _; rfl) }

section Preserves

variable {I : LeadsDb → Prop}

theorem recordOccurrence_preserves (h : StableForOccurrences I) (leadId : Nat) (sourceUrl : String) :
    Preserves I (recordOccurrence leadId jobId sourceUrl capturedBy) := by
  unfold recordOccurrence
  exact preserves_exceptIntegrity (preserves_bind
    (preserves_insertOr fun _ _ _ hI hins => h hins hI) fun _ => preserves_pure ())
    (preserves_pure ())

theorem createCrawlSnapshot_preserves (h : StableForSnapshots I) (domain : Domain) :
    Preserves I (createCrawlSnapshot jobId domain) := by
  unfold createCrawlSnapshot
  refine preserves_bind (preserves_read _) fun found => ?_
  cases found with
  | some snapshot => exact preserves_pure _
  | none =>
      refine preserves_exceptIntegrity (preserves_insertOr fun _ _ _ hI hins => h hins hI) ?_
      refine preserves_bind (preserves_read _) fun again => ?_
      cases again with
      | some snapshot => exact preserves_pure _
      | none => exact preserves_raise _

theorem attributeLead_preserves (h : StableForSnapshots I) :
    Preserves I (attributeLead rules jobId item) := by
  unfold attributeLead
  refine preserves_bind (preserves_read _) fun netlocMap => ?_
  refine preserves_bind (preserves_read _) fun suffixes => ?_
  cases resolveDomainForUrl rules item.sourceUrl netlocMap suffixes with
  | none => exact preserves_pure _
  | some resolved =>
      refine preserves_bind ?_ fun inherited => ?_
      · unfold inheritedDomain
        cases item.snapshotId with
        | none => exact preserves_pure _
        | some k => exact preserves_read _
      · split
        · exact preserves_pure _
        · exact preserves_bind (createCrawlSnapshot_preserves h resolved) fun _ => preserves_pure _

theorem departmentFor_preserves (snapshotId : Option Nat) :
    Preserves I (departmentFor rules item snapshotId) := by
  cases snapshotId with
  | none => exact preserves_pure _
  | some k =>
      refine preserves_bind (preserves_ofExcept _) fun fallback => ?_
      cases fallback with
      | true => exact preserves_bind (preserves_read _) fun _ => preserves_pure _
      | false => exact preserves_pure _

/-- What `save_lead` preserves, whichever call raises. -/
theorem saveLead_preserves (h : Stable rules I) :
    Preserves I (saveLead rules jobId capturedBy item) := by
  unfold saveLead
  split
  · exact preserves_raise _
  · split
    · exact preserves_pure _
    · exact preserves_pure _
    · refine preserves_bind (preserves_read _) fun found => ?_
      cases found with
      | some lead =>
          refine preserves_bind ?_ fun _ => preserves_bind
            (recordOccurrence_preserves h.occurrence _ _) fun _ => preserves_pure _
          unfold commitChanges
          split
          · exact preserves_write fun db hI => h.enrich lead.id item hI
          · exact preserves_pure _
      | none =>
          unfold createLead
          refine preserves_bind (attributeLead_preserves h.snapshot) fun snapshotId => ?_
          refine preserves_bind (departmentFor_preserves snapshotId) fun department => ?_
          exact preserves_exceptIntegrity (preserves_bind
            (preserves_insertOr fun _ _ _ hI hins => h.lead hins hI) fun id =>
            preserves_bind (recordOccurrence_preserves h.occurrence _ _) fun _ => preserves_pure _)
            (preserves_pure _)

end Preserves

/-- The rows that the inserts add. -/
theorem addOccurrence_eq {leadId : Nat} {sourceUrl : String} {id : Nat} {db' : LeadsDb}
    (h : addOccurrence leadId jobId sourceUrl capturedBy db = some (id, db')) :
    db' = { db with
      occurrences :=
        db.occurrences.insertNew fun id => ⟨id, leadId, jobId, sourceUrl, capturedBy⟩ } := by
  unfold addOccurrence at h
  split at h
  · exact (Prod.mk.inj (Option.some.inj h)).2.symm
  · cases h

theorem addSnapshot_eq {domain : Domain} {id : Nat} {db' : LeadsDb}
    (h : addSnapshot jobId domain db = some (id, db')) :
    db' = { db with
      snapshots := db.snapshots.insertNew fun id => ⟨id, jobId, some domain.id, domain.title⟩ } := by
  unfold addSnapshot at h
  split at h
  · exact (Prod.mk.inj (Option.some.inj h)).2.symm
  · cases h

theorem addLead_eq {snapshotId : Option Nat} {department : Option String} {id : Nat} {db' : LeadsDb}
    (h : addLead rules jobId item email snapshotId department db = some (id, db')) :
    db.hasEmail email = false ∧ id = db.leads.nextKey ∧ db' = { db with
      leads := db.leads.insertNew (newLead rules jobId item email snapshotId department)
        (by intro _; rfl) } := by
  unfold addLead at h
  split at h
  · rename_i hguard
    simp only [Bool.and_eq_true, Bool.not_eq_true'] at hguard
    obtain ⟨rfl, rfl⟩ := Prod.mk.inj (Option.some.inj h)
    exact ⟨hguard.1.1, rfl, rfl⟩
  · cases h

/-- A property that only reads the leads and the jobs. -/
def OfLeads (I : LeadsDb → Prop) : Prop := ∀ db db', SameLeads db db' → I db → I db'

theorem OfLeads.snapshot {I : LeadsDb → Prop} (hI : OfLeads I) : StableForSnapshots I := by
  intro db jobId domain id db' h hdb
  obtain rfl := addSnapshot_eq h
  exact hI db _ ⟨rfl, rfl⟩ hdb

theorem OfLeads.occurrence {I : LeadsDb → Prop} (hI : OfLeads I) : StableForOccurrences I := by
  intro db leadId jobId sourceUrl capturedBy id db' h hdb
  obtain rfl := addOccurrence_eq h
  exact hI db _ ⟨rfl, rfl⟩ hdb

theorem OfLeads.stable {I : LeadsDb → Prop} (hI : OfLeads I)
    (hleads : ∀ db leads, (∀ e, HasEmail e db → HasEmail e { db with leads := leads }) → I db →
      I { db with leads := leads }) : Stable rules I where
  snapshot := hI.snapshot
  occurrence := hI.occurrence
  lead h hdb := by
    obtain ⟨-, -, rfl⟩ := addLead_eq h
    exact hleads _ _ (fun _ he => hasEmail_insertNew.mpr (Or.inl he)) hdb
  enrich id item hdb := hleads _ _ (fun _ he => hasEmail_enrich he) hdb

theorem ofLeads_hasEmail : OfLeads (HasEmail email) := fun _ _ h hi =>
  (hasEmail_congr h.1).trans hi

theorem ofLeads_sameLeads (db : LeadsDb) : OfLeads (SameLeads db) := fun _ _ h hi =>
  ⟨h.1.trans hi.1, h.2.trans hi.2⟩

theorem stable_hasEmail (email : String) : Stable rules (HasEmail email) :=
  ofLeads_hasEmail.stable fun _ _ hkeep h => hkeep email h

theorem stable_jobs (jobs : Table CrawlJob) : Stable rules fun db => db.jobs = jobs :=
  OfLeads.stable (fun _ _ hsame h => hsame.2.trans h) fun _ _ _ h => h

/-- **An email stays** in the leads table, whatever item is saved and whichever call raises. -/
theorem saveLead_keeps (email : String) :
    Preserves (HasEmail email) (saveLead rules jobId capturedBy item) :=
  saveLead_preserves (stable_hasEmail email)

theorem saveLead_jobs (jobs : Table CrawlJob) :
    Preserves (fun db => db.jobs = jobs) (saveLead rules jobId capturedBy item) :=
  saveLead_preserves (stable_jobs jobs)

/-! ### The calls up to the insert -/

/-- The domain of the catalog that an item's page belongs to. -/
def foundDomain (rules : LeadRules) (db : LeadsDb) (item : LeadItem) : Option Domain :=
  resolveDomainForUrl rules item.sourceUrl db.netlocMap db.targetSuffixes

/-- The domain of the snapshot that came with the item. -/
def inheritedOf (db : LeadsDb) (item : LeadItem) : Option Nat :=
  item.snapshotId.bind fun k => (db.snapshots.get? k).bind fun s => s.sourceDomainId

/-- How many calls the attribution makes. -/
def attributionCalls (rules : LeadRules) (jobId : Nat) (item : LeadItem) (db : LeadsDb) : Nat :=
  match foundDomain rules db item with
  | none => 2
  | some resolved =>
      2 + ((if item.snapshotId.isSome then 1 else 0) +
        (if some resolved.id = inheritedOf db item then 0
          else if (db.findSnapshot jobId resolved.id).isSome then 1 else 2))

/-- How many calls the choice of the department makes. -/
def departmentCalls (rules : LeadRules) (item : LeadItem) (db : LeadsDb) : Nat :=
  if (foundDomain rules db item).isSome then
    match departmentIsUrlFallback rules item.fieldProvenance with
    | .ok true => 1
    | _ => 0
  else 0

/-- How many calls `save_lead` makes for a new email, up to the insert of the lead. -/
def callsToInsert (rules : LeadRules) (jobId : Nat) (item : LeadItem) (db : LeadsDb) : Nat :=
  1 + (attributionCalls rules jobId item db + (departmentCalls rules item db + 1))

/-- No library function raises on what the item carries. -/
def readable (rules : LeadRules) (item : LeadItem) (db : LeadsDb) : Bool :=
  (foundDomain rules db item).isNone ||
    (departmentIsUrlFallback rules item.fieldProvenance).toBool

/-- The email an item is stored under. -/
def storedEmail (rules : LeadRules) (item : LeadItem) : String :=
  rules.lower (item.email.getD "")

/-- An item lands if its email is there, or if `save_lead` accepts its keywords and every call
up to the insert runs. -/
def lands (rules : LeadRules) (jobId : Nat) (item : LeadItem) (faults : List (Option LeadExc))
    (db : LeadsDb) : Bool :=
  db.hasEmail (storedEmail rules item) ||
    (item.unexpected.isEmpty && readable rules item db &&
      decide (Quiet (faults.take (callsToInsert rules jobId item db))))

theorem inheritedDomain_takes (item : LeadItem) (db : LeadsDb) :
    Takes (inheritedDomain item) db (if item.snapshotId.isSome then 1 else 0)
      (inheritedOf db item) db := by
  unfold inheritedDomain inheritedOf
  cases item.snapshotId with
  | none => exact takes_pure _ _
  | some k => exact takes_read _ _

/-- A snapshot that is not there is not found after a failed insert either. -/
theorem existingSnapshot_raises {domainId : Nat} (h : db.findSnapshot jobId domainId = none)
    (fs : List (Option LeadExc)) : ∃ e, (existingSnapshot jobId domainId db fs).1 = .error e := by
  have htakes := takes_read (ε := LeadExc) (fun db => db.findSnapshot jobId domainId) db
  unfold existingSnapshot
  by_cases hquiet : Quiet (fs.take 1)
  · rw [bind_apply, htakes.runs fs hquiet, h]
    exact ⟨.attributeError, rfl⟩
  · obtain ⟨e, he⟩ := htakes.raises fs hquiet
    rw [bind_of_error he]
    exact ⟨e, rfl⟩

theorem addSnapshot_of_job (hjob : (db.jobs.get? jobId).isSome = true) {domain : Domain}
    (hfound : db.findSnapshot jobId domain.id = none) :
    ∃ id db', addSnapshot jobId domain db = some (id, db') ∧ SameLeads db db' ∧
      (db'.snapshots.get? id).isSome = true := by
  unfold addSnapshot
  rw [hjob, hfound]
  refine ⟨_, _, rfl, ⟨rfl, rfl⟩, ?_⟩
  dsimp only
  rw [Table.get?_insertNew, if_pos rfl]
  rfl

/-- An insert that no constraint refuses is one call. -/
theorem insertOr_takes {insert : LeadsDb → Option (Nat × LeadsDb)} {id : Nat} {db' : LeadsDb}
    (h : insert db = some (id, db')) : Takes (insertOr insert) db 1 id db' := by
  refine ⟨fun fs hquiet => ?_, fun fs hraises => ?_⟩
  · rcases insertOr_cases insert db fs with ⟨e, -, hnone⟩ | ⟨id', db'', hsome, -, hrun⟩
    · rw [h] at hnone
      cases hnone hquiet
    · rw [h] at hsome
      obtain ⟨rfl, rfl⟩ := Prod.mk.inj (Option.some.inj hsome)
      rw [hrun, List.drop_one]
  · rcases insertOr_cases insert db fs with ⟨e, hrun, -⟩ | ⟨id', db'', -, hquiet, -⟩
    · exact ⟨e, by rw [hrun]⟩
    · exact absurd hquiet hraises

/-- A snapshot of the domain is found, or made. -/
theorem createCrawlSnapshot_takes (hjob : (db.jobs.get? jobId).isSome = true) (domain : Domain) :
    ∃ id db', Takes (createCrawlSnapshot jobId domain) db
        (if (db.findSnapshot jobId domain.id).isSome then 1 else 2) id db' ∧
      SameLeads db db' ∧ (db'.snapshots.get? id).isSome = true := by
  unfold createCrawlSnapshot
  cases hfound : db.findSnapshot jobId domain.id with
  | some snapshot =>
      refine ⟨snapshot.id, db, ?_, SameLeads.refl db, ?_⟩
      · refine takes_bind (takes_read _ _) (l := 0) ?_
        rw [hfound]
        exact takes_pure _ _
      · have hget : db.snapshots.get? snapshot.id = some snapshot := (Table.first?_spec hfound).2
        rw [hget]
        rfl
  | none =>
      obtain ⟨id, db', hadd, hsame, hget⟩ := addSnapshot_of_job hjob hfound
      refine ⟨id, db', takes_bind (l := 1) (takes_read _ _) ?_, hsame, hget⟩
      rw [hfound]
      have htakes := insertOr_takes hadd
      refine ⟨fun fs hquiet => ?_, fun fs hraises => ?_⟩
      · show tryExcept _ _ db fs = _
        rw [tryExcept_apply, htakes.runs fs hquiet]
      · obtain ⟨e, he⟩ := htakes.raises fs hraises
        rcases insertOr_cases (addSnapshot jobId domain) db fs with
          ⟨e, hrun, -⟩ | ⟨id, db', -, hquiet, -⟩
        · show ∃ e, (tryExcept _ _ db fs).1 = .error e
          rw [tryExcept_apply, hrun]
          dsimp only
          by_cases he : e = .integrity
          · rw [if_pos he]
            exact existingSnapshot_raises hfound fs.tail
          · rw [if_neg he]
            exact ⟨e, rfl⟩
        · exact absurd hquiet hraises

/-- A lead is attributed to a snapshot if its page belongs to a domain of the catalog. -/
theorem attributeLead_takes (hjob : (db.jobs.get? jobId).isSome = true) (item : LeadItem) :
    ∃ snapshotId db', Takes (attributeLead rules jobId item) db
        (attributionCalls rules jobId item db) snapshotId db' ∧
      SameLeads db db' ∧ db'.refersToSnapshot snapshotId = true ∧
      snapshotId.isSome = (foundDomain rules db item).isSome := by
  unfold attributeLead attributionCalls
  cases hfound : foundDomain rules db item with
  | none =>
      refine ⟨none, db, ?_, SameLeads.refl db, rfl, rfl⟩
      refine takes_bind (n := 1) (l := 1) (takes_read _ _) (takes_bind (l := 0) (takes_read _ _) ?_)
      unfold foundDomain at hfound
      rw [hfound]
      exact takes_pure _ _
  | some resolved =>
      -- two reads, then the inherited domain, and then perhaps a snapshot
      have hreads : ∀ {m n : Nat} {snapshotId : Option Nat} {db' : LeadsDb},
          Takes (if some resolved.id = inheritedOf db item then pure item.snapshotId
            else do
              let id ← createCrawlSnapshot jobId resolved
              pure (some id)) db n snapshotId db' →
          (if item.snapshotId.isSome then 1 else 0) = m →
          Takes (attributeLead rules jobId item) db (2 + (m + n)) snapshotId db' := by
        intro m n snapshotId db' htakes hm
        have hsum : 2 + (m + n) = 1 + (1 + (m + n)) := by omega
        rw [hsum]
        refine takes_bind (takes_read _ _) (takes_bind (takes_read _ _) ?_)
        unfold foundDomain at hfound
        rw [hfound]
        exact takes_bind (hm ▸ inheritedDomain_takes item db) htakes
      unfold attributeLead at hreads
      dsimp only
      by_cases hsame : some resolved.id = inheritedOf db item
      · rw [if_pos hsame] at hreads ⊢
        refine ⟨item.snapshotId, db, hreads (takes_pure _ _) rfl, SameLeads.refl db, ?_⟩
        -- it has that domain, so it is there
        obtain ⟨k, hk, hget⟩ := Option.bind_eq_some_iff.mp hsame.symm
        obtain ⟨snapshot, hsnapshot, -⟩ := Option.bind_eq_some_iff.mp hget
        rw [hk]
        refine ⟨?_, rfl⟩
        unfold LeadsDb.refersToSnapshot
        rw [Option.all_some, hsnapshot]
        rfl
      · rw [if_neg hsame] at hreads ⊢
        obtain ⟨id, db', htakes, hkeep, hget⟩ := createCrawlSnapshot_takes hjob resolved
        refine ⟨some id, db', hreads (takes_bind (l := 0) htakes (takes_pure _ _)) rfl, hkeep, ?_,
          rfl⟩
        unfold LeadsDb.refersToSnapshot
        rw [Option.all_some, hget]

theorem departmentFor_takes (hread : readable rules item db = true) {snapshotId : Option Nat}
    (hsome : snapshotId.isSome = (foundDomain rules db item).isSome) (db' : LeadsDb) :
    ∃ department, Takes (departmentFor rules item snapshotId) db'
      (departmentCalls rules item db) department db' := by
  unfold departmentCalls
  cases snapshotId with
  | none =>
      rw [← hsome]
      exact ⟨_, takes_pure _ _⟩
  | some k =>
      unfold departmentFor
      rw [← hsome]
      have hnone : (foundDomain rules db item).isNone = false := by
        rw [← Option.not_isSome, ← hsome]
        rfl
      unfold readable at hread
      rw [hnone, Bool.false_or] at hread
      cases hfallback : departmentIsUrlFallback rules item.fieldProvenance with
      | error e =>
          rw [hfallback] at hread
          cases hread
      | ok fallback =>
          cases fallback with
          | true => exact ⟨_, takes_bind (n := 0) (l := 1) (takes_pure _ _)
              (takes_bind (l := 0) (takes_read _ _) (takes_pure _ _))⟩
          | false => exact ⟨_, takes_bind (n := 0) (l := 0) (takes_pure _ _) (takes_pure _ _)⟩

theorem departmentFor_raises (hread : ¬ readable rules item db = true) {snapshotId : Option Nat}
    (hsome : snapshotId.isSome = (foundDomain rules db item).isSome) (db' : LeadsDb)
    (fs : List (Option LeadExc)) :
    ∃ e, (departmentFor rules item snapshotId db' fs).1 = .error e := by
  unfold readable at hread
  rw [Bool.or_eq_true, not_or] at hread
  obtain ⟨hfound, hfallback⟩ := hread
  cases snapshotId with
  | none =>
      rw [← Option.not_isSome, ← hsome] at hfound
      exact absurd rfl hfound
  | some k =>
      unfold departmentFor
      cases h : departmentIsUrlFallback rules item.fieldProvenance with
      | error e => exact ⟨e, rfl⟩
      | ok fallback =>
          rw [h] at hfallback
          exact absurd rfl hfallback

/-- Where `m` raises and keeps the leads, a program that begins with `m` does not put the
email in. -/
theorem not_hasEmail_of_error {α β : Type} {m : LeadM α} {fs : List (Option LeadExc)} {e : LeadExc}
    (hnew : db.hasEmail email = false) (hkeeps : SameLeads db (m db fs).2.1)
    (herror : (m db fs).1 = .error e) (k : α → LeadM β) :
    ¬ HasEmail email ((m >>= k) db fs).2.1 := by
  rw [bind_of_error herror]
  intro h
  have hkept : HasEmail email db := (hasEmail_congr hkeeps.1).symm.trans h
  unfold HasEmail at hkept
  rw [hnew] at hkept
  cases hkept

/-- The last part of `save_lead`: the lead is there afterwards if its insert runs. -/
theorem insert_lands {snapshotId : Option Nat} {department : Option String}
    (hjob : (db.jobs.get? jobId).isSome = true) (hnew : db.hasEmail email = false)
    (hrefers : db.refersToSnapshot snapshotId = true) (fs : List (Option LeadExc)) :
    HasEmail email (exceptIntegrity (do
      let id ← insertOr (addLead rules jobId item email snapshotId department)
      recordOccurrence id jobId item.sourceUrl capturedBy
      pure true) (pure false) db fs).2.1 ↔ Quiet (fs.take 1) := by
  have hadd : addLead rules jobId item email snapshotId department db =
      some (db.leads.nextKey, { db with
        leads := db.leads.insertNew (newLead rules jobId item email snapshotId department)
          (by intro _; rfl) }) := by
    unfold addLead
    rw [hnew, hjob, hrefers]
    rfl
  constructor
  · intro h
    by_contra hraises
    rcases insertOr_cases (addLead rules jobId item email snapshotId department) db fs with
      ⟨e, hrun, -⟩ | ⟨id, db', -, hquiet, -⟩
    · have hstate : (exceptIntegrity (do
          let id ← insertOr (addLead rules jobId item email snapshotId department)
          recordOccurrence id jobId item.sourceUrl capturedBy
          pure true) (pure false) db fs).2.1 = db := by
        unfold exceptIntegrity
        rw [tryExcept_apply, bind_apply, hrun]
        dsimp only
        by_cases he : e = .integrity
        · rw [if_pos he]
          rfl
        · rw [if_neg he]
          rfl
      rw [hstate] at h
      exact absurd (hnew.symm.trans h) nofun
    · exact hraises hquiet
  · intro hquiet
    -- whatever the record of the occurrence does, the lead stays
    have hrest : Preserves (HasEmail email) (do
        recordOccurrence db.leads.nextKey jobId item.sourceUrl capturedBy
        pure true) :=
      preserves_bind (recordOccurrence_preserves ofLeads_hasEmail.occurrence _ _)
        fun _ => preserves_pure _
    have hin : HasEmail email { db with
        leads := db.leads.insertNew (newLead rules jobId item email snapshotId department)
          (by intro _; rfl) } := hasEmail_insertNew.mpr (Or.inr rfl)
    have hafter := hrest _ fs.tail hin
    unfold exceptIntegrity
    rw [tryExcept_apply, bind_apply, (insertOr_takes hadd).runs fs hquiet, List.drop_one]
    dsimp only
    generalize (do
      recordOccurrence db.leads.nextKey jobId item.sourceUrl capturedBy
      pure true : LeadM Bool) _ fs.tail = r at hafter ⊢
    obtain ⟨v, db', fs'⟩ := r
    cases v with
    | ok _ => exact hafter
    | error e =>
        dsimp only
        by_cases he : e = .integrity
        · rw [if_pos he]
          exact hafter
        · rw [if_neg he]
          exact hafter

/-- A new email is there afterwards if all calls up to the insert run. -/
theorem createLead_lands (hjob : (db.jobs.get? jobId).isSome = true)
    (hnew : db.hasEmail email = false) (fs : List (Option LeadExc)) :
    HasEmail email (createLead rules jobId capturedBy item email db fs).2.1 ↔
      readable rules item db = true ∧
        Quiet (fs.take (attributionCalls rules jobId item db +
          (departmentCalls rules item db + 1))) := by
  obtain ⟨snapshotId, db', htakes, hsame, hrefers, hsome⟩ := attributeLead_takes hjob item
  have hkeeps : SameLeads db (attributeLead rules jobId item db fs).2.1 :=
    attributeLead_preserves (ofLeads_sameLeads db).snapshot db fs (SameLeads.refl db)
  unfold createLead
  rw [quiet_take_add]
  by_cases hfirst : Quiet (fs.take (attributionCalls rules jobId item db))
  · rw [bind_apply, htakes.runs fs hfirst]
    dsimp only
    generalize fs.drop (attributionCalls rules jobId item db) = fs'
    have hnew' : db'.hasEmail email = false := (hasEmail_congr hsame.1).trans hnew
    have hkeeps' : SameLeads db' (departmentFor rules item snapshotId db' fs').2.1 :=
      departmentFor_preserves snapshotId db' fs' (SameLeads.refl db')
    by_cases hread : readable rules item db = true
    · obtain ⟨department, htakes'⟩ := departmentFor_takes hread hsome db'
      rw [quiet_take_add]
      by_cases hsecond : Quiet (fs'.take (departmentCalls rules item db))
      · rw [bind_apply, htakes'.runs fs' hsecond]
        exact (insert_lands (hsame.2 ▸ hjob) hnew' hrefers _).trans
          ⟨fun h => ⟨hread, hfirst, hsecond, h⟩, fun h => h.2.2.2⟩
      · obtain ⟨e, he⟩ := htakes'.raises fs' hsecond
        exact iff_of_false (not_hasEmail_of_error hnew' hkeeps' he _)
          fun h => hsecond h.2.2.1
    · obtain ⟨e, he⟩ := departmentFor_raises hread hsome db' fs'
      exact iff_of_false (not_hasEmail_of_error hnew' hkeeps' he _) fun h => hread h.1
  · obtain ⟨e, he⟩ := htakes.raises fs hfirst
    exact iff_of_false (not_hasEmail_of_error hnew hkeeps he _) fun h => hfirst h.2.1

/-- `save_lead`, called with keywords it has and with an email. -/
theorem saveLead_eq (hkeywords : item.unexpected = []) (hemail : truthy item.email = true) :
    saveLead rules jobId capturedBy item =
      saveEmail rules jobId capturedBy item (storedEmail rules item) := by
  unfold saveLead storedEmail
  rw [if_neg (not_not.mpr hkeywords)]
  split
  · rename_i hnone
    rw [hnone] at hemail
    cases hemail
  · rename_i hempty
    rw [hempty] at hemail
    exact absurd hemail (by decide)
  · rename_i hown
    rw [hown]
    rfl

/-- **An item lands** exactly if its email is there already, or its keywords are accepted and
every call up to the insert runs. -/
theorem saveLead_lands_iff (hjob : (db.jobs.get? jobId).isSome = true)
    (hemail : truthy item.email = true) (fs : List (Option LeadExc)) :
    HasEmail (storedEmail rules item) (saveLead rules jobId capturedBy item db fs).2.1 ↔
      lands rules jobId item fs db = true := by
  unfold lands
  cases hthere : db.hasEmail (storedEmail rules item) with
  | true => exact iff_of_true (saveLead_keeps _ db fs hthere) rfl
  | false =>
      rw [Bool.false_or, Bool.and_eq_true, Bool.and_eq_true, decide_eq_true_iff]
      by_cases hkeywords : item.unexpected = []
      · rw [saveLead_eq hkeywords hemail, hkeywords]
        have hfound : db.findLead (storedEmail rules item) = none := by
          unfold LeadsDb.hasEmail at hthere
          rwa [Option.isSome_eq_false_iff, Option.isNone_iff_eq_none] at hthere
        have hfind := takes_read (ε := LeadExc)
          (fun db => db.findLead (storedEmail rules item)) db
        unfold saveEmail callsToInsert
        rw [quiet_take_add]
        by_cases hfirst : Quiet (fs.take 1)
        · rw [bind_apply, hfind.runs fs hfirst, hfound]
          exact (createLead_lands hjob hthere _).trans
            ⟨fun h => ⟨⟨rfl, h.1⟩, hfirst, h.2⟩, fun h => ⟨h.1.2, h.2.2⟩⟩
        · obtain ⟨e, he⟩ := hfind.raises fs hfirst
          have hkeeps : SameLeads db
              ((Prog.read fun db => db.findLead (storedEmail rules item) : LeadM _) db fs).2.1 :=
            preserves_read _ db fs (SameLeads.refl db)
          exact iff_of_false (not_hasEmail_of_error hthere hkeeps he _) fun h => hfirst h.2.1
      · unfold saveLead
        rw [if_pos hkeywords]
        refine iff_of_false (fun h => ?_) fun h => hkeywords (List.isEmpty_iff.mp h.1.1)
        exact absurd (hthere.symm.trans h) nofun

/-! ### Batches -/

/-- The emails of the items of a batch that do not land. -/
def rejected (rules : LeadRules) (jobId : Nat) (capturedBy : Option Nat) :
    List LeadItem → List (List (Option LeadExc)) → LeadsDb → List String
  | [], _, _ => []
  | item :: items, faults, db =>
      let rest := rejected rules jobId capturedBy items faults.tail
        (saveLead rules jobId capturedBy item db (faults.headD [])).2.1
      if lands rules jobId item (faults.headD []) db then rest
      else storedEmail rules item :: rest

/-- What a batch preserves, whichever calls raise. -/
theorem bulkSaveLeads_preserves {I : LeadsDb → Prop} (hI : Stable rules I) (items : List LeadItem)
    (faults : List (List (Option LeadExc))) (h : I db) :
    I (bulkSaveLeads rules jobId capturedBy items faults db).2 := by
  induction items generalizing faults db with
  | nil => exact h
  | cons item items ih => exact ih faults.tail (saveLead_preserves hI db (faults.headD []) h)

theorem bulkSaveLeads_keeps (email : String) (items : List LeadItem)
    (faults : List (List (Option LeadExc))) (h : HasEmail email db) :
    HasEmail email (bulkSaveLeads rules jobId capturedBy items faults db).2 :=
  bulkSaveLeads_preserves (stable_hasEmail email) items faults h

/-- After a batch the leads of all its items are there, but for those that were rejected. -/
theorem bulkSaveLeads_lands (items : List LeadItem) (faults : List (List (Option LeadExc)))
    (hjob : (db.jobs.get? jobId).isSome = true)
    (hemails : ∀ item ∈ items, truthy item.email = true) :
    ∀ item ∈ items,
      HasEmail (storedEmail rules item) (bulkSaveLeads rules jobId capturedBy items faults db).2 ∨
        storedEmail rules item ∈ rejected rules jobId capturedBy items faults db := by
  induction items generalizing faults db with
  | nil => exact fun _ h => nomatch h
  | cons item items ih =>
      obtain ⟨hemail, hrest⟩ := List.forall_mem_cons.mp hemails
      intro i hi
      unfold rejected
      rcases List.mem_cons.mp hi with rfl | hi
      · by_cases hlands : lands rules jobId i (faults.headD []) db = true
        · exact Or.inl (bulkSaveLeads_keeps _ items faults.tail
            ((saveLead_lands_iff hjob hemail _).mpr hlands))
        · dsimp only
          rw [if_neg hlands]
          exact Or.inr List.mem_cons_self
      · have hjobs : (saveLead rules jobId capturedBy item db (faults.headD [])).2.1.jobs = db.jobs :=
          saveLead_jobs db.jobs db (faults.headD []) rfl
        refine (ih faults.tail (hjobs ▸ hjob) hrest i hi).imp id fun h => ?_
        dsimp only
        split
        · exact h
        · exact List.mem_cons_of_mem _ h

end GovCrawler
