/-
Saving a crawled lead, `cloud/db/mixins/lead_mixin.py`, and the route the agents post
their leads to.

`save_lead` finds the lead of an email and enriches it, or attributes the lead to a
domain of the catalog and inserts it.  A unique column, or a key that refers to a
missing row, makes an insert raise `IntegrityError`, and any call to the database may
raise besides.  Columns nothing here reads (what a snapshot copies of a domain besides
its title, the times of a row) are left out.
-/
import GovCrawler.Deps
import GovCrawler.Lib.StoreProgram
import GovCrawler.Lib.Table

namespace GovCrawler

open Relational StoreProgram Prog

/-! ### Tables -/

structure Lead where
  id : Nat
  jobId : Nat
  snapshotId : Option Nat
  email : String
  personName : Option String
  designation : Option String
  department : Option String
  sourceUrl : String
  sourceTitle : Option String
  contextSnippet : Option String
  entityKind : Option String
  phone : Option String
  channelTag : Option String
  confidenceBand : Option String
  fieldProvenance : Option String
  leadScore : Int := 0
  depth : Nat := 0
  /-- Edited by hand, of manual leads only. -/
  manualState : Option String := none
  deriving DecidableEq, Repr

structure LeadOccurrence where
  id : Nat
  leadId : Nat
  jobId : Nat
  sourceUrl : String
  capturedBy : Option Nat
  deriving DecidableEq, Repr

structure CrawlSnapshot where
  id : Nat
  jobId : Nat
  sourceDomainId : Option Nat
  title : Option String
  deriving DecidableEq, Repr

structure CrawlJob where
  id : Nat
  ownerId : Option Nat
  deriving DecidableEq, Repr

/-- A domain of the catalog, as `_get_netloc_domain_map` has it. -/
structure Domain where
  id : Nat
  title : Option String
  deriving DecidableEq, Repr

instance : Keyed Lead := ⟨Lead.id⟩
instance : Keyed LeadOccurrence := ⟨LeadOccurrence.id⟩
instance : Keyed CrawlSnapshot := ⟨CrawlSnapshot.id⟩
instance : Keyed CrawlJob := ⟨CrawlJob.id⟩

theorem oneJob_sorted :
    List.Pairwise (fun a b => Keyed.key a < Keyed.key b) [(⟨1, none⟩ : CrawlJob)] :=
  List.pairwise_singleton _ _

theorem oneJob_bounded : ∀ job ∈ [(⟨1, none⟩ : CrawlJob)], Keyed.key job < 2 := by decide

structure LeadsDb where
  leads : Table Lead := Table.empty
  occurrences : Table LeadOccurrence := Table.empty
  snapshots : Table CrawlSnapshot := Table.empty
  jobs : Table CrawlJob := Table.empty
  /-- The catalog, by `www`-stripped netloc. -/
  netlocMap : List (String × Domain) := []
  /-- `target_suffixes` of the crawl policy. -/
  targetSuffixes : List String := [".gov.in", ".nic.in"]

namespace LeadsDb

/-- The lead of an email, which is a unique column. -/
def findLead (db : LeadsDb) (email : String) : Option Lead :=
  db.leads.first? fun l => l.email == email

/-- The snapshot of a domain in a job, which are unique together. -/
def findSnapshot (db : LeadsDb) (jobId : Nat) (domainId : Nat) : Option CrawlSnapshot :=
  db.snapshots.first? fun s => s.jobId == jobId && s.sourceDomainId == some domainId

def findOccurrence (db : LeadsDb) (leadId jobId : Nat) : Option LeadOccurrence :=
  db.occurrences.first? fun o => o.leadId == leadId && o.jobId == jobId

/-- Some lead has the email. -/
def hasEmail (db : LeadsDb) (email : String) : Bool := (db.findLead email).isSome

/-- `nullable` foreign key to a snapshot: none, or one that is there. -/
def refersToSnapshot (db : LeadsDb) (snapshotId : Option Nat) : Bool :=
  snapshotId.all fun k => (db.snapshots.get? k).isSome

end LeadsDb

/-! ### What agents post -/

/-- An item of a batch: the keywords `CloudApiClient.save_lead` was called with.
`unexpected` are those that the cloud's `save_lead` does not have. -/
structure LeadItem where
  snapshotId : Option Nat
  email : Option String
  personName : Option String := none
  designation : Option String := none
  department : Option String := none
  sourceUrl : String
  sourceTitle : Option String := none
  contextSnippet : Option String := none
  entityKind : Option String := none
  phone : Option String := none
  channelTag : Option String := none
  confidenceBand : Option String := none
  fieldProvenance : Option String := none
  depth : Nat := 0
  unexpected : List String := []
  deriving DecidableEq, Repr

/-- What `json.loads` makes of a `field_provenance`. -/
inductive Provenance
  /-- It raises `TypeError` or `ValueError`. -/
  | malformed
  | dict (department : Option String)
  /-- A value that has no `get`. -/
  | other
  deriving DecidableEq, Repr

structure ScoreWeights where
  emailHigh : Int := 20
  emailLow : Int := 10
  personName : Int := 40
  designation : Int := 30
  phone : Int := 10
  deriving DecidableEq, Repr

/-- The library functions `save_lead` uses.  `netloc` is `urlparse(url).netloc`, `none`
where `urlparse` raises. -/
structure LeadRules where
  lower : String → String
  netloc : String → Option String
  loads : String → Provenance
  weights : ScoreWeights := {}

inductive LeadExc
  | integrity
  | typeError
  | attributeError
  /-- Any other exception of the database. -/
  | database (message : String)
  deriving DecidableEq, Repr

/-- The part of the cloud that saves leads. -/
abbrev LeadM (α : Type) : Type := Prog LeadExc LeadsDb α

/-! ### Scores -/

/-- `str(value or "").strip()` is not empty. -/
def present : Option String → Bool
  | none => false
  | some s => !isBlank s

/-- `compute_lead_score`. -/
def computeLeadScore (email phone personName designation confidenceBand channelTag : Option String)
    (w : ScoreWeights) : Int :=
  if channelTag = some "manual" then 0
  else
    (if present email then if confidenceBand = some "HIGH" then w.emailHigh else w.emailLow else 0) +
      (if present personName then w.personName else 0) +
      (if present designation then w.designation else 0) +
      (if present phone then w.phone else 0)

/-- `_BAND_RANK.get(band, -1)`. -/
def bandRank : Option String → Int
  | some "LOW" => 0
  | some "HIGH" => 1
  | _ => -1

/-! ### Enriching a lead that is there -/

/-- A value is taken over where there is none yet. -/
def fills (existing value : Option String) : Bool := truthy value && !truthy existing

def fill (existing value : Option String) : Option String :=
  if fills existing value then value else existing

/-- A better band replaces the stored one. -/
def upgrades (lead : Lead) (item : LeadItem) : Bool :=
  truthy item.confidenceBand && bandRank lead.confidenceBand < bandRank item.confidenceBand

/-- Whether a capture changes the lead: one of `_ENRICHABLE_FIELDS`, or the band. -/
def changes (lead : Lead) (item : LeadItem) : Bool :=
  fills lead.personName item.personName || fills lead.designation item.designation ||
    fills lead.department item.department || fills lead.sourceTitle item.sourceTitle ||
    fills lead.contextSnippet item.contextSnippet || fills lead.phone item.phone ||
    fills lead.entityKind item.entityKind || upgrades lead item

/-- The lead after the capture, with a new score. -/
def Lead.enrich (weights : ScoreWeights) (item : LeadItem) (lead : Lead) : Lead :=
  let personName := fill lead.personName item.personName
  let designation := fill lead.designation item.designation
  let phone := fill lead.phone item.phone
  let band := if upgrades lead item then item.confidenceBand else lead.confidenceBand
  { lead with
    personName := personName
    designation := designation
    department := fill lead.department item.department
    sourceTitle := fill lead.sourceTitle item.sourceTitle
    contextSnippet := fill lead.contextSnippet item.contextSnippet
    phone := phone
    entityKind := fill lead.entityKind item.entityKind
    confidenceBand := band
    fieldProvenance :=
      if upgrades lead item && truthy item.fieldProvenance then item.fieldProvenance
      else lead.fieldProvenance
    leadScore :=
      computeLeadScore (some lead.email) phone personName designation band lead.channelTag weights }

theorem Lead.enrich_id (rules : LeadRules) (item : LeadItem) (lead : Lead) :
    Keyed.key (lead.enrich rules.weights item) = Keyed.key lead :=
  rfl

/-! ### Attributing a new lead -/

/-- The loop of `resolve_domain_for_url`: from the host up through its parent domains, and
never a public suffix. -/
def walkUp {D : Type} (netlocMap : List (String × D)) (suffixes : List String) :
    List String → Option D
  | label :: label' :: labels =>
      let candidate := ".".intercalate (label :: label' :: labels)
      if suffixes.contains candidate then none
      else
        match netlocMap.lookup candidate with
        | some hit => some hit
        | none => walkUp netlocMap suffixes (label' :: labels)
  | _ => none

/-- `resolve_domain_for_url`. -/
def resolveDomainForUrl {D : Type} (rules : LeadRules) (sourceUrl : String)
    (netlocMap : List (String × D)) (targetSuffixes : List String) : Option D :=
  match rules.netloc sourceUrl with
  | none => none
  | some netloc =>
      let host := removePrefix "www."
        (String.ofList ((rules.lower netloc).toList.takeWhile (· ≠ ':')))
      if host = "" then none
      else
        walkUp netlocMap (targetSuffixes.map (lstrip '.'))
          ((host.toList.splitOn '.').map String.ofList)

/-- `_department_is_url_fallback`. -/
def departmentIsUrlFallback (rules : LeadRules) : Option String → Except LeadExc Bool
  | none => .ok false
  | some "" => .ok false
  | some provenance =>
      match rules.loads provenance with
      | .malformed => .ok false
      | .dict department => .ok (department == some "url_default")
      | .other => .error .attributeError

/-- An insert that a constraint may refuse, with the key of the new row. -/
def attempt (insert : LeadsDb → Option (Nat × LeadsDb)) (db : LeadsDb) : Option Nat × LeadsDb :=
  match insert db with
  | some (id, db') => (some id, db')
  | none => (none, db)

def insertOr (insert : LeadsDb → Option (Nat × LeadsDb)) : LeadM Nat := do
  let r ← call (attempt insert)
  match r with
  | some id => pure id
  | none => raise .integrity

def exceptIntegrity {α : Type} (m h : LeadM α) : LeadM α :=
  tryExcept m fun e => if e = .integrity then h else raise e

/-- A new snapshot, which refers to its job and is unique for job and domain. -/
def addSnapshot (jobId : Nat) (domain : Domain) (db : LeadsDb) : Option (Nat × LeadsDb) :=
  if (db.jobs.get? jobId).isSome && (db.findSnapshot jobId domain.id).isNone then
    some (db.snapshots.nextKey, { db with
      snapshots := db.snapshots.insertNew fun id => ⟨id, jobId, some domain.id, domain.title⟩ })
  else none

/-- Somebody else has inserted the snapshot first: use theirs. -/
def existingSnapshot (jobId domainId : Nat) : LeadM Nat := do
  match ← read fun db => db.findSnapshot jobId domainId with
  | some snapshot => pure snapshot.id
  | none => raise .attributeError

/-- `create_crawl_snapshot`. -/
def createCrawlSnapshot (jobId : Nat) (domain : Domain) : LeadM Nat := do
  match ← read fun db => db.findSnapshot jobId domain.id with
  | some snapshot => pure snapshot.id
  | none =>
      exceptIntegrity (insertOr (addSnapshot jobId domain)) (existingSnapshot jobId domain.id)

/-- The domain of the snapshot the crawl started from. -/
def inheritedDomain (item : LeadItem) : LeadM (Option Nat) :=
  match item.snapshotId with
  | none => pure none
  | some k => read fun db => (db.snapshots.get? k).bind fun s => s.sourceDomainId

/-- The snapshot a new lead belongs to: that of the domain its page belongs to. -/
def attributeLead (rules : LeadRules) (jobId : Nat) (item : LeadItem) : LeadM (Option Nat) := do
  let netlocMap ← read fun db => db.netlocMap
  let targetSuffixes ← read fun db => db.targetSuffixes
  match resolveDomainForUrl rules item.sourceUrl netlocMap targetSuffixes with
  | none => pure none
  | some resolved => do
      let inherited ← inheritedDomain item
      if some resolved.id = inherited then pure item.snapshotId
      else do
        let id ← createCrawlSnapshot jobId resolved
        pure (some id)

/-- A department that is only the URL's subdomain gives way to the domain's title. -/
def departmentFor (rules : LeadRules) (item : LeadItem) : Option Nat → LeadM (Option String)
  | none => pure item.department
  | some snapshotId => do
      let fallback ← ofExcept (departmentIsUrlFallback rules item.fieldProvenance)
      if fallback then do
        let title ← read fun db => (db.snapshots.get? snapshotId).bind fun s => s.title
        pure (if truthy title then title else item.department)
      else pure item.department

/-- The row that is inserted. -/
def newLead (rules : LeadRules) (jobId : Nat) (item : LeadItem) (email : String)
    (snapshotId : Option Nat) (department : Option String) (id : Nat) : Lead where
  id := id
  jobId := jobId
  snapshotId := snapshotId
  email := email
  personName := item.personName
  designation := item.designation
  department := department
  sourceUrl := item.sourceUrl
  sourceTitle := item.sourceTitle
  contextSnippet := item.contextSnippet
  entityKind := item.entityKind
  phone := item.phone
  channelTag := item.channelTag
  confidenceBand := item.confidenceBand
  fieldProvenance := item.fieldProvenance
  leadScore :=
    computeLeadScore (some email) item.phone item.personName item.designation
      item.confidenceBand item.channelTag rules.weights
  depth := item.depth

theorem newLead_id (rules : LeadRules) (jobId : Nat) (item : LeadItem) (email : String)
    (snapshotId : Option Nat) (department : Option String) (id : Nat) :
    Keyed.key (newLead rules jobId item email snapshotId department id) = id :=
  rfl

/-- A new occurrence, which refers to its lead and its job and is unique for the two. -/
def addOccurrence (leadId jobId : Nat) (sourceUrl : String) (capturedBy : Option Nat)
    (db : LeadsDb) : Option (Nat × LeadsDb) :=
  if (db.findOccurrence leadId jobId).isNone && (db.leads.get? leadId).isSome &&
      (db.jobs.get? jobId).isSome then
    some (db.occurrences.nextKey, { db with
      occurrences := db.occurrences.insertNew fun id => ⟨id, leadId, jobId, sourceUrl, capturedBy⟩ })
  else none

/-- `_record_occurrence`. -/
def recordOccurrence (leadId jobId : Nat) (sourceUrl : String) (capturedBy : Option Nat) :
    LeadM Unit :=
  exceptIntegrity
    (do
      let _ ← insertOr (addOccurrence leadId jobId sourceUrl capturedBy)
      pure ())
    (pure ())

/-- A new lead, which has a unique email and refers to its job and its snapshot. -/
def addLead (rules : LeadRules) (jobId : Nat) (item : LeadItem) (email : String)
    (snapshotId : Option Nat) (department : Option String) (db : LeadsDb) :
    Option (Nat × LeadsDb) :=
  if !db.hasEmail email && (db.jobs.get? jobId).isSome && db.refersToSnapshot snapshotId then
    some (db.leads.nextKey, { db with
      leads := db.leads.insertNew (newLead rules jobId item email snapshotId department)
        (by intro _; rfl) })
  else none

/-! ### `save_lead` -/

/-- Commit what the capture changes, if it changes anything. -/
def commitChanges (rules : LeadRules) (item : LeadItem) (lead : Lead) : LeadM Unit :=
  if changes lead item then
    write fun db => { db with
      leads := db.leads.updateWhere (fun l => l.id == lead.id) (Lead.enrich rules.weights item)
        (by intro _; rfl) }
  else pure ()

/-- The branch for an email that has a lead. -/
def enrichLead (rules : LeadRules) (jobId : Nat) (capturedBy : Option Nat) (item : LeadItem)
    (lead : Lead) : LeadM Bool := do
  commitChanges rules item lead
  recordOccurrence lead.id jobId item.sourceUrl capturedBy
  pure true

/-- The branch for an email that has none. -/
def createLead (rules : LeadRules) (jobId : Nat) (capturedBy : Option Nat) (item : LeadItem)
    (email : String) : LeadM Bool := do
  let snapshotId ← attributeLead rules jobId item
  let department ← departmentFor rules item snapshotId
  exceptIntegrity
    (do
      let id ← insertOr (addLead rules jobId item email snapshotId department)
      recordOccurrence id jobId item.sourceUrl capturedBy
      pure true)
    (pure false)

/-- `save_lead`, once the email is lowercased. -/
def saveEmail (rules : LeadRules) (jobId : Nat) (capturedBy : Option Nat) (item : LeadItem)
    (email : String) : LeadM Bool := do
  match ← read fun db => db.findLead email with
  | some lead => enrichLead rules jobId capturedBy item lead
  | none => createLead rules jobId capturedBy item email

/-- `save_lead(captured_by=captured_by, **item)`. -/
def saveLead (rules : LeadRules) (jobId : Nat) (capturedBy : Option Nat) (item : LeadItem) :
    LeadM Bool :=
  if item.unexpected ≠ [] then raise .typeError
  else
    match item.email with
    | none => pure false
    | some "" => pure false
    | some email => saveEmail rules jobId capturedBy item (rules.lower email)

/-- `bulk_save_leads`, with one schedule of failing calls for each item. -/
def bulkSaveLeads (rules : LeadRules) (jobId : Nat) (capturedBy : Option Nat) :
    List LeadItem → List (List (Option LeadExc)) → LeadsDb → List Bool × LeadsDb
  | [], _, db => ([], db)
  | item :: items, faults, db =>
      let r := saveLead rules jobId capturedBy item db (faults.headD [])
      let saved := match r.1 with
        | .ok saved => saved
        | .error _ => false
      let rest := bulkSaveLeads rules jobId capturedBy items faults.tail r.2.1
      (saved :: rest.1, rest.2)

/-! ### The route -/

/-- The body of a reply. -/
structure LeadsReply where
  accepted : Nat
  total : Nat
  deriving DecidableEq, Repr

def jobNotFound : HttpError := ⟨404, "Job not found"⟩

/-- `_authorized_job`. -/
def authorizedJob (db : LeadsDb) (jobId : Nat) (user : CurrentUser) : Except HttpError CrawlJob :=
  match db.jobs.get? jobId with
  | none => .error jobNotFound
  | some job => (forbidUnlessOwner job.ownerId user).map fun _ => job

/-- `coordination_save_leads`. -/
def coordinationSaveLeads (rules : LeadRules) (jobId : Nat) (items : List LeadItem)
    (user : CurrentUser) (faults : List (List (Option LeadExc))) (db : LeadsDb) :
    Except HttpError LeadsReply × LeadsDb :=
  match authorizedJob db jobId user with
  | .error e => (.error e, db)
  | .ok _ =>
      let r := bulkSaveLeads rules jobId (some user.id) items faults db
      (.ok ⟨r.1.count true, r.1.length⟩, r.2)

end GovCrawler
