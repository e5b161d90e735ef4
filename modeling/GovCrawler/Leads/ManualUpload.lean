/-
Leads from an uploaded CSV file, `bulk_upsert_manual_leads` in `cloud/db/mixins/lead_mixin.py`.

An upload changes the leads that were uploaded before, adds those that are new, and leaves
crawled leads alone, but each of its rows is an occurrence.  The whole file is one
transaction; what a constraint refuses is undone by itself.
-/
import GovCrawler.Leads.Landing

namespace GovCrawler

open Relational StoreProgram Prog

/-- A row of the file. -/
structure ManualRow where
  row : Option Nat := none
  email : String
  name : Option String := none
  designation : Option String := none
  department : Option String := none
  phone : Option String := none
  deriving DecidableEq, Repr

structure SkippedRow where
  row : Option Nat
  email : String
  reason : String
  deriving DecidableEq, Repr

/-- What `bulk_upsert_manual_leads` returns. -/
structure UploadResult where
  imported : Nat := 0
  updated : Nat := 0
  skipped : List SkippedRow := []
  deriving DecidableEq, Repr

def crawledLead : String := "email already exists as a crawled lead"

def insertedConcurrently : String := "email inserted concurrently by another job"

def UploadResult.skip (result : UploadResult) (row : ManualRow) (reason : String) : UploadResult :=
  { result with skipped := result.skipped ++ [⟨row.row, row.email, reason⟩] }

/-- `value or existing`. -/
def valueOr (value existing : Option String) : Option String :=
  if truthy value then value else existing

/-- A manual lead that is uploaded again. -/
def Lead.overwrite (weights : ScoreWeights) (row : ManualRow) (lead : Lead) : Lead :=
  let personName := valueOr row.name lead.personName
  let designation := valueOr row.designation lead.designation
  let phone := valueOr row.phone lead.phone
  { lead with
    personName := personName
    designation := designation
    department := valueOr row.department lead.department
    phone := phone
    leadScore :=
      computeLeadScore (some lead.email) phone personName designation lead.confidenceBand
        lead.channelTag weights }

def manualSource : String := "manual-csv-upload"

/-- The row that is inserted. -/
def manualLead (rules : LeadRules) (jobId : Nat) (row : ManualRow) (id : Nat) : Lead where
  id := id
  jobId := jobId
  snapshotId := none
  email := row.email
  personName := row.name
  designation := row.designation
  department := row.department
  sourceUrl := manualSource
  sourceTitle := none
  contextSnippet := none
  entityKind := none
  phone := row.phone
  channelTag := some "manual"
  confidenceBand := none
  fieldProvenance := none
  leadScore :=
    computeLeadScore (some row.email) row.phone row.name row.designation none (some "manual")
      rules.weights
  depth := 0

def addManualLead (rules : LeadRules) (jobId : Nat) (row : ManualRow) (db : LeadsDb) :
    Option (Nat × LeadsDb) :=
  if !db.hasEmail row.email && (db.jobs.get? jobId).isSome then
    some (db.leads.nextKey, { db with
      leads := db.leads.insertNew (manualLead rules jobId row) (by intro _; rfl) })
  else none

/-- `_record_occurrence_nested`. -/
def recordOccurrenceNested (leadId jobId : Nat) (sourceUrl : String) (capturedBy : Option Nat) :
    LeadM Unit :=
  recordOccurrence leadId jobId sourceUrl capturedBy

/-- The branch for an email that has a lead. -/
def upsertExisting (rules : LeadRules) (jobId : Nat) (capturedBy : Option Nat) (row : ManualRow)
    (existing : Lead) (result : UploadResult) : LeadM UploadResult :=
  if existing.channelTag = some "manual" then do
    write fun db => { db with
      leads := db.leads.updateWhere (fun l => l.id == existing.id) (Lead.overwrite rules.weights row)
        (by intro _; rfl) }
    recordOccurrenceNested existing.id jobId manualSource capturedBy
    pure { result with updated := result.updated + 1 }
  else do
    recordOccurrenceNested existing.id jobId manualSource capturedBy
    pure (result.skip row crawledLead)

/-- The insert of a new lead, in a savepoint of its own. -/
def insertManualLead (rules : LeadRules) (jobId : Nat) (row : ManualRow) : LeadM (Option Nat) :=
  exceptIntegrity
    (do
      let id ← insertOr (addManualLead rules jobId row)
      pure (some id))
    (pure none)

/-- One row. -/
def upsertRow (rules : LeadRules) (jobId : Nat) (capturedBy : Option Nat) (row : ManualRow)
    (result : UploadResult) : LeadM UploadResult := do
  match ← read fun db => db.findLead row.email with
  | some existing => upsertExisting rules jobId capturedBy row existing result
  | none => do
      match ← insertManualLead rules jobId row with
      | none => pure (result.skip row insertedConcurrently)
      | some id => do
          recordOccurrenceNested id jobId manualSource capturedBy
          pure { result with imported := result.imported + 1 }

def upsertRows (rules : LeadRules) (jobId : Nat) (capturedBy : Option Nat) :
    List ManualRow → UploadResult → LeadM UploadResult
  | [], result => pure result
  | row :: rows, result => do
      let result ← upsertRow rules jobId capturedBy row result
      upsertRows rules jobId capturedBy rows result

/-- `bulk_upsert_manual_leads`: all rows, and one commit. -/
def bulkUpsertManualLeads (rules : LeadRules) (jobId : Nat) (rows : List ManualRow)
    (capturedBy : Option Nat) : LeadM UploadResult :=
  transaction do
    let result ← upsertRows rules jobId capturedBy rows {}
    write id
    pure result

/-! ### What an upload preserves -/

variable {rules : LeadRules} {jobId : Nat} {capturedBy : Option Nat} {db : LeadsDb}

theorem addManualLead_eq {row : ManualRow} {id : Nat} {db' : LeadsDb}
    (h : addManualLead rules jobId row db = some (id, db')) :
    db.hasEmail row.email = false ∧ db' = { db with
      leads := db.leads.insertNew (manualLead rules jobId row) (by intro _; rfl) } := by
  unfold addManualLead at h
  split at h
  · rename_i hguard
    simp only [Bool.and_eq_true, Bool.not_eq_true'] at hguard
    exact ⟨hguard.1, (Prod.mk.inj (Option.some.inj h)).2.symm⟩
  · cases h

/-- A property that no write of an upload takes away. -/
structure StableForUploads (rules : LeadRules) (I : LeadsDb → Prop) : Prop where
  occurrence : StableForOccurrences I
  lead : ∀ {db jobId row id db'}, addManualLead rules jobId row db = some (id, db') → I db → I db'
  overwrite : ∀ {db} (id : Nat) (row : ManualRow), I db → I { db with
    leads := db.leads.updateWhere (fun l => l.id == id) (Lead.overwrite rules.weights row)
      (by intro _; rfl) }

variable {I : LeadsDb → Prop}

theorem upsertExisting_preserves (h : StableForUploads rules I) (row : ManualRow) (existing : Lead)
    (result : UploadResult) :
    Preserves I (upsertExisting rules jobId capturedBy row existing result) := by
  have hrecord : Preserves I (recordOccurrenceNested existing.id jobId manualSource capturedBy) :=
    recordOccurrence_preserves h.occurrence _ _
  unfold upsertExisting
  by_cases hmanual : existing.channelTag = some "manual"
  · rw [if_pos hmanual]
    exact preserves_bind (preserves_write fun db hI => h.overwrite existing.id row hI)
      fun _ => preserves_bind hrecord fun _ => preserves_pure _
  · rw [if_neg hmanual]
    exact preserves_bind hrecord fun _ => preserves_pure _

theorem upsertRow_preserves (h : StableForUploads rules I) (row : ManualRow)
    (result : UploadResult) : Preserves I (upsertRow rules jobId capturedBy row result) := by
  unfold upsertRow
  refine preserves_bind (preserves_read _) fun found => ?_
  cases found with
  | some existing => exact upsertExisting_preserves h row existing result
  | none =>
      refine preserves_bind (preserves_exceptIntegrity (preserves_bind
        (preserves_insertOr fun _ _ _ hI hins => h.lead hins hI) fun _ => preserves_pure _)
        (preserves_pure _)) fun inserted => ?_
      cases inserted with
      | none => exact preserves_pure _
      | some id =>
          exact preserves_bind (recordOccurrence_preserves h.occurrence _ _)
            fun _ => preserves_pure _

theorem bulkUpsertManualLeads_preserves (h : StableForUploads rules I) (rows : List ManualRow) :
    Preserves I (bulkUpsertManualLeads rules jobId rows capturedBy) := by
  have hrows : ∀ result, Preserves I (upsertRows rules jobId capturedBy rows result) := by
    induction rows with
    | nil => exact fun _ => preserves_pure _
    | cons row rows ih =>
        exact fun result => preserves_bind (upsertRow_preserves h row result) fun _ => ih _
  exact preserves_transaction (preserves_bind (hrows {}) fun _ =>
    preserves_bind (preserves_write fun _ hI => hI) fun _ => preserves_pure _)

end GovCrawler
