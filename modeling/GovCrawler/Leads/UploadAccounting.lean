/-
What an upload of contacts comes to: every row is counted, and nothing is lost.

What a row is counted as is decided by `channelOf`, which says of an email whether it has no
lead, a manual one or a crawled one.  `upsertRow_run` is one row: it counts it by that, makes
an email without a lead one with a manual lead, and changes the store as `Uploads` allows.
The rows that have gone before are all that a later row can see of the upload, so the counts
follow by induction on the rows, whatever their order and however often an email comes.
-/
import GovCrawler.Leads.ContactsCsv
import GovCrawler.Leads.MergeLaw
import Mathlib.Data.Finset.Card

namespace GovCrawler

open Relational StoreProgram Prog

/-! ### What an upload may do to the store -/

/-- The lead after rows have been uploaded over it: `person_name`, `designation`, `department`
and `phone` are as they were or have a new value, the score is a new one, and the rest is as it
was. -/
structure Lead.Kept (lead lead' : Lead) : Prop where
  rest : lead' = { lead with
    personName := lead'.personName, designation := lead'.designation
    department := lead'.department, phone := lead'.phone, leadScore := lead'.leadScore }
  fields : ∀ field : EnrichableField,
    field.ofLead lead' = field.ofLead lead ∨ truthy (field.ofLead lead') = true

/-- No lead and no occurrence is lost, crawled leads are as they were, and manual ones keep what
they have. -/
structure Uploads (db db' : LeadsDb) : Prop where
  crawled : ∀ lead ∈ db.leads.rows, lead.channelTag ≠ some "manual" → lead ∈ db'.leads.rows
  manual : ∀ lead ∈ db.leads.rows, ∃ lead' ∈ db'.leads.rows, lead.Kept lead'
  occurrences : ∀ o ∈ db.occurrences.rows, o ∈ db'.occurrences.rows
  jobs : db'.jobs = db.jobs

/-- There is a lead of the email, with an occurrence in the job. -/
def LeadsDb.Records (db : LeadsDb) (jobId : Nat) (email : String) : Prop :=
  ∃ lead ∈ db.leads.rows, lead.email = email ∧
    ∃ o ∈ db.occurrences.rows, o.leadId = lead.id ∧ o.jobId = jobId

/-- Whether the lead of an email is a manual one, if there is one. -/
def LeadsDb.channelOf (db : LeadsDb) (email : String) : Option Bool :=
  (db.findLead email).map fun lead => decide (lead.channelTag = some "manual")

/-- How a row is counted. -/
def UploadResult.count (result : UploadResult) (row : ManualRow) : Option Bool → UploadResult
  | none => { result with imported := result.imported + 1 }
  | some true => { result with updated := result.updated + 1 }
  | some false => result.skip row crawledLead

section

variable {rules : LeadRules} {jobId : Nat} {capturedBy : Option Nat} {db db' db'' : LeadsDb}

theorem Lead.Kept.refl (lead : Lead) : lead.Kept lead := ⟨rfl, fun _ => Or.inl rfl⟩

theorem Lead.Kept.trans {lead lead' lead'' : Lead} (h : lead.Kept lead')
    (h' : lead'.Kept lead'') : lead.Kept lead'' where
  rest := by
    have hrest := h'.rest
    rw [h.rest] at hrest
    exact hrest
  fields field := by
    rcases h'.fields field with heq | hgiven
    · rw [heq]
      exact h.fields field
    · exact Or.inr hgiven

theorem valueOr_kept (value existing : Option String) :
    valueOr value existing = existing ∨ truthy (valueOr value existing) = true := by
  unfold valueOr
  split
  · rename_i hgiven
    exact Or.inr hgiven
  · exact Or.inl rfl

theorem Lead.kept_overwrite (weights : ScoreWeights) (row : ManualRow) (lead : Lead) :
    lead.Kept (lead.overwrite weights row) where
  rest := rfl
  fields
    | .personName => valueOr_kept row.name lead.personName
    | .designation => valueOr_kept row.designation lead.designation
    | .department => valueOr_kept row.department lead.department
    | .phone => valueOr_kept row.phone lead.phone
    | .sourceTitle | .contextSnippet | .entityKind => Or.inl rfl

theorem Uploads.refl (db : LeadsDb) : Uploads db db :=
  ⟨fun _ h _ => h, fun lead h => ⟨lead, h, .refl lead⟩, fun _ h => h, rfl⟩

theorem Uploads.trans (h : Uploads db db') (h' : Uploads db' db'') : Uploads db db'' where
  crawled lead hlead hcrawled := h'.crawled lead (h.crawled lead hlead hcrawled) hcrawled
  manual lead hlead := by
    obtain ⟨lead', hlead', hkept⟩ := h.manual lead hlead
    obtain ⟨lead'', hlead'', hkept'⟩ := h'.manual lead' hlead'
    exact ⟨lead'', hlead'', hkept.trans hkept'⟩
  occurrences o ho := h'.occurrences o (h.occurrences o ho)
  jobs := h'.jobs.trans h.jobs

/-- A row that has been recorded stays recorded. -/
theorem LeadsDb.Records.mono {email : String} (h : db.Records jobId email) (hup : Uploads db db') :
    db'.Records jobId email := by
  obtain ⟨lead, hlead, hemail, o, ho, hid, hjob⟩ := h
  obtain ⟨lead', hlead', hkept⟩ := hup.manual lead hlead
  have hsame : lead'.email = lead.email := by rw [hkept.rest]
  have hkey : lead'.id = lead.id := by rw [hkept.rest]
  exact ⟨lead', hlead', hsame.trans hemail, o, hup.occurrences o ho, hid.trans hkey.symm, hjob⟩

theorem LeadsDb.channelOf_congr (h : db'.leads = db.leads) (email : String) :
    db'.channelOf email = db.channelOf email := by
  unfold channelOf findLead
  rw [h]

/-! ### The writes of a row -/

theorem recorded_uploads (db : LeadsDb) (leadId : Nat) (sourceUrl : String) :
    Uploads db (db.recorded leadId jobId sourceUrl capturedBy) := by
  unfold LeadsDb.recorded
  cases hadd : addOccurrence leadId jobId sourceUrl capturedBy db with
  | none => exact Uploads.refl db
  | some r =>
      obtain ⟨id, db'⟩ := r
      obtain rfl := addOccurrence_eq hadd
      exact { Uploads.refl db with occurrences := fun o ho => (Table.mem_insertNew _).mpr (Or.inl ho) }

/-- The lead that an occurrence was recorded of has one. -/
theorem records_recorded {lead : Lead} (hlead : lead ∈ db.leads.rows)
    (hjob : (db.jobs.get? jobId).isSome = true) (sourceUrl : String) :
    (db.recorded lead.id jobId sourceUrl capturedBy).Records jobId lead.email := by
  have hget : (db.leads.get? lead.id).isSome = true := by
    have := Table.get?_of_mem hlead
    exact Option.isSome_iff_exists.mpr ⟨lead, this⟩
  obtain ⟨⟨occurrences, heq⟩, hcaptures⟩ := recorded_effect db hget hjob sourceUrl capturedBy
  have hone := hcaptures lead.id jobId
  rw [if_pos ⟨rfl, rfl⟩] at hone
  have hpos : 0 < (db.recorded lead.id jobId sourceUrl capturedBy).captures lead.id jobId := by
    omega
  obtain ⟨o, ho⟩ := List.exists_mem_of_length_pos hpos
  obtain ⟨hmem, hof⟩ := List.mem_filter.mp ho
  simp only [Bool.and_eq_true, beq_iff_eq] at hof
  refine ⟨lead, ?_, rfl, o, hmem, hof⟩
  rw [heq]
  exact hlead

theorem overwrite_uploads {lead : Lead} (hlead : lead ∈ db.leads.rows)
    (hmanual : lead.channelTag = some "manual") (row : ManualRow) :
    Uploads db { db with
      leads := db.leads.updateWhere (fun l => l.id == lead.id) (Lead.overwrite rules.weights row)
        (by intro _; rfl) } where
  crawled l hl hcrawled := by
    have hmem := @Table.mem_updateWhere_key Lead _ db.leads (Lead.overwrite rules.weights row)
      (fun _ => rfl) lead l hlead
    refine hmem.mpr (Or.inl ⟨hl, fun hkey => ?_⟩)
    obtain rfl := db.leads.eq_of_key_eq hl hlead hkey
    exact hcrawled hmanual
  manual l hl := by
    have hmem (l' : Lead) := @Table.mem_updateWhere_key Lead _ db.leads
      (Lead.overwrite rules.weights row) (fun _ => rfl) lead l' hlead
    by_cases hkey : l.id = lead.id
    · obtain rfl := db.leads.eq_of_key_eq hl hlead hkey
      exact ⟨_, (hmem _).mpr (Or.inr rfl), l.kept_overwrite rules.weights row⟩
    · exact ⟨l, (hmem l).mpr (Or.inl ⟨hl, hkey⟩), .refl l⟩
  occurrences _ ho := ho
  jobs := rfl

/-- Overwriting a lead leaves it of the same kind. -/
theorem channelOf_overwrite (p : Lead → Bool) (row : ManualRow) (email : String) :
    LeadsDb.channelOf { db with
      leads := db.leads.updateWhere p (Lead.overwrite rules.weights row) (by intro _; rfl) } email =
        db.channelOf email := by
  have hfirst := @Table.first?_updateWhere Lead _ db.leads p (Lead.overwrite rules.weights row)
    (fun _ => rfl) (fun l => l.email == email) fun _ => rfl
  unfold LeadsDb.channelOf LeadsDb.findLead
  rw [hfirst, Option.map_map]
  congr 1
  funext lead
  dsimp only [Function.comp]
  split <;> rfl

theorem mem_insertManual {row : ManualRow} {l : Lead} :
    l ∈ (db.leads.insertNew (manualLead rules jobId row) (by intro _; rfl)).rows ↔
      l ∈ db.leads.rows ∨ l = manualLead rules jobId row db.leads.nextKey :=
  Table.mem_insertNew _

theorem insert_uploads (row : ManualRow) :
    Uploads db { db with
      leads := db.leads.insertNew (manualLead rules jobId row) (by intro _; rfl) } where
  crawled _ hl _ := mem_insertManual.mpr (Or.inl hl)
  manual l hl := ⟨l, mem_insertManual.mpr (Or.inl hl), .refl l⟩
  occurrences _ ho := ho
  jobs := rfl

/-- A new lead makes its email one with a manual lead. -/
theorem channelOf_insert {row : ManualRow} (hnone : db.findLead row.email = none)
    (email : String) :
    LeadsDb.channelOf { db with
      leads := db.leads.insertNew (manualLead rules jobId row) (by intro _; rfl) } email =
        if email = row.email then some true else db.channelOf email := by
  unfold LeadsDb.channelOf
  split
  · rename_i heq
    rw [heq]
    have hfirst := @Table.first?_insertNew_of_none Lead _ db.leads (manualLead rules jobId row)
      (fun _ => rfl) (fun l => l.email == row.email) hnone (beq_self_eq_true row.email)
    unfold LeadsDb.findLead
    rw [hfirst]
    rfl
  · rename_i hne
    congr 1
    unfold LeadsDb.findLead
    cases hfound : db.leads.first? fun l => l.email == email with
    | some lead =>
        exact @Table.first?_insertNew_of_some Lead _ db.leads (manualLead rules jobId row)
          (fun _ => rfl) _ lead hfound
    | none =>
        rw [Table.first?_eq_none_iff] at hfound ⊢
        intro l hl
        rcases mem_insertManual.mp hl with hold | rfl
        · exact hfound l hold
        · exact beq_false_of_ne (Ne.symm hne)

/-! ### One row -/

/-- What a row of the upload has done: it is recorded, and if its email had no lead it has a
manual one now. -/
structure RowUploaded (jobId : Nat) (row : ManualRow) (db db' : LeadsDb) : Prop where
  uploads : Uploads db db'
  records : db'.Records jobId row.email
  channels : ∀ email, db'.channelOf email =
    if email = row.email then some ((db.channelOf email).getD true) else db.channelOf email

/-- An occurrence is recorded of the lead that the row has found or made. -/
theorem RowUploaded.record {row : ManualRow} {lead : Lead} (hup : Uploads db db')
    (hjob : (db.jobs.get? jobId).isSome = true) (hlead : lead ∈ db'.leads.rows)
    (hemail : lead.email = row.email)
    (hchannels : ∀ email, db'.channelOf email =
      if email = row.email then some ((db.channelOf email).getD true) else db.channelOf email) :
    RowUploaded jobId row db (db'.recorded lead.id jobId manualSource capturedBy) where
  uploads := hup.trans (recorded_uploads db' lead.id manualSource)
  records := by
    rw [← hup.jobs] at hjob
    rw [← hemail]
    exact records_recorded hlead hjob manualSource
  channels email := by
    obtain ⟨occurrences, heq⟩ := recorded_eq db' lead.id jobId manualSource capturedBy
    rw [heq, LeadsDb.channelOf_congr rfl]
    exact hchannels email

/-- A row that finds a lead leaves the channels as they are. -/
theorem channels_of_found {lead : Lead} {row : ManualRow}
    (hfound : db.findLead row.email = some lead)
    (hsame : ∀ email, db'.channelOf email = db.channelOf email) (email : String) :
    db'.channelOf email =
      if email = row.email then some ((db.channelOf email).getD true) else db.channelOf email := by
  rw [hsame]
  split
  · rename_i heq
    unfold LeadsDb.channelOf
    rw [heq, hfound]
    rfl
  · rfl

theorem insertManualLead_run {row : ManualRow} (hnone : db.findLead row.email = none)
    (hjob : (db.jobs.get? jobId).isSome = true) :
    insertManualLead rules jobId row db [] = (.ok (some db.leads.nextKey), { db with
      leads := db.leads.insertNew (manualLead rules jobId row) (by intro _; rfl) }, []) := by
  have hadd : addManualLead rules jobId row db = some (db.leads.nextKey, { db with
      leads := db.leads.insertNew (manualLead rules jobId row) (by intro _; rfl) }) := by
    unfold addManualLead LeadsDb.hasEmail
    rw [hnone, hjob]
    rfl
  have hinsert := (insertOr_takes hadd).runs [] (by simp)
  rw [List.drop_nil] at hinsert
  unfold insertManualLead exceptIntegrity
  rw [tryExcept_apply, bind_apply, hinsert]
  rfl

/-- **One row.**  It is counted as what its email is in the store. -/
theorem upsertRow_run (rules : LeadRules) (capturedBy : Option Nat)
    (hjob : (db.jobs.get? jobId).isSome = true) (row : ManualRow)
    (result : UploadResult) :
    ∃ db', upsertRow rules jobId capturedBy row result db [] =
      (.ok (result.count row (db.channelOf row.email)), db', []) ∧ RowUploaded jobId row db db' := by
  unfold upsertRow
  rw [bind_apply, read_quiet quiet_nil, List.tail_nil]
  cases hfound : db.findLead row.email with
  | some lead =>
      obtain ⟨hof, hget⟩ := Table.first?_spec hfound
      have hlead : lead ∈ db.leads.rows := Table.get?_mem hget
      have hemail : lead.email = row.email := beq_iff_eq.mp hof
      have hchannel : db.channelOf row.email = some (decide (lead.channelTag = some "manual")) := by
        unfold LeadsDb.channelOf
        rw [hfound]
        rfl
      rw [hchannel]
      dsimp only
      unfold upsertExisting recordOccurrenceNested
      by_cases hmanual : lead.channelTag = some "manual"
      · have hlead' := (@Table.mem_updateWhere_key Lead _ db.leads
          (Lead.overwrite rules.weights row) (fun _ => rfl) lead _ hlead).mpr (Or.inr rfl)
        rw [if_pos hmanual, bind_apply, write_quiet quiet_nil]
        dsimp only
        rw [bind_apply, List.tail_nil, recordOccurrence_run, decide_eq_true hmanual]
        exact ⟨_, rfl, @RowUploaded.record jobId capturedBy db _ row
          (lead.overwrite rules.weights row) (overwrite_uploads hlead hmanual row) hjob hlead' hemail
          (channels_of_found hfound (channelOf_overwrite _ row))⟩
      · rw [if_neg hmanual, bind_apply, recordOccurrence_run, decide_eq_false hmanual]
        exact ⟨_, rfl, .record (Uploads.refl db) hjob hlead hemail
          (channels_of_found hfound fun _ => rfl)⟩
  | none =>
      have hchannel : db.channelOf row.email = none := by
        unfold LeadsDb.channelOf
        rw [hfound]
        rfl
      have hchannels : ∀ email, LeadsDb.channelOf { db with
          leads := db.leads.insertNew (manualLead rules jobId row) (by intro _; rfl) } email =
          if email = row.email then some ((db.channelOf email).getD true)
          else db.channelOf email := by
        intro email
        rw [channelOf_insert hfound email]
        split
        · rename_i heq
          rw [heq, hchannel]
          rfl
        · rfl
      have hlead := (@mem_insertManual rules jobId db row _).mpr (Or.inr rfl)
      dsimp only
      rw [bind_apply, insertManualLead_run hfound hjob, hchannel]
      dsimp only
      unfold recordOccurrenceNested
      rw [bind_apply, recordOccurrence_run]
      exact ⟨_, rfl, .record (insert_uploads row) hjob hlead rfl hchannels⟩

/-! ### All rows -/

/-- The emails of the rows that have no lead yet. -/
def LeadsDb.newEmails (db : LeadsDb) (rows : List ManualRow) : Finset String :=
  (rows.map ManualRow.email).toFinset.filter fun email => db.channelOf email = none

/-- The rows whose email has a crawled lead. -/
def LeadsDb.ofCrawled (db : LeadsDb) (rows : List ManualRow) : List ManualRow :=
  rows.filter fun row => db.channelOf row.email = some false

/-- What rows are counted as, on top of what was counted. -/
structure Counted (db : LeadsDb) (rows : List ManualRow) (result result' : UploadResult) :
    Prop where
  imported : result'.imported = result.imported + (db.newEmails rows).card
  skipped : result'.skipped = result.skipped ++
    (db.ofCrawled rows).map fun row => ⟨row.row, row.email, crawledLead⟩
  total : result'.imported + result'.updated + result'.skipped.length =
    result.imported + result.updated + result.skipped.length + rows.length

/-- The first row of an email without a lead makes one email less that has none. -/
theorem card_newEmails_cons {row : ManualRow} (rows : List ManualRow)
    (h : RowUploaded jobId row db db') :
    (db.newEmails (row :: rows)).card =
      (db'.newEmails rows).card + if db.channelOf row.email = none then 1 else 0 := by
  have hnot : row.email ∉ db'.newEmails rows := by
    unfold LeadsDb.newEmails
    rw [Finset.mem_filter, h.channels, if_pos rfl]
    exact fun hmem => Option.some_ne_none _ hmem.2
  have hrest : (db.newEmails (row :: rows)).erase row.email = db'.newEmails rows := by
    ext email
    unfold LeadsDb.newEmails
    rw [Finset.mem_erase, Finset.mem_filter, Finset.mem_filter, h.channels, List.map_cons,
      List.mem_toFinset, List.mem_cons, List.mem_toFinset]
    by_cases heq : email = row.email
    · simp [heq]
    · simp [heq]
  rw [← hrest] at hnot ⊢
  split
  · rename_i hnone
    have hmem : row.email ∈ db.newEmails (row :: rows) :=
      Finset.mem_filter.mpr ⟨by simp, hnone⟩
    exact (Finset.card_erase_add_one hmem).symm
  · rename_i hsome
    have hnotmem : row.email ∉ db.newEmails (row :: rows) := fun hmem =>
      hsome (Finset.mem_filter.mp hmem).2
    rw [Finset.erase_eq_of_notMem hnotmem, Nat.add_zero]

/-- A row changes nobody's being crawled. -/
theorem ofCrawled_cons {row : ManualRow} (rows : List ManualRow)
    (h : RowUploaded jobId row db db') :
    db.ofCrawled (row :: rows) =
      (if db.channelOf row.email = some false then [row] else []) ++ db'.ofCrawled rows := by
  have hsame : ∀ email, db'.channelOf email = some false ↔ db.channelOf email = some false := by
    intro email
    rw [h.channels]
    split
    · cases db.channelOf email <;> simp
    · exact Iff.rfl
  have hrows : db'.ofCrawled rows = db.ofCrawled rows := by
    unfold LeadsDb.ofCrawled
    exact List.filter_congr fun r _ => decide_eq_decide.mpr (hsame r.email)
  rw [hrows]
  unfold LeadsDb.ofCrawled
  rw [List.filter_cons]
  by_cases hcrawled : db.channelOf row.email = some false <;> simp [hcrawled]

theorem Counted.cons {row : ManualRow} {rows : List ManualRow} {result result' : UploadResult}
    (h : RowUploaded jobId row db db')
    (hrows : Counted db' rows (result.count row (db.channelOf row.email)) result') :
    Counted db (row :: rows) result result' := by
  have hcard := card_newEmails_cons rows h
  have hcrawled := ofCrawled_cons rows h
  cases hchannel : db.channelOf row.email with
  | none =>
      rw [hchannel] at hcard hcrawled hrows
      obtain ⟨himported, hskipped, htotal⟩ := hrows
      dsimp only [UploadResult.count] at himported hskipped htotal
      rw [if_pos rfl] at hcard
      rw [if_neg (Option.some_ne_none _).symm, List.nil_append] at hcrawled
      exact ⟨by omega, by rw [hcrawled]; exact hskipped, by rw [List.length_cons]; omega⟩
  | some manual =>
      rw [hchannel] at hcard hcrawled hrows
      rw [if_neg (Option.some_ne_none _), Nat.add_zero] at hcard
      cases manual with
      | true =>
          obtain ⟨himported, hskipped, htotal⟩ := hrows
          dsimp only [UploadResult.count] at himported hskipped htotal
          rw [if_neg (by decide), List.nil_append] at hcrawled
          exact ⟨by omega, by rw [hcrawled]; exact hskipped, by rw [List.length_cons]; omega⟩
      | false =>
          obtain ⟨himported, hskipped, htotal⟩ := hrows
          dsimp only [UploadResult.count, UploadResult.skip] at himported hskipped htotal
          rw [List.length_append, List.length_singleton] at htotal
          refine ⟨by omega, ?_, by rw [List.length_cons]; omega⟩
          rw [hcrawled, if_pos rfl, List.singleton_append, List.map_cons, hskipped,
            List.append_assoc, List.singleton_append]

/-- The rows of an upload, one after the other. -/
theorem upsertRows_run (rules : LeadRules) (capturedBy : Option Nat)
    (hjob : (db.jobs.get? jobId).isSome = true) (rows : List ManualRow)
    (result : UploadResult) :
    ∃ result' db', upsertRows rules jobId capturedBy rows result db [] = (.ok result', db', []) ∧
      Counted db rows result result' ∧ Uploads db db' ∧
      ∀ row ∈ rows, db'.Records jobId row.email := by
  induction rows generalizing db result with
  | nil =>
      refine ⟨result, db, rfl, ⟨rfl, ?_, rfl⟩, Uploads.refl db, fun _ h => absurd h List.not_mem_nil⟩
      exact (List.append_nil _).symm
  | cons row rows ih =>
      obtain ⟨db₁, hrun, hrow⟩ := upsertRow_run rules capturedBy hjob row result
      rw [← hrow.uploads.jobs] at hjob
      obtain ⟨result', db', hrest, hcounted, hup, hrecords⟩ :=
        ih hjob (result.count row (db.channelOf row.email))
      refine ⟨result', db', ?_, hcounted.cons hrow, hrow.uploads.trans hup, ?_⟩
      · rw [upsertRows, bind_apply, hrun]
        exact hrest
      · intro r hr
        rcases List.mem_cons.mp hr with rfl | hr
        · exact hrow.records.mono hup
        · exact hrecords r hr

end

/-- What comes of an upload. -/
structure UploadAccounted (jobId : Nat) (rows : List ManualRow) (db db' : LeadsDb)
    (result : UploadResult) : Prop where
  counted : Counted db rows {} result
  /-- Crawled leads are as they were, and manual ones keep what they have. -/
  uploads : Uploads db db'
  records : ∀ row ∈ rows, db'.Records jobId row.email

/--
**Accounting of a CSV import**: whatever the file, each of its records is in exactly one of
the rows and the skipped ones, and the emails of the rows are lowercased, distinct and no more
than the limit; and whatever the store and the rows, an upload for a job counts each row once,
leaves crawled leads alone, blanks no field of a manual one, and leaves every row with a lead
and an occurrence of it in the job.
-/
theorem csv_import_accounted (rules : LeadRules) (lines : List (List String)) (db : LeadsDb)
    (jobId : Nat) (capturedBy : Option Nat) (hjob : (db.jobs.get? jobId).isSome = true) :
    (parseContactsCsv rules.lower lines).Accounted rules.lower
        (fieldMapOf rules.lower (fieldnamesOf lines)) (recordsOf lines) ∧
      ∀ rows, ∃ result db',
        bulkUpsertManualLeads rules jobId rows capturedBy db [] = (.ok result, db', []) ∧
          UploadAccounted jobId rows db db' result := by
  refine ⟨parseContactsCsv_accounted rules.lower lines, fun rows => ?_⟩
  obtain ⟨result, db', hrun, hcounted, hup, hrecords⟩ :=
    upsertRows_run rules capturedBy hjob rows {}
  refine ⟨result, db', ?_, hcounted, hup, hrecords⟩
  unfold bulkUpsertManualLeads transaction
  rw [bind_apply, hrun]
  rfl

/-- A header with an alias and a column nobody knows, and records with an email in capitals, the
same in small letters, none at all, that of a manual lead and that of a crawled one. -/
def contactsFile : List (List String) :=
  [["E-mail", "Name", "Fax"], ["Ann@x.in", "Ann", "1"], ["ann@x.in"], [], ["", "Bo"],
    ["old@x.in", "  "], ["site@x.in", "Cy"]]

def contactsRules : LeadRules where
  lower := fun s => if s = "E-mail" then "e-mail" else if s = "Name" then "name"
    else if s = "Ann@x.in" then "ann@x.in" else s
  netloc := fun _ => none
  loads := fun _ => .malformed

def contactsDb : LeadsDb where
  jobs := ⟨[⟨1, none⟩], 2, oneJob_sorted, oneJob_bounded⟩
  leads := ⟨[
    { manualLead contactsRules 1 { email := "old@x.in", name := some "Dee" } 1 with jobId := 1 },
    { manualLead contactsRules 1 { email := "site@x.in" } 2 with channelTag := some "email" }],
    3, by decide, by decide⟩

theorem contacts_accounted :
    (parseContactsCsv contactsRules.lower contactsFile).rows.map (fun row => (row.row, row.email)) =
        [(some 2, "ann@x.in"), (some 5, "old@x.in"), (some 6, "site@x.in")] ∧
      ∃ result db', bulkUpsertManualLeads contactsRules 1
          (parseContactsCsv contactsRules.lower contactsFile).rows none contactsDb [] =
            (.ok result, db', []) ∧
        result = ⟨1, 1, [⟨some 6, "site@x.in", crawledLead⟩]⟩ ∧
        UploadAccounted 1 (parseContactsCsv contactsRules.lower contactsFile).rows contactsDb db'
          result := by
  refine ⟨by decide +kernel, ?_⟩
  obtain ⟨result, db', hrun, haccounted⟩ :=
    (csv_import_accounted contactsRules contactsFile contactsDb 1 none (by decide)).2
      (parseContactsCsv contactsRules.lower contactsFile).rows
  refine ⟨result, db', hrun, ?_, haccounted⟩
  have hresult : (bulkUpsertManualLeads contactsRules 1
      (parseContactsCsv contactsRules.lower contactsFile).rows none contactsDb []).1.toOption =
        some ⟨1, 1, [⟨some 6, "site@x.in", crawledLead⟩]⟩ := by
    decide +kernel
  rw [hrun] at hresult
  exact Option.some.inj hresult

end GovCrawler
