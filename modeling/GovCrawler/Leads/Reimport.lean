/-
What an export comes to when it is uploaded.

Uploaded where it comes from, it changes no lead: a crawled lead is left alone, and a manual one is
overwritten with what it has.  Uploaded where none of its emails is known, it makes one manual lead
of each, with the same contact.
-/
import GovCrawler.Leads.LeadExport
import GovCrawler.Leads.UploadAccounting

namespace GovCrawler

open Relational StoreProgram Prog Paging

/-! ### Rows that say what is known -/

/-- The contact of a manual lead is trimmed, and its score is by the weights of today. -/
structure Lead.Settled (weights : ScoreWeights) (lead : Lead) : Prop where
  name : ∀ v ∈ lead.personName, strip v = v
  designation : ∀ v ∈ lead.designation, strip v = v
  department : ∀ v ∈ lead.department, strip v = v
  phone : ∀ v ∈ lead.phone, strip v = v
  score : lead.leadScore = computeLeadScore (some lead.email) lead.phone lead.personName
    lead.designation lead.confidenceBand lead.channelTag weights

/-- A cell that was exported brings nothing new. -/
theorem valueOr_contactCell (fieldnames : List String) (field : ContactField)
    {value : Option String} (h : ∀ v ∈ value, strip v = v) :
    valueOr (contactCell fieldnames field (value.getD "")) value = value := by
  unfold valueOr contactCell
  by_cases hcell : fieldnames.contains field.column = true ∧ value.getD "" ≠ ""
  · rw [if_pos hcell]
    cases value with
    | none => exact absurd rfl hcell.2
    | some v =>
        rw [Option.getD_some, h v rfl]
        split <;> rfl
  · rw [if_neg hcell]
    rfl

theorem overwrite_exportedContact {weights : ScoreWeights} {lead : Lead}
    (h : lead.Settled weights) (lower : String → String) (fieldnames : List String) (lineNo : Nat) :
    lead.overwrite weights (exportedContact lower fieldnames lineNo lead) = lead := by
  have hname := valueOr_contactCell fieldnames .name h.name
  have hdesignation := valueOr_contactCell fieldnames .designation h.designation
  have hdepartment := valueOr_contactCell fieldnames .department h.department
  have hphone := valueOr_contactCell fieldnames .phone h.phone
  unfold Lead.overwrite exportedContact
  dsimp only
  rw [hname, hdesignation, hdepartment, hphone, ← h.score]

section

variable {rules : LeadRules} {jobId : Nat} {capturedBy : Option Nat} {db db' : LeadsDb}

/-- The row is of a lead, and says nothing of it that is not so. -/
structure Echoes (rules : LeadRules) (db : LeadsDb) (row : ManualRow) (lead : Lead) : Prop where
  found : db.findLead row.email = some lead
  fixed : lead.channelTag = some "manual" → lead.overwrite rules.weights row = lead

/-- Leads, snapshots and jobs are the same. -/
structure SameButOccurrences (db db' : LeadsDb) : Prop where
  leads : db'.leads = db.leads
  snapshots : db'.snapshots = db.snapshots
  jobs : db'.jobs = db.jobs

theorem upsertRow_echo {row : ManualRow} {lead : Lead} (h : Echoes rules db row lead)
    (result : UploadResult) :
    ∃ db', upsertRow rules jobId capturedBy row result db [] =
        (.ok (result.count row (some (decide (lead.channelTag = some "manual")))), db', []) ∧
      SameButOccurrences db db' := by
  obtain ⟨occurrences, hrecorded⟩ := recorded_eq db lead.id jobId manualSource capturedBy
  have hsame : SameButOccurrences db (db.recorded lead.id jobId manualSource capturedBy) := by
    rw [hrecorded]
    exact ⟨rfl, rfl, rfl⟩
  refine ⟨db.recorded lead.id jobId manualSource capturedBy, ?_, hsame⟩
  unfold upsertRow
  rw [bind_apply, read_quiet quiet_nil, List.tail_nil, h.found]
  dsimp only
  unfold upsertExisting recordOccurrenceNested
  by_cases hmanual : lead.channelTag = some "manual"
  · have hleads : db.leads.updateWhere (fun l => l.id == lead.id)
        (Lead.overwrite rules.weights row) (by intro _; rfl) = db.leads := by
      refine Table.updateWhere_of_fixed _ _ _ _ fun l hl hid => ?_
      have hlead : lead ∈ db.leads.rows := Table.get?_mem (Table.first?_spec h.found).2
      obtain rfl := db.leads.eq_of_key_eq hl hlead (beq_iff_eq.mp hid)
      exact h.fixed hmanual
    rw [if_pos hmanual, bind_apply, write_quiet quiet_nil]
    dsimp only
    rw [hleads, bind_apply, List.tail_nil, recordOccurrence_run, decide_eq_true hmanual]
    rfl
  · rw [if_neg hmanual, bind_apply, recordOccurrence_run, decide_eq_false hmanual]
    rfl

theorem Echoes.mono {row : ManualRow} {lead : Lead} (h : Echoes rules db row lead)
    (hsame : SameButOccurrences db db') : Echoes rules db' row lead := by
  refine ⟨?_, h.fixed⟩
  unfold LeadsDb.findLead
  rw [hsame.leads]
  exact h.found

/-- **Rows that echo leads** change none. -/
theorem upsertRows_echo (rows : List ManualRow) (result : UploadResult)
    (h : ∀ row ∈ rows, ∃ lead, Echoes rules db row lead) :
    ∃ result' db', upsertRows rules jobId capturedBy rows result db [] = (.ok result', db', []) ∧
      SameButOccurrences db db' := by
  induction rows generalizing db result with
  | nil => exact ⟨result, db, rfl, rfl, rfl, rfl⟩
  | cons row rows ih =>
      obtain ⟨lead, hlead⟩ := h row List.mem_cons_self
      obtain ⟨db₁, hrun, hsame⟩ := upsertRow_echo hlead result
      obtain ⟨result', db', hrest, hsame'⟩ := ih _ fun r hr => by
        obtain ⟨l, hl⟩ := h r (List.mem_cons_of_mem _ hr)
        exact ⟨l, hl.mono hsame⟩
      refine ⟨result', db', ?_, hsame'.leads.trans hsame.leads,
        hsame'.snapshots.trans hsame.snapshots, hsame'.jobs.trans hsame.jobs⟩
      rw [upsertRows, bind_apply, hrun]
      exact hrest

/-- The upload of rows that run. -/
theorem bulkUpsertManualLeads_run {rows : List ManualRow} {result : UploadResult}
    (h : upsertRows rules jobId capturedBy rows {} db [] = (.ok result, db', [])) :
    bulkUpsertManualLeads rules jobId rows capturedBy db [] = (.ok result, db', []) := by
  unfold bulkUpsertManualLeads transaction
  rw [bind_apply, h]
  rfl

/-! ### Rows of nobody -/

/-- The contact of a lead. -/
def Lead.contact (lead : Lead) : ManualRow where
  email := lead.email
  name := lead.personName
  designation := lead.designation
  department := lead.department
  phone := lead.phone

/-- A row, wherever it was. -/
def ManualRow.contact (row : ManualRow) : ManualRow := { row with row := none }

/-- The leads of `db`, and manual ones after them. -/
structure Adds (jobId : Nat) (rows : List ManualRow) (db db' : LeadsDb) : Prop where
  leads : ∃ added, db'.leads.rows = db.leads.rows ++ added ∧
    added.map Lead.contact = rows.map ManualRow.contact ∧
    ∀ lead ∈ added, lead.channelTag = some "manual" ∧ lead.jobId = jobId
  snapshots : db'.snapshots = db.snapshots
  jobs : db'.jobs = db.jobs

theorem findLead_eq_none {email : String} :
    db.findLead email = none ↔ ∀ l ∈ db.leads.rows, l.email ≠ email := by
  unfold LeadsDb.findLead
  rw [Table.first?_eq_none_iff]
  simp only [beq_eq_false_iff_ne]

theorem upsertRow_new {row : ManualRow} (hnone : db.findLead row.email = none)
    (hjob : (db.jobs.get? jobId).isSome = true) (result : UploadResult) :
    ∃ db', upsertRow rules jobId capturedBy row result db [] =
        (.ok { result with imported := result.imported + 1 }, db', []) ∧
      db'.leads.rows = db.leads.rows ++ [manualLead rules jobId row db.leads.nextKey] ∧
      db'.snapshots = db.snapshots ∧ db'.jobs = db.jobs := by
  let inserted : LeadsDb := { db with
    leads := db.leads.insertNew (manualLead rules jobId row) (by intro _; rfl) }
  obtain ⟨occurrences, hrecorded⟩ :=
    recorded_eq inserted db.leads.nextKey jobId manualSource capturedBy
  refine ⟨inserted.recorded db.leads.nextKey jobId manualSource capturedBy, ?_, ?_, ?_, ?_⟩
  · unfold upsertRow
    rw [bind_apply, read_quiet quiet_nil, List.tail_nil, hnone]
    dsimp only
    rw [bind_apply, insertManualLead_run hnone hjob]
    dsimp only
    unfold recordOccurrenceNested
    rw [bind_apply, recordOccurrence_run]
    rfl
  · rw [hrecorded]
    rfl
  · rw [hrecorded]
  · rw [hrecorded]

/-- **Rows of nobody** are all added. -/
theorem upsertRows_new (hjob : (db.jobs.get? jobId).isSome = true) (rows : List ManualRow)
    (result : UploadResult) (hdistinct : (rows.map ManualRow.email).Nodup)
    (hnone : ∀ row ∈ rows, db.findLead row.email = none) :
    ∃ db', upsertRows rules jobId capturedBy rows result db [] =
        (.ok { result with imported := result.imported + rows.length }, db', []) ∧
      Adds jobId rows db db' := by
  induction rows generalizing db result with
  | nil =>
      exact ⟨db, rfl,
        ⟨[], (List.append_nil _).symm, rfl, fun _ h => absurd h List.not_mem_nil⟩, rfl, rfl⟩
  | cons row rows ih =>
      obtain ⟨hnot, hrest⟩ := List.nodup_cons.mp hdistinct
      obtain ⟨db₁, hrun, hleads, hsnapshots, hjobs⟩ :=
        @upsertRow_new rules jobId capturedBy db row (hnone row List.mem_cons_self) hjob result
      rw [← hjobs] at hjob
      have hnone' : ∀ r ∈ rows, db₁.findLead r.email = none := fun r hr => by
        rw [findLead_eq_none, hleads]
        intro l hl
        rcases List.mem_append.mp hl with hold | hnew
        · exact findLead_eq_none.mp (hnone r (List.mem_cons_of_mem _ hr)) l hold
        · rw [List.mem_singleton.mp hnew]
          exact fun heq => hnot (List.mem_map.mpr ⟨r, hr, heq.symm⟩)
      obtain ⟨db', hrun', ⟨added, hadded, hcontacts, hmanual⟩, hsnapshots', hjobs'⟩ :=
        ih hjob { result with imported := result.imported + 1 } hrest hnone'
      refine ⟨db', ?_, ⟨manualLead rules jobId row db.leads.nextKey :: added, ?_, ?_, ?_⟩,
        hsnapshots'.trans hsnapshots, hjobs'.trans hjobs⟩
      · rw [upsertRows, bind_apply, hrun]
        refine hrun'.trans ?_
        rw [List.length_cons, Nat.add_assoc, Nat.add_comm 1]
      · rw [hadded, hleads, List.append_assoc, List.singleton_append]
      · rw [List.map_cons, List.map_cons, hcontacts]
        rfl
      · intro lead hlead
        rcases List.mem_cons.mp hlead with rfl | hlead
        · exact ⟨rfl, rfl⟩
        · exact hmanual lead hlead

end

/-! ### What was exported -/

theorem mem_exportedContacts {lower : String → String} {fieldnames : List String}
    {rows : List LeadExportRow} {lineNo : Nat} {row : ManualRow}
    (h : row ∈ exportedContacts lower fieldnames lineNo rows) :
    ∃ e ∈ rows, ∃ n, row = exportedContact lower fieldnames n e.1.toLead := by
  induction rows generalizing lineNo with
  | nil => exact absurd h List.not_mem_nil
  | cons e rows ih =>
      rw [exportedContacts] at h
      rcases List.mem_cons.mp h with rfl | h
      · exact ⟨e, List.mem_cons_self, lineNo, rfl⟩
      · obtain ⟨f, hf, n, hrow⟩ := ih h
        exact ⟨f, List.mem_cons_of_mem _ hf, n, hrow⟩

theorem exportedContacts_mem {lower : String → String} {fieldnames : List String}
    {rows : List LeadExportRow} (lineNo : Nat) {e : LeadExportRow} (h : e ∈ rows) :
    ∃ n, exportedContact lower fieldnames n e.1.toLead ∈
      exportedContacts lower fieldnames lineNo rows := by
  induction rows generalizing lineNo with
  | nil => exact absurd h List.not_mem_nil
  | cons f rows ih =>
      rw [exportedContacts]
      rcases List.mem_cons.mp h with rfl | h
      · exact ⟨lineNo, List.mem_cons_self⟩
      · obtain ⟨n, hn⟩ := ih (lineNo + 1) h
        exact ⟨n, List.mem_cons_of_mem _ hn⟩

theorem map_contact_exportedContacts (lower : String → String) (fieldnames : List String)
    (rows : List LeadExportRow) (lineNo : Nat) :
    (exportedContacts lower fieldnames lineNo rows).map ManualRow.contact =
      rows.map fun e => (exportedContact lower fieldnames 0 e.1.toLead).contact := by
  induction rows generalizing lineNo with
  | nil => rfl
  | cons e rows ih =>
      rw [exportedContacts, List.map_cons, List.map_cons, ih]
      rfl

theorem findLead_of_unique {db : LeadsDb} (hunique : (db.leads.rows.map Lead.email).Nodup)
    {lead : Lead} (hlead : lead ∈ db.leads.rows) : db.findLead lead.email = some lead := by
  cases hfound : db.findLead lead.email with
  | none => exact absurd rfl (findLead_eq_none.mp hfound lead hlead)
  | some other =>
      obtain ⟨hof, hget⟩ := Table.first?_spec hfound
      exact congrArg some (List.inj_on_of_nodup_map hunique (Table.get?_mem hget) hlead
        (beq_iff_eq.mp hof))

theorem ofCrawled_exported {db : LeadsDb} {lower : String → String} {fieldnames : List String}
    {rows : List LeadExportRow} (hemail : ∀ e ∈ rows, lower (strip e.1.email) = e.1.email)
    (hfound : ∀ e ∈ rows, db.findLead e.1.email = some e.1.toLead) (lineNo : Nat) :
    (db.ofCrawled (exportedContacts lower fieldnames lineNo rows)).map ManualRow.email =
      (rows.filter fun e => decide (e.1.channelTag ≠ some "manual")).map fun e => e.1.email := by
  induction rows generalizing lineNo with
  | nil => rfl
  | cons e rows ih =>
      have hrest := ih (fun f hf => hemail f (List.mem_cons_of_mem _ hf))
        (fun f hf => hfound f (List.mem_cons_of_mem _ hf)) (lineNo + 1)
      have hrow : (exportedContact lower fieldnames lineNo e.1.toLead).email = e.1.email :=
        hemail e List.mem_cons_self
      have hchannel : db.channelOf (exportedContact lower fieldnames lineNo e.1.toLead).email =
          some (decide (e.1.channelTag = some "manual")) := by
        unfold LeadsDb.channelOf
        rw [hrow, hfound e List.mem_cons_self]
        rfl
      unfold LeadsDb.ofCrawled at hrest ⊢
      rw [exportedContacts]
      by_cases hmanual : e.1.channelTag = some "manual"
      · rw [List.filter_cons_of_neg (by rw [hchannel]; simp [hmanual]),
          List.filter_cons_of_neg (by simp [hmanual])]
        exact hrest
      · rw [List.filter_cons_of_pos (by rw [hchannel]; simp [hmanual]),
          List.filter_cons_of_pos (by simp [hmanual]), List.map_cons, List.map_cons, hrest, hrow]

/-- A store, as it is exported, and as it is written. -/
structure ExportStore.Of (store : ExportStore) (db : LeadsDb) : Prop where
  leads : db.leads.rows = store.leads.rows.map fun l => l.toLead

section Answer

variable {D T : Type*} [LinearOrder D] [LinearOrder T] {order : ExportOrder D T}
  {store : ExportStore} {ilike : String → String → Bool} {req : ExportLeadsRequest}
  {answer : List LeadExportRow}

/-- **An export that is uploaded to where it comes from changes no lead.**  No line of it is skipped
but those beyond the limit on rows.  Of the leads that there is room for, the crawled ones are
reported as such, the manual ones as updated, and all as captured again. -/
theorem reimport_changes_no_lead (rules : LeadRules) (isoformat : Time → String) (db : LeadsDb)
    (jobId : Nat) (capturedBy : Option Nat) (hjob : (db.jobs.get? jobId).isSome = true)
    (hlower : ∀ f ∈ allExportFields, rules.lower f = f) (hstore : store.Of db)
    (hmailable : store.Mailable rules.lower)
    (hsettled : ∀ l ∈ db.leads.rows, l.channelTag = some "manual" → l.Settled rules.weights)
    (h : AnswerTo order.key (store.buildExportQuery ilike req) answer) (hne : answer ≠ [])
    (hfits : ∀ e ∈ answer, ∀ cell ∈ exportCells isoformat req.fieldnames e, cell.length ≤ 131072) :
    ∃ content csv result db', exportLeads isoformat req answer = .ok content ∧
      parseContactsText rules.lower content = .ok csv ∧
      csv.skipped = overLimit (maxRows + 2) (answer.drop maxRows) ∧
      bulkUpsertManualLeads rules jobId csv.rows capturedBy db [] = (.ok result, db', []) ∧
      db'.leads = db.leads ∧ db'.snapshots = db.snapshots ∧ db'.jobs = db.jobs ∧
      result.imported = 0 ∧
      result.skipped.map SkippedRow.email = (((answer.take maxRows).filter fun e =>
        decide (e.1.channelTag ≠ some "manual")).map fun e => e.1.email) ∧
      result.updated + result.skipped.length = (answer.take maxRows).length ∧
      ∀ e ∈ answer.take maxRows, db'.Records jobId e.1.email := by
  obtain ⟨content, hcontent, hparse⟩ := exported_leads_parse isoformat hlower hmailable h hne
  rw [if_pos hfits] at hparse
  have hunique : (db.leads.rows.map Lead.email).Nodup := by
    rw [hstore.leads, List.map_map]
    exact hmailable.unique
  have hmem : ∀ e ∈ answer.take maxRows, e.1.toLead ∈ db.leads.rows := fun e he => by
    rw [hstore.leads]
    exact List.mem_map_of_mem (mem_leads_of_answer h (List.mem_of_mem_take he))
  have hemail : ∀ e ∈ answer.take maxRows, rules.lower (strip e.1.email) = e.1.email :=
    fun e he => hmailable.canonical e.1 (mem_leads_of_answer h (List.mem_of_mem_take he))
  have hechoes : ∀ row ∈ exportedContacts rules.lower req.fieldnames 2 (answer.take maxRows),
      ∃ lead, Echoes rules db row lead := by
    intro row hrow
    obtain ⟨e, he, n, rfl⟩ := mem_exportedContacts hrow
    refine ⟨e.1.toLead, ?_, fun hmanual => overwrite_exportedContact
      (hsettled _ (hmem e he) hmanual) _ _ _⟩
    show db.findLead (rules.lower (strip e.1.email)) = _
    rw [hemail e he]
    exact findLead_of_unique hunique (hmem e he)
  obtain ⟨result, db', hrun, hsame⟩ := @upsertRows_echo rules jobId capturedBy db _ {} hechoes
  obtain ⟨result₂, db₂, hrun₂, hcounted, -, hrecords⟩ := upsertRows_run rules capturedBy hjob
    (exportedContacts rules.lower req.fieldnames 2 (answer.take maxRows)) {}
  rw [hrun] at hrun₂
  obtain rfl : result = result₂ := Except.ok.inj (Prod.mk.inj hrun₂).1
  obtain rfl : db' = db₂ := (Prod.mk.inj (Prod.mk.inj hrun₂).2).1
  have hfound : ∀ e ∈ answer.take maxRows, db.findLead e.1.email = some e.1.toLead :=
    fun e he => findLead_of_unique hunique (hmem e he)
  have hnew : db.newEmails
      (exportedContacts rules.lower req.fieldnames 2 (answer.take maxRows)) = ∅ := by
    refine Finset.filter_eq_empty_iff.mpr fun email hin hnone => ?_
    obtain ⟨row, hrow, rfl⟩ := List.mem_map.mp (List.mem_toFinset.mp hin)
    obtain ⟨lead, hlead⟩ := hechoes row hrow
    unfold LeadsDb.channelOf at hnone
    rw [hlead.found] at hnone
    cases hnone
  refine ⟨content, _, result, db', hcontent, hparse, rfl, bulkUpsertManualLeads_run hrun,
    hsame.leads, hsame.snapshots, hsame.jobs, ?_, ?_, ?_, fun e he => ?_⟩
  · rw [hcounted.imported, hnew]
    rfl
  · rw [hcounted.skipped, List.map_append, List.map_map]
    exact ofCrawled_exported hemail hfound 2
  · have htotal := hcounted.total
    rw [hcounted.imported, hnew, length_exportedContacts] at htotal
    simpa using htotal
  · obtain ⟨n, hrow⟩ := @exportedContacts_mem rules.lower req.fieldnames _ 2 e he
    have hrecord := hrecords _ hrow
    rw [show (exportedContact rules.lower req.fieldnames n e.1.toLead).email = e.1.email from
      hemail e he] at hrecord
    exact hrecord

/-- **An export that is uploaded where none of its emails is known** makes a manual lead of each
that the file has room for, with the contact that was exported, and touches nothing that is
there. -/
theorem import_elsewhere (rules : LeadRules) (isoformat : Time → String) (db : LeadsDb)
    (jobId : Nat) (capturedBy : Option Nat) (hjob : (db.jobs.get? jobId).isSome = true)
    (hlower : ∀ f ∈ allExportFields, rules.lower f = f) (hmailable : store.Mailable rules.lower)
    (hunknown : ∀ e ∈ answer, db.findLead e.1.email = none)
    (h : AnswerTo order.key (store.buildExportQuery ilike req) answer) (hne : answer ≠ [])
    (hfits : ∀ e ∈ answer, ∀ cell ∈ exportCells isoformat req.fieldnames e, cell.length ≤ 131072) :
    ∃ content csv db' added, exportLeads isoformat req answer = .ok content ∧
      parseContactsText rules.lower content = .ok csv ∧
      csv.skipped = overLimit (maxRows + 2) (answer.drop maxRows) ∧
      bulkUpsertManualLeads rules jobId csv.rows capturedBy db [] =
        (.ok { imported := (answer.take maxRows).length }, db', []) ∧
      db'.leads.rows = db.leads.rows ++ added ∧
      db'.snapshots = db.snapshots ∧ db'.jobs = db.jobs ∧
      added.map Lead.contact = (answer.take maxRows).map (fun e =>
        (exportedContact rules.lower req.fieldnames 0 e.1.toLead).contact) ∧
      ∀ lead ∈ added, lead.channelTag = some "manual" ∧ lead.jobId = jobId := by
  obtain ⟨content, hcontent, hparse⟩ := exported_leads_parse isoformat hlower hmailable h hne
  rw [if_pos hfits] at hparse
  have hemail : ∀ e ∈ answer.take maxRows, rules.lower (strip e.1.email) = e.1.email :=
    fun e he => hmailable.canonical e.1 (mem_leads_of_answer h (List.mem_of_mem_take he))
  have hdistinct : ((exportedContacts rules.lower req.fieldnames 2 (answer.take maxRows)).map
      ManualRow.email).Nodup := by
    rw [emails_exportedContacts hemail]
    exact (nodup_emails_of_answer hmailable.unique h).sublist ((List.take_sublist _ _).map _)
  have hnone : ∀ row ∈ exportedContacts rules.lower req.fieldnames 2 (answer.take maxRows),
      db.findLead row.email = none := by
    intro row hrow
    obtain ⟨e, he, n, rfl⟩ := mem_exportedContacts hrow
    show db.findLead (rules.lower (strip e.1.email)) = none
    rw [hemail e he]
    exact hunknown e (List.mem_of_mem_take he)
  obtain ⟨db', hrun, ⟨added, hadded, hcontacts, hmanual⟩, hsnapshots, hjobs⟩ :=
    @upsertRows_new rules jobId capturedBy db hjob _ {} hdistinct hnone
  refine ⟨content, _, db', added, hcontent, hparse, rfl, ?_, hadded, hsnapshots, hjobs, ?_,
    hmanual⟩
  · refine bulkUpsertManualLeads_run (hrun.trans ?_)
    rw [length_exportedContacts, Nat.zero_add]
  · rw [hcontacts, map_contact_exportedContacts]

end Answer

/-! ### Two leads -/

def plainRules : LeadRules where
  lower := id
  netloc := fun _ => none
  loads := fun _ => .malformed

/-- A manual lead, whose cells have all that has to be quoted. -/
def quotedLead (id : Nat) : Lead :=
  manualLead plainRules 1
    { email := "rao@x.gov.in", name := some "Rao, K. \"Kavi\""
      department := some "Home\nAffairs" } id

/-- A crawled one. -/
def crawledLead2 (id : Nat) : Lead :=
  { manualLead plainRules 1 { email := "site@x.gov.in", designation := some "Clerk" } id with
    channelTag := some "email" }

def twoLeads : ExportStore where
  leads :=
    (Table.empty.insertNew fun id => { toLead := quotedLead id, capturedAt := some 2 }).insertNew
      fun id => { toLead := crawledLead2 id, capturedAt := some 3 }

theorem key_unownedJob (id : Nat) : Keyed.key (⟨id, none⟩ : CrawlJob) = id := rfl

def twoLeadsDb (leads : Table Lead) : LeadsDb where
  jobs := Table.empty.insertNew (fun id => ⟨id, none⟩) key_unownedJob
  leads := leads

def plainOrder : ExportOrder Nat Nat where
  domain := fun d => d.getD 0
  time := fun t => t.getD 0

def everyLead : List LeadExportRow := twoLeads.buildExportQuery (fun _ _ => false) {}

theorem everyLead_answers : AnswerTo plainOrder.key everyLead everyLead :=
  ⟨List.Perm.refl _, by decide⟩

theorem twoLeads_mailable : twoLeads.Mailable plainRules.lower :=
  ⟨by decide +kernel, by decide +kernel, by decide +kernel⟩

theorem quotedLead_settled : (quotedLead 1).Settled plainRules.weights where
  name := by decide +kernel
  designation := by decide +kernel
  department := by decide +kernel
  phone := by decide +kernel
  score := rfl

theorem everyLead_fits : ∀ e ∈ everyLead, ∀ cell ∈ exportCells (fun _ => "")
    (ExportLeadsRequest.fieldnames {}) e, cell.length ≤ 131072 := by
  decide +kernel

theorem reimport_changes_no_lead_two :
    let db := twoLeadsDb ((Table.empty.insertNew quotedLead).insertNew crawledLead2)
    ∃ content csv result db', exportLeads (fun _ => "") {} everyLead = .ok content ∧
      parseContactsText id content = .ok csv ∧ csv.skipped = [] ∧
      bulkUpsertManualLeads plainRules 1 csv.rows none db [] = (.ok result, db', []) ∧
      db'.leads = db.leads ∧ result.updated = 1 ∧
      result.skipped.map SkippedRow.email = ["site@x.gov.in"] := by
  intro db
  obtain ⟨content, csv, result, db', hcontent, hparse, hread, hrun, hleads, -, -, -, hskipped,
    htotal, -⟩ :=
    reimport_changes_no_lead plainRules (fun _ => "") db 1 none (by decide) (fun _ _ => rfl) ⟨rfl⟩
      twoLeads_mailable (fun l hl hmanual => by
        rcases List.mem_cons.mp hl with rfl | hl
        · exact quotedLead_settled
        · obtain rfl := List.mem_singleton.mp hl
          exact absurd hmanual (by decide))
      everyLead_answers (by decide) everyLead_fits
  have hcrawled : ((everyLead.take maxRows).filter fun e =>
      decide (e.1.channelTag ≠ some "manual")).map (fun e => e.1.email) = ["site@x.gov.in"] := by
    decide +kernel
  have hlength : (everyLead.take maxRows).length = 2 := by decide +kernel
  rw [hcrawled] at hskipped
  have hone : result.skipped.length = 1 := by
    rw [← List.length_map SkippedRow.email, hskipped]
    rfl
  refine ⟨content, csv, result, db', hcontent, hparse, hread, hrun, hleads, ?_, hskipped⟩
  omega

theorem import_elsewhere_two :
    ∃ content csv db' added, exportLeads (fun _ => "") {} everyLead = .ok content ∧
      parseContactsText id content = .ok csv ∧
      bulkUpsertManualLeads plainRules 1 csv.rows none (twoLeadsDb Table.empty) [] =
        (.ok { imported := 2 }, db', []) ∧
      db'.leads.rows = added ∧
      added.map Lead.contact =
        [{ email := "rao@x.gov.in", name := some "Rao, K. \"Kavi\"",
           department := some "Home\nAffairs" },
          { email := "site@x.gov.in", designation := some "Clerk" }] := by
  obtain ⟨content, csv, db', added, hcontent, hparse, -, hrun, hleads, -, -, hcontacts, -⟩ :=
    import_elsewhere plainRules (fun _ => "") (twoLeadsDb Table.empty) 1 none (by decide)
      (fun _ _ => rfl) twoLeads_mailable (by decide) everyLead_answers (by decide) everyLead_fits
  refine ⟨content, csv, db', added, hcontent, hparse, hrun, hleads, hcontacts.trans ?_⟩
  decide +kernel

end GovCrawler
