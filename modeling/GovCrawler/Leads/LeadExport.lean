/-
The CSV export of leads, `POST /api/leads/export`, and what `parse_contacts_csv` makes of it.

The export has a column that the parser knows for each field of a contact, under the name of the
column of the database where that is another.  So a file that was exported can be uploaded, here or
elsewhere.

`exported_leads_parse`: whatever is exported, in whatever order and with whatever columns, the
parser has one row for each lead, with the contact of the lead, and skips none that there is room
for.

The text is Unicode here; its encoding, which `StreamingResponse` and the upload agree on, is left
out but for the byte order mark that `utf-8-sig` drops.
-/
import GovCrawler.Lib.Csv
import GovCrawler.Leads.ContactsCsv
import GovCrawler.Leads.LeadQueries
import GovCrawler.Lib.Paging
import GovCrawler.Deps
import Mathlib.Data.List.Induction
import Mathlib.Data.Prod.Lex

namespace GovCrawler

open Relational Paging

/-! ### What is exported -/

/-- A row of `crawl_snapshots`, with the columns that are exported. -/
structure ExportSnapshot extends SnapshotFacets where
  title : Option String
  sourceDomainId : Option Nat
  deriving DecidableEq, Repr

instance : Keyed ExportSnapshot := ⟨fun s => s.id⟩

structure ExportStore where
  leads : Table LeadRow := Table.empty
  snapshots : Table ExportSnapshot := Table.empty

/-- An empty list is no filter, as is `None`. -/
structure ExportLeadsRequest extends LeadFilters where
  leadIds : List Nat := []
  fields : List String := []

/-- A lead and its snapshot. -/
abbrev LeadExportRow : Type := LeadRow × Option ExportSnapshot

/-- How the database orders nullable columns. -/
structure ExportOrder (D T : Type*) where
  domain : Option Nat → D
  time : Option Time → T

/-- `order_by(CrawlSnapshot.source_domain_id, Lead.captured_at)`. -/
def ExportOrder.key {D T : Type*} (order : ExportOrder D T) (e : LeadExportRow) : D ×ₗ T :=
  toLex (order.domain (e.2.bind ExportSnapshot.sourceDomainId), order.time e.1.capturedAt)

/-- `_build_export_query`, but for its order. -/
def ExportStore.buildExportQuery (db : ExportStore) (ilike : String → String → Bool)
    (req : ExportLeadsRequest) : List LeadExportRow :=
  (db.leads.rows.map fun l => (l, l.snapshotId.bind db.snapshots.get?)).filter fun e =>
    if req.leadIds.isEmpty then
      applyLeadFilters ilike req.toLeadFilters e.1 (e.2.map ExportSnapshot.toSnapshotFacets)
    else req.leadIds.contains e.1.id

/-- `_export_row_dict`, with its numbers as the writer prints them. -/
def exportRowDict (isoformat : Time → String) (e : LeadExportRow) : List (String × String) :=
  let lead := e.1
  let snapState := e.2.bind fun s => s.state
  let state := if lead.isManual then lead.manualState else orElse snapState (some UNKNOWN)
  let category := orElse (e.2.bind fun s => s.categoryTitle) (e.2.bind fun s => s.categoryCode)
  [("email", lead.email),
    ("person_name", lead.personName.getD ""),
    ("designation", lead.designation.getD ""),
    ("department", lead.department.getD ""),
    ("domain_title", (e.2.bind ExportSnapshot.title).getD ""),
    ("domain_state", state.getD ""),
    ("domain_org_type", (e.2.bind fun s => s.orgTypeTitle).getD ""),
    ("category_title", category.getD ""),
    ("source_url", lead.sourceUrl),
    ("source_title", lead.sourceTitle.getD ""),
    ("context_snippet", lead.contextSnippet.getD ""),
    ("confidence_band", lead.confidenceBand.getD ""),
    ("field_provenance", lead.fieldProvenance.getD ""),
    ("phone", lead.phone.getD ""),
    ("lead_score", toString lead.leadScore),
    ("depth", toString lead.depth),
    ("captured_at", (lead.capturedAt.map isoformat).getD "")]

/-- `_ALL_EXPORT_FIELDS`. -/
def allExportFields : List String :=
  ["email", "person_name", "designation", "department", "phone", "domain_title", "domain_state",
    "domain_org_type", "category_title", "source_url", "source_title", "context_snippet",
    "lead_score", "depth", "captured_at"]

/-- The columns, `email` always among them. -/
def ExportLeadsRequest.fieldnames (req : ExportLeadsRequest) : List String :=
  if req.fields.isEmpty then allExportFields
  else allExportFields.filter fun f => req.fields.contains f || f == "email"

/-- The dialect `excel`, with the limit on fields that the module sets. -/
def excel : Csv.Dialect where
  delimiter := ','
  quotechar := '"'
  fieldSizeLimit := 131072
  apart := by decide
  delimiter_line := by decide
  quotechar_line := by decide

/-- What `csv.DictWriter` writes of a row. -/
def exportCells (isoformat : Time → String) (fieldnames : List String) (e : LeadExportRow) :
    List String :=
  fieldnames.map fun key => ((exportRowDict isoformat e).lookup key).getD ""

def writeCsv (lines : List (List String)) : List Char :=
  Csv.Dialect.write excel (lines.map fun line => line.map String.toList)

/-- `export_leads`, given the answer of the database. -/
def exportLeads (isoformat : Time → String) (req : ExportLeadsRequest)
    (answer : List LeadExportRow) : Except HttpError (List Char) :=
  if answer.isEmpty then .error ⟨404, "No leads for this job"⟩
  else .ok (writeCsv (req.fieldnames :: answer.map (exportCells isoformat req.fieldnames)))

/-! ### The file that is uploaded -/

/-- What `utf-8-sig` drops. -/
def withoutBom : List Char → List Char
  | '\uFEFF' :: text => text
  | text => text

def csvLines (text : List Char) : Except Csv.ReadError (List (List String)) :=
  (Csv.read excel text).map fun records => records.map fun record => record.map String.ofList

/-- `parse_contacts_csv`, from the text on. -/
def parseContactsText (lower : String → String) (content : List Char) :
    Except Csv.ReadError ContactsCsv :=
  (csvLines (withoutBom content)).map (parseContactsCsv lower)

/-! ### The text -/

/-- What was written is read, or a cell of it is too long. -/
theorem csvLines_writeCsv (lines : List (List String)) :
    csvLines (writeCsv lines) =
      if ∀ line ∈ lines, ∀ cell ∈ line, cell.length ≤ 131072 then .ok lines
      else .error .fieldLargerThanLimit := by
  have hfits : (∀ record ∈ lines.map fun line => line.map String.toList, excel.Fits record) ↔
      ∀ line ∈ lines, ∀ cell ∈ line, cell.length ≤ 131072 := by
    simp only [List.forall_mem_map, Csv.Dialect.Fits]
    rfl
  unfold csvLines writeCsv
  rw [Csv.read_write]
  by_cases h : ∀ line ∈ lines, ∀ cell ∈ line, cell.length ≤ 131072
  · rw [if_pos h, if_pos (hfits.mpr h)]
    refine congrArg Except.ok ?_
    simp [List.map_map, Function.comp_def]
  · rw [if_neg h, if_neg fun hall => h (hfits.mp hall)]
    rfl

theorem withoutBom_writeCsv (rest : List String) (lines : List (List String)) :
    withoutBom (writeCsv (("email" :: rest) :: lines)) = writeCsv (("email" :: rest) :: lines) := by
  unfold writeCsv Csv.Dialect.write
  rw [List.map_cons, List.flatMap_cons, List.map_cons]
  have hhead : ∃ text, Csv.Dialect.writeRecord excel ("email".toList :: rest.map String.toList) =
      'e' :: text := ⟨_, rfl⟩
  obtain ⟨text, htext⟩ := hhead
  rw [htext, List.cons_append]
  rfl

/-! ### The columns -/

section Columns

variable (req : ExportLeadsRequest)

theorem fieldnames_cons : ∃ rest, req.fieldnames = "email" :: rest := by
  unfold ExportLeadsRequest.fieldnames
  split
  · exact ⟨_, rfl⟩
  · have hemail : (fun f => req.fields.contains f || f == "email") "email" = true := by
      dsimp only
      rw [beq_self_eq_true, Bool.or_true]
    exact ⟨_, List.filter_cons_of_pos hemail⟩

theorem fieldnames_sublist : req.fieldnames.Sublist allExportFields := by
  unfold ExportLeadsRequest.fieldnames
  split
  · exact List.Sublist.refl _
  · exact List.filter_sublist

theorem fieldnames_nodup : req.fieldnames.Nodup :=
  (fieldnames_sublist req).nodup (by decide)

end Columns

/-- The column that a field of a contact is exported in. -/
def ContactField.column : ContactField → String
  | .email => "email"
  | .name => "person_name"
  | .designation => "designation"
  | .department => "department"
  | .phone => "phone"

theorem column_known :
    ∀ header ∈ allExportFields, strip header = header ∧
      ∀ field ∈ ContactField.all,
        canonicalField id header = some field ↔ header = field.column := by
  decide +kernel

/-- What the parser knows of the columns. -/
theorem canonicalField_iff {lower : String → String} {header : String}
    (hlower : ∀ f ∈ allExportFields, lower f = f) (h : header ∈ allExportFields)
    (field : ContactField) :
    canonicalField lower header = some field ↔ header = field.column := by
  obtain ⟨hstrip, hknown⟩ := column_known header h
  have hsame : canonicalField lower header = canonicalField id header := by
    unfold canonicalField
    rw [hstrip, hlower header h]
    rfl
  rw [hsame]
  exact hknown field (by cases field <;> decide)

/-! ### The records -/

theorem foldl_dictSet {fieldnames line : List String} (hnodup : fieldnames.Nodup)
    (d : List (String × Option String)) (hd : ∀ e ∈ d, e.1 ∉ fieldnames) :
    (fieldnames.zip line).foldl (fun d e => dictSet d e.1 (some e.2)) d =
      d ++ (fieldnames.zip line).map fun e => (e.1, some e.2) := by
  induction fieldnames generalizing line d with
  | nil => exact (List.append_nil d).symm
  | cons header fieldnames ih =>
      cases line with
      | nil => exact (List.append_nil d).symm
      | cons cell line =>
          obtain ⟨hnot, hrest⟩ := List.nodup_cons.mp hnodup
          have hnew : dictSet d header (some cell) = d ++ [(header, some cell)] := by
            unfold dictSet
            rw [if_neg]
            intro hany
            obtain ⟨e, he, hkey⟩ := List.any_eq_true.mp hany
            exact hd e he (by rw [beq_iff_eq.mp hkey]; exact List.mem_cons_self)
          rw [List.zip_cons_cons, List.foldl_cons, hnew, ih hrest, List.append_assoc,
            List.singleton_append, List.map_cons]
          intro e he
          rcases List.mem_append.mp he with hold | hlast
          · exact fun hmem => hd e hold (List.mem_cons_of_mem _ hmem)
          · rw [List.mem_singleton.mp hlast]
            exact hnot

/-- The record of a line that has a cell for each column. -/
theorem ofLine_map {fieldnames : List String} (hnodup : fieldnames.Nodup) (cell : String → String) :
    RawRow.ofLine fieldnames (fieldnames.map cell) =
      { fields := fieldnames.map fun header => (header, some (cell header)), rest := [] } := by
  unfold RawRow.ofLine
  rw [List.length_map, List.drop_of_length_le (Nat.le_refl _), List.foldl_nil,
    foldl_dictSet hnodup [] (fun _ h => absurd h List.not_mem_nil), List.nil_append,
    List.drop_of_length_le (by rw [List.length_map])]
  congr 1
  clear hnodup
  induction fieldnames with
  | nil => rfl
  | cons header fieldnames ih =>
      rw [List.map_cons, List.zip_cons_cons, List.map_cons, List.map_cons, ih]

theorem lookup_fieldMapOf (lower : String → String) {fieldnames : List String} {header : String}
    (h : header ∈ fieldnames) :
    (fieldMapOf lower fieldnames).lookup header = canonicalField lower header := by
  unfold fieldMapOf
  induction fieldnames with
  | nil => exact absurd h List.not_mem_nil
  | cons first fieldnames ih =>
      rw [List.filterMap_cons]
      by_cases heq : header = first
      · subst heq
        cases hfield : canonicalField lower header with
        | none =>
            dsimp only [Option.map_none]
            rw [List.lookup_eq_none_iff]
            intro e he
            obtain ⟨other, hother, hmap⟩ := List.mem_filterMap.mp he
            obtain ⟨field, hfield', rfl⟩ := Option.map_eq_some_iff.mp hmap
            have hne : header ≠ other := by
              rintro rfl
              rw [hfield] at hfield'
              cases hfield'
            exact bne_iff_ne.mpr hne
        | some field =>
            dsimp only [Option.map_some]
            rw [List.lookup_cons, beq_self_eq_true]
      · have hrest := ih ((List.mem_cons.mp h).resolve_left heq)
        cases hfield : canonicalField lower first with
        | none => exact hrest
        | some field =>
            dsimp only [Option.map_some]
            rw [List.lookup_cons, beq_false_of_ne heq]
            exact hrest

/-- The cell of a field that is exported, unless it is empty. -/
def contactCell (fieldnames : List String) (field : ContactField) (value : String) :
    Option String :=
  if fieldnames.contains field.column ∧ value ≠ "" then some (strip value) else none

theorem normalized_map {lower : String → String} {fieldnames : List String}
    (hlower : ∀ f ∈ allExportFields, lower f = f) (hknown : ∀ f ∈ fieldnames, f ∈ allExportFields)
    (cell : String → String) (field : ContactField) (names : List String)
    (hnames : ∀ f ∈ names, f ∈ fieldnames) :
    RawRow.normalized (fieldMapOf lower fieldnames)
        { fields := names.map fun header => (header, some (cell header)), rest := [] } field =
      contactCell names field (cell field.column) := by
  unfold contactCell
  simp only [List.contains_iff_mem]
  induction names using List.reverseRecOn with
  | nil =>
      rw [if_neg fun h => absurd h.1 List.not_mem_nil]
      rfl
  | append_singleton names header ih =>
      have hrest := ih fun f hf => hnames f (List.mem_append_left _ hf)
      have hheader := hnames header (List.mem_append_right _ (List.mem_singleton.mpr rfl))
      have hiff := canonicalField_iff hlower (hknown header hheader) field
      unfold RawRow.normalized at hrest ⊢
      dsimp only at hrest ⊢
      rw [List.map_append, List.foldl_append, List.map_singleton, List.foldl_cons, List.foldl_nil]
      dsimp only
      rw [lookup_fieldMapOf lower hheader]
      by_cases hcolumn : header = field.column
      · subst hcolumn
        rw [hiff.mpr rfl]
        dsimp only
        by_cases hempty : cell field.column = ""
        · rw [if_pos hempty, hrest, if_neg fun h => h.2 hempty, if_neg fun h => h.2 hempty]
        · rw [if_neg hempty, Function.update_self,
            if_pos ⟨List.mem_append_right _ (List.mem_singleton.mpr rfl), hempty⟩]
      · have hsame : field.column ∈ names ++ [header] ↔ field.column ∈ names := by
          rw [List.mem_append, List.mem_singleton, or_iff_left (Ne.symm hcolumn)]
        simp only [hsame]
        rw [← hrest]
        cases hfield : canonicalField lower header with
        | none => rfl
        | some other =>
            have hother : field ≠ other := by
              rintro rfl
              exact hcolumn (hiff.mp hfield)
            dsimp only
            split
            · rfl
            · exact Function.update_of_ne hother _ _

/-! ### The rows of a file -/

/-- Nothing stands in the way of the records: they have valid emails, each once, and there is room
for all of them. -/
structure Acceptable (rows : List ManualRow) (csv : ContactsCsv) : Prop where
  valid : ∀ row ∈ rows, row.email ≠ "" ∧ emailRe row.email = true
  distinct : (rows.map ManualRow.email).Nodup
  unseen : ∀ row ∈ rows, row.email ∉ csv.seenEmails
  room : csv.rows.length + rows.length ≤ maxRows

/-- The rows of records, by number. -/
def contactRows (lower : String → String) (fieldMap : List (String × ContactField)) :
    Nat → List RawRow → List ManualRow
  | _, [] => []
  | lineNo, raw :: records =>
      contactRow lower fieldMap lineNo raw :: contactRows lower fieldMap (lineNo + 1) records

theorem parseRecords_acceptable {lower : String → String} {fieldMap : List (String × ContactField)}
    (records : List RawRow) (lineNo : Nat) (csv : ContactsCsv)
    (h : Acceptable (contactRows lower fieldMap lineNo records) csv) :
    parseRecords lower fieldMap lineNo records csv =
      { rows := csv.rows ++ contactRows lower fieldMap lineNo records
        skipped := csv.skipped
        seenEmails := csv.seenEmails ++
          (contactRows lower fieldMap lineNo records).map ManualRow.email } := by
  induction records generalizing lineNo csv with
  | nil =>
      unfold parseRecords contactRows
      rw [List.map_nil, List.append_nil, List.append_nil]
  | cons raw records ih =>
      obtain ⟨hvalid, hdistinct, hunseen, hroom⟩ := h
      rw [contactRows] at hvalid hdistinct hunseen hroom
      obtain ⟨hne, hre⟩ := hvalid _ List.mem_cons_self
      obtain ⟨hfirst, hrest⟩ := List.nodup_cons.mp hdistinct
      rw [List.length_cons] at hroom
      have hparse : parseRecord lower fieldMap lineNo raw csv =
          { csv with
            seenEmails := csv.seenEmails ++ [(contactRow lower fieldMap lineNo raw).email]
            rows := csv.rows ++ [contactRow lower fieldMap lineNo raw] } := by
        unfold parseRecord
        rw [if_neg (by omega)]
        dsimp only
        rw [if_neg hne, hre, if_neg (by decide), if_neg]
        rw [List.contains_iff_mem]
        exact hunseen _ List.mem_cons_self
      rw [parseRecords, hparse, ih]
      · rw [contactRows, List.map_cons, List.append_assoc, List.append_assoc, List.singleton_append,
          List.singleton_append]
      · refine ⟨fun row hrow => hvalid row (List.mem_cons_of_mem _ hrow), hrest, fun row hrow => ?_,
          ?_⟩
        · rw [List.mem_append, List.mem_singleton]
          rintro (hseen | heq)
          · exact hunseen row (List.mem_cons_of_mem _ hrow) hseen
          · exact hfirst (List.mem_map.mpr ⟨row, hrow, heq⟩)
        · rw [List.length_append, List.length_singleton]
          omega

/-! ### What was exported -/

/-- The contact of a lead, as it is exported and parsed. -/
def exportedContact (lower : String → String) (fieldnames : List String) (lineNo : Nat)
    (lead : Lead) : ManualRow :=
  let cell := fun field value => contactCell fieldnames field (Option.getD value "")
  { row := some lineNo
    email := lower (strip lead.email)
    name := cell .name lead.personName
    designation := cell .designation lead.designation
    department := cell .department lead.department
    phone := cell .phone lead.phone }

/-- The contacts of the leads, numbered as the records of the file are. -/
def exportedContacts (lower : String → String) (fieldnames : List String) :
    Nat → List LeadExportRow → List ManualRow
  | _, [] => []
  | lineNo, e :: rows =>
      exportedContact lower fieldnames lineNo e.1.toLead ::
        exportedContacts lower fieldnames (lineNo + 1) rows

theorem contactRow_exported {lower : String → String}
    (hlower : ∀ f ∈ allExportFields, lower f = f) (isoformat : Time → String)
    (req : ExportLeadsRequest) (lineNo : Nat) (e : LeadExportRow) :
    contactRow lower (fieldMapOf lower req.fieldnames) lineNo
        (RawRow.ofLine req.fieldnames (exportCells isoformat req.fieldnames e)) =
      exportedContact lower req.fieldnames lineNo e.1.toLead := by
  have hknown : ∀ f ∈ req.fieldnames, f ∈ allExportFields :=
    fun f hf => (fieldnames_sublist req).subset hf
  have hcell (field : ContactField) :=
    normalized_map hlower hknown (fun key => ((exportRowDict isoformat e).lookup key).getD "") field
      req.fieldnames fun _ h => h
  have hemail : lower ((contactCell req.fieldnames .email e.1.email).getD "") =
      lower (strip e.1.email) := by
    obtain ⟨rest, hrest⟩ := fieldnames_cons req
    unfold contactCell
    by_cases hempty : e.1.email = ""
    · rw [if_neg fun h => h.2 hempty, hempty]
      rfl
    · rw [if_pos ⟨by rw [hrest]; rfl, hempty⟩]
      rfl
  unfold contactRow exportCells
  rw [ofLine_map (fieldnames_nodup req)]
  dsimp only
  rw [hcell, hcell, hcell, hcell, hcell]
  unfold exportedContact
  rw [← hemail]
  rfl

/-- The leads beyond the limit, as they are skipped. -/
def overLimit : Nat → List LeadExportRow → List SkippedRecord
  | _, [] => []
  | lineNo, e :: rows =>
      ⟨lineNo, some e.1.email, rowLimitExceeded⟩ :: overLimit (lineNo + 1) rows

theorem parseRecords_append {lower : String → String} {fieldMap : List (String × ContactField)}
    (records more : List RawRow) (lineNo : Nat) (csv : ContactsCsv) :
    parseRecords lower fieldMap lineNo (records ++ more) csv =
      parseRecords lower fieldMap (lineNo + records.length) more
        (parseRecords lower fieldMap lineNo records csv) := by
  induction records generalizing lineNo csv with
  | nil => rfl
  | cons raw records ih =>
      rw [List.cons_append, parseRecords, parseRecords, ih, List.length_cons, Nat.add_assoc,
        Nat.add_comm 1]

section Lines

variable (isoformat : Time → String) (req : ExportLeadsRequest)

/-- The record of a lead. -/
def exportRecord (e : LeadExportRow) : RawRow :=
  RawRow.ofLine req.fieldnames (exportCells isoformat req.fieldnames e)

theorem lookup_email (e : LeadExportRow) :
    ((exportRecord isoformat req e).fields.lookup "email").join = some e.1.email := by
  obtain ⟨rest, hrest⟩ := fieldnames_cons req
  unfold exportRecord exportCells
  rw [ofLine_map (fieldnames_nodup req), hrest]
  rfl

/-- A full list takes no more. -/
theorem parseRecords_full {lower : String → String} {fieldMap : List (String × ContactField)}
    (rows : List LeadExportRow) (lineNo : Nat) (csv : ContactsCsv) (h : maxRows ≤ csv.rows.length) :
    parseRecords lower fieldMap lineNo (rows.map (exportRecord isoformat req)) csv =
      { csv with skipped := csv.skipped ++ overLimit lineNo rows } := by
  induction rows generalizing lineNo csv with
  | nil =>
      unfold overLimit
      rw [List.append_nil]
      rfl
  | cons e rows ih =>
      have hskip : parseRecord lower fieldMap lineNo (exportRecord isoformat req e) csv =
          csv.skip lineNo (some e.1.email) rowLimitExceeded := by
        unfold parseRecord
        rw [if_pos h, lookup_email]
      rw [List.map_cons, parseRecords, hskip, ih (lineNo + 1) (csv.skip lineNo _ _) h]
      unfold ContactsCsv.skip
      rw [overLimit, List.append_assoc, List.singleton_append]

theorem recordsOf_exported (answer : List LeadExportRow) :
    recordsOf (req.fieldnames :: answer.map (exportCells isoformat req.fieldnames)) =
      answer.map (exportRecord isoformat req) := by
  unfold recordsOf
  rw [List.tail_cons, List.filter_eq_self.mpr, List.map_map]
  · rfl
  · intro line hline
    obtain ⟨e, -, rfl⟩ := List.mem_map.mp hline
    obtain ⟨rest, hrest⟩ := fieldnames_cons req
    unfold exportCells
    rw [hrest]
    rfl

theorem contactRows_exported {lower : String → String}
    (hlower : ∀ f ∈ allExportFields, lower f = f) (rows : List LeadExportRow) (lineNo : Nat) :
    contactRows lower (fieldMapOf lower req.fieldnames) lineNo
        (rows.map (exportRecord isoformat req)) =
      exportedContacts lower req.fieldnames lineNo rows := by
  induction rows generalizing lineNo with
  | nil => rfl
  | cons e rows ih =>
      rw [List.map_cons, contactRows, exportedContacts, ih (lineNo + 1)]
      exact congrArg (· :: _) (contactRow_exported hlower isoformat req lineNo e)

end Lines

theorem length_exportedContacts (lower : String → String) (fieldnames : List String)
    (rows : List LeadExportRow) (lineNo : Nat) :
    (exportedContacts lower fieldnames lineNo rows).length = rows.length := by
  induction rows generalizing lineNo with
  | nil => rfl
  | cons e rows ih => rw [exportedContacts, List.length_cons, List.length_cons, ih]

/-- The emails of leads are as a file has them: trimmed, in small letters, valid, and each of one
lead, which is a constraint of the column. -/
structure ExportStore.Mailable (lower : String → String) (db : ExportStore) : Prop where
  canonical : ∀ l ∈ db.leads.rows, lower (strip l.email) = l.email
  valid : ∀ l ∈ db.leads.rows, l.email ≠ "" ∧ emailRe l.email = true
  unique : (db.leads.rows.map fun l => l.email).Nodup

theorem emails_exportedContacts {lower : String → String} {fieldnames : List String}
    {rows : List LeadExportRow} (h : ∀ e ∈ rows, lower (strip e.1.email) = e.1.email)
    (lineNo : Nat) :
    (exportedContacts lower fieldnames lineNo rows).map ManualRow.email =
      rows.map fun e => e.1.email := by
  induction rows generalizing lineNo with
  | nil => rfl
  | cons e rows ih =>
      rw [exportedContacts, List.map_cons, List.map_cons,
        ih fun e he => h e (List.mem_cons_of_mem _ he)]
      exact congrArg (· :: _) (h e List.mem_cons_self)

section Answer

variable {D T : Type*} [LinearOrder D] [LinearOrder T] {order : ExportOrder D T}
  {db : ExportStore} {ilike : String → String → Bool} {req : ExportLeadsRequest}
  {answer : List LeadExportRow}

theorem mem_leads_of_answer (h : AnswerTo order.key (db.buildExportQuery ilike req) answer)
    {e : LeadExportRow} (he : e ∈ answer) : e.1 ∈ db.leads.rows := by
  obtain ⟨l, hl, rfl⟩ := List.mem_map.mp (List.mem_filter.mp (h.1.subset he)).1
  exact hl

theorem nodup_emails_of_answer (hunique : (db.leads.rows.map fun l => l.email).Nodup)
    (h : AnswerTo order.key (db.buildExportQuery ilike req) answer) :
    (answer.map fun e => e.1.email).Nodup := by
  refine (h.1.map _).nodup_iff.mpr (List.Nodup.sublist (List.filter_sublist.map _) ?_)
  rw [List.map_map]
  exact hunique

/-- A part of what was exported is accepted, if there is room for it. -/
theorem acceptable_exported {lower : String → String} {fieldnames : List String} (lineNo : Nat)
    (hdb : db.Mailable lower) (h : AnswerTo order.key (db.buildExportQuery ilike req) answer)
    {rows : List LeadExportRow} (hrows : rows.Sublist answer) (hroom : rows.length ≤ maxRows) :
    Acceptable (exportedContacts lower fieldnames lineNo rows) {} := by
  have hmem : ∀ e ∈ rows, e.1 ∈ db.leads.rows := fun e he =>
    mem_leads_of_answer h (hrows.subset he)
  have hemails := @emails_exportedContacts lower fieldnames rows
    (fun e he => hdb.canonical e.1 (hmem e he)) lineNo
  refine ⟨fun row hrow => ?_, ?_, fun _ _ => List.not_mem_nil, ?_⟩
  · have hin : row.email ∈ rows.map fun e => e.1.email := by
      rw [← hemails]
      exact List.mem_map_of_mem hrow
    obtain ⟨e, he, heq⟩ := List.mem_map.mp hin
    rw [← heq]
    exact hdb.valid e.1 (hmem e he)
  · rw [hemails]
    exact (nodup_emails_of_answer hdb.unique h).sublist (hrows.map _)
  · rw [length_exportedContacts, List.length_nil, Nat.zero_add]
    exact hroom

/-- **An export can be uploaded.**  Whatever leads are exported, in whatever order and with whatever
columns, the file has for each the row that `parse_contacts_csv` makes of its contact, up to the
limit on rows, and nothing of it is skipped but what is beyond.  Quotes, commas and newlines in the
cells change nothing.  One cell beyond the limit of the reader makes all of it unreadable. -/
theorem exported_leads_parse {lower : String → String} (isoformat : Time → String)
    (hlower : ∀ f ∈ allExportFields, lower f = f) (hdb : db.Mailable lower)
    (h : AnswerTo order.key (db.buildExportQuery ilike req) answer) (hne : answer ≠ []) :
    ∃ content, exportLeads isoformat req answer = .ok content ∧
      parseContactsText lower content =
        if ∀ e ∈ answer, ∀ cell ∈ exportCells isoformat req.fieldnames e, cell.length ≤ 131072 then
          .ok
            { rows := exportedContacts lower req.fieldnames 2 (answer.take maxRows)
              skipped := overLimit (maxRows + 2) (answer.drop maxRows)
              seenEmails := (answer.take maxRows).map fun e => e.1.email }
        else .error .fieldLargerThanLimit := by
  refine ⟨_, if_neg (by rw [List.isEmpty_iff]; exact hne), ?_⟩
  have hbom : withoutBom (writeCsv (req.fieldnames :: answer.map
      (exportCells isoformat req.fieldnames))) =
      writeCsv (req.fieldnames :: answer.map (exportCells isoformat req.fieldnames)) := by
    obtain ⟨rest, hrest⟩ := fieldnames_cons req
    rw [hrest]
    exact withoutBom_writeCsv rest _
  have hfits : (∀ line ∈ req.fieldnames :: answer.map (exportCells isoformat req.fieldnames),
      ∀ cell ∈ line, cell.length ≤ 131072) ↔
      ∀ e ∈ answer, ∀ cell ∈ exportCells isoformat req.fieldnames e, cell.length ≤ 131072 := by
    have hheader : ∀ cell ∈ req.fieldnames, cell.length ≤ 131072 := by
      have hall : ∀ cell ∈ allExportFields, cell.length ≤ 131072 := by decide
      exact fun cell hcell => hall cell ((fieldnames_sublist req).subset hcell)
    rw [List.forall_mem_cons, and_iff_right hheader, List.forall_mem_map]
  unfold parseContactsText
  rw [hbom, csvLines_writeCsv]
  by_cases hall : ∀ e ∈ answer, ∀ cell ∈ exportCells isoformat req.fieldnames e,
      cell.length ≤ 131072
  · rw [if_pos (hfits.mpr hall), if_pos hall]
    refine congrArg Except.ok ?_
    have hlength : (answer.take maxRows).length ≤ maxRows := List.length_take_le _ _
    have hrows := contactRows_exported isoformat req hlower (answer.take maxRows) 2
    have hemails : (exportedContacts lower req.fieldnames 2 (answer.take maxRows)).map
        ManualRow.email = (answer.take maxRows).map fun e => e.1.email :=
      emails_exportedContacts (fun e he => hdb.canonical e.1
        (mem_leads_of_answer h (List.mem_of_mem_take he))) 2
    have hfirst : parseRecords lower (fieldMapOf lower req.fieldnames) 2
        ((answer.take maxRows).map (exportRecord isoformat req)) {} =
        { rows := exportedContacts lower req.fieldnames 2 (answer.take maxRows)
          seenEmails := (answer.take maxRows).map fun e => e.1.email } := by
      rw [parseRecords_acceptable]
      · rw [hrows, hemails]
        rfl
      · rw [hrows]
        exact acceptable_exported 2 hdb h (List.take_sublist _ _) hlength
    have hsplit : answer.map (exportRecord isoformat req) =
        (answer.take maxRows).map (exportRecord isoformat req) ++
          (answer.drop maxRows).map (exportRecord isoformat req) := by
      rw [← List.map_append, List.take_append_drop]
    unfold parseContactsCsv
    rw [recordsOf_exported]
    show parseRecords lower (fieldMapOf lower req.fieldnames) 2 _ {} = _
    rw [hsplit, parseRecords_append, hfirst, List.length_map]
    by_cases hmore : answer.length ≤ maxRows
    · rw [List.drop_of_length_le hmore]
      rfl
    · have hfull : (answer.take maxRows).length = maxRows := by
        rw [List.length_take]
        omega
      rw [parseRecords_full, hfull, Nat.add_comm 2]
      · rfl
      · dsimp only
        rw [length_exportedContacts, hfull]
  · rw [if_neg fun hlines => hall (hfits.mp hlines), if_neg hall]
    rfl

end Answer

end GovCrawler
