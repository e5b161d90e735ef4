/-
Contacts from a CSV file, `parse_contacts_csv` in `cloud/services/csv_import.py`.

The file is what `csv.reader` makes of it, a list of lines that are lists of cells; the first
line is the header, and `csv.DictReader` makes a record of every other one that is not empty.
A record becomes a row, or it is skipped for the first of four reasons that applies.

`parseContactsCsv_accounted` says that every record is in exactly one of the two lists, under
its own number, and what the rows are.  The loop has nothing to it but its accumulator, so
`Accounted` is stated of the records read so far and `Accounted.parseRecord` is the proof.
-/
import GovCrawler.Leads.ManualUpload
import Mathlib.Data.List.Perm.Basic

namespace GovCrawler

/-! ### The records of a file -/

/-- `MAX_ROWS`. -/
def maxRows : Nat := 2000

/-- The fields of a contact, in the order of `_HEADER_ALIASES`. -/
inductive ContactField
  | email
  | name
  | designation
  | department
  | phone
  deriving DecidableEq, Repr

namespace ContactField

def all : List ContactField := [.email, .name, .designation, .department, .phone]

def aliases : ContactField → List String
  | .email => ["email", "e-mail", "email address", "mail"]
  | .name => ["name", "full name", "person name", "person_name", "contact name"]
  | .designation => ["designation", "title", "job title", "role"]
  | .department => ["department", "dept"]
  | .phone => ["phone", "phone number", "mobile", "mobile number", "contact number"]

end ContactField

/-- `_canonical_field`; `lower` is `str.lower`. -/
def canonicalField (lower : String → String) (header : String) : Option ContactField :=
  ContactField.all.find? fun field => field.aliases.contains (lower (strip header))

/-- `_EMAIL_RE.match(email)` for `^[^@\s]+@[^@\s]+\.[^@\s]+$`.  A `$` is also before a last
newline. -/
def emailRe (email : String) : Bool :=
  let text := email.toList
  let body := if text.getLast? = some '\n' then text.dropLast else text
  match body.splitOn '@' with
  | [localPart, domain] =>
      !body.any isSpace && !localPart.isEmpty && ((domain.drop 1).dropLast).contains '.'
  | _ => false

/-- `d[key] = value`, where a key that is there keeps its place. -/
def dictSet (d : List (String × Option String)) (key : String) (value : Option String) :
    List (String × Option String) :=
  if d.any fun e => e.1 == key then d.map fun e => if e.1 == key then (key, value) else e
  else d ++ [(key, value)]

/-- What `csv.DictReader` makes of a line: `None` where the line is too short, and the cells
beyond the header under `None`, which no header is. -/
structure RawRow where
  fields : List (String × Option String)
  rest : List String := []
  deriving DecidableEq, Repr

def RawRow.ofLine (fieldnames line : List String) : RawRow where
  fields :=
    let given := (fieldnames.zip line).foldl (fun d e => dictSet d e.1 (some e.2)) []
    (fieldnames.drop line.length).foldl (fun d header => dictSet d header none) given
  rest := line.drop fieldnames.length

/-- `reader.fieldnames or []`. -/
def fieldnamesOf (lines : List (List String)) : List String := lines.headD []

/-- What iterating over the reader gives. -/
def recordsOf (lines : List (List String)) : List RawRow :=
  (lines.tail.filter fun line => !line.isEmpty).map (RawRow.ofLine (fieldnamesOf lines))

/-- `field_map`. -/
def fieldMapOf (lower : String → String) (fieldnames : List String) :
    List (String × ContactField) :=
  fieldnames.filterMap fun header => (canonicalField lower header).map fun field => (header, field)

/-- `normalized`: a later column of a field overrides an earlier one, unless it is empty. -/
def RawRow.normalized (fieldMap : List (String × ContactField)) (raw : RawRow) :
    ContactField → Option String :=
  raw.fields.foldl (fun acc e =>
    match fieldMap.lookup e.1, e.2 with
    | some canonical, some value =>
        if value = "" then acc else Function.update acc canonical (some (strip value))
    | _, _ => acc) fun _ => none

/-! ### `parse_contacts_csv` -/

structure SkippedRecord where
  row : Nat
  email : Option String
  reason : String
  deriving DecidableEq, Repr

def rowLimitExceeded : String := s!"row limit exceeded (max {maxRows} rows)"

def missingEmail : String := "missing email"

def invalidEmail : String := "invalid email format"

def duplicateEmail : String := "duplicate email in file"

/-- The lists that the loop fills. -/
structure ContactsCsv where
  rows : List ManualRow := []
  skipped : List SkippedRecord := []
  seenEmails : List String := []
  deriving DecidableEq, Repr

def ContactsCsv.skip (csv : ContactsCsv) (lineNo : Nat) (email : Option String)
    (reason : String) : ContactsCsv :=
  { csv with skipped := csv.skipped ++ [⟨lineNo, email, reason⟩] }

/-- The row of a record. -/
def contactRow (lower : String → String) (fieldMap : List (String × ContactField)) (lineNo : Nat)
    (raw : RawRow) : ManualRow :=
  let normalized := raw.normalized fieldMap
  { row := some lineNo
    email := lower ((normalized .email).getD "")
    name := normalized .name
    designation := normalized .designation
    department := normalized .department
    phone := normalized .phone }

/-- One record. -/
def parseRecord (lower : String → String) (fieldMap : List (String × ContactField)) (lineNo : Nat)
    (raw : RawRow) (csv : ContactsCsv) : ContactsCsv :=
  if maxRows ≤ csv.rows.length then
    csv.skip lineNo ((raw.fields.lookup "email").join) rowLimitExceeded
  else
    let row := contactRow lower fieldMap lineNo raw
    if row.email = "" then csv.skip lineNo none missingEmail
    else if !emailRe row.email then csv.skip lineNo (some row.email) invalidEmail
    else if csv.seenEmails.contains row.email then csv.skip lineNo (some row.email) duplicateEmail
    else
      { csv with
        seenEmails := csv.seenEmails ++ [row.email]
        rows := csv.rows ++ [row] }

/-- `for line_no, raw_row in enumerate(reader, start=…)`. -/
def parseRecords (lower : String → String) (fieldMap : List (String × ContactField)) :
    Nat → List RawRow → ContactsCsv → ContactsCsv
  | _, [], csv => csv
  | lineNo, raw :: records, csv =>
      parseRecords lower fieldMap (lineNo + 1) records (parseRecord lower fieldMap lineNo raw csv)

/-- `parse_contacts_csv`, from the lines of the file on. -/
def parseContactsCsv (lower : String → String) (lines : List (List String)) : ContactsCsv :=
  parseRecords lower (fieldMapOf lower (fieldnamesOf lines)) 2 (recordsOf lines) {}

/-! ### Every record is a row or skipped -/

/-- What the two lists are of the records read. -/
structure ContactsCsv.Accounted (lower : String → String) (fieldMap : List (String × ContactField))
    (records : List RawRow) (csv : ContactsCsv) : Prop where
  /-- Each number of a record is in one of the lists, once. -/
  once : (csv.rows.map ManualRow.row ++ csv.skipped.map fun s => some s.row).Perm
    ((List.range' 2 records.length).map some)
  /-- A row is that of the record with its number. -/
  ofRecord : ∀ row ∈ csv.rows, ∃ i raw, records[i]? = some raw ∧
    row = contactRow lower fieldMap (i + 2) raw
  lowered : ∀ row ∈ csv.rows, ∃ cell, row.email = lower cell
  valid : ∀ row ∈ csv.rows, row.email ≠ "" ∧ emailRe row.email = true
  distinct : (csv.rows.map ManualRow.email).Nodup
  limit : csv.rows.length ≤ maxRows
  seen : csv.seenEmails = csv.rows.map ManualRow.email

section

variable {lower : String → String} {fieldMap : List (String × ContactField)}
  {records : List RawRow} {csv : ContactsCsv}

namespace ContactsCsv.Accounted

theorem empty : ({} : ContactsCsv).Accounted lower fieldMap [] where
  once := List.Perm.refl []
  ofRecord _ hrow := absurd hrow List.not_mem_nil
  lowered _ hrow := absurd hrow List.not_mem_nil
  valid _ hrow := absurd hrow List.not_mem_nil
  distinct := List.nodup_nil
  limit := Nat.zero_le maxRows
  seen := rfl

/-- The numbers of one record more. -/
theorem numbers_concat (n : Nat) :
    (List.range' 2 (n + 1)).map some = (List.range' 2 n).map some ++ [some (n + 2)] := by
  rw [List.range'_1_concat, List.map_append, List.map_singleton, Nat.add_comm 2 n]

theorem ofRecord_append (h : csv.Accounted lower fieldMap records) (raw : RawRow) :
    ∀ row ∈ csv.rows, ∃ i raw', (records ++ [raw])[i]? = some raw' ∧
      row = contactRow lower fieldMap (i + 2) raw' := by
  intro row hrow
  obtain ⟨i, raw', hget, heq⟩ := h.ofRecord row hrow
  have hlt : i < records.length := (List.getElem?_eq_some_iff.mp hget).1
  exact ⟨i, raw', by rw [List.getElem?_append_left hlt]; exact hget, heq⟩

theorem skip (h : csv.Accounted lower fieldMap records) (raw : RawRow) (email : Option String)
    (reason : String) :
    (csv.skip (records.length + 2) email reason).Accounted lower fieldMap (records ++ [raw]) where
  once := by
    unfold ContactsCsv.skip
    dsimp only
    rw [List.length_append, List.length_singleton, numbers_concat, List.map_append,
      List.map_singleton, ← List.append_assoc]
    exact h.once.append_right _
  ofRecord := h.ofRecord_append raw
  lowered := h.lowered
  valid := h.valid
  distinct := h.distinct
  limit := h.limit
  seen := h.seen

theorem add (h : csv.Accounted lower fieldMap records) {raw : RawRow} {row : ManualRow}
    (hrow : row = contactRow lower fieldMap (records.length + 2) raw)
    (hroom : csv.rows.length < maxRows) (hne : row.email ≠ "") (hvalid : emailRe row.email = true)
    (hnew : row.email ∉ csv.seenEmails) :
    ContactsCsv.Accounted lower fieldMap (records ++ [raw])
      { csv with seenEmails := csv.seenEmails ++ [row.email], rows := csv.rows ++ [row] } where
  once := by
    have hnumber : row.row = some (records.length + 2) := by rw [hrow]; rfl
    dsimp only
    rw [List.length_append, List.length_singleton, numbers_concat, List.map_append,
      List.map_singleton, hnumber, List.append_assoc, List.singleton_append]
    refine List.perm_middle.trans ?_
    exact (h.once.cons _).trans (List.perm_append_singleton _ _).symm
  ofRecord := by
    intro row' hrow'
    rcases List.mem_append.mp hrow' with hold | hlast
    · exact h.ofRecord_append raw row' hold
    · obtain rfl := List.mem_singleton.mp hlast
      exact ⟨records.length, raw, List.getElem?_concat_length, hrow⟩
  lowered := by
    intro row' hrow'
    rcases List.mem_append.mp hrow' with hold | hlast
    · exact h.lowered row' hold
    · obtain rfl := List.mem_singleton.mp hlast
      rw [hrow]
      exact ⟨_, rfl⟩
  valid := by
    intro row' hrow'
    rcases List.mem_append.mp hrow' with hold | hlast
    · exact h.valid row' hold
    · obtain rfl := List.mem_singleton.mp hlast
      exact ⟨hne, hvalid⟩
  distinct := by
    rw [h.seen] at hnew
    dsimp only
    rw [List.map_append, List.map_singleton]
    exact List.nodup_append.mpr ⟨h.distinct, List.nodup_singleton _, fun a ha b hb heq =>
      hnew (by rw [← List.mem_singleton.mp hb, ← heq]; exact ha)⟩
  limit := by
    dsimp only
    rw [List.length_append, List.length_singleton]
    exact hroom
  seen := by
    dsimp only
    rw [h.seen, List.map_append, List.map_singleton]

/-- **One record.**  It goes into one of the lists, under its number. -/
theorem parseRecord (h : csv.Accounted lower fieldMap records) (raw : RawRow) :
    (parseRecord lower fieldMap (records.length + 2) raw csv).Accounted lower fieldMap
      (records ++ [raw]) := by
  unfold GovCrawler.parseRecord
  split
  · exact h.skip raw _ rowLimitExceeded
  · rename_i hroom
    dsimp only
    split
    · exact h.skip raw none missingEmail
    · rename_i hne
      split
      · exact h.skip raw _ invalidEmail
      · rename_i hvalid
        split
        · exact h.skip raw _ duplicateEmail
        · rename_i hnew
          rw [List.contains_iff_mem] at hnew
          exact h.add rfl (Nat.lt_of_not_le hroom) hne (by simpa using hvalid) hnew

theorem parseRecords (h : csv.Accounted lower fieldMap records) (more : List RawRow) :
    (parseRecords lower fieldMap (records.length + 2) more csv).Accounted lower fieldMap
      (records ++ more) := by
  induction more generalizing records csv with
  | nil =>
      rw [List.append_nil]
      exact h
  | cons raw more ih =>
      have hnext := ih (h.parseRecord raw)
      rw [List.length_append, List.length_singleton, List.append_assoc,
        List.singleton_append] at hnext
      exact hnext

end ContactsCsv.Accounted

/-- Every record of a file is a row or skipped, whatever the file. -/
theorem parseContactsCsv_accounted (lower : String → String) (lines : List (List String)) :
    (parseContactsCsv lower lines).Accounted lower (fieldMapOf lower (fieldnamesOf lines))
      (recordsOf lines) :=
  ContactsCsv.Accounted.empty.parseRecords (recordsOf lines)

end

end GovCrawler
