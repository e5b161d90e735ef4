/-
Comma-separated values: a writer that quotes what it has to, and a reader.

The writer quotes a field that has a delimiter, a quote or a newline in it, doubles the quotes
there, and ends each record with CRLF.  A record of one empty field is written as two quotes, since
nothing at all would read as a record without fields.

The reader takes a text character by character, and is told where each line ends besides.  It
refuses a field that is longer than a limit.

`read_write_iff`: what was written reads as it was, for every list of records whose fields keep to
the limit, and for no other.
-/
import Mathlib.Data.List.Basic
import Mathlib.Tactic.Basic

namespace Csv

abbrev Field : Type := List Char

abbrev Record : Type := List Field

def isNewline (c : Char) : Bool := c == '\n' || c == '\r'

structure Dialect where
  delimiter : Char
  quotechar : Char
  fieldSizeLimit : Nat
  apart : delimiter ≠ quotechar
  delimiter_line : isNewline delimiter = false
  quotechar_line : isNewline quotechar = false

namespace Dialect

variable (d : Dialect)

/-! ### Writing -/

def isSpecial (c : Char) : Bool := c == d.delimiter || c == d.quotechar || isNewline c

/-- The quotes of a field doubled. -/
def escape (field : Field) : List Char :=
  field.flatMap fun c => if c = d.quotechar then [c, c] else [c]

def quote (field : Field) : List Char := d.quotechar :: (d.escape field ++ [d.quotechar])

def writeField (field : Field) : List Char :=
  if field.any d.isSpecial then d.quote field else field

/-- The fields of a record from the second on. -/
def writeRest (record : Record) : List Char :=
  record.flatMap fun field => d.delimiter :: d.writeField field

def writeRecord : Record → List Char
  | [] => ['\r', '\n']
  | [[]] => d.quote [] ++ ['\r', '\n']
  | field :: record => d.writeField field ++ d.writeRest record ++ ['\r', '\n']

def write (records : List Record) : List Char := records.flatMap d.writeRecord

/-- No field is longer than the limit. -/
def Fits (record : Record) : Prop := ∀ field ∈ record, field.length ≤ d.fieldSizeLimit

instance (record : Record) : Decidable (d.Fits record) :=
  inferInstanceAs (Decidable (∀ field ∈ record, field.length ≤ d.fieldSizeLimit))

end Dialect

/-! ### Reading -/

inductive ReadError
  | fieldLargerThanLimit
  | newLineInUnquotedField
  deriving DecidableEq, Repr

inductive ReadState
  | startRecord
  | startField
  | inField
  | inQuotedField
  | quoteInQuotedField
  | eatCrnl
  deriving DecidableEq, Repr

structure Reader where
  state : ReadState := .startRecord
  field : Field := []
  fields : Record := []
  deriving DecidableEq, Repr

namespace Reader

variable (d : Dialect) (r : Reader)

def saveField (state : ReadState) : Reader := ⟨state, [], r.fields ++ [r.field]⟩

def addChar (c : Char) (state : ReadState) : Except ReadError Reader :=
  if r.field.length < d.fieldSizeLimit then .ok { r with field := r.field ++ [c], state }
  else .error .fieldLargerThanLimit

/-- A character where a field may start. -/
def expectField (c : Char) : Except ReadError Reader :=
  if isNewline c then .ok (r.saveField .eatCrnl)
  else if c = d.quotechar then .ok { r with state := .inQuotedField }
  else if c = d.delimiter then .ok (r.saveField .startField)
  else r.addChar d c .inField

def processChar (c : Char) : Except ReadError Reader :=
  match r.state with
  | .startRecord => if isNewline c then .ok { r with state := .eatCrnl } else r.expectField d c
  | .startField => r.expectField d c
  | .inField =>
      if isNewline c then .ok (r.saveField .eatCrnl)
      else if c = d.delimiter then .ok (r.saveField .startField)
      else r.addChar d c .inField
  | .inQuotedField =>
      if c = d.quotechar then .ok { r with state := .quoteInQuotedField }
      else r.addChar d c .inQuotedField
  | .quoteInQuotedField =>
      if c = d.quotechar then r.addChar d c .inQuotedField
      else if c = d.delimiter then .ok (r.saveField .startField)
      else if isNewline c then .ok (r.saveField .eatCrnl)
      else r.addChar d c .inField
  | .eatCrnl => if isNewline c then .ok r else .error .newLineInUnquotedField

/-- The line ends. -/
def processEol : Reader :=
  match r.state with
  | .startRecord => r
  | .startField => r.saveField .startRecord
  | .inField => r.saveField .startRecord
  | .inQuotedField => r
  | .quoteInQuotedField => r.saveField .startRecord
  | .eatCrnl => { r with state := .startRecord }

/-- The text ends.  Nothing has been read since the last record, or a quoted field is open, or the
last line has no newline. -/
def finish : List Record :=
  match r.state with
  | .startRecord => []
  | .inQuotedField => [(r.saveField .startRecord).fields]
  | _ => [r.processEol.fields]

end Reader

/-- The records of a text.  A line ends after each `\n`. -/
def readFrom (d : Dialect) (r : Reader) : List Char → Except ReadError (List Record)
  | [] => .ok r.finish
  | c :: text =>
      match r.processChar d c with
      | .error e => .error e
      | .ok r =>
          if c = '\n' then
            if r.processEol.state = .startRecord then
              (readFrom d {} text).map fun records => r.processEol.fields :: records
            else readFrom d r.processEol text
          else readFrom d r text

def read (d : Dialect) (text : List Char) : Except ReadError (List Record) := readFrom d {} text

/-! ### Reading what was written -/

section

variable {d : Dialect} {r r' : Reader} {c : Char} {text : List Char}

theorem readFrom_cons_of_ne (hc : c ≠ '\n') (h : r.processChar d c = .ok r') :
    readFrom d r (c :: text) = readFrom d r' text := by
  rw [readFrom, h]
  exact if_neg hc

theorem readFrom_cons_error {e : ReadError} (h : r.processChar d c = .error e) :
    readFrom d r (c :: text) = .error e := by
  rw [readFrom, h]

theorem delimiter_ne (d : Dialect) : d.delimiter ≠ '\n' := by
  intro h
  have hline := d.delimiter_line
  rw [h] at hline
  cases hline

theorem quotechar_ne (d : Dialect) : d.quotechar ≠ '\n' := by
  intro h
  have hline := d.quotechar_line
  rw [h] at hline
  cases hline

theorem addChar_of_lt {state : ReadState} (h : r.field.length < d.fieldSizeLimit) :
    r.addChar d c state = .ok { r with field := r.field ++ [c], state } := if_pos h

theorem addChar_of_le {state : ReadState} (h : d.fieldSizeLimit ≤ r.field.length) :
    r.addChar d c state = .error .fieldLargerThanLimit := if_neg (Nat.not_lt.mpr h)

section Char

variable {field : Field} {fields : Record}

theorem processChar_quote :
    Reader.processChar d ⟨.inQuotedField, field, fields⟩ d.quotechar =
      .ok ⟨.quoteInQuotedField, field, fields⟩ := if_pos rfl

theorem processChar_inQuoted (h : c ≠ d.quotechar) :
    Reader.processChar d ⟨.inQuotedField, field, fields⟩ c =
      Reader.addChar d ⟨.inQuotedField, field, fields⟩ c .inQuotedField := if_neg h

theorem processChar_quoteAgain :
    Reader.processChar d ⟨.quoteInQuotedField, field, fields⟩ d.quotechar =
      Reader.addChar d ⟨.quoteInQuotedField, field, fields⟩ d.quotechar .inQuotedField := if_pos rfl

theorem not_special (h : d.isSpecial c = false) :
    c ≠ d.delimiter ∧ c ≠ d.quotechar ∧ isNewline c = false := by
  simp only [Dialect.isSpecial, Bool.or_eq_false_iff, beq_eq_false_iff_ne] at h
  exact ⟨h.1.1, h.1.2, h.2⟩

theorem ne_of_not_special (h : d.isSpecial c = false) : c ≠ '\n' := by
  rintro rfl
  cases (not_special h).2.2

theorem processChar_inField (h : d.isSpecial c = false) :
    Reader.processChar d ⟨.inField, field, fields⟩ c =
      Reader.addChar d ⟨.inField, field, fields⟩ c .inField := by
  obtain ⟨hdelimiter, -, hline⟩ := not_special h
  unfold Reader.processChar
  dsimp only
  rw [hline, if_neg Bool.false_ne_true, if_neg hdelimiter]

/-- Within quotes a line may end. -/
theorem readFrom_inQuoted (h : Reader.processChar d r c = .ok ⟨.inQuotedField, field, fields⟩) :
    readFrom d r (c :: text) = readFrom d ⟨.inQuotedField, field, fields⟩ text := by
  rw [readFrom, h]
  dsimp only
  split <;> rfl

/-- A character within quotes. -/
theorem readFrom_escapeChar (c : Char) :
    readFrom d ⟨.inQuotedField, field, fields⟩
        ((if c = d.quotechar then [c, c] else [c]) ++ text) =
      if field.length < d.fieldSizeLimit then
        readFrom d ⟨.inQuotedField, field ++ [c], fields⟩ text
      else .error .fieldLargerThanLimit := by
  by_cases hquote : c = d.quotechar
  · subst hquote
    rw [if_pos rfl, List.cons_append, readFrom_cons_of_ne (quotechar_ne d) processChar_quote]
    by_cases hlt : field.length < d.fieldSizeLimit
    · rw [if_pos hlt]
      exact readFrom_inQuoted (processChar_quoteAgain.trans (addChar_of_lt hlt))
    · rw [if_neg hlt]
      exact readFrom_cons_error (processChar_quoteAgain.trans (addChar_of_le (Nat.not_lt.mp hlt)))
  · rw [if_neg hquote]
    by_cases hlt : field.length < d.fieldSizeLimit
    · rw [if_pos hlt]
      exact readFrom_inQuoted ((processChar_inQuoted hquote).trans (addChar_of_lt hlt))
    · rw [if_neg hlt]
      exact readFrom_cons_error
        ((processChar_inQuoted hquote).trans (addChar_of_le (Nat.not_lt.mp hlt)))

theorem readFrom_plainChar (h : d.isSpecial c = false) :
    readFrom d ⟨.inField, field, fields⟩ (c :: text) =
      if field.length < d.fieldSizeLimit then readFrom d ⟨.inField, field ++ [c], fields⟩ text
      else .error .fieldLargerThanLimit := by
  by_cases hlt : field.length < d.fieldSizeLimit
  · rw [if_pos hlt]
    exact readFrom_cons_of_ne (ne_of_not_special h)
      ((processChar_inField h).trans (addChar_of_lt hlt))
  · rw [if_neg hlt]
    exact readFrom_cons_error ((processChar_inField h).trans (addChar_of_le (Nat.not_lt.mp hlt)))

end Char

/-- A text that is read character by character into a field, as long as there is room. -/
theorem readFrom_body {state : ReadState} {fields : Record} {encode : Char → List Char}
    (body field : Field) (hfield : field.length ≤ d.fieldSizeLimit)
    (hchar : ∀ c ∈ body, ∀ field text,
      readFrom d ⟨state, field, fields⟩ (encode c ++ text) =
        if field.length < d.fieldSizeLimit then readFrom d ⟨state, field ++ [c], fields⟩ text
        else .error .fieldLargerThanLimit) :
    readFrom d ⟨state, field, fields⟩ (body.flatMap encode ++ text) =
      if field.length + body.length ≤ d.fieldSizeLimit then
        readFrom d ⟨state, field ++ body, fields⟩ text
      else .error .fieldLargerThanLimit := by
  induction body generalizing field with
  | nil =>
      rw [List.append_nil, List.length_nil, Nat.add_zero, if_pos hfield]
      rfl
  | cons c body ih =>
      rw [List.flatMap_cons, List.append_assoc, hchar c List.mem_cons_self, List.length_cons]
      by_cases hlt : field.length < d.fieldSizeLimit
      · have hlength : (field ++ [c]).length = field.length + 1 := by
          rw [List.length_append, List.length_singleton]
        rw [if_pos hlt,
          ih (field ++ [c]) (by omega) fun c hc => hchar c (List.mem_cons_of_mem _ hc), hlength, List.append_assoc, List.singleton_append, Nat.add_assoc, Nat.add_comm 1]
      · rw [if_neg hlt, if_neg (by omega)]

/-! ### Fields -/

section Fields

variable {state : ReadState} {field : Field} {fields : Record}

/-- Where a field may start. -/
def ReadState.Starts (state : ReadState) : Prop := state = .startRecord ∨ state = .startField

/-- Where a field may end, at the end of its record too. -/
def ReadState.Ends (state : ReadState) : Prop :=
  state = .startField ∨ state = .inField ∨ state = .quoteInQuotedField

theorem processChar_start (h : state.Starts) (hline : isNewline c = false) :
    Reader.processChar d ⟨state, field, fields⟩ c =
      Reader.expectField d ⟨state, field, fields⟩ c := by
  rcases h with rfl | rfl
  · unfold Reader.processChar
    dsimp only
    rw [hline, if_neg Bool.false_ne_true]
  · rfl

theorem readFrom_quote (h : state.Starts) :
    readFrom d ⟨state, [], fields⟩ (d.quote field ++ text) =
      if field.length ≤ d.fieldSizeLimit then readFrom d ⟨.quoteInQuotedField, field, fields⟩ text
      else .error .fieldLargerThanLimit := by
  have hopen : Reader.processChar d ⟨state, [], fields⟩ d.quotechar =
      .ok ⟨.inQuotedField, [], fields⟩ := by
    rw [processChar_start h d.quotechar_line]
    unfold Reader.expectField
    rw [d.quotechar_line, if_neg Bool.false_ne_true, if_pos rfl]
  have hbody : readFrom d ⟨.inQuotedField, [], fields⟩ (d.escape field ++ d.quotechar :: text) =
      if [].length + field.length ≤ d.fieldSizeLimit then
        readFrom d ⟨.inQuotedField, [] ++ field, fields⟩ (d.quotechar :: text)
      else .error .fieldLargerThanLimit :=
    readFrom_body field [] (Nat.zero_le _) fun c _ _ _ => readFrom_escapeChar c
  unfold Dialect.quote
  rw [List.cons_append, List.append_assoc, List.singleton_append,
    readFrom_cons_of_ne (quotechar_ne d) hopen, hbody, List.length_nil, Nat.zero_add,
    List.nil_append, readFrom_cons_of_ne (quotechar_ne d) processChar_quote]

theorem readFrom_unquoted (h : state.Starts) (hne : field ≠ [])
    (hplain : ∀ c ∈ field, d.isSpecial c = false) :
    readFrom d ⟨state, [], fields⟩ (field ++ text) =
      if field.length ≤ d.fieldSizeLimit then readFrom d ⟨.inField, field, fields⟩ text
      else .error .fieldLargerThanLimit := by
  obtain ⟨c, body, rfl⟩ := List.exists_cons_of_ne_nil hne
  have hc := hplain c List.mem_cons_self
  obtain ⟨hdelimiter, hquote, hline⟩ := not_special hc
  have hfirst : Reader.processChar d ⟨state, [], fields⟩ c =
      Reader.addChar d ⟨state, [], fields⟩ c .inField := by
    rw [processChar_start h hline]
    unfold Reader.expectField
    rw [hline, if_neg Bool.false_ne_true, if_neg hquote, if_neg hdelimiter]
  rw [List.cons_append, List.length_cons]
  by_cases hpos : 0 < d.fieldSizeLimit
  · have hbody : readFrom d ⟨.inField, [c], fields⟩ (body.flatMap (fun c => [c]) ++ text) =
        if [c].length + body.length ≤ d.fieldSizeLimit then
          readFrom d ⟨.inField, [c] ++ body, fields⟩ text
        else .error .fieldLargerThanLimit :=
      readFrom_body body [c] hpos
        fun c hc _ _ => readFrom_plainChar (hplain c (List.mem_cons_of_mem _ hc))
    rw [List.flatMap_singleton', List.length_singleton, Nat.add_comm 1,
      List.singleton_append] at hbody
    rw [readFrom_cons_of_ne (ne_of_not_special hc) (hfirst.trans (addChar_of_lt hpos))]
    exact hbody
  · rw [if_neg (by omega)]
    exact readFrom_cons_error (hfirst.trans (addChar_of_le (Nat.not_lt.mp hpos)))

/-- Where the reader is after a field that was written. -/
def Dialect.afterField (d : Dialect) (state : ReadState) (field : Field) : ReadState :=
  if field.any d.isSpecial then .quoteInQuotedField else if field = [] then state else .inField

theorem readFrom_writeField (h : state.Starts) :
    readFrom d ⟨state, [], fields⟩ (d.writeField field ++ text) =
      if field.length ≤ d.fieldSizeLimit then
        readFrom d ⟨d.afterField state field, field, fields⟩ text
      else .error .fieldLargerThanLimit := by
  unfold Dialect.writeField Dialect.afterField
  by_cases hspecial : field.any d.isSpecial = true
  · rw [if_pos hspecial, if_pos hspecial]
    exact readFrom_quote h
  · rw [if_neg hspecial, if_neg hspecial]
    by_cases hnil : field = []
    · subst hnil
      rw [if_pos rfl, List.length_nil, if_pos (Nat.zero_le _)]
      rfl
    · rw [if_neg hnil]
      refine readFrom_unquoted h hnil fun c hc => Bool.eq_false_iff.mpr fun hs => hspecial ?_
      exact List.any_eq_true.mpr ⟨c, hc, hs⟩

theorem readFrom_delimiter (h : state.Starts ∨ state.Ends) :
    readFrom d ⟨state, field, fields⟩ (d.delimiter :: text) =
      readFrom d ⟨.startField, [], fields ++ [field]⟩ text := by
  refine readFrom_cons_of_ne (delimiter_ne d) ?_
  have hstart : Reader.expectField d ⟨state, field, fields⟩ d.delimiter =
      .ok ⟨.startField, [], fields ++ [field]⟩ := by
    unfold Reader.expectField
    rw [d.delimiter_line, if_neg Bool.false_ne_true, if_neg d.apart, if_pos rfl]
    rfl
  rcases h with hstarts | rfl | rfl | rfl
  · exact (processChar_start hstarts d.delimiter_line).trans hstart
  · exact hstart
  · unfold Reader.processChar
    dsimp only
    rw [d.delimiter_line, if_neg Bool.false_ne_true, if_pos rfl]
    rfl
  · unfold Reader.processChar
    dsimp only
    rw [if_neg d.apart, if_pos rfl]
    rfl

/-- CRLF, where it has been decided what the record is. -/
theorem readFrom_eatCrnl :
    readFrom d ⟨.eatCrnl, [], fields⟩ ('\n' :: text) =
      (readFrom d {} text).map fun records => fields :: records := rfl

theorem readFrom_crlf (h : state.Ends) :
    readFrom d ⟨state, field, fields⟩ ('\r' :: '\n' :: text) =
      (readFrom d {} text).map fun records => (fields ++ [field]) :: records := by
  have hsave : Reader.processChar d ⟨state, field, fields⟩ '\r' =
      .ok ⟨.eatCrnl, [], fields ++ [field]⟩ := by
    rcases h with rfl | rfl | rfl
    · rfl
    · rfl
    · have hquote : '\r' ≠ d.quotechar := by
        intro heq
        have hline := d.quotechar_line
        rw [← heq] at hline
        cases hline
      have hdelimiter : '\r' ≠ d.delimiter := by
        intro heq
        have hline := d.delimiter_line
        rw [← heq] at hline
        cases hline
      unfold Reader.processChar
      dsimp only
      rw [if_neg hquote, if_neg hdelimiter]
      rfl
  rw [readFrom_cons_of_ne (by decide) hsave, readFrom_eatCrnl]

end Fields

/-! ### Records -/

theorem fits_nil : d.Fits [] := fun _ h => absurd h List.not_mem_nil

theorem ends_afterField {state : ReadState} {field : Field} (h : state = .startField ∨ field ≠ []) :
    (d.afterField state field).Ends := by
  unfold Dialect.afterField
  split
  · exact Or.inr (Or.inr rfl)
  · split
    · rename_i hnil
      rcases h with rfl | hne
      · exact Or.inl rfl
      · exact absurd hnil hne
    · exact Or.inr (Or.inl rfl)

/-- The rest of a record, and its end. -/
theorem readFrom_writeRest {state : ReadState} (h : state.Ends) (record : Record) (field : Field)
    (fields : Record) :
    readFrom d ⟨state, field, fields⟩ (d.writeRest record ++ '\r' :: '\n' :: text) =
      if d.Fits record then
        (readFrom d {} text).map fun records => (fields ++ field :: record) :: records
      else .error .fieldLargerThanLimit := by
  induction record generalizing state field fields with
  | nil =>
      rw [if_pos fits_nil]
      exact readFrom_crlf h
  | cons next record ih =>
      have htext : d.writeRest (next :: record) ++ '\r' :: '\n' :: text =
          d.delimiter :: (d.writeField next ++ (d.writeRest record ++ '\r' :: '\n' :: text)) := by
        unfold Dialect.writeRest
        rw [List.flatMap_cons, List.append_assoc, List.cons_append]
      have hfits : d.Fits (next :: record) ↔ next.length ≤ d.fieldSizeLimit ∧ d.Fits record :=
        List.forall_mem_cons
      rw [htext, readFrom_delimiter (Or.inr h), readFrom_writeField (Or.inr rfl),
        ih (ends_afterField (Or.inl rfl)), List.append_assoc, List.singleton_append]
      by_cases hnext : next.length ≤ d.fieldSizeLimit
      · rw [if_pos hnext]
        by_cases hrest : d.Fits record
        · rw [if_pos hrest, if_pos (hfits.mpr ⟨hnext, hrest⟩)]
        · rw [if_neg hrest, if_neg fun hall => hrest (hfits.mp hall).2]
      · rw [if_neg hnext, if_neg fun hall => hnext (hfits.mp hall).1]

/-- **One record.** -/
theorem readFrom_writeRecord (record : Record) :
    readFrom d {} (d.writeRecord record ++ text) =
      if d.Fits record then (readFrom d {} text).map fun records => record :: records
      else .error .fieldLargerThanLimit := by
  match record with
  | [] =>
      rw [if_pos fits_nil]
      rfl
  | [[]] =>
      have hfits : d.Fits [[]] := fun field h => by
        rw [List.mem_singleton.mp h]
        exact Nat.zero_le _
      show readFrom d ⟨.startRecord, [], []⟩ (d.quote [] ++ ['\r', '\n'] ++ text) = _
      rw [List.append_assoc, readFrom_quote (Or.inl rfl), List.length_nil, if_pos (Nat.zero_le _),
        if_pos hfits]
      exact readFrom_crlf (Or.inr (Or.inr rfl))
  | [] :: next :: record =>
      have hskip : readFrom d ⟨.startRecord, [], []⟩
          (d.writeRest (next :: record) ++ '\r' :: '\n' :: text) =
          readFrom d ⟨.startField, [], []⟩
            (d.writeRest (next :: record) ++ '\r' :: '\n' :: text) :=
        (readFrom_delimiter (Or.inl (Or.inl rfl))).trans
          (readFrom_delimiter (Or.inl (Or.inr rfl))).symm
      show readFrom d ⟨.startRecord, [], []⟩ (d.writeField [] ++ d.writeRest (next :: record) ++
        ['\r', '\n'] ++ text) = _
      rw [List.append_assoc, List.append_assoc]
      refine hskip.trans ((readFrom_writeRest (Or.inl rfl) _ _ _).trans ?_)
      have hfits : d.Fits ([] :: next :: record) ↔ d.Fits (next :: record) :=
        List.forall_mem_cons.trans (and_iff_right (Nat.zero_le _))
      rw [List.nil_append]
      exact if_congr hfits.symm rfl rfl
  | (c :: field) :: record =>
      show readFrom d ⟨.startRecord, [], []⟩ (d.writeField (c :: field) ++ d.writeRest record ++
        ['\r', '\n'] ++ text) = _
      rw [List.append_assoc, List.append_assoc, readFrom_writeField (Or.inl rfl)]
      have hends : (d.afterField .startRecord (c :: field)).Ends :=
        ends_afterField (Or.inr (List.cons_ne_nil c field))
      have hfits : d.Fits ((c :: field) :: record) ↔
          (c :: field).length ≤ d.fieldSizeLimit ∧ d.Fits record := List.forall_mem_cons
      by_cases hfield : (c :: field).length ≤ d.fieldSizeLimit
      · rw [if_pos hfield]
        refine (readFrom_writeRest hends record _ []).trans (if_congr ?_ rfl rfl)
        rw [hfits, and_iff_right hfield]
      · rw [if_neg hfield, if_neg fun hall => hfield (hfits.mp hall).1]

/-- What was written is read, or it has a field that is too long. -/
theorem read_write (d : Dialect) (records : List Record) :
    read d (d.write records) =
      if ∀ record ∈ records, d.Fits record then .ok records
      else .error .fieldLargerThanLimit := by
  unfold read Dialect.write
  induction records with
  | nil => rfl
  | cons record records ih =>
      have hfits : (∀ r ∈ record :: records, d.Fits r) ↔
          d.Fits record ∧ ∀ r ∈ records, d.Fits r := List.forall_mem_cons
      rw [List.flatMap_cons, readFrom_writeRecord, ih]
      by_cases hrecord : d.Fits record
      · rw [if_pos hrecord]
        by_cases hrest : ∀ r ∈ records, d.Fits r
        · rw [if_pos hrest, if_pos (hfits.mpr ⟨hrecord, hrest⟩)]
          rfl
        · rw [if_neg hrest, if_neg fun hall => hrest (hfits.mp hall).2]
          rfl
      · rw [if_neg hrecord, if_neg fun hall => hrecord (hfits.mp hall).1]

/-- **Round trip.** -/
theorem read_write_iff (d : Dialect) (records : List Record) :
    read d (d.write records) = .ok records ↔ ∀ record ∈ records, d.Fits record := by
  rw [read_write]
  constructor
  · intro h
    by_contra hnot
    rw [if_neg hnot] at h
    cases h
  · intro h
    exact if_pos h

end

end Csv
