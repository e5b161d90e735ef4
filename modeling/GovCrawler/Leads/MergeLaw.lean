/-
What the shared pool keeps of a lead, after any number of captures.

The first capture of an email inserts its lead and every later one enriches it: each field is
the first value that was worth anything, the band is the best there was, and each job that
captured it has one occurrence.  `MergeLaw` says that of the captures as a list, and no
capture that finds the lead can break it.

The first one can fail.  `_department_is_url_fallback` takes whatever JSON there is for a
dictionary, and raises where it is not, so that there is no lead.
-/
import Mathlib.Data.Int.Order.Basic
import GovCrawler.Leads.Redelivery
import GovCrawler.Leads.Rescoring
import GovCrawler.Lib.Merging

namespace GovCrawler

open Merging Relational StoreProgram Prog

/-! ### Captures and their law -/

/-- A call of `save_lead`. -/
structure Capture where
  jobId : Nat
  capturedBy : Option Nat
  item : LeadItem
  deriving DecidableEq, Repr

/-- It is a capture of the email, for a job that there is. -/
structure Capture.Of (rules : LeadRules) (db : LeadsDb) (email : String) (c : Capture) : Prop where
  keywords : c.item.unexpected = []
  given : truthy c.item.email = true
  email : storedEmail rules c.item = email
  job : (db.jobs.get? c.jobId).isSome = true

/-- The capture is saved, and the database answers. -/
def Capture.save (rules : LeadRules) (db : LeadsDb) (c : Capture) : LeadsDb :=
  (saveLead rules c.jobId c.capturedBy c.item db []).2.1

def saveAll (rules : LeadRules) (db : LeadsDb) (captures : List Capture) : LeadsDb :=
  captures.foldl (Capture.save rules) db

/-- `_ENRICHABLE_FIELDS`. -/
inductive EnrichableField
  | personName | designation | department | sourceTitle | contextSnippet | phone | entityKind
  deriving DecidableEq, Repr

def EnrichableField.ofItem (item : LeadItem) : EnrichableField → Option String
  | .personName => item.personName
  | .designation => item.designation
  | .department => item.department
  | .sourceTitle => item.sourceTitle
  | .contextSnippet => item.contextSnippet
  | .phone => item.phone
  | .entityKind => item.entityKind

def EnrichableField.ofLead (lead : Lead) : EnrichableField → Option String
  | .personName => lead.personName
  | .designation => lead.designation
  | .department => lead.department
  | .sourceTitle => lead.sourceTitle
  | .contextSnippet => lead.contextSnippet
  | .phone => lead.phone
  | .entityKind => lead.entityKind

/-- The department of a first capture: the title of the snapshot, if it has one, takes the
place of a department that is only the URL's. -/
def givenDepartment (rules : LeadRules) (db : LeadsDb) (snapshotId : Option Nat) (item : LeadItem) :
    Option String :=
  match snapshotId, departmentIsUrlFallback rules item.fieldProvenance with
  | some k, .ok true =>
      let title := (db.snapshots.get? k).bind fun s => s.title
      if truthy title then title else item.department
  | _, _ => item.department

/-- What a first capture gives for a field. -/
def EnrichableField.given (rules : LeadRules) (db : LeadsDb) (snapshotId : Option Nat)
    (item : LeadItem) (field : EnrichableField) : Option String :=
  if field = .department then givenDepartment rules db snapshotId item else field.ofItem item

/-- The occurrences of a lead in a job. -/
def LeadsDb.captures (db : LeadsDb) (leadId jobId : Nat) : Nat :=
  db.occurrences.count fun o => o.leadId == leadId && o.jobId == jobId

/-- The lead is all that there is of the captures `first :: rest`. -/
structure Merged (rules : LeadRules) (email : String) (first : Capture) (rest : List Capture)
    (db : LeadsDb) (lead : Lead) : Prop where
  only : (db.leads.select fun l => l.email == email) = [lead]
  fields : ∀ field : EnrichableField, HoldsFirst truthy
    (field.given rules db lead.snapshotId first.item :: rest.map fun c => field.ofItem c.item)
    (field.ofLead lead)
  band : HoldsBest bandRank ((first :: rest).map fun c => c.item.confidenceBand)
    lead.confidenceBand
  captures : ∀ jobId, db.captures lead.id jobId =
    if jobId ∈ (first :: rest).map Capture.jobId then 1 else 0
  score : lead.Coherent rules.weights

/-- The law of the pool. -/
def MergeLaw (rules : LeadRules) (email : String) (first : Capture) (rest : List Capture)
    (db : LeadsDb) : Prop :=
  ∃ lead, Merged rules email first rest db lead

/-! ### An occurrence -/

section Steps

variable {rules : LeadRules} {jobId : Nat} {capturedBy : Option Nat} {item : LeadItem}
  {email : String} {db : LeadsDb}

/-- What `_record_occurrence` leaves. -/
def LeadsDb.recorded (db : LeadsDb) (leadId jobId : Nat) (sourceUrl : String)
    (capturedBy : Option Nat) : LeadsDb :=
  match addOccurrence leadId jobId sourceUrl capturedBy db with
  | some (_, db') => db'
  | none => db

theorem recordOccurrence_run (leadId : Nat) (sourceUrl : String) :
    recordOccurrence leadId jobId sourceUrl capturedBy db [] =
      (.ok (), db.recorded leadId jobId sourceUrl capturedBy, []) := by
  unfold recordOccurrence exceptIntegrity insertOr LeadsDb.recorded
  rw [tryExcept_apply, bind_apply, bind_apply, call_quiet quiet_nil]
  unfold attempt
  cases addOccurrence leadId jobId sourceUrl capturedBy db with
  | none => rfl
  | some r => rfl

theorem recorded_eq (db : LeadsDb) (leadId jobId : Nat) (sourceUrl : String)
    (capturedBy : Option Nat) :
    ∃ occurrences, db.recorded leadId jobId sourceUrl capturedBy =
      { db with occurrences := occurrences } := by
  unfold LeadsDb.recorded
  cases hadd : addOccurrence leadId jobId sourceUrl capturedBy db with
  | none => exact ⟨db.occurrences, rfl⟩
  | some r => exact ⟨_, addOccurrence_eq hadd⟩

/-- An occurrence is recorded once, and touches nothing else. -/
theorem recorded_effect (db : LeadsDb) {leadId jobId : Nat}
    (hlead : (db.leads.get? leadId).isSome = true) (hjob : (db.jobs.get? jobId).isSome = true)
    (sourceUrl : String) (capturedBy : Option Nat) :
    (∃ occurrences, db.recorded leadId jobId sourceUrl capturedBy =
        { db with occurrences := occurrences }) ∧
      ∀ k j, (db.recorded leadId jobId sourceUrl capturedBy).captures k j =
        if k = leadId ∧ j = jobId then max 1 (db.captures k j) else db.captures k j := by
  refine ⟨recorded_eq db leadId jobId sourceUrl capturedBy, fun k j => ?_⟩
  unfold LeadsDb.recorded
  cases hadd : addOccurrence leadId jobId sourceUrl capturedBy db with
  | none =>
      dsimp only
      split
      · rename_i hkj
        obtain ⟨rfl, rfl⟩ := hkj
        -- it is refused because it is there
        have hfound : (db.findOccurrence k j).isSome = true := by
          rcases recorded_of_refused hlead hadd with hfound | hnone
          · exact hfound
          · rw [hnone] at hjob
            cases hjob
        obtain ⟨o, ho⟩ := Option.isSome_iff_exists.mp hfound
        obtain ⟨hown, hget⟩ := Table.first?_spec ho
        have hpos : 0 < db.captures k j :=
          List.length_pos_of_mem (List.mem_filter.mpr ⟨Table.get?_mem hget, hown⟩)
        omega
      · rfl
  | some r =>
      obtain ⟨id, db'⟩ := r
      have hnone : db.captures leadId jobId = 0 := by
        unfold addOccurrence at hadd
        split at hadd
        · rename_i hguard
          simp only [Bool.and_eq_true, Option.isNone_iff_eq_none] at hguard
          have hfind := List.find?_eq_none.mp hguard.1.1
          exact List.length_eq_zero_iff.mpr (List.filter_eq_nil_iff.mpr hfind)
        · cases hadd
      obtain rfl := addOccurrence_eq hadd
      show ((db.occurrences.rows ++ [_]).filter _).length = _
      rw [List.filter_append, List.length_append]
      have hold : (db.occurrences.rows.filter fun o => o.leadId == k && o.jobId == j).length =
          db.captures k j := rfl
      rw [hold]
      by_cases hkj : k = leadId ∧ j = jobId
      · obtain ⟨rfl, rfl⟩ := hkj
        rw [if_pos ⟨rfl, rfl⟩, hnone]
        simp
      · have hother : ¬(leadId = k ∧ jobId = j) := fun h => hkj ⟨h.1.symm, h.2.symm⟩
        rw [if_neg hkj]
        simpa using hother

/-! ### A capture that finds the lead -/

/-- The lead after a capture that has found it. -/
def Lead.captured (weights : ScoreWeights) (item : LeadItem) (lead : Lead) : Lead :=
  if changes lead item then lead.enrich weights item else lead

theorem fill_of_not_fills {existing value : Option String} (h : fills existing value = false) :
    fill existing value = existing := by
  unfold fill
  rw [h]
  rfl

/-- Every field is filled, whether or not anything is written. -/
theorem ofLead_captured (weights : ScoreWeights) (item : LeadItem) (lead : Lead)
    (field : EnrichableField) :
    field.ofLead (lead.captured weights item) =
      fill (field.ofLead lead) (field.ofItem item) := by
  unfold Lead.captured
  by_cases hchanges : changes lead item = true
  · rw [if_pos hchanges]
    cases field <;> rfl
  · rw [if_neg hchanges]
    obtain ⟨⟨hname, hdesignation, hdepartment, htitle, hsnippet, hphone, hkind⟩, -⟩ :=
      changes_eq_false_iff.mp (Bool.eq_false_iff.mpr hchanges)
    refine (fill_of_not_fills ?_).symm
    cases field with
    | personName => exact hname
    | designation => exact hdesignation
    | department => exact hdepartment
    | sourceTitle => exact htitle
    | contextSnippet => exact hsnippet
    | phone => exact hphone
    | entityKind => exact hkind

/-- A band that is better than another is one. -/
theorem truthy_of_bandRank_lt {band band' : Option String} (h : bandRank band < bandRank band') :
    truthy band' = true := by
  have hlow : -1 ≤ bandRank band := by
    unfold bandRank
    split <;> decide
  unfold bandRank at h hlow
  split at h <;> split at h <;> first | rfl | omega

theorem confidenceBand_captured (weights : ScoreWeights) (item : LeadItem) (lead : Lead) :
    (lead.captured weights item).confidenceBand =
      if bandRank lead.confidenceBand < bandRank item.confidenceBand then item.confidenceBand
      else lead.confidenceBand := by
  have hupgrades : upgrades lead item =
      decide (bandRank lead.confidenceBand < bandRank item.confidenceBand) := by
    unfold upgrades
    by_cases hlt : bandRank lead.confidenceBand < bandRank item.confidenceBand
    · rw [truthy_of_bandRank_lt hlt, Bool.true_and]
    · simp [hlt]
  unfold Lead.captured
  by_cases hchanges : changes lead item = true
  · rw [if_pos hchanges]
    show (if upgrades lead item = true then _ else _) = _
    rw [hupgrades]
    simp only [decide_eq_true_eq]
  · obtain ⟨-, hband⟩ := changes_eq_false_iff.mp (Bool.eq_false_iff.mpr hchanges)
    rw [if_neg hchanges]
    rw [hupgrades, decide_eq_false_iff_not] at hband
    rw [if_neg hband]

/-- The lead of a capture is written, if it changes. -/
theorem commitChanges_run (rules : LeadRules) (item : LeadItem) (db : LeadsDb) (lead : Lead) :
    ∃ leads, commitChanges rules item lead db [] = (.ok (), { db with leads := leads }, []) ∧
      leads.rows = db.leads.rows.map fun l =>
        if l.id = lead.id ∧ changes lead item = true then l.enrich rules.weights item else l := by
  unfold commitChanges
  by_cases hchanges : changes lead item = true
  · rw [if_pos hchanges]
    refine ⟨_, call_quiet quiet_nil, List.map_congr_left fun l _ => ?_⟩
    simp only [beq_iff_eq, hchanges, and_true]
  · rw [if_neg hchanges]
    refine ⟨db.leads, rfl, ?_⟩
    rw [eq_comm, List.map_congr_left (g := id), List.map_id]
    intro l _
    rw [if_neg fun h => hchanges h.2]
    rfl

/-- What a capture leaves that finds the only lead. -/
theorem save_of_only {c : Capture} (hc : c.Of rules db email) {lead : Lead}
    (honly : (db.leads.select fun l => l.email == email) = [lead]) :
    ∃ leads, c.save rules db =
        LeadsDb.recorded { db with leads := leads } lead.id c.jobId c.item.sourceUrl c.capturedBy ∧
      (leads.select fun l => l.email == email) = [lead.captured rules.weights c.item] := by
  have hfind : db.findLead email = some lead := by
    show db.leads.rows.find? _ = _
    rw [← List.head?_filter]
    exact congrArg List.head? honly
  obtain ⟨leads, hcommit, hrows⟩ := commitChanges_run rules c.item db lead
  refine ⟨leads, ?_, ?_⟩
  · unfold Capture.save
    rw [saveLead_eq hc.keywords hc.given, hc.email]
    unfold saveEmail
    rw [bind_apply, read_quiet quiet_nil, hfind]
    show (enrichLead rules c.jobId c.capturedBy c.item lead db []).2.1 = _
    unfold enrichLead
    rw [bind_apply, hcommit]
    dsimp only
    rw [bind_apply, recordOccurrence_run]
    rfl
  · show leads.rows.filter _ = _
    have hemail : (fun l => l.email == email) ∘ (fun l : Lead =>
        if l.id = lead.id ∧ changes lead c.item = true then l.enrich rules.weights c.item else l) =
        fun l => l.email == email := by
      funext l
      show ((if _ then _ else l : Lead).email == email) = _
      split <;> rfl
    have honly : (db.leads.rows.filter fun l => l.email == email) = [lead] := honly
    rw [hrows, List.filter_map, hemail, honly, List.map_singleton]
    unfold Lead.captured
    simp only [true_and]

theorem snapshotId_captured (weights : ScoreWeights) (item : LeadItem) (lead : Lead) :
    (lead.captured weights item).snapshotId = lead.snapshotId := by
  unfold Lead.captured
  split <;> rfl

theorem id_captured (weights : ScoreWeights) (item : LeadItem) (lead : Lead) :
    (lead.captured weights item).id = lead.id := by
  unfold Lead.captured
  split <;> rfl

theorem Lead.Coherent.captured {weights : ScoreWeights} {lead : Lead} (h : lead.Coherent weights)
    (item : LeadItem) : (lead.captured weights item).Coherent weights := by
  unfold Lead.captured
  split
  · rfl
  · exact h

/-- **A further capture** is merged into the lead. -/
theorem Merged.save {first : Capture} {rest : List Capture} {lead : Lead}
    (h : Merged rules email first rest db lead) {c : Capture} (hc : c.Of rules db email) :
    Merged rules email first (rest ++ [c]) (c.save rules db)
      (lead.captured rules.weights c.item) := by
  obtain ⟨leads, hsave, honly⟩ := save_of_only hc h.only
  have hthere : (leads.get? lead.id).isSome = true := by
    have hmem : lead.captured rules.weights c.item ∈ leads.rows :=
      List.mem_of_mem_filter (honly ▸ List.mem_singleton.mpr rfl)
    have hget := Table.get?_of_mem hmem
    have hkey : Keyed.key (lead.captured rules.weights c.item) = lead.id := id_captured ..
    rw [← hkey, hget]
    rfl
  obtain ⟨⟨occurrences, heq⟩, hcaptures⟩ := recorded_effect
    { db with leads := leads } hthere hc.job c.item.sourceUrl c.capturedBy
  rw [← hsave] at heq hcaptures
  refine ⟨?_, fun field => ?_, ?_, fun j => ?_, h.score.captured c.item⟩
  · rw [heq]
    exact honly
  · have hgiven : field.given rules (c.save rules db)
        (lead.captured rules.weights c.item).snapshotId first.item =
        field.given rules db lead.snapshotId first.item := by
      rw [heq, snapshotId_captured]
      rfl
    rw [hgiven, ofLead_captured, List.map_append, ← List.cons_append]
    exact (h.fields field).append (field.ofItem c.item)
  · rw [confidenceBand_captured, ← List.cons_append, List.map_append]
    exact @HoldsBest.append _ Int _ bandRank _ _ h.band c.item.confidenceBand
  · have hcount : LeadsDb.captures { db with leads := leads } lead.id j = db.captures lead.id j := rfl
    rw [id_captured, hcaptures, hcount, h.captures j, ← List.cons_append, List.map_append,
      List.map_singleton]
    by_cases hj : j = c.jobId
    · rw [if_pos ⟨rfl, hj⟩, if_pos (List.mem_append_right _ (List.mem_singleton.mpr hj))]
      split <;> rfl
    · rw [if_neg fun h => hj h.2]
      have hmem : (j ∈ (first :: rest).map Capture.jobId ++ [c.jobId]) ↔
          j ∈ (first :: rest).map Capture.jobId := by
        rw [List.mem_append]
        exact or_iff_left fun h => hj (List.mem_singleton.mp h)
      rw [if_congr hmem rfl rfl]

/-! ### The first capture -/

theorem departmentFor_run {snapshotId : Option Nat}
    (hreads : snapshotId.isSome = true →
      (departmentIsUrlFallback rules item.fieldProvenance).toBool = true) :
    departmentFor rules item snapshotId db [] =
      (.ok (givenDepartment rules db snapshotId item), db, []) := by
  cases snapshotId with
  | none => rfl
  | some k =>
      unfold departmentFor givenDepartment
      cases hfallback : departmentIsUrlFallback rules item.fieldProvenance with
      | error e =>
          have hreads := hreads rfl
          rw [hfallback] at hreads
          cases hreads
      | ok fallback =>
          cases fallback with
          | true => rfl
          | false => rfl

/-- Nothing refers to a lead that is not there. -/
theorem captures_nextKey (hrefs : ∀ o ∈ db.occurrences.rows, (db.leads.get? o.leadId).isSome = true)
    (j : Nat) : db.captures db.leads.nextKey j = 0 := by
  refine List.length_eq_zero_iff.mpr (List.filter_eq_nil_iff.mpr fun o ho hown => ?_)
  simp only [Bool.and_eq_true, beq_iff_eq] at hown
  have hthere := hrefs o ho
  rw [hown.1, Table.get?_of_nextKey_le (Nat.le_refl _)] at hthere
  cases hthere

/-- What the insert of a lead leaves, with its occurrence. -/
theorem insertLead_run (rules : LeadRules) (c : Capture) {db : LeadsDb} {email : String}
    {snapshotId : Option Nat} (department : Option String)
    (hjob : (db.jobs.get? c.jobId).isSome = true) (hnew : db.hasEmail email = false)
    (hrefers : db.refersToSnapshot snapshotId = true) :
    exceptIntegrity (do
        let id ← insertOr (addLead rules c.jobId c.item email snapshotId department)
        recordOccurrence id c.jobId c.item.sourceUrl c.capturedBy
        pure true) (pure false) db [] =
      (.ok true, LeadsDb.recorded { db with
        leads := db.leads.insertNew (newLead rules c.jobId c.item email snapshotId department)
          (by intro _; rfl) } db.leads.nextKey c.jobId c.item.sourceUrl c.capturedBy, []) := by
  have hadd : addLead rules c.jobId c.item email snapshotId department db =
      some (db.leads.nextKey, { db with
        leads := db.leads.insertNew (newLead rules c.jobId c.item email snapshotId department)
          (by intro _; rfl) }) := by
    unfold addLead
    rw [hnew, hjob, hrefers]
    rfl
  have hinsert := (insertOr_takes hadd).runs [] (by simp)
  rw [List.drop_nil] at hinsert
  unfold exceptIntegrity
  rw [tryExcept_apply, bind_apply, hinsert]
  dsimp only
  rw [bind_apply, recordOccurrence_run]
  rfl

/-- What a capture leaves that finds no lead, once it is attributed. -/
theorem save_of_attribute {c : Capture} (hc : c.Of rules db email) (hnew : db.hasEmail email = false)
    {snapshotId : Option Nat} {db' : LeadsDb}
    (hattribute : attributeLead rules c.jobId c.item db [] = (.ok snapshotId, db', []))
    (hleads : db'.leads = db.leads) (hjobs : db'.jobs = db.jobs)
    (hrefers : db'.refersToSnapshot snapshotId = true)
    (hreads : snapshotId.isSome = true →
      (departmentIsUrlFallback rules c.item.fieldProvenance).toBool = true) :
    c.save rules db = LeadsDb.recorded { db' with
      leads := db'.leads.insertNew (newLead rules c.jobId c.item email snapshotId
        (givenDepartment rules db' snapshotId c.item)) (by intro _; rfl) }
      db'.leads.nextKey c.jobId c.item.sourceUrl c.capturedBy := by
  have hnew' : db'.hasEmail email = false := (hasEmail_congr hleads).trans hnew
  have hjob' : (db'.jobs.get? c.jobId).isSome = true := hjobs ▸ hc.job
  have hfind : db.findLead email = none := Option.not_isSome_iff_eq_none.mp
    (Bool.eq_false_iff.mp hnew)
  unfold Capture.save
  rw [saveLead_eq hc.keywords hc.given, hc.email]
  unfold saveEmail
  rw [bind_apply, read_quiet quiet_nil, hfind]
  show (createLead rules c.jobId c.capturedBy c.item email db []).2.1 = _
  unfold createLead
  rw [bind_apply, hattribute]
  dsimp only
  rw [bind_apply, departmentFor_run hreads]
  dsimp only
  rw [insertLead_run rules c _ hjob' hnew' hrefers]

/-- Its row, and the snapshot the row belongs to. -/
theorem exists_row_of_attribute {c : Capture} (hc : c.Of rules db email)
    (hnew : db.hasEmail email = false) {snapshotId : Option Nat} {db' : LeadsDb}
    (hattribute : attributeLead rules c.jobId c.item db [] = (.ok snapshotId, db', []))
    (hleads : db'.leads = db.leads) (hjobs : db'.jobs = db.jobs)
    (hrefers : db'.refersToSnapshot snapshotId = true)
    (hreads : snapshotId.isSome = true →
      (departmentIsUrlFallback rules c.item.fieldProvenance).toBool = true) :
    ∃ lead ∈ (c.save rules db).leads.rows, lead.email = email ∧ lead.snapshotId = snapshotId ∧
      (c.save rules db).snapshots = db'.snapshots := by
  have hsave := save_of_attribute hc hnew hattribute hleads hjobs hrefers hreads
  obtain ⟨occurrences, hrecorded⟩ := recorded_eq { db' with
    leads := db'.leads.insertNew (newLead rules c.jobId c.item email snapshotId
      (givenDepartment rules db' snapshotId c.item)) (by intro _; rfl) }
    db'.leads.nextKey c.jobId c.item.sourceUrl c.capturedBy
  rw [hsave, hrecorded]
  exact ⟨_, List.mem_append_right _ (List.mem_singleton.mpr rfl), rfl, rfl, rfl⟩

/-- What a capture leaves that finds no lead. -/
theorem save_of_none {c : Capture} (hc : c.Of rules db email) (hnew : db.hasEmail email = false)
    (hread : readable rules c.item db = true) :
    ∃ (snapshotId : Option Nat) (db' : LeadsDb), db'.leads = db.leads ∧ db'.jobs = db.jobs ∧
      db'.occurrences = db.occurrences ∧ snapshotId.isSome = (foundDomain rules db c.item).isSome ∧
      c.save rules db = LeadsDb.recorded { db' with
        leads := db'.leads.insertNew (newLead rules c.jobId c.item email snapshotId
          (givenDepartment rules db' snapshotId c.item)) (by intro _; rfl) }
        db'.leads.nextKey c.jobId c.item.sourceUrl c.capturedBy := by
  obtain ⟨snapshotId, db', htakes, ⟨hleads, hjobs⟩, hrefers, hsome⟩ :=
    @attributeLead_takes rules c.jobId db hc.job c.item
  have hattribute := htakes.runs [] (by simp)
  rw [List.drop_nil] at hattribute
  have hoccurrences : db'.occurrences = db.occurrences := by
    have hkeeps : Preserves (fun d : LeadsDb => d.occurrences = db.occurrences)
        (attributeLead rules c.jobId c.item) := by
      refine attributeLead_preserves fun hadd h => ?_
      obtain rfl := addSnapshot_eq hadd
      exact h
    have hkept := hkeeps db [] rfl
    rw [hattribute] at hkept
    exact hkept
  refine ⟨snapshotId, db', hleads, hjobs, hoccurrences, hsome,
    save_of_attribute hc hnew hattribute hleads hjobs hrefers fun hattributed => ?_⟩
  unfold readable at hread
  rw [hsome] at hattributed
  simpa [Option.isSome_iff_ne_none.mp hattributed] using hread

/-- The department of a first capture. -/
theorem department_save {c : Capture} (hc : c.Of rules db email) (hnew : db.hasEmail email = false)
    (hread : readable rules c.item db = true) {lead : Lead}
    (hlead : lead ∈ (c.save rules db).leads.rows) (hemail : lead.email = email) :
    lead.department = givenDepartment rules (c.save rules db) lead.snapshotId c.item ∧
      lead.snapshotId.isSome = (foundDomain rules db c.item).isSome := by
  obtain ⟨snapshotId, db', hleads, -, -, hsome, hsave⟩ := save_of_none hc hnew hread
  obtain ⟨occurrences, heq⟩ := recorded_eq { db' with
    leads := db'.leads.insertNew (newLead rules c.jobId c.item email snapshotId
      (givenDepartment rules db' snapshotId c.item)) (by intro _; rfl) }
    db'.leads.nextKey c.jobId c.item.sourceUrl c.capturedBy
  rw [hsave, heq] at hlead ⊢
  rcases List.mem_append.mp hlead with hold | hadded
  · have hhas : db.hasEmail email = true := hasEmail_iff.mpr ⟨lead, hleads ▸ hold, hemail⟩
    rw [hnew] at hhas
    cases hhas
  · obtain rfl := List.mem_singleton.mp hadded
    exact ⟨rfl, hsome⟩

/-- A lead that is inserted and recorded for its capture is all that there is of it. -/
theorem merged_insertNew {c : Capture} {snapshotId : Option Nat} {department : Option String}
    (hjob : (db.jobs.get? c.jobId).isSome = true) (hnew : db.hasEmail email = false)
    (hrefs : ∀ o ∈ db.occurrences.rows, (db.leads.get? o.leadId).isSome = true)
    (hdepartment : givenDepartment rules db snapshotId c.item = department) :
    Merged rules email c []
      (LeadsDb.recorded { db with
        leads := db.leads.insertNew (newLead rules c.jobId c.item email snapshotId department)
          (by intro _; rfl) } db.leads.nextKey c.jobId c.item.sourceUrl c.capturedBy)
      (newLead rules c.jobId c.item email snapshotId department db.leads.nextKey) := by
  have hnone : (db.leads.rows.filter fun l => l.email == email) = [] := by
    refine List.filter_eq_nil_iff.mpr fun l hl hown => ?_
    have hhas : db.hasEmail email = true := hasEmail_iff.mpr ⟨l, hl, beq_iff_eq.mp hown⟩
    rw [hnew] at hhas
    cases hhas
  have hcount := captures_nextKey hrefs
  generalize hdb : { db with
    leads := db.leads.insertNew (newLead rules c.jobId c.item email snapshotId department)
      (by intro _; rfl) } = db'
  have hthere : (db'.leads.get? db.leads.nextKey).isSome = true := by
    have hget := Table.get?_insertNew db.leads
      (newLead rules c.jobId c.item email snapshotId department) (by intro _; rfl)
      db.leads.nextKey
    rw [if_pos rfl] at hget
    rw [← hdb]
    exact Option.isSome_iff_exists.mpr ⟨_, hget⟩
  have hjob' : (db'.jobs.get? c.jobId).isSome = true := by
    rw [← hdb]
    exact hjob
  obtain ⟨⟨occurrences, heq⟩, hcaptures⟩ :=
    recorded_effect db' hthere hjob' c.item.sourceUrl c.capturedBy
  refine ⟨?_, fun field => ?_, holdsBest_singleton _ _, fun j => ?_, rfl⟩
  · rw [heq, ← hdb]
    show (db.leads.rows ++ [_]).filter _ = _
    rw [List.filter_append, hnone, List.nil_append]
    exact List.filter_cons_of_pos (beq_self_eq_true email)
  · have hgiven : field.given rules (db'.recorded db.leads.nextKey c.jobId c.item.sourceUrl
        c.capturedBy) snapshotId c.item =
        field.ofLead (newLead rules c.jobId c.item email snapshotId department
          db.leads.nextKey) := by
      rw [heq, ← hdb]
      cases field with
      | department => exact hdepartment
      | _ => rfl
    show HoldsFirst truthy [field.given rules _ snapshotId c.item] _
    rw [hgiven]
    exact holdsFirst_singleton _ _
  · have hnone : db'.captures db.leads.nextKey j = 0 := by
      rw [← hdb]
      exact hcount j
    show LeadsDb.captures _ db.leads.nextKey j = _
    rw [hcaptures, hnone, List.map_singleton]
    by_cases hj : j = c.jobId
    · rw [if_pos ⟨rfl, hj⟩, if_pos (List.mem_singleton.mpr hj)]
      rfl
    · rw [if_neg fun h => hj h.2, if_neg fun h => hj (List.mem_singleton.mp h)]

/-- **The first capture** inserts the lead, if its department can be read. -/
theorem save_first {c : Capture} (hc : c.Of rules db email) (hnew : db.hasEmail email = false)
    (hrefs : ∀ o ∈ db.occurrences.rows, (db.leads.get? o.leadId).isSome = true)
    (hread : readable rules c.item db = true) : MergeLaw rules email c [] (c.save rules db) := by
  obtain ⟨snapshotId, db', hleads, hjobs, hoccurrences, -, hsave⟩ := save_of_none hc hnew hread
  have hrefs' : ∀ o ∈ db'.occurrences.rows, (db'.leads.get? o.leadId).isSome = true := by
    rw [hoccurrences, hleads]
    exact hrefs
  rw [hsave]
  exact ⟨_, merged_insertNew (hjobs ▸ hc.job) ((hasEmail_congr hleads).trans hnew) hrefs' rfl⟩

/-! ### The law -/

/-- A capture is one of a job that there is, also once another is saved. -/
theorem Capture.Of.save {c : Capture} (h : c.Of rules db email) (c' : Capture) :
    c.Of rules (c'.save rules db) email := by
  have hjobs : (c'.save rules db).jobs = db.jobs := saveLead_jobs db.jobs db [] rfl
  exact ⟨h.keywords, h.given, h.email, hjobs.symm ▸ h.job⟩

/-- Captures are merged one after the other. -/
theorem Merged.saveAll {first : Capture} {rest : List Capture} {lead : Lead}
    (h : Merged rules email first rest db lead) (cs : List Capture)
    (hcs : ∀ c ∈ cs, c.Of rules db email) :
    MergeLaw rules email first (rest ++ cs) (saveAll rules db cs) := by
  induction cs generalizing rest db lead with
  | nil => exact ⟨lead, (List.append_nil rest).symm ▸ h⟩
  | cons c cs ih =>
      have hlaw := ih (h.save (hcs c (List.mem_cons_self ..))) fun c' hc' =>
        (hcs c' (List.mem_cons_of_mem _ hc')).save c
      rwa [List.append_assoc, List.singleton_append] at hlaw

/-- Of a capture alone the law needs a lead. -/
theorem readable_of_mergeLaw {c : Capture} (hc : c.Of rules db email)
    (hnew : db.hasEmail email = false) (h : MergeLaw rules email c [] (c.save rules db)) :
    readable rules c.item db = true := by
  obtain ⟨lead, hlead⟩ := h
  have hown : lead ∈ (c.save rules db).leads.select fun l => l.email == email :=
    hlead.only ▸ List.mem_singleton.mpr rfl
  obtain ⟨hmem, hemail⟩ := List.mem_filter.mp hown
  have hhas : HasEmail (storedEmail rules c.item) (c.save rules db) :=
    hc.email.symm ▸ hasEmail_iff.mpr ⟨lead, hmem, beq_iff_eq.mp hemail⟩
  have hlands := (saveLead_lands_iff hc.job hc.given []).mp hhas
  unfold lands at hlands
  rw [hc.email, hnew, Bool.false_or, Bool.and_eq_true, Bool.and_eq_true] at hlands
  exact hlands.1.2

end Steps

/--
**The merge law.**  Of the captures of an email that has no lead, the first of which has a
department that can be read, the pool keeps, after each of them, what the law says.  Of others
it keeps nothing of the first.
-/
theorem merge_law_iff (rules : LeadRules) (db : LeadsDb) (email : String)
    (hnew : db.hasEmail email = false)
    (hrefs : ∀ o ∈ db.occurrences.rows, (db.leads.get? o.leadId).isSome = true)
    (first : Capture) (rest : List Capture) (hfirst : first.Of rules db email)
    (hrest : ∀ c ∈ rest, c.Of rules db email) :
    (∀ done, done <+: rest →
        MergeLaw rules email first done (saveAll rules db (first :: done))) ↔
      readable rules first.item db = true := by
  constructor
  · intro hlaw
    exact readable_of_mergeLaw hfirst hnew (hlaw [] (List.nil_prefix))
  · rintro hread done hdone
    obtain ⟨lead, hlead⟩ := save_first hfirst hnew hrefs hread
    exact hlead.saveAll done fun c hc => (hrest c (hdone.subset hc)).save first

/-! The zone's office, captured in two jobs. -/

/-- The provenance of a department that is only the URL's. -/
def urlDefault : String := "\x7b\"department\": \"url_default\"\x7d"

def seepzRules : LeadRules where
  lower := fun s => if s = "Office@seepz.gov.in" then "office@seepz.gov.in" else s
  netloc := fun url => if url = "https://seepz.gov.in/contact" then some "seepz.gov.in" else none
  loads := fun s =>
    if s = urlDefault then .dict (some "url_default") else if s = "[]" then .other else .malformed

def seepzDb : LeadsDb where
  jobs := ⟨[⟨1, none⟩, ⟨2, none⟩], 3, by decide, by decide⟩
  netlocMap := [("seepz.gov.in", ⟨1, some "Special Economic Zone"⟩)]

def seepzItem : LeadItem where
  snapshotId := none
  email := some "Office@seepz.gov.in"
  department := some "seepz"
  sourceUrl := "https://seepz.gov.in/contact"
  confidenceBand := some "LOW"
  fieldProvenance := some urlDefault

/-- A better capture, with a phone. -/
def seepzAgain : Capture :=
  ⟨2, some 4, { seepzItem with
    email := some "office@seepz.gov.in", phone := some "022 2829", confidenceBand := some "HIGH" }⟩

theorem capture_seepz {c : Capture} (h : c = ⟨1, some 3, seepzItem⟩ ∨ c = seepzAgain) :
    c.Of seepzRules seepzDb "office@seepz.gov.in" := by
  rcases h with rfl | rfl
  · exact ⟨rfl, by decide +kernel, by decide +kernel, by decide +kernel⟩
  · exact ⟨rfl, by decide +kernel, by decide +kernel, by decide +kernel⟩

theorem seepz_merged :
    MergeLaw seepzRules "office@seepz.gov.in" ⟨1, some 3, seepzItem⟩ [seepzAgain]
        (saveAll seepzRules seepzDb [⟨1, some 3, seepzItem⟩, seepzAgain]) ∧
      (saveAll seepzRules seepzDb [⟨1, some 3, seepzItem⟩, seepzAgain]).leads.rows.map
          (fun l => (l.department, l.phone, l.confidenceBand, l.leadScore)) =
        [(some "Special Economic Zone", some "022 2829", some "HIGH", 30)] := by
  refine ⟨?_, by decide +kernel⟩
  refine (merge_law_iff seepzRules seepzDb "office@seepz.gov.in" (by decide +kernel) nofun
    ⟨1, some 3, seepzItem⟩ [seepzAgain] (capture_seepz (Or.inl rfl)) ?_).mpr
    (by decide +kernel) [seepzAgain] (List.prefix_refl _)
  exact fun c hc => capture_seepz (Or.inr (List.mem_singleton.mp hc))

/-- The provenance is a list. -/
def seepzListed : Capture := ⟨1, some 3, { seepzItem with fieldProvenance := some "[]" }⟩

/-- It is a capture like others, and is lost. -/
theorem seepz_lost :
    seepzListed.Of seepzRules seepzDb "office@seepz.gov.in" ∧
      (saveAll seepzRules seepzDb [seepzListed]).leads.rows = [] ∧
      ¬ MergeLaw seepzRules "office@seepz.gov.in" seepzListed []
        (saveAll seepzRules seepzDb [seepzListed]) := by
  have hrows : (saveAll seepzRules seepzDb [seepzListed]).leads.rows = [] := by decide +kernel
  refine ⟨⟨rfl, by decide +kernel, by decide +kernel, by decide +kernel⟩, hrows,
    fun ⟨lead, hlead⟩ => ?_⟩
  have honly := hlead.only
  unfold Table.select at honly
  rw [hrows] at honly
  cases honly

end GovCrawler
