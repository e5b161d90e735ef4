/-
Leads that are delivered again.

The outbox of an agent delivers a batch at least once, so `save_lead` is called again with
items that it has accepted.  What it accepts it never gives up: no other capture and no
upload blanks a value or lowers a band, and nothing takes an occurrence away.  `Absorbs` is
that, an invariant of every history once an item is accepted, and where it holds the item
changes nothing.

A batch may be repeated once its items are accepted.  One that was refused is another
matter, for it is to be tried again: `refused_then_accepted` is a batch that is taken only the
second time.
-/
import GovCrawler.Leads.ManualUpload

namespace GovCrawler

open Relational StoreProgram Prog

/-! ### Values that are there -/

theorem fills_fill {existing value : Option String} (h : fills existing value = false)
    (other : Option String) : fills (fill existing other) value = false := by
  unfold fill
  split
  · rename_i hother
    unfold fills at hother ⊢
    simp only [Bool.and_eq_true] at hother
    simp [hother.1]
  · exact h

theorem fills_fill_self (existing value : Option String) :
    fills (fill existing value) value = false := by
  unfold fill
  split
  · simp [fills]
  · rename_i hvalue
    exact Bool.eq_false_iff.mpr hvalue

theorem fills_self (value : Option String) : fills value value = false := by
  simp [fills]

theorem fills_valueOr {existing value : Option String} (h : fills existing value = false)
    (other : Option String) : fills (valueOr other existing) value = false := by
  unfold valueOr
  split
  · rename_i hother
    simp [fills, hother]
  · exact h

theorem changes_eq_false_iff {lead : Lead} {item : LeadItem} :
    changes lead item = false ↔
      (fills lead.personName item.personName = false ∧
        fills lead.designation item.designation = false ∧
        fills lead.department item.department = false ∧
        fills lead.sourceTitle item.sourceTitle = false ∧
        fills lead.contextSnippet item.contextSnippet = false ∧
        fills lead.phone item.phone = false ∧ fills lead.entityKind item.entityKind = false) ∧
      upgrades lead item = false := by
  simp only [changes, Bool.or_eq_false_iff, and_assoc]

/-- A band is not lowered. -/
theorem bandRank_enrich (weights : ScoreWeights) (other : LeadItem) (lead : Lead) :
    bandRank lead.confidenceBand ≤ bandRank (lead.enrich weights other).confidenceBand := by
  show _ ≤ bandRank (if upgrades lead other then other.confidenceBand else lead.confidenceBand)
  split
  · rename_i hupgrades
    unfold upgrades at hupgrades
    simp only [Bool.and_eq_true, decide_eq_true_eq] at hupgrades
    omega
  · exact Int.le_refl _

theorem upgrades_mono {lead lead' : Lead} {item : LeadItem}
    (hle : bandRank lead.confidenceBand ≤ bandRank lead'.confidenceBand)
    (h : upgrades lead item = false) : upgrades lead' item = false := by
  unfold upgrades at h ⊢
  simp only [Bool.and_eq_false_iff, decide_eq_false_iff_not] at h ⊢
  exact h.imp id fun hlt => by omega

/-- What a lead has of an item it keeps, whatever other item comes. -/
theorem changes_enrich {lead : Lead} {item : LeadItem} (h : changes lead item = false)
    (weights : ScoreWeights) (other : LeadItem) :
    changes (lead.enrich weights other) item = false := by
  rw [changes_eq_false_iff] at h ⊢
  obtain ⟨⟨hname, hdesignation, hdepartment, htitle, hsnippet, hphone, hkind⟩, hband⟩ := h
  exact ⟨⟨fills_fill hname _, fills_fill hdesignation _, fills_fill hdepartment _,
    fills_fill htitle _, fills_fill hsnippet _, fills_fill hphone _, fills_fill hkind _⟩,
    upgrades_mono (bandRank_enrich weights other lead) hband⟩

/-- A lead that an item has enriched has all of it. -/
theorem changes_enrich_self (weights : ScoreWeights) (lead : Lead) (item : LeadItem) :
    changes (lead.enrich weights item) item = false := by
  rw [changes_eq_false_iff]
  refine ⟨⟨fills_fill_self _ _, fills_fill_self _ _, fills_fill_self _ _, fills_fill_self _ _,
    fills_fill_self _ _, fills_fill_self _ _, fills_fill_self _ _⟩, ?_⟩
  cases hband : upgrades lead item with
  | false => exact upgrades_mono (bandRank_enrich weights item lead) hband
  | true =>
      have hsame : (lead.enrich weights item).confidenceBand = item.confidenceBand := if_pos hband
      unfold upgrades
      rw [hsame]
      simp

/-- A lead that an item has made has all of it. -/
theorem changes_newLead {rules : LeadRules} {jobId : Nat} {item : LeadItem} {email : String}
    {snapshotId : Option Nat} {department : Option String} {id : Nat}
    (h : fills department item.department = false) :
    changes (newLead rules jobId item email snapshotId department id) item = false := by
  rw [changes_eq_false_iff]
  refine ⟨⟨fills_self _, fills_self _, h, fills_self _, fills_self _, fills_self _, fills_self _⟩,
    ?_⟩
  simp [upgrades, newLead]

/-- An upload keeps it too. -/
theorem changes_overwrite {lead : Lead} {item : LeadItem} (h : changes lead item = false)
    (weights : ScoreWeights) (row : ManualRow) :
    changes (lead.overwrite weights row) item = false := by
  rw [changes_eq_false_iff] at h ⊢
  obtain ⟨⟨hname, hdesignation, hdepartment, htitle, hsnippet, hphone, hkind⟩, hband⟩ := h
  exact ⟨⟨fills_valueOr hname _, fills_valueOr hdesignation _, fills_valueOr hdepartment _, htitle,
    hsnippet, fills_valueOr hphone _, hkind⟩, hband⟩

/-! ### Stores that absorb an item -/

/-- The lead's occurrence in the job is recorded, or never will be. -/
def Recorded (leadId jobId : Nat) (db : LeadsDb) : Prop :=
  (db.findOccurrence leadId jobId).isSome = true ∨ db.jobs.get? jobId = none

/-- The email has a lead with all that the item says. -/
def HasLead (item : LeadItem) (email : String) (leadId : Nat) (db : LeadsDb) : Prop :=
  ∃ lead, db.findLead email = some lead ∧ lead.id = leadId ∧ changes lead item = false

/-- The lead has all that the item says, and its occurrence. -/
def Absorbs (jobId : Nat) (item : LeadItem) (email : String) (db : LeadsDb) : Prop :=
  ∃ leadId, HasLead item email leadId db ∧ Recorded leadId jobId db

variable {rules : LeadRules} {jobId : Nat} {capturedBy : Option Nat} {item : LeadItem}
  {email : String} {db : LeadsDb}

/-- A lead is found under its own key. -/
theorem get?_of_findLead {lead : Lead} (h : db.findLead email = some lead) :
    db.leads.get? lead.id = some lead := (Table.first?_spec h).2

theorem addOccurrence_eq_none {leadId : Nat} (h : Recorded leadId jobId db) (sourceUrl : String) :
    addOccurrence leadId jobId sourceUrl capturedBy db = none := by
  unfold addOccurrence
  rcases h with hfound | hjob
  · rw [Option.isNone_eq_false_iff.mpr hfound]
    rfl
  · rw [hjob]
    simp

/-- An occurrence of a lead that is there is refused only if it is recorded. -/
theorem recorded_of_refused {leadId : Nat} {sourceUrl : String}
    (hlead : (db.leads.get? leadId).isSome = true)
    (h : addOccurrence leadId jobId sourceUrl capturedBy db = none) : Recorded leadId jobId db := by
  unfold addOccurrence at h
  rw [hlead] at h
  cases hfound : db.findOccurrence leadId jobId with
  | some occurrence => exact Or.inl (by rw [hfound]; rfl)
  | none =>
      cases hjob : db.jobs.get? jobId with
      | none => exact Or.inr hjob
      | some job =>
          rw [hfound, hjob] at h
          cases h

theorem recorded_addOccurrence {leadId : Nat} {sourceUrl : String} {id : Nat} {db' : LeadsDb}
    (h : addOccurrence leadId jobId sourceUrl capturedBy db = some (id, db')) :
    Recorded leadId jobId db' := by
  obtain rfl := addOccurrence_eq h
  unfold addOccurrence at h
  split at h
  · rename_i hguard
    simp only [Bool.and_eq_true, Option.isNone_iff_eq_none] at hguard
    refine Or.inl ?_
    unfold LeadsDb.findOccurrence
    rw [Table.first?_insertNew_of_none _ hguard.1.1 (by simp)]
    rfl
  · cases h

/-! ### What keeps them -/

theorem Recorded.addOccurrence {leadId : Nat} (h : Recorded leadId jobId db) {leadId' jobId' : Nat}
    {sourceUrl : String} {id : Nat} {db' : LeadsDb}
    (hadd : addOccurrence leadId' jobId' sourceUrl capturedBy db = some (id, db')) :
    Recorded leadId jobId db' := by
  obtain rfl := addOccurrence_eq hadd
  refine h.imp (fun hfound => ?_) fun hjob => hjob
  obtain ⟨occurrence, hfound⟩ := Option.isSome_iff_exists.mp hfound
  unfold LeadsDb.findOccurrence
  rw [Table.first?_insertNew_of_some _ hfound]
  rfl

/-- A lead is found again when leads are changed that keep their emails. -/
theorem findLead_updateWhere (p : Lead → Bool) (f : Lead → Lead)
    (hf : ∀ l, Keyed.key (f l) = Keyed.key l) (hemail : ∀ l, (f l).email = l.email) {lead : Lead}
    (h : db.findLead email = some lead) :
    LeadsDb.findLead { db with leads := db.leads.updateWhere p f hf } email =
      some (if p lead then f lead else lead) := by
  unfold LeadsDb.findLead at h ⊢
  rw [Table.first?_updateWhere _ _ _ _ fun l => by rw [hemail], h]
  rfl

/-- A change of leads that keeps their emails and what they have of the item. -/
theorem HasLead.updateWhere {leadId : Nat} (h : HasLead item email leadId db) (p : Lead → Bool)
    {f : Lead → Lead} {hf : ∀ l, Keyed.key (f l) = Keyed.key l} (hemail : ∀ l, (f l).email = l.email)
    (hchanges : ∀ l, changes l item = false → changes (f l) item = false) :
    HasLead item email leadId { db with leads := db.leads.updateWhere p f hf } := by
  obtain ⟨lead, hfind, rfl, hsame⟩ := h
  refine ⟨_, findLead_updateWhere p f hf hemail hfind, ?_, ?_⟩
  · split
    · exact hf lead
    · rfl
  · split
    · exact hchanges lead hsame
    · exact hsame

theorem HasLead.insertNew {leadId : Nat} (h : HasLead item email leadId db) {mk : Nat → Lead}
    {hmk : ∀ n, Keyed.key (mk n) = n} :
    HasLead item email leadId { db with leads := db.leads.insertNew mk hmk } := by
  obtain ⟨lead, hfind, hid, hsame⟩ := h
  have hfind' : (db.leads.insertNew mk hmk).first? (fun l => l.email == email) = some lead :=
    Table.first?_insertNew_of_some _ hfind
  exact ⟨lead, hfind', hid, hsame⟩

theorem Absorbs.addOccurrence : StableForOccurrences (Absorbs jobId item email) := by
  rintro db leadId jobId' sourceUrl capturedBy id db' hadd ⟨leadId', hlead, hrecorded⟩
  refine ⟨leadId', ?_, hrecorded.addOccurrence hadd⟩
  obtain rfl := addOccurrence_eq hadd
  exact hlead

/-- **Nothing that `save_lead` writes** makes a store stop absorbing an item. -/
theorem stable_absorbs : Stable rules (Absorbs jobId item email) where
  snapshot h hdb := by
    obtain rfl := addSnapshot_eq h
    exact hdb
  occurrence := Absorbs.addOccurrence
  lead h hdb := by
    obtain ⟨-, -, rfl⟩ := addLead_eq h
    obtain ⟨leadId, hlead, hrecorded⟩ := hdb
    exact ⟨leadId, hlead.insertNew, hrecorded⟩
  enrich id other hdb := by
    obtain ⟨leadId, hlead, hrecorded⟩ := hdb
    exact ⟨leadId, hlead.updateWhere _ (fun _ => rfl)
      (fun _ h => changes_enrich h rules.weights other), hrecorded⟩

/-- **Nothing that an upload writes** does either. -/
theorem stableForUploads_absorbs : StableForUploads rules (Absorbs jobId item email) where
  occurrence := Absorbs.addOccurrence
  lead h hdb := by
    obtain ⟨-, rfl⟩ := addManualLead_eq h
    obtain ⟨leadId, hlead, hrecorded⟩ := hdb
    exact ⟨leadId, hlead.insertNew, hrecorded⟩
  overwrite id row hdb := by
    obtain ⟨leadId, hlead, hrecorded⟩ := hdb
    exact ⟨leadId, hlead.updateWhere _ (fun _ => rfl)
      (fun _ h => changes_overwrite h rules.weights row), hrecorded⟩

/-! ### Items that are never taken -/

/-- `save_lead` does not take the item, whatever the tables hold: it has no email, or a keyword
that `save_lead` does not have. -/
def LeadItem.NeverTaken (item : LeadItem) : Prop := item.unexpected ≠ [] ∨ truthy item.email = false

theorem saveLead_of_neverTaken (h : item.NeverTaken) :
    saveLead rules jobId capturedBy item = raise .typeError ∨
      saveLead rules jobId capturedBy item = pure false := by
  unfold saveLead
  by_cases hunexpected : item.unexpected ≠ []
  · exact Or.inl (if_pos hunexpected)
  · refine Or.inr ?_
    rw [if_neg hunexpected]
    cases hemail : item.email with
    | none => rfl
    | some email =>
        have hfalse := h.resolve_left hunexpected
        rw [hemail] at hfalse
        obtain rfl : email = "" := by simpa [truthy] using hfalse
        rfl

/-- Any other item is looked up under its email. -/
theorem saveLead_of_not_neverTaken (h : ¬ item.NeverTaken) :
    saveLead rules jobId capturedBy item =
      saveEmail rules jobId capturedBy item (storedEmail rules item) := by
  unfold LeadItem.NeverTaken at h
  rw [not_or, not_not, Bool.not_eq_false] at h
  exact saveLead_eq h.1 h.2

theorem saveLead_neverTaken (h : item.NeverTaken) (fs : List (Option LeadExc)) :
    (saveLead rules jobId capturedBy item db fs).2.1 = db := by
  have hcases : saveLead rules jobId capturedBy item = raise .typeError ∨
      saveLead rules jobId capturedBy item = pure false := saveLead_of_neverTaken h
  rcases hcases with hrun | hrun
  · rw [hrun]
    rfl
  · rw [hrun]
    rfl

/-! ### What an accepted item leaves -/

/-- A schedule raises database errors; an `IntegrityError` is raised by a constraint. -/
def NotIntegrity (e : LeadExc) : Prop := e ≠ .integrity

section Accepted

variable {F : LeadExc → Prop} {P : LeadsDb → Prop}

theorem insertOr_ensures {insert : LeadsDb → Option (Nat × LeadsDb)} {Q : Nat → LeadsDb → Prop}
    {E : LeadExc → LeadsDb → Prop} (hsome : ∀ db id db', P db → insert db = some (id, db') → Q id db')
    (hnone : ∀ db, P db → insert db = none → E .integrity db)
    (hfault : ∀ e db, F e → P db → E e db) : Ensures F P (insertOr insert) Q E := by
  unfold insertOr
  refine ensures_bind (Q := fun r db' => r.elim (E .integrity db') fun id => Q id db')
    (ensures_call ?_ hfault) ?_
  · intro db hdb
    unfold attempt
    cases hins : insert db with
    | none => exact hnone db hdb hins
    | some r => exact hsome db r.1 r.2 hdb hins
  · intro r
    cases r with
    | none => exact ensures_raise fun _ h => h
    | some id => exact ensures_pure fun _ h => h

theorem exceptIntegrity_ensures {α : Type} {m h : LeadM α} {Q : α → LeadsDb → Prop}
    {E : LeadExc → LeadsDb → Prop} (hm : Ensures F P m Q E) (hh : Ensures F (E .integrity) h Q E) :
    Ensures F P (exceptIntegrity m h) Q E := by
  refine ensures_tryExcept hm fun e => ?_
  by_cases he : e = .integrity
  · rw [if_pos he, he]
    exact hh
  · rw [if_neg he]
    exact ensures_raise fun _ h => h

/-- An occurrence that is recorded without an error is there. -/
theorem recordOccurrence_ensures (leadId : Nat) (sourceUrl : String) :
    Ensures NotIntegrity (HasLead item email leadId)
      (recordOccurrence leadId jobId sourceUrl capturedBy) (fun _ => Absorbs jobId item email)
      (fun e db => e = .integrity → Absorbs jobId item email db) := by
  have hrefused : Ensures NotIntegrity (HasLead item email leadId)
      (insertOr (addOccurrence leadId jobId sourceUrl capturedBy))
      (fun _ => Absorbs jobId item email)
      (fun e db => e = .integrity → Absorbs jobId item email db) := by
    refine insertOr_ensures ?_ ?_ fun e _ he _ heq => absurd heq he
    · intro db id db' hlead hadd
      refine ⟨leadId, ?_, recorded_addOccurrence hadd⟩
      obtain rfl := addOccurrence_eq hadd
      exact hlead
    · intro db hlead hnone _
      refine ⟨leadId, hlead, recorded_of_refused ?_ hnone⟩
      obtain ⟨lead, hfind, rfl, -⟩ := hlead
      rw [get?_of_findLead hfind]
      rfl
  unfold recordOccurrence
  exact exceptIntegrity_ensures (ensures_bind hrefused fun _ => ensures_pure fun _ h => h)
    (ensures_pure fun _ h => h rfl)

theorem existingSnapshot_ensures (domainId : Nat) :
    Ensures F P (existingSnapshot jobId domainId) (fun _ _ => True) fun _ _ => True := by
  unfold existingSnapshot
  refine ensures_call_bind (fun _ _ _ _ => trivial) fun found => ?_
  cases found with
  | some snapshot => exact ensures_pure fun _ _ => trivial
  | none => exact ensures_raise fun _ _ => trivial

theorem createCrawlSnapshot_ensures (domain : Domain) :
    Ensures F P (createCrawlSnapshot jobId domain) (fun _ _ => True) fun _ _ => True := by
  unfold createCrawlSnapshot
  refine ensures_call_bind (fun _ _ _ _ => trivial) fun found => ?_
  cases found with
  | some snapshot => exact ensures_pure fun _ _ => trivial
  | none =>
      exact exceptIntegrity_ensures (insertOr_ensures (fun _ _ _ _ _ => trivial)
        (fun _ _ _ => trivial) fun _ _ _ _ => trivial) (existingSnapshot_ensures domain.id)

theorem attributeLead_ensures :
    Ensures F P (attributeLead rules jobId item) (fun _ _ => True) fun _ _ => True := by
  unfold attributeLead
  refine ensures_call_bind (fun _ _ _ _ => trivial) fun netlocMap => ?_
  refine ensures_call_bind (fun _ _ _ _ => trivial) fun suffixes => ?_
  cases resolveDomainForUrl rules item.sourceUrl netlocMap suffixes with
  | none => exact ensures_pure fun _ _ => trivial
  | some resolved =>
      refine ensures_bind (Q := fun _ _ => True) ?_ fun inherited => ?_
      · unfold inheritedDomain
        cases item.snapshotId with
        | none => exact ensures_pure fun _ _ => trivial
        | some k => exact ensures_call (fun _ _ => trivial) fun _ _ _ _ => trivial
      · split
        · exact ensures_pure fun _ _ => trivial
        · exact ensures_bind (createCrawlSnapshot_ensures resolved)
            fun _ => ensures_pure fun _ _ => trivial

/-- A department gives way to a title only where there is one. -/
theorem departmentFor_ensures (snapshotId : Option Nat) :
    Ensures F P (departmentFor rules item snapshotId)
      (fun department _ => fills department item.department = false) fun _ _ => True := by
  cases snapshotId with
  | none => exact ensures_pure fun _ _ => fills_self item.department
  | some k =>
      refine ensures_bind (Q := fun _ _ => True)
        (ensures_ofExcept (fun _ _ _ _ => trivial) fun _ _ _ _ => trivial) fun fallback => ?_
      cases fallback with
      | false => exact ensures_pure fun _ _ => fills_self item.department
      | true =>
          refine ensures_call_bind (fun _ _ _ _ => trivial) fun title => ?_
          exact ensures_pure fun _ _ => fills_valueOr (fills_self item.department) title

/-- A lead that is inserted has all that its item says. -/
theorem addLead_ensures (snapshotId : Option Nat) {department : Option String}
    (h : fills department item.department = false) :
    Ensures F P (insertOr (addLead rules jobId item email snapshotId department))
      (fun id => HasLead item email id) fun _ _ => True := by
  refine insertOr_ensures ?_ (fun _ _ _ => trivial) fun _ _ _ _ => trivial
  intro db id db' _ hadd
  obtain ⟨hnew, rfl, rfl⟩ := addLead_eq hadd
  have hfind : db.leads.first? (fun l => l.email == email) = none := by
    unfold LeadsDb.hasEmail at hnew
    exact Option.not_isSome_iff_eq_none.mp (Bool.eq_false_iff.mp hnew)
  have hfind' : (db.leads.insertNew (newLead rules jobId item email snapshotId department)
      (by intro _; rfl)).first? (fun l => l.email == email) =
      some (newLead rules jobId item email snapshotId department db.leads.nextKey) :=
    Table.first?_insertNew_of_none _ hfind (beq_self_eq_true _)
  exact ⟨_, hfind', rfl, changes_newLead h⟩

/-- A capture leaves its lead with all that it says. -/
theorem commitChanges_ensures (lead : Lead) :
    Ensures F (fun db => db.findLead email = some lead) (commitChanges rules item lead)
      (fun _ => HasLead item email lead.id) fun _ _ => True := by
  unfold commitChanges
  by_cases hchanges : changes lead item = true
  · rw [if_pos hchanges]
    refine ensures_call (fun db hfind => ?_) fun _ _ _ _ => trivial
    have hfind' := findLead_updateWhere (fun l => l.id == lead.id)
      (Lead.enrich rules.weights item) (by intro _; rfl) (fun _ => rfl) hfind
    rw [if_pos (beq_self_eq_true lead.id)] at hfind'
    exact ⟨_, hfind', rfl, changes_enrich_self rules.weights lead item⟩
  · rw [if_neg hchanges]
    exact ensures_pure fun db hfind => ⟨lead, hfind, rfl, Bool.eq_false_iff.mpr hchanges⟩

/-- **What is accepted is absorbed** from then on. -/
theorem saveLead_ensures :
    Ensures NotIntegrity P (saveLead rules jobId capturedBy item)
      (fun accepted db => accepted = true → Absorbs jobId item (storedEmail rules item) db)
      fun _ _ => True := by
  by_cases hnever : item.NeverTaken
  · rcases saveLead_of_neverTaken hnever with hrun | hrun
    · rw [hrun]
      exact ensures_raise fun _ _ => trivial
    · rw [hrun]
      exact ensures_pure fun _ _ h => nomatch h
  rw [saveLead_of_not_neverTaken hnever]
  generalize storedEmail rules item = email
  have hrecord : ∀ leadId, Ensures NotIntegrity (HasLead item email leadId)
      (do
        recordOccurrence leadId jobId item.sourceUrl capturedBy
        pure true)
      (fun accepted db => accepted = true → Absorbs jobId item email db) fun _ _ => True := by
    intro leadId
    exact ensures_bind ((recordOccurrence_ensures leadId item.sourceUrl).mono (fun _ h => h)
      (fun _ _ h => h) fun _ _ _ => trivial) fun _ => ensures_pure fun _ h _ => h
  refine ensures_bind (Q := fun found db => found = db.findLead email)
    (ensures_call (fun _ _ => rfl) fun _ _ _ _ => trivial) fun found => ?_
  cases found with
  | some lead =>
      exact ensures_bind ((commitChanges_ensures lead).mono (fun _ h => h.symm) (fun _ _ h => h)
        fun _ _ h => h) fun _ => hrecord lead.id
  | none =>
      refine ensures_bind attributeLead_ensures fun snapshotId => ?_
      refine ensures_bind (departmentFor_ensures snapshotId) fun department => ?_
      refine ensures_of_pre (fun _ h => h) fun hdepartment => ?_
      exact exceptIntegrity_ensures
        (ensures_bind (addLead_ensures snapshotId hdepartment) fun id => hrecord id)
        (ensures_pure fun _ _ h => nomatch h)

end Accepted

/-! ### An item that is absorbed -/

theorem recordOccurrence_recorded {leadId : Nat} (h : Recorded leadId jobId db)
    (sourceUrl : String) :
    Preserves (fun s => s = db) (recordOccurrence leadId jobId sourceUrl capturedBy) := by
  refine preserves_exceptIntegrity (preserves_bind (preserves_insertOr ?_) fun _ =>
    preserves_pure ()) (preserves_pure ())
  rintro s id s' rfl hadd
  rw [addOccurrence_eq_none h] at hadd
  cases hadd

/-- **An absorbed item changes nothing**, whichever call raises. -/
theorem saveLead_absorbed (h : Absorbs jobId item (storedEmail rules item) db)
    (fs : List (Option LeadExc)) : (saveLead rules jobId capturedBy item db fs).2.1 = db := by
  by_cases hnever : item.NeverTaken
  · exact saveLead_neverTaken hnever fs
  obtain ⟨leadId, ⟨lead, hfind, rfl, hsame⟩, hrecorded⟩ := h
  have henrich : Preserves (fun s => s = db) (enrichLead rules jobId capturedBy item lead) := by
    unfold enrichLead commitChanges
    rw [if_neg (Bool.eq_false_iff.mp hsame)]
    exact preserves_bind (preserves_pure ()) fun _ =>
      preserves_bind (recordOccurrence_recorded hrecorded _) fun _ => preserves_pure true
  rw [saveLead_of_not_neverTaken hnever]
  refine preserves_read_bind (I := fun s => s = db) ?_ db fs rfl
  rintro s rfl
  rw [hfind]
  exact henrich

/-! ### Histories -/

/-- The schedule of a call some of whose statements fail, with these messages. -/
def failing (failures : List (Option String)) : List (Option LeadExc) :=
  failures.map (Option.map .database)

theorem raisesOnly_failing (failures : List (Option String)) :
    RaisesOnly NotIntegrity (failing failures) := by
  intro e he
  obtain ⟨o, -, heq⟩ := List.mem_map.mp he
  obtain ⟨message, -, rfl⟩ := Option.map_eq_some_iff.mp heq
  nofun

/-- A batch that is posted, and what fails of each item. -/
structure LeadBatch where
  jobId : Nat
  items : List LeadItem
  capturedBy : Option Nat := none
  failures : List (List (Option String)) := []

def LeadBatch.run (rules : LeadRules) (b : LeadBatch) (db : LeadsDb) : List Bool × LeadsDb :=
  bulkSaveLeads rules b.jobId b.capturedBy b.items (b.failures.map failing) db

inductive LeadOp
  /-- `save_lead` by itself. -/
  | save (jobId : Nat) (capturedBy : Option Nat) (item : LeadItem) (failures : List (Option String))
  | deliver (batch : LeadBatch)
  | upload (jobId : Nat) (rows : List ManualRow) (capturedBy : Option Nat)
      (failures : List (Option String))

def LeadOp.apply (rules : LeadRules) (db : LeadsDb) : LeadOp → LeadsDb
  | .save jobId capturedBy item failures =>
      (saveLead rules jobId capturedBy item db (failing failures)).2.1
  | .deliver batch => (batch.run rules db).2
  | .upload jobId rows capturedBy failures =>
      (bulkUpsertManualLeads rules jobId rows capturedBy db (failing failures)).2.1

/-- The tables after a history. -/
def runOps (rules : LeadRules) (db : LeadsDb) (ops : List LeadOp) : LeadsDb :=
  ops.foldl (LeadOp.apply rules) db

/-- The call accepts the item for the job. -/
def LeadOp.Accepts (rules : LeadRules) (db : LeadsDb) (jobId : Nat) (item : LeadItem) :
    LeadOp → Prop
  | .save jobId' capturedBy item' failures =>
      jobId' = jobId ∧ item' = item ∧
        (saveLead rules jobId' capturedBy item' db (failing failures)).1 = .ok true
  | .deliver batch =>
      batch.jobId = jobId ∧ (item, true) ∈ batch.items.zip (batch.run rules db).1
  | .upload .. => False

/-- The item has been accepted for the job, somewhere in the history. -/
def Accepted (rules : LeadRules) (db : LeadsDb) (ops : List LeadOp) (jobId : Nat)
    (item : LeadItem) : Prop :=
  ∃ before op after, ops = before ++ op :: after ∧
    op.Accepts rules (runOps rules db before) jobId item

/-- `all` is `once` with batches repeated, each of whose items has been accepted before, or is
never taken. -/
inductive Redelivers (rules : LeadRules) (db : LeadsDb) : List LeadOp → List LeadOp → Prop
  | nil : Redelivers rules db [] []
  | op {once all : List LeadOp} (h : Redelivers rules db once all) (op : LeadOp) :
      Redelivers rules db (once ++ [op]) (all ++ [op])
  | again {once all : List LeadOp} (h : Redelivers rules db once all) (b : LeadBatch)
      (hb : ∀ item ∈ b.items, item.NeverTaken ∨ Accepted rules db all b.jobId item) :
      Redelivers rules db once (all ++ [.deliver b])

/-! ### Along a history -/

theorem absorbs_run (h : Absorbs jobId item email db) (ops : List LeadOp) :
    Absorbs jobId item email (runOps rules db ops) := by
  induction ops generalizing db with
  | nil => exact h
  | cons op ops ih =>
      refine ih ?_
      cases op with
      | save jobId' capturedBy other failures => exact saveLead_preserves stable_absorbs db _ h
      | deliver b => exact bulkSaveLeads_preserves stable_absorbs _ _ h
      | upload jobId' rows capturedBy failures =>
          exact bulkUpsertManualLeads_preserves stableForUploads_absorbs rows db _ h

/-- What a batch accepts is absorbed after it. -/
theorem bulkSaveLeads_accepts (items : List LeadItem) {faults : List (List (Option LeadExc))}
    (hfaults : ∀ fs ∈ faults, RaisesOnly NotIntegrity fs)
    (h : (item, true) ∈ items.zip (bulkSaveLeads rules jobId capturedBy items faults db).1) :
    Absorbs jobId item (storedEmail rules item)
      (bulkSaveLeads rules jobId capturedBy items faults db).2 := by
  induction items generalizing db faults with
  | nil => cases h
  | cons other items ih =>
      rcases List.mem_cons.mp h with heq | hrest
      · obtain ⟨rfl, hsaved⟩ := Prod.mk.inj heq
        have hquiet : RaisesOnly NotIntegrity (faults.headD []) := by
          cases faults with
          | nil => exact fun _ he => nomatch he
          | cons fs faults => exact hfaults fs List.mem_cons_self
        refine bulkSaveLeads_preserves stable_absorbs items faults.tail ?_
        cases hr : (saveLead rules jobId capturedBy item db (faults.headD [])).1 with
        | error e =>
            rw [hr] at hsaved
            cases hsaved
        | ok accepted =>
            rw [hr] at hsaved
            exact (saveLead_ensures (P := fun _ => True)).of_ok hquiet trivial hr hsaved.symm
      · exact ih (fun fs hfs => hfaults fs (List.mem_of_mem_tail hfs)) hrest

/-- **What was accepted is absorbed**, whatever has come after it. -/
theorem absorbs_of_accepted {ops : List LeadOp} (h : Accepted rules db ops jobId item) :
    Absorbs jobId item (storedEmail rules item) (runOps rules db ops) := by
  obtain ⟨before, op, after, rfl, haccepts⟩ := h
  unfold runOps
  rw [List.foldl_append]
  refine absorbs_run ?_ after
  cases op with
  | save jobId' capturedBy item' failures =>
      obtain ⟨rfl, rfl, hok⟩ := haccepts
      exact (saveLead_ensures (P := fun _ => True)).of_ok (raisesOnly_failing failures) trivial hok
        rfl
  | deliver b =>
      obtain ⟨rfl, hmem⟩ := haccepts
      refine bulkSaveLeads_accepts b.items ?_ hmem
      intro fs hfs
      obtain ⟨failures, -, rfl⟩ := List.mem_map.mp hfs
      exact raisesOnly_failing failures
  | upload jobId' rows capturedBy failures => exact haccepts.elim

/-- A batch of absorbed items changes nothing. -/
theorem bulkSaveLeads_absorbed (items : List LeadItem) (faults : List (List (Option LeadExc)))
    (h : ∀ item ∈ items, item.NeverTaken ∨ Absorbs jobId item (storedEmail rules item) db) :
    (bulkSaveLeads rules jobId capturedBy items faults db).2 = db := by
  induction items generalizing faults with
  | nil => rfl
  | cons item items ih =>
      obtain ⟨hitem, hitems⟩ := List.forall_mem_cons.mp h
      have hsame : (saveLead rules jobId capturedBy item db (faults.headD [])).2.1 = db :=
        hitem.elim (fun hnever => saveLead_neverTaken hnever _) fun habsorbs =>
          saveLead_absorbed habsorbs _
      show (bulkSaveLeads rules jobId capturedBy items faults.tail
        (saveLead rules jobId capturedBy item db (faults.headD [])).2.1).2 = db
      rw [hsame]
      exact ih faults.tail hitems

theorem run_redelivers {once all : List LeadOp} (h : Redelivers rules db once all) :
    runOps rules db all = runOps rules db once := by
  induction h with
  | nil => rfl
  | op h op ih =>
      unfold runOps at ih ⊢
      rw [List.foldl_append, List.foldl_append, ih]
  | again h b hb ih =>
      unfold runOps at ih ⊢
      rw [List.foldl_append, ← ih]
      exact bulkSaveLeads_absorbed b.items _ fun item hitem =>
        (hb item hitem).imp id absorbs_of_accepted

/--
**Redelivery is absorbed.**  After every history of captures and uploads in which an item was
accepted for a job, `save_lead` with it leaves all tables as they are, and so a history with
batches repeated, whose items were accepted before or are never taken, leaves what the
history without the repetitions leaves.
-/
theorem redelivery_absorbed (rules : LeadRules) (db : LeadsDb) :
    (∀ ops jobId item, Accepted rules db ops jobId item → ∀ capturedBy failures,
      (saveLead rules jobId capturedBy item (runOps rules db ops) (failing failures)).2.1 =
        runOps rules db ops) ∧
      ∀ once all, Redelivers rules db once all → runOps rules db all = runOps rules db once :=
  ⟨fun _ _ _ h _ _ => saveLead_absorbed (absorbs_of_accepted h) _, fun _ _ h => run_redelivers h⟩

/-! ### Two batches -/

def puneRules : LeadRules where
  lower := id
  netloc := fun url => if url = "https://pune.gov.in/contact" then some "pune.gov.in" else none
  loads := fun _ => .other

/-- A catalog of one domain, and a job. -/
def puneDb : LeadsDb where
  jobs := Table.empty.insertNew fun id => ⟨id, none⟩
  netlocMap := [("pune.gov.in", ⟨1, some "Pune"⟩)]

def mayorLead : LeadItem where
  snapshotId := none
  email := some "mayor@pune.gov.in"
  sourceUrl := "https://pune.gov.in/contact"

def mayorBatch : LeadBatch := ⟨1, [mayorLead], some 3, []⟩

/-- The batch, when the database cannot take the row of the lead. -/
def lockedBatch : LeadBatch :=
  { mayorBatch with failures := [List.replicate 5 none ++ [some "database is locked"]] }

/-- The acknowledgement of the batch is lost, so its item is saved again, and the batch is posted
again. -/
theorem batch_repeated :
    (runOps puneRules puneDb [.deliver mayorBatch]).leads.rows.map Lead.email =
        ["mayor@pune.gov.in"] ∧
      (saveLead puneRules 1 none mayorLead (runOps puneRules puneDb [.deliver mayorBatch])
        (failing [])).2.1 = runOps puneRules puneDb [.deliver mayorBatch] ∧
      runOps puneRules puneDb ([] ++ [.deliver mayorBatch] ++ [.deliver mayorBatch]) =
        runOps puneRules puneDb ([] ++ [.deliver mayorBatch]) := by
  have hfirst : Redelivers puneRules puneDb ([] ++ [.deliver mayorBatch])
      ([] ++ [.deliver mayorBatch]) := .op .nil _
  have haccepted : Accepted puneRules puneDb [.deliver mayorBatch] 1 mayorLead :=
    ⟨[], _, [], rfl, rfl, by decide +kernel⟩
  obtain ⟨hitem, hbatches⟩ := redelivery_absorbed puneRules puneDb
  refine ⟨by decide +kernel, hitem _ 1 mayorLead haccepted none [],
    hbatches _ _ (.again hfirst _ ?_)⟩
  intro item hmem
  obtain rfl := List.mem_singleton.mp hmem
  exact Or.inr haccepted

/-- The database refuses the lead.  When the same items come again it takes it. -/
theorem refused_then_accepted :
    (lockedBatch.run puneRules puneDb).1 = [false] ∧
      runOps puneRules puneDb [.deliver lockedBatch, .deliver mayorBatch] ≠
        runOps puneRules puneDb [.deliver lockedBatch] := by
  refine ⟨by decide +kernel, fun hsame => ?_⟩
  have hemails := congrArg (fun db => db.leads.rows.map Lead.email) hsame
  have honce : (runOps puneRules puneDb [.deliver lockedBatch]).leads.rows.map Lead.email = [] := by
    decide +kernel
  have htwice : (runOps puneRules puneDb
      [.deliver lockedBatch, .deliver mayorBatch]).leads.rows.map Lead.email =
        ["mayor@pune.gov.in"] := by
    decide +kernel
  rw [htwice, honce] at hemails
  cases hemails

end GovCrawler
