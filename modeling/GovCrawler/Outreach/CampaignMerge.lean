/-
The migration that merges the test campaigns into the campaigns,
`alembic/versions/0016_merge_campaign_kind.py`.

The old tables are copied row by row and then dropped.  A copy is recognised by the name and
the time of its campaign, or by its campaign and its recipient, so that the migration may be
run again after an attempt that was interrupted.  Neither is a key of the old tables, and a
time may be `NULL`, which equals nothing in SQL.

`every_test_row_kept_iff` is the exact condition on the old tables under which a run that
comes to its end has copied every row once, whatever attempts there were before.  One way,
`Progress` is what holds of the tables between any two statements of any attempt; the other
way, a run never adds more rows than there are, and adds as many only if the condition holds.
`repeated_recipient_lost` is an email of a test campaign that is gone.
-/
import GovCrawler.Lib.CopyByKey
import GovCrawler.Lib.StoreProgram
import GovCrawler.Outreach.Tables
import Mathlib.Data.List.Pairwise

namespace GovCrawler

open Relational StoreProgram Prog

/-! ### Tables -/

/-- A row of `campaigns`, with the column that recognises a copy. -/
structure DatedCampaign extends Campaign where
  createdAt : Option Time
  deriving DecidableEq, Repr

structure TestCampaign where
  id : Nat
  name : String
  templateId : Option Nat
  testCredentialId : Option Nat
  status : CampaignStatus
  pauseReason : Option String
  ownerId : Option Nat
  createdAt : Option Time
  deriving DecidableEq, Repr

structure TestCampaignEmail where
  id : Nat
  testCampaignId : Nat
  recipientEmail : String
  subject : String
  body : String
  status : EmailStatus
  isSelected : Bool
  missingFields : Option String
  errorMessage : Option String
  credentialId : Option Nat
  sentAt : Option Time
  deriving DecidableEq, Repr

instance : Keyed DatedCampaign := ⟨fun c => c.id⟩
instance : Keyed TestCampaign := ⟨TestCampaign.id⟩
instance : Keyed TestCampaignEmail := ⟨TestCampaignEmail.id⟩

/-- The tables the migration works on; `none` is a table that is not there. -/
structure MergeDb where
  campaigns : Table DatedCampaign
  campaignEmails : Table CampaignEmail
  testCampaigns : Option (Table TestCampaign)
  testCampaignEmails : Option (Table TestCampaignEmail)

/-- The database before the first attempt: nothing has a kind or a test credential yet, and
`lead_id` is not nullable.  The migration adds the columns with their defaults and lifts the
constraint before it copies, which changes no value. -/
structure BeforeMerge where
  campaigns : Table DatedCampaign
  production : ∀ c ∈ campaigns.rows, c.kind = .production
  campaignEmails : Table CampaignEmail
  ofLeads : ∀ e ∈ campaignEmails.rows, e.leadId.isSome = true
  testCampaigns : Table TestCampaign
  testCampaignEmails : Table TestCampaignEmail

def BeforeMerge.db (before : BeforeMerge) : MergeDb :=
  ⟨before.campaigns, before.campaignEmails, some before.testCampaigns,
    some before.testCampaignEmails⟩

/-- In what order the database gives the rows of a table. -/
structure MergeOrder where
  campaigns : List TestCampaign → List TestCampaign
  emails : List TestCampaignEmail → List TestCampaignEmail
  campaigns_perm : ∀ rows, (campaigns rows).Perm rows
  emails_perm : ∀ rows, (emails rows).Perm rows

inductive MergeExc
  /-- `.first()[0]` of no row. -/
  | typeError
  /-- Any exception of the database, and the end of the process. -/
  | database
  deriving DecidableEq, Repr

abbrev MergeM (α : Type) : Type := Prog MergeExc MergeDb α

/-! ### `upgrade` -/

/-- The row that is inserted for a test campaign. -/
def TestCampaign.copy (row : TestCampaign) (id : Nat) : DatedCampaign where
  id := id
  name := row.name
  templateId := row.templateId
  kind := .test
  testCredentialId := row.testCredentialId
  status := row.status
  ownerId := row.ownerId
  pauseReason := row.pauseReason
  createdAt := row.createdAt

/-- `name = :name AND created_at = :created_at AND kind = 'test'`. -/
def TestCampaign.sameKey (row : TestCampaign) (c : DatedCampaign) : Bool :=
  c.name == row.name && (row.createdAt.isSome && c.createdAt == row.createdAt) && c.kind == .test

/-- The row that is inserted for an email of a test campaign. -/
def TestCampaignEmail.copy (campaignId : Nat) (row : TestCampaignEmail) (id : Nat) :
    CampaignEmail where
  id := id
  campaignId := campaignId
  leadId := none
  recipientEmail := row.recipientEmail
  subject := row.subject
  body := row.body
  status := row.status
  isSelected := row.isSelected
  missingFields := row.missingFields
  errorMessage := row.errorMessage
  sentAt := row.sentAt
  credentialId := row.credentialId

/-- `campaign_id = :cid AND recipient_email = :email AND lead_id IS NULL`. -/
def TestCampaignEmail.sameKey (campaignId : Nat) (row : TestCampaignEmail) (e : CampaignEmail) :
    Bool :=
  e.campaignId == campaignId && e.recipientEmail == row.recipientEmail && e.leadId.isNone

theorem TestCampaign.key_copy (row : TestCampaign) (n : Nat) : Keyed.key (row.copy n) = n := rfl

theorem TestCampaignEmail.key_copy (campaignId : Nat) (row : TestCampaignEmail) (n : Nat) :
    Keyed.key (row.copy campaignId n) = n := rfl

namespace CampaignMerge

/-- One row of `test_campaigns`: the number of its copy. -/
def copyCampaign (row : TestCampaign) : MergeM Nat := do
  match ← read fun db => db.campaigns.first? row.sameKey with
  | some existing => pure existing.id
  | none => do
      write fun db => { db with campaigns := db.campaigns.insertNew row.copy row.key_copy }
      match ← read fun db => db.campaigns.first? row.sameKey with
      | some created => pure created.id
      | none => raise .typeError

/-- The loop over `test_campaigns`, which builds `id_map`. -/
def copyCampaigns : List TestCampaign → List (Nat × Nat) → MergeM (List (Nat × Nat))
  | [], idMap => pure idMap
  | row :: rows, idMap => do
      let newId ← copyCampaign row
      copyCampaigns rows (idMap ++ [(row.id, newId)])

/-- One row of `test_campaign_emails`. -/
def copyEmail (idMap : List (Nat × Nat)) (row : TestCampaignEmail) : MergeM Unit :=
  match idMap.lookup row.testCampaignId with
  | none => pure ()
  | some newCampaignId => do
      let already ← read fun db => db.campaignEmails.first? (row.sameKey newCampaignId)
      if already.isSome then pure ()
      else
        write fun db => { db with
          campaignEmails := db.campaignEmails.insertNew (row.copy newCampaignId)
            (row.key_copy newCampaignId) }

def copyEmails (idMap : List (Nat × Nat)) : List TestCampaignEmail → MergeM Unit
  | [] => pure ()
  | row :: rows => do
      copyEmail idMap row
      copyEmails idMap rows

/-- The rows of a table that is there. -/
def rowsOfTable {R : Type} [Keyed R] (t : Option (Table R)) : List R :=
  (t.map Table.rows).getD []

/-- The second loop; `test_campaign_emails` is in `tables` if `emailsThere` says so. -/
def mergeEmails (order : MergeOrder) (emailsThere : Bool) (idMap : List (Nat × Nat)) :
    MergeM Unit :=
  if emailsThere && !idMap.isEmpty then do
    let oldEmails ← read fun db => order.emails (rowsOfTable db.testCampaignEmails)
    copyEmails idMap oldEmails
  else pure ()

def dropEmails (emailsThere : Bool) : MergeM Unit :=
  if emailsThere then write fun db => { db with testCampaignEmails := none } else pure ()

/-- `upgrade`, where `test_campaigns` is in `tables`. -/
def mergeTables (order : MergeOrder) (emailsThere : Bool) : MergeM Unit := do
  let oldCampaigns ← read fun db => order.campaigns (rowsOfTable db.testCampaigns)
  let idMap ← copyCampaigns oldCampaigns []
  mergeEmails order emailsThere idMap
  dropEmails emailsThere
  write fun db => { db with testCampaigns := none }

def upgrade (order : MergeOrder) : MergeM Unit := do
  let there ← read fun db => (db.testCampaigns.isSome, db.testCampaignEmails.isSome)
  if there.1 then mergeTables order there.2 else pure ()

/-- What attempts leave that may be interrupted at any statement. -/
def afterAttempts (attempts : List (MergeOrder × List (Option MergeExc))) (db : MergeDb) :
    MergeDb :=
  attempts.foldl (fun db attempt => (upgrade attempt.1 db attempt.2).2.1) db

/-! ### What is to come of it -/

/-- Every campaign and every email has a copy of its own, the email's under that of its
campaign, nothing else has changed, and the old tables are gone. -/
structure Merged (before : BeforeMerge) (db : MergeDb) : Prop where
  copies : ∃ image emailImage : Nat → Nat,
    db.campaigns.rows.Perm (before.campaigns.rows ++
      before.testCampaigns.rows.map fun row => row.copy (image row.id)) ∧
    db.campaignEmails.rows.Perm (before.campaignEmails.rows ++
      before.testCampaignEmails.rows.map fun row =>
        row.copy (image row.testCampaignId) (emailImage row.id))
  testCampaigns : db.testCampaigns = none
  testCampaignEmails : db.testCampaignEmails = none

/-- The columns that recognise a copy are a key of the old tables, and no email is without its
campaign. -/
structure Recognisable (before : BeforeMerge) : Prop where
  timed : ∀ row ∈ before.testCampaigns.rows, row.createdAt.isSome = true
  campaigns : ∀ row ∈ before.testCampaigns.rows, ∀ row' ∈ before.testCampaigns.rows,
    row.name = row'.name → row.createdAt = row'.createdAt → row = row'
  attached : ∀ row ∈ before.testCampaignEmails.rows,
    ∃ campaign ∈ before.testCampaigns.rows, campaign.id = row.testCampaignId
  recipients : ∀ row ∈ before.testCampaignEmails.rows, ∀ row' ∈ before.testCampaignEmails.rows,
    row.testCampaignId = row'.testCampaignId → row.recipientEmail = row'.recipientEmail → row = row'

/-- The tables between two statements: `campaigns` and `emails` have been copied. -/
structure Progress (before : BeforeMerge) (image emailImage : Nat → Nat)
    (campaigns : List TestCampaign) (emails : List TestCampaignEmail) (db : MergeDb) : Prop where
  copied : Copied TestCampaign.copy before.campaigns.rows campaigns image db.campaigns
  old : campaigns ⊆ before.testCampaigns.rows
  copiedEmails : Copied (fun row => row.copy (image row.testCampaignId))
    before.campaignEmails.rows emails emailImage db.campaignEmails
  oldEmails : emails ⊆ before.testCampaignEmails.rows
  /-- The emails come after all campaigns. -/
  later : emails ≠ [] → before.testCampaigns.rows ⊆ campaigns
  testCampaigns : db.testCampaigns = some before.testCampaigns ∨
    db.testCampaigns = none ∧ db.testCampaignEmails = none
  testCampaignEmails : db.testCampaignEmails = some before.testCampaignEmails ∨
    db.testCampaignEmails = none ∧ before.testCampaigns.rows ⊆ campaigns ∧
      before.testCampaignEmails.rows ⊆ emails

/-- Some of the rows have been copied. -/
def Partway (before : BeforeMerge) (db : MergeDb) : Prop :=
  ∃ image emailImage campaigns emails, Progress before image emailImage campaigns emails db

/-! ### An attempt, from one statement to the next -/

section

variable {before : BeforeMerge} {emailsThere : Bool} {image emailImage : Nat → Nat} {campaigns : List TestCampaign}
  {emails : List TestCampaignEmail} {db : MergeDb}

theorem recognises_campaigns (h : Recognisable before) :
    Recognises TestCampaign.sameKey TestCampaign.copy before.campaigns.rows
      before.testCampaigns.rows where
  base row _ c hc := by
    unfold TestCampaign.sameKey
    rw [before.production c hc]
    exact Bool.and_false _
  copy row hrow row' hrow' n := by
    have htimed := h.timed row hrow
    simp only [TestCampaign.sameKey, TestCampaign.copy, htimed, Bool.true_and, Bool.and_eq_true,
      beq_iff_eq, and_true]
    constructor
    · rintro ⟨hname, htime⟩
      exact h.campaigns row' hrow' row hrow hname htime
    · rintro rfl
      exact ⟨rfl, rfl⟩

theorem recognises_emails (h : Recognisable before)
    (hp : Progress before image emailImage campaigns emails db)
    (hall : before.testCampaigns.rows ⊆ campaigns) :
    Recognises (fun row => row.sameKey (image row.testCampaignId))
      (fun row => row.copy (image row.testCampaignId)) before.campaignEmails.rows
      before.testCampaignEmails.rows where
  base row _ e he := by
    have hlead := before.ofLeads e he
    unfold TestCampaignEmail.sameKey
    rw [Option.isNone_eq_false_iff.mpr hlead]
    exact Bool.and_false _
  copy row hrow row' hrow' n := by
    simp only [TestCampaignEmail.sameKey, TestCampaignEmail.copy, Option.isNone_none,
      Bool.and_true, Bool.and_eq_true, beq_iff_eq]
    constructor
    · rintro ⟨himage, hrecipient⟩
      obtain ⟨campaign, hcampaign, hid⟩ := h.attached row hrow
      obtain ⟨campaign', hcampaign', hid'⟩ := h.attached row' hrow'
      rw [← hid, ← hid'] at himage
      -- the copies of two campaigns have two numbers
      obtain rfl := hp.copied.image_inj TestCampaign.key_copy (hall hcampaign') (hall hcampaign)
        himage
      exact h.recipients row' hrow' row hrow (hid'.symm.trans hid) hrecipient
    · rintro rfl
      exact ⟨rfl, rfl⟩

/-- A campaign that has no copy yet. -/
theorem Progress.insertCampaign (hp : Progress before image emailImage campaigns emails db)
    {row : TestCampaign} (hrow : row ∈ before.testCampaigns.rows) (hnot : row ∉ campaigns)
    (hthere : db.testCampaigns = some before.testCampaigns) :
    Progress before (Function.update image row.id db.campaigns.nextKey) emailImage
      (campaigns ++ [row]) []
      { db with campaigns := db.campaigns.insertNew row.copy row.key_copy } where
  copied := by
    refine hp.copied.insertNew TestCampaign.key_copy fun hmem => hnot ?_
    obtain ⟨row', hrow', hkey⟩ := List.mem_map.mp hmem
    obtain rfl := before.testCampaigns.eq_of_key_eq (hp.old hrow') hrow hkey
    exact hrow'
  old := List.append_subset.mpr ⟨hp.old, List.cons_subset.mpr ⟨hrow, List.nil_subset _⟩⟩
  copiedEmails := by
    -- no email has been copied before its campaign
    have hnone : emails = [] := by
      by_contra hsome
      exact hnot (hp.later hsome hrow)
    have hcopied := hp.copiedEmails
    rw [hnone] at hcopied
    exact ⟨hcopied.rows, hcopied.nodup⟩
  oldEmails := List.nil_subset _
  later hne := absurd rfl hne
  testCampaigns := Or.inl hthere
  testCampaignEmails := by
    rcases hp.testCampaignEmails with hemails | ⟨-, hall, -⟩
    · exact Or.inl hemails
    · exact absurd (hall hrow) hnot

/-- An email that has no copy yet. -/
theorem Progress.insertEmail (hp : Progress before image emailImage campaigns emails db)
    (hall : before.testCampaigns.rows ⊆ campaigns) {row : TestCampaignEmail}
    (hrow : row ∈ before.testCampaignEmails.rows) (hnot : row ∉ emails) :
    Progress before image (Function.update emailImage row.id db.campaignEmails.nextKey) campaigns
      (emails ++ [row])
      { db with
        campaignEmails := db.campaignEmails.insertNew (row.copy (image row.testCampaignId))
          (row.key_copy (image row.testCampaignId)) } where
  copied := hp.copied
  old := hp.old
  copiedEmails := by
    refine hp.copiedEmails.insertNew (fun row => row.key_copy (image row.testCampaignId))
      fun hmem => hnot ?_
    obtain ⟨row', hrow', hkey⟩ := List.mem_map.mp hmem
    obtain rfl := before.testCampaignEmails.eq_of_key_eq (hp.oldEmails hrow') hrow hkey
    exact hrow'
  oldEmails := List.append_subset.mpr ⟨hp.oldEmails, List.cons_subset.mpr ⟨hrow, List.nil_subset _⟩⟩
  later _ := hall
  testCampaigns := hp.testCampaigns
  testCampaignEmails := by
    rcases hp.testCampaignEmails with hemails | ⟨hemails, hcampaigns, hsub⟩
    · exact Or.inl hemails
    · exact absurd (hsub hrow) hnot

/-- In the first loop: the rows of `id_map` have their copies. -/
def InCampaigns (before : BeforeMerge) (emailsThere : Bool) (visited : List TestCampaign)
    (idMap : List (Nat × Nat)) (db : MergeDb) : Prop :=
  ∃ image emailImage campaigns emails, Progress before image emailImage campaigns emails db ∧
    visited ⊆ campaigns ∧ idMap = visited.map (fun row => (row.id, image row.id)) ∧
      db.testCampaigns = some before.testCampaigns ∧ db.testCampaignEmails.isSome = emailsThere

theorem InCampaigns.partway {visited : List TestCampaign} {idMap : List (Nat × Nat)}
    (h : InCampaigns before emailsThere visited idMap db) : Partway before db := by
  obtain ⟨image, emailImage, campaigns, emails, hp, -⟩ := h
  exact ⟨image, emailImage, campaigns, emails, hp⟩

/-- The copy of a row that is found. -/
theorem InCampaigns.found (h : Recognisable before) {visited : List TestCampaign}
    {idMap : List (Nat × Nat)} (hin : InCampaigns before emailsThere visited idMap db) {row : TestCampaign}
    (hrow : row ∈ before.testCampaigns.rows) {c : DatedCampaign}
    (hc : db.campaigns.first? row.sameKey = some c) :
    InCampaigns before emailsThere (visited ++ [row]) (idMap ++ [(row.id, c.id)]) db := by
  obtain ⟨image, emailImage, campaigns, emails, hp, hvisited, hmap, hthere⟩ := hin
  obtain ⟨hmem, rfl⟩ := hp.copied.eq_of_first? (recognises_campaigns h) hp.old hrow hc
  refine ⟨image, emailImage, campaigns, emails, hp,
    List.append_subset.mpr ⟨hvisited, List.cons_subset.mpr ⟨hmem, List.nil_subset _⟩⟩, ?_, hthere⟩
  rw [List.map_append, hmap]
  rfl

/-- A copy that is inserted is found. -/
theorem InCampaigns.insert (h : Recognisable before) {visited : List TestCampaign}
    {idMap : List (Nat × Nat)} (hin : InCampaigns before emailsThere visited idMap db) {row : TestCampaign}
    (hrow : row ∈ before.testCampaigns.rows) (hnone : db.campaigns.first? row.sameKey = none) :
    InCampaigns before emailsThere visited idMap
        { db with campaigns := db.campaigns.insertNew row.copy row.key_copy } ∧
      ((db.campaigns.insertNew row.copy row.key_copy).first? row.sameKey).isSome = true := by
  obtain ⟨image, emailImage, campaigns, emails, hp, hvisited, hmap, hthere⟩ := hin
  have hnot : row ∉ campaigns := by
    intro hmem
    rw [hp.copied.first?_of_mem (recognises_campaigns h) hp.old hmem] at hnone
    cases hnone
  have hp' := hp.insertCampaign hrow hnot hthere.1
  refine ⟨⟨_, emailImage, campaigns ++ [row], [], hp',
    fun r hr => List.mem_append_left _ (hvisited hr), ?_, hthere⟩, ?_⟩
  · rw [hmap]
    refine List.map_congr_left fun r hr => ?_
    have hne : r.id ≠ row.id := by
      intro heq
      obtain rfl := before.testCampaigns.eq_of_key_eq (hp.old (hvisited hr)) hrow heq
      exact hnot (hvisited hr)
    rw [Function.update_of_ne hne]
  · have hfound := hp'.copied.first?_of_mem (recognises_campaigns h) hp'.old
      (List.mem_append_right _ (List.mem_singleton.mpr rfl))
    exact Option.isSome_iff_exists.mpr ⟨_, hfound⟩

variable {F : MergeExc → Prop}

/-- What an attempt that is interrupted leaves. -/
def Stopped (F : MergeExc → Prop) (before : BeforeMerge) (e : MergeExc) (db : MergeDb) : Prop :=
  F e ∧ Partway before db

theorem copyCampaign_ensures (h : Recognisable before) {visited : List TestCampaign}
    {idMap : List (Nat × Nat)} {row : TestCampaign} (hrow : row ∈ before.testCampaigns.rows) :
    Ensures F (InCampaigns before emailsThere visited idMap) (copyCampaign row)
      (fun newId => InCampaigns before emailsThere (visited ++ [row]) (idMap ++ [(row.id, newId)]))
      (Stopped F before) := by
  have hstop : ∀ (Q : MergeDb → Prop) e db, F e → InCampaigns before emailsThere visited idMap db ∧ Q db →
      Stopped F before e db := fun _ _ _ he hin => ⟨he, hin.1.partway⟩
  unfold copyCampaign
  refine ensures_bind (Q := fun found db => InCampaigns before emailsThere visited idMap db ∧
      db.campaigns.first? row.sameKey = found)
    (ensures_call (fun db hin => ⟨hin, rfl⟩) fun e db he hin => ⟨he, hin.partway⟩) fun found => ?_
  cases found with
  | some existing => exact ensures_pure fun db hin => hin.1.found h hrow hin.2
  | none =>
      refine ensures_bind (Q := fun _ db => InCampaigns before emailsThere visited idMap db ∧
          (db.campaigns.first? row.sameKey).isSome = true)
        (ensures_call (fun db hin => hin.1.insert h hrow hin.2) (hstop _)) fun _ => ?_
      refine ensures_bind (Q := fun found db => (InCampaigns before emailsThere visited idMap db ∧
          (db.campaigns.first? row.sameKey).isSome = true) ∧
          db.campaigns.first? row.sameKey = found)
        (ensures_call (fun db hin => ⟨hin, rfl⟩) (hstop _)) fun found => ?_
      cases found with
      | some created => exact ensures_pure fun db hin => hin.1.1.found h hrow hin.2
      | none =>
          refine ensures_raise fun db hin => ?_
          have hsome := hin.1.2
          rw [hin.2] at hsome
          cases hsome

theorem copyCampaigns_ensures (emailsThere : Bool) (h : Recognisable before) {rows : List TestCampaign}
    (hrows : rows ⊆ before.testCampaigns.rows) (visited : List TestCampaign)
    (idMap : List (Nat × Nat)) :
    Ensures F (InCampaigns before emailsThere visited idMap) (copyCampaigns rows idMap)
      (fun idMap => InCampaigns before emailsThere (visited ++ rows) idMap) (Stopped F before) := by
  induction rows generalizing visited idMap with
  | nil =>
      rw [List.append_nil]
      exact ensures_pure fun _ hin => hin
  | cons row rows ih =>
      obtain ⟨hrow, hrest⟩ := List.cons_subset.mp hrows
      have hstep := ih hrest (visited ++ [row])
      rw [List.append_assoc, List.singleton_append] at hstep
      exact ensures_bind (copyCampaign_ensures h hrow) fun newId => hstep _

/-! ### The emails -/

/-- In the second loop: the campaigns have their copies, and so have the emails visited. -/
def InEmails (before : BeforeMerge) (emailsThere : Bool) (image : Nat → Nat)
    (campaigns : List TestCampaign) (visited : List TestCampaignEmail) (db : MergeDb) : Prop :=
  ∃ emailImage emails, Progress before image emailImage campaigns emails db ∧
    before.testCampaigns.rows ⊆ campaigns ∧ visited ⊆ emails ∧
      db.testCampaigns = some before.testCampaigns ∧ db.testCampaignEmails.isSome = emailsThere

theorem InEmails.partway {visited : List TestCampaignEmail}
    (h : InEmails before emailsThere image campaigns visited db) : Partway before db := by
  obtain ⟨emailImage, emails, hp, -⟩ := h
  exact ⟨image, emailImage, campaigns, emails, hp⟩

theorem InEmails.found (h : Recognisable before) {visited : List TestCampaignEmail}
    (hin : InEmails before emailsThere image campaigns visited db) {row : TestCampaignEmail}
    (hrow : row ∈ before.testCampaignEmails.rows)
    (hfound : (db.campaignEmails.first? (row.sameKey (image row.testCampaignId))).isSome = true) :
    InEmails before emailsThere image campaigns (visited ++ [row]) db := by
  obtain ⟨emailImage, emails, hp, hall, hvisited, hthere⟩ := hin
  obtain ⟨e, he⟩ := Option.isSome_iff_exists.mp hfound
  have hmem := (hp.copiedEmails.eq_of_first? (recognises_emails h hp hall) hp.oldEmails hrow he).1
  exact ⟨emailImage, emails, hp, hall,
    List.append_subset.mpr ⟨hvisited, List.cons_subset.mpr ⟨hmem, List.nil_subset _⟩⟩, hthere⟩

theorem InEmails.insert (h : Recognisable before) {visited : List TestCampaignEmail}
    (hin : InEmails before emailsThere image campaigns visited db) {row : TestCampaignEmail}
    (hrow : row ∈ before.testCampaignEmails.rows)
    (hnone : db.campaignEmails.first? (row.sameKey (image row.testCampaignId)) = none) :
    InEmails before emailsThere image campaigns (visited ++ [row])
      { db with
        campaignEmails := db.campaignEmails.insertNew (row.copy (image row.testCampaignId))
          (row.key_copy (image row.testCampaignId)) } := by
  obtain ⟨emailImage, emails, hp, hall, hvisited, hthere⟩ := hin
  have hnot : row ∉ emails := by
    intro hmem
    rw [hp.copiedEmails.first?_of_mem (recognises_emails h hp hall) hp.oldEmails hmem] at hnone
    cases hnone
  refine ⟨_, emails ++ [row], hp.insertEmail hall hrow hnot, hall, ?_, hthere⟩
  exact List.append_subset.mpr ⟨fun r hr => List.mem_append_left _ (hvisited hr),
    List.subset_append_right emails [row]⟩

theorem lookup_idMap {rows : List TestCampaign} {k : Nat} (h : ∃ row ∈ rows, row.id = k) :
    (rows.map fun row => (row.id, image row.id)).lookup k = some (image k) := by
  induction rows with
  | nil =>
      obtain ⟨row, hrow, -⟩ := h
      cases hrow
  | cons row rows ih =>
      rw [List.map_cons, List.lookup_cons]
      by_cases heq : k = row.id
      · rw [heq, beq_self_eq_true]
      · rw [beq_false_of_ne heq]
        obtain ⟨row', hrow', hid⟩ := h
        rcases List.mem_cons.mp hrow' with rfl | hrow'
        · exact absurd hid.symm heq
        · exact ih ⟨row', hrow', hid⟩

theorem copyEmail_ensures (h : Recognisable before) {idMap : List (Nat × Nat)}
    {visited : List TestCampaignEmail} {row : TestCampaignEmail}
    (hrow : row ∈ before.testCampaignEmails.rows)
    (hmap : idMap.lookup row.testCampaignId = some (image row.testCampaignId)) :
    Ensures F (InEmails before emailsThere image campaigns visited) (copyEmail idMap row)
      (fun _ => InEmails before emailsThere image campaigns (visited ++ [row]))
      (Stopped F before) := by
  unfold copyEmail
  rw [hmap]
  refine ensures_bind (Q := fun already db =>
      InEmails before emailsThere image campaigns visited db ∧
        db.campaignEmails.first? (row.sameKey (image row.testCampaignId)) = already)
    (ensures_call (fun db hin => ⟨hin, rfl⟩) fun e db he hin => ⟨he, hin.partway⟩) fun already => ?_
  cases already with
  | some e =>
      exact ensures_pure fun db hin => hin.1.found h hrow (by rw [hin.2]; rfl)
  | none =>
      exact ensures_call (fun db hin => hin.1.insert h hrow hin.2)
        fun e db he hin => ⟨he, hin.1.partway⟩

theorem copyEmails_ensures (h : Recognisable before) {idMap : List (Nat × Nat)}
    {rows : List TestCampaignEmail} (hrows : rows ⊆ before.testCampaignEmails.rows)
    (hmap : ∀ row ∈ rows, idMap.lookup row.testCampaignId = some (image row.testCampaignId))
    (visited : List TestCampaignEmail) :
    Ensures F (InEmails before emailsThere image campaigns visited) (copyEmails idMap rows)
      (fun _ => InEmails before emailsThere image campaigns (visited ++ rows))
      (Stopped F before) := by
  induction rows generalizing visited with
  | nil =>
      rw [List.append_nil]
      exact ensures_pure fun _ hin => hin
  | cons row rows ih =>
      obtain ⟨hrow, hrest⟩ := List.cons_subset.mp hrows
      obtain ⟨hhead, htail⟩ := List.forall_mem_cons.mp hmap
      have hstep := ih hrest htail (visited ++ [row])
      rw [List.append_assoc, List.singleton_append] at hstep
      exact ensures_bind (copyEmail_ensures h hrow hhead) fun _ => hstep

/-- Everything has been copied. -/
def AllCopied (before : BeforeMerge) (emailsThere : Bool) (db : MergeDb) : Prop :=
  ∃ image campaigns, InEmails before emailsThere image campaigns before.testCampaignEmails.rows db

/-- After the first loop, with nothing visited in the second. -/
theorem InCampaigns.inEmails {rows : List TestCampaign} {idMap : List (Nat × Nat)}
    (hin : InCampaigns before emailsThere rows idMap db)
    (hperm : rows.Perm before.testCampaigns.rows) :
    ∃ image campaigns, idMap = rows.map (fun row => (row.id, image row.id)) ∧
      InEmails before emailsThere image campaigns [] db := by
  obtain ⟨image, emailImage, campaigns, emails, hp, hrows, hmap, hthere⟩ := hin
  exact ⟨image, campaigns, hmap, emailImage, emails, hp,
    fun row hrow => hrows (hperm.mem_iff.mpr hrow), List.nil_subset _, hthere⟩

/-- The old emails are all there, or all copied. -/
theorem InEmails.there {visited : List TestCampaignEmail}
    (hin : InEmails before emailsThere image campaigns visited db) :
    (emailsThere = true → db.testCampaignEmails = some before.testCampaignEmails) ∧
      (emailsThere = false →
        InEmails before emailsThere image campaigns before.testCampaignEmails.rows db) := by
  obtain ⟨emailImage, emails, hp, hall, hvisited, htables, hthere⟩ := hin
  rcases hp.testCampaignEmails with hsome | ⟨hnone, -, hsub⟩
  · rw [hsome, Option.isSome_some] at hthere
    exact ⟨fun _ => hsome, fun hfalse => by rw [hfalse] at hthere; cases hthere⟩
  · refine ⟨fun htrue => ?_, fun _ => ⟨emailImage, emails, hp, hall, hsub, htables, hthere⟩⟩
    rw [hnone, htrue] at hthere
    cases hthere

theorem mergeEmails_ensures (h : Recognisable before) (order : MergeOrder)
    {rows : List TestCampaign} (hperm : rows.Perm before.testCampaigns.rows)
    {idMap : List (Nat × Nat)} :
    Ensures F (InCampaigns before emailsThere rows idMap) (mergeEmails order emailsThere idMap)
      (fun _ => AllCopied before emailsThere) (Stopped F before) := by
  refine Ensures.mono (ensures_exists fun image => ensures_exists fun campaigns =>
    ensures_of_pre (P := fun db => idMap = rows.map (fun row => (row.id, image row.id)) ∧
      InEmails before emailsThere image campaigns [] db) (fun _ hin => hin.1) fun hmap => ?_)
    (fun db hin => hin.inEmails hperm) (fun _ _ hq => hq) fun _ _ he => he
  unfold mergeEmails
  by_cases hcopy : (emailsThere && !idMap.isEmpty) = true
  · rw [if_pos hcopy]
    have hthere : emailsThere = true := (Bool.and_eq_true_iff.mp hcopy).1
    refine ensures_bind (Q := fun old db => old.Perm before.testCampaignEmails.rows ∧
        InEmails before emailsThere image campaigns [] db)
      (ensures_call (fun db hin => ⟨?_, hin.2⟩) fun e db he hin => ⟨he, hin.2.partway⟩) fun old => ?_
    · dsimp only
      rw [hin.2.there.1 hthere]
      exact order.emails_perm _
    · refine ensures_of_pre (fun _ hin => hin.1) fun hold => ?_
      have hlookup : ∀ row ∈ old,
          idMap.lookup row.testCampaignId = some (image row.testCampaignId) := by
        intro row hrow
        obtain ⟨campaign, hcampaign, hid⟩ := h.attached row (hold.mem_iff.mp hrow)
        rw [hmap]
        exact lookup_idMap ⟨campaign, hperm.mem_iff.mpr hcampaign, hid⟩
      refine (copyEmails_ensures h (fun row hrow => hold.mem_iff.mp hrow) hlookup []).mono
        (fun _ hin => hin.2) (fun _ db hin => ⟨image, campaigns, ?_⟩) fun _ _ he => he
      obtain ⟨emailImage, emails, hp, hall, hvisited, htables⟩ := hin
      exact ⟨emailImage, emails, hp, hall, fun row hrow => hvisited (hold.mem_iff.mpr hrow), htables⟩
  · rw [if_neg hcopy]
    refine ensures_pure fun db hin => ⟨image, campaigns, ?_⟩
    cases hthere : emailsThere with
    | false => exact hthere ▸ hin.2.there.2 hthere
    | true =>
        -- there is no campaign, and so there is no email
        have hnone : before.testCampaignEmails.rows = [] := by
          rw [hthere, Bool.true_and, Bool.not_eq_true, Bool.not_eq_false', List.isEmpty_iff] at hcopy
          rw [hcopy, eq_comm, List.map_eq_nil_iff] at hmap
          rw [hmap] at hperm
          refine List.eq_nil_iff_forall_not_mem.mpr fun row hrow => ?_
          obtain ⟨campaign, hcampaign, -⟩ := h.attached row hrow
          exact absurd (hperm.mem_iff.mpr hcampaign) List.not_mem_nil
        rw [hnone, ← hthere]
        exact hin.2

theorem dropEmails_ensures :
    Ensures F (AllCopied before emailsThere) (dropEmails emailsThere)
      (fun _ => AllCopied before false) (Stopped F before) := by
  unfold dropEmails
  cases emailsThere with
  | false => exact ensures_pure fun _ hin => hin
  | true =>
      refine ensures_call (fun db hin => ?_) fun e db he hin => ?_
      · obtain ⟨image, campaigns, emailImage, emails, hp, hall, hvisited, htables, -⟩ := hin
        refine ⟨image, campaigns, emailImage, emails, ?_, hall, hvisited, htables, rfl⟩
        exact { hp with
          testCampaigns := Or.inl htables, testCampaignEmails := Or.inr ⟨rfl, hall, hvisited⟩ }
      · obtain ⟨image, campaigns, hin⟩ := hin
        exact ⟨he, hin.partway⟩

/-- When everything has been copied and the tables are gone. -/
theorem Progress.merged (hp : Progress before image emailImage campaigns emails db)
    (hall : before.testCampaigns.rows ⊆ campaigns)
    (hemails : before.testCampaignEmails.rows ⊆ emails) (hgone : db.testCampaigns = none)
    (hgone' : db.testCampaignEmails = none) : Merged before db where
  copies := ⟨image, emailImage,
    hp.copied.of_all hp.old hall before.testCampaigns.nodup_keys,
    hp.copiedEmails.of_all hp.oldEmails hemails before.testCampaignEmails.nodup_keys⟩
  testCampaigns := hgone
  testCampaignEmails := hgone'

/-- The last statement. -/
theorem AllCopied.dropCampaigns (h : AllCopied before false db) :
    Merged before { db with testCampaigns := none } ∧
      Partway before { db with testCampaigns := none } := by
  obtain ⟨image, campaigns, emailImage, emails, hp, hall, hvisited, -, hthere⟩ := h
  have hnone : db.testCampaignEmails = none := 
    Option.isNone_iff_eq_none.mp (Option.isSome_eq_false_iff.mp hthere)
  have hp' : Progress before image emailImage campaigns emails { db with testCampaigns := none } :=
    { hp with testCampaigns := Or.inr ⟨rfl, hnone⟩ }
  exact ⟨hp'.merged hall hvisited rfl hnone, image, emailImage, campaigns, emails, hp'⟩

theorem mergeTables_ensures (h : Recognisable before) (order : MergeOrder) :
    Ensures F (InCampaigns before emailsThere [] []) (mergeTables order emailsThere)
      (fun _ db => Merged before db ∧ Partway before db) (Stopped F before) := by
  unfold mergeTables
  refine ensures_bind (Q := fun old db => old.Perm before.testCampaigns.rows ∧
      InCampaigns before emailsThere [] [] db)
    (ensures_call (fun db hin => ⟨?_, hin⟩) fun e db he hin => ⟨he, hin.partway⟩) fun old => ?_
  · obtain ⟨image, emailImage, campaigns, emails, -, -, -, htables, -⟩ := hin
    dsimp only
    rw [htables]
    exact order.campaigns_perm _
  · refine ensures_of_pre (fun _ hin => hin.1) fun hold => ?_
    have hloop := copyCampaigns_ensures (F := F) emailsThere h
      (fun row hrow => hold.mem_iff.mp hrow) [] []
    refine ensures_bind (hloop.mono (fun _ hin => hin.2) (fun _ _ hq => hq) fun _ _ he => he)
      fun idMap => ensures_bind (mergeEmails_ensures h order hold) fun _ =>
        ensures_bind dropEmails_ensures fun _ => ?_
    refine ensures_call (fun db hin => hin.dropCampaigns) fun e db he hin => ⟨he, ?_⟩
    obtain ⟨image, campaigns, hin⟩ := hin
    exact hin.partway

/-- **One attempt**, wherever earlier ones have stopped: it copies what is left, or it stops too. -/
theorem upgrade_ensures (h : Recognisable before) (order : MergeOrder) :
    Ensures F (Partway before) (upgrade order) (fun _ db => Merged before db ∧ Partway before db)
      (Stopped F before) := by
  unfold upgrade
  refine ensures_bind (Q := fun there db => Partway before db ∧
      there = (db.testCampaigns.isSome, db.testCampaignEmails.isSome))
    (ensures_call (fun db hin => ⟨hin, rfl⟩) fun e db he hin => ⟨he, hin⟩) fun there => ?_
  obtain ⟨campaignsThere, emailsThere⟩ := there
  cases campaignsThere with
  | true =>
      refine (mergeTables_ensures h order).mono (fun db hin => ?_) (fun _ _ hq => hq) fun _ _ he => he
      obtain ⟨⟨image, emailImage, campaigns, emails, hp⟩, hthere⟩ := hin
      obtain ⟨hsome, hemails⟩ := Prod.mk.inj hthere
      refine ⟨image, emailImage, campaigns, emails, hp, List.nil_subset _, rfl, ?_, hemails.symm⟩
      rcases hp.testCampaigns with htables | ⟨hnone, -⟩
      · exact htables
      · rw [hnone] at hsome
        cases hsome
  | false =>
      refine ensures_pure fun db hin => ?_
      obtain ⟨⟨image, emailImage, campaigns, emails, hp⟩, hthere⟩ := hin
      obtain ⟨hnone, -⟩ := Prod.mk.inj hthere
      rcases hp.testCampaigns with htables | ⟨htables, hgone⟩
      · rw [htables] at hnone
        cases hnone
      · rcases hp.testCampaignEmails with hemails | ⟨-, hall, hsub⟩
        · rw [hgone] at hemails
          cases hemails
        · exact ⟨hp.merged hall hsub htables hgone, image, emailImage, campaigns, emails, hp⟩

/-- Nothing has been copied. -/
theorem partway_start (before : BeforeMerge) : Partway before before.db :=
  ⟨id, id, [], [], .empty _ _, List.nil_subset _, .empty _ _, List.nil_subset _,
    fun hne => absurd rfl hne, Or.inl rfl, Or.inl rfl⟩

/-- **Attempts that were interrupted** leave the tables partway, each wherever it stopped. -/
theorem partway_afterAttempts (h : Recognisable before)
    (attempts : List (MergeOrder × List (Option MergeExc))) :
    Partway before (afterAttempts attempts before.db) := by
  have hrun : ∀ attempts db, Partway before db → Partway before (afterAttempts attempts db) := by
    intro attempts
    induction attempts with
    | nil => exact fun _ hdb => hdb
    | cons attempt attempts ih =>
        intro db hdb
        refine ih (upgrade attempt.1 db attempt.2).2.1 ?_
        have hpost := (upgrade_ensures (F := fun _ => True) h attempt.1 db attempt.2
          (fun _ _ => trivial) hdb).2
        generalize upgrade attempt.1 db attempt.2 = r at hpost
        obtain ⟨v, db', fs⟩ := r
        cases v with
        | ok _ => exact hpost.2
        | error e => exact hpost.2
  exact hrun attempts before.db (partway_start before)

/-- **A run to the end.**  It copies every row, whatever was copied before. -/
theorem merged_of_recognisable (h : Recognisable before)
    (attempts : List (MergeOrder × List (Option MergeExc))) (order : MergeOrder) :
    (upgrade order (afterAttempts attempts before.db) []).1 = .ok () ∧
      Merged before (upgrade order (afterAttempts attempts before.db) []).2.1 := by
  have hnone : RaisesOnly (fun _ : MergeExc => False) [] := fun e he => absurd he List.not_mem_nil
  have hpost := (upgrade_ensures h order _ [] hnone (partway_afterAttempts h attempts)).2
  generalize upgrade order (afterAttempts attempts before.db) [] = r at hpost
  obtain ⟨v, db', fs⟩ := r
  cases v with
  | ok _ => exact ⟨rfl, hpost.1⟩
  | error e => exact absurd hpost.1 not_false

/-! ### A run that nothing interrupts -/

/-- A campaign without a time is not found when it has been copied. -/
theorem sameKey_of_none {row : TestCampaign} (h : row.createdAt.isSome = false)
    (c : DatedCampaign) : row.sameKey c = false := by
  unfold TestCampaign.sameKey
  rw [h, Bool.false_and, Bool.and_false, Bool.false_and]

/-- A campaign is copied by its key, and needs a time. -/
theorem copyCampaign_run {row : TestCampaign} {id : Nat} {db db' : MergeDb}
    {fs : List (Option MergeExc)} (hrun : copyCampaign row db [] = (.ok id, db', fs)) :
    row.createdAt.isSome = true ∧ fs = [] ∧ db' = { db with
      campaigns := copyRow TestCampaign.sameKey TestCampaign.copy TestCampaign.key_copy
        db.campaigns row } := by
  unfold copyCampaign at hrun
  rw [bind_apply, read_quiet quiet_nil, List.tail_nil] at hrun
  unfold copyRow
  cases hfound : db.campaigns.first? row.sameKey with
  | some existing =>
      rw [hfound] at hrun
      obtain ⟨-, hdb⟩ := Prod.mk.inj hrun
      obtain ⟨rfl, rfl⟩ := Prod.mk.inj hdb
      refine ⟨?_, rfl, rfl⟩
      have hsame := (Table.first?_spec hfound).1
      cases htime : row.createdAt.isSome with
      | true => rfl
      | false =>
          rw [sameKey_of_none htime] at hsame
          cases hsame
  | none =>
      rw [hfound] at hrun
      dsimp only at hrun
      rw [bind_apply, write_quiet quiet_nil] at hrun
      dsimp only at hrun
      rw [bind_apply, List.tail_nil, read_quiet quiet_nil, List.tail_nil] at hrun
      cases hagain : (db.campaigns.insertNew row.copy row.key_copy).first? row.sameKey with
      | some created =>
          dsimp only at hrun
          rw [hagain] at hrun
          obtain ⟨-, hdb⟩ := Prod.mk.inj hrun
          obtain ⟨rfl, rfl⟩ := Prod.mk.inj hdb
          refine ⟨?_, rfl, rfl⟩
          have hsame := (Table.first?_spec hagain).1
          cases htime : row.createdAt.isSome with
          | true => rfl
          | false =>
              rw [sameKey_of_none htime] at hsame
              cases hsame
      | none =>
          dsimp only at hrun
          rw [hagain] at hrun
          cases hrun

theorem copyCampaigns_run {rows : List TestCampaign} {idMap idMap' : List (Nat × Nat)}
    {db db' : MergeDb} {fs : List (Option MergeExc)}
    (hrun : copyCampaigns rows idMap db [] = (.ok idMap', db', fs)) :
    (∀ row ∈ rows, row.createdAt.isSome = true) ∧ fs = [] ∧
      idMap'.map Prod.fst = idMap.map Prod.fst ++ rows.map TestCampaign.id ∧
      db' = { db with
        campaigns := copyAll TestCampaign.sameKey TestCampaign.copy TestCampaign.key_copy
          db.campaigns rows } := by
  induction rows generalizing idMap db with
  | nil =>
      obtain ⟨hmap, hdb⟩ := Prod.mk.inj hrun
      obtain rfl := Except.ok.inj hmap
      obtain ⟨rfl, rfl⟩ := Prod.mk.inj hdb
      exact ⟨fun _ hrow => absurd hrow List.not_mem_nil, rfl, (List.append_nil _).symm, rfl⟩
  | cons row rows ih =>
      rw [copyCampaigns, bind_apply] at hrun
      cases hone : copyCampaign row db [] with
      | mk v rest =>
          obtain ⟨db₁, fs₁⟩ := rest
          rw [hone] at hrun
          cases v with
          | error e => cases hrun
          | ok id =>
              obtain ⟨htime, rfl, rfl⟩ := copyCampaign_run hone
              obtain ⟨htimes, hfs, hmap, hdb⟩ := ih hrun
              refine ⟨List.forall_mem_cons.mpr ⟨htime, htimes⟩, hfs, ?_, hdb⟩
              rw [hmap, List.map_append, List.append_assoc]
              rfl

/-- The number of the campaign that an email goes to. -/
def target (idMap : List (Nat × Nat)) (row : TestCampaignEmail) : Nat :=
  (idMap.lookup row.testCampaignId).getD 0

/-- The emails that are not left out. -/
def reached (idMap : List (Nat × Nat)) (rows : List TestCampaignEmail) : List TestCampaignEmail :=
  rows.filter fun row => (idMap.lookup row.testCampaignId).isSome

/-- What the second loop leaves. -/
def mergedEmails (idMap : List (Nat × Nat)) (rows : List TestCampaignEmail)
    (t : Table CampaignEmail) : Table CampaignEmail :=
  copyAll (fun row => row.sameKey (target idMap row)) (fun row => row.copy (target idMap row))
    (fun row => row.key_copy (target idMap row)) t (reached idMap rows)

theorem copyEmail_run (idMap : List (Nat × Nat)) (row : TestCampaignEmail) (db : MergeDb) :
    copyEmail idMap row db [] =
      (.ok (), { db with campaignEmails := mergedEmails idMap [row] db.campaignEmails }, []) := by
  unfold copyEmail mergedEmails reached
  cases hmap : idMap.lookup row.testCampaignId with
  | none =>
      rw [List.filter_singleton, hmap]
      rfl
  | some newCampaignId =>
      obtain rfl : target idMap row = newCampaignId := by
        unfold target
        rw [hmap]
        rfl
      rw [List.filter_singleton, hmap, Option.isSome_some, cond_true]
      unfold copyAll
      rw [List.foldl_cons, List.foldl_nil]
      unfold copyRow
      dsimp only
      rw [bind_apply, read_quiet quiet_nil, List.tail_nil]
      dsimp only
      split
      · rfl
      · rfl

theorem copyEmails_run (idMap : List (Nat × Nat)) (rows : List TestCampaignEmail)
    (db : MergeDb) :
    copyEmails idMap rows db [] =
      (.ok (), { db with campaignEmails := mergedEmails idMap rows db.campaignEmails }, []) := by
  induction rows generalizing db with
  | nil => rfl
  | cons row rows ih =>
      have hsplit : mergedEmails idMap (row :: rows) db.campaignEmails =
          mergedEmails idMap rows (mergedEmails idMap [row] db.campaignEmails) := by
        unfold mergedEmails copyAll
        rw [← List.foldl_append]
        unfold reached
        rw [← List.filter_append, List.singleton_append]
      rw [copyEmails, bind_apply, copyEmail_run]
      dsimp only
      rw [ih, hsplit]

/-- The rows as they come. -/
def inTableOrder : MergeOrder := ⟨id, id, List.Perm.refl, List.Perm.refl⟩

theorem mergeEmails_run (idMap : List (Nat × Nat)) {t : Table TestCampaignEmail} {db : MergeDb}
    (hthere : db.testCampaignEmails = some t) :
    mergeEmails inTableOrder true idMap db [] =
      (.ok (), { db with campaignEmails := mergedEmails idMap t.rows db.campaignEmails }, []) := by
  unfold mergeEmails
  cases idMap with
  | nil =>
      have hnone : mergedEmails [] t.rows db.campaignEmails = db.campaignEmails := by
        unfold mergedEmails reached
        rw [List.filter_eq_nil_iff.mpr fun row _ => by simp]
        rfl
      rw [hnone]
      rfl
  | cons e idMap =>
      have hrows : inTableOrder.emails (rowsOfTable db.testCampaignEmails) = t.rows := by
        rw [hthere]
        rfl
      rw [Bool.true_and, List.isEmpty_cons, Bool.not_false, if_pos rfl, bind_apply,
        read_quiet quiet_nil]
      dsimp only
      rw [hrows]
      exact copyEmails_run (e :: idMap) t.rows db

/-- What a run to the end has copied. -/
theorem upgrade_run (before : BeforeMerge)
    (hok : (upgrade inTableOrder before.db []).1 = .ok ()) :
    ∃ idMap : List (Nat × Nat), (∀ row ∈ before.testCampaigns.rows, row.createdAt.isSome = true) ∧
      idMap.map Prod.fst = before.testCampaigns.rows.map TestCampaign.id ∧
      (upgrade inTableOrder before.db []).2.1.campaigns =
        copyAll TestCampaign.sameKey TestCampaign.copy TestCampaign.key_copy before.campaigns
          before.testCampaigns.rows ∧
      (upgrade inTableOrder before.db []).2.1.campaignEmails =
        mergedEmails idMap before.testCampaignEmails.rows before.campaignEmails := by
  have hrun : upgrade inTableOrder before.db [] =
      (copyCampaigns before.testCampaigns.rows [] >>= fun idMap => do
        mergeEmails inTableOrder true idMap
        dropEmails true
        write fun db => { db with testCampaigns := none }) before.db [] := by
    unfold upgrade mergeTables
    rw [bind_apply, read_quiet quiet_nil]
    rfl
  rw [hrun, bind_apply] at hok ⊢
  cases hloop : copyCampaigns before.testCampaigns.rows [] before.db [] with
  | mk v rest =>
      obtain ⟨db, fs⟩ := rest
      rw [hloop] at hok
      cases v with
      | error e => cases hok
      | ok idMap =>
          obtain ⟨htimes, rfl, hmap, rfl⟩ := copyCampaigns_run hloop
          refine ⟨idMap, htimes, hmap, ?_⟩
          dsimp only
          rw [bind_apply, mergeEmails_run idMap rfl]
          exact ⟨rfl, rfl⟩

/-- Rows that differ in what they are recognised by wherever they come one after the other differ
in it anyway. -/
theorem eq_of_pairwise {A : Type} [Keyed A] {t : Table A} {R : A → A → Prop}
    (hsymm : ∀ {a a'}, R a a' → R a' a) (h : t.rows.Pairwise fun a a' => ¬ R a a') {a a' : A}
    (ha : a ∈ t.rows) (ha' : a' ∈ t.rows) (hr : R a a') : a = a' := by
  by_contra hne
  have hsymm' : Std.Symm fun a a' => ¬ R a a' := ⟨fun _ _ hnot hr => hnot (hsymm hr)⟩
  exact h.forall ha ha' hne hr

/-- What has been copied without a loss could be recognised. -/
theorem recognisable_of_merged (hok : (upgrade inTableOrder before.db []).1 = .ok ())
    (hmerged : Merged before (upgrade inTableOrder before.db []).2.1) : Recognisable before := by
  obtain ⟨idMap, htimes, hids, hcampaigns, hemails⟩ := upgrade_run before hok
  obtain ⟨image, emailImage, hperm, hpermEmails⟩ := hmerged.copies
  have hlength := hperm.length_eq
  have hlengthEmails := hpermEmails.length_eq
  rw [hcampaigns, List.length_append, List.length_map] at hlength
  rw [hemails, List.length_append, List.length_map] at hlengthEmails
  have hpairs := (fresh_of_length _ _ _ _ hlength).2
  -- the second loop left no email out
  have hle := length_copyAll_le (fun row => row.sameKey (target idMap row))
    (fun row => row.key_copy (target idMap row)) before.campaignEmails
    (reached idMap before.testCampaignEmails.rows)
  have hfilter := List.length_filter_le
    (fun row : TestCampaignEmail => (idMap.lookup row.testCampaignId).isSome)
    before.testCampaignEmails.rows
  have hall : reached idMap before.testCampaignEmails.rows = before.testCampaignEmails.rows := by
    refine List.filter_eq_self.mpr (List.length_filter_eq_length_iff.mp ?_)
    unfold mergedEmails at hlengthEmails
    unfold reached at hlengthEmails hle
    omega
  have hpairsEmails : before.testCampaignEmails.rows.Pairwise fun row row' =>
      ∃ n, row'.sameKey (target idMap row') (row.copy (target idMap row) n) = false := by
    unfold mergedEmails at hlengthEmails
    rw [hall] at hlengthEmails
    exact (fresh_of_length _ _ _ _ hlengthEmails).2
  refine ⟨htimes, fun row hrow row' hrow' hname htime => ?_, fun row hrow => ?_,
    fun row hrow row' hrow' hcampaign hrecipient => ?_⟩
  · refine eq_of_pairwise (R := fun row row' => row.name = row'.name ∧ row.createdAt = row'.createdAt)
      (fun h => ⟨h.1.symm, h.2.symm⟩) (hpairs.imp_of_mem ?_) hrow hrow' ⟨hname, htime⟩
    rintro a a' - ha' ⟨n, hnot⟩ ⟨hname, htime⟩
    simp [TestCampaign.sameKey, TestCampaign.copy, hname, htime, htimes a' ha'] at hnot
  · have hmem : row ∈ reached idMap before.testCampaignEmails.rows := by
      rw [hall]
      exact hrow
    have hsome := List.lookup_isSome_iff.mp (List.mem_filter.mp hmem).2
    obtain ⟨e, he, hkey⟩ := hsome
    have hid : row.testCampaignId ∈ before.testCampaigns.rows.map TestCampaign.id := by
      rw [← hids, beq_iff_eq.mp hkey]
      exact List.mem_map_of_mem he
    exact List.mem_map.mp hid
  · refine eq_of_pairwise (R := fun row row' => row.testCampaignId = row'.testCampaignId ∧
        row.recipientEmail = row'.recipientEmail)
      (fun h => ⟨h.1.symm, h.2.symm⟩) (hpairsEmails.imp ?_) hrow hrow' ⟨hcampaign, hrecipient⟩
    rintro a a' ⟨n, hnot⟩ ⟨hcampaign, hrecipient⟩
    simp [TestCampaignEmail.sameKey, TestCampaignEmail.copy, target, hcampaign, hrecipient] at hnot

end

/--
**Every test campaign and every test email is kept**: a run of `upgrade` to its end, whatever
attempts were interrupted before it and in whatever order the rows come, gives every test
campaign and every test email one copy of its own, if and only if no test campaign is without
a time or shares its name and time with another, no email is without its campaign, and none
shares its recipient with another of its campaign.
-/
theorem every_test_row_kept_iff (before : BeforeMerge) :
    (∀ attempts order, (upgrade order (afterAttempts attempts before.db) []).1 = .ok () ∧
        Merged before (upgrade order (afterAttempts attempts before.db) []).2.1) ↔
      Recognisable before := by
  constructor
  · intro h
    obtain ⟨hok, hmerged⟩ := h [] inTableOrder
    exact recognisable_of_merged hok hmerged
  · exact fun h attempts order => merged_of_recognisable h attempts order

/-! ### A repeated recipient -/

/-- A test campaign, and two different letters to one address. -/
def twoLetters : BeforeMerge where
  campaigns := Table.empty
  production := fun _ hc => absurd hc List.not_mem_nil
  campaignEmails := Table.empty
  ofLeads := fun _ he => absurd he List.not_mem_nil
  testCampaigns :=
    ⟨[⟨1, "Dry run", some 1, some 1, .completed, none, some 1, some 1000⟩], 2, by decide, by decide⟩
  testCampaignEmails :=
    ⟨[⟨1, 1, "qa@x.in", "First", "Hello", .sent, true, none, none, some 1, some 2000⟩,
      ⟨2, 1, "qa@x.in", "Second", "Hello again", .failed, true, none, some "bounced", some 1, none⟩],
      3, by decide, by decide⟩

/-- The run ends, the old tables are gone, and so is the second letter. -/
theorem repeated_recipient_lost :
    (upgrade inTableOrder twoLetters.db []).1 = .ok () ∧
      (upgrade inTableOrder twoLetters.db []).2.1.campaignEmails.rows.map CampaignEmail.subject =
        ["First"] ∧
      (upgrade inTableOrder twoLetters.db []).2.1.testCampaignEmails.isNone = true ∧
      ¬ Merged twoLetters (upgrade inTableOrder twoLetters.db []).2.1 := by
  have hsubjects : (upgrade inTableOrder twoLetters.db []).2.1.campaignEmails.rows.map
      CampaignEmail.subject = ["First"] := by
    decide +kernel
  refine ⟨by decide +kernel, hsubjects, by decide +kernel, fun hmerged => ?_⟩
  obtain ⟨image, emailImage, -, hperm⟩ := hmerged.copies
  have hlength := hperm.length_eq
  have hone := congrArg List.length hsubjects
  rw [List.length_map, hlength, List.length_append, List.length_map] at hone
  exact absurd hone (by decide)

end CampaignMerge

end GovCrawler
