/-
The migration that merges the leads of an email, `alembic/versions/0028_dedupe_lead_email_global.py`.

Of the rows of an email one is kept.  Each other row gives it what it lacks, then its campaign
emails and its occurrences, unless there is one of the job already, and is deleted.  `Merges` says
what that does to the three tables, along the map from the leads before to the leads after; such
maps compose, so that the steps of a run add up to one of them.

In what order the database answers is a parameter.  Each query of a run is about rows of its own,
which is why an order of the answers may depend on what is in them alone.
-/
import GovCrawler.Leads.MergeLaw
import GovCrawler.Outreach.Tables
import Mathlib.Data.List.Dedup

namespace GovCrawler

namespace DedupeMigration

open Relational

/-! ### The migration -/

structure LeadTables where
  leads : Table Lead := Table.empty
  occurrences : Table LeadOccurrence := Table.empty
  campaignEmails : Table CampaignEmail := Table.empty

/-- In what order the database gives the rows that a query selects. -/
structure QueryOrder where
  emails : List String → List String
  rows : List Lead → List Lead
  occurrences : List LeadOccurrence → List LeadOccurrence
  emails_perm : ∀ l, (emails l).Perm l
  rows_perm : ∀ l, (rows l).Perm l
  occurrences_perm : ∀ l, (occurrences l).Perm l

/-- `_ENRICHABLE_FIELDS`. -/
def ENRICHABLE_FIELDS : List EnrichableField :=
  [.personName, .designation, .department, .sourceTitle, .contextSnippet, .phone, .entityKind]

/-- `SET {field} = :value`. -/
def setField (field : EnrichableField) (value : Option String) (lead : Lead) : Lead :=
  match field with
  | .personName => { lead with personName := value }
  | .designation => { lead with designation := value }
  | .department => { lead with department := value }
  | .sourceTitle => { lead with sourceTitle := value }
  | .contextSnippet => { lead with contextSnippet := value }
  | .phone => { lead with phone := value }
  | .entityKind => { lead with entityKind := value }

theorem key_setField (field : EnrichableField) (value : Option String) (lead : Lead) :
    Keyed.key (setField field value lead) = Keyed.key lead := by
  cases field <;> rfl

def setBand (band : Option String) (lead : Lead) : Lead := { lead with confidenceBand := band }

theorem key_setBand (band : Option String) (lead : Lead) :
    Keyed.key (setBand band lead) = Keyed.key lead :=
  rfl

/-- `SET lead_id = :canonical`. -/
def pointOccurrence (leadId : Nat) (o : LeadOccurrence) : LeadOccurrence := { o with leadId := leadId }

theorem key_pointOccurrence (leadId : Nat) (o : LeadOccurrence) :
    Keyed.key (pointOccurrence leadId o) = Keyed.key o :=
  rfl

def pointEmail (leadId : Nat) (e : CampaignEmail) : CampaignEmail := { e with leadId := some leadId }

theorem key_pointEmail (leadId : Nat) (e : CampaignEmail) :
    Keyed.key (pointEmail leadId e) = Keyed.key e :=
  rfl

/-- Whether `max` prefers a row: for its band, else for its lower id. -/
def outranks (row best : Lead) : Bool :=
  decide (bandRank best.confidenceBand < bandRank row.confidenceBand) ||
    (bandRank best.confidenceBand == bandRank row.confidenceBand && decide (row.id < best.id))

/-- `_pick_canonical`. -/
def pickCanonical : List Lead → Option Lead
  | [] => none
  | row :: rows => some (rows.foldl (fun best row => if outranks row best then row else best) row)

/-- The body of the loop over the fields. -/
def enrichField (canonicalId : Nat) (row : Lead) (leads : Table Lead) (field : EnrichableField) :
    Table Lead :=
  if truthy (field.ofLead row) then
    leads.updateWhere (fun l => l.id == canonicalId && !truthy (field.ofLead l))
      (setField field (field.ofLead row)) (key_setField field (field.ofLead row))
  else leads

/-- The body of the loop over the occurrences. -/
def moveOccurrence (canonicalId : Nat) (occurrences : Table LeadOccurrence) (occ : LeadOccurrence) :
    Table LeadOccurrence :=
  match occurrences.first? fun o => o.leadId == canonicalId && o.jobId == occ.jobId with
  | some _ => occurrences.deleteWhere fun o => o.id == occ.id
  | none => occurrences.updateWhere (fun o => o.id == occ.id) (pointOccurrence canonicalId)
      (key_pointOccurrence canonicalId)

/-- The body of the loop over the rows, for one that is not kept. -/
def mergeRow (order : QueryOrder) (canonical : Lead) (tables : LeadTables) (row : Lead) :
    LeadTables :=
  let leads := ENRICHABLE_FIELDS.foldl (enrichField canonical.id row) tables.leads
  let leads :=
    if bandRank canonical.confidenceBand < bandRank row.confidenceBand then
      leads.updateWhere (fun l => l.id == canonical.id) (setBand row.confidenceBand)
        (key_setBand row.confidenceBand)
    else leads
  { leads := leads.deleteWhere fun l => l.id == row.id
    occurrences := (order.occurrences (tables.occurrences.select fun o => o.leadId == row.id)).foldl
      (moveOccurrence canonical.id) tables.occurrences
    campaignEmails := tables.campaignEmails.updateWhere (fun e => e.leadId == some row.id)
      (pointEmail canonical.id) (key_pointEmail canonical.id) }

/-- The body, with the count. -/
def visitRow (order : QueryOrder) (canonical : Lead) (state : LeadTables × Nat) (row : Lead) :
    LeadTables × Nat :=
  if row.id = canonical.id then state else (mergeRow order canonical state.1 row, state.2 + 1)

/-- The body of the loop over the emails. -/
def dedupeEmail (order : QueryOrder) (state : LeadTables × Nat) (email : String) :
    LeadTables × Nat :=
  let rows := order.rows (state.1.leads.select fun l => l.email == email)
  match pickCanonical rows with
  | none => state
  | some canonical => rows.foldl (visitRow order canonical) state

/-- `SELECT email FROM leads GROUP BY email HAVING COUNT(*) > 1`. -/
def dupeEmails (leads : Table Lead) : List String :=
  (leads.rows.map Lead.email).dedup.filter fun email => decide (1 < leads.count fun l => l.email == email)

/-- `_dedupe_leads`, with the number of rows that it has merged. -/
def dedupeLeads (order : QueryOrder) (tables : LeadTables) : LeadTables × Nat :=
  (order.emails (dupeEmails tables.leads)).foldl (dedupeEmail order) (tables, 0)

/-! ### What a row gives -/

section Fields

variable (row : Lead)

theorem ofLead_setField (field other : EnrichableField) (value : Option String) (lead : Lead) :
    other.ofLead (setField field value lead) = if field = other then value else other.ofLead lead := by
  cases field <;> cases other <;> rfl

/-- What a lead is after an update of a field. -/
def fillField (lead : Lead) (field : EnrichableField) : Lead :=
  if fills (field.ofLead lead) (field.ofLead row) then setField field (field.ofLead row) lead else lead

theorem id_fillField (lead : Lead) (field : EnrichableField) :
    (fillField row lead field).id = lead.id := by
  unfold fillField
  split
  · exact key_setField field _ lead
  · rfl

theorem email_fillField (lead : Lead) (field : EnrichableField) :
    (fillField row lead field).email = lead.email := by
  unfold fillField
  split
  · cases field <;> rfl
  · rfl

/-- A field is not blank afterwards if it was not, or if the row has a value for it. -/
theorem truthy_fillField (lead : Lead) (field other : EnrichableField) :
    truthy (other.ofLead (fillField row lead field)) = true ↔
      truthy (other.ofLead lead) = true ∨ (field = other ∧ truthy (other.ofLead row) = true) := by
  unfold fillField fills
  by_cases hfield : field = other
  · subst hfield
    cases hrow : truthy (field.ofLead row) with
    | false => simp
    | true =>
        cases hlead : truthy (field.ofLead lead) with
        | true => simp [hlead]
        | false => simp [ofLead_setField, hrow]
  · split
    · simp [ofLead_setField, hfield]
    · simp [hfield]

/-- What a lead is after the updates of many fields. -/
def fillFields (fields : List EnrichableField) (lead : Lead) : Lead := fields.foldl (fillField row) lead

theorem id_fillFields (fields : List EnrichableField) (lead : Lead) :
    (fillFields row fields lead).id = lead.id := by
  induction fields generalizing lead with
  | nil => rfl
  | cons field fields ih => exact (ih _).trans (id_fillField row lead field)

theorem email_fillFields (fields : List EnrichableField) (lead : Lead) :
    (fillFields row fields lead).email = lead.email := by
  induction fields generalizing lead with
  | nil => rfl
  | cons field fields ih => exact (ih _).trans (email_fillField row lead field)

theorem truthy_fillFields (fields : List EnrichableField) (lead : Lead) (other : EnrichableField) :
    truthy (other.ofLead (fillFields row fields lead)) = true ↔
      truthy (other.ofLead lead) = true ∨ (other ∈ fields ∧ truthy (other.ofLead row) = true) := by
  induction fields generalizing lead with
  | nil => simp [fillFields]
  | cons field fields ih =>
      show truthy (other.ofLead (fillFields row fields (fillField row lead field))) = true ↔ _
      rw [ih, truthy_fillField, List.mem_cons, or_assoc, ← or_and_right,
        @eq_comm _ field other]

theorem mem_ENRICHABLE_FIELDS (field : EnrichableField) : field ∈ ENRICHABLE_FIELDS := by
  cases field <;> decide

end Fields

/-! ### The leads after a row -/

/-- The row that is kept, with what the other gives it. -/
def absorb (canonical row lead : Lead) : Lead :=
  let lead := fillFields row ENRICHABLE_FIELDS lead
  if bandRank canonical.confidenceBand < bandRank row.confidenceBand then
    setBand row.confidenceBand lead
  else lead

section Absorb

variable (canonical row lead : Lead)

theorem id_absorb : (absorb canonical row lead).id = lead.id := by
  unfold absorb
  dsimp only
  split
  · exact id_fillFields row ENRICHABLE_FIELDS lead
  · exact id_fillFields row ENRICHABLE_FIELDS lead

theorem email_absorb : (absorb canonical row lead).email = lead.email := by
  unfold absorb
  dsimp only
  split
  · exact email_fillFields row ENRICHABLE_FIELDS lead
  · exact email_fillFields row ENRICHABLE_FIELDS lead

theorem truthy_absorb (field : EnrichableField) :
    truthy (field.ofLead (absorb canonical row lead)) = true ↔
      truthy (field.ofLead lead) = true ∨ truthy (field.ofLead row) = true := by
  have hfill := truthy_fillFields row ENRICHABLE_FIELDS lead field
  rw [and_iff_right (mem_ENRICHABLE_FIELDS field)] at hfill
  rw [← hfill]
  unfold absorb
  dsimp only
  split
  · cases field <;> exact Iff.rfl
  · exact Iff.rfl

end Absorb

theorem get?_enrichFields (canonicalId : Nat) (row : Lead) (fields : List EnrichableField)
    (leads : Table Lead) (k : Nat) :
    (fields.foldl (enrichField canonicalId row) leads).get? k =
      if k = canonicalId then (leads.get? k).map (fillFields row fields) else leads.get? k := by
  induction fields generalizing leads with
  | nil =>
      split
      · exact Option.map_id'.symm
      · rfl
  | cons field fields ih =>
      have hstep : (enrichField canonicalId row leads field).get? k =
          if k = canonicalId then (leads.get? k).map (fillField row · field) else leads.get? k := by
        unfold enrichField fillField fills
        cases hrow : truthy (field.ofLead row) with
        | false => simp
        | true =>
            rw [if_pos rfl, Table.get?_updateWhere]
            cases hget : leads.get? k with
            | none => simp
            | some l =>
                have hid : l.id = k := Table.get?_key hget
                by_cases hk : k = canonicalId
                · simp [hid, hk]
                · simp [hid, hk]
      rw [List.foldl_cons, ih, hstep]
      by_cases hk : k = canonicalId
      · rw [if_pos hk, if_pos hk, if_pos hk, Option.map_map]
        rfl
      · rw [if_neg hk, if_neg hk, if_neg hk]

section Rows

variable {order : QueryOrder} {canonical row : Lead} {tables : LeadTables}

/-- The row is gone, the one that is kept has absorbed it, and the others are as they were. -/
theorem get?_mergeRow (k : Nat) : (mergeRow order canonical tables row).leads.get? k =
    if k = row.id then none
    else if k = canonical.id then (tables.leads.get? k).map (absorb canonical row)
    else tables.leads.get? k := by
  have hupdated : ∀ leads : Table Lead,
      (if bandRank canonical.confidenceBand < bandRank row.confidenceBand then
        leads.updateWhere (fun l => l.id == canonical.id) (setBand row.confidenceBand)
          (key_setBand row.confidenceBand)
      else leads).get? k =
        if k = canonical.id then (leads.get? k).map fun lead =>
          if bandRank canonical.confidenceBand < bandRank row.confidenceBand then
            setBand row.confidenceBand lead
          else lead
        else leads.get? k := by
    intro leads
    by_cases hband : bandRank canonical.confidenceBand < bandRank row.confidenceBand
    · simp only [if_pos hband]
      by_cases hk : k = canonical.id
      · subst hk
        rw [if_pos rfl]
        exact leads.get?_updateWhere_self _ (key_setBand row.confidenceBand) _
      · rw [if_neg hk]
        exact leads.get?_updateWhere_of_ne _ (key_setBand row.confidenceBand) (Ne.symm hk)
    · simp [if_neg hband]
  refine (Table.get?_deleteWhere_key _ k row.id).trans ?_
  rw [hupdated, get?_enrichFields]
  by_cases hk : k = canonical.id
  · rw [if_pos hk, if_pos hk, if_pos hk, Option.map_map]
    rfl
  · rw [if_neg hk, if_neg hk, if_neg hk]

/-- The leads that there are after a row. -/
theorem mem_mergeRow_iff (hne : canonical.id ≠ row.id) {l' : Lead} :
    l' ∈ (mergeRow order canonical tables row).leads.rows ↔
      (l' ∈ tables.leads.rows ∧ l'.id ≠ row.id ∧ l'.id ≠ canonical.id) ∨
        ∃ l ∈ tables.leads.rows, l.id = canonical.id ∧ l' = absorb canonical row l := by
  constructor
  · intro hl'
    have hget : (mergeRow order canonical tables row).leads.get? l'.id = some l' :=
      Table.get?_of_mem hl'
    rw [get?_mergeRow] at hget
    split at hget
    · cases hget
    · rename_i hrow
      split at hget
      · rename_i hcanonical
        obtain ⟨l, hl, rfl⟩ := Option.map_eq_some_iff.mp hget
        exact Or.inr ⟨l, Table.get?_mem hl, (Table.get?_key hl).trans hcanonical, rfl⟩
      · rename_i hcanonical
        exact Or.inl ⟨Table.get?_mem hget, hrow, hcanonical⟩
  · rintro (⟨hl', hrow, hcanonical⟩ | ⟨l, hl, hid, rfl⟩)
    · refine Table.get?_mem (k := l'.id) ?_
      rw [get?_mergeRow, if_neg hrow, if_neg hcanonical]
      exact Table.get?_of_mem hl'
    · refine Table.get?_mem (k := canonical.id) ?_
      rw [get?_mergeRow, if_neg hne, if_pos rfl, ← hid]
      exact congrArg (Option.map (absorb canonical row)) (Table.get?_of_mem hl)

end Rows

/-! ### The occurrences after a row -/

/-- A lead has one occurrence for each job. -/
def Unique (occurrences : Table LeadOccurrence) : Prop :=
  ∀ o ∈ occurrences.rows, ∀ o' ∈ occurrences.rows, o.leadId = o'.leadId → o.jobId = o'.jobId → o = o'

/-- Where the id of a lead goes when a row is merged into another. -/
def redirect (rowId canonicalId : Nat) (k : Nat) : Nat := if k = rowId then canonicalId else k

/-- There is an occurrence of the lead in the job, once the ids have gone where `move` sends them. -/
def Held (move : Nat → Nat) (occurrences : Table LeadOccurrence) (leadId jobId : Nat) : Prop :=
  ∃ o ∈ occurrences.rows, move o.leadId = leadId ∧ o.jobId = jobId

section Occurrences

variable {rowId canonicalId : Nat} {occurrences : Table LeadOccurrence} {occ : LeadOccurrence}

/-- An occurrence is deleted for one that is there, or goes to the lead that has none. -/
theorem moveOccurrence_cases (hocc : occ ∈ occurrences.rows) (canonicalId : Nat) :
    ((∃ o ∈ occurrences.rows, o.leadId = canonicalId ∧ o.jobId = occ.jobId) ∧
      ∀ o, o ∈ (moveOccurrence canonicalId occurrences occ).rows ↔
        o ∈ occurrences.rows ∧ o.id ≠ occ.id) ∨
    ((∀ o ∈ occurrences.rows, o.leadId = canonicalId → o.jobId ≠ occ.jobId) ∧
      ∀ o, o ∈ (moveOccurrence canonicalId occurrences occ).rows ↔
        (o ∈ occurrences.rows ∧ o.id ≠ occ.id) ∨ o = pointOccurrence canonicalId occ) := by
  unfold moveOccurrence
  cases hfirst : occurrences.first? fun o => o.leadId == canonicalId && o.jobId == occ.jobId with
  | some o =>
      obtain ⟨hp, hget⟩ := Table.first?_spec hfirst
      obtain ⟨hlead, hjob⟩ := Bool.and_eq_true_iff.mp hp
      exact Or.inl ⟨⟨o, Table.get?_mem hget, beq_iff_eq.mp hlead, beq_iff_eq.mp hjob⟩,
        fun _ => occurrences.mem_deleteWhere_key⟩
  | none =>
      rw [Table.first?_eq_none_iff] at hfirst
      refine Or.inr ⟨fun o ho hlead hjob => ?_, fun _ =>
        occurrences.mem_updateWhere_key _ (key_pointOccurrence canonicalId) hocc⟩
      have hfalse := hfirst o ho
      rw [hlead, hjob] at hfalse
      simp at hfalse

theorem held_moveOccurrence (hne : canonicalId ≠ rowId) (hocc : occ ∈ occurrences.rows)
    (hlead : occ.leadId = rowId) (leadId jobId : Nat) :
    Held (redirect rowId canonicalId) (moveOccurrence canonicalId occurrences occ) leadId jobId ↔
      Held (redirect rowId canonicalId) occurrences leadId jobId := by
  have hmoved : redirect rowId canonicalId occ.leadId = canonicalId := if_pos hlead
  have hfixed : redirect rowId canonicalId canonicalId = canonicalId := if_neg hne
  unfold Held
  rcases moveOccurrence_cases hocc canonicalId with ⟨⟨o', ho', hlead', hjob'⟩, hrows⟩ | ⟨-, hrows⟩
  · constructor
    · rintro ⟨o, ho, hpair⟩
      exact ⟨o, ((hrows o).mp ho).1, hpair⟩
    · rintro ⟨o, ho, hleadId, hjobId⟩
      by_cases hid : o.id = occ.id
      · -- the one that is there stands in for the one that is deleted
        obtain rfl := occurrences.eq_of_key_eq ho hocc hid
        have hother : o'.id ≠ o.id := by
          intro hsame
          obtain rfl := occurrences.eq_of_key_eq ho' hocc hsame
          exact hne (hlead'.symm.trans hlead)
        refine ⟨o', (hrows o').mpr ⟨ho', hother⟩, ?_, hjob'.trans hjobId⟩
        rw [hlead', hfixed, ← hmoved, hleadId]
      · exact ⟨o, (hrows o).mpr ⟨ho, hid⟩, hleadId, hjobId⟩
  · constructor
    · rintro ⟨o, ho, hleadId, hjobId⟩
      rcases (hrows o).mp ho with ⟨hold, -⟩ | rfl
      · exact ⟨o, hold, hleadId, hjobId⟩
      · exact ⟨occ, hocc, hmoved.trans (hfixed.symm.trans hleadId), hjobId⟩
    · rintro ⟨o, ho, hleadId, hjobId⟩
      by_cases hid : o.id = occ.id
      · obtain rfl := occurrences.eq_of_key_eq ho hocc hid
        exact ⟨_, (hrows _).mpr (Or.inr rfl), hfixed.trans (hmoved.symm.trans hleadId), hjobId⟩
      · exact ⟨o, (hrows o).mpr (Or.inl ⟨ho, hid⟩), hleadId, hjobId⟩

theorem unique_moveOccurrence (hocc : occ ∈ occurrences.rows) (hunique : Unique occurrences) :
    Unique (moveOccurrence canonicalId occurrences occ) := by
  rcases moveOccurrence_cases hocc canonicalId with ⟨-, hrows⟩ | ⟨hnone, hrows⟩
  · intro o ho o' ho'
    exact hunique o ((hrows o).mp ho).1 o' ((hrows o').mp ho').1
  · intro o ho o' ho' hlead hjob
    rcases (hrows o).mp ho with ⟨hold, -⟩ | rfl
    · rcases (hrows o').mp ho' with ⟨hold', -⟩ | rfl
      · exact hunique o hold o' hold' hlead hjob
      · exact absurd hjob (hnone o hold hlead)
    · rcases (hrows o').mp ho' with ⟨hold', -⟩ | rfl
      · exact absurd hjob.symm (hnone o' hold' hlead.symm)
      · rfl

/-- All occurrences of the row go, whatever the order they are taken in. -/
theorem moveOccurrences_spec (hne : canonicalId ≠ rowId) (occs : List LeadOccurrence)
    (occurrences : Table LeadOccurrence) (hnodup : (occs.map LeadOccurrence.id).Nodup)
    (hoccs : ∀ o ∈ occs, o ∈ occurrences.rows ∧ o.leadId = rowId)
    (hall : ∀ o ∈ occurrences.rows, o.leadId = rowId → o ∈ occs) :
    (∀ leadId jobId, Held (redirect rowId canonicalId)
        (occs.foldl (moveOccurrence canonicalId) occurrences) leadId jobId ↔
      Held (redirect rowId canonicalId) occurrences leadId jobId) ∧
    (Unique occurrences → Unique (occs.foldl (moveOccurrence canonicalId) occurrences)) ∧
    ∀ o ∈ (occs.foldl (moveOccurrence canonicalId) occurrences).rows, o.leadId ≠ rowId := by
  induction occs generalizing occurrences with
  | nil => exact ⟨fun _ _ => Iff.rfl, id, fun o ho hlead => List.not_mem_nil (hall o ho hlead)⟩
  | cons occ occs ih =>
      obtain ⟨hocc, hlead⟩ := hoccs occ List.mem_cons_self
      rw [List.map_cons, List.nodup_cons] at hnodup
      have hother : ∀ o ∈ occs, o.id ≠ occ.id := fun o ho hid =>
        hnodup.1 (hid ▸ List.mem_map_of_mem ho)
      have hsubset : ∀ o, o.leadId = rowId → (o ∈ (moveOccurrence canonicalId occurrences occ).rows ↔
          o ∈ occurrences.rows ∧ o.id ≠ occ.id) := by
        intro o ho
        rcases moveOccurrence_cases hocc canonicalId with ⟨-, hrows⟩ | ⟨-, hrows⟩
        · exact hrows o
        · rw [hrows]
          refine or_iff_left ?_
          rintro rfl
          exact hne ho
      have htodo : ∀ o ∈ occs,
          o ∈ (moveOccurrence canonicalId occurrences occ).rows ∧ o.leadId = rowId := by
        intro o ho
        obtain ⟨hmem, ho'⟩ := hoccs o (List.mem_cons_of_mem _ ho)
        exact ⟨(hsubset o ho').mpr ⟨hmem, hother o ho⟩, ho'⟩
      have hrest : ∀ o ∈ (moveOccurrence canonicalId occurrences occ).rows, o.leadId = rowId →
          o ∈ occs := by
        intro o ho ho'
        obtain ⟨hmem, hid⟩ := (hsubset o ho').mp ho
        rcases List.mem_cons.mp (hall o hmem ho') with rfl | htail
        · exact absurd rfl hid
        · exact htail
      obtain ⟨hheld, hunique, hgone⟩ := ih _ hnodup.2 htodo hrest
      exact ⟨fun leadId jobId => (hheld leadId jobId).trans
        (held_moveOccurrence hne hocc hlead leadId jobId),
        fun h => hunique (unique_moveOccurrence hocc h), hgone⟩

end Occurrences

/-! ### Tables that have been merged -/

/-- It is the only lead of its email. -/
def LeadTables.Alone (tables : LeadTables) (lead : Lead) : Prop :=
  ∀ l ∈ tables.leads.rows, l.email = lead.email → l = lead

/-- The leads of `before` have been merged into those of `after`; `move` says where each went. -/
structure Merges (move : Nat → Nat) (before after : LeadTables) : Prop where
  lead : ∀ l ∈ before.leads.rows, ∃ l' ∈ after.leads.rows, l'.id = move l.id ∧ l'.email = l.email ∧
    ∀ field : EnrichableField, truthy (field.ofLead l) = true → truthy (field.ofLead l') = true
  kept : ∀ l' ∈ after.leads.rows, ∃ l ∈ before.leads.rows, l.id = l'.id ∧ l.email = l'.email
  alone : ∀ l ∈ before.leads.rows, before.Alone l → l ∈ after.leads.rows
  outside : ∀ k, (∀ l ∈ before.leads.rows, l.id ≠ k) → move k = k
  held : ∀ leadId jobId,
    Held id after.occurrences leadId jobId ↔ Held move before.occurrences leadId jobId
  unique : Unique before.occurrences → Unique after.occurrences
  emails : after.campaignEmails.rows =
    before.campaignEmails.rows.map fun e => { e with leadId := e.leadId.map move }

theorem Merges.refl (tables : LeadTables) : Merges id tables tables where
  lead := fun l hl => ⟨l, hl, rfl, rfl, fun _ h => h⟩
  kept := fun l hl => ⟨l, hl, rfl, rfl⟩
  alone := fun _ hl _ => hl
  outside := fun _ _ => rfl
  held := fun _ _ => Iff.rfl
  unique := id
  emails := by simp

theorem Merges.trans {move move' : Nat → Nat} {a b c : LeadTables} (h : Merges move a b)
    (h' : Merges move' b c) : Merges (move' ∘ move) a c where
  lead := by
    intro l hl
    obtain ⟨l', hl', hid', hemail', hfields'⟩ := h.lead l hl
    obtain ⟨l'', hl'', hid'', hemail'', hfields''⟩ := h'.lead l' hl'
    refine ⟨l'', hl'', ?_, hemail''.trans hemail', fun field hfield =>
      hfields'' field (hfields' field hfield)⟩
    rw [hid'', hid']
    rfl
  kept := by
    intro l'' hl''
    obtain ⟨l', hl', hid', hemail'⟩ := h'.kept l'' hl''
    obtain ⟨l, hl, hid, hemail⟩ := h.kept l' hl'
    exact ⟨l, hl, hid.trans hid', hemail.trans hemail'⟩
  alone := by
    intro l hl halone
    refine h'.alone l (h.alone l hl halone) fun l' hl' hemail' => ?_
    obtain ⟨l₀, hl₀, hid, hemail⟩ := h.kept l' hl'
    obtain rfl := halone l₀ hl₀ (hemail.trans hemail')
    exact b.leads.eq_of_key_eq hl' (h.alone l₀ hl halone) hid.symm
  outside := by
    intro k hk
    have hmove := h.outside k hk
    show move' (move k) = k
    rw [hmove]
    refine h'.outside k fun l' hl' hid => ?_
    obtain ⟨l, hl, hid', -⟩ := h.kept l' hl'
    exact hk l hl (hid'.trans hid)
  held := by
    intro leadId jobId
    rw [h'.held]
    constructor
    · rintro ⟨o, ho, rfl, rfl⟩
      obtain ⟨o', ho', hlead, hjob⟩ := (h.held o.leadId o.jobId).mp ⟨o, ho, rfl, rfl⟩
      exact ⟨o', ho', congrArg move' hlead, hjob⟩
    · rintro ⟨o, ho, rfl, rfl⟩
      obtain ⟨o', ho', hlead, hjob⟩ := (h.held (move o.leadId) o.jobId).mpr ⟨o, ho, rfl, rfl⟩
      exact ⟨o', ho', congrArg move' hlead, hjob⟩
  unique := fun hunique => h'.unique (h.unique hunique)
  emails := by
    rw [h'.emails, h.emails, List.map_map]
    refine List.map_congr_left fun e _ => ?_
    show ({ e with leadId := (e.leadId.map move).map move' } : CampaignEmail) = _
    rw [Option.map_map]

/-- The campaign emails of a row go where its id goes. -/
theorem pointEmail_redirect (rowId canonicalId : Nat) (e : CampaignEmail) :
    (if e.leadId == some rowId then pointEmail canonicalId e else e) =
      { e with leadId := e.leadId.map (redirect rowId canonicalId) } := by
  unfold redirect
  by_cases hrow : e.leadId = some rowId
  · rw [hrow, if_pos (beq_self_eq_true (some rowId)), Option.map_some, if_pos rfl]
    rfl
  · rw [if_neg (by simpa using hrow)]
    have hsame : e.leadId.map (fun k => if k = rowId then canonicalId else k) = e.leadId := by
      cases hlead : e.leadId with
      | none => rfl
      | some k =>
          rw [Option.map_some, if_neg fun heq => hrow (hlead.trans (congrArg some heq))]
    rw [hsame]

/-- A row that is merged into another of its email. -/
theorem merges_mergeRow (order : QueryOrder) {tables : LeadTables} {canonical row kept : Lead}
    (hrow : row ∈ tables.leads.rows) (hkept : kept ∈ tables.leads.rows)
    (hid : kept.id = canonical.id) (hemail : kept.email = row.email)
    (hne : canonical.id ≠ row.id) :
    Merges (redirect row.id canonical.id) tables (mergeRow order canonical tables row) := by
  have hnodup : ((order.occurrences
      (tables.occurrences.select fun o => o.leadId == row.id)).map LeadOccurrence.id).Nodup := by
    refine ((order.occurrences_perm _).map _).nodup_iff.mpr ?_
    exact tables.occurrences.nodup_keys.sublist (List.filter_sublist.map _)
  have hmem : ∀ o, o ∈ order.occurrences (tables.occurrences.select fun o => o.leadId == row.id) ↔
      o ∈ tables.occurrences.rows ∧ o.leadId = row.id := by
    intro o
    rw [(order.occurrences_perm _).mem_iff, Table.mem_select, beq_iff_eq]
  obtain ⟨hheld, hunique, hgone⟩ := moveOccurrences_spec hne _ tables.occurrences hnodup
    (fun o ho => (hmem o).mp ho) fun o ho hlead => (hmem o).mpr ⟨ho, hlead⟩
  refine ⟨?_, ?_, ?_, ?_, ?_, hunique, ?_⟩
  · intro l hl
    by_cases hlrow : l.id = row.id
    · obtain rfl := tables.leads.eq_of_key_eq hl hrow hlrow
      refine ⟨_, (mem_mergeRow_iff hne).mpr (Or.inr ⟨kept, hkept, hid, rfl⟩), ?_, ?_,
        fun field hfield => (truthy_absorb canonical l kept field).mpr (Or.inr hfield)⟩
      · rw [id_absorb, hid]
        exact (if_pos rfl).symm
      · rw [email_absorb, hemail]
    by_cases hlcanonical : l.id = canonical.id
    · refine ⟨_, (mem_mergeRow_iff hne).mpr (Or.inr ⟨l, hl, hlcanonical, rfl⟩), ?_,
        email_absorb canonical row l,
        fun field hfield => (truthy_absorb canonical row l field).mpr (Or.inl hfield)⟩
      rw [id_absorb]
      exact (if_neg hlrow).symm
    · exact ⟨l, (mem_mergeRow_iff hne).mpr (Or.inl ⟨hl, hlrow, hlcanonical⟩), (if_neg hlrow).symm,
        rfl, fun _ hfield => hfield⟩
  · intro l' hl'
    rcases (mem_mergeRow_iff hne).mp hl' with ⟨hl', -⟩ | ⟨l, hl, -, rfl⟩
    · exact ⟨l', hl', rfl, rfl⟩
    · exact ⟨l, hl, (id_absorb canonical row l).symm, (email_absorb canonical row l).symm⟩
  · intro l hl halone
    -- the two rows have one email, so that a lead that is alone is none of them
    have hpair : kept ≠ row := fun heq => hne (hid.symm.trans (congrArg Lead.id heq))
    refine (mem_mergeRow_iff hne).mpr (Or.inl ⟨hl, fun hlrow => ?_, fun hlcanonical => ?_⟩)
    · obtain rfl := tables.leads.eq_of_key_eq hl hrow hlrow
      exact hpair (halone kept hkept hemail)
    · obtain rfl := tables.leads.eq_of_key_eq hl hkept (hlcanonical.trans hid.symm)
      exact hpair (halone row hrow hemail.symm).symm
  · intro k hk
    exact if_neg fun heq => hk row hrow heq.symm
  · intro leadId jobId
    rw [← hheld]
    constructor
    · rintro ⟨o, ho, hlead, hjob⟩
      exact ⟨o, ho, (if_neg (hgone o ho)).trans hlead, hjob⟩
    · rintro ⟨o, ho, hlead, hjob⟩
      exact ⟨o, ho, (if_neg (hgone o ho)).symm.trans hlead, hjob⟩
  · exact List.map_congr_left fun e _ => pointEmail_redirect row.id canonical.id e

/-! ### A run -/

/-- There is no second lead of the email. -/
def Single (tables : LeadTables) (email : String) : Prop :=
  ∀ l ∈ tables.leads.rows, ∀ l' ∈ tables.leads.rows, l.email = email → l'.email = email → l = l'

/-- A merge makes no second lead. -/
theorem Merges.single {move : Nat → Nat} {before after : LeadTables} (h : Merges move before after)
    {email : String} (hsingle : Single before email) : Single after email := by
  intro l hl l' hl' hemail hemail'
  obtain ⟨l₀, hl₀, hid, hemail₀⟩ := h.kept l hl
  obtain ⟨l₀', hl₀', hid', hemail₀'⟩ := h.kept l' hl'
  obtain rfl := hsingle l₀ hl₀ l₀' hl₀' (hemail₀.trans hemail) (hemail₀'.trans hemail')
  exact after.leads.eq_of_key_eq hl hl' (hid.symm.trans hid')

theorem mem_of_pickCanonical {rows : List Lead} {canonical : Lead}
    (h : pickCanonical rows = some canonical) : canonical ∈ rows := by
  have hfold : ∀ (rest : List Lead) (best : Lead),
      rest.foldl (fun best row => if outranks row best then row else best) best ∈ best :: rest := by
    intro rest
    induction rest with
    | nil => exact fun best => List.mem_cons_self
    | cons row rest ih =>
        intro best
        rcases List.mem_cons.mp (ih (if outranks row best then row else best)) with heq | hmem
        · rw [List.foldl_cons, heq]
          split
          · exact List.mem_cons_of_mem _ List.mem_cons_self
          · exact List.mem_cons_self
        · exact List.mem_cons_of_mem _ (List.mem_cons_of_mem _ hmem)
  cases rows with
  | nil => cases h
  | cons row rows =>
      obtain rfl := Option.some.inj h
      exact hfold rows row

/-- The rows of an email are merged into the one that is kept, one after the other. -/
theorem merges_visitRows (order : QueryOrder) (canonical : Lead) {email : String}
    (rows : List Lead) (state : LeadTables × Nat) (hnodup : (rows.map Lead.id).Nodup)
    (hrows : ∀ r ∈ rows, r.id ≠ canonical.id → r ∈ state.1.leads.rows ∧ r.email = email)
    (hkept : ∃ kept ∈ state.1.leads.rows, kept.id = canonical.id ∧ kept.email = email)
    (hall : ∀ l ∈ state.1.leads.rows, l.email = email → l.id = canonical.id ∨ l ∈ rows) :
    ∃ move, Merges move state.1 (rows.foldl (visitRow order canonical) state).1 ∧
      ∀ l ∈ (rows.foldl (visitRow order canonical) state).1.leads.rows,
        l.email = email → l.id = canonical.id := by
  induction rows generalizing state with
  | nil =>
      exact ⟨id, Merges.refl state.1, fun l hl hemail =>
        (hall l hl hemail).resolve_right List.not_mem_nil⟩
  | cons row rows ih =>
      rw [List.map_cons, List.nodup_cons] at hnodup
      have hother : ∀ r ∈ rows, r.id ≠ row.id := fun r hr hid =>
        hnodup.1 (hid ▸ List.mem_map_of_mem hr)
      rw [List.foldl_cons]
      by_cases hcanonical : row.id = canonical.id
      · have hskip : visitRow order canonical state row = state := if_pos hcanonical
        rw [hskip]
        refine ih state hnodup.2 (fun r hr => hrows r (List.mem_cons_of_mem _ hr)) hkept ?_
        intro l hl hemail
        rcases hall l hl hemail with hid | hmem
        · exact Or.inl hid
        rcases List.mem_cons.mp hmem with rfl | hmem
        · exact Or.inl hcanonical
        · exact Or.inr hmem
      · obtain ⟨hrow, hemail⟩ := hrows row List.mem_cons_self hcanonical
        obtain ⟨kept, hmem, hid, hkeptEmail⟩ := hkept
        have hne : canonical.id ≠ row.id := Ne.symm hcanonical
        have hstep : visitRow order canonical state row =
            (mergeRow order canonical state.1 row, state.2 + 1) := if_neg hcanonical
        have hmerge := merges_mergeRow order hrow hmem hid (hkeptEmail.trans hemail.symm) hne
        have hrows' : ∀ r ∈ rows, r.id ≠ canonical.id →
            r ∈ (mergeRow order canonical state.1 row).leads.rows ∧ r.email = email := by
          intro r hr hrid
          obtain ⟨hr', hremail⟩ := hrows r (List.mem_cons_of_mem _ hr) hrid
          exact ⟨(mem_mergeRow_iff hne).mpr (Or.inl ⟨hr', hother r hr, hrid⟩), hremail⟩
        have hkept' : ∃ kept ∈ (mergeRow order canonical state.1 row).leads.rows,
            kept.id = canonical.id ∧ kept.email = email := by
          refine ⟨absorb canonical row kept, (mem_mergeRow_iff hne).mpr
            (Or.inr ⟨kept, hmem, hid, rfl⟩), ?_, ?_⟩
          · rw [id_absorb, hid]
          · rw [email_absorb, hkeptEmail]
        have hall' : ∀ l ∈ (mergeRow order canonical state.1 row).leads.rows, l.email = email →
            l.id = canonical.id ∨ l ∈ rows := by
          intro l hl hlemail
          rcases (mem_mergeRow_iff hne).mp hl with ⟨hl, hlrow, hlid⟩ | ⟨l₀, -, hid₀, rfl⟩
          · rcases List.mem_cons.mp ((hall l hl hlemail).resolve_left hlid) with rfl | htail
            · exact absurd rfl hlrow
            · exact Or.inr htail
          · exact Or.inl ((id_absorb canonical row l₀).trans hid₀)
        rw [hstep]
        obtain ⟨move, hmerges, hlast⟩ := ih
          (mergeRow order canonical state.1 row, state.2 + 1) hnodup.2 hrows' hkept' hall'
        exact ⟨_, hmerge.trans hmerges, hlast⟩

/-- An email has one lead after its turn. -/
theorem merges_dedupeEmail (order : QueryOrder) (state : LeadTables × Nat) (email : String) :
    ∃ move, Merges move state.1 (dedupeEmail order state email).1 ∧
      Single (dedupeEmail order state email).1 email := by
  have hmem : ∀ r, r ∈ order.rows (state.1.leads.select fun l => l.email == email) ↔
      r ∈ state.1.leads.rows ∧ r.email = email := by
    intro r
    rw [(order.rows_perm _).mem_iff, Table.mem_select, beq_iff_eq]
  have hnodup : ((order.rows (state.1.leads.select fun l => l.email == email)).map Lead.id).Nodup := by
    refine ((order.rows_perm _).map _).nodup_iff.mpr ?_
    exact state.1.leads.nodup_keys.sublist (List.filter_sublist.map _)
  unfold dedupeEmail
  dsimp only
  cases hpick : pickCanonical (order.rows (state.1.leads.select fun l => l.email == email)) with
  | none =>
      refine ⟨id, Merges.refl state.1, fun l hl l' _ hemail => ?_⟩
      have hrow := (hmem l).mpr ⟨hl, hemail⟩
      cases hrows : order.rows (state.1.leads.select fun l => l.email == email) with
      | nil =>
          rw [hrows] at hrow
          cases hrow
      | cons row rows =>
          rw [hrows] at hpick
          cases hpick
  | some canonical =>
      have hcanonical := (hmem canonical).mp (mem_of_pickCanonical hpick)
      obtain ⟨move, hmerges, hlast⟩ := merges_visitRows order canonical _ state hnodup
        (fun r hr _ => (hmem r).mp hr) ⟨canonical, hcanonical.1, rfl, hcanonical.2⟩
        fun l hl hemail => Or.inr ((hmem l).mpr ⟨hl, hemail⟩)
      refine ⟨move, hmerges, fun l hl l' hl' hemail hemail' => ?_⟩
      exact Table.eq_of_key_eq _ hl hl' ((hlast l hl hemail).trans (hlast l' hl' hemail').symm)

theorem merges_dedupeEmails (order : QueryOrder) (emails : List String) (state : LeadTables × Nat) :
    ∃ move, Merges move state.1 (emails.foldl (dedupeEmail order) state).1 ∧
      ∀ email ∈ emails, Single (emails.foldl (dedupeEmail order) state).1 email := by
  induction emails generalizing state with
  | nil => exact ⟨id, Merges.refl state.1, fun email hemail => nomatch hemail⟩
  | cons email emails ih =>
      obtain ⟨move, hmerges, hsingle⟩ := merges_dedupeEmail order state email
      obtain ⟨move', hmerges', hsingles⟩ := ih (dedupeEmail order state email)
      refine ⟨_, hmerges.trans hmerges', fun email' hemail' => ?_⟩
      rcases List.mem_cons.mp hemail' with rfl | hemail'
      · exact hmerges'.single hsingle
      · exact hsingles email' hemail'

/-- An email that the first query does not return has one lead to begin with. -/
theorem single_of_not_dupe {tables : LeadTables} {email : String}
    (h : email ∉ dupeEmails tables.leads) : Single tables email := by
  intro l hl l' hl' hemail hemail'
  have hcount : tables.leads.count (fun l => l.email == email) ≤ 1 := by
    by_contra hlt
    refine h (List.mem_filter.mpr ⟨?_, decide_eq_true (Nat.lt_of_not_le hlt)⟩)
    exact List.mem_dedup.mpr (List.mem_map.mpr ⟨l, hl, hemail⟩)
  have hmem : l ∈ tables.leads.rows.filter fun l => l.email == email :=
    List.mem_filter.mpr ⟨hl, beq_iff_eq.mpr hemail⟩
  have hmem' : l' ∈ tables.leads.rows.filter fun l => l.email == email :=
    List.mem_filter.mpr ⟨hl', beq_iff_eq.mpr hemail'⟩
  unfold Table.count at hcount
  cases hrows : tables.leads.rows.filter fun l => l.email == email with
  | nil =>
      rw [hrows] at hmem
      cases hmem
  | cons first rest =>
      rw [hrows] at hcount hmem hmem'
      have hrest : rest.length ≤ 0 := Nat.le_of_succ_le_succ hcount
      obtain rfl : rest = [] := List.length_eq_zero_iff.mp (Nat.le_zero.mp hrest)
      rw [List.mem_singleton.mp hmem, List.mem_singleton.mp hmem']

/-- The run merges leads until each email has one. -/
theorem merges_dedupeLeads (order : QueryOrder) (tables : LeadTables) :
    ∃ move, Merges move tables (dedupeLeads order tables).1 ∧
      ∀ email, Single (dedupeLeads order tables).1 email := by
  obtain ⟨move, hmerges, hsingles⟩ :=
    merges_dedupeEmails order (order.emails (dupeEmails tables.leads)) (tables, 0)
  refine ⟨move, hmerges, fun email => ?_⟩
  by_cases hdupe : email ∈ dupeEmails tables.leads
  · exact hsingles email ((order.emails_perm _).mem_iff.mpr hdupe)
  · exact hmerges.single (single_of_not_dupe hdupe)

/-! ### What is conserved -/

/-- There is an occurrence in the job of a lead of the email. -/
def LeadTables.Occurs (tables : LeadTables) (email : String) (jobId : Nat) : Prop :=
  ∃ o ∈ tables.occurrences.rows, ∃ l ∈ tables.leads.rows,
    o.leadId = l.id ∧ l.email = email ∧ o.jobId = jobId

/-- `after` is what the migration is to make of `before`. -/
structure Conserves (before after : LeadTables) : Prop where
  /-- There is one lead for each email, and no email is lost or new. -/
  single : ∀ email, Single after email
  emails : ∀ email, (∃ l ∈ after.leads.rows, l.email = email) ↔ ∃ l ∈ before.leads.rows, l.email = email
  untouched : ∀ l ∈ before.leads.rows, before.Alone l → l ∈ after.leads.rows
  /-- A campaign email is as it was, but for the lead, which is the one of the same email. -/
  campaignEmails : ∀ e ∈ before.campaignEmails.rows, ∀ l ∈ before.leads.rows, e.leadId = some l.id →
    ∃ l' ∈ after.leads.rows, l'.email = l.email ∧
      { e with leadId := some l'.id } ∈ after.campaignEmails.rows
  occurrences : ∀ email jobId, after.Occurs email jobId ↔ before.Occurs email jobId
  noDuplicates : ∀ o ∈ after.occurrences.rows, ∀ o' ∈ after.occurrences.rows,
    ∀ l ∈ after.leads.rows, ∀ l' ∈ after.leads.rows, o.leadId = l.id → o'.leadId = l'.id →
      l.email = l'.email → o.jobId = o'.jobId → o = o'
  fields : ∀ l ∈ before.leads.rows, ∀ l' ∈ after.leads.rows, l'.email = l.email →
    ∀ field : EnrichableField, truthy (field.ofLead l) = true → truthy (field.ofLead l') = true

theorem Merges.conserves {move : Nat → Nat} {before after : LeadTables}
    (h : Merges move before after) (hsingle : ∀ email, Single after email)
    (hunique : Unique before.occurrences) : Conserves before after where
  single := hsingle
  emails := by
    intro email
    constructor
    · rintro ⟨l', hl', rfl⟩
      obtain ⟨l, hl, -, hemail⟩ := h.kept l' hl'
      exact ⟨l, hl, hemail⟩
    · rintro ⟨l, hl, rfl⟩
      obtain ⟨l', hl', -, hemail, -⟩ := h.lead l hl
      exact ⟨l', hl', hemail⟩
  untouched := h.alone
  campaignEmails := by
    intro e he l hl hlead
    obtain ⟨l', hl', hid, hemail, -⟩ := h.lead l hl
    refine ⟨l', hl', hemail, ?_⟩
    rw [h.emails]
    refine List.mem_map.mpr ⟨e, he, ?_⟩
    rw [hlead, Option.map_some, hid]
  occurrences := by
    intro email jobId
    constructor
    · rintro ⟨o', ho', l', hl', hlead', rfl, rfl⟩
      obtain ⟨o, ho, hmove, hjob⟩ := (h.held o'.leadId o'.jobId).mp ⟨o', ho', rfl, rfl⟩
      by_cases hpointed : ∃ l ∈ before.leads.rows, l.id = o.leadId
      · obtain ⟨l, hl, hid⟩ := hpointed
        obtain ⟨l'', hl'', hid'', hemail'', -⟩ := h.lead l hl
        have hsame : l''.id = l'.id := by rw [hid'', hid, hmove, hlead']
        obtain rfl := after.leads.eq_of_key_eq hl'' hl' hsame
        exact ⟨o, ho, l, hl, hid.symm, hemail''.symm, hjob⟩
      · -- an occurrence of no lead stays where it is
        push Not at hpointed
        obtain ⟨l, hl, hid, -⟩ := h.kept l' hl'
        refine absurd ?_ (hpointed l hl)
        rw [hid, ← hlead', ← hmove, h.outside o.leadId hpointed]
    · rintro ⟨o, ho, l, hl, hlead, rfl, rfl⟩
      obtain ⟨l', hl', hid, hemail, -⟩ := h.lead l hl
      obtain ⟨o', ho', hlead', hjob⟩ := (h.held (move o.leadId) o.jobId).mpr ⟨o, ho, rfl, rfl⟩
      refine ⟨o', ho', l', hl', ?_, hemail, hjob⟩
      rw [hid, ← hlead]
      exact hlead'
  noDuplicates := by
    intro o ho o' ho' l hl l' hl' hlead hlead' hemail hjob
    obtain rfl := hsingle l'.email l hl l' hl' hemail rfl
    exact h.unique hunique o ho o' ho' (hlead.trans hlead'.symm) hjob
  fields := by
    intro l hl l' hl' hemail field hfield
    obtain ⟨l'', hl'', -, hemail'', hfields⟩ := h.lead l hl
    obtain rfl := hsingle l.email l'' hl'' l' hl' hemail'' hemail
    exact hfields field hfield

/-- **The migration conserves data**, in whatever order the database answers. -/
theorem dedupeLeads_conserves (order : QueryOrder) (tables : LeadTables)
    (hunique : Unique tables.occurrences) : Conserves tables (dedupeLeads order tables).1 := by
  obtain ⟨move, hmerges, hsingle⟩ := merges_dedupeLeads order tables
  exact hmerges.conserves hsingle hunique

/-! Two captures of an email, by two jobs, of which the second is the better one. -/

/-- The database answers in the order of the keys. -/
def inKeyOrder : QueryOrder := ⟨id, id, id, List.Perm.refl, List.Perm.refl, List.Perm.refl⟩

def capturedTwice (jobId : Nat) (personName designation band : Option String) (id : Nat) : Lead where
  id := id
  jobId := jobId
  snapshotId := none
  email := "dup@x.gov.in"
  personName := personName
  designation := designation
  department := none
  sourceUrl := "https://x.gov.in/contact"
  sourceTitle := none
  contextSnippet := none
  entityKind := none
  phone := none
  channelTag := none
  confidenceBand := band
  fieldProvenance := none

theorem key_capturedTwice (jobId : Nat) (personName designation band : Option String) (id : Nat) :
    Keyed.key (capturedTwice jobId personName designation band id) = id :=
  rfl

def captureOf (leadId jobId id : Nat) : LeadOccurrence := ⟨id, leadId, jobId, "https://x.gov.in", none⟩

theorem key_captureOf (leadId jobId id : Nat) : Keyed.key (captureOf leadId jobId id) = id := rfl

def sentTo (leadId id : Nat) : CampaignEmail :=
  ⟨id, 1, some leadId, "dup@x.gov.in", "", "", .draft, true, none, none, none, none, none⟩

theorem key_sentTo (leadId id : Nat) : Keyed.key (sentTo leadId id) = id := rfl

/-- Both jobs have captured the email, the second one with both of its rows. -/
def twoCaptures : LeadTables where
  leads := (Table.empty.insertNew (capturedTwice 1 none (some "Officer") (some "LOW"))
      (key_capturedTwice _ _ _ _)).insertNew
    (capturedTwice 2 (some "Real Name") none (some "HIGH")) (key_capturedTwice _ _ _ _)
  occurrences := ((Table.empty.insertNew (captureOf 1 1) (key_captureOf _ _)).insertNew
    (captureOf 1 2) (key_captureOf _ _)).insertNew (captureOf 2 2) (key_captureOf _ _)
  campaignEmails := Table.empty.insertNew (sentTo 1) (key_sentTo _)

/-- The second lead is kept, with the designation of the first, its email and its occurrence. -/
theorem two_captures_merged : Conserves twoCaptures (dedupeLeads inKeyOrder twoCaptures).1 ∧
    (dedupeLeads inKeyOrder twoCaptures).1.leads.rows =
      [capturedTwice 2 (some "Real Name") (some "Officer") (some "HIGH") 2] ∧
    (dedupeLeads inKeyOrder twoCaptures).1.occurrences.rows = [captureOf 2 1 1, captureOf 2 2 3] ∧
    (dedupeLeads inKeyOrder twoCaptures).1.campaignEmails.rows = [sentTo 2 1] ∧
    (dedupeLeads inKeyOrder twoCaptures).2 = 1 :=
  ⟨dedupeLeads_conserves inKeyOrder twoCaptures (by unfold Unique; decide +kernel),
    by decide +kernel, by decide +kernel, by decide +kernel, by decide +kernel⟩

end DedupeMigration

end GovCrawler
