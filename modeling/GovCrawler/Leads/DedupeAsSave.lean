/-
The migration that merges leads against `save_lead`, which merges captures.

Both fill what the lead lacks with the first value that is not empty, and neither touches the band:
the row that is kept has the best one.  But `save_lead` gives a lead that it has changed a new
score, and the migration leaves the score as it was.  So the two agree on the fields and the band
of every group of rows, and on the score if no other row has given the kept one anything, or if its
score happens to be the one that it would get.
-/
import GovCrawler.Leads.DedupeMigration

namespace GovCrawler

namespace DedupeMigration

open Relational

/-! ### The first value -/

/-- The first of the values that is not empty; the first one, if all are. -/
def firstGiven (value : Option String) (values : List (Option String)) : Option String :=
  ((value :: values).find? truthy).getD value

theorem foldl_fill (value : Option String) (values : List (Option String)) :
    values.foldl fill value = firstGiven value values := by
  induction values generalizing value with
  | nil =>
      unfold firstGiven
      cases hvalue : truthy value <;> simp [hvalue]
  | cons next values ih =>
      rw [List.foldl_cons, ih]
      unfold firstGiven fill fills
      cases hvalue : truthy value with
      | true => simp [hvalue]
      | false =>
          cases hnext : truthy next <;> simp [hvalue, hnext]

/-- What a field of the kept row becomes. -/
def pooled (canonical : Lead) (others : List Lead) (field : EnrichableField) : Option String :=
  firstGiven (field.ofLead canonical) (others.map field.ofLead)

/-- A row has a value for a field that is empty in the one that is kept. -/
def Gains (canonical : Lead) (others : List Lead) : Prop :=
  ∃ row ∈ others, ∃ field : EnrichableField,
    truthy (field.ofLead row) = true ∧ truthy (field.ofLead canonical) = false

/-- The score of the values that the rows have together. -/
def pooledScore (weights : ScoreWeights) (canonical : Lead) (others : List Lead) : Int :=
  computeLeadScore (some canonical.email) (pooled canonical others .phone)
    (pooled canonical others .personName) (pooled canonical others .designation)
    canonical.confidenceBand canonical.channelTag weights

/-! ### What `save_lead` makes of the rows -/

/-- A row, as a capture of its email. -/
def rowItem (row : Lead) : LeadItem where
  snapshotId := row.snapshotId
  email := some row.email
  personName := row.personName
  designation := row.designation
  department := row.department
  sourceUrl := row.sourceUrl
  sourceTitle := row.sourceTitle
  contextSnippet := row.contextSnippet
  entityKind := row.entityKind
  phone := row.phone
  channelTag := row.channelTag
  confidenceBand := row.confidenceBand
  fieldProvenance := row.fieldProvenance
  depth := row.depth

/-- The kept row, after `save_lead` of each of the others. -/
def saveOthers (weights : ScoreWeights) (canonical : Lead) (others : List Lead) : Lead :=
  others.foldl (fun lead row => lead.captured weights (rowItem row)) canonical

section Saved

variable {weights : ScoreWeights}

/-- Captures of an email that has one lead are merged into that one. -/
theorem select_saveAll {rules : LeadRules} {email : String} (captures : List Capture) {db : LeadsDb}
    (hof : ∀ c ∈ captures, c.Of rules db email) {lead : Lead}
    (honly : (db.leads.select fun l => l.email == email) = [lead]) :
    ((saveAll rules db captures).leads.select fun l => l.email == email) =
      [captures.foldl (fun lead c => lead.captured rules.weights c.item) lead] := by
  induction captures generalizing db lead with
  | nil => exact honly
  | cons c captures ih =>
      obtain ⟨leads, hsave, hleads⟩ := save_of_only (hof c List.mem_cons_self) honly
      obtain ⟨occurrences, hrecorded⟩ := recorded_eq { db with leads := leads } lead.id c.jobId
        c.item.sourceUrl c.capturedBy
      rw [hrecorded] at hsave
      have hnext : ∀ c' ∈ captures, c'.Of rules (c.save rules db) email := by
        intro c' hc'
        obtain ⟨hkeywords, hgiven, hemail, hjob⟩ := hof c' (List.mem_cons_of_mem _ hc')
        exact ⟨hkeywords, hgiven, hemail, by rw [hsave]; exact hjob⟩
      refine ih hnext ?_
      rw [hsave]
      exact hleads

/-- So `saveOthers` is what is left in the pool of a lead and the captures of the rows. -/
theorem select_saveAll_rows {rules : LeadRules} {email : String} {db : LeadsDb} {canonical : Lead}
    (others : List Lead) (hone : (db.leads.select fun l => l.email == email) = [canonical])
    (hemail : ∀ row ∈ others, row.email = email ∧ (db.jobs.get? row.jobId).isSome = true)
    (hlower : rules.lower email = email) (hne : email ≠ "") :
    ((saveAll rules db (others.map fun row => ⟨row.jobId, none, rowItem row⟩)).leads.select
        fun l => l.email == email) = [saveOthers rules.weights canonical others] := by
  rw [select_saveAll (others.map fun row => ⟨row.jobId, none, rowItem row⟩) ?_ hone, List.foldl_map]
  · rfl
  · intro c hc
    obtain ⟨row, hrow, rfl⟩ := List.mem_map.mp hc
    obtain ⟨hrowEmail, hjob⟩ := hemail row hrow
    refine ⟨rfl, ?_, ?_, hjob⟩
    · exact truthy_iff.mpr ⟨row.email, rfl, hrowEmail ▸ hne⟩
    · show rules.lower row.email = email
      rw [hrowEmail, hlower]

theorem ofItem_rowItem (row : Lead) (field : EnrichableField) :
    field.ofItem (rowItem row) = field.ofLead row := by
  cases field <;> rfl

theorem ofLead_saveOthers (canonical : Lead) (others : List Lead) (field : EnrichableField) :
    field.ofLead (saveOthers weights canonical others) = pooled canonical others field := by
  have hfold : field.ofLead (saveOthers weights canonical others) =
      (others.map field.ofLead).foldl fill (field.ofLead canonical) := by
    unfold saveOthers
    induction others generalizing canonical with
    | nil => rfl
    | cons row others ih =>
        rw [List.foldl_cons, ih, ofLead_captured, ofItem_rowItem]
        rfl
  exact hfold.trans (foldl_fill _ _)

/-- The best band stays. -/
theorem confidenceBand_saveOthers (canonical : Lead) (others : List Lead)
    (hband : ∀ row ∈ others, bandRank row.confidenceBand ≤ bandRank canonical.confidenceBand) :
    (saveOthers weights canonical others).confidenceBand = canonical.confidenceBand := by
  unfold saveOthers
  induction others generalizing canonical with
  | nil => rfl
  | cons row others ih =>
      have hsame : (canonical.captured weights (rowItem row)).confidenceBand =
          canonical.confidenceBand := by
        rw [confidenceBand_captured]
        exact if_neg (Int.not_lt.mpr (hband row List.mem_cons_self))
      rw [List.foldl_cons, ih, hsame]
      intro row' hrow'
      rw [hsame]
      exact hband row' (List.mem_cons_of_mem _ hrow')

theorem identity_captured (lead : Lead) (item : LeadItem) :
    (lead.captured weights item).email = lead.email ∧
      (lead.captured weights item).channelTag = lead.channelTag := by
  unfold Lead.captured
  split
  · exact ⟨rfl, rfl⟩
  · exact ⟨rfl, rfl⟩

theorem identity_saveOthers (canonical : Lead) (others : List Lead) :
    (saveOthers weights canonical others).email = canonical.email ∧
      (saveOthers weights canonical others).channelTag = canonical.channelTag := by
  unfold saveOthers
  induction others generalizing canonical with
  | nil => exact ⟨rfl, rfl⟩
  | cons row others ih =>
      obtain ⟨hemail, htag⟩ := ih (canonical.captured weights (rowItem row))
      obtain ⟨hemail', htag'⟩ := @identity_captured weights canonical (rowItem row)
      exact ⟨hemail.trans hemail', htag.trans htag'⟩

theorem changes_rowItem_iff {lead row : Lead}
    (hband : bandRank row.confidenceBand ≤ bandRank lead.confidenceBand) :
    changes lead (rowItem row) = true ↔
      ∃ field : EnrichableField,
        truthy (field.ofLead row) = true ∧ truthy (field.ofLead lead) = false := by
  have hupgrades : upgrades lead (rowItem row) = false := by
    have hnot : ¬ bandRank lead.confidenceBand < bandRank (rowItem row).confidenceBand :=
      Int.not_lt.mpr hband
    unfold upgrades
    rw [decide_eq_false hnot, Bool.and_false]
  have hfills : ∀ field : EnrichableField, fills (field.ofLead lead) (field.ofLead row) = true ↔
      truthy (field.ofLead row) = true ∧ truthy (field.ofLead lead) = false := by
    intro field
    unfold fills
    rw [Bool.and_eq_true, Bool.not_eq_true']
  simp only [← hfills]
  unfold changes
  rw [hupgrades]
  simp only [Bool.or_false, Bool.or_eq_true]
  constructor
  · rintro ((((((h | h) | h) | h) | h) | h) | h)
    · exact ⟨.personName, h⟩
    · exact ⟨.designation, h⟩
    · exact ⟨.department, h⟩
    · exact ⟨.sourceTitle, h⟩
    · exact ⟨.contextSnippet, h⟩
    · exact ⟨.phone, h⟩
    · exact ⟨.entityKind, h⟩
  · rintro ⟨field, h⟩
    cases field with
    | personName => exact Or.inl (Or.inl (Or.inl (Or.inl (Or.inl (Or.inl h)))))
    | designation => exact Or.inl (Or.inl (Or.inl (Or.inl (Or.inl (Or.inr h)))))
    | department => exact Or.inl (Or.inl (Or.inl (Or.inl (Or.inr h))))
    | sourceTitle => exact Or.inl (Or.inl (Or.inl (Or.inr h)))
    | contextSnippet => exact Or.inl (Or.inl (Or.inr h))
    | phone => exact Or.inl (Or.inr h)
    | entityKind => exact Or.inr h

/-- Rows that give nothing change nothing. -/
theorem saveOthers_of_not_gains {canonical : Lead} {others : List Lead}
    (hband : ∀ row ∈ others, bandRank row.confidenceBand ≤ bandRank canonical.confidenceBand)
    (h : ¬ Gains canonical others) : saveOthers weights canonical others = canonical := by
  unfold saveOthers
  induction others with
  | nil => rfl
  | cons row others ih =>
      have hsame : canonical.captured weights (rowItem row) = canonical := by
        refine if_neg fun hchanges => h ?_
        exact ⟨row, List.mem_cons_self, (changes_rowItem_iff (hband row List.mem_cons_self)).mp
          hchanges⟩
      rw [List.foldl_cons, hsame]
      refine ih (fun row' hrow' => hband row' (List.mem_cons_of_mem _ hrow')) ?_
      rintro ⟨row', hrow', hgain⟩
      exact h ⟨row', List.mem_cons_of_mem _ hrow', hgain⟩

/-- Once a row has given something, the score is the one of the fields. -/
theorem coherent_saveOthers {canonical : Lead} {others : List Lead}
    (hband : ∀ row ∈ others, bandRank row.confidenceBand ≤ bandRank canonical.confidenceBand)
    (h : Gains canonical others) : (saveOthers weights canonical others).Coherent weights := by
  have hkeeps : ∀ (rows : List Lead) (lead : Lead), lead.Coherent weights →
      (saveOthers weights lead rows).Coherent weights := by
    intro rows
    induction rows with
    | nil => exact fun _ hlead => hlead
    | cons row rows ih => exact fun lead hlead => ih _ (hlead.captured (rowItem row))
  induction others with
  | nil =>
      obtain ⟨row, hrow, -⟩ := h
      cases hrow
  | cons row others ih =>
      have hiff := changes_rowItem_iff (hband row List.mem_cons_self)
      show (saveOthers weights (canonical.captured weights (rowItem row)) others).Coherent weights
      by_cases hchanges : changes canonical (rowItem row) = true
      · refine hkeeps others _ ?_
        unfold Lead.captured
        rw [if_pos hchanges]
        rfl
      · have hsame : canonical.captured weights (rowItem row) = canonical := if_neg hchanges
        rw [hsame]
        refine ih (fun row' hrow' => hband row' (List.mem_cons_of_mem _ hrow')) ?_
        obtain ⟨row', hrow', hgain⟩ := h
        rcases List.mem_cons.mp hrow' with rfl | hrow'
        · exact absurd (hiff.mpr hgain) hchanges
        · exact ⟨row', hrow', hgain⟩

/-- The score that `save_lead` leaves. -/
theorem leadScore_saveOthers {canonical : Lead} {others : List Lead}
    (hband : ∀ row ∈ others, bandRank row.confidenceBand ≤ bandRank canonical.confidenceBand)
    (h : Gains canonical others) :
    (saveOthers weights canonical others).leadScore = pooledScore weights canonical others := by
  have hphone := @ofLead_saveOthers weights canonical others .phone
  have hname := @ofLead_saveOthers weights canonical others .personName
  have hdesignation := @ofLead_saveOthers weights canonical others .designation
  obtain ⟨hemail, htag⟩ := @identity_saveOthers weights canonical others
  unfold pooledScore
  rw [← hphone, ← hname, ← hdesignation, ← hemail, ← htag,
    ← @confidenceBand_saveOthers weights canonical others hband]
  exact coherent_saveOthers hband h

end Saved

/-! ### What the migration makes of them -/

/-- The rows of an email, in the order they are visited. -/
def groupOf (order : QueryOrder) (tables : LeadTables) (email : String) : List Lead :=
  order.rows (tables.leads.select fun l => l.email == email)

/-- The rows that are not kept. -/
def othersOf (canonical : Lead) (rows : List Lead) : List Lead :=
  rows.filter fun row => row.id ≠ canonical.id

/-- The kept row, with what it has absorbed. -/
def absorbAll (canonical lead : Lead) (others : List Lead) : Lead :=
  others.foldl (fun lead row => absorb canonical row lead) lead

section Absorbed

variable {canonical : Lead}

theorem ofLead_fillField (row lead : Lead) (field other : EnrichableField) :
    other.ofLead (fillField row lead field) =
      if field = other then fill (other.ofLead lead) (other.ofLead row) else other.ofLead lead := by
  unfold fillField fill
  by_cases hfield : field = other
  · subst hfield
    rw [if_pos rfl]
    split
    · exact (ofLead_setField field field _ lead).trans (if_pos rfl)
    · rfl
  · rw [if_neg hfield]
    split
    · exact (ofLead_setField field other _ lead).trans (if_neg hfield)
    · rfl

theorem fill_fill (existing value : Option String) :
    fill (fill existing value) value = fill existing value := by
  have hnot : fills (fill existing value) value = false := by
    unfold fill fills
    cases hvalue : truthy value with
    | false => simp
    | true => cases hexisting : truthy existing <;> simp [hvalue, hexisting]
  exact fill_of_not_fills hnot

theorem ofLead_fillFields (row : Lead) (fields : List EnrichableField) (lead : Lead)
    (other : EnrichableField) :
    other.ofLead (fillFields row fields lead) =
      if other ∈ fields then fill (other.ofLead lead) (other.ofLead row) else other.ofLead lead := by
  induction fields generalizing lead with
  | nil => rfl
  | cons field fields ih =>
      show other.ofLead (fillFields row fields (fillField row lead field)) = _
      rw [ih, ofLead_fillField]
      by_cases hfield : field = other
      · subst hfield
        rw [if_pos rfl, fill_fill, ite_self, if_pos List.mem_cons_self]
      · have hmem : other ∈ field :: fields ↔ other ∈ fields :=
          List.mem_cons.trans (or_iff_right (Ne.symm hfield))
        rw [if_neg hfield, if_congr hmem rfl rfl]

theorem ofLead_absorb (row lead : Lead) (field : EnrichableField) :
    field.ofLead (absorb canonical row lead) = fill (field.ofLead lead) (field.ofLead row) := by
  have hfields := ofLead_fillFields row ENRICHABLE_FIELDS lead field
  rw [if_pos (mem_ENRICHABLE_FIELDS field)] at hfields
  unfold absorb
  dsimp only
  split
  · refine Eq.trans ?_ hfields
    cases field <;> rfl
  · exact hfields

theorem ofLead_absorbAll (others : List Lead) (field : EnrichableField) :
    field.ofLead (absorbAll canonical canonical others) = pooled canonical others field := by
  have hfold : ∀ lead, field.ofLead (absorbAll canonical lead others) =
      (others.map field.ofLead).foldl fill (field.ofLead lead) := by
    unfold absorbAll
    induction others with
    | nil => exact fun _ => rfl
    | cons row others ih =>
        intro lead
        rw [List.foldl_cons, ih, ofLead_absorb]
        rfl
  exact (hfold canonical).trans (foldl_fill _ _)

/-- Filling a field leaves the score and the band alone. -/
theorem scoring_fillFields (row : Lead) (fields : List EnrichableField) (lead : Lead) :
    (fillFields row fields lead).leadScore = lead.leadScore ∧
      (fillFields row fields lead).confidenceBand = lead.confidenceBand := by
  induction fields generalizing lead with
  | nil => exact ⟨rfl, rfl⟩
  | cons field fields ih =>
      have hone : (fillField row lead field).leadScore = lead.leadScore ∧
          (fillField row lead field).confidenceBand = lead.confidenceBand := by
        unfold fillField
        split
        · cases field <;> exact ⟨rfl, rfl⟩
        · exact ⟨rfl, rfl⟩
      obtain ⟨hscore, hband⟩ := ih (fillField row lead field)
      exact ⟨hscore.trans hone.1, hband.trans hone.2⟩

theorem scoring_absorbAll (others : List Lead)
    (hband : ∀ row ∈ others, bandRank row.confidenceBand ≤ bandRank canonical.confidenceBand)
    (lead : Lead) : (absorbAll canonical lead others).leadScore = lead.leadScore ∧
      (absorbAll canonical lead others).confidenceBand = lead.confidenceBand := by
  unfold absorbAll
  induction others generalizing lead with
  | nil => exact ⟨rfl, rfl⟩
  | cons row others ih =>
      have hone : absorb canonical row lead = fillFields row ENRICHABLE_FIELDS lead :=
        if_neg (Int.not_lt.mpr (hband row List.mem_cons_self))
      rw [List.foldl_cons, hone]
      obtain ⟨hscore, hband'⟩ := ih (fun row' hrow' => hband row' (List.mem_cons_of_mem _ hrow'))
        (fillFields row ENRICHABLE_FIELDS lead)
      obtain ⟨hscore', hband''⟩ := scoring_fillFields row ENRICHABLE_FIELDS lead
      exact ⟨hscore.trans hscore', hband'.trans hband''⟩

theorem email_absorbAll (others : List Lead) (lead : Lead) :
    (absorbAll canonical lead others).email = lead.email := by
  unfold absorbAll
  induction others generalizing lead with
  | nil => rfl
  | cons row others ih => exact (ih _).trans (email_absorb canonical row lead)

/-- The kept row has the best band. -/
theorem bandRank_le_of_pickCanonical {rows : List Lead} (h : pickCanonical rows = some canonical) :
    ∀ row ∈ rows, bandRank row.confidenceBand ≤ bandRank canonical.confidenceBand := by
  have hfold : ∀ (rest : List Lead) (best : Lead), ∀ row ∈ best :: rest,
      bandRank row.confidenceBand ≤ bandRank
        (rest.foldl (fun best row => if outranks row best then row else best) best).confidenceBand := by
    intro rest
    induction rest with
    | nil =>
        intro best row hrow
        exact Int.le_of_eq (by rw [List.mem_singleton.mp hrow]; rfl)
    | cons next rest ih =>
        intro best row hrow
        rw [List.foldl_cons]
        have hbetter : bandRank best.confidenceBand ≤
              bandRank (if outranks next best then next else best).confidenceBand ∧
            bandRank next.confidenceBand ≤
              bandRank (if outranks next best then next else best).confidenceBand := by
          by_cases hout : outranks next best = true
          · rw [if_pos hout]
            unfold outranks at hout
            simp only [Bool.or_eq_true, decide_eq_true_eq, Bool.and_eq_true, beq_iff_eq] at hout
            omega
          · rw [if_neg hout]
            unfold outranks at hout
            simp only [Bool.or_eq_true, decide_eq_true_eq, not_or] at hout
            omega
        have hstart := ih (if outranks next best then next else best) _ List.mem_cons_self
        rcases List.mem_cons.mp hrow with rfl | hrow
        · exact Int.le_trans hbetter.1 hstart
        rcases List.mem_cons.mp hrow with rfl | hrow
        · exact Int.le_trans hbetter.2 hstart
        · exact ih _ row (List.mem_cons_of_mem _ hrow)
  cases rows with
  | nil => cases h
  | cons row rows =>
      obtain rfl := Option.some.inj h
      exact hfold rows row

end Absorbed

/-! ### A group in the run -/

section Groups

variable {order : QueryOrder} {canonical : Lead} {email : String}

/-- The kept row absorbs the others, one after the other. -/
theorem absorbAll_mem (rows : List Lead) (state : LeadTables × Nat) {lead : Lead}
    (hlead : lead ∈ state.1.leads.rows) (hid : lead.id = canonical.id) :
    absorbAll canonical lead (othersOf canonical rows) ∈
      (rows.foldl (visitRow order canonical) state).1.leads.rows := by
  induction rows generalizing state lead with
  | nil => exact hlead
  | cons row rows ih =>
      unfold othersOf
      rw [List.foldl_cons]
      by_cases hrow : row.id = canonical.id
      · have hskip : visitRow order canonical state row = state := if_pos hrow
        rw [hskip, List.filter_cons_of_neg (by simpa using hrow)]
        exact ih state hlead hid
      · have hmerge : visitRow order canonical state row =
            (mergeRow order canonical state.1 row, state.2 + 1) := if_neg hrow
        rw [hmerge, List.filter_cons_of_pos (by simpa using hrow)]
        refine ih _ ((mem_mergeRow_iff (Ne.symm hrow)).mpr (Or.inr ⟨lead, hlead, hid, rfl⟩)) ?_
        exact (id_absorb canonical row lead).trans hid

/-- The rows of an email are the only ones of their ids. -/
def OwnIds (email : String) (canonical : Lead) (rows : List Lead) (leads : Table Lead) : Prop :=
  ∀ l ∈ leads.rows, l.id = canonical.id ∨ l.id ∈ rows.map Lead.id → l.email = email

/-- Rows of another email are left alone. -/
theorem mem_visitRows_other (rows : List Lead) (state : LeadTables × Nat)
    (hown : OwnIds email canonical rows state.1.leads) {l : Lead} (hl : l.email ≠ email) :
    l ∈ (rows.foldl (visitRow order canonical) state).1.leads.rows ↔ l ∈ state.1.leads.rows := by
  induction rows generalizing state with
  | nil => exact Iff.rfl
  | cons row rows ih =>
      have htail : OwnIds email canonical rows state.1.leads := by
        intro l hl hid
        refine hown l hl (hid.imp_right fun hmem => ?_)
        rw [List.map_cons]
        exact List.mem_cons_of_mem _ hmem
      rw [List.foldl_cons]
      by_cases hrow : row.id = canonical.id
      · have hskip : visitRow order canonical state row = state := if_pos hrow
        rw [hskip]
        exact ih state htail
      · have hmerge : visitRow order canonical state row =
            (mergeRow order canonical state.1 row, state.2 + 1) := if_neg hrow
        have hiff := fun l => @mem_mergeRow_iff order canonical row state.1 (Ne.symm hrow) l
        rw [hmerge, ih]
        · rw [hiff]
          constructor
          · rintro (⟨hmem, -⟩ | ⟨l', hl', hid, rfl⟩)
            · exact hmem
            · exact absurd ((email_absorb canonical row l').trans (hown l' hl' (Or.inl hid))) hl
          · intro hmem
            refine Or.inl ⟨hmem, fun hid => hl (hown l hmem (Or.inr ?_)), fun hid =>
              hl (hown l hmem (Or.inl hid))⟩
            rw [hid]
            exact List.mem_map_of_mem List.mem_cons_self
        · intro l' hl' hid
          rcases (hiff l').mp hl' with ⟨hmem, -⟩ | ⟨l, hmem, hcanonical, rfl⟩
          · exact htail l' hmem hid
          · exact (email_absorb canonical row l).trans (hown l hmem (Or.inl hcanonical))

theorem mem_groupOf {tables : LeadTables} {row : Lead} :
    row ∈ groupOf order tables email ↔ row ∈ tables.leads.rows ∧ row.email = email := by
  unfold groupOf
  rw [(order.rows_perm _).mem_iff, Table.mem_select, beq_iff_eq]

theorem ownIds_groupOf (tables : LeadTables)
    (hpick : pickCanonical (groupOf order tables email) = some canonical) :
    OwnIds email canonical (groupOf order tables email) tables.leads := by
  intro l hl hid
  have hrow : ∃ row ∈ groupOf order tables email, row.id = l.id := by
    rcases hid with hid | hmem
    · exact ⟨canonical, mem_of_pickCanonical hpick, hid.symm⟩
    · obtain ⟨row, hrow, hid⟩ := List.mem_map.mp hmem
      exact ⟨row, hrow, hid⟩
  obtain ⟨row, hrow, hid⟩ := hrow
  obtain ⟨hmem, hemail⟩ := mem_groupOf.mp hrow
  obtain rfl := tables.leads.eq_of_key_eq hmem hl hid
  exact hemail

theorem dedupeEmail_eq {state : LeadTables × Nat}
    (hpick : pickCanonical (groupOf order state.1 email) = some canonical) :
    dedupeEmail order state email =
      (groupOf order state.1 email).foldl (visitRow order canonical) state := by
  unfold groupOf at hpick ⊢
  unfold dedupeEmail
  dsimp only
  rw [hpick]

theorem dedupeEmail_of_none {state : LeadTables × Nat}
    (hpick : pickCanonical (groupOf order state.1 email) = none) :
    dedupeEmail order state email = state := by
  unfold groupOf at hpick
  unfold dedupeEmail
  dsimp only
  rw [hpick]

/-- Another email's turn leaves a group as it is. -/
theorem mem_dedupeEmails_other (emails : List String) (state : LeadTables × Nat) {l : Lead}
    (hl : l.email ∉ emails) :
    l ∈ (emails.foldl (dedupeEmail order) state).1.leads.rows ↔ l ∈ state.1.leads.rows := by
  induction emails generalizing state with
  | nil => exact Iff.rfl
  | cons email emails ih =>
      rw [List.foldl_cons, ih _ fun hmem => hl (List.mem_cons_of_mem _ hmem)]
      have hne : l.email ≠ email := fun heq => hl (heq ▸ List.mem_cons_self)
      cases hpick : pickCanonical (groupOf order state.1 email) with
      | none => rw [dedupeEmail_of_none hpick]
      | some canonical =>
          rw [dedupeEmail_eq hpick]
          exact mem_visitRows_other _ state (ownIds_groupOf state.1 hpick) hne

/-- What is left of a group is the kept row with all that it has absorbed. -/
theorem mem_dedupeLeads_group {tables : LeadTables} (hdupe : email ∈ dupeEmails tables.leads)
    (hpick : pickCanonical (groupOf order tables email) = some canonical) :
    absorbAll canonical canonical (othersOf canonical (groupOf order tables email)) ∈
      (dedupeLeads order tables).1.leads.rows := by
  have hperm := order.emails_perm (dupeEmails tables.leads)
  have hnodup : (order.emails (dupeEmails tables.leads)).Nodup :=
    hperm.nodup_iff.mpr ((List.nodup_dedup _).filter _)
  obtain ⟨before, after, hsplit⟩ := List.append_of_mem (hperm.mem_iff.mpr hdupe)
  unfold dedupeLeads
  rw [hsplit] at hnodup ⊢
  obtain ⟨-, hafter, hbefore⟩ := List.nodup_append.mp hnodup
  rw [List.foldl_append, List.foldl_cons]
  -- the emails before it have left the group as it was
  have hgroup : groupOf order (before.foldl (dedupeEmail order) (tables, 0)).1 email =
      groupOf order tables email := by
    refine congrArg order.rows (Table.select_congr fun l hl => ?_)
    refine mem_dedupeEmails_other before (tables, 0) fun hmem => ?_
    rw [beq_iff_eq.mp hl] at hmem
    exact hbefore email hmem email List.mem_cons_self rfl
  have hkept : canonical.email = email := (mem_groupOf.mp (mem_of_pickCanonical hpick)).2
  rw [mem_dedupeEmails_other after]
  · have hmem : canonical ∈ (before.foldl (dedupeEmail order) (tables, 0)).1.leads.rows :=
      (mem_groupOf.mp (hgroup ▸ mem_of_pickCanonical hpick)).1
    rw [← hgroup] at hpick ⊢
    rw [dedupeEmail_eq hpick]
    exact absorbAll_mem _ _ hmem rfl
  · rw [email_absorbAll, hkept]
    exact (List.nodup_cons.mp hafter).1

end Groups

/-! ### The same as saving -/

/-- The two leads are the same, as far as a merge goes. -/
structure MergedAlike (left saved : Lead) : Prop where
  fields : ∀ field : EnrichableField, field.ofLead left = field.ofLead saved
  confidenceBand : left.confidenceBand = saved.confidenceBand
  leadScore : left.leadScore = saved.leadScore

instance (left saved : Lead) : Decidable (MergedAlike left saved) :=
  decidable_of_iff (left.personName = saved.personName ∧ left.designation = saved.designation ∧
      left.department = saved.department ∧ left.sourceTitle = saved.sourceTitle ∧
      left.contextSnippet = saved.contextSnippet ∧ left.phone = saved.phone ∧
      left.entityKind = saved.entityKind ∧ left.confidenceBand = saved.confidenceBand ∧
      left.leadScore = saved.leadScore) <| by
    constructor
    · rintro ⟨h1, h2, h3, h4, h5, h6, h7, hband, hscore⟩
      refine ⟨fun field => ?_, hband, hscore⟩
      cases field <;> assumption
    · rintro ⟨hfields, hband, hscore⟩
      exact ⟨hfields .personName, hfields .designation, hfields .department, hfields .sourceTitle,
        hfields .contextSnippet, hfields .phone, hfields .entityKind, hband, hscore⟩

/-- What is left of a group has the fields and the band that saving gives, whatever the score. -/
theorem absorbAll_saveOthers (weights : ScoreWeights) {canonical : Lead} {others : List Lead}
    (hband : ∀ row ∈ others, bandRank row.confidenceBand ≤ bandRank canonical.confidenceBand) :
    MergedAlike (absorbAll canonical canonical others) (saveOthers weights canonical others) ↔
      ¬ Gains canonical others ∨ canonical.leadScore = pooledScore weights canonical others := by
  obtain ⟨hscore, hsame⟩ := scoring_absorbAll others hband canonical
  by_cases hgains : Gains canonical others
  · rw [or_iff_right (not_not.mpr hgains), ← leadScore_saveOthers hband hgains]
    constructor
    · exact fun h => hscore.symm.trans h.leadScore
    · intro heq
      refine ⟨fun field => ?_, ?_, hscore.trans heq⟩
      · rw [ofLead_absorbAll, ofLead_saveOthers]
      · rw [hsame, confidenceBand_saveOthers canonical others hband]
  · refine iff_of_true ?_ (Or.inl hgains)
    have hsaved := @saveOthers_of_not_gains weights canonical others hband hgains
    refine ⟨fun field => ?_, ?_, ?_⟩
    · rw [ofLead_absorbAll, ofLead_saveOthers]
    · rw [hsame, hsaved]
    · rw [hscore, hsaved]

/--
**The migration merges as `save_lead` does**, of a group of rows, exactly if no row gives the kept
one a value, or if the score of the kept one is that of the values they have together.
-/
theorem merged_alike_iff (order : QueryOrder) (weights : ScoreWeights) (tables : LeadTables)
    (email : String) (hdupe : email ∈ dupeEmails tables.leads) :
    ∃ canonical left, pickCanonical (groupOf order tables email) = some canonical ∧
      (∀ l, l ∈ (dedupeLeads order tables).1.leads.rows ∧ l.email = email ↔ l = left) ∧
      (MergedAlike left
          (saveOthers weights canonical (othersOf canonical (groupOf order tables email))) ↔
        ¬ Gains canonical (othersOf canonical (groupOf order tables email)) ∨
          canonical.leadScore =
            pooledScore weights canonical (othersOf canonical (groupOf order tables email))) := by
  have hrow : ∃ row, row ∈ groupOf order tables email := by
    obtain ⟨hmem, -⟩ := List.mem_filter.mp hdupe
    obtain ⟨row, hrow, hemail⟩ := List.mem_map.mp (List.mem_dedup.mp hmem)
    exact ⟨row, mem_groupOf.mpr ⟨hrow, hemail⟩⟩
  cases hpick : pickCanonical (groupOf order tables email) with
  | none =>
      obtain ⟨row, hrow⟩ := hrow
      cases hgroup : groupOf order tables email with
      | nil =>
          rw [hgroup] at hrow
          cases hrow
      | cons first rest =>
          rw [hgroup] at hpick
          cases hpick
  | some canonical =>
      have hleft := mem_dedupeLeads_group hdupe hpick
      have hemail : (absorbAll canonical canonical
          (othersOf canonical (groupOf order tables email))).email = email := by
        rw [email_absorbAll]
        exact (mem_groupOf.mp (mem_of_pickCanonical hpick)).2
      obtain ⟨-, -, hsingle⟩ := merges_dedupeLeads order tables
      refine ⟨canonical, _, rfl, fun l => ?_, absorbAll_saveOthers weights fun row hrow => ?_⟩
      · constructor
        · exact fun h => hsingle email l h.1 _ hleft h.2 hemail
        · rintro rfl
          exact ⟨hleft, hemail⟩
      · exact bandRank_le_of_pickCanonical hpick row (List.mem_of_mem_filter hrow)

/-! Two rows of an email, of which the better one has no designation yet.  Its score is right. -/

def scoredRow (jobId : Nat) (personName designation band : Option String) (score : Int) (id : Nat) :
    Lead :=
  { capturedTwice jobId personName designation band id with leadScore := score }

theorem key_scoredRow (jobId : Nat) (personName designation band : Option String) (score : Int)
    (id : Nat) : Keyed.key (scoredRow jobId personName designation band score id) = id :=
  rfl

def scoredRows (designation : Option String) (score : Int) : LeadTables where
  leads := (Table.empty.insertNew (scoredRow 1 none designation (some "LOW") score)
      (key_scoredRow _ _ _ _ _)).insertNew
    (scoredRow 2 (some "Real Name") none (some "HIGH") 60) (key_scoredRow _ _ _ _ _)

/-- It gets the designation, and would get 30 more for it if it were saved. -/
theorem score_left_behind :
    ∃ canonical left,
      pickCanonical (groupOf inKeyOrder (scoredRows (some "Officer") 40) "dup@x.gov.in") =
        some canonical ∧
      (dedupeLeads inKeyOrder (scoredRows (some "Officer") 40)).1.leads.rows = [left] ∧
      left.designation = some "Officer" ∧ left.leadScore = 60 ∧
      (saveOthers {} canonical
        (othersOf canonical
          (groupOf inKeyOrder (scoredRows (some "Officer") 40) "dup@x.gov.in"))).leadScore = 90 ∧
      ¬ MergedAlike left (saveOthers {} canonical
        (othersOf canonical (groupOf inKeyOrder (scoredRows (some "Officer") 40) "dup@x.gov.in"))) :=
  ⟨scoredRow 2 (some "Real Name") none (some "HIGH") 60 2,
    scoredRow 2 (some "Real Name") (some "Officer") (some "HIGH") 60 2, by decide +kernel,
    by decide +kernel, rfl, rfl, by decide +kernel, by decide +kernel⟩

/-- A row that has nothing to give is merged as it would be saved. -/
theorem blank_row_merged :
    ∃ canonical left, (∀ l, l ∈ (dedupeLeads inKeyOrder (scoredRows none 10)).1.leads.rows ∧
        l.email = "dup@x.gov.in" ↔ l = left) ∧
      MergedAlike left (saveOthers {} canonical
        (othersOf canonical (groupOf inKeyOrder (scoredRows none 10) "dup@x.gov.in"))) := by
  obtain ⟨canonical, left, hpick, hleft, hiff⟩ :=
    merged_alike_iff inKeyOrder {} (scoredRows none 10) "dup@x.gov.in" (by decide +kernel)
  refine ⟨canonical, left, hleft, hiff.mpr (Or.inl ?_)⟩
  have hcanonical : pickCanonical (groupOf inKeyOrder (scoredRows none 10) "dup@x.gov.in") =
      some (scoredRow 2 (some "Real Name") none (some "HIGH") 60 2) := by decide +kernel
  obtain rfl := Option.some.inj (hcanonical.symm.trans hpick)
  have hothers : othersOf (scoredRow 2 (some "Real Name") none (some "HIGH") 60 2)
      (groupOf inKeyOrder (scoredRows none 10) "dup@x.gov.in") =
        [scoredRow 1 none none (some "LOW") 10 1] := by decide +kernel
  rintro ⟨row, hrow, field, hfield, -⟩
  rw [hothers] at hrow
  obtain rfl := List.mem_singleton.mp hrow
  revert hfield
  cases field <;> decide

end DedupeMigration

end GovCrawler
