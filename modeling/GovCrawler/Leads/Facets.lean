/-
Where the facets of the leads page agree with its filters.

A facet is counted for a code and a title, over all leads of the snapshots, and is filtered by the
code, over the crawled leads.  So the two agree exactly if no code has two titles, no manual lead has
a snapshot with a code, and no snapshot has the code that stands for unattributed leads while there
are any.
-/
import GovCrawler.Leads.LeadQueries

namespace GovCrawler

open Relational

namespace LeadStore

/-- The facets of some jobs agree with a filter by code. -/
structure FacetsAgree (db : LeadStore) (ilike : String → String → Bool) (facets : List Facet)
    (filterBy : String → LeadFilters) : Prop where
  distinct : (facets.map Facet.code).Nodup
  count : ∀ f ∈ facets, ∀ code, f.code = some code →
    f.count = (db.getLeadIds ilike (filterBy code)).length

/-- When they do. -/
structure Consistent (db : LeadStore) (jobIds : List Nat) (code title : SnapshotFacets → Option String)
    (rows : List (LeadRow × SnapshotFacets)) : Prop where
  /-- A code has one title. -/
  oneTitle : ∀ r ∈ rows, ∀ r' ∈ rows, code r.2 = code r'.2 → title r.2 = title r'.2
  /-- A manual lead has no snapshot with a code. -/
  crawled : ∀ r ∈ rows, (code r.2).isSome = true → r.1.isManual = false
  /-- The code of the unattributed leads is not that of a snapshot, if there are any. -/
  sentinel : db.unattributedCount jobIds ≠ 0 → ∀ r ∈ rows, code r.2 ≠ some UNKNOWN_CODE

/-! ### Groups -/

section Groups

variable {code title : SnapshotFacets → Option String} {rows : List (LeadRow × SnapshotFacets)}

/-- The groups of the rows. -/
def groupKeys (code title : SnapshotFacets → Option String)
    (rows : List (LeadRow × SnapshotFacets)) : List (Option String × Option String) :=
  (rows.map fun r => (code r.2, title r.2)).dedup

theorem mem_groupKeys {group : Option String × Option String} :
    group ∈ groupKeys code title rows ↔ ∃ r ∈ rows, (code r.2, title r.2) = group := by
  unfold groupKeys
  rw [List.mem_dedup, List.mem_map]

theorem mem_groupedFacets {f : Facet} :
    f ∈ groupedFacets code title rows ↔ ∃ group ∈ groupKeys code title rows,
      f = ⟨group.1, if truthy group.2 then group.2 else group.1,
        rows.countP fun r => (code r.2, title r.2) == group⟩ := by
  unfold groupedFacets
  dsimp only
  rw [List.mem_map]
  constructor
  · rintro ⟨g, hg, rfl⟩
    obtain ⟨group, hgroup, rfl⟩ := List.mem_map.mp ((List.mem_insertionSort _).mp hg)
    exact ⟨group, hgroup, rfl⟩
  · rintro ⟨group, hgroup, rfl⟩
    exact ⟨_, (List.mem_insertionSort _).mpr (List.mem_map.mpr ⟨group, hgroup, rfl⟩), rfl⟩

theorem codes_groupedFacets :
    ((groupedFacets code title rows).map Facet.code).Perm
      ((groupKeys code title rows).map Prod.fst) := by
  unfold groupedFacets
  dsimp only
  rw [List.map_map]
  refine ((List.perm_insertionSort _ _).map _).trans ?_
  rw [List.map_map]
  exact List.Perm.refl _

/-- The codes are distinct exactly if no code has two titles. -/
theorem nodup_codes_iff : ((groupedFacets code title rows).map Facet.code).Nodup ↔
    ∀ r ∈ rows, ∀ r' ∈ rows, code r.2 = code r'.2 → title r.2 = title r'.2 := by
  rw [codes_groupedFacets.nodup_iff]
  constructor
  · intro hnodup r hr r' hr' hcode
    have heq := List.inj_on_of_nodup_map hnodup (mem_groupKeys.mpr ⟨r, hr, rfl⟩)
      (mem_groupKeys.mpr ⟨r', hr', rfl⟩) hcode
    exact congrArg Prod.snd heq
  · intro hone
    refine List.Nodup.map_on ?_ (List.nodup_dedup _)
    intro group hgroup group' hgroup' hcode
    obtain ⟨r, hr, rfl⟩ := mem_groupKeys.mp hgroup
    obtain ⟨r', hr', rfl⟩ := mem_groupKeys.mp hgroup'
    exact Prod.ext hcode (hone r hr r' hr' hcode)

/-- With one title for a code, a group is all rows of the code. -/
theorem countP_group (hone : ∀ r ∈ rows, ∀ r' ∈ rows, code r.2 = code r'.2 → title r.2 = title r'.2)
    {r : LeadRow × SnapshotFacets} (hr : r ∈ rows) :
    (rows.countP fun r' => (code r'.2, title r'.2) == (code r.2, title r.2)) =
      rows.countP fun r' => code r'.2 == code r.2 := by
  refine List.countP_congr fun r' hr' => ?_
  rw [beq_iff_eq, beq_iff_eq, Prod.mk.injEq]
  exact ⟨And.left, fun hcode => ⟨hcode, hone r' hr' r hr hcode⟩⟩

end Groups

/-! ### Filters by one code -/

section Filters

variable {db : LeadStore} {ilike : String → String → Bool} {jobIds : List Nat}

/-- The crawled leads of a code, and the unattributed ones for theirs. -/
def keepsCode (db : LeadStore) (jobIds : List Nat) (code : SnapshotFacets → Option String)
    (value : String) (l : LeadRow) : Bool :=
  inJobs jobIds l.toLead && !l.isManual &&
    ((db.snapshotOf l).bind code == some value ||
      (value == UNKNOWN_CODE && unattributedPredicate l.toLead))

/-- `get_lead_ids(job_ids, categories=[code], entry_type="extracted")`. -/
def ofCategory (jobIds : List Nat) (code : String) : LeadFilters where
  jobIds := jobIds
  categories := [code]
  entryType := "extracted"

/-- `get_lead_ids(job_ids, org_types=[code], entry_type="extracted")`. -/
def ofOrgType (jobIds : List Nat) (code : String) : LeadFilters where
  jobIds := jobIds
  orgTypes := [code]
  entryType := "extracted"

theorem isIn_singleton (column : Option String) (value : String) :
    isIn column [value] = (column == some value) := by
  cases column with
  | none => rfl
  | some text =>
      rw [Bool.eq_iff_iff]
      simp [isIn]

theorem applyLeadFilters_ofCategory (value : String) (l : LeadRow) :
    applyLeadFilters ilike (ofCategory jobIds value) l (db.snapshotOf l) =
      db.keepsCode jobIds SnapshotFacets.categoryCode value l := by
  unfold applyLeadFilters ofCategory keepsCode
  cases hmanual : l.isManual with
  | true => simp
  | false =>
      rw [Bool.eq_iff_iff]
      simp [isIn_singleton, @eq_comm _ UNKNOWN_CODE value]

theorem applyLeadFilters_ofOrgType (value : String) (l : LeadRow) :
    applyLeadFilters ilike (ofOrgType jobIds value) l (db.snapshotOf l) =
      db.keepsCode jobIds SnapshotFacets.orgType value l := by
  unfold applyLeadFilters ofOrgType keepsCode
  cases hmanual : l.isManual with
  | true => simp
  | false =>
      rw [Bool.eq_iff_iff]
      simp [isIn_singleton, @eq_comm _ UNKNOWN_CODE value]

/-- **What a filter by code keeps**: the crawled leads of the join with the code, and the
unattributed ones if it is theirs. -/
theorem countP_keepsCode (code : SnapshotFacets → Option String) (value : String) :
    db.leads.rows.countP (db.keepsCode jobIds code value) =
      (db.joined jobIds).countP (fun r => code r.2 == some value && !r.1.isManual) +
        if value = UNKNOWN_CODE then db.unattributedCount jobIds else 0 := by
  unfold joined unattributedCount
  generalize db.leads.rows = rows
  induction rows with
  | nil => simp
  | cons l rows ih =>
      have hnone : unattributedPredicate l.toLead = true → db.snapshotOf l = none := by
        intro h
        have hsnapshot : l.snapshotId = none := by
          simpa using (Bool.and_eq_true_iff.mp h).1
        unfold snapshotOf
        rw [hsnapshot]
        rfl
      have hcrawled : unattributedPredicate l.toLead = true → l.isManual = false := by
        intro h
        simpa using (Bool.and_eq_true_iff.mp h).2
      rw [List.countP_cons, ih, List.countP_cons, List.filter_cons]
      unfold keepsCode
      cases hjobs : inJobs jobIds l.toLead with
      | false => simp
      | true =>
          rw [if_pos rfl, List.filterMap_cons]
          cases hsnapshot : db.snapshotOf l with
          | none =>
              cases hunattributed : unattributedPredicate l.toLead with
              | false => simp
              | true =>
                  rw [hcrawled hunattributed]
                  by_cases hvalue : value = UNKNOWN_CODE
                  · simp [hvalue]
                    omega
                  · simp [hvalue]
          | some s =>
              have hattributed : unattributedPredicate l.toLead = false :=
                eq_false_of_ne_true fun h => by
                  rw [hnone h] at hsnapshot
                  cases hsnapshot
              rw [hattributed]
              simp only [Option.map_some, List.countP_cons, Option.bind_some]
              simp [and_comm]
              omega

end Filters

/-! ### Agreement -/

section Agreement

variable {db : LeadStore} {ilike : String → String → Bool} {jobIds : List Nat}
  {code title : SnapshotFacets → Option String} {rows : List (LeadRow × SnapshotFacets)}
  {filterBy : String → LeadFilters}

theorem mem_unknownFacet {f : Facet} {unknownCount : Nat} :
    f ∈ unknownFacet unknownCount ↔
      unknownCount ≠ 0 ∧ f = ⟨some UNKNOWN_CODE, some UNKNOWN, unknownCount⟩ := by
  unfold unknownFacet
  by_cases hzero : unknownCount = 0
  · simp [hzero]
  · simp [hzero]

/-- The codes are distinct exactly if those of the groups are, and that of the unattributed leads is
not among them. -/
theorem nodup_facets_iff (unknownCount : Nat) :
    ((groupedFacets code title rows ++ unknownFacet unknownCount).map Facet.code).Nodup ↔
      (∀ r ∈ rows, ∀ r' ∈ rows, code r.2 = code r'.2 → title r.2 = title r'.2) ∧
        (unknownCount ≠ 0 → ∀ r ∈ rows, code r.2 ≠ some UNKNOWN_CODE) := by
  have hcodes : ∀ value, value ∈ (groupedFacets code title rows).map Facet.code ↔
      ∃ r ∈ rows, code r.2 = value := by
    intro value
    rw [codes_groupedFacets.mem_iff, List.mem_map]
    constructor
    · rintro ⟨group, hgroup, rfl⟩
      obtain ⟨r, hr, rfl⟩ := mem_groupKeys.mp hgroup
      exact ⟨r, hr, rfl⟩
    · rintro ⟨r, hr, rfl⟩
      exact ⟨_, mem_groupKeys.mpr ⟨r, hr, rfl⟩, rfl⟩
  rw [List.map_append, List.nodup_append', nodup_codes_iff]
  unfold unknownFacet
  by_cases hzero : unknownCount = 0
  · simp [hzero]
  · rw [if_neg hzero]
    simp only [List.map_cons, List.map_nil, List.nodup_singleton, true_and,
      List.disjoint_singleton, hcodes, not_exists, not_and]
    exact and_congr_right fun _ => ⟨fun h _ => h, fun h => h hzero⟩

/-- What loses nothing by a second condition meets it. -/
theorem of_countP_and_eq {α : Type} {p q : α → Bool} {l : List α}
    (h : l.countP p = l.countP fun x => p x && q x) : ∀ x ∈ l, p x = true → q x = true := by
  have hall : (l.filter p).countP q = (l.filter p).length := by
    rw [List.countP_filter, ← List.countP_eq_length_filter, h]
    exact List.countP_congr fun x _ => by rw [Bool.and_comm]
  exact fun x hx hp => List.countP_eq_length.mp hall x (List.mem_filter.mpr ⟨hx, hp⟩)

/-- **Facets and filters agree** exactly if the rows are consistent. -/
theorem facetsAgree_iff
    (hcount : ∀ value, (db.getLeadIds ilike (filterBy value)).length =
      rows.countP (fun r => code r.2 == some value && !r.1.isManual) +
        if value = UNKNOWN_CODE then db.unattributedCount jobIds else 0) :
    db.FacetsAgree ilike
        (groupedFacets code title rows ++ unknownFacet (db.unattributedCount jobIds)) filterBy ↔
      db.Consistent jobIds code title rows := by
  have hgroup : ∀ r ∈ rows, (∀ r ∈ rows, ∀ r' ∈ rows, code r.2 = code r'.2 → title r.2 = title r'.2) →
      (⟨code r.2, if truthy (title r.2) then title r.2 else code r.2,
        rows.countP fun r' => code r'.2 == code r.2⟩ : Facet) ∈
          groupedFacets code title rows ++ unknownFacet (db.unattributedCount jobIds) := by
    intro r hr hone
    refine List.mem_append_left _ (mem_groupedFacets.mpr ⟨_, mem_groupKeys.mpr ⟨r, hr, rfl⟩, ?_⟩)
    rw [countP_group hone hr]
  have hunknown : (db.unattributedCount jobIds ≠ 0 → ∀ r ∈ rows, code r.2 ≠ some UNKNOWN_CODE) →
      ∀ {r value}, r ∈ rows → code r.2 = some value →
        (if value = UNKNOWN_CODE then db.unattributedCount jobIds else 0) = 0 := by
    intro hsentinel r value hr hvalue
    split
    · rename_i heq
      by_contra hne
      exact hsentinel hne r hr (heq ▸ hvalue)
    · rfl
  constructor
  · intro hagree
    obtain ⟨hone, hsentinel⟩ := (nodup_facets_iff _).mp hagree.distinct
    refine ⟨hone, fun r hr hsome => ?_, hsentinel⟩
    obtain ⟨value, hvalue⟩ := Option.isSome_iff_exists.mp hsome
    have hcounts := hagree.count _ (hgroup r hr hone) value hvalue
    dsimp only at hcounts
    rw [hcount, hvalue] at hcounts
    rw [hunknown hsentinel hr hvalue, Nat.add_zero] at hcounts
    have hcrawled := of_countP_and_eq hcounts r hr (beq_iff_eq.mpr hvalue)
    simpa using hcrawled
  · intro hconsistent
    refine ⟨(nodup_facets_iff _).mpr ⟨hconsistent.oneTitle, hconsistent.sentinel⟩, ?_⟩
    intro f hf value hvalue
    rw [hcount]
    rcases List.mem_append.mp hf with hf | hf
    · obtain ⟨group, hgroup', rfl⟩ := mem_groupedFacets.mp hf
      obtain ⟨r, hr, rfl⟩ := mem_groupKeys.mp hgroup'
      dsimp only at hvalue ⊢
      rw [countP_group hconsistent.oneTitle hr, hvalue, hunknown hconsistent.sentinel hr hvalue,
        Nat.add_zero]
      refine List.countP_congr fun r' hr' => ?_
      rw [Bool.and_eq_true_iff, beq_iff_eq]
      refine ⟨fun hcode => ⟨hcode, ?_⟩, And.left⟩
      rw [hconsistent.crawled r' hr' (by rw [hcode]; rfl)]
      rfl
    · obtain ⟨hne, rfl⟩ := mem_unknownFacet.mp hf
      obtain rfl : UNKNOWN_CODE = value := Option.some.inj hvalue
      have hnone : rows.countP (fun r => code r.2 == some UNKNOWN_CODE && !r.1.isManual) = 0 :=
        List.countP_eq_zero.mpr fun r hr h =>
          hconsistent.sentinel hne r hr (beq_iff_eq.mp (Bool.and_eq_true_iff.mp h).1)
      rw [hnone, if_pos rfl, Nat.zero_add]

/-- The number of ids that a filter by one category returns. -/
theorem length_ofCategory (value : String) :
    (db.getLeadIds ilike (ofCategory jobIds value)).length =
      (db.joined jobIds).countP (fun r => r.2.categoryCode == some value && !r.1.isManual) +
        if value = UNKNOWN_CODE then db.unattributedCount jobIds else 0 := by
  rw [← countP_keepsCode SnapshotFacets.categoryCode, List.countP_eq_length_filter]
  unfold getLeadIds filtered
  rw [List.length_map]
  simp only [applyLeadFilters_ofCategory]

theorem length_ofOrgType (value : String) :
    (db.getLeadIds ilike (ofOrgType jobIds value)).length =
      ((db.joined jobIds).filter fun r => r.2.orgType.isSome).countP
          (fun r => r.2.orgType == some value && !r.1.isManual) +
        if value = UNKNOWN_CODE then db.unattributedCount jobIds else 0 := by
  have hfilter : ((db.joined jobIds).filter fun r => r.2.orgType.isSome).countP
      (fun r => r.2.orgType == some value && !r.1.isManual) =
        (db.joined jobIds).countP fun r => r.2.orgType == some value && !r.1.isManual := by
    rw [List.countP_filter]
    refine List.countP_congr fun r _ => ?_
    rw [Bool.and_eq_true_iff, Bool.and_eq_true_iff, beq_iff_eq]
    exact ⟨And.left, fun h => ⟨h, by rw [h.1]; rfl⟩⟩
  rw [hfilter, ← countP_keepsCode SnapshotFacets.orgType, List.countP_eq_length_filter]
  unfold getLeadIds filtered
  rw [List.length_map]
  simp only [applyLeadFilters_ofOrgType]

end Agreement

/-- **Where the facets agree with the filters**, for the categories and for the kinds of
organisation. -/
theorem facets_agree_iff (db : LeadStore) (ilike : String → String → Bool) (jobIds : List Nat) :
    (db.FacetsAgree ilike (db.getLeadCategories jobIds) (ofCategory jobIds) ↔
      db.Consistent jobIds SnapshotFacets.categoryCode SnapshotFacets.categoryTitle
        (db.joined jobIds)) ∧
    (db.FacetsAgree ilike (db.getLeadOrgTypes jobIds) (ofOrgType jobIds) ↔
      db.Consistent jobIds SnapshotFacets.orgType SnapshotFacets.orgTypeTitle
        ((db.joined jobIds).filter fun r => r.2.orgType.isSome)) :=
  ⟨facetsAgree_iff length_ofCategory, facetsAgree_iff length_ofOrgType⟩

/-! A category that was renamed between two crawls. -/

/-- A lead with a snapshot of the same id. -/
def stateLead (email : String) (id : Nat) : LeadRow where
  id := id
  jobId := 1
  snapshotId := some id
  email := email
  personName := none
  designation := none
  department := none
  sourceUrl := "https://tn.gov.in/contact"
  sourceTitle := none
  contextSnippet := none
  entityKind := none
  phone := none
  channelTag := some "office"
  confidenceBand := some "HIGH"
  fieldProvenance := none
  capturedAt := some 1

theorem stateLead_id (email : String) (id : Nat) : Keyed.key (stateLead email id) = id := rfl

/-- A snapshot of the category, with the title it has at the time. -/
def stateSnapshot (categoryTitle : String) (id : Nat) : SnapshotFacets :=
  ⟨id, some "state", some categoryTitle, none, none, none⟩

theorem stateSnapshot_id (categoryTitle : String) (id : Nat) :
    Keyed.key (stateSnapshot categoryTitle id) = id := rfl

/-- Two leads of the category. -/
def renamedCategory (before after : String) : LeadStore where
  leads := (Table.empty.insertNew (stateLead "a@tn.gov.in") (stateLead_id _)).insertNew
    (stateLead "b@tn.gov.in") (stateLead_id _)
  snapshots := (Table.empty.insertNew (stateSnapshot before) (stateSnapshot_id _)).insertNew
    (stateSnapshot after) (stateSnapshot_id _)

/-- The category is listed twice, and each time with one lead of the two that it is a filter for. -/
theorem renamed_disagrees :
    (renamedCategory "States" "State Governments").getLeadCategories [] =
        [⟨some "state", some "States", 1⟩, ⟨some "state", some "State Governments", 1⟩] ∧
      (renamedCategory "States" "State Governments").getLeadIds (fun _ _ => false)
        (ofCategory [] "state") = [1, 2] ∧
      ¬ (renamedCategory "States" "State Governments").FacetsAgree (fun _ _ => false)
        ((renamedCategory "States" "State Governments").getLeadCategories []) (ofCategory []) := by
  have hfacets : (renamedCategory "States" "State Governments").getLeadCategories [] =
      [⟨some "state", some "States", 1⟩, ⟨some "state", some "State Governments", 1⟩] := by
    decide +kernel
  refine ⟨hfacets, by decide +kernel, fun hagree => ?_⟩
  have hnodup := hagree.distinct
  rw [hfacets] at hnodup
  exact absurd hnodup (by decide)

end LeadStore

end GovCrawler
