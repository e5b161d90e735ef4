/-
What the leads page asks the database, `cloud/db/mixins/lead_mixin.py`: the filters, and the facets
that count for them.

A condition of SQL that is unknown for want of a value keeps no row, so each condition here is
whether it is true.  `ILIKE` is a parameter.  What a lead shows of its snapshot and no query
compares is left out.
-/
import Mathlib.Data.List.Dedup
import Mathlib.Data.List.Sort
import GovCrawler.Leads.SaveLead

namespace GovCrawler

open Relational

/-! ### Tables -/

/-- A row of `leads`, with its time. -/
structure LeadRow extends Lead where
  capturedAt : Option Time
  deriving DecidableEq, Repr

/-- A row of `crawl_snapshots`, with the columns that leads are filtered and counted by. -/
structure SnapshotFacets where
  id : Nat
  categoryCode : Option String
  categoryTitle : Option String
  state : Option String
  orgType : Option String
  orgTypeTitle : Option String
  deriving DecidableEq, Repr

instance : Keyed LeadRow := ⟨fun l => l.id⟩
instance : Keyed SnapshotFacets := ⟨SnapshotFacets.id⟩

structure LeadStore where
  leads : Table LeadRow := Table.empty
  snapshots : Table SnapshotFacets := Table.empty

/-! ### Filters -/

def UNKNOWN : String := "Unknown"
def UNKNOWN_CODE : String := "__unknown__"

/-- The keywords of `_apply_lead_filters`.  An empty list is no filter, as is `None`. -/
structure LeadFilters where
  jobIds : List Nat := []
  categories : List String := []
  states : List String := []
  search : Option String := none
  completeOnly : Bool := false
  minScore : Option Int := none
  orgTypes : List String := []
  entryType : String := "both"
  requireName : Bool := false
  requireDesignation : Bool := false
  requirePhone : Bool := false
  deriving DecidableEq, Repr

/-- `Lead.channel_tag == "manual"`. -/
def Lead.isManual (l : Lead) : Bool := l.channelTag == some "manual"

/-- `_unattributed_predicate`. -/
def unattributedPredicate (l : Lead) : Bool := l.snapshotId.isNone && !l.isManual

/-- `column.in_(values)`. -/
def isIn (column : Option String) (values : List String) : Bool := column.any values.contains

/-- `if job_ids: q.filter(Lead.job_id.in_(job_ids))`. -/
def inJobs (jobIds : List Nat) (l : Lead) : Bool := jobIds.isEmpty || jobIds.contains l.jobId

/-- `_apply_lead_filters`, of one row of the outer join. -/
def applyLeadFilters (ilike : String → String → Bool) (f : LeadFilters) (l : LeadRow)
    (s : Option SnapshotFacets) : Bool :=
  let like := fun (column : Option String) (text : String) =>
    column.any (ilike ("%" ++ text ++ "%"))
  inJobs f.jobIds l.toLead &&
  (if f.entryType = "manual" then l.isManual
    else if f.entryType = "extracted" then !l.isManual
    else true) &&
  -- a manual lead has no snapshot, and none of these filters hides it
  (f.categories.isEmpty || l.isManual || isIn (s.bind SnapshotFacets.categoryCode) f.categories ||
    (f.categories.contains UNKNOWN_CODE && unattributedPredicate l.toLead)) &&
  (f.states.isEmpty || l.isManual || isIn (s.bind SnapshotFacets.state) f.states ||
    isIn l.manualState f.states || (f.states.contains UNKNOWN && unattributedPredicate l.toLead)) &&
  (f.orgTypes.isEmpty || l.isManual || isIn (s.bind SnapshotFacets.orgType) f.orgTypes ||
    (f.orgTypes.contains UNKNOWN_CODE && unattributedPredicate l.toLead)) &&
  (match f.search with
    | none => true
    | some text => text = "" || like (some l.email) text || like l.personName text ||
        like l.department text || like l.designation text) &&
  (!f.completeOnly || (truthy l.personName && truthy l.designation && truthy l.department)) &&
  (!f.requireName || truthy l.personName) &&
  (!f.requireDesignation || truthy l.designation) &&
  (!f.requirePhone || truthy l.phone) &&
  f.minScore.all fun minScore => l.isManual || minScore ≤ l.leadScore

namespace LeadStore

variable (db : LeadStore)

/-- The snapshot of a lead. -/
def snapshotOf (l : LeadRow) : Option SnapshotFacets := l.snapshotId.bind db.snapshots.get?

/-- The leads that a filter keeps. -/
def filtered (ilike : String → String → Bool) (f : LeadFilters) : List LeadRow :=
  db.leads.rows.filter fun l => applyLeadFilters ilike f l (db.snapshotOf l)

/-- `get_lead_ids`. -/
def getLeadIds (ilike : String → String → Bool) (f : LeadFilters) : List Nat :=
  (db.filtered ilike f).map fun l => l.id

/-- The inner join of the snapshots and the leads of some jobs. -/
def joined (jobIds : List Nat) : List (LeadRow × SnapshotFacets) :=
  (db.leads.rows.filter fun l => inJobs jobIds l.toLead).filterMap fun l =>
    (db.snapshotOf l).map fun s => (l, s)

/-- `_unattributed_count`. -/
def unattributedCount (jobIds : List Nat) : Nat :=
  db.leads.rows.countP fun l => unattributedPredicate l.toLead && inJobs jobIds l.toLead

end LeadStore

/-! ### Facets -/

structure Facet where
  code : Option String
  title : Option String
  count : Nat
  deriving DecidableEq, Repr

/-- `GROUP BY code, title ORDER BY count(*) DESC`; the database may order groups of one size in any
way. -/
def groupedFacets (code title : SnapshotFacets → Option String)
    (rows : List (LeadRow × SnapshotFacets)) : List Facet :=
  let groups := (rows.map fun r => (code r.2, title r.2)).dedup.map fun group =>
    (group, rows.countP fun r => (code r.2, title r.2) == group)
  (groups.insertionSort fun a b => b.2 ≤ a.2).map fun g =>
    ⟨g.1.1, if truthy g.1.2 then g.1.2 else g.1.1, g.2⟩

/-- The unattributed leads, if there are any. -/
def unknownFacet (unknownCount : Nat) : List Facet :=
  if unknownCount = 0 then [] else [⟨some UNKNOWN_CODE, some UNKNOWN, unknownCount⟩]

namespace LeadStore

variable (db : LeadStore)

/-- `get_lead_categories`. -/
def getLeadCategories (jobIds : List Nat) : List Facet :=
  groupedFacets SnapshotFacets.categoryCode SnapshotFacets.categoryTitle (db.joined jobIds) ++
    unknownFacet (db.unattributedCount jobIds)

/-- `get_lead_org_types`. -/
def getLeadOrgTypes (jobIds : List Nat) : List Facet :=
  groupedFacets SnapshotFacets.orgType SnapshotFacets.orgTypeTitle
      ((db.joined jobIds).filter fun r => r.2.orgType.isSome) ++
    unknownFacet (db.unattributedCount jobIds)

end LeadStore

end GovCrawler
