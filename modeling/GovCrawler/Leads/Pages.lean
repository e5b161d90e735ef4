/-
The paged lists: `get_leads`, `get_domains`, `list_jobs` and `list_campaigns`.

None of them orders by a key that tells all rows apart.  How the database orders a time or a text,
and where it puts a missing one, is a parameter.
-/
import Mathlib.Data.Prod.Lex
import Mathlib.Order.WithBot
import Mathlib.Data.String.Basic
import GovCrawler.Leads.Catalog
import GovCrawler.Leads.LeadQueries
import GovCrawler.Lib.Paging
import GovCrawler.Outreach.Tables

namespace GovCrawler

open Relational Paging

/-! ### Queries -/

/-- How the database orders nullable columns. -/
structure ColumnOrder (T U : Type*) where
  time : Option Time → T
  text : Option String → U

/-- What a list selects, and what it is ordered by. -/
structure PagedQuery (R K : Type*) where
  rows : List R
  key : R → K
  nodup : rows.Nodup

/-- The `limit` of a route, which is at least one. -/
structure PageLimit where
  value : Nat
  pos : 0 < value

/-- `max(1, (total + limit - 1) // limit)`. -/
def pageCount (total : Nat) (limit : PageLimit) : Nat :=
  max 1 ((total + limit.value - 1) / limit.value)

namespace PagedQuery

variable {R K : Type*} [LinearOrder K]

/-- All pages, each of an answer of its own. -/
def allPages (q : PagedQuery R K) (limit : PageLimit) (answers : Nat → List R) : List R :=
  pages limit.value (pageCount q.rows.length limit) answers

/-- Whatever the answers, the pages have each row once. -/
def Partitioned (q : PagedQuery R K) (limit : PageLimit) : Prop :=
  ∀ answers : Nat → List R, (∀ i, AnswerTo q.key q.rows (answers i)) →
    (q.allPages limit answers).Perm q.rows

/-- No page ends between two rows that are equal in all columns of the order. -/
def Uncut (q : PagedQuery R K) (limit : PageLimit) : Prop :=
  ∀ i, ¬ Cuts q.key q.rows (i * limit.value)

theorem length_le_pageCount (total : Nat) (limit : PageLimit) :
    total ≤ pageCount total limit * limit.value := by
  have hpos := limit.pos
  have hdiv := Nat.div_add_mod (total + limit.value - 1) limit.value
  have hmod := Nat.mod_lt (total + limit.value - 1) hpos
  have hceil : total ≤ (total + limit.value - 1) / limit.value * limit.value := by
    rw [Nat.mul_comm]
    omega
  exact Nat.le_trans hceil (Nat.mul_le_mul_right _ (Nat.le_max_right _ _))

theorem partitioned_iff (q : PagedQuery R K) (limit : PageLimit) :
    q.Partitioned limit ↔ q.Uncut limit :=
  pages_perm_iff q.nodup (length_le_pageCount _ limit)

end PagedQuery

/-- The rows of a table that a query selects are different. -/
theorem nodup_select {R : Type*} [Keyed R] (t : Table R) (p : R → Bool) : (t.select p).Nodup :=
  (List.Nodup.of_map _ t.nodup_keys).filter _

/-! ### The lists -/

/-- The integer that `_apply_lead_sort` sorts by; `none` for the default. -/
def sortColumn (sortBy : Option String) (l : LeadRow) : Option Int :=
  match sortBy with
  | some "score" => some l.leadScore
  | some "contact" => some (if truthy l.phone then 1 else 0)
  | some "name" => some (if truthy l.personName then 1 else 0)
  | _ => none

/-- `column.asc()` or `column.desc()`, as what is sorted by upwards. -/
def directed (sortDir : String) (column : Int) : Int := if sortDir = "asc" then column else -column

section Lists

variable {T U : Type*} [LinearOrder T] [LinearOrder U] (order : ColumnOrder T U)
  (ilike : String → String → Bool)

/-- `_apply_lead_sort`. -/
def applyLeadSort (sortBy : Option String) (sortDir : String) (l : LeadRow) : Int ×ₗ Tᵒᵈ :=
  toLex (((sortColumn sortBy l).map (directed sortDir)).getD 0,
    OrderDual.toDual (order.time l.capturedAt))

/-- `get_leads`. -/
def getLeads (db : LeadStore) (f : LeadFilters) (sortBy : Option String) (sortDir : String) :
    PagedQuery LeadRow (Int ×ₗ Tᵒᵈ) where
  rows := db.filtered ilike f
  key := applyLeadSort order sortBy sortDir
  nodup := nodup_select db.leads _

/-- The keywords of `get_domains`. -/
structure DomainFilters where
  category : Option String := none
  state : Option String := none
  orgType : Option String := none
  search : Option String := none
  deriving DecidableEq, Repr

/-- `if value: q.filter(column == value)`. -/
def equals (column value : Option String) : Bool := !truthy value || column == value

/-- The filters of `get_domains`. -/
def domainFilters (f : DomainFilters) (d : CatalogDomain) : Bool :=
  equals (some d.fields.categoryCode) f.category &&
  equals d.fields.state f.state &&
  equals d.fields.orgType f.orgType &&
  (!truthy f.search || d.fields.title.any (ilike ("%" ++ f.search.getD "" ++ "%")) ||
    d.fields.mainUrl.any (ilike ("%" ++ f.search.getD "" ++ "%")))

/-- `get_domains`. -/
def getDomains (domains : Table CatalogDomain) (f : DomainFilters) (sortBy : Option String)
    (sortDir : String) : PagedQuery CatalogDomain (Int ×ₗ (U ×ₗ U)) where
  rows := domains.select (domainFilters ilike f)
  key := fun d =>
    let crawlable : Int := if d.fields.mainUrl.isSome then 1 else 0
    toLex (if sortBy = some "crawlable" then directed sortDir crawlable else 0,
      toLex (order.text d.fields.state, order.text d.fields.mainUrl))
  nodup := nodup_select domains _

/-- A row of `crawl_jobs`, with its time. -/
structure ListedJob extends JobRow where
  createdAt : Option Time
  deriving DecidableEq, Repr

/-- A row of `campaigns`, with its time. -/
structure ListedCampaign extends Campaign where
  createdAt : Option Time
  deriving DecidableEq, Repr

instance : Keyed ListedJob := ⟨fun j => j.id⟩
instance : Keyed ListedCampaign := ⟨fun c => c.id⟩

/-- `list_jobs`. -/
def listJobs (jobs : Table ListedJob) (ownerId : Option Nat) (viewAll : Bool) :
    PagedQuery ListedJob Tᵒᵈ where
  rows := jobs.select fun j => viewAll || j.ownerId == ownerId
  key := fun j => OrderDual.toDual (order.time j.createdAt)
  nodup := nodup_select jobs _

/-- `CampaignKind.value`. -/
def CampaignKind.value : CampaignKind → String
  | .production => "production"
  | .test => "test"

/-- `list_campaigns`. -/
def listCampaigns (campaigns : Table ListedCampaign) (kind : Option String) (ownerId : Option Nat)
    (viewAll : Bool) : PagedQuery ListedCampaign Tᵒᵈ where
  rows := campaigns.select fun c =>
    equals (some c.kind.value) kind && (viewAll || c.ownerId == ownerId)
  key := fun c => OrderDual.toDual (order.time c.createdAt)
  nodup := nodup_select campaigns _

/-- **Where the pages partition the result**, of each of the lists: exactly where no page ends
between two rows that are equal in all columns of the order. -/
theorem lists_partitioned_iff (limit : PageLimit) :
    (∀ db f sortBy sortDir, (getLeads order ilike db f sortBy sortDir).Partitioned limit ↔
      (getLeads order ilike db f sortBy sortDir).Uncut limit) ∧
    (∀ domains f sortBy sortDir, (getDomains order ilike domains f sortBy sortDir).Partitioned limit ↔
      (getDomains order ilike domains f sortBy sortDir).Uncut limit) ∧
    (∀ jobs ownerId viewAll, (listJobs order jobs ownerId viewAll).Partitioned limit ↔
      (listJobs order jobs ownerId viewAll).Uncut limit) ∧
    ∀ campaigns kind ownerId viewAll,
      (listCampaigns order campaigns kind ownerId viewAll).Partitioned limit ↔
        (listCampaigns order campaigns kind ownerId viewAll).Uncut limit :=
  ⟨fun _ _ _ _ => PagedQuery.partitioned_iff _ limit,
    fun _ _ _ _ => PagedQuery.partitioned_iff _ limit,
    fun _ _ _ => PagedQuery.partitioned_iff _ limit,
    fun _ _ _ _ => PagedQuery.partitioned_iff _ limit⟩

end Lists

/-! Two domains of a state, without URLs, on pages of one. -/

/-- Missing values first, as in SQLite. -/
def missingFirst : ColumnOrder (WithBot Time) (WithBot String) := ⟨id, id⟩

/-- A domain that an import found no URL for. -/
def urlless (id : Nat) (externalId : String) : CatalogDomain :=
  ⟨id, { externalId := some externalId, categoryCode := "state", state := some "Tamil Nadu" }⟩

/-- The catalog after the import. -/
def urllessCatalog : Table CatalogDomain :=
  upsertDomain insertionOrder
    (upsertDomain insertionOrder Table.empty (urlless 1 "npi-1").fields) (urlless 2 "npi-2").fields

/-- The first query puts one of them first, the second the other. -/
def urllessAnswers (i : Nat) : List CatalogDomain :=
  if i = 0 then [urlless 1 "npi-1", urlless 2 "npi-2"] else [urlless 2 "npi-2", urlless 1 "npi-1"]

/-- One domain is on both pages, the other on none. -/
theorem urlless_repeated :
    let q := getDomains missingFirst (fun _ _ => false) urllessCatalog {} none "desc"
    (∀ i, AnswerTo q.key q.rows (urllessAnswers i)) ∧
      q.allPages ⟨1, Nat.one_pos⟩ urllessAnswers = [urlless 1 "npi-1", urlless 1 "npi-1"] ∧
      ¬ q.Partitioned ⟨1, Nat.one_pos⟩ := by
  intro q
  have hrows : q.rows = [urlless 1 "npi-1", urlless 2 "npi-2"] := by decide +kernel
  have hanswers : ∀ i, AnswerTo q.key q.rows (urllessAnswers i) := by
    intro i
    rw [hrows]
    unfold urllessAnswers
    split
    · exact ⟨List.Perm.refl _, List.pairwise_pair.mpr le_rfl⟩
    · exact ⟨List.Perm.swap _ _ _, List.pairwise_pair.mpr le_rfl⟩
  have hpages : q.allPages ⟨1, Nat.one_pos⟩ urllessAnswers =
      [urlless 1 "npi-1", urlless 1 "npi-1"] := by
    unfold PagedQuery.allPages
    rw [hrows]
    rfl
  refine ⟨hanswers, hpages, fun hpartitioned => ?_⟩
  have hperm := hpartitioned urllessAnswers hanswers
  rw [hpages, hrows] at hperm
  exact absurd (hperm.mem_iff.mpr (List.mem_cons_of_mem _ List.mem_cons_self)) (by decide)

end GovCrawler
