/-
The catalog of domains and the snapshots that freeze it, `cloud/db/mixins/domain_mixin.py` and
`crawl_snapshot_mixin.py`.

An import replaces every domain, under new ids.  A snapshot copies all that is in a domain, and
is what a lead refers to.  `_build_netloc_domain_map` turns the catalog into the map that leads
are attributed with; the tables of categories and of kinds of organisation, which it does not
read, are left out.
-/
import GovCrawler.Jobs.Tables
import GovCrawler.Lib.OrderedDict
import Mathlib.Data.List.Induction

namespace GovCrawler

open Relational OrderedDict

/-! ### Tables -/

/-- The columns of a domain that a snapshot copies: all but its id. -/
structure DomainFields where
  externalId : Option String := none
  categoryCode : String
  categoryTitle : Option String := none
  state : Option String := none
  orgType : Option String := none
  orgTypeTitle : Option String := none
  title : Option String := none
  mainUrl : Option String := none
  contactUrl : Option String := none
  deriving DecidableEq, Repr

structure CatalogDomain where
  id : Nat
  fields : DomainFields
  deriving DecidableEq, Repr

/-- A row of `crawl_snapshots`, whole. -/
structure FrozenSnapshot where
  id : Nat
  jobId : Nat
  sourceDomainId : Option Nat
  fields : DomainFields
  isSeed : Bool
  deriving DecidableEq, Repr

instance : Keyed CatalogDomain := ⟨CatalogDomain.id⟩
instance : Keyed FrozenSnapshot := ⟨FrozenSnapshot.id⟩

structure CatalogDb where
  domains : Table CatalogDomain := Table.empty
  jobs : Table JobRow := Table.empty
  jobDomains : List CrawlJobDomain := []
  snapshots : Table FrozenSnapshot := Table.empty
  leads : Table Lead := Table.empty
  /-- `target_suffixes` of the crawl policy. -/
  targetSuffixes : List String := [".gov.in", ".nic.in"]
  /-- How many writes of the catalog there have been.  Nothing reads it. -/
  writes : Nat := 0

/-! ### Writes of the catalog -/

/-- In what order the database gives the domains that a query selects. -/
structure DomainOrder where
  rows : List CatalogDomain → List CatalogDomain
  rows_perm : ∀ l, (rows l).Perm l

/-- `.first()` of a query without an `ORDER BY`. -/
def DomainOrder.first? (order : DomainOrder) (domains : Table CatalogDomain)
    (p : CatalogDomain → Bool) : Option CatalogDomain :=
  (order.rows (domains.select p)).head?

/-- The rows as they were inserted. -/
def insertionOrder : DomainOrder := ⟨id, fun _ => .refl _⟩

theorem DomainOrder.first?_eq_none_iff {order : DomainOrder} {domains : Table CatalogDomain}
    {p : CatalogDomain → Bool} :
    order.first? domains p = none ↔ ∀ d ∈ domains.rows, p d = false := by
  have hnil : order.rows (domains.select p) = [] ↔ domains.select p = [] := by
    rw [← List.length_eq_zero_iff, (order.rows_perm _).length_eq, List.length_eq_zero_iff]
  unfold DomainOrder.first?
  rw [List.head?_eq_none_iff, hnil]
  unfold Table.select
  simp

theorem DomainOrder.first?_spec {order : DomainOrder} {domains : Table CatalogDomain}
    {p : CatalogDomain → Bool} {d : CatalogDomain} (h : order.first? domains p = some d) :
    d ∈ domains.rows ∧ p d = true :=
  (Table.mem_select ..).mp ((order.rows_perm _).mem_iff.mp (List.mem_of_head? h))

/-- The row that `upsert_domain` takes for the entry. -/
def existingDomain (order : DomainOrder) (domains : Table CatalogDomain) (fields : DomainFields) :
    Option CatalogDomain :=
  if truthy fields.externalId then
    order.first? domains fun d => d.fields.externalId == fields.externalId
  else if truthy fields.mainUrl then
    order.first? domains fun d => d.fields.mainUrl == fields.mainUrl
  else none

def upsertDomain (order : DomainOrder) (domains : Table CatalogDomain) (fields : DomainFields) :
    Table CatalogDomain :=
  match existingDomain order domains fields with
  | some existing =>
      domains.updateWhere (fun d => d.id == existing.id) fun d => { d with fields := fields }
  | none => domains.insertNew fun id => ⟨id, fields⟩

/-- `update_domain_url`, of a domain that is there. -/
def updateDomainUrl (domains : Table CatalogDomain) (domainId : Nat) (mainUrl : String)
    (contactUrl : Option String) : Option (Table CatalogDomain) :=
  match domains.get? domainId with
  | none => none
  | some _ =>
      some (domains.updateWhere (fun d => d.id == domainId) fun d =>
        { d with fields := { d.fields with
            mainUrl := some mainUrl, contactUrl := contactUrl.or d.fields.contactUrl } })

/-- What entries are deduplicated by. -/
def entryKey (i : Nat) (e : DomainFields) : String :=
  if truthy e.externalId then "ext:" ++ e.externalId.getD ""
  else if truthy e.mainUrl then "url:" ++ e.mainUrl.getD ""
  else "row:" ++ toString i

/-- Of the entries of one key the last is left, in the place of the first. -/
def dedupedEntries (entries : List DomainFields) : List DomainFields :=
  (entries.zipIdx.foldl (fun d e => d.insert (entryKey e.2 e.1) e.1 false)
    (Dict.empty : Dict String DomainFields)).values

/-- `replace_catalog`.  Ids go on from where they were. -/
def replaceCatalog (domains : Table CatalogDomain) (entries : List DomainFields) :
    Table CatalogDomain :=
  (dedupedEntries entries).foldl (fun t e => t.insertNew fun id => ⟨id, e⟩)
    (domains.deleteWhere fun _ => true)

inductive CatalogWrite
  | upsertDomain (order : DomainOrder) (fields : DomainFields)
  | updateDomainUrl (domainId : Nat) (mainUrl : String) (contactUrl : Option String)
  | replaceCatalog (entries : List DomainFields)

/-- The row that `create_job` inserts. -/
def newJob (sourceType : SourceType) (categoryFilter titleFilter : Option String)
    (ownerId : Option Nat) (agentId : Option String) (id : Nat) : JobRow where
  id := id
  ownerId := ownerId
  sourceType := sourceType
  categoryFilter := categoryFilter
  titleFilter := titleFilter
  agentHostname := agentId

theorem newJob_id (sourceType : SourceType) (categoryFilter titleFilter : Option String)
    (ownerId : Option Nat) (agentId : Option String) (id : Nat) :
    Keyed.key (newJob sourceType categoryFilter titleFilter ownerId agentId id) = id :=
  rfl

namespace CatalogDb

variable (db : CatalogDb)

/-- The transaction of a write; `none` if it finds nothing to write.  What refers to a domain in
`crawl_job_domains` goes with it. -/
def commit : CatalogWrite → Option CatalogDb
  | .upsertDomain order fields =>
      some { db with
        domains := GovCrawler.upsertDomain order db.domains fields
        writes := db.writes + 1 }
  | .updateDomainUrl domainId mainUrl contactUrl =>
      (GovCrawler.updateDomainUrl db.domains domainId mainUrl contactUrl).map fun domains =>
        { db with domains := domains, writes := db.writes + 1 }
  | .replaceCatalog entries =>
      some { db with
        domains := GovCrawler.replaceCatalog db.domains entries
        jobDomains := []
        writes := db.writes + 1 }

/-! ### Jobs -/

/-- `get_domains_by_ids`. -/
def getDomainsByIds (ids : List Nat) : List CatalogDomain :=
  db.domains.select fun d => ids.contains d.id

/-- The first half of `create_job`: the job is committed by itself. -/
def addJob (sourceType : SourceType) (categoryFilter titleFilter : Option String)
    (ownerId : Option Nat) (agentId : Option String) : CatalogDb :=
  { db with
    jobs := db.jobs.insertNew (newJob sourceType categoryFilter titleFilter ownerId agentId)
      (newJob_id sourceType categoryFilter titleFilter ownerId agentId) }

/-- The second half: `(job_id, domain_id)` is the primary key, and the domain has to be there. -/
def addJobDomains (jobId : Nat) (domainIds : List Nat) : Option CatalogDb :=
  if domainIds.Nodup ∧ ∀ d ∈ domainIds, (db.domains.get? d).isSome then
    some { db with jobDomains := db.jobDomains ++ domainIds.map fun d => ⟨jobId, d⟩ }
  else none

def getJobDomainIds (jobId : Nat) : List Nat :=
  (db.jobDomains.filter fun r => r.jobId == jobId).map CrawlJobDomain.domainId

/-! ### Snapshots and leads -/

def findSnapshot (jobId domainId : Nat) : Option FrozenSnapshot :=
  db.snapshots.first? fun s => s.jobId == jobId && s.sourceDomainId == some domainId

/-- The insert of `create_crawl_snapshot`, which refers to its job and is unique for job and
domain. -/
def addSnapshot (jobId : Nat) (domain : CatalogDomain) (isSeed : Bool) :
    Option (Nat × CatalogDb) :=
  if (db.jobs.get? jobId).isSome && (db.findSnapshot jobId domain.id).isNone then
    some (db.snapshots.nextKey, { db with
      snapshots := db.snapshots.insertNew fun id =>
        ⟨id, jobId, some domain.id, domain.fields, isSeed⟩ })
  else none

/-- Whether a job has seeds among its snapshots. -/
def hasSeeds (jobId : Nat) : Bool := db.snapshots.rows.any fun s => s.jobId == jobId && s.isSeed

def hasEmail (email : String) : Bool := (db.leads.first? fun l => l.email == email).isSome

/-- The insert of `save_lead`. -/
def addLead (rules : LeadRules) (jobId : Nat) (item : LeadItem) (email : String)
    (snapshotId : Option Nat) (department : Option String) : Option CatalogDb :=
  if !db.hasEmail email && (db.jobs.get? jobId).isSome &&
      snapshotId.all fun k => (db.snapshots.get? k).isSome then
    some { db with
      leads := db.leads.insertNew (newLead rules jobId item email snapshotId department)
        (newLead_id rules jobId item email snapshotId department) }
  else none

end CatalogDb

/-- A write is of domains, and of what goes with them. -/
theorem commit_eq {db db' : CatalogDb} {write : CatalogWrite} (h : db.commit write = some db') :
    ∃ domains jobDomains, db' =
      { db with domains := domains, jobDomains := jobDomains, writes := db.writes + 1 } := by
  cases write with
  | upsertDomain order fields => exact ⟨_, _, (Option.some.inj h).symm⟩
  | updateDomainUrl domainId mainUrl contactUrl =>
      obtain ⟨domains, -, rfl⟩ := Option.map_eq_some_iff.mp h
      exact ⟨domains, _, rfl⟩
  | replaceCatalog entries => exact ⟨_, _, (Option.some.inj h).symm⟩

/-! ### The map of netlocs -/

/-- The netloc a domain is found by; `none` for one that cannot be found. -/
def CatalogDomain.netloc (rules : LeadRules) (d : CatalogDomain) : Option String :=
  match d.fields.mainUrl.bind rules.netloc with
  | none => none
  | some netloc =>
      let netloc := removePrefix "www." (rules.lower netloc)
      if netloc = "" then none else some netloc

/-- The loop of `_build_netloc_domain_map`.  An entry hides those behind it. -/
def addNetloc (rules : LeadRules) (byNetloc : List (String × CatalogDomain)) (d : CatalogDomain) :
    List (String × CatalogDomain) :=
  match d.netloc rules with
  | none => byNetloc
  | some netloc =>
      match byNetloc.lookup netloc with
      | some existing => if existing.id ≤ d.id then byNetloc else (netloc, d) :: byNetloc
      | none => (netloc, d) :: byNetloc

/-- `_build_netloc_domain_map`. -/
def buildNetlocDomainMap (rules : LeadRules) (rows : List CatalogDomain) :
    List (String × CatalogDomain) :=
  rows.foldl (addNetloc rules) []

/-- It is the domain of a netloc: of those that have it the one with the lowest id. -/
structure CatalogDomain.Lowest (rules : LeadRules) (rows : List CatalogDomain) (netloc : String)
    (d : CatalogDomain) : Prop where
  mem : d ∈ rows
  found : d.netloc rules = some netloc
  lowest : ∀ d' ∈ rows, d'.netloc rules = some netloc → d.id ≤ d'.id

/-- What a netloc is mapped to. -/
def MapsTo (rules : LeadRules) (rows : List CatalogDomain) (netloc : String) :
    Option CatalogDomain → Prop
  | none => ∀ d ∈ rows, d.netloc rules ≠ some netloc
  | some d => d.Lowest rules rows netloc

section Netlocs

variable {rules : LeadRules} {rows : List CatalogDomain} {netloc : String}

/-- A domain with another netloc does not matter. -/
theorem MapsTo.append_of_ne {entry : Option CatalogDomain} (h : MapsTo rules rows netloc entry)
    {d : CatalogDomain} (hne : d.netloc rules ≠ some netloc) :
    MapsTo rules (rows ++ [d]) netloc entry := by
  cases entry with
  | none =>
      intro d' hd'
      rcases List.mem_append.mp hd' with hold | hnew
      · exact h d' hold
      · exact List.mem_singleton.mp hnew ▸ hne
  | some d₀ =>
      refine ⟨List.mem_append_left _ h.mem, h.found, fun d' hd' hfound => ?_⟩
      rcases List.mem_append.mp hd' with hold | hnew
      · exact h.lowest d' hold hfound
      · exact absurd (List.mem_singleton.mp hnew ▸ hfound) hne

/-- A domain with the netloc takes the place of one with a higher id. -/
theorem MapsTo.append_of_eq {entry : Option CatalogDomain} (h : MapsTo rules rows netloc entry)
    {d : CatalogDomain} (heq : d.netloc rules = some netloc) :
    MapsTo rules (rows ++ [d]) netloc
      (if entry.any fun existing => existing.id ≤ d.id then entry else some d) := by
  cases entry with
  | none =>
      refine ⟨List.mem_append_right _ (List.mem_singleton.mpr rfl), heq, fun d' hd' hfound => ?_⟩
      rcases List.mem_append.mp hd' with hold | hnew
      · exact absurd hfound (h d' hold)
      · exact List.mem_singleton.mp hnew ▸ Nat.le_refl _
  | some d₀ =>
      by_cases hle : d₀.id ≤ d.id
      · rw [if_pos (by simpa using hle)]
        refine ⟨List.mem_append_left _ h.mem, h.found, fun d' hd' hfound => ?_⟩
        rcases List.mem_append.mp hd' with hold | hnew
        · exact h.lowest d' hold hfound
        · exact List.mem_singleton.mp hnew ▸ hle
      · rw [if_neg (by simpa using hle)]
        refine ⟨List.mem_append_right _ (List.mem_singleton.mpr rfl), heq, fun d' hd' hfound => ?_⟩
        rcases List.mem_append.mp hd' with hold | hnew
        · exact Nat.le_trans (Nat.le_of_not_le hle) (h.lowest d' hold hfound)
        · exact List.mem_singleton.mp hnew ▸ Nat.le_refl _

theorem lookup_addNetloc (byNetloc : List (String × CatalogDomain)) (d : CatalogDomain) :
    (addNetloc rules byNetloc d).lookup netloc =
      if d.netloc rules = some netloc ∧
          ¬ (byNetloc.lookup netloc).any (fun existing => existing.id ≤ d.id) then some d
      else byNetloc.lookup netloc := by
  unfold addNetloc
  cases hnetloc : d.netloc rules with
  | none => simp
  | some netloc' =>
      by_cases heq : netloc' = netloc
      · subst heq
        cases hlookup : byNetloc.lookup netloc' with
        | none => simp [hlookup]
        | some existing =>
            by_cases hle : existing.id ≤ d.id
            · simp [hle, hlookup]
            · simp [hle, hlookup]
      · have hbeq : (netloc == netloc') = false := beq_eq_false_iff_ne.mpr (Ne.symm heq)
        have hskip : ((netloc', d) :: byNetloc).lookup netloc = byNetloc.lookup netloc := by
          rw [List.lookup_cons, hbeq]
        rw [if_neg fun h => heq (Option.some.inj h.1)]
        dsimp only
        split
        · split
          · rfl
          · exact hskip
        · exact hskip

/-- **The map of netlocs** has, whatever the order of the rows, the domain with the lowest id of
every netloc. -/
theorem mapsTo_buildNetlocDomainMap (rules : LeadRules) (rows : List CatalogDomain)
    (netloc : String) :
    MapsTo rules rows netloc ((buildNetlocDomainMap rules rows).lookup netloc) := by
  induction rows using List.reverseRecOn with
  | nil => exact fun d hd => nomatch hd
  | append_singleton rows d ih =>
      unfold buildNetlocDomainMap at ih ⊢
      rw [List.foldl_append, List.foldl_cons, List.foldl_nil, lookup_addNetloc]
      by_cases hfound : d.netloc rules = some netloc
      · have happend := ih.append_of_eq hfound
        split at happend
        · rename_i hany
          rwa [if_neg fun h => h.2 hany]
        · rename_i hany
          rwa [if_pos ⟨hfound, hany⟩]
      · rw [if_neg fun h => hfound h.1]
        exact ih.append_of_ne hfound

end Netlocs

end GovCrawler
