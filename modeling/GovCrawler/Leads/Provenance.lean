/-
Whose department it is: the parser's `field_provenance`, and what `save_lead` makes of it.

`_enrich_fields` takes the department of a table row, and the label of the URL where there is
none.  `_score` does not see which of the two it was.  It goes by the table: once its header has a
column for departments, the department is said to be the table's.  So the default of a row whose
cell is empty, or of a row nobody read because person extraction is off, is passed off as the
table's, and the cloud does not swap it for the title.  At a URL whose host has no first label
there is no default, thus nothing that is called one, and the title does not step in either.

`LinesUp` says where none of this happens, and there parser and cloud agree.
-/
import GovCrawler.Crawler.Addresses
import GovCrawler.Leads.MergeLaw
import GovCrawler.Leads.SelfResolution

namespace GovCrawler

open Relational StoreProgram Prog

namespace Parser

/-! ### What the page gave -/

/-- The entities leads are made of. -/
def emitted (rules : Rules) (config : ExtractionConfig) (soup : Soup) (sourceUrl : String) :
    List ScoredEntity :=
  firstPerEmail [] (scoredEntities rules config soup sourceUrl)

theorem extractLeads_eq (rules : Rules) (config : ExtractionConfig) (soup : Soup)
    (sourceUrl : String) :
    extractLeads rules config soup sourceUrl =
      (emitted rules config soup sourceUrl).map
        (ScoredEntity.lead sourceUrl (strip (soup.title.getD ""))) :=
  rfl

/-- The department that the page gives a candidate: that of its row.  A candidate that had to give
way for another gives none. -/
def pageDepartment (pcfg : PersonConfig) : Source → Option String
  | .tableBlock ctx => if pcfg.enabled then cellValue ctx.cellTexts ctx.col.department else none
  | _ => none

/-- `_col["department"]` of a candidate. -/
def Source.departmentCol : Source → Option Nat
  | .tableBlock ctx => ctx.col.department
  | _ => none

/-- The row gave a department, or there is no host, or the URL's label is a department and no
column could have given one. -/
def LinesUp (rules : Rules) (pcfg : PersonConfig) (sourceUrl : String) (source : Source) : Prop :=
  truthy (pageDepartment pcfg source) = true ∨ deptFromUrl rules sourceUrl = none ∨
    (source.departmentCol = none ∧ truthy (deptFromUrl rules sourceUrl) = true)

/-! ### The department, through the stages -/

theorem departmentCol_eq (e : EnrichedEntity) : e.departmentCol = e.source.departmentCol := by
  unfold EnrichedEntity.departmentCol
  cases e.source <;> rfl

/-- A context fills in no department. -/
theorem applyFallbackContext_department (re : Re) (pcfg : PersonConfig) (e : EnrichedEntity) :
    (applyFallbackContext re pcfg e).department = e.department := by
  unfold applyFallbackContext
  cases e.fallbackTable with
  | none => dsimp only; split <;> rfl
  | some ctx => dsimp only; split <;> rfl

theorem readContext_department (re : Re) (soup : Soup) (pcfg : PersonConfig) (ecfg : EmailConfig)
    (e : Entity) :
    (readContext re soup pcfg ecfg e).department = pageDepartment pcfg e.source := by
  unfold readContext
  cases e.source with
  | tableBlock ctx =>
      unfold pageDepartment
      cases pcfg.enabled <;> rfl
  | proximityText ctx bracketed => cases pcfg.enabled <;> rfl
  | mailtoTel => cases pcfg.enabled <;> rfl
  | microdata => cases pcfg.enabled <;> rfl

/-- The department that `_enrich_fields` gives an entity. -/
def enrichedDepartment (rules : Rules) (pcfg : PersonConfig) (sourceUrl : String)
    (source : Source) : Option String :=
  if truthy (pageDepartment pcfg source) then pageDepartment pcfg source
  else deptFromUrl rules sourceUrl

/-- The entity has the department of where it was found. -/
def Enriched (rules : Rules) (pcfg : PersonConfig) (sourceUrl : String) (e : EnrichedEntity) : Prop :=
  e.department = enrichedDepartment rules pcfg sourceUrl e.source

theorem enrichFields_enriched (rules : Rules) (soup : Soup) (sourceUrl : String)
    (pcfg : PersonConfig) (ecfg : EmailConfig) (entity : Entity) :
    Enriched rules pcfg sourceUrl (enrichFields rules soup sourceUrl pcfg ecfg entity) := by
  have hsource : (enrichFields rules soup sourceUrl pcfg ecfg entity).source = entity.source :=
    congrArg (fun e : Entity => e.source) (enrichFields_toEntity sourceUrl entity)
  unfold Enriched enrichedDepartment
  rw [hsource, ← readContext_department rules.re soup pcfg ecfg entity]
  unfold enrichFields
  dsimp only
  split
  · rw [applyFallbackContext_department]
  · rfl

/-- What a bracketed form gets is an address. -/
theorem mem_normaliseFrom {rules : Rules} {ecfg : EmailConfig} {roleLocalParts : List String}
    {e : EnrichedEntity} {entities : List EnrichedEntity} {resolvedEmails : List String}
    (h : e ∈ normaliseFrom rules ecfg roleLocalParts resolvedEmails entities) :
    ∃ e₀ ∈ entities, e.source = e₀.source ∧ e.department = e₀.department := by
  induction entities generalizing resolvedEmails with
  | nil => cases h
  | cons e₁ rest ih =>
      have hrest : ∀ {taken}, e ∈ normaliseFrom rules ecfg roleLocalParts taken rest →
          ∃ e₀ ∈ e₁ :: rest, e.source = e₀.source ∧ e.department = e₀.department := by
        intro taken h
        obtain ⟨e₀, hmem, hkept⟩ := ih h
        exact ⟨e₀, List.mem_cons_of_mem _ hmem, hkept⟩
      obtain ⟨-, heq⟩ | ⟨-, -, heq⟩ | ⟨-, addr, e', -, -, -, -, hsource, hdepartment, heq⟩ :=
        normaliseFrom_cons rules ecfg roleLocalParts resolvedEmails e₁ rest
      · rw [heq] at h
        rcases List.mem_cons.mp h with rfl | h
        · exact ⟨e, List.mem_cons_self, rfl, rfl⟩
        · exact hrest h
      · rw [heq] at h
        exact hrest h
      · rw [heq] at h
        rcases List.mem_cons.mp h with rfl | h
        · exact ⟨e₁, List.mem_cons_self, hsource, hdepartment⟩
        · exact hrest h

theorem mem_firstPerEmail {e : ScoredEntity} {entities : List ScoredEntity}
    {seenEmails : List String} (h : e ∈ firstPerEmail seenEmails entities) :
    e ∈ entities ∧ truthy e.email = true := by
  induction entities generalizing seenEmails with
  | nil => cases h
  | cons e₁ rest ih =>
      obtain ⟨-, heq⟩ | ⟨addr, hemail, hne, -, heq⟩ := firstPerEmail_cons seenEmails e₁ rest
      · rw [heq] at h
        exact ⟨List.mem_cons_of_mem _ (ih h).1, (ih h).2⟩
      · rw [heq] at h
        rcases List.mem_cons.mp h with rfl | h
        · exact ⟨List.mem_cons_self, truthy_iff.mpr ⟨addr, hemail, hne⟩⟩
        · exact ⟨List.mem_cons_of_mem _ (ih h).1, (ih h).2⟩

/-- What is emitted has an address, the department of where it was found, and its provenance as
JSON. -/
theorem emitted_spec {rules : Rules} {config : ExtractionConfig} {soup : Soup} {sourceUrl : String}
    {e : ScoredEntity} (h : e ∈ emitted rules config soup sourceUrl) :
    truthy e.email = true ∧ Enriched rules config.person sourceUrl e.toEnrichedEntity ∧
      e.fieldProvenance = jsonDumps e.provenance := by
  obtain ⟨hscored, hemail⟩ := mem_firstPerEmail h
  obtain ⟨e₁, hnormalised, rfl⟩ := List.mem_map.mp hscored
  obtain ⟨e₀, henriched, hsource, hdepartment⟩ := mem_normaliseFrom hnormalised
  obtain ⟨entity, -, rfl⟩ := List.mem_map.mp henriched
  refine ⟨hemail, ?_, rfl⟩
  have hkept := enrichFields_enriched rules soup sourceUrl config.person config.email entity
  unfold Enriched at hkept ⊢
  exact hdepartment.trans (hsource ▸ hkept)

/-! ### The provenance -/

theorem value_ne_url_default (rung : Rung) : rung.value ≠ "url_default" := by
  cases rung <;> decide

theorem lookup_filterMap_of_ne {key key' : String} (hne : key' ≠ key) (value : Option String)
    (rest : List (String × Option String)) :
    (((key', value) :: rest).filterMap fun f => f.2.map fun value => (f.1, value)).lookup key =
      (rest.filterMap fun f => f.2.map fun value => (f.1, value)).lookup key := by
  cases value with
  | none => rfl
  | some value =>
      show List.lookup key ((key', value) :: _) = _
      rw [List.lookup_cons, beq_false_of_ne (Ne.symm hne)]

/-- What `_score` says of a department: the rung, if there is a column, else the URL. -/
theorem lookup_provenance (e : EnrichedEntity) :
    e.provenance.lookup "department" =
      if truthy e.department then
        some (if e.source.departmentCol.isSome then e.source.rung.value else "url_default")
      else none := by
  unfold EnrichedEntity.provenance
  dsimp only
  rw [lookup_filterMap_of_ne (by decide), lookup_filterMap_of_ne (by decide),
    lookup_filterMap_of_ne (by decide), departmentCol_eq]
  cases truthy e.department with
  | true => cases e.source.departmentCol.isSome <;> rfl
  | false =>
      rw [Bool.and_false, if_neg Bool.false_ne_true]
      exact lookup_filterMap_of_ne (by decide) _ []

theorem lookup_url_default_iff (e : EnrichedEntity) :
    e.provenance.lookup "department" = some "url_default" ↔
      truthy e.department = true ∧ e.source.departmentCol = none := by
  rw [lookup_provenance]
  cases truthy e.department with
  | false => simp
  | true =>
      cases e.source.departmentCol with
      | none => simp
      | some i => simp [value_ne_url_default]

theorem jsonDumps_ne (fields : List (String × String)) : jsonDumps fields ≠ "" := by
  intro h
  have hlength := congrArg String.length h
  unfold jsonDumps at hlength
  simp [String.length_append] at hlength

/-! ### The host -/

/-- Dropping a prefix that is in what is kept. -/
theorem removePrefix_takeWhile {p : String} {q : Char → Bool} (hq : ∀ c ∈ p.toList, q c = true)
    (s : String) :
    removePrefix p (String.ofList (s.toList.takeWhile q)) =
      String.ofList ((removePrefix p s).toList.takeWhile q) := by
  unfold removePrefix
  rw [String.toList_ofList]
  by_cases hprefix : p.toList <+: s.toList
  · obtain ⟨rest, hrest⟩ := hprefix
    have hdrop : ∀ t : List Char, (p.toList ++ t).drop p.length = t := fun t => by
      rw [← String.length_toList, List.drop_left]
    rw [← hrest, List.takeWhile_append_of_pos hq,
      if_pos (List.isPrefixOf_iff_prefix.mpr (List.prefix_append ..)),
      if_pos (List.isPrefixOf_iff_prefix.mpr (List.prefix_append ..)), hdrop, hdrop,
      String.toList_ofList]
  · have hshort : ¬ p.toList <+: s.toList.takeWhile q := fun h =>
      hprefix (h.trans (List.takeWhile_prefix q))
    rw [if_neg fun h => hshort (List.isPrefixOf_iff_prefix.mp h),
      if_neg fun h => hprefix (List.isPrefixOf_iff_prefix.mp h)]

/-- A list that is empty up to the separator starts with it. -/
theorem head_of_splitAtChar {c : Char} {s : String} (hne : s ≠ "")
    (h : (splitAtChar c s).head? = some "") : ∃ rest, s.toList = c :: rest := by
  unfold splitAtChar at h
  cases hs : s.toList with
  | nil => exact absurd (String.toList_eq_nil_iff.mp hs) hne
  | cons c' rest =>
      by_cases hc : c' = c
      · exact ⟨rest, by rw [hc]⟩
      · rw [hs, List.splitOn_cons_eq_if_modifyHead, if_neg (by simpa using hc)] at h
        cases hrest : rest.splitOn c with
        | nil => exact absurd hrest (List.splitOn_ne_nil c rest)
        | cons label labels =>
            rw [hrest] at h
            have hlabel := congrArg String.toList (Option.some.inj h)
            simp at hlabel

theorem two_le_splitOn_cons (c : Char) (rest : List Char) :
    2 ≤ ((c :: rest).splitOn c).length := by
  have hpos := List.length_pos_iff.mpr (List.splitOn_ne_nil c rest)
  rw [List.splitOn_cons_eq_if_modifyHead, if_pos (beq_self_eq_true c), List.length_cons]
  omega

/-- The host of a URL without its port, as `resolve_domain_for_url` has it. -/
theorem resolve_eq {cloud : LeadRules} {rules : Rules} (hlower : cloud.lower = rules.lower)
    (hnetloc : cloud.netloc = rules.netloc) {D : Type} (url : String)
    (netlocMap : List (String × D)) (targetSuffixes : List String) {netloc : String}
    (h : rules.netloc url = some netloc) :
    resolveDomainForUrl cloud url netlocMap targetSuffixes =
      let host :=
        String.ofList ((removePrefix "www." (rules.lower netloc)).toList.takeWhile (· ≠ ':'))
      if host = "" then none
      else walkUp netlocMap (targetSuffixes.map (lstrip '.'))
        ((host.toList.splitOn '.').map String.ofList) := by
  unfold resolveDomainForUrl
  rw [hnetloc, hlower, h]
  dsimp only
  rw [removePrefix_takeWhile (List.all_eq_true.mp (by decide))]

/-- A URL without a host belongs to no domain. -/
theorem resolve_of_deptFromUrl_none {cloud : LeadRules} {rules : Rules}
    (hlower : cloud.lower = rules.lower) (hnetloc : cloud.netloc = rules.netloc) {D : Type}
    {url : String} (h : deptFromUrl rules url = none) (netlocMap : List (String × D))
    (targetSuffixes : List String) :
    resolveDomainForUrl cloud url netlocMap targetSuffixes = none := by
  unfold deptFromUrl at h
  cases hurl : rules.netloc url with
  | none =>
      unfold resolveDomainForUrl
      rw [hnetloc, hurl]
  | some netloc =>
      rw [hurl] at h
      dsimp only at h
      by_cases hhost : removePrefix "www." (rules.lower netloc) = ""
      · rw [resolve_eq hlower hnetloc url netlocMap targetSuffixes hurl, hhost]
        rfl
      · rw [if_neg hhost, List.head?_eq_none_iff] at h
        exact absurd (List.map_eq_nil_iff.mp h) (List.splitOnP_ne_nil _ _)

/-- A host without a first label can be that of a domain of the catalog. -/
theorem exists_resolve {rules : Rules} {url : String} (h : deptFromUrl rules url = some "") :
    ∃ host : String, ∀ {cloud : LeadRules} {D : Type} (domain : D), cloud.lower = rules.lower →
      cloud.netloc = rules.netloc →
      resolveDomainForUrl cloud url [(host, domain)] [] = some domain := by
  unfold deptFromUrl at h
  cases hurl : rules.netloc url with
  | none =>
      rw [hurl] at h
      cases h
  | some netloc =>
      rw [hurl] at h
      dsimp only at h
      split at h
      · cases h
      · rename_i hhost
        obtain ⟨rest, hdot⟩ := head_of_splitAtChar hhost h
        generalize hkey : String.ofList ('.' :: rest.takeWhile (· ≠ ':')) = key
        have hlist : key.toList = '.' :: rest.takeWhile (· ≠ ':') :=
          hkey ▸ String.toList_ofList
        have hne : key ≠ "" := by
          rintro rfl
          cases hlist
        have hlabels : 2 ≤ (key.toList.splitOn '.').length := by
          rw [hlist]
          exact two_le_splitOn_cons '.' _
        refine ⟨key, fun domain hlower hnetloc => ?_⟩
        rw [resolve_eq hlower hnetloc url _ _ hurl, hdot, List.takeWhile_cons_of_pos (by decide),
          hkey]
        dsimp only
        rw [if_neg hne]
        exact walkUp_of_hit List.not_mem_nil hlabels (by rw [List.lookup_cons, beq_self_eq_true])

/-! ### What the cloud makes of it -/

/-- The cloud takes URLs apart as the parser does, and reads what the parser wrote. -/
structure Reads (rules : Rules) (e : ScoredEntity) (cloud : LeadRules) : Prop where
  lower : cloud.lower = rules.lower
  netloc : cloud.netloc = rules.netloc
  loads : cloud.loads e.fieldProvenance = .dict (e.provenance.lookup "department")

/-- The row is that of a lead a worker has posted, the first of its email, and belongs to a snapshot
with a title. -/
structure FirstCaptured (cloud : LeadRules) (db : LeadsDb) (c : Capture) (lead : ParsedLead)
    (row : Lead) (title : String) : Prop where
  posted : ∃ (pages : PageRules) (page : QueueItem), c.item = pages.payload page lead
  capture : c.Of cloud db row.email
  first : db.hasEmail row.email = false
  saved : row ∈ (c.save cloud db).leads.rows
  snapshot : ∃ k snapshot, row.snapshotId = some k ∧
    (c.save cloud db).snapshots.get? k = some snapshot ∧ snapshot.title = some title
  nonempty : title ≠ ""

/-- Parser and cloud agree on where the department of an emitted lead is from. -/
structure Agrees (rules : Rules) (pcfg : PersonConfig) (sourceUrl pageTitle : String)
    (e : ScoredEntity) : Prop where
  provenance : e.provenance.lookup "department" = some "url_default" ↔
    truthy (pageDepartment pcfg e.source) = false ∧ truthy e.department = true ∧
      e.department = deptFromUrl rules sourceUrl
  saved : ∀ (cloud : LeadRules) (db : LeadsDb) (c : Capture) (row : Lead) (title : String),
    Reads rules e cloud → FirstCaptured cloud db c (e.lead sourceUrl pageTitle) row title →
    row.department =
      if truthy (pageDepartment pcfg e.source) then e.department else some title

section Saved

variable {rules : Rules} {pcfg : PersonConfig} {sourceUrl pageTitle : String} {e : ScoredEntity}
  {cloud : LeadRules} {db : LeadsDb} {c : Capture} {row : Lead} {title : String}

theorem departmentIsUrlFallback_eq (hreads : Reads rules e cloud)
    (hprovenance : e.fieldProvenance = jsonDumps e.provenance) :
    departmentIsUrlFallback cloud (some e.fieldProvenance) =
      .ok (e.provenance.lookup "department" == some "url_default") := by
  have hne : e.fieldProvenance ≠ "" := hprovenance ▸ jsonDumps_ne _
  unfold departmentIsUrlFallback
  split
  · rename_i h
    cases h
  · rename_i h
    exact absurd (Option.some.inj h) hne
  · rename_i h
    rw [← Option.some.inj h, hreads.loads]

/-- The title is swapped in where the provenance says that the department is the URL's. -/
theorem department_firstCaptured (hreads : Reads rules e cloud)
    (hprovenance : e.fieldProvenance = jsonDumps e.provenance)
    (h : FirstCaptured cloud db c (e.lead sourceUrl pageTitle) row title) :
    row.department =
        (if e.provenance.lookup "department" = some "url_default" then some title
        else e.department) ∧
      (resolveDomainForUrl cloud sourceUrl db.netlocMap db.targetSuffixes).isSome = true := by
  obtain ⟨pages, page, hitem⟩ := h.posted
  obtain ⟨k, snapshot, hk, hsnapshot, htitle⟩ := h.snapshot
  have hfallback : departmentIsUrlFallback cloud c.item.fieldProvenance =
      .ok (e.provenance.lookup "department" == some "url_default") := by
    rw [hitem]
    exact departmentIsUrlFallback_eq hreads hprovenance
  have hread : readable cloud c.item db = true := by
    unfold readable
    rw [hfallback]
    exact Bool.or_true _
  obtain ⟨hdepartment, hsome⟩ := department_save h.capture h.first hread h.saved rfl
  refine ⟨?_, ?_⟩
  · rw [hdepartment, hk]
    unfold givenDepartment
    rw [hfallback]
    have hown : c.item.department = e.department := by rw [hitem]; rfl
    by_cases hurl : e.provenance.lookup "department" = some "url_default"
    · rw [if_pos hurl, beq_iff_eq.mpr hurl]
      have hget : (((c.save cloud db).snapshots.get? k).bind fun s => s.title) = some title := by
        rw [hsnapshot]
        exact htitle
      dsimp only
      rw [hget, if_pos (truthy_iff.mpr ⟨title, rfl, h.nonempty⟩)]
    · rw [if_neg hurl, beq_false_of_ne hurl]
      exact hown
  · have hfound : foundDomain cloud db c.item =
        resolveDomainForUrl cloud sourceUrl db.netlocMap db.targetSuffixes := by rw [hitem]; rfl
    rw [← hfound, ← hsome, hk]
    rfl

end Saved

/-! ### A host without a label -/

/-- A catalog in which the host has a title. -/
def titledDb (host : String) : LeadsDb where
  jobs := ⟨[⟨1, some 7⟩], 2, List.pairwise_singleton _ _, by decide⟩
  netlocMap := [(host, ⟨1, some "Department"⟩)]
  targetSuffixes := []

/-- It has the snapshot of the host. -/
def snappedDb (host : String) : LeadsDb :=
  { titledDb host with
    snapshots :=
      ⟨[⟨1, 1, some 1, some "Department"⟩], 2, List.pairwise_singleton _ _, by decide⟩ }

theorem attributeLead_titled {cloud : LeadRules} {item : LeadItem} {host : String}
    (hsnapshot : item.snapshotId = none)
    (hfound : resolveDomainForUrl cloud item.sourceUrl [(host, ⟨1, some "Department"⟩)] [] =
      some (⟨1, some "Department"⟩ : Domain)) :
    attributeLead cloud 1 item (titledDb host) [] = (.ok (some 1), snappedDb host, []) := by
  have hread : ∀ {α : Type} (f : LeadsDb → α), read f (titledDb host) [] =
      ((.ok (f (titledDb host)) : Except LeadExc α), titledDb host, []) := fun _ => rfl
  unfold attributeLead inheritedDomain
  rw [bind_apply, hread]
  dsimp only
  rw [bind_apply, hread]
  dsimp only [titledDb]
  rw [hfound, hsnapshot]
  rfl

/-- A cloud that reads what the parser wrote. -/
def readingCloud (rules : Rules) (e : ScoredEntity) : LeadRules where
  lower := rules.lower
  netloc := rules.netloc
  loads := fun _ => .dict (e.provenance.lookup "department")

/-- The lead, posted for a job. -/
def postedLead (lead : ParsedLead) : Capture where
  jobId := 1
  capturedBy := none
  item := PageRules.payload ⟨fun _ _ => .ok [], fun _ => "", fun _ => none⟩
    ⟨0, 0, lead.sourceUrl, 0, none, false, 0, none⟩ lead

/-- Such a host has its title where `save_lead` looks for it, whatever the parser says. -/
theorem exists_firstCaptured {rules : Rules} {sourceUrl : String} {e : ScoredEntity}
    (hemail : truthy e.email = true) (hprovenance : e.fieldProvenance = jsonDumps e.provenance)
    (hlabel : deptFromUrl rules sourceUrl = some "") (pageTitle : String) :
    ∃ cloud db c row, Reads rules e cloud ∧
      FirstCaptured cloud db c (e.lead sourceUrl pageTitle) row "Department" := by
  obtain ⟨host, hresolve⟩ := exists_resolve hlabel
  have hreads : Reads rules e (readingCloud rules e) := ⟨rfl, rfl, rfl⟩
  generalize hc : postedLead (e.lead sourceUrl pageTitle) = c
  have hof : c.Of (readingCloud rules e) (titledDb host) (storedEmail (readingCloud rules e) c.item) :=
    hc ▸ ⟨rfl, hemail, rfl, rfl⟩
  have hjob : c.jobId = 1 := hc ▸ rfl
  have hattribute : attributeLead (readingCloud rules e) c.jobId c.item (titledDb host) [] =
      (.ok (some 1), snappedDb host, []) := by
    rw [hjob]
    refine attributeLead_titled (hc ▸ rfl) ?_
    rw [← hc]
    exact hresolve _ rfl rfl
  have hfallback : departmentIsUrlFallback (readingCloud rules e) c.item.fieldProvenance =
      .ok (e.provenance.lookup "department" == some "url_default") :=
    hc ▸ departmentIsUrlFallback_eq hreads hprovenance
  obtain ⟨row, hrow, hemail, hsnapshot, hkept⟩ :=
    exists_row_of_attribute hof rfl hattribute rfl rfl rfl fun _ => by rw [hfallback]; rfl
  rw [← hemail] at hof
  refine ⟨readingCloud rules e, titledDb host, c, row, hreads, ⟨⟨_, _, by rw [← hc]; rfl⟩, hof, rfl,
    hrow, ⟨1, ⟨1, 1, some 1, some "Department"⟩, hsnapshot, ?_, rfl⟩, by decide⟩⟩
  rw [hkept]
  rfl

/-! ### Where they agree -/

section Agree

variable {rules : Rules} {pcfg : PersonConfig} {sourceUrl pageTitle : String} {e : ScoredEntity}

/-- Only a column gives a department. -/
theorem pageDepartment_of_none {source : Source} (h : source.departmentCol = none) :
    pageDepartment pcfg source = none := by
  cases source with
  | tableBlock ctx =>
      have hcol : ctx.col.department = none := h
      show (if pcfg.enabled = true then cellValue ctx.cellTexts ctx.col.department else none) = none
      rw [hcol]
      exact ite_self none
  | _ => rfl

theorem agrees_of_linesUp (henriched : Enriched rules pcfg sourceUrl e.toEnrichedEntity)
    (hprovenance : e.fieldProvenance = jsonDumps e.provenance)
    (h : LinesUp rules pcfg sourceUrl e.source) : Agrees rules pcfg sourceUrl pageTitle e := by
  unfold Enriched enrichedDepartment at henriched
  by_cases hpage : truthy (pageDepartment pcfg e.source) = true
  · -- a column gave it, and is named
    have hcol : e.source.departmentCol ≠ none := fun hnone => by
      rw [pageDepartment_of_none hnone] at hpage
      cases hpage
    have hlookup : e.provenance.lookup "department" ≠ some "url_default" := fun hurl =>
      hcol ((lookup_url_default_iff _).mp hurl).2
    refine ⟨⟨fun hurl => absurd hurl hlookup, fun hnot => ?_⟩,
      fun cloud db c row title hreads hfirst => ?_⟩
    · rw [hpage] at hnot
      cases hnot.1
    · rw [(department_firstCaptured hreads hprovenance hfirst).1, if_neg hlookup, if_pos hpage]
  · rw [if_neg hpage] at henriched
    rcases h with hgiven | hhost | ⟨hcol, hlabel⟩
    · exact absurd hgiven hpage
    · -- no department, and no domain
      have hnone : truthy e.department = false := by rw [henriched, hhost]; rfl
      refine ⟨⟨fun hurl => ?_, fun hnot => ?_⟩, fun cloud db c row title hreads hfirst => ?_⟩
      · have hsome := ((lookup_url_default_iff _).mp hurl).1
        rw [hnone] at hsome
        cases hsome
      · rw [hnone] at hnot
        cases hnot.2.1
      · have hfound := (department_firstCaptured hreads hprovenance hfirst).2
        rw [resolve_of_deptFromUrl_none hreads.lower hreads.netloc hhost] at hfound
        cases hfound
    · have hlookup : e.provenance.lookup "department" = some "url_default" :=
        (lookup_url_default_iff _).mpr ⟨by rw [henriched]; exact hlabel, hcol⟩
      refine ⟨⟨fun _ => ⟨Bool.eq_false_iff.mpr hpage, by rw [henriched]; exact hlabel, henriched⟩,
        fun _ => hlookup⟩, fun cloud db c row title hreads hfirst => ?_⟩
      rw [(department_firstCaptured hreads hprovenance hfirst).1, if_pos hlookup, if_neg hpage]

theorem linesUp_of_agrees (hemail : truthy e.email = true)
    (henriched : Enriched rules pcfg sourceUrl e.toEnrichedEntity)
    (hprovenance : e.fieldProvenance = jsonDumps e.provenance)
    (h : Agrees rules pcfg sourceUrl pageTitle e) : LinesUp rules pcfg sourceUrl e.source := by
  unfold Enriched enrichedDepartment at henriched
  by_cases hpage : truthy (pageDepartment pcfg e.source) = true
  · exact Or.inl hpage
  rw [if_neg hpage] at henriched
  refine Or.inr ?_
  cases hurl : deptFromUrl rules sourceUrl with
  | none => exact Or.inl rfl
  | some label =>
      by_cases hlabel : truthy (some label) = true
      · have hlookup := h.provenance.mpr
          ⟨Bool.eq_false_iff.mpr hpage, by rw [henriched, hurl]; exact hlabel, henriched⟩
        exact Or.inr ⟨((lookup_url_default_iff _).mp hlookup).2, hlabel⟩
      · -- nothing is the URL's, and the title stays out
        obtain rfl : label = "" := by
          by_contra hne
          exact hlabel (decide_eq_true hne)
        obtain ⟨cloud, db, c, row, hreads, hfirst⟩ :=
          exists_firstCaptured hemail hprovenance hurl pageTitle
        have hsaved := h.saved cloud db c row "Department" hreads hfirst
        have hlookup : e.provenance.lookup "department" ≠ some "url_default" := fun hdefault =>
          hlabel (hurl ▸ henriched ▸ ((lookup_url_default_iff _).mp hdefault).1)
        rw [(department_firstCaptured hreads hprovenance hfirst).1, if_neg hlookup, if_neg hpage,
          henriched, hurl] at hsaved
        exact absurd (Option.some.inj hsaved) (by decide)

end Agree

/--
**Parser and cloud agree on departments** exactly where the row of the winning candidate gave one,
or the URL has no host, or no column could have given one and the host has a first label.
-/
theorem provenance_agrees_iff (rules : Rules) (config : ExtractionConfig) (soup : Soup)
    (sourceUrl : String) (e : ScoredEntity) (h : e ∈ emitted rules config soup sourceUrl) :
    Agrees rules config.person sourceUrl (strip (soup.title.getD "")) e ↔
      LinesUp rules config.person sourceUrl e.source := by
  obtain ⟨hemail, henriched, hprovenance⟩ := emitted_spec h
  exact ⟨linesUp_of_agrees hemail henriched hprovenance, agrees_of_linesUp henriched hprovenance⟩

/-! The contacts of a zone.  The second row has no department. -/

def zoneUrl : String := "https://seepz.gov.in/contact"

/-- What the default pattern finds on the page. -/
def addressPattern : Pattern where
  finditer := fun text =>
    ["customs@seepz.gov.in", "office@seepz.gov.in"].filterMap fun address =>
      (findSub address.toList text.toList).map fun i => ⟨i, i + address.length, [address]⟩
  search := fun _ => none
  prefixMatch := fun _ => none
  fullmatch := fun _ => false
  sub := fun _ text => text

/-- A pattern that the page does not have. -/
def missingPattern : Pattern :=
  ⟨fun _ => [], fun _ => none, fun _ => none, fun _ => false, fun _ text => text⟩

def zoneRules : Rules where
  re :=
    { compile := fun _ => missingPattern
      compileIgnoreCase := fun pattern =>
        if pattern = ({} : EmailConfig).regex then addressPattern else missingPattern
      escape := id }
  lower := fun s => if s = "Department" then "department" else if s = "Email" then "email" else s
  unquote := id
  netloc := fun url => if url = zoneUrl then some "seepz.gov.in" else none

def zoneRow (node : Node) (department address : String) : Node × List Cell :=
  (node, [⟨department, department⟩, ⟨address, address⟩])

def zonePage : Soup where
  title := some "Contacts"
  anchors := []
  itemprops := []
  tables := [[zoneRow 1 "Department" "Email", zoneRow 2 "Customs" "customs@seepz.gov.in",
    zoneRow 3 "" "office@seepz.gov.in"]]
  text := "Contacts Department Email Customs customs@seepz.gov.in  office@seepz.gov.in"
  names := []
  parent := fun _ => none
  nodeText := fun _ => ""

/-- What a lead says of its department, what the row did, and what the provenance does. -/
def ScoredEntity.report (e : ScoredEntity) :
    Option String × Option String × Option String × Option String :=
  (e.email, e.department, pageDepartment {} e.source, e.provenance.lookup "department")

theorem zone_reports :
    (emitted zoneRules {} zonePage zoneUrl).map ScoredEntity.report =
      [(some "customs@seepz.gov.in", some "Customs", some "Customs", some "table_block"),
        (some "office@seepz.gov.in", some "seepz", none, some "table_block")] := by
  decide +kernel

theorem customs_agrees :
    ∃ e ∈ emitted zoneRules {} zonePage zoneUrl,
      e.email = some "customs@seepz.gov.in" ∧ e.department = some "Customs" ∧
      Agrees zoneRules {} zoneUrl (strip (zonePage.title.getD "")) e := by
  obtain ⟨e, hmem, he⟩ := List.mem_map.mp (zone_reports ▸ List.mem_cons_self ..)
  obtain ⟨hemail, he⟩ := Prod.mk.inj he
  obtain ⟨hdepartment, he⟩ := Prod.mk.inj he
  have hpage : truthy (pageDepartment {} e.source) = true := by
    rw [(Prod.mk.inj he).1]
    decide
  exact ⟨e, hmem, hemail, hdepartment,
    (provenance_agrees_iff zoneRules {} zonePage zoneUrl e hmem).mpr (Or.inl hpage)⟩

/-- The label of the URL is passed off as the table's. -/
theorem office_disagrees :
    ∃ e ∈ emitted zoneRules {} zonePage zoneUrl,
      e.email = some "office@seepz.gov.in" ∧ e.department = some "seepz" ∧
      pageDepartment {} e.source = none ∧
      e.provenance.lookup "department" = some "table_block" ∧
      ¬ Agrees zoneRules {} zoneUrl (strip (zonePage.title.getD "")) e := by
  obtain ⟨e, hmem, he⟩ := List.mem_map.mp
    (zone_reports ▸ List.mem_cons_of_mem _ (List.mem_cons_self ..))
  obtain ⟨hemail, he⟩ := Prod.mk.inj he
  obtain ⟨hdepartment, he⟩ := Prod.mk.inj he
  obtain ⟨hpage, hlookup⟩ := Prod.mk.inj he
  refine ⟨e, hmem, hemail, hdepartment, hpage, hlookup, fun hagrees => ?_⟩
  have hdefault := hagrees.provenance.mpr
    ⟨by rw [hpage]; rfl, by rw [hdepartment]; decide, by rw [hdepartment]; decide +kernel⟩
  rw [hlookup] at hdefault
  exact absurd (Option.some.inj hdefault) (by decide)

end Parser

end GovCrawler
